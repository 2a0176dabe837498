import LiteChat.Model.World

/-!
# The DAO classes

Every function of `UserDAO`, `FriendDAO` and `MessageDAO` has one shape: take a connection, prepare
one statement, execute it, turn `sql::SQLException` into a `false`. `caught` is that shape, and each
function below is `caught` at its statement. A function with out parameters answers an `Option`,
`none` being the `false` with which it leaves them unset.

The rules say what a caller needs to know: a query answers what the tables hold or fails, a write
happens or fails, and a write that violates a constraint is one that failed.
-/

namespace LiteChat

open LiteChat.Action

/-- Execute a statement inside `try { … } catch(sql::SQLException&) { … }`. -/
def caught {α : Type} (st : Stmt) (f : st.Res → α) (failed : α) : Action α := do
  match ← sql st with
  | .ok r => pure (f r)
  | .error _ => pure failed

namespace UserDAO

def insertUser (username passwordHash : Str) : Action Bool :=
  caught (.insertUser username passwordHash) (fun _ => true) false

def getUserByUsername (username : Str) : Action (Option (UserId × Str)) :=
  caught (.selectUser username) (fun r => r) none

def updateUsername (userId : UserId) (newUsername : Str) : Action Bool :=
  caught (.updateUsername userId newUsername) (fun _ => true) false

def updatePassword (userId : UserId) (newPasswordHash : Str) : Action Bool :=
  caught (.updatePassword userId newPasswordHash) (fun _ => true) false

def updateOnlineStatus (userId : UserId) (isOnline : Bool) : Action Bool :=
  caught (.updateOnline userId isOnline) (fun _ => true) false

def updateLastLoginTime (userId : UserId) : Action Bool :=
  caught (.updateLastLogin userId) (fun _ => true) false

def checkUsernameExists (username : Str) : Action Bool :=
  caught (.countUsers username) (fun n : Nat => decide (0 < n)) false

def getUserOnlineStatus (userId : UserId) : Action (Option Bool) :=
  caught (.selectOnline userId) (fun r => r) none

def updateOnlineStatusByUsername (username : Str) (isOnline : Bool) : Action Bool :=
  caught (.updateOnlineByName username isOnline) (fun _ => true) false

def getUserIdByUsername (username : Str) : Action (Option UserId) :=
  caught (.selectUserId username) (fun r => r) none

def getFriendsOfUser (userId : UserId) : Action (Option (List (Str × Bool))) :=
  caught (.selectFriends userId) some none

end UserDAO

namespace FriendDAO

def insertFriend (userId1 userId2 : UserId) : Action Bool :=
  caught (.insertFriend userId1 userId2) (fun _ => true) false

def deleteFriend (userId1 userId2 : UserId) : Action Bool :=
  caught (.deleteFriend userId1 userId2) (fun _ => true) false

def deleteMessagesBetweenUsers (userId1 userId2 : UserId) : Action Bool :=
  caught (.deleteMessages userId1 userId2) (fun _ => true) false

def checkFriendship (userId1 userId2 : UserId) : Action Bool :=
  caught (.countFriends userId1 userId2) (fun n : Nat => decide (0 < n)) false

def getFriendList (userId : UserId) : Action (Option (List (Str × Bool))) :=
  caught (.selectFriends userId) some none

end FriendDAO

namespace MessageDAO

def insertMessage (senderId receiverId : UserId) (content : Str) : Action Bool :=
  caught (.insertMessage senderId receiverId content) (fun _ => true) false

def getUnreadMessages (userId : UserId) : Action (Option (List Message)) :=
  caught (.selectUnread userId) some none

def markMessagesAsRead (senderId receiverId : UserId) : Action Bool :=
  caught (.markRead senderId receiverId) (fun _ => true) false

def getHistoryMessages (userId1 userId2 : UserId) (count : Int) :
    Action (Option (List Message)) :=
  caught (.selectHistory userId1 userId2 count) some none

end MessageDAO

/-! ## The rules -/

section Rules

variable {P : Platform} {E : Env} {w : World P}

theorem wp_caught {α : Type} (st : Stmt) (f : st.Res → α) (failed : α) {Q : α → World P → Prop} :
    wp E (caught st f failed) Q w ↔ (E.dbFails → Q failed w) ∧
      ∀ now rank, match w.db.exec now rank st with
        | some (r, db) => Q (f r) { w with db := db }
        | none => Q failed w := by
  unfold caught
  refine (wp_bind _ _).trans ((wp_op (.sql st)).trans ?_)
  constructor
  · intro h
    constructor
    · intro hf
      exact h { (default : Choice) with dbOk := false } ⟨fun _ => hf, nofun⟩
    · intro now rank
      have := h { (default : Choice) with now := now, rank := rank } E.ok_default
      simp only [World.handle, World.execute] at this
      revert this
      cases w.db.exec now rank st <;> exact id
  · rintro ⟨hfail, hok⟩ ch hch
    simp only [World.handle, World.execute]
    cases hdb : ch.dbOk with
    | false => exact hfail (hch.1 hdb)
    | true =>
      have := hok ch.now ch.rank
      simp only [if_true]
      revert this
      cases w.db.exec ch.now ch.rank st <;> exact id

/-- A statement run on the first of the choices. -/
theorem run_caught {α β : Type} (st : Stmt) (f : st.Res → α) (failed : α) (k : α → Action β)
    (cs : List Choice) :
    (caught st f failed >>= k).run cs w = match if (cs.headD default).dbOk then
        w.db.exec (cs.headD default).now (cs.headD default).rank st else none with
      | some (r, db) => (k (f r)).run cs.tail { w with db := db }
      | none => (k failed).run cs.tail w := by
  show Effect.Prog.run World.handle ((match (w.execute st (cs.headD default)).1 with
      | .ok r => pure (f r)
      | .error _ => pure failed : Action α) >>= k) cs.tail (w.execute st (cs.headD default)).2 = _
  unfold World.execute
  cases (cs.headD default).dbOk with
  | false => rfl
  | true =>
    simp only [if_true]
    cases w.db.exec (cs.headD default).now (cs.headD default).rank st <;> rfl

/-- A statement that reads, and gives the same whatever the environment chooses. -/
theorem wp_caught_read {α : Type} {st : Stmt} {f : st.Res → α} {failed : α} {r : st.Res}
    (h : ∀ now rank, w.db.exec now rank st = some (r, w.db)) {Q : α → World P → Prop} :
    wp E (caught st f failed) Q w ↔ (E.dbFails → Q failed w) ∧ Q (f r) w := by
  simp [wp_caught, h]

/-- A query whose rows come in no particular order. -/
theorem wp_caught_query {α : Type} {st : Stmt} {f : st.Res → α} {failed : α}
    {r : (Nat → Nat) → st.Res} (h : ∀ now rank, w.db.exec now rank st = some (r rank, w.db))
    {Q : α → World P → Prop} :
    wp E (caught st f failed) Q w ↔ (E.dbFails → Q failed w) ∧ ∀ rank, Q (f (r rank)) w := by
  refine (wp_caught st f failed).trans (and_congr_right fun _ => ?_)
  simp only [h, forall_const]

/-- A statement that writes, and always can. -/
theorem wp_caught_write {α : Type} {st : Stmt} {f : st.Res → α} {failed : α} {r : st.Res}
    {db : Database P} (h : ∀ now rank, w.db.exec now rank st = some (r, db))
    {Q : α → World P → Prop} :
    wp E (caught st f failed) Q w ↔ (E.dbFails → Q failed w) ∧ Q (f r) { w with db := db } := by
  simp [wp_caught, h]

/-- A statement that fails if it violates a constraint. -/
theorem wp_caught_try {st : Stmt} {db? : Option (Database P)} {r : st.Res}
    (h : ∀ now rank, w.db.exec now rank st = db?.map (r, ·)) {Q : Bool → World P → Prop} :
    wp E (caught st (fun _ => true) false) Q w ↔ (E.dbFails ∨ db? = none → Q false w) ∧
      ∀ db, db? = some db → Q true { w with db := db } := by
  cases db? with
  | none => simp +contextual [wp_caught, h]
  | some db => simp [wp_caught, h]

@[simp] theorem wp_getUserIdByUsername {u : Str} {Q : Option UserId → World P → Prop} :
    wp E (UserDAO.getUserIdByUsername u) Q w ↔ (E.dbFails → Q none w) ∧ Q (w.db.idOf u) w :=
  wp_caught_read fun _ _ => rfl

@[simp] theorem wp_getUserByUsername {u : Str} {Q : Option (UserId × Str) → World P → Prop} :
    wp E (UserDAO.getUserByUsername u) Q w ↔ (E.dbFails → Q none w) ∧
      Q ((w.db.byName u).map fun r => (r.userId, r.passwordHash)) w :=
  wp_caught_read fun _ _ => rfl

@[simp] theorem wp_getUserOnlineStatus {i : UserId} {Q : Option Bool → World P → Prop} :
    wp E (UserDAO.getUserOnlineStatus i) Q w ↔ (E.dbFails → Q none w) ∧
      Q ((w.db.byId i).map (·.isOnline)) w :=
  wp_caught_read fun _ _ => rfl

theorem Database.count_name_pos (db : Database P) (u : Str) :
    0 < (db.users.filter fun r => P.weight r.username = P.weight u).length ↔
      (db.byName u).isSome = true := by
  rw [List.length_pos_iff_exists_mem, Database.byName, List.find?_isSome]
  simp

@[simp] theorem wp_checkUsernameExists {u : Str} {Q : Bool → World P → Prop} :
    wp E (UserDAO.checkUsernameExists u) Q w ↔ (E.dbFails → Q false w) ∧
      Q (w.db.byName u).isSome w := by
  refine (wp_caught_read fun _ _ => rfl).trans ?_
  simp only [w.db.count_name_pos u, Bool.decide_eq_true]

@[simp] theorem wp_getFriendsOfUser {i : UserId} {Q : Option (List (Str × Bool)) → World P → Prop} :
    wp E (UserDAO.getFriendsOfUser i) Q w ↔ (E.dbFails → Q none w) ∧
      ∀ rank, Q (some (Effect.arrange rank (w.db.friendsOf i))) w :=
  wp_caught_query fun _ _ => rfl

@[simp] theorem wp_getFriendList {i : UserId} {Q : Option (List (Str × Bool)) → World P → Prop} :
    wp E (FriendDAO.getFriendList i) Q w ↔ (E.dbFails → Q none w) ∧
      ∀ rank, Q (some (Effect.arrange rank (w.db.friendsOf i))) w :=
  wp_caught_query fun _ _ => rfl

theorem Database.count_friends_pos (db : Database P) (i j : UserId) :
    0 < (db.friends.filter fun f => f.userId1 = i ∧ f.userId2 = j).length ↔
      ⟨i, j⟩ ∈ db.friends := by
  rw [List.length_pos_iff_exists_mem]
  constructor
  · rintro ⟨⟨a, b⟩, h⟩
    simp only [List.mem_filter, decide_eq_true_eq] at h
    obtain ⟨h, rfl, rfl⟩ := h
    exact h
  · intro h
    exact ⟨⟨i, j⟩, by simp [h]⟩

@[simp] theorem wp_checkFriendship {i j : UserId} {Q : Bool → World P → Prop} :
    wp E (FriendDAO.checkFriendship i j) Q w ↔ (E.dbFails → Q false w) ∧
      Q (decide (⟨i, j⟩ ∈ w.db.friends)) w := by
  refine (wp_caught_read fun _ _ => rfl).trans ?_
  simp only [w.db.count_friends_pos i j]

@[simp] theorem wp_getUnreadMessages {i : UserId} {Q : Option (List Message) → World P → Prop} :
    wp E (MessageDAO.getUnreadMessages i) Q w ↔ (E.dbFails → Q none w) ∧
      ∀ rank, Q (some (w.db.unread rank i)) w :=
  wp_caught_query fun _ _ => rfl

@[simp] theorem wp_getHistoryMessages {i j : UserId} {n : Int}
    {Q : Option (List Message) → World P → Prop} :
    wp E (MessageDAO.getHistoryMessages i j n) Q w ↔ (E.dbFails → Q none w) ∧
      ∀ rank, Q (some (w.db.history rank i j n)) w :=
  wp_caught_query fun _ _ => rfl

@[simp] theorem wp_insertUser {u h : Str} {Q : Bool → World P → Prop} :
    wp E (UserDAO.insertUser u h) Q w ↔
      (E.dbFails ∨ w.db.insertUser u h = none → Q false w) ∧
        ∀ db, w.db.insertUser u h = some db → Q true { w with db := db } :=
  wp_caught_try fun _ _ => rfl

@[simp] theorem wp_updateUsername {i : UserId} {u : Str} {Q : Bool → World P → Prop} :
    wp E (UserDAO.updateUsername i u) Q w ↔
      (E.dbFails ∨ w.db.updateUsername i u = none → Q false w) ∧
        ∀ db, w.db.updateUsername i u = some db → Q true { w with db := db } :=
  wp_caught_try fun _ _ => rfl

@[simp] theorem wp_updatePassword {i : UserId} {h : Str} {Q : Bool → World P → Prop} :
    wp E (UserDAO.updatePassword i h) Q w ↔ (E.dbFails → Q false w) ∧
      Q true { w with db := w.db.updatePassword i h } :=
  wp_caught_write fun _ _ => rfl

@[simp] theorem wp_updateOnlineStatus {i : UserId} {b : Bool} {Q : Bool → World P → Prop} :
    wp E (UserDAO.updateOnlineStatus i b) Q w ↔ (E.dbFails → Q false w) ∧
      Q true { w with db := w.db.setOnlineWhere (fun u => u.userId = i) b } :=
  wp_caught_write fun _ _ => rfl

@[simp] theorem wp_updateOnlineStatusByUsername {u : Str} {b : Bool} {Q : Bool → World P → Prop} :
    wp E (UserDAO.updateOnlineStatusByUsername u b) Q w ↔ (E.dbFails → Q false w) ∧
      Q true { w with
        db := w.db.setOnlineWhere (fun r => P.weight r.username = P.weight u) b } :=
  wp_caught_write fun _ _ => rfl

@[simp] theorem wp_updateLastLoginTime {i : UserId} {Q : Bool → World P → Prop} :
    wp E (UserDAO.updateLastLoginTime i) Q w ↔ (E.dbFails → Q false w) ∧
      ∀ now, Q true { w with db := w.db.updateLastLogin i now } := by
  refine (wp_caught _ _ _).trans ?_
  simp [Database.exec]

@[simp] theorem wp_insertFriend {i j : UserId} {Q : Bool → World P → Prop} :
    wp E (FriendDAO.insertFriend i j) Q w ↔
      (E.dbFails ∨ w.db.insertFriend i j = none → Q false w) ∧
        ∀ db, w.db.insertFriend i j = some db → Q true { w with db := db } :=
  wp_caught_try fun _ _ => rfl

@[simp] theorem wp_deleteFriend {i j : UserId} {Q : Bool → World P → Prop} :
    wp E (FriendDAO.deleteFriend i j) Q w ↔ (E.dbFails → Q false w) ∧
      Q true { w with db := w.db.deleteFriend i j } :=
  wp_caught_write fun _ _ => rfl

@[simp] theorem wp_deleteMessagesBetweenUsers {i j : UserId} {Q : Bool → World P → Prop} :
    wp E (FriendDAO.deleteMessagesBetweenUsers i j) Q w ↔ (E.dbFails → Q false w) ∧
      Q true { w with db := w.db.deleteMessagesBetween i j } :=
  wp_caught_write fun _ _ => rfl

@[simp] theorem wp_insertMessage {i j : UserId} {content : Str} {Q : Bool → World P → Prop} :
    wp E (MessageDAO.insertMessage i j content) Q w ↔
      (E.dbFails → Q false w) ∧
        ∀ now, (w.db.insertMessage now i j content = none → Q false w) ∧
          ∀ db, w.db.insertMessage now i j content = some db → Q true { w with db := db } := by
  refine (wp_caught _ _ _).trans (and_congr_right fun _ => ?_)
  simp only [Database.exec, forall_const]
  refine forall_congr' fun now => ?_
  cases w.db.insertMessage now i j content <;> simp

@[simp] theorem wp_markMessagesAsRead {i j : UserId} {Q : Bool → World P → Prop} :
    wp E (MessageDAO.markMessagesAsRead i j) Q w ↔ (E.dbFails → Q false w) ∧
      Q true { w with db := w.db.markRead i j } :=
  wp_caught_write fun _ _ => rfl

end Rules

end LiteChat
