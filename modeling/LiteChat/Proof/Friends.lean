import LiteChat.Effect.Runs
import LiteChat.Proof.Users
import LiteChat.Proof.Presence

/-!
# The two views of a friendship

A row of `friends` is a pair in one order. `CheckFriendship`, and with it the insertion and the
deletion, takes the order as it is; `GetFriendList` takes a row either way round. So the two views
agree about two users exactly if the table holds both orders or none, and which orders it holds is
told by the history of requests: the last one that got through, for each order (`lastChange`).
-/

namespace LiteChat

open LiteChat.Action Server

variable {P : Platform} {E : Env} {w w' : World P}

/-! ## The requests and the views -/

inductive Change
  | add
  | del
  deriving DecidableEq

/-- One request about a friend, and what the environment makes of it. -/
structure FriendRequest where
  change : Change
  request : Request
  cs : List Choice

def FriendRequest.action (h : FriendRequest) : Action Response :=
  match h.change with
  | .add => FriendManager.handleAddFriend h.request
  | .del => FriendManager.handleDeleteFriend h.request

/-- Serve one request after the other. -/
def handleFriends (w : World P) (h : FriendRequest) : World P := (h.action.run h.cs w).2

/-- `CheckFriendship(a, b)` is true. -/
def IsFriend (w : World P) (a b : UserRow) : Prop :=
  wp .reliable (FriendDAO.checkFriendship a.userId b.userId) (fun exists_ _ => exists_ = true) w

/-- `b` appears in `GetFriendList(a)`. -/
def InFriendList (w : World P) (a b : UserRow) : Prop :=
  wp .reliable (FriendDAO.getFriendList a.userId)
    (fun friends _ => ∃ fs, friends = some fs ∧ b.username ∈ fs.map (·.1)) w

/-- `DEL_FRIEND` of `b` by `a` is not refused because they are no friends. -/
def Deletable (w : World P) (a b : UserRow) : Prop :=
  ∀ request, w.db.byName request.username = some a →
    FriendManager.targetOf request ≠ [] →
    w.db.byName (FriendManager.targetOf request) = some b →
    wp .reliable (FriendManager.handleDeleteFriend request) (fun response _ => response.code ≠ 3004) w

/-- What `a` sees of a friendship with `b` is one thing. -/
structure SeesFriend (w : World P) (a b : UserRow) : Prop where
  list : IsFriend w a b ↔ InFriendList w a b
  deletable : InFriendList w a b → Deletable w a b

/-- Both see it, and both see the same. -/
structure FriendsAgree (w : World P) (a b : UserRow) : Prop where
  left : SeesFriend w a b
  right : SeesFriend w b a
  symm : IsFriend w a b ↔ IsFriend w b a

/-! ## The views in terms of the table -/

theorem isFriend_iff {a b : UserRow} :
    IsFriend w a b ↔ ⟨a.userId, b.userId⟩ ∈ w.db.friends := by
  unfold IsFriend
  simp [Env.reliable]

theorem mem_friendsOf {db : Database P} {a b : UserRow} (hb : b ∈ db.users)
    (hab : b.userId ≠ a.userId) :
    b.username ∈ (db.friendsOf a.userId).map (·.1) ↔
      ⟨a.userId, b.userId⟩ ∈ db.friends ∨ ⟨b.userId, a.userId⟩ ∈ db.friends := by
  unfold Database.friendsOf
  simp only [List.map_flatMap, List.mem_flatMap, List.map_map, List.mem_map, List.mem_filter,
    Function.comp_apply, decide_eq_true_eq]
  constructor
  · rintro ⟨u, hu, f, ⟨hf, hfu, hfa, hne⟩, hname⟩
    obtain rfl := Database.eq_of_weight hu hb (by rw [hname])
    obtain ⟨x, y⟩ := f
    dsimp only at hfu hfa
    rcases hfu with rfl | rfl
    · rcases hfa with h | rfl
      · exact absurd h hne
      · exact .inr hf
    · rcases hfa with rfl | h
      · exact .inl hf
      · exact absurd h hne
  · rintro (hf | hf)
    · exact ⟨b, hb, _, ⟨hf, .inr rfl, .inl rfl, hab⟩, rfl⟩
    · exact ⟨b, hb, _, ⟨hf, .inl rfl, .inr rfl, hab⟩, rfl⟩

theorem inFriendList_iff {a b : UserRow} (hb : b ∈ w.db.users) (hab : b.userId ≠ a.userId) :
    InFriendList w a b ↔
      ⟨a.userId, b.userId⟩ ∈ w.db.friends ∨ ⟨b.userId, a.userId⟩ ∈ w.db.friends := by
  have hmem : ∀ rank, b.username ∈ (Effect.arrange rank (w.db.friendsOf a.userId)).map (·.1) ↔
      b.username ∈ (w.db.friendsOf a.userId).map (·.1) := fun rank =>
    ((Effect.arrange_perm rank _).map _).mem_iff
  unfold InFriendList
  simp only [wp_getFriendList, Option.some.injEq, exists_eq_left', hmem, forall_const,
    mem_friendsOf hb hab, Env.reliable, false_implies, true_and]

theorem deletable_of_mem {a b : UserRow} (h : ⟨a.userId, b.userId⟩ ∈ w.db.friends) :
    Deletable w a b := by
  intro request ha htarget hb
  unfold FriendManager.handleDeleteFriend
  rw [if_neg htarget]
  simp [Env.reliable, Database.idOf, ha, hb, h]

/-- **Both views are one exactly if the table has both orders of a pair or none.** -/
theorem friendsAgree_iff_mem {a b : UserRow} (ha : a ∈ w.db.users) (hb : b ∈ w.db.users)
    (hab : a.userId ≠ b.userId) :
    FriendsAgree w a b ↔
      (⟨a.userId, b.userId⟩ ∈ w.db.friends ↔ ⟨b.userId, a.userId⟩ ∈ w.db.friends) := by
  constructor
  · intro h
    rw [← isFriend_iff, ← isFriend_iff]
    exact h.symm
  · intro h
    have sees : ∀ {x y : UserRow}, y ∈ w.db.users → y.userId ≠ x.userId →
        (⟨y.userId, x.userId⟩ ∈ w.db.friends → ⟨x.userId, y.userId⟩ ∈ w.db.friends) →
        SeesFriend w x y := by
      intro x y hy hyx hback
      have hlist : InFriendList w x y ↔ ⟨x.userId, y.userId⟩ ∈ w.db.friends :=
        (inFriendList_iff hy hyx).trans ⟨fun hf => hf.elim id hback, .inl⟩
      exact ⟨isFriend_iff.trans hlist.symm, fun hin => deletable_of_mem (hlist.mp hin)⟩
    exact ⟨sees hb hab.symm h.mpr, sees ha hab h.mp, by rw [isFriend_iff, isFriend_iff, h]⟩

/-! ## The table in terms of the history -/

/-- The statement of that number succeeds, as far as the connection is concerned. -/
def FriendRequest.answered (h : FriendRequest) (n : Nat) : Prop := (h.cs.getD n default).dbOk = true

instance (h : FriendRequest) (n : Nat) : Decidable (h.answered n) := by
  unfold FriendRequest.answered
  infer_instance

/-- The statements the request depends on succeed. An insertion does not depend on the third, the
check before it: if that fails, the table's own key stands in. -/
def FriendRequest.Executed (h : FriendRequest) : Prop :=
  h.answered 0 ∧ h.answered 1 ∧ h.answered 3 ∧ (h.change = .del → h.answered 2)

instance (h : FriendRequest) : Decidable h.Executed := by
  unfold FriendRequest.Executed
  infer_instance

/-- The request is about the pair `(a, b)`, in this order, among the users of `db`. -/
def FriendRequest.About (db : Database P) (a b : UserId) (h : FriendRequest) : Prop :=
  FriendManager.targetOf h.request ≠ [] ∧ db.idOf h.request.username = some a ∧
    db.idOf (FriendManager.targetOf h.request) = some b

instance (db : Database P) (a b : UserId) (h : FriendRequest) : Decidable (h.About db a b) := by
  unfold FriendRequest.About
  infer_instance

/-- What the last request that got through, of `a` about `b`, asked for. -/
def lastChange (db : Database P) (a b : UserId) (hs : List FriendRequest) : Option Change :=
  Effect.lastWrite (fun h => if h.About db a b ∧ h.Executed then some h.change else none) hs

theorem run_getUserIdByUsername {β : Type} (u : Str) (k : Option UserId → Action β)
    (cs : List Choice) : (UserDAO.getUserIdByUsername u >>= k).run cs w =
      (k (if (cs.headD default).dbOk then w.db.idOf u else none)).run cs.tail w := by
  refine (run_caught _ _ _ _ _).trans ?_
  cases (cs.headD default).dbOk <;> rfl

theorem run_checkFriendship {β : Type} (i j : UserId) (k : Bool → Action β) (cs : List Choice) :
    (FriendDAO.checkFriendship i j >>= k).run cs w =
      (k ((cs.headD default).dbOk && decide (⟨i, j⟩ ∈ w.db.friends))).run cs.tail w := by
  refine (run_caught _ _ _ _ _).trans ?_
  cases (cs.headD default).dbOk with
  | false => rfl
  | true =>
    rw [← decide_eq_decide.mpr (w.db.count_friends_pos i j)]
    rfl

/-- Both handlers look their two users up first, and do nothing if that fails. -/
theorem friends_of_lookups {h : FriendRequest} {none₁ none₂ : Response}
    {k : UserId → UserId → Action Response} {Q : List FriendRow → Prop}
    (unknown : (∀ i j, ¬ (h.answered 0 ∧ h.answered 1 ∧ w.db.idOf h.request.username = some i ∧
      w.db.idOf (FriendManager.targetOf h.request) = some j)) → Q w.db.friends)
    (known : ∀ i j, h.answered 0 → h.answered 1 → w.db.idOf h.request.username = some i →
      w.db.idOf (FriendManager.targetOf h.request) = some j →
      Q ((k i j).run h.cs.tail.tail w).2.db.friends) :
    Q (Action.run (do
      match ← UserDAO.getUserIdByUsername h.request.username with
      | none => return none₁
      | some userId =>
        match ← UserDAO.getUserIdByUsername (FriendManager.targetOf h.request) with
        | none => return none₂
        | some targetUserId => k userId targetUserId) h.cs w).2.db.friends := by
  have h0 : h.cs.headD default = h.cs.getD 0 default := List.headD_eq_getD
  have h1 : h.cs.tail.headD default = h.cs.getD 1 default := by
    rw [List.headD_eq_getD, Effect.Prog.getD_tail]
  rw [run_getUserIdByUsername, h0]
  cases hok0 : (h.cs.getD 0 default).dbOk with
  | false => exact unknown fun i j hk => absurd (hok0.symm.trans hk.1) (by decide)
  | true =>
    cases hu : w.db.idOf h.request.username with
    | none => exact unknown fun i j hk => absurd (hu.symm.trans hk.2.2.1) (by simp)
    | some i =>
      simp only [if_true]
      rw [run_getUserIdByUsername, h1]
      cases hok1 : (h.cs.getD 1 default).dbOk with
      | false => exact unknown fun i j hk => absurd (hok1.symm.trans hk.2.1) (by decide)
      | true =>
        cases hv : w.db.idOf (FriendManager.targetOf h.request) with
        | none => exact unknown fun i j hk => absurd (hv.symm.trans hk.2.2.2) (by simp)
        | some j => exact known i j hok0 hok1 hu hv

theorem run_insertFriend {β : Type} (i j : UserId) (k : Bool → Action β) (cs : List Choice) :
    (FriendDAO.insertFriend i j >>= k).run cs w =
      match if (cs.headD default).dbOk then w.db.insertFriend i j else none with
      | some db => (k true).run cs.tail { w with db := db }
      | none => (k false).run cs.tail w := by
  refine (run_caught _ _ _ _ _).trans ?_
  cases (cs.headD default).dbOk with
  | false => rfl
  | true =>
    simp only [if_true, Database.exec]
    cases w.db.insertFriend i j <;> rfl

theorem run_deleteFriend {β : Type} (i j : UserId) (k : Bool → Action β) (cs : List Choice) :
    (FriendDAO.deleteFriend i j >>= k).run cs w =
      if (cs.headD default).dbOk then
        (k true).run cs.tail { w with db := w.db.deleteFriend i j }
      else (k false).run cs.tail w := by
  refine (run_caught _ _ _ _ _).trans ?_
  cases (cs.headD default).dbOk <;> rfl

theorem friends_deleteMessages {i j : UserId} (response : Response) (cs : List Choice) :
    (Action.run (do
      let _ ← FriendDAO.deleteMessagesBetweenUsers i j
      return response) cs w).2.db.friends = w.db.friends := by
  unfold FriendDAO.deleteMessagesBetweenUsers
  rw [run_caught]
  cases (cs.headD default).dbOk <;> rfl

/-- `INSERT` leaves the pair in the table, also if it is refused because it is there. -/
theorem mem_insertFriend {db : Database P} {i j : UserId} (hi : db.HasUser i) (hj : db.HasUser j) :
    (∃ db', db.insertFriend i j = some db' ∧ ∀ f, f ∈ db'.friends ↔ f ∈ db.friends ∨ f = ⟨i, j⟩) ∨
      (db.insertFriend i j = none ∧ ⟨i, j⟩ ∈ db.friends) := by
  unfold Database.insertFriend
  by_cases hij : ⟨i, j⟩ ∈ db.friends
  · exact .inr ⟨dif_neg fun h => h.1 hij, hij⟩
  · refine .inl ⟨_, dif_pos ⟨hij, hi, hj⟩, fun f => ?_⟩
    simp

theorem mem_deleteFriend {db : Database P} {i j : UserId} {f : FriendRow} :
    f ∈ (db.deleteFriend i j).friends ↔ f ∈ db.friends ∧ f ≠ ⟨i, j⟩ := by
  obtain ⟨x, y⟩ := f
  simp only [Database.deleteFriend, List.mem_filter, decide_eq_true_eq, ne_eq, FriendRow.mk.injEq]

theorem headD_tail_tail (cs : List Choice) : cs.tail.tail.headD default = cs.getD 2 default := by
  rw [List.headD_eq_getD, Effect.Prog.getD_tail, Effect.Prog.getD_tail]

theorem headD_tail_tail_tail (cs : List Choice) :
    cs.tail.tail.tail.headD default = cs.getD 3 default := by
  rw [List.headD_eq_getD, Effect.Prog.getD_tail, Effect.Prog.getD_tail, Effect.Prog.getD_tail]

/-- What `ADD_FRIEND` does to a pair of two users: the row of the pair is there afterwards if it was
there, or if the request was about the two, in this order, and its statements went through. -/
theorem mem_handleAddFriend {h : FriendRequest} (hadd : h.change = .add) {x y : UserId}
    (hxy : x ≠ y) : ⟨x, y⟩ ∈ (handleFriends w h).db.friends ↔
      ⟨x, y⟩ ∈ w.db.friends ∨ h.About w.db x y ∧ h.Executed := by
  unfold handleFriends FriendRequest.action
  rw [hadd]
  show _ ∈ (Action.run (FriendManager.handleAddFriend h.request) h.cs w).2.db.friends ↔ _
  unfold FriendManager.handleAddFriend
  by_cases htarget : FriendManager.targetOf h.request = []
  · rw [if_pos htarget]
    exact ⟨.inl, fun hm => hm.resolve_right fun ha => ha.1.1 htarget⟩
  by_cases hself : h.request.username = FriendManager.targetOf h.request
  · rw [if_neg htarget, if_pos hself]
    refine ⟨.inl, fun hm => hm.resolve_right fun ha => hxy ?_⟩
    have ⟨⟨_, hx, hy⟩, _⟩ := ha
    exact Option.some.inj (hx.symm.trans (hself ▸ hy))
  rw [if_neg htarget, if_neg hself]
  refine friends_of_lookups (Q := fun fs => ⟨x, y⟩ ∈ fs ↔ _) (fun hunknown => ?_)
    fun i j hok0 hok1 hi hj => ?_
  · refine ⟨.inl, fun hm => hm.resolve_right fun ha => ?_⟩
    have ⟨⟨_, hx, hy⟩, hok0, hok1, _⟩ := ha
    exact hunknown x y ⟨hok0, hok1, hx, hy⟩
  · have about : h.About w.db x y ↔ (⟨x, y⟩ : FriendRow) = ⟨i, j⟩ := by
      unfold FriendRequest.About
      simp [htarget, hi, hj, eq_comm]
    have executed : h.Executed ↔ (h.cs.getD 3 default).dbOk = true := by
      unfold FriendRequest.Executed
      simp only [hok0, hok1, hadd, true_and, reduceCtorEq, false_implies, and_true]
      rfl
    rw [about, executed, run_checkFriendship]
    -- a row that the count has found; the count may fail, and then the `INSERT` is tried all the same
    by_cases hthere : ((h.cs.tail.tail.headD default).dbOk &&
        decide (⟨i, j⟩ ∈ w.db.friends)) = true
    · rw [if_pos hthere]
      obtain ⟨_, hmem⟩ := (Bool.and_eq_true _ _).mp hthere
      exact ⟨.inl, fun hm => hm.elim id fun heq => heq.1 ▸ of_decide_eq_true hmem⟩
    rw [if_neg hthere, run_insertFriend, headD_tail_tail_tail]
    by_cases hok3 : (h.cs.getD 3 default).dbOk = true
    · rw [if_pos hok3]
      rcases mem_insertFriend (Database.hasUser_of_idOf hi) (Database.hasUser_of_idOf hj) with
        ⟨db, hdb, hmem⟩ | ⟨hdb, hmem⟩
      · rw [hdb]
        refine (hmem ⟨x, y⟩).trans (or_congr_right ?_)
        exact ⟨fun heq => ⟨heq, hok3⟩, And.left⟩
      · rw [hdb]
        exact ⟨.inl, fun hm => hm.elim id fun heq => heq.1 ▸ hmem⟩
    · rw [if_neg hok3]
      exact ⟨.inl, fun hm => hm.resolve_right fun ha => hok3 ha.2⟩

/-- What `DEL_FRIEND` does to a pair of two users: the row goes if the request was about the two, in
this order, and its statements went through. Here a count that fails is a row that is not there. -/
theorem mem_handleDeleteFriend {h : FriendRequest} (hdel : h.change = .del) {x y : UserId} :
    ⟨x, y⟩ ∈ (handleFriends w h).db.friends ↔
      ⟨x, y⟩ ∈ w.db.friends ∧ ¬ (h.About w.db x y ∧ h.Executed) := by
  unfold handleFriends FriendRequest.action
  rw [hdel]
  show _ ∈ (Action.run (FriendManager.handleDeleteFriend h.request) h.cs w).2.db.friends ↔ _
  unfold FriendManager.handleDeleteFriend
  by_cases htarget : FriendManager.targetOf h.request = []
  · rw [if_pos htarget]
    exact ⟨fun hm => ⟨hm, fun ha => ha.1.1 htarget⟩, And.left⟩
  rw [if_neg htarget]
  refine friends_of_lookups (Q := fun fs => ⟨x, y⟩ ∈ fs ↔ _) (fun hunknown => ?_)
    fun i j hok0 hok1 hi hj => ?_
  · refine ⟨fun hm => ⟨hm, fun ha => ?_⟩, And.left⟩
    have ⟨⟨_, hx, hy⟩, hok0, hok1, _⟩ := ha
    exact hunknown x y ⟨hok0, hok1, hx, hy⟩
  · -- the two lookups have gone through, so the request is about the pair that they have found
    have about : h.About w.db x y ↔ (⟨x, y⟩ : FriendRow) = ⟨i, j⟩ := by
      unfold FriendRequest.About
      simp [htarget, hi, hj, eq_comm]
    have executed : h.Executed ↔
        (h.cs.getD 3 default).dbOk = true ∧ (h.cs.getD 2 default).dbOk = true := by
      unfold FriendRequest.Executed
      simp only [hok0, hok1, hdel, true_and, true_implies]
      rfl
    rw [about, executed, run_checkFriendship, headD_tail_tail]
    by_cases hthere : ((h.cs.getD 2 default).dbOk && decide (⟨i, j⟩ ∈ w.db.friends)) = true
    · rw [if_neg (not_not.mpr hthere), run_deleteFriend, headD_tail_tail_tail]
      obtain ⟨hok2, hmem⟩ := (Bool.and_eq_true _ _).mp hthere
      by_cases hok3 : (h.cs.getD 3 default).dbOk = true
      · rw [if_pos hok3]
        rw [if_neg (by simp), friends_deleteMessages, mem_deleteFriend]
        exact and_congr_right fun _ => not_congr ⟨fun heq => ⟨heq, hok3, hok2⟩, And.left⟩
      · rw [if_neg hok3]
        exact ⟨fun hm => ⟨hm, fun ha => hok3 ha.2.1⟩, And.left⟩
    · rw [if_pos hthere]
      refine ⟨fun hm => ⟨hm, fun ha => hthere ?_⟩, And.left⟩
      have ⟨heq, _, hok2⟩ := ha
      exact (Bool.and_eq_true _ _).mpr ⟨hok2, decide_eq_true (heq ▸ hm)⟩

theorem keeps_handleFriends (w : World P) (h : FriendRequest) : KeepsUsers w (handleFriends w h) := by
  have uses : h.action.Uses Op.Plain := by
    unfold FriendRequest.action
    cases h.change with
    | add => exact handleAddFriend_uses h.request
    | del => exact handleDeleteFriend_uses h.request
  exact (run_of_wp (wp_plain (E := .any) uses) h.cs fun ch _ => Env.ok_any ch).toKeepsUsers

theorem keeps_runAll_handleFriends (w : World P) (hs : List FriendRequest) :
    KeepsUsers w (Effect.runAll handleFriends w hs) := by
  induction hs generalizing w with
  | nil => exact .refl w
  | cons h hs ih => exact (keeps_handleFriends w h).trans (ih (handleFriends w h))

theorem FriendRequest.about_congr {db db' : Database P} (husers : db'.users = db.users)
    {h : FriendRequest} {a b : UserId} : h.About db' a b ↔ h.About db a b := by
  have hid : ∀ u, db'.idOf u = db.idOf u := fun u => by
    unfold Database.idOf Database.byName
    rw [husers]
  unfold FriendRequest.About
  rw [hid, hid]

/-- **The table holds a pair exactly if the last request about it that got through was to add.**
Requests about other pairs, about this one in the other order, or that did not get through, change
nothing about it. -/
theorem mem_friends_iff_lastChange (hempty : w.db.friends = []) (hs : List FriendRequest)
    {x y : UserId} (hxy : x ≠ y) :
    ⟨x, y⟩ ∈ (Effect.runAll handleFriends w hs).db.friends ↔
      lastChange w.db x y hs = some .add := by
  let read (w' : World P) : Change := if ⟨x, y⟩ ∈ w'.db.friends then .add else .del
  have hlast : read (Effect.runAll handleFriends w hs) = (lastChange w.db x y hs).getD (read w) := by
    refine Effect.runAll_lastWrite (fun w' => w'.db.users = w.db.users) rfl
      (fun w' h hw' => (keeps_handleFriends w' h).users.trans hw') (fun w' h hw' => ?_) hs
    have habout : h.About w'.db x y ↔ h.About w.db x y := FriendRequest.about_congr hw'
    show (if ⟨x, y⟩ ∈ (handleFriends w' h).db.friends then _ else _) =
      (if h.About w.db x y ∧ h.Executed then _ else _ : Option Change).getD
        (if ⟨x, y⟩ ∈ w'.db.friends then _ else _)
    by_cases hchanges : h.About w.db x y ∧ h.Executed
    · rw [if_pos hchanges]
      cases hchange : h.change with
      | add => exact if_pos ((mem_handleAddFriend hchange hxy).mpr
          (.inr (by rw [habout]; exact hchanges)))
      | del => exact if_neg fun hm =>
          ((mem_handleDeleteFriend hchange).mp hm).2 (by rw [habout]; exact hchanges)
    · rw [if_neg hchanges]
      refine if_congr ?_ rfl rfl
      cases hchange : h.change with
      | add =>
        rw [mem_handleAddFriend hchange hxy, habout]
        exact or_iff_left hchanges
      | del =>
        rw [mem_handleDeleteFriend hchange, habout]
        exact and_iff_left hchanges
  have hread : read w = .del := if_neg (by rw [hempty]; exact List.not_mem_nil)
  rw [hread] at hlast
  have hmem : ⟨x, y⟩ ∈ (Effect.runAll handleFriends w hs).db.friends ↔
      read (Effect.runAll handleFriends w hs) = .add := by
    show _ ↔ (if _ then _ else _) = _
    split <;> simp [*]
  rw [hmem, hlast]
  cases lastChange w.db x y hs <;> simp

/-- **The views of two users agree exactly if the last requests that got through, of one about the other
and of the other about the one, both asked to add, or neither.** For any list of requests of any users,
with any failing statements, from tables without friends. -/
theorem friendsAgree_iff (w : World P) (hempty : w.db.friends = []) (hs : List FriendRequest)
    {a b : UserRow} (ha : a ∈ w.db.users) (hb : b ∈ w.db.users) (hab : a ≠ b) :
    FriendsAgree (Effect.runAll handleFriends w hs) a b ↔
      (lastChange w.db a.userId b.userId hs = some .add ↔
        lastChange w.db b.userId a.userId hs = some .add) := by
  have hid : a.userId ≠ b.userId := fun h => hab (Database.eq_of_id ha hb h)
  have husers := (keeps_runAll_handleFriends w hs).users
  rw [friendsAgree_iff_mem (husers ▸ ha) (husers ▸ hb) hid, mem_friends_iff_lastChange hempty hs hid,
    mem_friends_iff_lastChange hempty hs hid.symm]

/-- Two users have registered. -/
def aliceAndBob : World asciiCi :=
  Effect.runAll next (World.start Database.empty) (aliceRegisters ++
    [(.request 1 (flatBody [("type", "REGISTER"), ("username", "bob"), ("password", "qwerty")]), [])])

def alice : UserRow := ⟨1, bytes "alice", bytes "5ebe2294ecd0e0f08eab7690d2a6ee69", false, none⟩

def bob : UserRow := ⟨2, bytes "bob", bytes "d8578edf8458ce06fbc5bb76a58c5ca4", false, none⟩

theorem users_aliceAndBob : aliceAndBob.db.users = [alice, bob] := by decide

def addFriend (u v : UserRow) : FriendRequest where
  change := .add
  request :=
    { type := bytes "ADD_FRIEND"
      username := u.username
      password := []
      newUsername := []
      newPassword := []
      verifyPassword := []
      targetUsername := v.username
      content := []
      count := 0
      clientSocket := 1 }
  cs := []

/-- Both have added each other, and the views agree. -/
theorem friendsAgree_both : FriendsAgree
    (Effect.runAll handleFriends aliceAndBob [addFriend alice bob, addFriend bob alice]) alice bob := by
  refine (friendsAgree_iff aliceAndBob (by decide) _ ?_ ?_ (by decide)).mpr (by decide)
  · rw [users_aliceAndBob]
    simp
  · rw [users_aliceAndBob]
    simp

/-- Alice has added Bob: he sees her in his list, and is no friend of hers when he deletes. -/
theorem not_friendsAgree :
    ¬ ∀ hs, FriendsAgree (Effect.runAll handleFriends aliceAndBob hs) alice bob := by
  intro h
  have hagree := (h [addFriend alice bob]).symm
  rw [isFriend_iff, isFriend_iff] at hagree
  exact absurd hagree (by decide)

end LiteChat
