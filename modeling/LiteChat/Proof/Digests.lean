import LiteChat.Effect.Simulates
import LiteChat.Proof.Counter
import LiteChat.Proof.Ordinary

/-!
# Digests stay where they are

The digests of the passwords are compared and stored, and that is all that is done with them. Give every
digest another text, the same text to the same digest: to those in the table, and to those that are
computed. The server then runs in step with what it was before, and the world it shares is the same but
for the texts in the table (`digestsRelabelled_run`). So whatever any client gets to see, in any
interleaving, tells it of two digests whether they are equal, and nothing of what they are.
-/

namespace LiteChat

open LiteChat.Action Effect Server UserManager

variable {P : Platform} {f : Str → Str}

/-! ## Other texts for the digests -/

/-- The platform whose digests have other texts. -/
def Platform.relabel (P : Platform) (f : Str → Str) : Platform :=
  { P with md5 := fun password => f (P.md5 password) }

def UserRow.relabel (f : Str → Str) (r : UserRow) : UserRow := { r with passwordHash := f r.passwordHash }

theorem UserRow.userId_relabel (f : Str → Str) (r : UserRow) : (r.relabel f).userId = r.userId := rfl

theorem UserRow.weight_relabel (f : Str → Str) (r : UserRow) :
    P.weight (r.relabel f).username = P.weight r.username := rfl

namespace Database

/-- The tables with other texts for the digests. -/
def relabel (f : Str → Str) (db : Database P) : Database (P.relabel f) where
  users := db.users.map (UserRow.relabel f)
  friends := db.friends
  messages := db.messages
  nextUserId := db.nextUserId
  nextMessageId := db.nextMessageId
  users_id := by
    rw [Effect.map_key_map (UserRow.userId_relabel f)]
    exact db.users_id
  users_id_lt := by
    intro u hu
    obtain ⟨v, hv, rfl⟩ := List.mem_map.mp hu
    exact db.users_id_lt v hv
  users_name := by
    show ((db.users.map (UserRow.relabel f)).map fun u => P.weight u.username).Nodup
    rw [Effect.map_key_map (UserRow.weight_relabel f)]
    exact db.users_name
  friends_unique := db.friends_unique
  messages_id := db.messages_id
  messages_id_lt := db.messages_id_lt
  friends_user := by
    rw [Effect.map_key_map (UserRow.userId_relabel f)]
    exact db.friends_user
  messages_user := by
    rw [Effect.map_key_map (UserRow.userId_relabel f)]
    exact db.messages_user

variable {db db' : Database P} {now : Nat} {rank : Nat → Nat}

/-- Two databases with the same tables are the same: the constraints that a database carries follow from
its tables. -/
theorem eq_of_tables (husers : db.users = db'.users) (hfriends : db.friends = db'.friends)
    (hmessages : db.messages = db'.messages) (huser : db.nextUserId = db'.nextUserId)
    (hmessage : db.nextMessageId = db'.nextMessageId) : db = db' := by
  cases db
  cases db'
  dsimp only at husers hfriends hmessages huser hmessage
  subst husers hfriends hmessages huser hmessage
  rfl

/-! ### Queries -/

theorem byName_relabel (u : Str) : (db.relabel f).byName u = (db.byName u).map (UserRow.relabel f) := by
  unfold byName relabel
  rw [List.find?_map]
  rfl

theorem byId_relabel (i : UserId) : (db.relabel f).byId i = (db.byId i).map (UserRow.relabel f) := by
  unfold byId relabel
  rw [List.find?_map]
  rfl

theorem idOf_relabel (u : Str) : (db.relabel f).idOf u = db.idOf u := by
  unfold idOf
  rw [byName_relabel, Option.map_map]
  rfl

theorem friendsOf_relabel (i : UserId) : (db.relabel f).friendsOf i = db.friendsOf i := by
  unfold friendsOf relabel
  rw [List.flatMap_map]
  rfl

theorem joined_relabel (m : MessageRow) : (db.relabel f).joined m = db.joined m := by
  unfold joined
  rw [byId_relabel, byId_relabel]
  cases db.byId m.senderId with
  | none => rfl
  | some s => cases db.byId m.receiverId <;> rfl

theorem unread_relabel (i : UserId) : (db.relabel f).unread rank i = db.unread rank i := by
  unfold unread
  rw [funext (joined_relabel : ∀ m, (db.relabel f).joined m = db.joined m)]
  rfl

theorem history_relabel (i j : UserId) (n : Int) :
    (db.relabel f).history rank i j n = db.history rank i j n := by
  unfold history
  rw [funext (joined_relabel : ∀ m, (db.relabel f).joined m = db.joined m)]
  rfl

/-! ### Statements -/

/-- An `UPDATE users` that does the same to a row under other texts. -/
theorem mapUsers_relabel {g g' : UserRow → UserRow} {hid : ∀ u, (g u).userId = u.userId}
    {hname : ∀ u, (g u).username = u.username} {hid' : ∀ u, (g' u).userId = u.userId}
    {hname' : ∀ u, (g' u).username = u.username}
    (hg : ∀ r, g' (r.relabel f) = (g r).relabel f) :
    (db.relabel f).mapUsers g' hid' hname' = (db.mapUsers g hid hname).relabel f := by
  refine eq_of_tables ?_ rfl rfl rfl rfl
  show (db.users.map (UserRow.relabel f)).map g' = (db.users.map g).map (UserRow.relabel f)
  rw [List.map_map, List.map_map]
  exact List.map_congr_left fun r _ => hg r

theorem setOnlineWhere_relabel {p p' : UserRow → Bool} (hp : ∀ r, p' (r.relabel f) = p r) (b : Bool) :
    (db.relabel f).setOnlineWhere p' b = (db.setOnlineWhere p b).relabel f := by
  refine mapUsers_relabel fun r => ?_
  rw [hp]
  split <;> rfl

theorem updateLastLogin_relabel (i : UserId) :
    (db.relabel f).updateLastLogin i now = (db.updateLastLogin i now).relabel f := by
  refine mapUsers_relabel fun r => ?_
  rw [UserRow.userId_relabel]
  split <;> rfl

theorem updatePassword_relabel (i : UserId) (h : Str) :
    (db.relabel f).updatePassword i (f h) = (db.updatePassword i h).relabel f := by
  refine mapUsers_relabel fun r => ?_
  rw [UserRow.userId_relabel]
  split <;> rfl

theorem insertUser_relabel (u h : Str) :
    (db.relabel f).insertUser u (f h) = (db.insertUser u h).map (relabel f) := by
  have hiff : (∀ r ∈ (db.relabel f).users, (P.relabel f).weight r.username ≠ (P.relabel f).weight u) ↔
      ∀ r ∈ db.users, P.weight r.username ≠ P.weight u := List.forall_mem_map
  unfold insertUser
  by_cases hnew : ∀ r ∈ db.users, P.weight r.username ≠ P.weight u
  · rw [dif_pos hnew, dif_pos (hiff.mpr hnew)]
    refine congrArg some (eq_of_tables ?_ rfl rfl rfl rfl)
    show db.users.map (UserRow.relabel f) ++ [(⟨db.nextUserId, u, f h, false, none⟩ : UserRow)] =
      (db.users ++ [(⟨db.nextUserId, u, h, false, none⟩ : UserRow)]).map (UserRow.relabel f)
    rw [List.map_append]
    rfl
  · rw [dif_neg hnew, dif_neg fun h => hnew (hiff.mp h)]
    rfl

theorem updateUsername_relabel (i : UserId) (u : Str) :
    (db.relabel f).updateUsername i u = (db.updateUsername i u).map (relabel f) := by
  have hiff : (∀ r ∈ (db.relabel f).users, r.userId ≠ i →
      (P.relabel f).weight r.username ≠ (P.relabel f).weight u) ↔
      ∀ r ∈ db.users, r.userId ≠ i → P.weight r.username ≠ P.weight u := List.forall_mem_map
  unfold updateUsername
  by_cases hnew : ∀ r ∈ db.users, r.userId ≠ i → P.weight r.username ≠ P.weight u
  · rw [dif_pos hnew, dif_pos (hiff.mpr hnew)]
    refine congrArg some (eq_of_tables ?_ rfl rfl rfl rfl)
    show (db.users.map (UserRow.relabel f)).map (renameRow i u) =
      (db.users.map (renameRow i u)).map (UserRow.relabel f)
    rw [List.map_map, List.map_map]
    refine List.map_congr_left fun r _ => ?_
    show renameRow i u (r.relabel f) = (renameRow i u r).relabel f
    unfold renameRow
    rw [UserRow.userId_relabel]
    by_cases hri : r.userId = i
    · rw [if_pos hri, if_pos hri]
      rfl
    · rw [if_neg hri, if_neg hri]
  · rw [dif_neg hnew, dif_neg fun h => hnew (hiff.mp h)]
    rfl

theorem hasUser_relabel (i : UserId) : (db.relabel f).HasUser i ↔ db.HasUser i := by
  show i ∈ (db.users.map (UserRow.relabel f)).map (·.userId) ↔ _
  rw [Effect.map_key_map (UserRow.userId_relabel f)]

theorem insertFriend_relabel (i j : UserId) :
    (db.relabel f).insertFriend i j = (db.insertFriend i j).map (relabel f) := by
  have hiff : (⟨i, j⟩ ∉ (db.relabel f).friends ∧ (db.relabel f).HasUser i ∧ (db.relabel f).HasUser j) ↔
      (⟨i, j⟩ ∉ db.friends ∧ db.HasUser i ∧ db.HasUser j) := by
    rw [hasUser_relabel, hasUser_relabel]
    rfl
  unfold insertFriend
  by_cases hnew : ⟨i, j⟩ ∉ db.friends ∧ db.HasUser i ∧ db.HasUser j
  · rw [dif_pos hnew, dif_pos (hiff.mpr hnew)]
    rfl
  · rw [dif_neg hnew, dif_neg fun h => hnew (hiff.mp h)]
    rfl

theorem insertMessage_relabel (i j : UserId) (content : Str) :
    (db.relabel f).insertMessage now i j content = (db.insertMessage now i j content).map (relabel f) := by
  have hiff : ((db.relabel f).HasUser i ∧ (db.relabel f).HasUser j) ↔ (db.HasUser i ∧ db.HasUser j) := by
    rw [hasUser_relabel, hasUser_relabel]
  unfold insertMessage
  by_cases hnew : db.HasUser i ∧ db.HasUser j
  · rw [dif_pos hnew, dif_pos (hiff.mpr hnew)]
    rfl
  · rw [dif_neg hnew, dif_neg fun h => hnew (hiff.mp h)]
    rfl

end Database

/-! ## Which calls match -/

/-- The operations that neither give nor take a digest. -/
def Op.Blind : Op → Prop
  | .sql (.insertUser _ _) | .sql (.selectUser _) | .sql (.updatePassword _ _) => False
  | _ => True

/-- The calls that match, and how their answers do. -/
inductive SameButDigests (f : Str → Str) : (o o' : Op) → (o.Res → o'.Res → Prop) → Prop
  | same {o : Op} (ho : o.Blind) : SameButDigests f o o (· = ·)
  | insertUser (u h : Str) : SameButDigests f (.sql (.insertUser u h)) (.sql (.insertUser u (f h)))
      fun (r r' : Except SQLException Unit) => r' = r
  | updatePassword (i : UserId) (h : Str) :
      SameButDigests f (.sql (.updatePassword i h)) (.sql (.updatePassword i (f h)))
      fun (r r' : Except SQLException Unit) => r' = r
  | selectUser (u : Str) : SameButDigests f (.sql (.selectUser u)) (.sql (.selectUser u))
      fun (r r' : Except SQLException (Option (UserId × Str))) =>
        r' = r.map (Option.map fun account => (account.1, f account.2))

/-- A statement that gives and takes no digests does the same over other texts. -/
theorem Database.exec_relabel {db : Database P} {st : Stmt} (hst : (Op.sql st).Blind) (now : Nat)
    (rank : Nat → Nat) : (db.relabel f).exec now rank st =
      (db.exec now rank st).map fun e => (e.1, e.2.relabel f) := by
  have tried : ∀ {o : Option (Database P)} {o' : Option (Database (P.relabel f))},
      o' = o.map (Database.relabel f) → o'.map (((), ·)) =
        (o.map (((), ·))).map fun e : Unit × Database P => (e.1, e.2.relabel f) := by
    intro o o' ho
    rw [ho, Option.map_map, Option.map_map]
    rfl
  cases st with
  | insertUser | selectUser | updatePassword => exact absurd hst id
  | updateUsername i u => exact tried (updateUsername_relabel i u)
  | updateOnline i b =>
    exact congrArg (fun db => some ((), db)) (setOnlineWhere_relabel (fun _ => rfl) b)
  | updateOnlineByName u b =>
    exact congrArg (fun db => some ((), db)) (setOnlineWhere_relabel (fun _ => rfl) b)
  | updateLastLogin i => exact congrArg (fun db => some ((), db)) (updateLastLogin_relabel i)
  | countUsers u =>
    refine congrArg (fun n : Nat => some (n, db.relabel f)) ?_
    show ((db.users.map (UserRow.relabel f)).filter _).length = _
    rw [List.filter_map, List.length_map]
    rfl
  | selectOnline i =>
    refine congrArg (fun b : Option Bool => some (b, db.relabel f)) ?_
    rw [byId_relabel, Option.map_map]
    rfl
  | selectUserId u => exact congrArg (fun i : Option UserId => some (i, db.relabel f)) (idOf_relabel u)
  | selectFriends i =>
    refine congrArg (fun l : List (Str × Bool) => some (l, db.relabel f)) ?_
    rw [friendsOf_relabel]
  | insertFriend i j => exact tried (insertFriend_relabel i j)
  | insertMessage i j content => exact tried (insertMessage_relabel i j content)
  | selectUnread i =>
    exact congrArg (fun l : List Message => some (l, db.relabel f)) (unread_relabel i)
  | selectHistory i j n =>
    exact congrArg (fun l : List Message => some (l, db.relabel f)) (history_relabel i j n)
  | deleteFriend | deleteMessages | countFriends | markRead => rfl

namespace World

/-- What the threads share, with other texts for the digests. -/
def relabel (f : Str → Str) (w : World P) : World (P.relabel f) where
  db := w.db.relabel f
  sessions := w.sessions
  cachedFriendLists := w.cachedFriendLists
  currentConnections := w.currentConnections
  openSockets := w.openSockets
  undefined := w.undefined
  trace := w.trace

variable {w : World P} {ch : Choice}

theorem db_relabel (w : World P) : (w.relabel f).db = w.db.relabel f := rfl

theorem sessions_relabel (w : World P) : (w.relabel f).sessions = w.sessions := rfl

theorem execute_relabel {st st' : Stmt} (g : st.Res → st'.Res)
    (h : (w.db.relabel f).exec ch.now ch.rank st' =
      (w.db.exec ch.now ch.rank st).map fun e => (g e.1, e.2.relabel f)) :
    (w.relabel f).execute st' ch =
      ((w.execute st ch).1.map g, (w.execute st ch).2.relabel f) := by
  unfold execute
  rw [db_relabel, h]
  split
  · cases w.db.exec ch.now ch.rank st <;> rfl
  · rfl

theorem deref_relabel {α : Type} (p : SessionPtr) (field : ClientSession → α) (junk : α) :
    (w.relabel f).deref p field junk =
      ((w.deref p field junk).1, (w.deref p field junk).2.relabel f) := by
  unfold deref
  rw [sessions_relabel]
  cases w.sessions.heap.lookup p <;> rfl

theorem write_relabel (p : SessionPtr) (g : SessionManager → SessionManager) :
    (w.relabel f).write p g = (w.write p g).relabel f := by
  unfold write
  rw [sessions_relabel]
  cases w.sessions.heap.lookup p <;> rfl

theorem accountAt_relabel (c : Socket) : (w.relabel f).accountAt c = w.accountAt c := by
  unfold accountAt
  rw [sessions_relabel, db_relabel]
  congr 1
  funext u
  rw [Database.idOf_relabel]

/-- An operation that gives and takes no digests does the same in the world in which the digests have
other texts, and is answered the same. -/
theorem handle_relabel {o : Op} (ho : o.Blind) :
    handle o ch (w.relabel f) = ((handle o ch w).1, (handle o ch w).2.relabel f) := by
  cases o with
  | sql st =>
    show (w.relabel f).execute st ch = ((w.execute st ch).1, (w.execute st ch).2.relabel f)
    rw [execute_relabel (fun r => r) (Database.exec_relabel ho ch.now ch.rank)]
    cases (w.execute st ch).1 <;> rfl
  | getSocket p => exact deref_relabel p _ _
  | getUsername p => exact deref_relabel p _ _
  | getLastHeartbeat p => exact deref_relabel p _ _
  | getIsConnected p => exact deref_relabel p _ _
  | setUsername p u => exact congrArg (Prod.mk ()) (write_relabel p _)
  | updateHeartbeat p => exact congrArg (Prod.mk ()) (write_relabel p _)
  | sendData c frame =>
    show (ch.sendOk, (w.relabel f).observe (.sent c ((w.relabel f).accountAt c) frame ch.sendOk)) = _
    rw [accountAt_relabel]
    rfl
  | _ => rfl

end World

/-- **Matching calls are answered as they match.** Two threads, in the two worlds, that make calls that
are the same but for the texts of digests get answers that are the same but for these, and the worlds
stay so. -/
theorem respects_sameButDigests : Prog.Respects (SameButDigests f)
    (fun (w : World P) (w' : World (P.relabel f)) => w' = w.relabel f) World.handle World.handle := by
  rintro o o' T hmatch ch w _ rfl
  have executed : ∀ (st st' : Stmt) (g : st.Res → st'.Res),
      (w.db.relabel f).exec ch.now ch.rank st' =
        (w.db.exec ch.now ch.rank st).map (fun e => (g e.1, e.2.relabel f)) →
      (World.handle (.sql st') ch (w.relabel f)).1 = Except.map g (World.handle (.sql st) ch w).1 ∧
        (World.handle (.sql st') ch (w.relabel f)).2 = (World.handle (.sql st) ch w).2.relabel f := by
    intro st st' g h
    exact Prod.mk.inj (World.execute_relabel g h)
  -- all calls match themselves, but for the three in which a digest is given or taken
  cases hmatch with
  | same ho =>
    rw [World.handle_relabel ho]
    exact ⟨rfl, rfl⟩
  | insertUser u h =>
    obtain ⟨hanswer, hw⟩ := executed (.insertUser u h) (.insertUser u (f h)) id (by
      show (Database.insertUser _ _ _).map _ = ((w.db.insertUser u h).map _).map _
      rw [Database.insertUser_relabel, Option.map_map, Option.map_map]
      rfl)
    refine ⟨?_, hw⟩
    rw [hanswer]
    cases (World.handle (.sql (.insertUser u h)) ch w).1 <;> rfl
  | updatePassword i h =>
    obtain ⟨hanswer, hw⟩ := executed (.updatePassword i h) (.updatePassword i (f h)) id
      (congrArg (fun db => some ((), db)) (Database.updatePassword_relabel i h))
    refine ⟨?_, hw⟩
    rw [hanswer]
    cases (World.handle (.sql (.updatePassword i h)) ch w).1 <;> rfl
  | selectUser u =>
    refine executed (.selectUser u) (.selectUser u)
      (Option.map fun account => (account.1, f account.2)) ?_
    refine congrArg (fun r : Option (UserId × Str) => some (r, w.db.relabel f)) ?_
    rw [Database.byName_relabel, Option.map_map, Option.map_map]
    rfl

/-! ## Code that sees no digests -/

theorem Op.Ordinary.blind {o : Op} (ho : o.Ordinary) : o.Blind := by
  cases o with
  | sql st =>
    cases st with
    | insertUser | selectUser | updatePassword => exact absurd ho id
    | _ => trivial
  | _ => trivial

section Blind

open MessageManager

theorem forwardMessage_blind (i j : UserId) (u v content sendTime : Str) :
    (forwardMessage i u j v content sendTime).Uses Op.Blind := by
  refine .bind (uses_op trivial) fun q => ?_
  cases q with
  | none => trivial
  | some q =>
    refine .bind (uses_op trivial) fun c => .bind (uses_op trivial) fun sent => ?_
    cases (sent : Bool) with
    | false => trivial
    | true => exact .bind (uses_caught trivial _ _) fun _ => trivial

theorem pushOfflineMessages_blind (u : Str) : (pushOfflineMessages u).Uses Op.Blind := by
  refine .bind (uses_caught trivial _ _) fun r => ?_
  cases r with
  | none => trivial
  | some i =>
    refine .bind (uses_caught trivial _ _) fun r => ?_
    cases r with
    | none => trivial
    | some messages =>
      refine uses_ite trivial (.bind (uses_op trivial) fun q => ?_)
      cases q with
      | none => trivial
      | some q =>
        refine .bind (uses_op trivial) fun c => ?_
        induction messages with
        | nil => trivial
        | cons msg messages ih =>
          exact .bind (forwardMessage_blind _ _ _ _ _ _) fun _ =>
            .bind (.bind (uses_op trivial) fun _ => trivial) fun _ => ih

theorem handleSendMessage_blind (request : Request) : (handleSendMessage request).Uses Op.Blind := by
  refine uses_ite trivial (uses_ite trivial (.bind (uses_caught trivial _ _) fun r => ?_))
  cases r with
  | none => trivial
  | some i =>
    refine .bind (uses_caught trivial _ _) fun r => ?_
    cases r with
    | none => trivial
    | some j =>
      refine .bind (uses_caught trivial _ _) fun r => uses_ite trivial (.bind ?_ fun _ => trivial)
      refine .bind (uses_caught trivial _ _) fun isOnline => ?_
      cases isOnline.getD false with
      | false => trivial
      | true =>
        refine .bind (uses_op trivial) fun q => ?_
        cases q with
        | none => trivial
        | some q =>
          exact .bind (forwardMessage_blind _ _ _ _ _ _) fun _ => .bind (uses_op trivial) fun c =>
            .bind (uses_op trivial) fun _ => trivial

theorem Op.Accepts.blind {o : Op} (ho : o.Accepts) : o.Blind := by
  cases ho <;> trivial

end Blind

/-! ## Code that does -/

section Sighted

variable {α β : Type} {p : Action α}

abbrev InStepWith (f : Str → Str) (p q : Action α) : Prop := p.Simulates (SameButDigests f) q

theorem inStep_blind (hp : p.Uses Op.Blind) : InStepWith f p p :=
  hp.simulates fun _ => .same

theorem inStep_ordinary (hp : p.Uses Op.Ordinary) : InStepWith f p p :=
  inStep_blind (hp.mono fun _ => Op.Ordinary.blind)

theorem inStep_asks (hp : p.Uses (Op.Asks Stmt.Ordinary)) : InStepWith f p p :=
  inStep_ordinary (hp.mono fun _ => Op.Asks.ordinary)

/-- The account that is found has another text for its digest. -/
theorem inStep_getUserByUsername {u : Str} {k k' : Option (UserId × Str) → Action β}
    (hk : ∀ r, InStepWith f (k r) (k' (r.map fun account => (account.1, f account.2)))) :
    InStepWith f (UserDAO.getUserByUsername u >>= k) (UserDAO.getUserByUsername u >>= k') := by
  show Prog.Simulates _ ((caught _ _ _).bind k) ((caught _ _ _).bind k')
  unfold caught
  rw [Prog.bind_eq, Prog.bind_assoc, Prog.bind_assoc]
  refine .call (.selectUser u) fun r r' hr => ?_
  subst hr
  cases r with
  | ok r => exact hk r
  | error e => exact hk none

theorem inStep_insertUser (u h : Str) :
    InStepWith f (UserDAO.insertUser u h) (UserDAO.insertUser u (f h)) := by
  refine .call (.insertUser u h) fun r r' hr => ?_
  subst hr
  cases r' <;> rfl

theorem inStep_updatePassword (i : UserId) (h : Str) :
    InStepWith f (UserDAO.updatePassword i h) (UserDAO.updatePassword i (f h)) := by
  refine .call (.updatePassword i h) fun r r' hr => ?_
  subst hr
  cases r' <;> rfl

/-- Two digests are equal exactly if their other texts are. -/
theorem inStep_compare (hf : Function.Injective f) {h h' : Str} {p₁ p₂ q₁ q₂ : Action α}
    (h₁ : InStepWith f p₁ q₁) (h₂ : InStepWith f p₂ q₂) :
    InStepWith f (if h ≠ h' then p₁ else p₂) (if f h ≠ f h' then q₁ else q₂) := by
  by_cases heq : h = h'
  · rw [if_neg (not_not.mpr heq), if_neg (not_not.mpr (congrArg f heq))]
    exact h₂
  · rw [if_pos heq, if_pos fun h => heq (hf h)]
    exact h₁

theorem handleRegister_inStep (request : Request) :
    InStepWith f (handleRegister P request) (handleRegister (P.relabel f) request) := by
  refine Prog.simulates_ite rfl (Prog.simulates_ite rfl ?_)
  refine .bind (inStep_blind (uses_caught trivial _ _)) fun taken => Prog.simulates_ite rfl ?_
  exact .bind (inStep_insertUser _ _) fun stored => Prog.simulates_ite rfl rfl

theorem handleLogin_inStep (hf : Function.Injective f) (request : Request) :
    InStepWith f (handleLogin P request) (handleLogin (P.relabel f) request) := by
  refine Prog.simulates_ite rfl (inStep_getUserByUsername fun r => ?_)
  cases r with
  | none => rfl
  | some r =>
    refine inStep_compare hf rfl (.bind (inStep_ordinary (leave_ordinary _ _)) fun _ => ?_)
    refine .bind (inStep_ordinary (enter_ordinary _ _ _)) fun _ => ?_
    exact .bind (inStep_ordinary (notify_ordinary _ _)) fun _ => rfl

theorem serveLogin_inStep (hf : Function.Injective f) (request : Request) :
    InStepWith f (serveLogin P request) (serveLogin (P.relabel f) request) := by
  refine .bind (handleLogin_inStep hf request) fun response => Prog.simulates_ite ?_ rfl
  refine .bind (inStep_ordinary (cacheFriendList_ordinary _)) fun _ => ?_
  exact .bind (inStep_blind (pushOfflineMessages_blind _)) fun _ => rfl

theorem changeUsername_blind (i : UserId) (newUsername : Str) :
    (changeUsername i newUsername).Uses Op.Blind := by
  refine uses_ite trivial (uses_ite trivial (.bind (uses_caught trivial _ _) fun r => ?_))
  refine uses_ite trivial (.bind (uses_caught trivial _ _) fun r => ?_)
  exact uses_ite trivial trivial

theorem changePassword_inStep (i : UserId) (newPassword : Str) :
    InStepWith f (changePassword P i newPassword) (changePassword (P.relabel f) i newPassword) := by
  refine Prog.simulates_ite rfl (Prog.simulates_ite rfl ?_)
  exact .bind (inStep_updatePassword _ _) fun stored => Prog.simulates_ite rfl rfl

theorem handleUpdateUser_inStep (hf : Function.Injective f) (request : Request) :
    InStepWith f (handleUpdateUser P request) (handleUpdateUser (P.relabel f) request) := by
  refine inStep_getUserByUsername fun r => ?_
  cases r with
  | none => rfl
  | some r =>
    refine inStep_compare hf rfl (.bind (inStep_blind (changeUsername_blind _ _)) fun response => ?_)
    cases response with
    | some response => rfl
    | none =>
      refine .bind (changePassword_inStep _ _) fun response => ?_
      cases response with
      | some response => rfl
      | none => exact Prog.simulates_ite rfl rfl

theorem handleQueryStatus_inStep (request : Request) :
    InStepWith f (handleQueryStatus request) (handleQueryStatus request) := by
  refine inStep_getUserByUsername fun r => ?_
  cases r with
  | none => rfl
  | some r =>
    refine .bind (inStep_blind (uses_caught trivial _ _)) fun isOnline => ?_
    cases isOnline <;> rfl

theorem serve_inStep (hf : Function.Injective f) (request : Request) :
    InStepWith f (serve P request) (serve (P.relabel f) request) := by
  refine Prog.simulates_ite (handleRegister_inStep request) ?_
  refine Prog.simulates_ite (serveLogin_inStep hf request) ?_
  refine Prog.simulates_ite (handleUpdateUser_inStep hf request) ?_
  refine Prog.simulates_ite (handleQueryStatus_inStep request) ?_
  refine Prog.simulates_ite (inStep_asks (handleAddFriend_asks request)) ?_
  refine Prog.simulates_ite (inStep_asks (handleDeleteFriend_asks request)) ?_
  refine Prog.simulates_ite (inStep_asks (handleFriendList_asks request)) ?_
  refine Prog.simulates_ite (inStep_asks (queryTarget_asks request _)) ?_
  refine Prog.simulates_ite (inStep_asks (queryTarget_asks request _)) ?_
  refine Prog.simulates_ite (inStep_blind (handleSendMessage_blind request)) ?_
  refine Prog.simulates_ite (inStep_asks (handleHistoryMessages_asks request)) ?_
  exact Prog.simulates_ite rfl rfl

theorem dispatchRequest_inStep (hf : Function.Injective f) (c : Socket) (parsed : Option Json) :
    InStepWith f (dispatchRequest P c parsed) (dispatchRequest (P.relabel f) c parsed) := by
  cases parsed with
  | none => exact inStep_blind (.bind (uses_op trivial) fun _ => trivial)
  | some root =>
    unfold dispatchRequest
    dsimp only
    split
    · rfl
    have hrefresh : (refresh c).Uses Op.Blind := by
      refine .bind (uses_op trivial) fun session => ?_
      cases session with
      | none => trivial
      | some session => exact uses_op trivial
    have hidentify : ∀ request, (identify c request).Uses Op.Blind := by
      refine fun request => .bind (uses_op trivial) fun session => ?_
      cases session with
      | none => trivial
      | some session =>
        refine .bind (uses_op trivial) fun u => ?_
        exact uses_ite trivial (.bind (uses_op trivial) fun _ => trivial)
    refine .bind (inStep_blind hrefresh) fun _ => .bind (inStep_blind (uses_op trivial)) fun garbage => ?_
    split
    · rfl
    refine .bind (inStep_blind (hidentify _)) fun request => ?_
    refine .bind (serve_inStep hf request) fun response => ?_
    exact inStep_blind (.bind (uses_op trivial) fun _ => trivial)

theorem handleClient_inStep (hf : Function.Injective f) (c : Socket) (received : List (Option Json)) :
    InStepWith f (handleClient P c received) (handleClient (P.relabel f) c received) := by
  induction received with
  | nil => exact inStep_ordinary (endConnection_ordinary c)
  | cons parsed received ih =>
    refine .bind (dispatchRequest_inStep hf c parsed) fun served => ?_
    cases served with
    | ok served => exact ih
    | error e => exact inStep_ordinary (failConnection_ordinary c)

end Sighted

/-- **Digests stay where they are.** Give the digests other texts, by any function that keeps them apart:
in every interleaving of the server's threads, whatever fails, the threads end as they would have, and so
does what they share, but for the texts in the table. In particular the same frames leave the process, on
the same connections and with the same success. -/
theorem digestsRelabelled_run {κ : Type} [DecidableEq κ] (f : Str → Str) (hf : Function.Injective f)
    (work : Work κ) (w : World P) (es : List (Worker κ × Choice)) :
    (runAll (Pool.step World.handle)
        (Pool.start (workers (P.relabel f) work) (w.relabel f)) es).shared =
      (runAll (Pool.step World.handle) (Pool.start (workers P work) w) es).shared.relabel f := by
  have hstart : Pool.InStep (SameButDigests f)
      (fun (w : World P) (w' : World (P.relabel f)) => w' = w.relabel f)
      (Pool.start (workers P work) w) (Pool.start (workers (P.relabel f) work) (w.relabel f)) := by
    refine ⟨fun k => ?_, rfl⟩
    cases k with
    | accepting => exact inStep_blind ((acceptConnections_accepts _).mono fun _ => Op.Accepts.blind)
    | handling k => exact handleClient_inStep hf _ _
    | checking => exact inStep_ordinary (heartbeatCheckThread_ordinary _)
  exact (Pool.simulates_runAll respects_sameButDigests hstart es).shared

/-- Alice logs in over digests that are written backwards. -/
theorem digestsRelabelled_reversed :
    (runAll (Pool.step World.handle) (Pool.start (workers (asciiCi.relabel List.reverse) aliceWork)
        ((World.start aliceHere.db).relabel List.reverse))
      (turns [(.accepting, 4), (.handling (), 21)])).shared =
    (runAll (Pool.step World.handle) (Pool.start (workers asciiCi aliceWork) (World.start aliceHere.db))
      (turns [(.accepting, 4), (.handling (), 21)])).shared.relabel List.reverse :=
  digestsRelabelled_run List.reverse List.reverse_injective aliceWork (World.start aliceHere.db) _

end LiteChat
