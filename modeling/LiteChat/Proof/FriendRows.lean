import LiteChat.Proof.Refusals
import LiteChat.Proof.Routing

/-!
# Where the rows of `friends` come from

Two statements write to `friends`, and each is called by one handler. So an event leaves the table as
it is, or it is an `ADD_FRIEND` that appends one row, or a `DEL_FRIEND` that takes one away
(`friends_step`). The row an `ADD_FRIEND` appends is made of what the two names select, while its guard
compares the names. So nobody becomes his own friend as long as nobody adds himself under another
spelling of his name (`noSelfFriend_run`).
-/

namespace LiteChat

open LiteChat.Action Server

variable {P : Platform} {E : Env} {w w' : World P}

/-! ## Code that leaves the table alone -/

/-- The statements that do not write to `friends`. -/
def Stmt.SparesFriends : Stmt → Prop
  | .insertFriend _ _ | .deleteFriend _ _ => False
  | _ => True

/-- The operations that do not write to `friends`. -/
def Op.SparesFriends : Op → Prop
  | .sql st => st.SparesFriends
  | _ => True

theorem Op.Reads.sparesFriends {o : Op} (ho : o.Reads) : o.SparesFriends := by
  cases o with
  | sql st =>
    cases st with
    | insertFriend | deleteFriend => exact absurd ho (by simp [Op.Reads, Stmt.reads])
    | _ => trivial
  | _ => trivial

theorem Op.WritesOnly.sparesFriends {S : Stmt → Prop} (hS : ∀ st, S st → st.SparesFriends) {o : Op}
    (ho : o.WritesOnly S) : o.SparesFriends := by
  rcases ho with ho | ⟨st, rfl, hst⟩
  · exact ho.sparesFriends
  · exact hS st hst

theorem Op.LogsIn.sparesFriends {o : Op} (ho : o.LogsIn) : o.SparesFriends := by
  cases ho with
  | reads ho => exact ho.sparesFriends
  | _ => trivial

theorem Op.Exits.sparesFriends {c : Socket} {o : Op} (ho : o.Exits c) : o.SparesFriends := by
  cases ho with
  | reads ho => exact ho.sparesFriends
  | _ => trivial

theorem Op.Accepts.sparesFriends {o : Op} (ho : o.Accepts) : o.SparesFriends := by
  cases ho <;> trivial

theorem Database.friends_exec {db db' : Database P} {st : Stmt} (hst : st.SparesFriends) {now : Nat}
    {rank : Nat → Nat} {r : st.Res} (h : db.exec now rank st = some (r, db')) :
    db'.friends = db.friends := by
  have hdb : (db.exec now rank st).map Prod.snd = some db' := by rw [h]; rfl
  cases st with
  | insertFriend | deleteFriend => exact absurd hst id
  | insertUser u h => exact (tables_of_insertUser (of_tried hdb)).1
  | updateUsername i u => exact (tables_of_updateUsername (of_tried hdb)).1
  | insertMessage i j content => exact (tables_of_insertMessage (of_tried hdb)).2.2.1
  | _ => exact Option.some.inj hdb ▸ rfl

theorem World.handle_sparesFriends {o : Op} (ho : o.SparesFriends) (ch : Choice) (w : World P) :
    (World.handle o ch w).2.db.friends = w.db.friends := by
  rcases World.db_handle o ch w with hdb | ⟨st, r, rfl, hex⟩
  · rw [hdb]
  · exact Database.friends_exec ho hex

/-- Code that calls only such operations leaves the table alone. -/
theorem wp_sparesFriends {α : Type} {p : Action α} (hp : p.Uses Op.SparesFriends) :
    wp E p (fun _ w' => w'.db.friends = w.db.friends) w :=
  Effect.Prog.wp_frame hp (fun w w' : World P => w'.db.friends = w.db.friends) (fun _ => rfl)
    (fun _ _ _ h h' => h'.trans h) fun _ ch t ho _ => World.handle_sparesFriends ho ch t

theorem serve_sparesFriends {request : Request} (hadd : request.type ≠ bytes "ADD_FRIEND")
    (hdel : request.type ≠ bytes "DEL_FRIEND") :
    (Server.serve P request).Uses Op.SparesFriends := by
  have reads : ∀ {p : Action Response}, p.Uses Op.Reads → p.Uses Op.SparesFriends :=
    fun hp => hp.mono fun _ => Op.Reads.sparesFriends
  unfold Server.serve
  refine uses_ite ((handleRegister_writes request).mono fun _ => Op.WritesOnly.sparesFriends ?_) ?_
  · rintro _ ⟨u, h, rfl⟩
    trivial
  refine uses_ite ((serveLogin_logsIn request).mono fun _ => Op.LogsIn.sparesFriends) ?_
  refine uses_ite ((handleUpdateUser_writes request).mono fun _ => Op.WritesOnly.sparesFriends ?_) ?_
  · rintro _ (⟨i, u, rfl⟩ | ⟨i, h, rfl⟩) <;> trivial
  refine uses_ite (reads (handleQueryStatus_reads request)) ?_
  rw [if_neg hadd, if_neg hdel]
  refine uses_ite (reads (handleFriendList_reads request)) ?_
  refine uses_ite (reads (queryTarget_reads request _)) ?_
  refine uses_ite (reads (queryTarget_reads request _)) ?_
  refine uses_ite ((handleSendMessage_writes request).mono fun _ => Op.WritesOnly.sparesFriends ?_) ?_
  · rintro _ ⟨i, j, ⟨content, rfl⟩ | rfl⟩ <;> trivial
  exact uses_ite (reads (handleHistoryMessages_reads request)) (uses_ite trivial trivial)

/-! ## The two handlers that write -/

/-- The request asks for the row. -/
structure NamesRow (db : Database P) (request : Request) (f : FriendRow) : Prop where
  asked : FriendManager.targetOf request ≠ []
  user : db.idOf request.username = some f.userId1
  target : db.idOf (FriendManager.targetOf request) = some f.userId2

instance (db : Database P) (request : Request) (f : FriendRow) :
    Decidable (NamesRow db request f) :=
  decidable_of_iff (_ ∧ _ ∧ _) ⟨fun h => ⟨h.1, h.2.1, h.2.2⟩, fun h => ⟨h.1, h.2, h.3⟩⟩

/-- `ADD_FRIEND` adds the row of the two users that it was asked about, or none. It compares their names
first, and the table refuses a row that it has already. -/
theorem wp_handleAddFriend_rows (request : Request) :
    wp E (FriendManager.handleAddFriend request) (fun _ w' => w'.db.friends = w.db.friends ∨
      ∃ f, request.username ≠ FriendManager.targetOf request ∧ NamesRow w.db request f ∧
        f ∉ w.db.friends ∧ w'.db.friends = w.db.friends ++ [f]) w := by
  unfold FriendManager.handleAddFriend
  refine wp_if (fun _ => .inl rfl) fun hasked => wp_if (fun _ => .inl rfl) fun hself => ?_
  simp only [wp_bind, wp_getUserIdByUsername]
  refine ⟨fun _ => .inl rfl, ?_⟩
  cases hi : w.db.idOf request.username with
  | none => exact .inl rfl
  | some i =>
    simp only [wp_bind, wp_getUserIdByUsername]
    refine ⟨fun _ => .inl rfl, ?_⟩
    cases hj : w.db.idOf (FriendManager.targetOf request) with
    | none => exact .inl rfl
    | some j =>
      simp only [wp_bind, wp_checkFriendship]
      -- the statement that it ends with, if the count does not find the row or fails
      have insert : wp E (FriendDAO.insertFriend i j) (fun _ w' => w'.db.friends = w.db.friends ∨
          ∃ f, request.username ≠ FriendManager.targetOf request ∧ NamesRow w.db request f ∧
            f ∉ w.db.friends ∧ w'.db.friends = w.db.friends ++ [f]) w := by
        refine (wp_insertFriend).mpr ⟨fun _ => .inl rfl, fun db hdb => .inr ?_⟩
        obtain ⟨hfriends, _⟩ := Database.tables_of_insertFriend hdb
        refine ⟨⟨i, j⟩, hself, ⟨hasked, hi, hj⟩, ?_, hfriends⟩
        unfold Database.insertFriend at hdb
        split at hdb
        · rename_i hnew
          exact hnew.1
        · cases hdb
      have rest : wp E (do
          if ¬ (← FriendDAO.insertFriend i j) then
            return ⟨5001, bytes "数据库操作失败", none⟩
          return ⟨0, bytes "添加好友成功", none⟩ : Action Response) (fun _ w' =>
            w'.db.friends = w.db.friends ∨
              ∃ f, request.username ≠ FriendManager.targetOf request ∧ NamesRow w.db request f ∧
                f ∉ w.db.friends ∧ w'.db.friends = w.db.friends ++ [f]) w := by
        refine (wp_bind _ _).mpr (wp_mono insert fun ok w' hw' => ?_)
        exact wp_if (fun _ => hw') fun _ => hw'
      exact ⟨fun _ => wp_if (fun _ => .inl rfl) fun _ => rest,
        wp_if (fun _ => .inl rfl) fun _ => rest⟩

theorem wp_handleDeleteFriend_rows (request : Request) :
    wp E (FriendManager.handleDeleteFriend request) (fun _ w' => w'.db.friends = w.db.friends ∨
      ∃ f, NamesRow w.db request f ∧ w'.db.friends = w.db.friends.filter (· ≠ f)) w := by
  unfold FriendManager.handleDeleteFriend
  refine wp_if (fun _ => .inl rfl) fun hasked => ?_
  simp only [wp_bind, wp_getUserIdByUsername]
  refine ⟨fun _ => .inl rfl, ?_⟩
  cases hi : w.db.idOf request.username with
  | none => exact .inl rfl
  | some i =>
    simp only [wp_bind, wp_getUserIdByUsername]
    refine ⟨fun _ => .inl rfl, ?_⟩
    cases hj : w.db.idOf (FriendManager.targetOf request) with
    | none => exact .inl rfl
    | some j =>
      have hrow : w.db.friends.filter (fun f => ¬ (f.userId1 = i ∧ f.userId2 = j)) =
          w.db.friends.filter (· ≠ ⟨i, j⟩) := by
        refine List.filter_congr fun f _ => ?_
        obtain ⟨x, y⟩ := f
        simp
      simp only [wp_bind, wp_checkFriendship]
      refine ⟨fun _ => wp_if (fun _ => .inl rfl) fun h => absurd (by simp) h,
        wp_if (fun _ => .inl rfl) fun _ => ?_⟩
      simp only [wp_bind, wp_deleteFriend]
      refine ⟨fun _ => wp_if (fun _ => .inl rfl) fun h => absurd (by simp) h,
        wp_if (fun h => absurd h (by simp)) fun _ => ?_⟩
      simp only [wp_bind, wp_deleteMessagesBetweenUsers, wp_pure]
      exact ⟨fun _ => .inr ⟨⟨i, j⟩, ⟨hasked, hi, hj⟩, hrow⟩, .inr ⟨⟨i, j⟩, ⟨hasked, hi, hj⟩, hrow⟩⟩

/-! ## Events -/

/-- The request that an event is. What memory held before makes a difference to its count only. -/
def requestIn (w : World P) : Event → Option Request
  | .request c (some root) =>
    match requestOf w.sessions.logins c 0 root with
    | .ok request => some request
    | .error _ => none
  | _ => none

/-- The event asks to add the row. -/
def Befriends (w : World P) (e : Event) (f : FriendRow) : Prop :=
  ∃ request, requestIn w e = some request ∧ request.type = bytes "ADD_FRIEND" ∧
    request.username ≠ FriendManager.targetOf request ∧ NamesRow w.db request f

/-- The event asks to delete the row. -/
def Unfriends (w : World P) (e : Event) (f : FriendRow) : Prop :=
  ∃ request, requestIn w e = some request ∧ request.type = bytes "DEL_FRIEND" ∧
    NamesRow w.db request f

/-- What an event can do to the table. -/
inductive FriendsChange (w : World P) (e : Event) : List FriendRow → Prop
  | same : FriendsChange w e w.db.friends
  | added (f : FriendRow) (hadd : Befriends w e f) (hnew : f ∉ w.db.friends) :
      FriendsChange w e (w.db.friends ++ [f])
  | deleted (f : FriendRow) (hdel : Unfriends w e f) :
      FriendsChange w e (w.db.friends.filter (· ≠ f))

theorem FriendsChange.of_eq {e : Event} {fs : List FriendRow} (h : fs = w.db.friends) :
    FriendsChange w e fs := h ▸ .same

/-- A request of another type leaves the table as it is. -/
theorem FriendsChange.eq_of_type {e : Event} {fs : List FriendRow} {request : Request}
    (h : FriendsChange w e fs) (hin : requestIn w e = some request)
    (hadd : request.type ≠ bytes "ADD_FRIEND") (hdel : request.type ≠ bytes "DEL_FRIEND") :
    fs = w.db.friends := by
  cases h with
  | same => rfl
  | added f h =>
    obtain ⟨request', hin', htype, _⟩ := h
    obtain rfl := Option.some.inj (hin.symm.trans hin')
    exact absurd htype hadd
  | deleted f h =>
    obtain ⟨request', hin', htype, _⟩ := h
    obtain rfl := Option.some.inj (hin.symm.trans hin')
    exact absurd htype hdel

theorem requestIn_of_ok {c : Socket} {root : Json} {garbage : Int} {request : Request}
    (h : requestOf w.sessions.logins c garbage root = .ok request) :
    ∃ n, requestIn w (.request c (some root)) = some { request with count := n } := by
  obtain ⟨n, hn⟩ := requestOf_garbage h 0
  refine ⟨n, ?_⟩
  show (match requestOf w.sessions.logins c 0 root with
    | .ok request => some request
    | .error _ => none) = _
  rw [hn]

theorem requestIn_of_error {c : Socket} {root : Json} {garbage : Int} {e : JsonException}
    (h : requestOf w.sessions.logins c garbage root = .error e) :
    requestIn w (.request c (some root)) = none := by
  show (match requestOf w.sessions.logins c 0 root with
    | .ok request => some request
    | .error _ => none) = _
  cases hzero : requestOf w.sessions.logins c 0 root with
  | error _ => rfl
  | ok request =>
    obtain ⟨n, hn⟩ := requestOf_garbage hzero garbage
    cases hn.symm.trans h

/-- A request that is served changes the table of friends as an event may. Two handlers write to it, and
of all others it is enough that they do not call their statements. -/
theorem wp_serve_friends {c : Socket} {root : Json} {garbage : Int} {request : Request}
    {w₁ : World P} (h : requestOf w.sessions.logins c garbage root = .ok request)
    (hquiet : Quiet w w₁) : wp E (Server.serve P request) (fun _ w₂ =>
      FriendsChange w (.request c (some root)) w₂.db.friends) w₁ := by
  obtain ⟨n, hn⟩ := requestIn_of_ok h
  have hdb : w₁.db = w.db := hquiet.db
  by_cases hadd : request.type = bytes "ADD_FRIEND"
  · have hserve : Server.serve P request = FriendManager.handleAddFriend request := by
      unfold Server.serve
      rw [hadd]
      rfl
    rw [hserve]
    refine wp_mono (wp_handleAddFriend_rows request) fun _ w₂ h₂ => ?_
    rw [hdb] at h₂
    rcases h₂ with h₂ | ⟨f, hself, hnames, hnew, h₂⟩
    · exact .of_eq h₂
    · rw [h₂]
      exact .added f ⟨_, hn, hadd, hself, hnames.asked, hnames.user, hnames.target⟩ hnew
  by_cases hdel : request.type = bytes "DEL_FRIEND"
  · have hserve : Server.serve P request = FriendManager.handleDeleteFriend request := by
      unfold Server.serve
      rw [hdel]
      rfl
    rw [hserve]
    refine wp_mono (wp_handleDeleteFriend_rows request) fun _ w₂ h₂ => ?_
    rw [hdb] at h₂
    rcases h₂ with h₂ | ⟨f, hnames, h₂⟩
    · exact .of_eq h₂
    · rw [h₂]
      exact .deleted f ⟨_, hn, hdel, hnames.asked, hnames.user, hnames.target⟩
  · refine wp_mono (wp_sparesFriends (serve_sparesFriends hadd hdel)) fun _ w₂ h₂ => ?_
    exact .of_eq (h₂.trans (by rw [hdb]))

/-- What an event does to the table of friends is what the request does that is served in it, if there
is one. -/
theorem wp_event_friends (e : Event) :
    wp E (e.action P) (fun _ w' => FriendsChange w e w'.db.friends) w := by
  have spared : ∀ {α : Type} {p : Action α}, p.Uses Op.SparesFriends →
      wp E p (fun _ w' => FriendsChange w e w'.db.friends) w :=
    fun hp => wp_mono (wp_sparesFriends hp) fun _ _ h => .of_eq h
  cases e with
  | accept c =>
    refine (wp_bind _ _).mpr (spared ?_)
    exact (acceptConnection_accepts c).mono fun _ => Op.Accepts.sparesFriends
  | hangup c =>
    refine (wp_bind _ _).mpr (spared ?_)
    exact (endConnection_exits c).mono fun _ => Op.Exits.sparesFriends
  | heartbeatScan =>
    refine (wp_bind _ _).mpr (spared ?_)
    exact heartbeatCheck_exits.mono fun _ ⟨_, ho⟩ => ho.sparesFriends
  | request c parsed =>
    show wp E (handleData P c parsed) _ w
    unfold handleData
    rw [wp_bind]
    apply Server.wp_dispatchRequest
    · intro _ w₁ hquiet
      exact .of_eq (by rw [hquiet.db])
    · intro e root garbage w₁ _ _ hquiet
      dsimp only
      rw [wp_bind]
      have hp := (failConnection_exits c).mono fun _ => Op.Exits.sparesFriends
      refine wp_mono (wp_sparesFriends hp) fun _ w₂ h₂ => .of_eq (h₂.trans (by rw [hquiet.db]))
    · rintro root garbage request w₁ rfl hrequest hquiet
      refine wp_mono (wp_serve_friends hrequest hquiet) fun response w₂ h₂ w₃ h₃ => ?_
      show FriendsChange w _ w₃.db.friends
      rw [h₃.db]
      exact h₂

/-- **An event adds a row, or deletes one, or leaves the table as it is.** A row is added by an
`ADD_FRIEND` about two users that were found by their names, and deleted by a `DEL_FRIEND`. -/
theorem friends_step (w : World P) (e : Event) (cs : List Choice) :
    FriendsChange w e (step w e cs).2.db.friends := by
  unfold step
  split
  · exact run_of_wp (wp_event_friends e) cs fun ch _ => Env.ok_any ch
  · exact .same

/-! ## Nobody befriends himself -/

/-- Somebody adds himself under another spelling of his name. -/
def AddsOwnName (w : World P) (e : Event) : Prop :=
  match requestIn w e with
  | none => False
  | some request => request.type = bytes "ADD_FRIEND" ∧ FriendManager.targetOf request ≠ [] ∧
      request.username ≠ FriendManager.targetOf request ∧
      w.db.idOf request.username ≠ none ∧
      w.db.idOf request.username = w.db.idOf (FriendManager.targetOf request)

instance (w : World P) (e : Event) : Decidable (AddsOwnName w e) := by
  unfold AddsOwnName
  split <;> infer_instance

theorem addsOwnName_of_befriends {e : Event} {f : FriendRow} (h : Befriends w e f)
    (hf : f.userId1 = f.userId2) : AddsOwnName w e := by
  obtain ⟨request, hrequest, htype, hself, hasked, huser, htarget⟩ := h
  unfold AddsOwnName
  rw [hrequest]
  refine ⟨htype, hasked, hself, ?_, ?_⟩
  · rw [huser]
    simp
  · rw [huser, htarget, hf]

def NoSelfFriend (w : World P) : Prop := ∀ f ∈ w.db.friends, f.userId1 ≠ f.userId2

/-- **Nobody is his own friend**, in any run in which nobody adds another spelling of his own name.
`HandleAddFriend` compares names by their bytes, and the table looks them up under its collation, so
that a name in other letters is another name to the handler and the same account to the table. -/
theorem noSelfFriend_run (db : Database P) (hdb : NoSelfFriend (World.start db))
    (es : List (Event × List Choice))
    (h : Effect.Meets next (fun w e => ¬ AddsOwnName w e.1) (World.start db) es) :
    NoSelfFriend (Effect.runAll next (World.start db) es) := by
  refine Effect.runAll_inv hdb ?_ h
  rintro w ⟨e, cs⟩ hw hcond f hf
  have hchange := friends_step w e cs
  change f ∈ (step w e cs).2.db.friends at hf
  generalize (step w e cs).2.db.friends = fs at hchange hf
  cases hchange with
  | same => exact hw f hf
  | added g hadd _ =>
    rcases List.mem_append.mp hf with hf | hf
    · exact hw f hf
    · rw [List.mem_singleton.mp hf]
      exact fun hg => hcond (addsOwnName_of_befriends hadd hg)
  | deleted g _ => exact hw f (List.mem_of_mem_filter hf)

def addsFriend (u v : String) : Event × List Choice :=
  (.request 1 (flatBody [("type", "ADD_FRIEND"), ("username", u), ("targetUsername", v)]), [])

/-- Alice, who has registered, adds Bob, who has too. -/
def aliceAddsBob : List (Event × List Choice) :=
  aliceRegisters ++
    [(.request 1 (flatBody [("type", "REGISTER"), ("username", "bob"), ("password", "qwerty")]), []),
      addsFriend "alice" "bob"]

theorem noSelfFriend_bob : NoSelfFriend (Effect.runAll next
    (World.start (Database.empty : Database asciiCi)) aliceAddsBob) :=
  noSelfFriend_run Database.empty nofun aliceAddsBob (by decide)

/-- `Alice` selects the account of `alice`, and is another name. -/
theorem not_noSelfFriend : ¬ ∀ es : List (Event × List Choice), NoSelfFriend (Effect.runAll next
    (World.start (Database.empty : Database asciiCi)) es) := by
  intro h
  exact h (aliceRegisters ++ [addsFriend "alice" "Alice"]) ⟨1, 1⟩ (by decide) rfl

end LiteChat
