import LiteChat.Effect.Interleave
import LiteChat.Proof.Messages

/-!
# A login among other threads

The calls a login makes, in which order, and what it has called when it is done, whatever the other
threads do in between. All it relies on is that its account and its connection are there
(`Relies`). It looks for a session to kick before it takes the account, and takes it in three
calls: the flag, the name of the session, the route. Most of the other calls are `Harmless`: they leave
users, sessions and the friend cache alone.
-/

namespace LiteChat

open LiteChat.Action UserManager

variable {P : Platform} {w w' : World P} {α : Type}

/-! ## Calls that leave users, sessions and the cache alone -/

/-- The statements that do not write to `users`. -/
def Stmt.Harmless : Stmt → Prop
  | .insertUser _ _ | .updateUsername _ _ | .updatePassword _ _ | .updateOnline _ _
  | .updateLastLogin _ | .updateOnlineByName _ _ => False
  | _ => True

def Op.Harmless : Op → Prop
  | .sql st => st.Harmless
  | .addSession _ | .removeSession _ | .bindUsername _ _ | .setUsername _ _ | .updateHeartbeat _
  | .cacheInsert _ _ | .cacheErase _ => False
  | _ => True

/-- Users, sessions and the cache are as they were. -/
structure Harmless (w w' : World P) : Prop where
  users : w'.db.users = w.db.users
  sessions : w'.sessions = w.sessions
  cachedFriendLists : w'.cachedFriendLists = w.cachedFriendLists

theorem Harmless.byName (h : Harmless w w') (u : Str) : w'.db.byName u = w.db.byName u := by
  unfold Database.byName
  rw [h.users]

theorem Database.exec_harmless {db db' : Database P} {st : Stmt} (hst : st.Harmless) {now : Nat}
    {rank : Nat → Nat} {r : st.Res} (h : db.exec now rank st = some (r, db')) :
    db'.users = db.users := by
  have hdb : (db.exec now rank st).map Prod.snd = some db' := by rw [h]; rfl
  cases st with
  | insertUser | updateUsername | updatePassword | updateOnline | updateLastLogin
  | updateOnlineByName => exact absurd hst id
  | insertFriend i j => exact (tables_of_insertFriend (of_tried hdb)).2.1
  | insertMessage i j content => exact (tables_of_insertMessage (of_tried hdb)).2.1
  | _ => exact Option.some.inj hdb ▸ rfl

theorem World.handle_harmless {o : Op} (ho : o.Harmless) (ch : Choice) (w : World P) :
    LiteChat.Harmless w (World.handle o ch w).2 := by
  have hderefs := fun ho : World.Derefs o => World.handle_derefs ho ch w
  cases o with
  | addSession | removeSession | bindUsername | setUsername | updateHeartbeat | cacheInsert
  | cacheErase => exact absurd ho id
  | sql st =>
    obtain ⟨db, hw, hdb⟩ := w.execute_world st ch
    show LiteChat.Harmless w (w.execute st ch).2
    rw [hw]
    rcases hdb with rfl | ⟨r, hex⟩
    · exact ⟨rfl, rfl, rfl⟩
    · exact ⟨Database.exec_harmless ho hex, rfl, rfl⟩
  | getSocket | getUsername | getLastHeartbeat | getIsConnected =>
    obtain ⟨lost, hw⟩ := hderefs trivial
    rw [hw]
    exact ⟨rfl, rfl, rfl⟩
  | _ => exact ⟨rfl, rfl, rfl⟩

theorem Op.Reads.harmless {o : Op} (ho : o.Reads) : o.Harmless := by
  cases o with
  | addSession | removeSession | bindUsername | setUsername | updateHeartbeat | cacheInsert
  | cacheErase => exact absurd ho id
  | sql st => cases st <;> trivial
  | _ => trivial

theorem notify_harmless (u : Str) (status : UserStatus) :
    (notifyFriendsStatusChange u status).Uses Op.Harmless :=
  (notify_reads u status).mono fun _ => Op.Reads.harmless

theorem pushOfflineMessages_harmless (u : Str) :
    (MessageManager.pushOfflineMessages u).Uses Op.Harmless := by
  refine (pushOfflineMessages_marks u).mono fun o ho => ?_
  rcases ho with ho | ⟨_, rfl, i, j, rfl⟩
  · exact ho.harmless
  · trivial

/-! ## Calls that leave accounts, names and routes alone -/

/-- The account that a name selects, and the digest of its password. -/
def Database.credentials (db : Database P) (u : Str) : Option (UserId × Str) :=
  (db.byName u).map fun r => (r.userId, r.passwordHash)

theorem Database.idOf_eq_credentials (db : Database P) (u : Str) :
    db.idOf u = (db.credentials u).map Prod.fst := by
  unfold Database.idOf Database.credentials
  rw [Option.map_map]
  rfl

/-- The statements that change flags and times in `users`, and no more. -/
def Stmt.KeepsCredentials : Stmt → Prop
  | .insertUser _ _ | .updateUsername _ _ | .updatePassword _ _ => False
  | _ => True

theorem Database.credentials_mapUsers {db : Database P} {f : UserRow → UserRow}
    (hid : ∀ r, (f r).userId = r.userId) (hname : ∀ r, (f r).username = r.username)
    (hhash : ∀ r, (f r).passwordHash = r.passwordHash) (u : Str) :
    (db.mapUsers f hid hname).credentials u = db.credentials u := by
  unfold credentials
  rw [byName_mapUsers, Option.map_map]
  congr 1
  funext r
  exact Prod.ext (hid r) (hhash r)

theorem Database.credentials_setOnlineWhere (db : Database P) (q : UserRow → Bool) (isOnline : Bool)
    (u : Str) : (db.setOnlineWhere q isOnline).credentials u = db.credentials u := by
  unfold setOnlineWhere
  exact credentials_mapUsers _ _ (fun r => by split <;> rfl) u

theorem Database.credentials_updateLastLogin (db : Database P) (i : UserId) (now : Nat) (u : Str) :
    (db.updateLastLogin i now).credentials u = db.credentials u := by
  unfold updateLastLogin
  exact credentials_mapUsers _ _ (fun r => by split <;> rfl) u

theorem Database.exec_credentials {db db' : Database P} {st : Stmt} (hst : st.KeepsCredentials)
    {now : Nat} {rank : Nat → Nat} {r : st.Res} (h : db.exec now rank st = some (r, db')) (u : Str) :
    db'.credentials u = db.credentials u := by
  have hdb : (db.exec now rank st).map Prod.snd = some db' := by rw [h]; rfl
  have hharmless : st.Harmless → db'.credentials u = db.credentials u := by
    intro hharmless
    unfold credentials byName
    rw [exec_harmless hharmless h]
  cases st with
  | insertUser | updateUsername | updatePassword => exact absurd hst id
  | updateOnline i isOnline =>
    rw [← Option.some.inj hdb]
    exact credentials_setOnlineWhere db _ isOnline u
  | updateLastLogin i =>
    rw [← Option.some.inj hdb]
    exact credentials_updateLastLogin db i now u
  | updateOnlineByName v isOnline =>
    rw [← Option.some.inj hdb]
    exact credentials_setOnlineWhere db _ isOnline u
  | _ => exact hharmless trivial

theorem World.execute_credentials {st : Stmt} (hst : st.KeepsCredentials) (ch : Choice) (w : World P)
    (u : Str) : (w.execute st ch).2.db.credentials u = w.db.credentials u := by
  obtain ⟨db, hw, hdb⟩ := w.execute_world st ch
  rw [hw]
  rcases hdb with rfl | ⟨r, hex⟩
  · rfl
  · exact Database.exec_credentials hst hex u

theorem World.sessions_execute (st : Stmt) (ch : Choice) (w : World P) :
    (w.execute st ch).2.sessions = w.sessions := by
  obtain ⟨db, hw, _⟩ := w.execute_world st ch
  rw [hw]

/-- The operations that leave the session manager alone. -/
def Op.KeepsSessions : Op → Prop
  | .addSession _ | .removeSession _ | .bindUsername _ _ | .setUsername _ _
  | .updateHeartbeat _ => False
  | _ => True

theorem World.sessions_handle {o : Op} (ho : o.KeepsSessions) (ch : Choice) (w : World P) :
    (World.handle o ch w).2.sessions = w.sessions := by
  have hderefs := fun ho : World.Derefs o => World.handle_derefs ho ch w
  cases o with
  | addSession | removeSession | bindUsername | setUsername | updateHeartbeat => exact absurd ho id
  | sql st => exact World.sessions_execute st ch w
  | getSocket | getUsername | getLastHeartbeat | getIsConnected =>
    obtain ⟨lost, hw⟩ := hderefs trivial
    rw [hw]
  | _ => rfl

/-- Accounts, sessions, their names and the routes are as they were. -/
structure Standing (w w' : World P) : Prop where
  credentials : ∀ u, w'.db.credentials u = w.db.credentials u
  getSession : ∀ d, w'.sessions.getSession d = w.sessions.getSession d
  loginAt : ∀ d, w'.sessions.loginAt d = w.sessions.loginAt d
  route : ∀ u, w'.sessions.route u = w.sessions.route u

theorem Standing.of_sessions (hdb : ∀ u, w'.db.credentials u = w.db.credentials u)
    (hsessions : w'.sessions = w.sessions) : Standing w w' := by
  refine ⟨hdb, fun d => ?_, fun d => ?_, fun u => ?_⟩ <;> rw [hsessions]

theorem Harmless.standing (h : Harmless w w') : Standing w w' := by
  refine .of_sessions (fun u => ?_) h.sessions
  unfold Database.credentials
  rw [h.byName]

theorem World.handle_updateHeartbeat (p : SessionPtr) (ch : Choice) (w : World P) :
    Standing w (World.handle (.updateHeartbeat p) ch w).2 := by
  show Standing w (w.write p (·.updateHeartbeat p ch.now))
  unfold World.write
  split
  · exact ⟨fun _ => rfl, fun d => by simp, fun d => by simp, fun u => by simp⟩
  · exact .of_sessions (fun _ => rfl) rfl

/-- A name is set, or would be if the session were still there. -/
theorem World.sessions_setUsername (p : SessionPtr) (u : Str) (ch : Choice) (w : World P) :
    (World.handle (.setUsername p u) ch w).2.sessions = w.sessions.setUsername p u := by
  show (w.write p (·.setUsername p u)).sessions = w.sessions.setUsername p u
  unfold World.write
  split
  · rfl
  · rename_i h
    unfold SessionManager.setUsername SessionManager.modify
    split
    · rfl
    · rename_i s hs
      cases h.symm.trans hs

/-- A session that is used through a pointer is there. -/
def Op.Live (w : World P) : Op → Prop
  | .getSocket p | .getUsername p | .getLastHeartbeat p | .getIsConnected p | .setUsername p _
  | .updateHeartbeat p => (w.sessions.heap.lookup p).isSome = true
  | _ => True

theorem World.undefined_handle {o : Op} (ho : o.Live w) (ch : Choice) :
    (World.handle o ch w).2.undefined = w.undefined := by
  have hderef : ∀ {β : Type} (p : SessionPtr) (f : ClientSession → β) (junk : β),
      (w.sessions.heap.lookup p).isSome = true → (w.deref p f junk).2.undefined = w.undefined := by
    intro β p f junk hp
    obtain ⟨s, hs⟩ := Option.isSome_iff_exists.mp hp
    unfold World.deref
    rw [hs]
  have hwrite : ∀ (p : SessionPtr) (f : SessionManager → SessionManager),
      (w.sessions.heap.lookup p).isSome = true → (w.write p f).undefined = w.undefined := by
    intro p f hp
    obtain ⟨s, hs⟩ := Option.isSome_iff_exists.mp hp
    unfold World.write
    rw [hs]
  cases o with
  | sql st =>
    obtain ⟨db, hw, _⟩ := w.execute_world st ch
    show (w.execute st ch).2.undefined = w.undefined
    rw [hw]
  | getSocket p => exact hderef p _ _ ho
  | getUsername p => exact hderef p _ _ ho
  | getLastHeartbeat p => exact hderef p _ _ ho
  | getIsConnected p => exact hderef p _ _ ho
  | setUsername p u => exact hwrite p _ ho
  | updateHeartbeat p => exact hwrite p _ ho
  | _ => rfl

/-- `accept` returns a descriptor that is not in use. -/
def Unused (w : World P) : Op → Prop
  | .accept c => c ∉ w.openSockets
  | _ => True

instance (w : World P) (o : Op) : Decidable (Unused w o) := by
  unfold Unused
  split <;> infer_instance

/-- What was said stays said, and a shutdown is on record. -/
theorem World.trace_handle (o : Op) (ch : Choice) (w : World P) :
    ∃ said, (World.handle o ch w).2.trace = w.trace ++ said ∧
      ∀ d, o = .shutdown d → Obs.shutdown d ∈ said := by
  have same : ∀ {w' : World P}, w'.trace = w.trace → (∀ d, o ≠ .shutdown d) →
      ∃ said, w'.trace = w.trace ++ said ∧ ∀ d, o = .shutdown d → Obs.shutdown d ∈ said :=
    fun ht ho => ⟨[], by rw [ht, List.append_nil], fun d hd => absurd hd (ho d)⟩
  have hfollows := fun ho : World.Follows o => World.handle_follows ho ch w
  cases o with
  | sql st =>
    refine same ?_ nofun
    obtain ⟨db, hw, _⟩ := w.execute_world st ch
    show (w.execute st ch).2.trace = w.trace
    rw [hw]
  | getSocket | getUsername | getLastHeartbeat | getIsConnected | setUsername | updateHeartbeat =>
    obtain ⟨sessions, lost, hw⟩ := hfollows trivial
    rw [hw]
    exact same rfl nofun
  | sendData c frame => exact ⟨_, rfl, nofun⟩
  | close c => exact ⟨_, rfl, nofun⟩
  | shutdown c =>
    refine ⟨_, rfl, fun d hd => ?_⟩
    cases hd
    exact List.mem_singleton_self _
  | _ => exact same rfl nofun

/-! ## The protocol of a login -/

/-- What a login relies on at each of its calls: the account is there with the digest of the
password it was given, and the connection has the session `p`. -/
structure Relies (request : Request) (i : UserId) (p : SessionPtr) (w : World P) : Prop where
  account : w.db.credentials request.username = some (i, P.md5 request.password)
  session : w.sessions.getSession request.clientSocket = some p

/-- The calls of a login, in view of its calls before: it kicks before it takes the account, and
clears the flag before it sets it. -/
def LoginCalls (c : Socket) (u : Str) (i : UserId) (p : SessionPtr) (own : List Op) : Op → Prop
  | .sql (.updateOnline j isOnline) =>
      j = i ∧ (isOnline = false → .sql (.updateOnline i true) ∉ own)
  | .sql (.updateLastLogin _) => True
  | .setUsername q v =>
      (v = [] ∧ .setUsername p u ∉ own) ∨ (q = p ∧ v = u ∧ .bindUsername c u ∉ own)
  | .bindUsername d v => d = c ∧ v = u
  | .updateHeartbeat _ | .cacheInsert _ _ => True
  | o => o.Harmless

/-- Whoever was kicked was shut down; `Of q d` says that `d` is the descriptor that the session `q`
gave as its own. -/
def ShutDown (Of : SessionPtr → Socket → Prop) (own : List Op) : Prop :=
  ∀ q, .setUsername q [] ∈ own → ∃ d, Of q d ∧ .shutdown d ∈ own

/-- A login that has not begun to take the account. -/
structure Outside (Of : SessionPtr → Socket → Prop) (c : Socket) (u : Str) (i : UserId)
    (p : SessionPtr) (own : List Op) : Prop where
  flag : .sql (.updateOnline i true) ∉ own
  name : .setUsername p u ∉ own
  route : .bindUsername c u ∉ own
  kicks : ShutDown Of own

/-- A login that has taken it. -/
structure Inside (Of : SessionPtr → Socket → Prop) (c : Socket) (u : Str) (i : UserId)
    (p : SessionPtr) (own : List Op) : Prop where
  flag : .sql (.updateOnline i true) ∈ own
  name : .setUsername p u ∈ own
  route : .bindUsername c u ∈ own
  kicks : ShutDown Of own

section Login

variable {Of : SessionPtr → Socket → Prop} {c : Socket} {u : Str} {i : UserId} {p : SessionPtr}
  {own : List Op} {o : Op}

theorem ShutDown.append (h : ShutDown Of own) (ho : ∀ q, o ≠ .setUsername q []) :
    ShutDown Of (own ++ [o]) := by
  intro q hq
  rcases List.mem_append.mp hq with hq | hq
  · obtain ⟨d, hof, hd⟩ := h q hq
    exact ⟨d, hof, List.mem_append_left _ hd⟩
  · exact absurd (List.mem_singleton.mp hq).symm (ho q)

theorem Outside.append (h : Outside Of c u i p own) (hflag : o ≠ .sql (.updateOnline i true))
    (hname : ∀ q v, o ≠ .setUsername q v) (hroute : o ≠ .bindUsername c u) :
    Outside Of c u i p (own ++ [o]) where
  flag := by simpa [hflag.symm] using h.flag
  name := by simpa [(hname p u).symm] using h.name
  route := by simpa [hroute.symm] using h.route
  kicks := h.kicks.append fun q => hname q []

theorem Inside.append (h : Inside Of c u i p own) (ho : ∀ q, o ≠ .setUsername q []) :
    Inside Of c u i p (own ++ [o]) where
  flag := List.mem_append_left _ h.flag
  name := List.mem_append_left _ h.name
  route := List.mem_append_left _ h.route
  kicks := h.kicks.append ho

theorem Op.Harmless.ne_setUsername (ho : o.Harmless) (q : SessionPtr) (v : Str) :
    o ≠ .setUsername q v := by
  rintro rfl
  exact ho

theorem Op.Harmless.loginCalls (ho : o.Harmless) : LoginCalls c u i p own o := by
  cases o with
  | addSession | removeSession | bindUsername | setUsername | updateHeartbeat | cacheInsert
  | cacheErase => exact absurd ho id
  | sql st =>
    cases st with
    | insertUser | updateUsername | updatePassword | updateOnline | updateLastLogin
    | updateOnlineByName => exact absurd ho id
    | _ => trivial
  | _ => trivial

/-- But for names and routes, nothing that a login calls moves them. -/
theorem LoginCalls.standing (h : LoginCalls c u i p own o) (hname : ∀ q v, o ≠ .setUsername q v)
    (hroute : ∀ d v, o ≠ .bindUsername d v) (ch : Choice) (w : World P) :
    Standing w (World.handle o ch w).2 := by
  have hharmless : o.Harmless → Standing w (World.handle o ch w).2 :=
    fun ho => (World.handle_harmless ho ch w).standing
  cases o with
  | setUsername q v => exact absurd rfl (hname q v)
  | bindUsername d v => exact absurd rfl (hroute d v)
  | updateHeartbeat q => exact World.handle_updateHeartbeat q ch w
  | cacheInsert v friends => exact .of_sessions (fun _ => rfl) rfl
  | sql st =>
    have hkeeps : st.KeepsCredentials → Standing w (World.handle (.sql st) ch w).2 :=
      fun hst => .of_sessions (World.execute_credentials hst ch w) (World.sessions_execute st ch w)
    cases st with
    | insertUser | updateUsername | updatePassword | updateOnlineByName => exact absurd h id
    | _ => exact hkeeps trivial
  | _ => exact hharmless h

variable {I : World P → Prop}

/-- What the environment may do to a call: sends fail, statements do not. -/
abbrev Answers (ch : Choice) : Prop := ch.dbOk = true

abbrev AmongThreads (I : World P → Prop) (Ok : List Op → Op → Prop) (q : Action α)
    (Done : α → List Op → Prop) (own : List Op) : Prop :=
  Effect.Prog.AmongOps World.handle Answers I Ok q Done own

/-- The rule for a statement. -/
theorem among_caught {β : Type} {Ok : List Op → Op → Prop} {st : Stmt} {f : st.Res → α}
    {failed : α} {k : α → Action β} {Done : β → List Op → Prop} (hok : Ok own (.sql st))
    (R : α → Prop) (hR : ∀ ch w, Answers ch → I w → R (match (w.execute st ch).1 with
      | .ok r => f r
      | .error _ => failed))
    (hk : ∀ a, R a → AmongThreads I Ok (k a) Done (own ++ [.sql st])) :
    AmongThreads I Ok (caught st f failed >>= k) Done own := by
  show Effect.Prog.AmongOps _ _ _ _ ((caught st f failed).bind k) _ _
  unfold caught
  rw [Effect.Prog.bind_eq, Effect.Prog.bind_assoc]
  refine .call hok (fun r => (∀ x, r = .ok x → R (f x)) ∧ ∀ e, r = .error e → R failed) ?_
    fun r hr => ?_
  · intro ch w hch hw
    have h := hR ch w hch hw
    show (∀ x, (w.execute st ch).1 = .ok x → _) ∧ ∀ e, (w.execute st ch).1 = .error e → _
    constructor
    · intro x hx
      rwa [hx] at h
    · intro e he
      rwa [he] at h
  · cases r with
    | ok r => exact hk _ (hr.1 r rfl)
    | error e => exact hk _ (hr.2 e rfl)

/-- A query that the schema cannot refuse. -/
theorem execute_reliable {st : Stmt} {ch : Choice} (hch : Answers ch) {r : st.Res}
    {db : Database P} (h : w.db.exec ch.now ch.rank st = some (r, db)) :
    w.execute st ch = (.ok r, { w with db := db }) := by
  unfold World.execute
  rw [if_pos hch, h]

theorem harmless_among {q : Action α} (hq : q.Uses Op.Harmless) (h : Inside Of c u i p own) :
    AmongThreads I (LoginCalls c u i p) q (fun _ own' => Inside Of c u i p own') own :=
  hq.amongOps _ h fun _ _ h ho => ⟨ho.loginCalls, h.append fun q => ho.ne_setUsername q []⟩

theorem kickOld_among (hu : u ≠ [])
    (hof : ∀ w q, I w → w.sessions.getSessionByUsername u = some q →
      ∀ w', I w' → Of q (w'.deref q (·.socket) (0 : Nat)).1)
    (h : Outside Of c u i p own) :
    AmongThreads I (LoginCalls c u i p) (kickOld u) (fun _ own' => Outside Of c u i p own') own := by
  have h₁ := h.append (o := .getSessionByUsername u) nofun nofun nofun
  refine .call trivial (fun q? => ∀ q, q? = some q → ∀ w, I w →
    Of q (w.deref q (·.socket) (0 : Nat)).1) (fun _ w _ hw q hq => hof w q hw hq) ?_
  intro q? hq?
  cases q? with
  | none => exact .pure h₁
  | some q =>
    have h₂ := h₁.append (o := .getSocket q) nofun nofun nofun
    refine .call trivial (fun d => Of q d) (fun _ w _ hw => hq? q rfl w hw) fun d hd => ?_
    have h₃ := h₂.append (o := .sendData d kicked) nofun nofun nofun
    refine .call_any trivial fun _ => ?_
    refine .call_any (.inl ⟨rfl, h₃.name⟩) fun _ => ?_
    refine .last trivial fun _ => ?_
    -- the kicked session is shut down by the last of the calls
    refine ⟨by simpa using h₃.flag, by simpa [hu] using h₃.name, by simpa using h₃.route, ?_⟩
    intro q' hq'
    by_cases hqq : q' = q
    · exact ⟨d, hqq ▸ hd, by simp⟩
    · obtain ⟨d', hof', hd'⟩ := h₃.kicks q' (by simpa [hqq] using hq')
      exact ⟨d', hof', by simp only [List.mem_append]; exact .inl (.inl (by simpa using hd'))⟩

theorem leave_among (hu : u ≠ [])
    (hof : ∀ w q, I w → w.sessions.getSessionByUsername u = some q →
      ∀ w', I w' → Of q (w'.deref q (·.socket) (0 : Nat)).1)
    (h : Outside Of c u i p own) :
    AmongThreads I (LoginCalls c u i p) (leave u i) (fun _ own' => Outside Of c u i p own') own := by
  have h₁ := h.append (o := .sql (.selectOnline i)) nofun nofun nofun
  refine among_caught trivial (fun _ => True) (fun _ _ _ _ => trivial) fun isOnline _ => ?_
  cases isOnline.getD false with
  | false => exact .pure h₁
  | true =>
    have h₂ := h₁.append (o := .sql (.updateOnline i false)) (by simp) nofun nofun
    exact among_caught ⟨rfl, fun _ => h₁.flag⟩ (fun _ => True) (fun _ _ _ _ => trivial)
      fun _ _ => kickOld_among hu hof h₂

theorem enter_among (hu : u ≠ []) (hsession : ∀ w, I w → w.sessions.getSession c = some p)
    (h : Outside Of c u i p own) :
    AmongThreads I (LoginCalls c u i p) (enter c u i) (fun _ own' => Inside Of c u i p own') own := by
  refine among_caught ⟨rfl, nofun⟩ (fun _ => True) (fun _ _ _ _ => trivial) fun _ _ => ?_
  refine among_caught trivial (fun _ => True) (fun _ _ _ _ => trivial) fun _ _ => ?_
  refine .call trivial (fun p? => p? = some p) (fun _ w _ hw => hsession w hw) fun _ hp => ?_
  subst hp
  refine .call_any (.inr ⟨rfl, rfl, by simpa using h.route⟩) fun _ => ?_
  refine .call_any ⟨rfl, rfl⟩ fun _ => .last trivial fun _ => ?_
  refine ⟨by simp, by simp, by simp, fun q hq => ?_⟩
  obtain ⟨d, hof, hd⟩ := h.kicks q (by simpa [hu.symm] using hq)
  exact ⟨d, hof, by simp [hd]⟩

variable {request : Request}

/-- A login with the right password ends with the account taken. -/
theorem handleLogin_among (hvalid : validateUsername request.username = true)
    (hI : ∀ w, I w → Relies request i p w)
    (hof : ∀ w q, I w → w.sessions.getSessionByUsername request.username = some q →
      ∀ w', I w' → Of q (w'.deref q (·.socket) (0 : Nat)).1) :
    AmongThreads I (LoginCalls request.clientSocket request.username i p) (handleLogin P request)
      (fun response own => response = loginAccepted ∧
        Inside Of request.clientSocket request.username i p own) [] := by
  have hu : request.username ≠ [] := by
    intro hnil
    rw [hnil] at hvalid
    exact absurd hvalid (by decide)
  have hstart : Outside Of request.clientSocket request.username i p
      [.sql (.selectUser request.username)] :=
    ⟨by simp, by simp, by simp, fun q hq => by simp at hq⟩
  unfold handleLogin
  rw [if_neg fun h => h hvalid]
  refine among_caught trivial (fun r => r = some (i, P.md5 request.password)) ?_ fun _ hr => ?_
  · intro ch w hch hw
    rw [execute_reliable hch rfl]
    exact (hI w hw).account
  subst hr
  dsimp only
  rw [if_neg fun h => h rfl]
  refine (leave_among hu hof hstart).seq fun _ own h => ?_
  refine (enter_among hu (fun w hw => (hI w hw).session) h).seq fun _ own h => ?_
  exact (harmless_among (notify_harmless _ _) h).seq fun _ own h => .pure ⟨rfl, h⟩

/-- A login that has taken the account and cached its friends. -/
def Cached (Of : SessionPtr → Socket → Prop) (c : Socket) (u : Str) (i : UserId) (p : SessionPtr)
    (own : List Op) : Prop :=
  Inside Of c u i p own ∧ ∃ friends, .cacheInsert u friends ∈ own

theorem cacheFriendList_among (hI : ∀ w, I w → w.db.idOf u = some i) (h : Inside Of c u i p own) :
    AmongThreads I (LoginCalls c u i p) (FriendManager.cacheFriendList u)
      (fun _ own' => Cached Of c u i p own') own := by
  have h₁ := h.append (o := .sql (.selectUserId u)) nofun
  refine among_caught trivial (fun r => r = some i) ?_ fun _ hr => ?_
  · intro ch w hch hw
    rw [execute_reliable hch rfl, hI w hw]
  subst hr
  have h₂ := h₁.append (o := .sql (.selectFriends i)) nofun
  refine among_caught trivial (fun r => r ≠ none) ?_ fun friends hr => ?_
  · intro ch w hch _
    rw [execute_reliable hch rfl]
    exact Option.some_ne_none _
  obtain ⟨friends, rfl⟩ := Option.ne_none_iff_exists'.mp hr
  have h₃ := h₂.append (o := .cacheInsert u (friends.map (·.1))) nofun
  exact .last trivial fun _ => ⟨h₃, friends.map (·.1), by simp⟩

theorem pushOfflineMessages_among (h : Cached Of c u i p own) :
    AmongThreads I (LoginCalls c u i p) (MessageManager.pushOfflineMessages u)
      (fun _ own' => Cached Of c u i p own') own :=
  (pushOfflineMessages_harmless u).amongOps _ h fun _ _ h ho => ⟨ho.loginCalls,
    h.1.append fun q => ho.ne_setUsername q [], h.2.imp fun _ => List.mem_append_left _⟩

/-- The whole `LOGIN` branch. -/
theorem serveLogin_among (hvalid : validateUsername request.username = true)
    (hI : ∀ w, I w → Relies request i p w)
    (hof : ∀ w q, I w → w.sessions.getSessionByUsername request.username = some q →
      ∀ w', I w' → Of q (w'.deref q (·.socket) (0 : Nat)).1) :
    AmongThreads I (LoginCalls request.clientSocket request.username i p)
      (Server.serveLogin P request)
      (fun _ own => Cached Of request.clientSocket request.username i p own) [] := by
  refine (handleLogin_among hvalid hI hof).seq ?_
  rintro _ own ⟨rfl, h⟩
  have hid : ∀ w, I w → w.db.idOf request.username = some i := by
    intro w hw
    rw [Database.idOf_eq_credentials, (hI w hw).account]
    rfl
  refine (cacheFriendList_among hid h).seq fun _ own h => ?_
  exact (pushOfflineMessages_among h).seq fun _ _ h => .pure h

end Login

end LiteChat
