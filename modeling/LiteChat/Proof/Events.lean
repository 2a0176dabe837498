import LiteChat.Proof.Requests
import LiteChat.Effect.Runs

/-!
# What each event can do

`Serves` lists what serving a request comes to, `Removed` what the end of a session comes to,
whichever of the three paths ends it, and `Happens` puts them together: it relates an event, what
was served in it and the worlds before and after. `step_happens` says that every step of the server
is one of these. The results about runs are inductions over `Happens`; none of them looks at the
code again.

`Happens` has one constructor for each way in which an event can go, and each says all that is needed of
it: the tables, the logins, the open descriptors and what was said. Everything about runs of events is
proved by cases on it, and the code of the server is looked at nowhere after this file.
-/

namespace LiteChat

open LiteChat.Action Spec

variable {P : Platform} {E : Env} {w w' w'' : World P}

/-! ## Requests -/

/-- What serving a request comes to. -/
inductive Serves (E : Env) (request : Request) (w : World P) : Response → World P → Prop
  | refused (response : Response)
      (hlogin : request.type = bytes "LOGIN" →
        response.code ≠ 0 ∧ (¬ E.dbFails → ∀ r, ¬ Accepts w.db request r)) :
      Serves E request w response w
  | registered (response : Response) (db : Database P) (htype : request.type = bytes "REGISTER")
      (hname : UserManager.validateUsername request.username = true)
      (hinsert : w.db.insertUser request.username (P.md5 request.password) = some db) :
      Serves E request w response { w with db := db }
  | loggedIn (r : UserRow) (kicks : Bool) (w₁ w' : World P) (htype : request.type = bytes "LOGIN")
      (haccepts : Accepts w.db request r)
      (hlogin : LoggedIn E request.clientSocket request.username r.userId kicks w w₁)
      (hrest : Chats w₁ w') : Serves E request w UserManager.loginAccepted w'
  | updated (response : Response) (r : UserRow) (db : Database P)
      (htype : request.type = bytes "UPDATE_USER") (hr : w.db.byName request.username = some r)
      (hmd5 : P.md5 request.verifyPassword = r.passwordHash)
      (hupdate : UserUpdated E request r.userId w.db db) :
      Serves E request w response { w with db := db }
  | other (response : Response) (w' : World P) (hlogin : request.type ≠ bytes "LOGIN")
      (hkeeps : Chats w w') : Serves E request w response w'

theorem wp_serveLogin {request : Request} (htype : request.type = bytes "LOGIN") :
    wp E (Server.serveLogin P request) (Serves E request w) w := by
  unfold Server.serveLogin
  rw [wp_bind]
  apply wp_handleLogin
  · intro response hcode hrefused
    simp only [if_neg hcode, wp_pure]
    exact .refused response fun _ => ⟨hcode, hrefused⟩
  · intro r kicks w₁ haccepts hlogin
    have hcode : UserManager.loginAccepted.code = 0 := rfl
    simp only [if_pos hcode, wp_bind, wp_pure]
    refine wp_cacheFriendList_any fun cache => ?_
    refine wp_mono (wp_pushOfflineMessages _) fun _ w₃ h₃ => ?_
    exact .loggedIn r kicks w₁ w₃ htype haccepts hlogin h₃.of_cache

theorem wp_serve (request : Request) : wp E (Server.serve P request) (Serves E request w) w := by
  have chats : ∀ p : Action Response, request.type ≠ bytes "LOGIN" →
      wp E p (fun _ w' => Chats w w') w → wp E p (Serves E request w) w :=
    fun p htype hp => wp_mono hp fun response w' hw => .other response w' htype hw
  have plain : ∀ {p : Action Response}, p.Uses Op.Plain → wp E p (fun _ w' => Chats w w') w :=
    fun hp => wp_mono (wp_plain hp) fun _ _ hw => hw.chats
  have reads : ∀ {p : Action Response}, p.Uses Op.Reads → wp E p (fun _ w' => Chats w w') w :=
    fun hp => plain (hp.mono fun _ => Op.Reads.plain)
  unfold Server.serve
  refine wp_if (fun htype => ?_) fun _ => wp_if wp_serveLogin fun hlogin =>
    wp_if (fun htype => ?_) fun _ => chats _ hlogin ?_
  · apply wp_handleRegister
    · exact fun response _ => .refused response fun h => absurd (htype.symm.trans h) (by decide)
    · exact fun db hname hinsert => .registered _ db htype hname hinsert
  · apply wp_handleUpdateUser
    · exact fun response _ => .refused response fun h => absurd h hlogin
    · exact fun response r db hr hmd5 hupdate _ => .updated response r db htype hr hmd5 hupdate
  · refine wp_if (fun _ => reads (handleQueryStatus_reads request)) fun _ =>
      wp_if (fun _ => plain (handleAddFriend_uses request)) fun _ =>
      wp_if (fun _ => plain (handleDeleteFriend_uses request)) fun _ =>
      wp_if (fun _ => reads (handleFriendList_reads request)) fun _ =>
      wp_if (fun _ => reads (queryTarget_reads request _)) fun _ =>
      wp_if (fun _ => reads (queryTarget_reads request _)) fun _ =>
      wp_if (fun _ => wp_handleSendMessage request) fun _ =>
      wp_if (fun _ => reads (handleHistoryMessages_reads request)) fun _ => ?_
    exact reads (uses_ite trivial trivial)

/-! ## The end of a session -/

/-- The flag of the user who was logged in went off, unless the statement failed. -/
def SignedOff (E : Env) (db db' : Database P) : Option (Option Str) → Prop
  | some (some u) => db' = db.setOnlineWhere (fun r => P.weight r.username = P.weight u) false ∨
      (E.dbFails ∧ db' = db)
  | _ => db' = db

/-- The session of a descriptor is gone, and its user is signed off. -/
structure Removed (E : Env) (c : Socket) (w w' : World P) : Prop where
  db : SignedOff E w.db w'.db (w.sessions.logins.login c)
  logins : w'.sessions.logins = w.sessions.logins.drop c
  getSession : ∀ d, w'.sessions.getSession d = if d = c then none else w.sessions.getSession d
  trace : w.trace <+: w'.trace

/-- Signing off changes flags. -/
theorem SignedOff.mapUsers {db db' : Database P} {login : Option (Option Str)}
    (h : SignedOff E db db' login) : ∃ f hid hname, db' = db.mapUsers f hid hname ∧
      ∀ r, (f r).passwordHash = r.passwordHash := by
  have hsame : db = db.mapUsers id (fun _ => rfl) (fun _ => rfl) := by
    unfold Database.mapUsers
    simp only [List.map_id]
  unfold SignedOff at h
  split at h
  · rcases h with h | ⟨-, h⟩
    · exact ⟨_, _, _, h, fun r => by split <;> rfl⟩
    · exact ⟨id, _, _, h.trans hsame, fun _ => rfl⟩
  · exact ⟨id, _, _, h.trans hsame, fun _ => rfl⟩

theorem SignedOff.idOf {db db' : Database P} {login : Option (Option Str)}
    (h : SignedOff E db db' login) (u : Str) : db'.idOf u = db.idOf u := by
  obtain ⟨f, hid, hname, rfl, _⟩ := h.mapUsers
  exact Database.idOf_mapUsers u

/-- If the session was not there, there is nothing to do. -/
theorem Removed.of_none {c : Socket} (h : w.sessions.getSession c = none) (hdb : w'.db = w.db)
    (hs : w'.sessions = w.sessions) (ht : w.trace <+: w'.trace) : Removed E c w w' := by
  have hc : w.sessions.logins.login c = none := SessionManager.login_eq_none.mpr h
  refine ⟨?_, ?_, fun d => ?_, ht⟩
  · rw [hc]
    exact hdb
  · rw [hs, Logins.drop_of_none hc]
  · rw [hs]
    by_cases hd : d = c
    · rw [if_pos hd, hd, h]
    · rw [if_neg hd]

/-- The part of `Removed` that is done before `RemoveSession`. -/
structure SigningOff (E : Env) (c : Socket) (w w' : World P) : Prop where
  db : SignedOff E w.db w'.db (w.sessions.logins.login c)
  sessions : w'.sessions = w.sessions
  openSockets : w'.openSockets = w.openSockets
  trace : w.trace <+: w'.trace

theorem SigningOff.removed {c : Socket} (h : SigningOff E c w w') (hdb : w''.db = w'.db)
    (hs : w''.sessions = w'.sessions.removeSession c) (ht : w'.trace <+: w''.trace) :
    Removed E c w w'' := by
  refine ⟨?_, ?_, fun d => ?_, h.trace.trans ht⟩
  · rw [hdb]
    exact h.db
  · rw [hs, h.sessions]
    exact SessionManager.logins_removeSession _ c
  · rw [hs, h.sessions]
    exact SessionManager.getSession_removeSession _ c d

theorem SigningOff.of_nobody {c : Socket} {s : ClientSession}
    (hl : w.sessions.loginAt c = some s.username) (hu : s.username = []) : SigningOff E c w w := by
  refine ⟨?_, rfl, rfl, List.prefix_rfl⟩
  have hlogin : w.sessions.logins.login c = some none :=
    SessionManager.login_eq_nobody.mpr (hu ▸ hl)
  rw [hlogin]
  exact rfl

/-- Signing a user off: the flag, then anything that only talks. -/
theorem wp_signingOff {c : Socket} {s : ClientSession} {Q : Bool → World P → Prop}
    (hl : w.sessions.loginAt c = some s.username) (hu : s.username ≠ [])
    (h : ∀ ok w', SigningOff E c w w' → Q ok w') :
    wp E (UserManager.updateUserOnlineStatus s.username false) Q w := by
  have hlogin : w.sessions.logins.login c = some (some s.username) :=
    SessionManager.at_iff.mpr ⟨hl, hu⟩
  refine (wp_updateOnlineStatusByUsername).mpr ⟨fun hf => h _ _ ?_, h _ _ ?_⟩
  · refine ⟨?_, rfl, rfl, List.prefix_rfl⟩
    rw [hlogin]
    exact .inr ⟨hf, rfl⟩
  · refine ⟨?_, rfl, rfl, List.prefix_rfl⟩
    rw [hlogin]
    exact .inl rfl

theorem SigningOff.talks {c : Socket} (h : SigningOff E c w w') (ht : Talks w' w'') :
    SigningOff E c w w'' := by
  obtain ⟨said, rfl⟩ := ht
  exact ⟨h.db, h.sessions, h.openSockets, h.trace.trans (List.prefix_append _ _)⟩

theorem wp_farewell {c : Socket} {p : SessionPtr} {s : ClientSession}
    (hs : w.sessions.heap.lookup p = some s) (hl : w.sessions.loginAt c = some s.username)
    (hu : s.username ≠ []) {Q : Unit → World P → Prop} (h : ∀ w', SigningOff E c w w' → Q () w') :
    wp E (Server.farewell p) Q w := by
  unfold Server.farewell
  simp only [wp_bind, wp_getUsername hs]
  apply wp_signingOff hl hu
  intro ok w₁ h₁
  have hs₁ : w₁.sessions.heap.lookup p = some s := by
    rw [h₁.sessions]
    exact hs
  simp only [wp_getUsername hs₁]
  apply wp_notify
  intro w₂ h₂
  have hs₂ : w₂.sessions.heap.lookup p = some s := by
    rw [h₂.sessions]
    exact hs₁
  simp only [wp_getUsername hs₂]
  refine (wp_cacheErase).mpr (h _ ?_)
  obtain ⟨hdb, hsessions, hopen, htrace⟩ := h₁.talks h₂
  exact ⟨hdb, hsessions, hopen, htrace⟩

theorem wp_endConnection {c : Socket} {Q : Unit → World P → Prop}
    (h : ∀ w', Removed E c w w' → w'.openSockets = w.openSockets.filter (· ≠ c) → Q () w') :
    wp E (Server.endConnection c) Q w := by
  unfold Server.endConnection
  simp only [wp_bind, wp_getSession]
  cases hp : w.sessions.getSession c with
  | none => exact (wp_close).mpr (h _ (.of_none hp rfl rfl (List.prefix_append _ _)) rfl)
  | some p =>
    obtain ⟨s, hs, _, hl⟩ := SessionManager.heap_of_getSession hp
    have rest : ∀ w₁, SigningOff E c w w₁ → wp E (do
        removeSession c
        addConnections (-1)
        close c) Q w₁ := by
      intro w₁ h₁
      simp only [wp_bind, wp_removeSession, wp_addConnections, wp_close]
      refine h _ (h₁.removed rfl rfl (List.prefix_append _ _)) ?_
      rw [← h₁.openSockets]
    simp only [wp_bind, wp_getUsername hs]
    refine wp_if (fun hu => ?_) fun hu => ?_
    · rw [wp_bind]
      exact wp_farewell hs hl hu rest
    · exact rest w (.of_nobody hl (by simpa using hu))

/-- The exception exit: the descriptor is closed first, and then the flag, the session and the counter
go, if the descriptor has a session. -/
theorem wp_failConnection {c : Socket} {Q : Unit → World P → Prop}
    (h : ∀ w', Removed E c w w' → w'.openSockets = w.openSockets.filter (· ≠ c) → Q () w') :
    wp E (Server.failConnection c) Q w := by
  unfold Server.failConnection
  simp only [wp_bind, wp_close, wp_getSession]
  cases hp : w.sessions.getSession c with
  | none =>
    have hp' : (w.observe (.close c)).sessions.getSession c = none := hp
    rw [hp']
    exact h _ (.of_none hp rfl rfl (List.prefix_append _ _)) rfl
  | some p =>
    have hp' : (w.observe (.close c)).sessions.getSession c = some p := hp
    rw [hp']
    obtain ⟨s, hs, _, hl⟩ := SessionManager.heap_of_getSession hp
    -- what is left to do once the flag is dealt with
    have rest : ∀ w₁, SigningOff E c
        { w.observe (.close c) with openSockets := w.openSockets.filter (· ≠ c) } w₁ →
        wp E (do
          removeSession c
          addConnections (-1)) Q w₁ := by
      intro w₁ h₁
      simp only [wp_bind, wp_removeSession, wp_addConnections]
      obtain ⟨hdb, hlogins, hsession, htrace⟩ :
          Removed E c { w.observe (.close c) with openSockets := w.openSockets.filter (· ≠ c) }
            { w₁ with
              sessions := w₁.sessions.removeSession c
              currentConnections := w₁.currentConnections + -1 } :=
        h₁.removed rfl rfl List.prefix_rfl
      exact h _ ⟨hdb, hlogins, hsession, (List.prefix_append _ _).trans htrace⟩ h₁.openSockets
    simp only [wp_bind]
    refine (wp_getUsername (by exact hs)).mpr (wp_if (fun hu => ?_) fun hu => ?_)
    · rw [wp_bind]
      refine (wp_getUsername (by exact hs)).mpr ?_
      rw [wp_bind]
      exact wp_signingOff (by exact hl) hu fun _ w₁ h₁ => rest w₁ h₁
    · exact rest _ (.of_nobody (by exact hl) (by simpa using hu))

/-! ## The heartbeat scan -/

/-- Nothing was heard of the client for more than 10 minutes. -/
def ClientSession.idle (t : Nat) (s : ClientSession) : Bool := 600 < t - s.lastHeartbeat

/-- What the scan asks of a session. -/
def ClientSession.expires (t : Nat) (s : ClientSession) : Bool :=
  s.isConnected && (s.username ≠ []) && s.idle t

/-- The descriptors whose session is like that. -/
def SessionManager.those (m : SessionManager) (f : ClientSession → Bool) : List Socket :=
  m.cliSessionMap.keys.filter fun c => (m.session c).any f

theorem wp_expire {c : Socket} {p : SessionPtr} {s : ClientSession}
    (hs : w.sessions.heap.lookup p = some s) (hl : w.sessions.loginAt c = some s.username)
    (hu : s.username ≠ []) {Q : Unit → World P → Prop}
    (h : ∀ w', Removed E c w w' → w'.openSockets = w.openSockets → Q () w') :
    wp E (Server.expire c p) Q w := by
  unfold Server.expire
  rw [wp_bind]
  apply wp_farewell hs hl hu
  intro w₁ h₁
  simp only [wp_bind, wp_shutdown, wp_removeSession, wp_addConnections]
  exact h _ (h₁.removed rfl rfl (List.prefix_append _ _)) h₁.openSockets

/-- Of the sessions, this one goes. -/
theorem wp_expire_sessions {c : Socket} {p : SessionPtr} {s : ClientSession}
    (hs : w.sessions.heap.lookup p = some s) (hl : w.sessions.loginAt c = some s.username)
    (hu : s.username ≠ []) :
    wp E (Server.expire c p) (fun _ w' => w'.sessions = w.sessions.removeSession c) w := by
  unfold Server.expire
  rw [wp_bind]
  apply wp_farewell hs hl hu
  intro w₁ h₁
  simp only [wp_bind, wp_shutdown, wp_removeSession, wp_addConnections]
  exact congrArg (·.removeSession c) h₁.sessions

section Scan

variable {Inv : World P → Prop} {Q : List Socket → World P → World P → Prop}

/-- What a scan has to keep for each connection that it ends: `Inv` goes on, and `Q` says what became of
those that were ended, the first one first. -/
def ExpiresEach (E : Env) (Inv : World P → Prop) (Q : List Socket → World P → World P → Prop) : Prop :=
  ∀ (c : Socket) (p : SessionPtr) (s : ClientSession) (w : World P), Inv w →
    w.sessions.heap.lookup p = some s → w.sessions.loginAt c = some s.username → s.username ≠ [] →
    wp E (Server.expire c p) (fun _ w₁ => Inv w₁ ∧
      ∀ removed w', c ∉ removed → Q removed w₁ w' → Q (c :: removed) w w') w

/-- **The loop of a scan**: it ends the connections that it asks for. -/
theorem wp_heartbeatCheckEach (done : ∀ w, Inv w → Q [] w w) (expired : ExpiresEach E Inv Q) (t : Nat)
    (sessions : List (Socket × SessionPtr)) (hw : Inv w)
    (hlive : ∀ e ∈ sessions, w.sessions.getSession e.1 = some e.2)
    (hnodup : (sessions.map Prod.fst).Nodup) :
    wp E (Server.heartbeatCheckEach t sessions) (fun _ w' => Q ((sessions.map Prod.fst).filter
      fun c => (w.sessions.session c).any (·.expires t)) w w') w := by
  -- the list is a snapshot, so what is said of its connections has to survive each removal
  induction sessions generalizing w with
  | nil => exact done w hw
  | cons e sessions ih =>
    obtain ⟨c, p⟩ := e
    have hp := hlive (c, p) List.mem_cons_self
    obtain ⟨s, hs, -, hl⟩ := SessionManager.heap_of_getSession hp
    have hsession : w.sessions.session c = some s := by
      show (w.sessions.getSession c).bind w.sessions.heap.lookup = some s
      rw [hp]
      exact hs
    obtain ⟨hc, hnodup⟩ := List.nodup_cons.mp hnodup
    have next : s.expires t = false → wp E (Server.heartbeatCheckEach t sessions) (fun _ w' =>
        Q ((((c, p) :: sessions).map Prod.fst).filter
          fun c => (w.sessions.session c).any (·.expires t)) w w') w := by
      intro hstays
      rw [List.map_cons, List.filter_cons_of_neg (by simp [hsession, hstays])]
      exact ih hw (fun e he => hlive e (List.mem_cons_of_mem _ he)) hnodup
    unfold Server.heartbeatCheckEach
    simp only [wp_bind, wp_getIsConnected hs]
    refine wp_if (fun hconnected => ?_) fun hgone => next (by simp [ClientSession.expires, hgone])
    simp only [wp_bind, wp_getUsername hs]
    refine wp_if (fun hu => ?_) fun hu =>
      next (by simp [ClientSession.expires, not_not.mp hu])
    simp only [wp_bind, wp_getLastHeartbeat hs]
    refine wp_if (fun hidle => ?_) fun hidle =>
      next (by simpa [ClientSession.expires, ClientSession.idle] using fun _ _ => hidle)
    have hexpires : s.expires t = true := by
      simp [ClientSession.expires, ClientSession.idle, hconnected, hu, hidle]
    rw [wp_bind, List.map_cons, List.filter_cons_of_pos (by simp [hsession, hexpires])]
    refine wp_mono (wp_and (expired c p s w hw hs hl hu) (wp_expire_sessions hs hl hu))
      fun _ w₁ h₁ => ?_
    obtain ⟨⟨hw₁, hQ⟩, hsessions⟩ := h₁
    -- the descriptors of a snapshot are different, so the others keep their sessions
    have hother : ∀ d ∈ sessions.map Prod.fst, d ≠ c := fun d hd hdc => hc (hdc ▸ hd)
    have hlive₁ : ∀ e ∈ sessions, w₁.sessions.getSession e.1 = some e.2 := by
      intro e he
      rw [hsessions, SessionManager.getSession_removeSession,
        if_neg (hother _ (List.mem_map_of_mem he))]
      exact hlive e (List.mem_cons_of_mem _ he)
    have hfilter : (sessions.map Prod.fst).filter
          (fun d => (w₁.sessions.session d).any (·.expires t)) =
        (sessions.map Prod.fst).filter fun d => (w.sessions.session d).any (·.expires t) := by
      refine List.filter_congr fun d hd => ?_
      rw [hsessions, SessionManager.session_removeSession, if_neg (hother d hd)]
    refine wp_mono (ih hw₁ hlive₁ hnodup) fun _ w' h' => ?_
    rw [hfilter] at h'
    exact hQ _ w' (fun hmem => hc (List.mem_of_mem_filter hmem)) h'

/-- **A scan** ends the connections that it asks for, in an order that the map chooses. -/
theorem wp_heartbeatCheck_each {A : Choice → Prop} (hA : ∀ ch, A ch → E.Ok ch)
    (done : ∀ w, Inv w → Q [] w w) (expired : ExpiresEach E Inv Q) (hw : Inv w) :
    Effect.Prog.wp World.handle A Server.heartbeatCheck (fun _ w' => ∃ ch removed, A ch ∧
      removed.Perm (w.sessions.those (·.expires ch.now)) ∧ Q removed w w') w := by
  intro ch _ ch' hch'
  have hperm := Effect.arrange_perm ch.rank
    (w.sessions.cliSessionMap.entries.map fun e => (e.1, e.2))
  have hkeys : ((Effect.arrange ch.rank (w.sessions.cliSessionMap.entries.map
      fun e => (e.1, e.2))).map Prod.fst).Perm w.sessions.cliSessionMap.keys := by
    refine (hperm.map Prod.fst).trans (List.Perm.of_eq ?_)
    rw [List.map_map]
    rfl
  refine Effect.Prog.wp_restrict hA (wp_mono (wp_heartbeatCheckEach done expired ch'.now _ hw
    (fun e he => ?_) ?_) fun _ w' h => ⟨ch', _, hch', hkeys.filter _, h⟩)
  · obtain ⟨e', he', rfl⟩ := List.mem_map.mp (hperm.mem_iff.mp he)
    exact AList.mem_lookup_iff.mpr he'
  · exact hkeys.nodup_iff.mpr w.sessions.cliSessionMap.nodupKeys

end Scan

/-- A scan removes sessions of logged-in users, one after the other. -/
inductive Scanned (E : Env) : World P → World P → Prop
  | done (w : World P) : Scanned E w w
  | expired (c : Socket) (u : Str) (w w₁ w' : World P) (hat : w.sessions.logins.At c u)
      (hremoved : Removed E c w w₁) (hopen : w₁.openSockets = w.openSockets)
      (hrest : Scanned E w₁ w') : Scanned E w w'

theorem wp_heartbeatCheck {Q : Unit → World P → Prop} (h : ∀ w', Scanned E w w' → Q () w') :
    wp E Server.heartbeatCheck Q w := by
  have hexpired : ExpiresEach E (fun _ : World P => True) fun _ => Scanned E := by
    intro c p s w _ hs hl hu
    apply wp_expire hs hl hu
    intro w₁ h₁ hopen
    exact ⟨trivial, fun _ w' _ => .expired c s.username w w₁ w' (SessionManager.at_iff.mpr ⟨hl, hu⟩)
      h₁ hopen⟩
  refine wp_mono (wp_heartbeatCheck_each (fun _ h => h) (fun w _ => .done w) hexpired trivial) ?_
  rintro _ w' ⟨-, -, -, -, hscanned⟩
  exact h w' hscanned

/-! ## Accepting -/

theorem wp_acceptConnection {c : Socket} {Q : Unit → World P → Prop}
    (turnedAway : ∀ w', w'.db = w.db → w'.sessions = w.sessions →
      w'.openSockets = (c :: w.openSockets).filter (· ≠ c) → w.trace <+: w'.trace → Q () w')
    (accepted : ∀ now w', w'.db = w.db → w'.sessions = w.sessions.addSession ⟨c, [], now, true⟩ →
      w'.openSockets = c :: w.openSockets → w'.trace = w.trace → Q () w') :
    wp E (Server.acceptConnection c) Q w := by
  unfold Server.acceptConnection
  simp only [wp_bind, wp_accept, wp_loadConnections]
  refine wp_if (fun _ => ?_) fun _ => ?_
  · rw [wp_bind]
    refine wp_say fun _ w₁ h₁ => ?_
    obtain ⟨said, rfl⟩ := h₁
    refine (wp_close).mpr (turnedAway _ rfl rfl rfl ?_)
    exact (List.prefix_append _ _).trans (List.prefix_append _ _)
  · simp only [wp_bind, wp_addSession, wp_addConnections]
    exact fun now => accepted now _ rfl rfl rfl rfl

/-! ## Events -/

/-- What an event comes to. -/
inductive Happens (E : Env) (w : World P) :
    Server.Event → Option (Request × Response) → World P → Prop
  | disabled (e : Server.Event) (he : ¬ e.Enabled P w) : Happens E w e none w
  | turnedAway (c : Socket) (w' : World P) (hc : c ∉ w.openSockets) (hdb : w'.db = w.db)
      (hsessions : w'.sessions = w.sessions) (hopen : w'.openSockets = w.openSockets)
      (htrace : w.trace <+: w'.trace) : Happens E w (.accept c) none w'
  | accepted (c : Socket) (w' : World P) (hc : c ∉ w.openSockets) (hdb : w'.db = w.db)
      (hlogins : w'.sessions.logins = w.sessions.logins.connect c)
      (hopen : w'.openSockets = c :: w.openSockets) (htrace : w'.trace = w.trace) :
      Happens E w (.accept c) none w'
  | malformed (c : Socket) (w' : World P) (hquiet : Quiet w w') :
      Happens E w (.request c none) none w'
  | thrown (c : Socket) (root : Json) (garbage : Int) (e : JsonException) (w₁ w' : World P)
      (herror : Server.requestOf w.sessions.logins c garbage root = .error e) (hquiet : Quiet w w₁)
      (hremoved : Removed E c w₁ w') (hopen : w'.openSockets = w₁.openSockets.filter (· ≠ c)) :
      Happens E w (.request c (some root)) none w'
  | served (c : Socket) (root : Json) (garbage : Int) (request : Request) (response : Response)
      (w₁ w₂ w' : World P) (hc : c ∈ w.openSockets)
      (hrequest : Server.requestOf w.sessions.logins c garbage root = .ok request)
      (hquiet : Quiet w w₁) (hserves : Serves E request w₁ response w₂) (hrest : Quiet w₂ w') :
      Happens E w (.request c (some root)) (some (request, response)) w'
  | hungUp (c : Socket) (w' : World P) (hremoved : Removed E c w w')
      (hopen : w'.openSockets = w.openSockets.filter (· ≠ c)) : Happens E w (.hangup c) none w'
  | scanned (w' : World P) (hscan : Scanned E w w') : Happens E w .heartbeatScan none w'

theorem filter_ne_of_notMem {l : List Socket} {c : Socket} (h : c ∉ l) :
    (c :: l).filter (· ≠ c) = l := by
  have hl : l.filter (· ≠ c) = l := List.filter_eq_self.mpr fun d hd => by
    simpa using fun hdc : d = c => h (hdc ▸ hd)
  rw [List.filter_cons_of_neg (by simp), hl]

/-- **Every event goes in one of these ways**, whatever fails: the code that an event runs, from any
state in which it can happen, ends in a state that `Happens` describes. -/
theorem wp_event {e : Server.Event} (he : e.Enabled P w) :
    wp E (e.action P) (Happens E w e) w := by
  cases e with
  | accept c =>
    have hc : c ∉ w.openSockets := he
    refine (wp_bind _ _).mpr (wp_acceptConnection ?_ ?_)
    · intro w' hdb hsessions hopen htrace
      exact .turnedAway c w' hc hdb hsessions (hopen.trans (filter_ne_of_notMem hc)) htrace
    · intro now w' hdb hsessions hopen htrace
      refine .accepted c w' hc hdb ?_ hopen htrace
      rw [hsessions]
      exact SessionManager.logins_addSession _ c now
  | request c parsed =>
    show wp E (Server.handleData P c parsed) _ w
    unfold Server.handleData
    rw [wp_bind]
    apply Server.wp_dispatchRequest
    · rintro rfl w' hquiet
      exact .malformed c w' hquiet
    · -- a field of a wrong type: the exception leaves `DispatchRequest`, and the connection ends
      rintro e root garbage w₁ rfl herror hquiet
      dsimp only
      rw [wp_bind]
      exact wp_failConnection fun w' hremoved hopen =>
        .thrown c root garbage e w₁ w' herror hquiet hremoved hopen
    · rintro root garbage request w₁ rfl hrequest hquiet
      refine wp_mono (wp_serve request) fun response w₂ hserves w₃ hrest => ?_
      exact .served c root garbage request response w₁ w₂ w₃ he hrequest hquiet hserves
        (.of_talks hrest)
  | hangup c =>
    exact (wp_bind _ _).mpr (wp_endConnection fun w' hremoved hopen => .hungUp c w' hremoved hopen)
  | heartbeatScan =>
    exact (wp_bind _ _).mpr (wp_heartbeatCheck fun w' hscan => .scanned w' hscan)

/-- **Every step of the server is one of these.** -/
theorem step_happens (E : Env) (w : World P) (e : Server.Event) (cs : List Choice)
    (hcs : ∀ ch ∈ cs, E.Ok ch) :
    Happens E w e (Server.step w e cs).1 (Server.step w e cs).2 := by
  unfold Server.step
  by_cases he : e.Enabled P w
  · rw [if_pos he]
    exact run_of_wp (wp_event he) cs hcs
  · rw [if_neg he]
    exact .disabled e he

end LiteChat
