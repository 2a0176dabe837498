import LiteChat.Proof.Events

/-!
# Routes lead to sessions

Two facts about every state that the rest of the proofs about sessions start from: a route leads to
a connection where its name is logged in, and only open descriptors have sessions. The first is what
makes "the session of the receiver" mean something; the second is why a descriptor that `accept`
returns has no session yet.

One kind of step has to be excluded. The heartbeat scan removes a session but leaves its descriptor
to the thread that reads from it, and that thread may still serve a request it has received. If
that request is a login, the kick happens and the entry does not: the old session loses its name and
keeps the route (`SessionlessLogin`). Without scans there is no such step: every open descriptor has
its session (`Attached`).
-/

namespace LiteChat

open LiteChat.Action Spec Server

variable {P : Platform} {E : Env} {w w' w'' : World P}

/-- The event is a login for the row `r` that passes every check. -/
def LoginFor (w : World P) (request : Request) (r : UserRow) : Event → Prop
  | .request c (some root) => ∃ garbage,
      requestOf w.sessions.logins c garbage root = .ok request ∧
      request.type = bytes "LOGIN" ∧ Accepts w.db request r
  | _ => False

/-- A login on a connection that has lost its session. -/
def SessionlessLogin (w : World P) (e : Event) : Prop :=
  ∃ request r, LoginFor w request r e ∧ w.sessions.getSession request.clientSocket = none

structure SoundRouting (w : World P) : Prop where
  sound : w.sessions.logins.Sound
  isOpen : ∀ c, w.sessions.logins.login c ≠ none → c ∈ w.openSockets

theorem SoundRouting.start (db : Database P) : SoundRouting (World.start db) :=
  ⟨Logins.Sound.empty, fun _ h => absurd rfl h⟩

/-- Whoever may log in on a connection that has a session: the user who is there, or anybody if
nobody is. -/
theorem free_of_requestOf {L : Logins Socket Str} {c : Socket} {garbage : Int} {root : Json}
    {request : Request} (h : requestOf L c garbage root = .ok request) (hc : L.login c ≠ none) :
    L.Free c request.username := by
  rw [requestOf_eq] at h
  split at h
  · cases h
  split at h
  · cases h
  · rw [← Except.ok.inj h]
    unfold identified
    obtain ⟨name, hname⟩ := Option.ne_none_iff_exists'.mp hc
    cases name with
    | none => exact .inl hname
    | some u =>
      rw [hname]
      exact .inr hname

theorem SoundRouting.congr (h : SoundRouting w)
    (hlogins : w'.sessions.logins = w.sessions.logins) (hopen : w'.openSockets = w.openSockets) :
    SoundRouting w' :=
  ⟨hlogins ▸ h.sound, fun c hc => hopen ▸ h.isOpen c (hlogins ▸ hc)⟩

theorem SoundRouting.removed {c : Socket} (h : SoundRouting w) (hr : Removed E c w w')
    (hopen : ∀ d ∈ w.openSockets, d ≠ c → d ∈ w'.openSockets) : SoundRouting w' := by
  constructor
  · rw [hr.logins]
    exact h.sound.drop c
  · intro d hd
    rw [hr.logins] at hd
    unfold Logins.drop at hd
    dsimp only at hd
    by_cases hdc : d = c
    · rw [if_pos hdc] at hd
      exact absurd rfl hd
    · rw [if_neg hdc] at hd
      exact hopen d (h.isOpen d hd) hdc

theorem SoundRouting.scanned (h : SoundRouting w) (hscan : Scanned E w w') :
    SoundRouting w' ∧ w'.openSockets = w.openSockets := by
  induction hscan with
  | done w => exact ⟨h, rfl⟩
  | expired c u w w₁ w' hat hremoved hopen hrest ih =>
    have h₁ := h.removed hremoved fun d hd _ => hopen ▸ hd
    exact ⟨(ih h₁).1, (ih h₁).2.trans hopen⟩

theorem SoundRouting.loggedIn {c : Socket} {u : Str} {i : UserId} {kicks : Bool}
    (h : SoundRouting w) (hlogin : LoggedIn E c u i kicks w w')
    (hfree : w.sessions.logins.Free c u) : SoundRouting w' := by
  constructor
  · rw [hlogin.logins]
    exact h.sound.signIn hfree kicks
  · intro d hd
    rw [hlogin.logins, Ne, Logins.login_signIn_eq_none] at hd
    exact hlogin.openSockets ▸ h.isOpen d hd

theorem SoundRouting.connected {c : Socket} (h : SoundRouting w) (hc : c ∉ w.openSockets)
    (hlogins : w'.sessions.logins = w.sessions.logins.connect c)
    (hopen : w'.openSockets = c :: w.openSockets) : SoundRouting w' := by
  have hnone : w.sessions.logins.login c = none := by
    by_contra hne
    exact hc (h.isOpen c hne)
  constructor
  · rw [hlogins]
    exact h.sound.connect hnone
  · intro d hd
    rw [hopen]
    by_cases hdc : d = c
    · exact hdc ▸ List.mem_cons_self
    · refine List.mem_cons_of_mem c (h.isOpen d ?_)
      rw [hlogins] at hd
      unfold Logins.connect at hd
      dsimp only at hd
      rwa [if_neg hdc] at hd

theorem mem_filter_ne {l : List Socket} {c d : Socket} (hd : d ∈ l) (hdc : d ≠ c) :
    d ∈ l.filter (· ≠ c) :=
  List.mem_filter.mpr ⟨hd, by simpa using hdc⟩

/-- **Routes stay sound**, through every event but a login without a session, and such a login cannot
happen while every open connection has one. -/
theorem SoundRouting.next {e : Event} {served : Option (Request × Response)} (h : SoundRouting w)
    (happens : Happens E w e served w') (hcond : ¬ SessionlessLogin w e) : SoundRouting w' := by
  cases happens with
  | disabled => exact h
  | turnedAway c _ _ _ hsessions hopen => exact h.congr (by rw [hsessions]) hopen
  | accepted c _ hc _ hlogins hopen => exact h.connected hc hlogins hopen
  | malformed c _ hquiet => exact h.congr hquiet.logins hquiet.openSockets
  | thrown c root _ _ w₁ _ _ hquiet hremoved hopen =>
    have h₁ := h.congr hquiet.logins hquiet.openSockets
    exact h₁.removed hremoved fun d hd hdc => hopen ▸ mem_filter_ne hd hdc
  | hungUp c _ hremoved hopen =>
    exact h.removed hremoved fun d hd hdc => hopen ▸ mem_filter_ne hd hdc
  | scanned _ hscan => exact (h.scanned hscan).1
  | served c root garbage request response w₁ w₂ _ hc hrequest hquiet hserves hrest =>
    have h₁ := h.congr hquiet.logins hquiet.openSockets
    refine SoundRouting.congr (w := w₂) ?_ hrest.logins hrest.openSockets
    cases hserves with
    | refused => exact h₁
    | registered => exact h₁.congr rfl rfl
    | updated => exact h₁.congr rfl rfl
    | other _ _ _ hkeeps => exact h₁.congr (by rw [hkeeps.sessions]) hkeeps.openSockets
    | loggedIn r kicks w₃ _ htype haccepts hlogin hkeeps =>
      have hclient := requestOf_clientSocket hrequest
      have hsession : w.sessions.logins.login c ≠ none := by
        intro hnone
        refine hcond ⟨request, r, ⟨garbage, hrequest, htype, hquiet.db ▸ haccepts⟩, ?_⟩
        rw [hclient]
        exact SessionManager.login_eq_none.mp hnone
      refine SoundRouting.congr (w := w₃) ?_ (by rw [hkeeps.sessions]) hkeeps.openSockets
      refine h₁.loggedIn hlogin ?_
      rw [hclient, hquiet.logins]
      exact free_of_requestOf hrequest hsession

/-! ## Without scans -/

/-- Every connection has its session. -/
structure Attached (w : World P) : Prop extends SoundRouting w where
  hasSession : ∀ c ∈ w.openSockets, w.sessions.logins.login c ≠ none

theorem Attached.start (db : Database P) : Attached (World.start db) :=
  ⟨.start db, fun _ h => absurd h List.not_mem_nil⟩

theorem Attached.not_sessionlessLogin {e : Event} (h : Attached w) (he : e.Enabled P w) :
    ¬ SessionlessLogin w e := by
  rintro ⟨request, r, hfor, hnone⟩
  cases e with
  | request c parsed =>
    cases parsed with
    | none => exact hfor
    | some root =>
      obtain ⟨garbage, hrequest, _⟩ := hfor
      rw [requestOf_clientSocket hrequest] at hnone
      exact h.hasSession c he (SessionManager.login_eq_none.mpr hnone)
  | _ => exact hfor

theorem Attached.removed {c : Socket} (h : Attached w) (hr : Removed E c w w')
    (hopen : w'.openSockets = w.openSockets.filter (· ≠ c)) (hrouting : SoundRouting w') :
    Attached w' := by
  refine ⟨hrouting, fun d hd => ?_⟩
  rw [hopen, List.mem_filter] at hd
  rw [hr.logins]
  unfold Logins.drop
  dsimp only
  rw [if_neg (by simpa using hd.2)]
  exact h.hasSession d hd.1

theorem Attached.congr (h : Attached w) (hlogins : w'.sessions.logins = w.sessions.logins)
    (hopen : w'.openSockets = w.openSockets) : Attached w' :=
  ⟨h.toSoundRouting.congr hlogins hopen, fun c hc => hlogins ▸ h.hasSession c (hopen ▸ hc)⟩

/-- **Every connection keeps its session**, unless a scan takes it: the scan is the one event that
removes a session and leaves its descriptor open. -/
theorem Attached.next {e : Event} {served : Option (Request × Response)} (h : Attached w)
    (happens : Happens E w e served w') (hscan : e ≠ .heartbeatScan) : Attached w' := by
  have hrouting : e.Enabled P w → SoundRouting w' := fun he =>
    h.toSoundRouting.next happens (h.not_sessionlessLogin he)
  cases happens with
  | disabled => exact h
  | turnedAway c _ _ _ hsessions hopen => exact h.congr (by rw [hsessions]) hopen
  | accepted c _ hc _ hlogins hopen =>
    refine ⟨hrouting hc, fun d hd => ?_⟩
    rw [hlogins]
    unfold Logins.connect
    dsimp only
    by_cases hdc : d = c
    · rw [if_pos hdc]
      simp
    · rw [if_neg hdc]
      exact h.hasSession d ((List.mem_cons.mp (hopen ▸ hd)).resolve_left hdc)
  | malformed c _ hquiet => exact h.congr hquiet.logins hquiet.openSockets
  | thrown c root _ _ w₁ _ _ hquiet hremoved hopen =>
    have h₁ := h.congr hquiet.logins hquiet.openSockets
    refine h₁.removed hremoved hopen (h₁.toSoundRouting.removed hremoved fun d hd hdc => ?_)
    exact hopen ▸ mem_filter_ne hd hdc
  | hungUp c _ hremoved hopen =>
    refine h.removed hremoved hopen (h.toSoundRouting.removed hremoved fun d hd hdc => ?_)
    exact hopen ▸ mem_filter_ne hd hdc
  | scanned => exact absurd rfl hscan
  | served c root garbage request response w₁ w₂ _ hc hrequest hquiet hserves hrest =>
    have h₁ := h.congr hquiet.logins hquiet.openSockets
    refine ⟨hrouting hc, fun d hd => ?_⟩
    rw [hrest.logins]
    rw [hrest.openSockets] at hd
    cases hserves with
    | refused => exact h₁.hasSession d hd
    | registered => exact h₁.hasSession d hd
    | updated => exact h₁.hasSession d hd
    | other _ _ _ hkeeps =>
      rw [hkeeps.sessions]
      exact h₁.hasSession d (hkeeps.openSockets ▸ hd)
    | loggedIn r kicks w₃ _ _ _ hlogin hkeeps =>
      rw [hkeeps.sessions, hlogin.logins, Ne, Logins.login_signIn_eq_none]
      exact h₁.hasSession d (hlogin.openSockets ▸ hkeeps.openSockets ▸ hd)

/-! ## What a lookup by name finds -/

/-- The three ways to end a connection: the stream has ended, an exception has escaped, the
heartbeat of the user who is logged in there is overdue. -/
inductive Ends (w : World P) (c : Socket) : Action Unit → Prop
  | endOfStream : Ends w c (endConnection c)
  | exception : Ends w c (failConnection c)
  | overdue (p : SessionPtr) (hp : w.sessions.getSession c = some p)
      (hu : w.sessions.loginAt c ≠ some []) : Ends w c (expire c p)

/-- A route leads to a connection whose session has that name, so a lookup by name finds a live
session with it, and the end of one connection is not seen by the names of others. -/
structure RoutesSoundly (w : World P) : Prop where
  routed : ∀ u c, w.sessions.route u = some c →
    ∃ s, w.sessions.session c = some s ∧ s.username = u ∧ u ≠ []
  found : ∀ u p, w.sessions.getSessionByUsername u = some p →
    ∃ s, w.sessions.heap.lookup p = some s ∧ s.username = u ∧ u ≠ []
  others : ∀ c q, Ends w c q → ∀ u d, w.sessions.route u = some d → d ≠ c → ∀ cs : List Choice,
    (q.run cs w).2.sessions.getSessionByUsername u = w.sessions.getSessionByUsername u

theorem wp_ends {c : Socket} {q : Action Unit} (hq : Ends w c q) :
    wp E q (fun _ w' => Removed E c w w') w := by
  cases hq with
  | endOfStream => exact wp_endConnection fun _ hremoved _ => hremoved
  | exception => exact wp_failConnection fun _ hremoved _ => hremoved
  | overdue p hp hu =>
    obtain ⟨s, hs, _, hl⟩ := SessionManager.heap_of_getSession hp
    exact wp_expire hs hl (fun hnil => hu (hnil ▸ hl)) fun _ hremoved _ => hremoved

/-- A name that is routed to another connection is found as before. -/
theorem Removed.getSessionByUsername {c d : Socket} {u : Str} (h : Removed E c w w')
    (hroute : w.sessions.route u = some d) (hdc : d ≠ c) :
    w'.sessions.getSessionByUsername u = w.sessions.getSessionByUsername u := by
  have hroute' : w'.sessions.route u = some d := by
    show w'.sessions.logins.route u = some d
    rw [h.logins]
    unfold Logins.drop
    refine (if_neg fun hown => hdc ?_).trans hroute
    exact Option.some.inj (hroute.symm.trans hown.2)
  have hsession : w'.sessions.getSession d = w.sessions.getSession d := by
    rw [h.getSession, if_neg hdc]
  rw [SessionManager.getSessionByUsername_of_route hroute,
    SessionManager.getSessionByUsername_of_route hroute', hsession]

theorem SoundRouting.routesSoundly (h : SoundRouting w) : RoutesSoundly w := by
  have hat : ∀ u c, w.sessions.route u = some c →
      ∃ s, w.sessions.session c = some s ∧ s.username = u ∧ u ≠ [] := by
    intro u c hc
    obtain ⟨hlogin, hu⟩ := SessionManager.at_iff.mp (h.sound u c hc)
    obtain ⟨s, hs, hname⟩ := Option.map_eq_some_iff.mp hlogin
    exact ⟨s, hs, hname, hu⟩
  refine ⟨hat, fun u p hp => ?_, fun c q hq u d hroute hdc cs => ?_⟩
  · obtain ⟨c, hc, hptr⟩ := SessionManager.getSession_of_byUsername hp
    obtain ⟨s, hs, hname⟩ := hat u c hc
    refine ⟨s, ?_, hname⟩
    unfold SessionManager.session at hs
    unfold SessionManager.getSession at hptr
    rwa [hptr] at hs
  · have hremoved : Removed .any c w (q.run cs w).2 :=
      run_of_wp (wp_ends hq) cs fun ch _ => Env.ok_any ch
    exact hremoved.getSessionByUsername hroute hdc

/-- A connection whose session a scan has removed handles no further request. -/
def HandledWithSession (w : World P) : Event → Prop
  | .request c _ => c ∈ w.openSockets → w.sessions.getSession c ≠ none
  | _ => True

instance (w : World P) (e : Event) : Decidable (HandledWithSession w e) := by
  apply Event.casesOn (motive := fun e => Decidable (HandledWithSession w e)) e <;> intros <;>
    unfold HandledWithSession <;> infer_instance

/-- **Routing is sound** in every run: whatever the clients send, whatever fails and whenever
connections end, a name is routed to an open connection whose session is logged in under that name. The
one proviso is that each request is handled on a connection that has its session, which a scan may have
taken. -/
theorem routesSoundly_run (db : Database P) (es : List (Event × List Choice))
    (h : Effect.Meets next (fun w e => HandledWithSession w e.1) (World.start db) es) :
    RoutesSoundly (Effect.runAll next (World.start db) es) := by
  refine (Effect.runAll_inv (SoundRouting.start db) (fun w e hw hcond => ?_) h).routesSoundly
  have happens := step_happens .any w e.1 e.2 fun ch _ => Env.ok_any ch
  by_cases he : e.1.Enabled P w
  · refine hw.next happens ?_
    rintro ⟨request, r, hfor, hnone⟩
    obtain ⟨event, cs⟩ := e
    cases event with
    | request c parsed =>
      cases parsed with
      | none => exact hfor
      | some root =>
        obtain ⟨garbage, hrequest, _⟩ := hfor
        rw [requestOf_clientSocket hrequest] at hnone
        exact hcond he hnone
    | _ => exact hfor
  · show SoundRouting (step w e.1 e.2).2
    unfold step
    rw [if_neg he]
    exact hw

def aliceRegisters : List (Event × List Choice) :=
  [(.accept 1, []),
   (.request 1 (flatBody [("type", "REGISTER"), ("username", "alice"), ("password", "secret")]), [])]

def aliceLogsIn : Event × List Choice :=
  (.request 1 (flatBody [("type", "LOGIN"), ("username", "alice"), ("password", "secret")]), [])

/-- Alice has an account, and a connection that nobody is logged in on. -/
def aliceHere : World asciiCi := Effect.runAll next (World.start Database.empty) aliceRegisters

def aliceLogin (clientSocket : Socket) : Request where
  type := bytes "LOGIN"
  username := bytes "alice"
  password := bytes "secret"
  newUsername := []
  newPassword := []
  verifyPassword := []
  targetUsername := []
  content := []
  count := 0
  clientSocket := clientSocket

/-- Alice logs in on one connection and then on another, which kicks the first and is ended by a
scan. -/
def aliceOverdue : List (Event × List Choice) :=
  aliceRegisters ++ [aliceLogsIn, (.accept 2, []),
    (.request 2 (flatBody [("type", "LOGIN"), ("username", "alice"), ("password", "secret")]), []),
    (.heartbeatScan, List.replicate 8 { (default : Choice) with now := 601 }), (.hangup 2, [])]

theorem routesSoundly_overdue : RoutesSoundly (Effect.runAll next
    (World.start (Database.empty : Database asciiCi)) aliceOverdue) :=
  routesSoundly_run Database.empty aliceOverdue (by decide)

end LiteChat
