import LiteChat.Proof.Answers
import LiteChat.Proof.LoginChecks

/-!
# Whom a login kicks

The session that a login kicks is the one that the name is routed to, if the user's flag is set. Of
what else a login says nothing is a kick and nothing ends a connection (`Gentle`), so what is said
to the kicked session is all that can go wrong: it may be the session of the login itself, or one
that is no longer logged in as the user.
-/

namespace LiteChat

open LiteChat.Action Server UserManager Spec

variable {P : Platform} {E : Env} {w w' w'' : World P}

/-! ## What a login says -/

/-- No kick, and nothing that ends a connection. -/
def Gentle : Obs → Prop
  | .sent _ _ frame _ => frame.type? ≠ some (bytes "KICKED")
  | .shutdown _ | .close _ => False

/-- Something said to the session that the name is routed to. -/
def ToRouted (w : World P) (u : Str) : Obs → Prop
  | .sent d _ _ _ | .shutdown d => RoutedHere w d u
  | .close _ => False

/-- What a login says: a kick goes to the session that the name is routed to. -/
def LoginSays (w : World P) (u : Str) (isOnline : Bool) (o : Obs) : Prop :=
  Gentle o ∨ (isOnline = true ∧ ToRouted w u o)

theorem Says.mono {S T : Obs → Prop} (h : Says S w w') (hST : ∀ o, S o → T o) : Says T w w' := by
  obtain ⟨said, hsaid, hS⟩ := h
  exact ⟨said, hsaid, fun o ho => hST o (hS o ho)⟩

theorem Op.Says.mono {S T : Obs → Prop} (hST : ∀ o, S o → T o) {o : Op} (ho : o.Says S) :
    o.Says T := by
  cases o with
  | sendData c frame => exact fun account ok => hST _ (ho account ok)
  | shutdown c | close c => exact hST _ ho
  | _ => trivial

theorem says_notify {S : Obs → Prop} {u : Str} {status : UserStatus}
    (hframe : ∀ c account ok, S (.sent c account (statusNotify u status) ok)) :
    (notifyFriendsStatusChange u status).Uses (Op.Says S) :=
  notify_uses (fun _ _ => trivial) (fun _ => trivial) (fun _ => trivial) hframe

theorem says_forwardMessage {S : Obs → Prop} {u content sendTime : Str}
    (hframe : ∀ c account ok, S (.sent c account (MessageManager.forwardMsg u content sendTime) ok))
    (i j : UserId) (v : Str) :
    (MessageManager.forwardMessage i u j v content sendTime).Uses (Op.Says S) := by
  refine .bind (uses_op trivial) fun q => ?_
  cases q with
  | none => trivial
  | some q =>
    refine .bind (uses_op trivial) fun c => .bind (uses_op (hframe c)) fun sent => ?_
    cases (sent : Bool) with
    | false => trivial
    | true => exact .bind (uses_caught (by trivial) _ _) fun _ => trivial

theorem pushEach_gentle (c : Socket) (messages : List Message) :
    (MessageManager.pushEach c messages).Uses (Op.Says Gentle) := by
  induction messages with
  | nil => trivial
  | cons msg messages ih =>
    refine .bind (says_forwardMessage (fun _ _ _ => ?_) _ _ _) fun _ =>
      .bind (.bind (uses_op fun _ _ => ?_) fun _ => trivial) fun _ => ih
    · exact Option.some_injective _ |>.ne (by decide)
    · exact Option.some_injective _ |>.ne (by decide)

theorem pushOfflineMessages_gentle (u : Str) :
    (MessageManager.pushOfflineMessages u).Uses (Op.Says Gentle) := by
  refine .bind (uses_caught (by trivial) _ _) fun r => ?_
  cases r with
  | none => trivial
  | some i =>
    refine .bind (uses_caught (by trivial) _ _) fun r => ?_
    cases r with
    | none => trivial
    | some messages =>
      refine uses_ite trivial (.bind (uses_op trivial) fun q => ?_)
      cases q with
      | none => trivial
      | some q => exact .bind (uses_op trivial) fun c => pushEach_gentle c messages

theorem wp_kickOld_says {S : Obs → Prop} {u : Str} (hS : ∀ o, ToRouted w u o → S o) :
    wp E (kickOld u) (fun _ w' => Says S w w') w := by
  unfold kickOld
  simp only [wp_bind, wp_getSessionByUsername]
  cases hp : w.sessions.getSessionByUsername u with
  | none => exact .refl _ w
  | some p =>
    obtain ⟨s, hs, hroute, hsession, _⟩ := w.live_byUsername hp
    have hhere : RoutedHere w s.socket u := ⟨hroute, by rw [hsession]; simp⟩
    simp only [wp_bind, wp_getSocket hs]
    refine wp_mono (wp_speaks (S := S) (uses_op fun _ _ => hS _ hhere)) fun _ w' hw' => ?_
    refine wp_mono (wp_speaks (S := S) (uses_op trivial)) fun _ w'' hw'' => ?_
    exact wp_shutdown.mpr ((hw'.trans hw'').trans (.observe (hS _ hhere)))

theorem wp_says_leave {u : Str} {r : UserRow} (hr : w.db.byId r.userId = some r) :
    wp E (leave u r.userId) (fun _ w' => Says (LoginSays w u r.isOnline) w w') w := by
  unfold leave
  simp only [wp_bind, wp_getUserOnlineStatus, hr, Option.map_some, Option.getD_some]
  refine ⟨fun _ => wp_if (fun hne => absurd hne (by decide)) fun _ => .refl _ w, ?_⟩
  refine wp_if (fun hon => ?_) fun _ => .refl _ w
  simp only [wp_bind, wp_updateOnlineStatus]
  have hS : ∀ o, ToRouted w u o → LoginSays w u r.isOnline o := fun o ho => .inr ⟨hon, ho⟩
  exact ⟨fun _ => wp_kickOld_says hS, wp_kickOld_says hS⟩

/-- The rest of a login. -/
theorem login_gentle (d : Socket) (u : Str) (i : UserId) : (do
    enter d u i
    notifyFriendsStatusChange u .online
    return loginAccepted : Action Response).Uses (Op.Says Gentle) := by
  refine .bind (enter_speaks d u i) fun _ => .bind (says_notify fun _ _ _ => ?_) fun _ => trivial
  exact Option.some_injective _ |>.ne (by decide)

theorem welcome_gentle (u : Str) (response : Response) : (do
    if response.code = 0 then
      FriendManager.cacheFriendList u
      MessageManager.pushOfflineMessages u
    return response : Action Response).Uses (Op.Says Gentle) := by
  refine uses_ite (.bind (cacheFriendList_speaks u) fun _ => ?_) trivial
  exact .bind (pushOfflineMessages_gentle u) fun _ => trivial

/-- **All that an accepted login says**: what `leave` says to the session that is kicked, if the account
was online, and otherwise nothing that takes anything away from anybody. -/
theorem wp_serveLogin_says {request : Request} :
    wp E (serveLogin P request) (fun response w' => response.code = 0 → ∃ r,
      Accepts w.db request r ∧ Says (LoginSays w request.username r.isOnline) w w') w := by
  have refused : ∀ response : Response, response.code ≠ 0 → wp E (do
      if response.code = 0 then
        FriendManager.cacheFriendList request.username
        MessageManager.pushOfflineMessages request.username
      return response) (fun response w' => response.code = 0 → ∃ r,
        Accepts w.db request r ∧ Says (LoginSays w request.username r.isOnline) w w') w :=
    fun response hcode => wp_if (fun h => absurd h hcode) fun _ h => absurd h hcode
  unfold serveLogin
  rw [wp_bind]
  unfold handleLogin
  refine wp_if (fun _ => refused _ (by decide)) fun hname => ?_
  have hvalid : validateUsername request.username = true := by simpa using hname
  simp only [wp_bind, wp_getUserByUsername]
  refine ⟨fun _ => refused _ (by decide), ?_⟩
  cases hr : w.db.byName request.username with
  | none => exact refused _ (by decide)
  | some r =>
    refine wp_if (fun _ => refused _ (by decide)) fun hmd5 => ?_
    have haccepts : Accepts w.db request r := ⟨hvalid, hr, by simpa using hmd5⟩
    have hgentle : ∀ o, Gentle o → LoginSays w request.username r.isOnline o := fun _ => .inl
    rw [wp_bind]
    -- the kick comes first; notices, list and push only tell
    refine wp_mono (wp_says_leave (Database.byId_of_byName hr)) fun _ w₁ h₁ => ?_
    refine wp_mono (wp_speaks (login_gentle _ _ _)) fun response w₂ h₂ => ?_
    refine wp_mono (wp_speaks (welcome_gentle _ response)) fun _ w₃ h₃ _ => ⟨r, haccepts, ?_⟩
    exact h₁.trans ((h₂.trans h₃).mono hgentle)

/-! ## Only others -/

/-- An accepted login, with what it said: its own connection is neither kicked nor shut down, has the
account and is found under its name, and whoever was shut down was another connection, logged in as
the same user. -/
structure KicksOnlyOthers (c : Socket) (u : Str) (w : World P) (said : List Obs) (w' : World P) :
    Prop where
  notShutDown : .shutdown c ∉ said
  notKicked : ∀ account frame ok, .sent c account frame ok ∈ said →
    frame.type? ≠ some (bytes "KICKED")
  loginAt : w'.sessions.loginAt c = some u
  route : w'.sessions.route u = some c
  others : ∀ d, .shutdown d ∈ said → d ≠ c ∧
    ∃ v, w.sessions.logins.At d v ∧ w.db.idOf v = w.db.idOf u

/-- Every `LOGIN` of this body that is answered with code 0 kicks only others. -/
def LoginKicksOnlyOthers (w : World P) (c : Socket) (root : Json) : Prop :=
  ∀ cs request response, (step w (.request c (some root)) cs).1 = some (request, response) →
    request.type = bytes "LOGIN" → response.code = 0 →
    ∃ said, (step w (.request c (some root)) cs).2.trace = w.trace ++ said ∧
      KicksOnlyOthers c request.username w said (step w (.request c (some root)) cs).2

/-- Whenever the login is accepted, its connection has a session; and if the user's flag is set, the
session that the name is routed to, if any, is that of another connection and logged in as the same
user. -/
def RoutedElsewhere (w : World P) (c : Socket) (root : Json) : Prop :=
  ∀ request r, LoginFor w request r (.request c (some root)) →
    w.sessions.getSession c ≠ none ∧
    (r.isOnline = true → ∀ d, RoutedHere w d request.username →
      d ≠ c ∧ ∃ v, w.sessions.logins.At d v ∧ w.db.idOf v = w.db.idOf request.username)

theorem route_signIn {L : Logins Socket Str} (kicks : Bool) {c : Socket} (u : Str)
    (h : L.login c ≠ none) : (L.signIn kicks c u).route u = some c := by
  have henter : ∀ L' : Logins Socket Str, L'.login c ≠ none → (L'.enter c u).route u = some c := by
    intro L' hL'
    unfold Logins.enter
    rw [if_neg hL']
    exact if_pos rfl
  cases kicks with
  | false => exact henter L h
  | true =>
    refine henter (L.kick u) ?_
    show (if L.route u = some c ∧ L.login c ≠ none then some none else L.login c) ≠ none
    split
    · simp
    · exact h

theorem Refreshed.routedHere {d : Socket} {u : Str} (h : Refreshed w w') :
    RoutedHere w' d u ↔ RoutedHere w d u := by
  unfold RoutedHere
  rw [h.route, h.getSession]

/-- An accepted login, from the body to the answer. -/
theorem wp_handleData_login {c : Socket} {root : Json} :
    wp E (handleData P c (some root)) (fun served w' => ∀ request response,
      served = some (request, response) → request.type = bytes "LOGIN" → response.code = 0 →
        ∃ r kicks, LoginFor w request r (.request c (some root)) ∧
          Says (LoginSays w request.username r.isOnline) w w' ∧
          w'.sessions.logins = w.sessions.logins.signIn kicks c request.username) w := by
  unfold handleData
  rw [wp_bind]
  apply wp_dispatchRequest_speaks
  · exact nofun
  · rintro e root garbage w₁ - - -
    exact (wp_bind _ _).mpr (Effect.Prog.wp_of_forall fun _ _ => by
      rintro request response ⟨⟩)
  · rintro _ garbage request w₁ ⟨⟩ hrequest hw₁
    have hspeaks : wp E (serve P request) (fun response w' => request.type = bytes "LOGIN" →
        response.code = 0 → ∃ r, Accepts w₁.db request r ∧
          Says (LoginSays w₁ request.username r.isOnline) w₁ w') w₁ := by
      unfold serve
      refine wp_if (fun htype => Effect.Prog.wp_of_forall fun _ _ hlogin => ?_) fun _ =>
        wp_if (fun _ => wp_mono wp_serveLogin_says fun _ _ h _ => h) fun hlogin =>
          Effect.Prog.wp_of_forall fun _ _ h => absurd h hlogin
      exact absurd (htype.symm.trans hlogin) (by decide)
    refine wp_mono (wp_and hspeaks (wp_serve request)) fun response w₂ ⟨hspeaks, hserves⟩ => ?_
    -- the answer is no kick either
    have hanswer : wp E (sendData c (responseFrame request.type response)) (fun _ w₃ =>
        Talks w₂ w₃ ∧ (request.type = bytes "LOGIN" → Says Gentle w₂ w₃)) w₂ := by
      by_cases htype : request.type = bytes "LOGIN"
      · refine wp_mono (wp_and (wp_say fun _ _ h => h) (wp_speaks (S := Gentle) ?_))
          fun _ _ h => ⟨h.1, fun _ => h.2⟩
        refine uses_op fun _ _ => ?_
        rw [htype]
        exact Option.some_injective _ |>.ne (by decide)
      · exact wp_say fun _ _ h => ⟨h, fun hlogin => absurd hlogin htype⟩
    refine wp_mono hanswer fun _ w₃ ⟨hw₃, hquiet⟩ => ?_
    rintro _ _ ⟨⟩ htype hcode
    obtain ⟨r, haccepts, said⟩ := hspeaks htype hcode
    -- of the kinds of requests, only an accepted login is answered so
    have hlogins : ∃ kicks, w₂.sessions.logins =
        w.sessions.logins.signIn kicks c request.username := by
      cases hserves with
      | refused _ hlogin => exact absurd hcode (hlogin htype).1
      | registered _ _ hregister => exact absurd (htype.symm.trans hregister) (by decide)
      | updated _ _ _ hupdate => exact absurd (htype.symm.trans hupdate) (by decide)
      | other _ _ hother => exact absurd htype hother
      | loggedIn _ kicks _ _ _ _ hlogin hchats =>
        refine ⟨kicks, ?_⟩
        rw [congrArg SessionManager.logins hchats.sessions, hlogin.logins, hw₁.logins,
          requestOf_clientSocket hrequest]
    obtain ⟨kicks, hlogins⟩ := hlogins
    refine ⟨r, kicks, ⟨garbage, hrequest, htype, hw₁.db ▸ haccepts⟩, ?_, ?_⟩
    · have hsame : ∀ o, LoginSays w₁ request.username r.isOnline o →
          LoginSays w request.username r.isOnline o := by
        rintro o (ho | ⟨hon, ho⟩)
        · exact .inl ho
        · refine .inr ⟨hon, ?_⟩
          cases o with
          | sent d _ _ _ | shutdown d => exact hw₁.routedHere.mp ho
          | close d => exact ho
      refine (Says.of_trace hw₁.trace).trans ((said.mono hsame).trans ?_)
      exact (hquiet htype).mono fun _ => .inl
    · rw [hw₃.sessions]
      exact hlogins

theorem login_ne_none {c : Socket} : w.sessions.logins.login c ≠ none ↔
    w.sessions.getSession c ≠ none :=
  not_congr SessionManager.login_eq_none

theorem kicksOnlyOthers_of_says {c : Socket} {request : Request} {r : UserRow} {root : Json}
    {kicks : Bool} {said : List Obs} (h : RoutedElsewhere w c root)
    (hfor : LoginFor w request r (.request c (some root)))
    (hsaid : ∀ o ∈ said, LoginSays w request.username r.isOnline o)
    (hlogins : w'.sessions.logins = w.sessions.logins.signIn kicks c request.username) :
    KicksOnlyOthers c request.username w said w' := by
  obtain ⟨hsession, hothers⟩ := h request r hfor
  have hlogin := login_ne_none.mpr hsession
  have hhere : ∀ o ∈ said, ∀ d, (ToRouted w request.username o → RoutedHere w d request.username) →
      ¬ Gentle o → d ≠ c ∧ ∃ v, w.sessions.logins.At d v ∧ w.db.idOf v = w.db.idOf request.username := by
    intro o ho d hd hharm
    rcases hsaid o ho with hgentle | ⟨hon, hrouted⟩
    · exact absurd hgentle hharm
    · exact hothers hon d (hd hrouted)
  refine ⟨fun hmem => ?_, fun account frame ok hmem hkicked => ?_, ?_, ?_, fun d hmem => ?_⟩
  · exact (hhere _ hmem c id id).1 rfl
  · exact (hhere _ hmem c id fun hgentle => hgentle hkicked).1 rfl
  · apply loginAt_of_login
    rw [hlogins, login_signIn, if_neg hlogin]
  · show w'.sessions.logins.route request.username = some c
    rw [hlogins]
    exact route_signIn kicks request.username hlogin
  · exact hhere _ hmem d id id

theorem kicksOnlyOthers_of_routed {c : Socket} {root : Json} (h : RoutedElsewhere w c root) :
    LoginKicksOnlyOthers w c root := by
  intro cs request response hstep htype hcode
  by_cases hc : c ∈ w.openSockets
  · have hrun : step w (.request c (some root)) cs = (handleData P c (some root)).run cs w :=
      if_pos hc
    rw [hrun] at hstep ⊢
    obtain ⟨r, kicks, hfor, ⟨said, hsaid, hall⟩, hlogins⟩ :=
      run_of_wp (wp_handleData_login (E := .any)) cs (fun ch _ => Env.ok_any ch) request response
        hstep htype hcode
    exact ⟨said, hsaid, kicksOnlyOthers_of_says h hfor hall hlogins⟩
  · have hrun : step w (.request c (some root)) cs = (none, w) := if_neg hc
    rw [hrun] at hstep
    cases hstep

/-- If nothing fails, whoever is kicked is shut down. -/
theorem shutdown_said {c d : Socket} {root : Json} {request : Request} {r : UserRow}
    (hfor : LoginFor w request r (.request c (some root))) (hon : r.isOnline = true)
    (hd : RoutedHere w d request.username) :
    wp .reliable (handleData P c (some root)) (fun _ w' => Said (.shutdown d) w w') w := by
  obtain ⟨g, hrequest, htype, haccepts⟩ := hfor
  unfold handleData
  rw [wp_bind]
  apply wp_dispatchRequest_speaks
  · exact nofun
  · rintro e _ garbage w₁ ⟨⟩ herror -
    obtain ⟨n, hn⟩ := requestOf_garbage hrequest garbage
    exact absurd (hn.symm.trans herror) (by simp)
  · rintro _ garbage request' w₁ ⟨⟩ hrequest' hw₁
    obtain ⟨n, hn⟩ := requestOf_garbage hrequest garbage
    obtain rfl := Except.ok.inj (hn.symm.trans hrequest')
    have hkick : SelfKick w₁ d { request with count := n } r :=
      hw₁.selfKick.mpr ⟨haccepts, hon, hd⟩
    rw [serve_login (by exact htype)]
    refine wp_mono (wp_serveLogin_selfKick id hkick) fun response w₂ h₂ => ?_
    refine wp_mono (wp_saysOn _) fun _ w₃ h₃ => ?_
    exact (Says.of_trace (S := fun _ => True) hw₁.trace).said_trans (h₂.trans_speaks h₃)

theorem routed_of_kicksOnlyOthers {c : Socket} {root : Json} (hc : c ∈ w.openSockets)
    (h : LoginKicksOnlyOthers w c root) : RoutedElsewhere w c root := by
  intro request r hfor
  obtain ⟨g, hrequest, htype, haccepts⟩ := id hfor
  obtain ⟨raw, hraw, hid⟩ := carriesLogin_of_requestOf hrequest htype
  obtain ⟨n, response, hstep, hcases⟩ := served_login hc hraw [] nofun
  rw [hid] at hstep hcases
  rcases hcases with ⟨_, hnot⟩ | ⟨hcode, _, hlogin⟩
  · exact absurd ⟨r, haccepts⟩ hnot
  obtain ⟨said, hsaid, honly⟩ := h [] _ response hstep htype hcode
  refine ⟨fun hnone => ?_, fun hon d hd => ?_⟩
  · rw [if_pos (SessionManager.login_eq_none.mpr hnone), SessionManager.login_eq_none,
      SessionManager.getSession_eq_none] at hlogin
    exact absurd (hlogin.symm.trans honly.loginAt) (by simp)
  · have hrun : step w (.request c (some root)) [] = (handleData P c (some root)).run [] w :=
      if_pos hc
    obtain ⟨said', hsaid', hmem⟩ := run_of_wp (shutdown_said hfor hon hd) [] nofun
    rw [← hrun, hsaid] at hsaid'
    exact honly.others d (List.append_cancel_left hsaid' ▸ hmem)

/-- **A login kicks only others exactly if its name is routed elsewhere.** Of every state, body and
outcome: if a login is accepted, what is told to go and shut down is the session that the name was
routed to before, if the account was online; and that is another connection unless this one was routed
under the name itself. -/
theorem loginKicksOnlyOthers_iff {c : Socket} {root : Json} (hc : c ∈ w.openSockets) :
    LoginKicksOnlyOthers w c root ↔ RoutedElsewhere w c root :=
  ⟨routed_of_kicksOnlyOthers hc, kicksOnlyOthers_of_routed⟩

/-- The first login of a user. -/
theorem loginKicksOnlyOthers_first : LoginKicksOnlyOthers aliceHere 1 (loginBody "alice" "secret") := by
  have hsession : aliceHere.sessions.getSession 1 ≠ none := by decide
  have hroutes : aliceHere.sessions.usernameToSocket.keys = [] := by decide
  refine (loginKicksOnlyOthers_iff (by decide)).mpr fun request r _ => ⟨hsession, fun _ d hd => ?_⟩
  have hmem : request.username ∈ aliceHere.sessions.usernameToSocket.keys :=
    AList.lookup_isSome.mp (Option.isSome_iff_exists.mpr ⟨d, hd.1⟩)
  rw [hroutes] at hmem
  exact absurd hmem List.not_mem_nil

/-- A second login on the same connection: the account is online, and the session that its name is
routed to is this one, so that the login shuts down its own connection. -/
theorem not_loginKicksOnlyOthers : ¬ ∀ (es : List (Event × List Choice)) (c : Socket) (root : Json),
    LoginKicksOnlyOthers (Effect.runAll next (World.start (Database.empty : Database asciiCi)) es)
      c root := by
  intro h
  have honly := h (aliceRegisters ++ [aliceLogsIn]) 1 (loginBody "alice" "secret")
  generalize hw : Effect.runAll next (World.start (Database.empty : Database asciiCi))
    (aliceRegisters ++ [aliceLogsIn]) = w at honly
  have hrow : ((w.db.byName (bytes "alice")).map fun r => (r.passwordHash, r.isOnline)) =
      some (asciiCi.md5 (bytes "secret"), true) := by
    rw [← hw]
    decide
  obtain ⟨r, hr, hvals⟩ := Option.map_eq_some_iff.mp hrow
  obtain ⟨hhash, hon⟩ := Prod.mk.inj hvals
  have hlogin : w.sessions.logins.login 1 = some (some (bytes "alice")) := by
    rw [← hw]
    decide
  have hhere : RoutedHere w 1 (bytes "alice") := by
    unfold RoutedHere
    rw [← hw]
    decide
  have hfor : LoginFor w (actingAs (aliceLogin 1) (bytes "alice")) r
      (.request 1 (some (loginBody "alice" "secret"))) := by
    refine ⟨0, ?_, rfl, by decide, hr, hhash.symm⟩
    have hread : requestOf w.sessions.logins 1 0 (loginBody "alice" "secret") =
        .ok (identified w.sessions.logins 1 (aliceLogin 1)) := rfl
    rw [hread]
    unfold identified
    rw [hlogin]
  have hopen : 1 ∈ w.openSockets := by
    rw [← hw]
    decide
  exact ((routed_of_kicksOnlyOthers hopen honly _ r hfor).2 hon 1 hhere).1 rfl

end LiteChat
