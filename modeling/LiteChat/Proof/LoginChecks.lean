import LiteChat.Proof.Routing

/-!
# Whose credentials a login checks

`DispatchRequest` gives a request the name of whoever is logged in on its connection, a `LOGIN` too.
So the password that comes with one name is compared with another user's. On a connection that
nobody is logged in on, the login checks what it was given; on one that has lost its session it does
so too, and then logs nobody in.

`served_login` is what every `LOGIN` comes to. The theorem compares what it looks at, the identified
request, with the request of the body.
-/

namespace LiteChat

open LiteChat.Action Spec Server

variable {P : Platform} {E : Env} {w w' : World P}

/-- The body is a `LOGIN` with these fields. -/
def CarriesLogin (c : Socket) (root : Json) (raw : Request) : Prop :=
  ∃ node garbage, header root = .ok (bytes "LOGIN", node) ∧
    readRequest (bytes "LOGIN") c garbage node = .ok raw

/-- The name is of the allowed form, and the row that it selects has the digest of the password. -/
def CredentialsHold (db : Database P) (request : Request) : Prop := ∃ r, Accepts db request r

/-- With no failure of the database, the answer is 0 exactly for credentials that hold, and then the
session has the name that was given. -/
def ChecksCredentials (w : World P) (c : Socket) (root : Json) (raw : Request) : Prop :=
  ∀ cs, (∀ ch ∈ cs, ch.dbOk = true) → ∃ request response,
    (step w (.request c (some root)) cs).1 = some (request, response) ∧
    (response.code = 0 ↔ CredentialsHold w.db raw) ∧
    (response.code = 0 →
      (step w (.request c (some root)) cs).2.sessions.loginAt c = some raw.username)

/-! ## What a login comes to -/

/-- The session of the connection has the name after a login, if there is one. -/
theorem login_signIn (L : Logins Socket Str) (kicks : Bool) (c : Socket) (u : Str) :
    (L.signIn kicks c u).login c = if L.login c = none then none else some (some u) := by
  have hkick : ∀ L' : Logins Socket Str, (L'.login c = none ↔ L.login c = none) →
      (L'.enter c u).login c = if L.login c = none then none else some (some u) := by
    intro L' hL'
    unfold Logins.enter
    by_cases hnone : L.login c = none
    · rw [if_pos hnone, if_pos (hL'.mpr hnone), hL'.mpr hnone]
    · rw [if_neg hnone, if_neg fun h => hnone (hL'.mp h)]
      exact if_pos rfl
  cases kicks with
  | false => exact hkick L Iff.rfl
  | true =>
    refine hkick (L.kick u) ?_
    show (if L.route u = some c ∧ L.login c ≠ none then some none else L.login c) = none ↔ _
    split
    · next h => simp [h.2]
    · exact Iff.rfl

/-- A `LOGIN` is served, as whoever is logged in on the connection: it is refused, or what was asked
for is done. -/
theorem served_login {c : Socket} {root : Json} {raw : Request} (hc : c ∈ w.openSockets)
    (hraw : CarriesLogin c root raw) (cs : List Choice) (hcs : ∀ ch ∈ cs, ch.dbOk = true) :
    ∃ n response, (step w (.request c (some root)) cs).1 =
        some ({ identified w.sessions.logins c raw with count := n }, response) ∧
      ((response.code ≠ 0 ∧ ¬ CredentialsHold w.db (identified w.sessions.logins c raw)) ∨
        (response.code = 0 ∧ CredentialsHold w.db (identified w.sessions.logins c raw) ∧
          (step w (.request c (some root)) cs).2.sessions.logins.login c =
            if w.sessions.logins.login c = none then none
            else some (some (identified w.sessions.logins c raw).username))) := by
  obtain ⟨node, g, hheader, hread⟩ := hraw
  have hof : requestOf w.sessions.logins c g root = .ok (identified w.sessions.logins c raw) := by
    rw [requestOf_eq, hheader]
    dsimp only
    rw [hread]
  have htype := requestOf_type hheader hof
  have happens := step_happens .reliable w (.request c (some root)) cs
    fun ch hch => Env.ok_reliable.mpr (hcs ch hch)
  generalize (step w (.request c (some root)) cs).1 = served at happens ⊢
  generalize (step w (.request c (some root)) cs).2 = w' at happens ⊢
  -- the connection is open and the request can be read, so it is served
  cases happens with
  | disabled _ he => exact absurd hc he
  | thrown _ _ garbage e w₁ _ herror _ _ _ =>
    obtain ⟨n, hn⟩ := requestOf_garbage hof garbage
    exact absurd (hn.symm.trans herror) (by simp)
  | served _ _ garbage request response w₁ w₂ _ _ hrequest hquiet hserves hrest =>
    obtain ⟨n, hn⟩ := requestOf_garbage hof garbage
    obtain rfl := Except.ok.inj (hn.symm.trans hrequest)
    refine ⟨n, response, rfl, ?_⟩
    -- refused or accepted, by the credentials that were compared
    cases hserves with
    | refused _ hlogin =>
      refine .inl ⟨(hlogin htype).1, fun ⟨r, hr⟩ => ?_⟩
      exact (hlogin htype).2 id r (hquiet.db ▸ hr)
    | registered _ _ hregister => exact absurd (htype.symm.trans hregister) (by decide)
    | updated _ _ _ hupdate => exact absurd (htype.symm.trans hupdate) (by decide)
    | other _ _ hother => exact absurd htype hother
    | loggedIn r kicks w₁' _ _ haccepts hlogin hchats =>
      refine .inr ⟨rfl, ⟨r, hquiet.db ▸ haccepts⟩, ?_⟩
      have hlogins : w'.sessions.logins = w.sessions.logins.signIn kicks
          (identified w.sessions.logins c raw).clientSocket
          (identified w.sessions.logins c raw).username := by
        rw [hrest.logins, congrArg SessionManager.logins hchats.sessions, hlogin.logins,
          hquiet.logins]
      rw [hlogins, requestOf_clientSocket hof, login_signIn]

/-! ## When these are the credentials that were given -/

/-- On a connection that somebody is logged in on, the login is theirs, or neither their name nor the
name that was given goes with the password; on one without a session, the credentials do not hold. -/
def GivenAreChecked (w : World P) (c : Socket) (raw : Request) : Prop :=
  match w.sessions.logins.login c with
  | some none => True
  | some (some username) => raw.username = username ∨
      (¬ CredentialsHold w.db raw ∧ ¬ CredentialsHold w.db (actingAs raw username))
  | none => ¬ CredentialsHold w.db raw

/-- Every request that is a `LOGIN` comes from such a body. -/
theorem carriesLogin_of_requestOf {L : Logins Socket Str} {c : Socket} {g : Int} {root : Json}
    {request : Request} (h : requestOf L c g root = .ok request)
    (htype : request.type = bytes "LOGIN") :
    ∃ raw, CarriesLogin c root raw ∧ identified L c raw = request := by
  have hheaders : ∀ (node : Json) type, header root = .ok (type, node) → request.type = type :=
    fun _ _ hheader => requestOf_type hheader h
  rw [requestOf_eq] at h
  split at h
  · cases h
  · next type node hheader =>
    obtain rfl := (hheaders node type hheader).symm.trans htype
    split at h
    · cases h
    · next raw hread => exact ⟨raw, ⟨node, g, hheader, hread⟩, Except.ok.inj h⟩

theorem loginAt_of_login {m : SessionManager} {c : Socket} {u : Str}
    (h : m.logins.login c = some (some u)) : m.loginAt c = some u :=
  (SessionManager.at_iff.mp h).1

/-- What is compared is the identified request, and its name is the one that the session gets. -/
theorem checksCredentials_iff_identified {c : Socket} {root : Json} {raw : Request}
    (hc : c ∈ w.openSockets) (hraw : CarriesLogin c root raw) :
    ChecksCredentials w c root raw ↔
      (CredentialsHold w.db (identified w.sessions.logins c raw) ↔ CredentialsHold w.db raw) ∧
      (CredentialsHold w.db (identified w.sessions.logins c raw) →
        w.sessions.logins.login c ≠ none ∧
          (identified w.sessions.logins c raw).username = raw.username) := by
  constructor
  · intro h
    obtain ⟨n, response, hstep, hcases⟩ := served_login hc hraw [] nofun
    obtain ⟨request, response', hstep', hcode, hname⟩ := h [] nofun
    obtain ⟨rfl, rfl⟩ := Prod.mk.inj (Option.some.inj (hstep.symm.trans hstep'))
    rcases hcases with ⟨hrefused, hnot⟩ | ⟨haccepted, hhold, hlogin⟩
    · exact ⟨iff_of_false hnot fun hhold => hrefused (hcode.mpr hhold), fun hhold => absurd hhold hnot⟩
    · refine ⟨iff_of_true hhold (hcode.mp haccepted), fun _ => ?_⟩
      by_cases hnone : w.sessions.logins.login c = none
      · rw [if_pos hnone, SessionManager.login_eq_none, SessionManager.getSession_eq_none] at hlogin
        rw [hlogin] at hname
        exact absurd (hname haccepted) (by simp)
      · rw [if_neg hnone] at hlogin
        refine ⟨hnone, ?_⟩
        exact Option.some.inj ((loginAt_of_login hlogin).symm.trans (hname haccepted))
  · rintro ⟨hiff, himp⟩ cs hcs
    obtain ⟨n, response, hstep, hcases⟩ := served_login hc hraw cs hcs
    refine ⟨_, response, hstep, ?_⟩
    rw [← hiff]
    rcases hcases with ⟨hrefused, hnot⟩ | ⟨haccepted, hhold, hlogin⟩
    · exact ⟨iff_of_false hrefused hnot, fun hcode => absurd hcode hrefused⟩
    · refine ⟨iff_of_true haccepted hhold, fun _ => ?_⟩
      obtain ⟨hsome, hname⟩ := himp hhold
      rw [if_neg hsome, hname] at hlogin
      exact loginAt_of_login hlogin

/-- **Exactly then are the given credentials the ones that are checked.** As long as nobody is logged in
on the connection they are. If somebody is, the name of the session replaces the name in the body before
digests are compared, which makes no difference only for the same name, or if neither name goes with the
password. -/
theorem checksCredentials_iff {c : Socket} {root : Json} {raw : Request} (hc : c ∈ w.openSockets)
    (hraw : CarriesLogin c root raw) :
    ChecksCredentials w c root raw ↔ GivenAreChecked w c raw := by
  rw [checksCredentials_iff_identified hc hraw]
  unfold GivenAreChecked identified
  cases hlogin : w.sessions.logins.login c with
  | none =>
    dsimp only
    exact ⟨fun h hhold => (h.2 hhold).1 rfl, fun h => ⟨Iff.rfl, fun hhold => absurd hhold h⟩⟩
  | some name =>
    cases name with
    | none => exact iff_of_true ⟨Iff.rfl, fun _ => ⟨by simp, rfl⟩⟩ trivial
    | some username =>
      dsimp only
      constructor
      · rintro ⟨hiff, himp⟩
        by_cases hhold : CredentialsHold w.db (actingAs raw username)
        · exact .inl (himp hhold).2.symm
        · exact .inr ⟨fun h => hhold (hiff.mpr h), hhold⟩
      · rintro (hname | ⟨hraw, hacting⟩)
        · subst hname
          exact ⟨Iff.rfl, fun _ => ⟨by simp, rfl⟩⟩
        · exact ⟨iff_of_false hacting hraw, fun h => absurd h hacting⟩

/-- The body of a login. -/
def loginBody (username password : String) : Json :=
  .obj [(bytes "type", .str (bytes "LOGIN")), (bytes "username", .str (bytes username)),
    (bytes "password", .str (bytes password))]

theorem checksCredentials_alice :
    ChecksCredentials aliceHere 1 (loginBody "alice" "secret") (aliceLogin 1) := by
  have hlogin : aliceHere.sessions.logins.login 1 = some none := by decide
  refine (checksCredentials_iff (by decide) ⟨_, 0, rfl, rfl⟩).mpr ?_
  unfold GivenAreChecked
  rw [hlogin]
  trivial

/-- Alice and Bob have accounts, and Alice is logged in. -/
def aliceBeforeBob : List (Event × List Choice) :=
  aliceRegisters ++
    [(.request 1 (flatBody [("type", "REGISTER"), ("username", "bob"), ("password", "qwerty")]), []),
     aliceLogsIn]

/-- Bob's name and password are wrong on Alice's connection. -/
theorem not_checksCredentials : ¬ ∀ (es : List (Event × List Choice)) (c : Socket) (root : Json)
    (raw : Request),
    c ∈ (Effect.runAll next (World.start (Database.empty : Database asciiCi)) es).openSockets →
      CarriesLogin c root raw →
      ChecksCredentials (Effect.runAll next (World.start (Database.empty : Database asciiCi)) es)
        c root raw := by
  intro h
  have hchecks := h aliceBeforeBob 1 (loginBody "bob" "qwerty")
    { aliceLogin 1 with username := bytes "bob", password := bytes "qwerty" } (by decide)
    ⟨_, 0, rfl, rfl⟩ [] nofun
  generalize hw : Effect.runAll next (World.start (Database.empty : Database asciiCi))
    aliceBeforeBob = w at hchecks
  have hcode : ((step w (.request 1 (some (loginBody "bob" "qwerty"))) []).1.map
      fun served => served.2.code) = some 2004 := by
    rw [← hw]
    decide
  have hrow : ((w.db.byName (bytes "bob")).map fun r => r.passwordHash) =
      some (asciiCi.md5 (bytes "qwerty")) := by
    rw [← hw]
    decide
  obtain ⟨r, hr, hhash⟩ := Option.map_eq_some_iff.mp hrow
  obtain ⟨request, response, hstep, hiff, _⟩ := hchecks
  rw [hstep] at hcode
  have hzero := hiff.mpr ⟨r, by decide, hr, hhash.symm⟩
  exact absurd (hzero.symm.trans (Option.some.inj hcode)) (by decide)

end LiteChat
