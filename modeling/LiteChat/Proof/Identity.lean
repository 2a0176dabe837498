import LiteChat.Proof.Events

/-!
# Whose session a session is

A session stores a name, and the account that a name means is looked up anew for every request.
Whether the connection still speaks for the account it authenticated to is therefore a statement
about histories, and `auth` is the history it needs: for each connection, the account whose
password its last accepted login was checked against.

The name of a session goes on meaning that account through logins, kicks and registrations. A
rename is what can take the meaning away: of the renamed user's own sessions, whose name means
nobody from then on, and somebody else once that somebody takes the name.
-/

namespace LiteChat

open LiteChat.Action Spec Server

variable {P : Platform} {E : Env} {w w' : World P}

/-- The server, with the account that each connection authenticated to. -/
structure AuthWorld (P : Platform) where
  world : World P
  auth : Socket → Option UserId

/-- An accepted login is for the account that its name selects when it arrives. -/
def authAfter (s : AuthWorld P) (e : Event) (served : Option (Request × Response)) :
    Socket → Option UserId :=
  match e, served with
  | .request c _, some (request, response) =>
    if request.type = bytes "LOGIN" ∧ response.code = 0 then
      fun d => if d = c then s.world.db.idOf request.username else s.auth d
    else s.auth
  | _, _ => s.auth

def AuthWorld.next (s : AuthWorld P) (e : Event × List Choice) : AuthWorld P where
  world := (step s.world e.1 e.2).2
  auth := authAfter s e.1 (step s.world e.1 e.2).1

/-- Every session's name selects the account the session authenticated to. -/
def KeepsIdentity (s : AuthWorld P) : Prop :=
  ∀ c u, s.world.sessions.logins.At c u → ∃ i, s.auth c = some i ∧ s.world.db.idOf u = some i

/-- The request renames a user, to a name that nobody has, while a session is logged in under the
name the user has. -/
def RenamesLoggedIn (w : World P) : Event → Prop
  | .request c (some root) => ∃ garbage request r,
      requestOf w.sessions.logins c garbage root = .ok request ∧
      request.type = bytes "UPDATE_USER" ∧
      w.db.byName request.username = some r ∧
      P.md5 request.verifyPassword = r.passwordHash ∧
      UserManager.validateUsername request.newUsername = true ∧
      w.db.byName request.newUsername = none ∧
      ∃ d u, w.sessions.logins.At d u ∧ w.db.byName u = some r
  | _ => False

/-! ## One step -/

/-- When no session gets a name and no name changes its meaning, nothing is lost. -/
theorem KeepsIdentity.of_fewer {s : AuthWorld P} (h : KeepsIdentity s)
    (hat : ∀ c u, w'.sessions.logins.At c u → s.world.sessions.logins.At c u)
    (hid : ∀ u i, s.world.db.idOf u = some i → w'.db.idOf u = some i) :
    KeepsIdentity ⟨w', s.auth⟩ := by
  intro c u hc
  obtain ⟨i, hauth, hi⟩ := h c u (hat c u hc)
  exact ⟨i, hauth, hid u i hi⟩

theorem Removed.at {c : Socket} (h : Removed E c w w') {d : Socket} {u : Str}
    (hat : w'.sessions.logins.At d u) : w.sessions.logins.At d u := by
  rw [h.logins, Logins.at_drop] at hat
  exact hat.2

theorem Scanned.at_and_idOf (h : Scanned E w w') :
    (∀ c u, w'.sessions.logins.At c u → w.sessions.logins.At c u) ∧
      ∀ u, w'.db.idOf u = w.db.idOf u := by
  induction h with
  | done w => exact ⟨fun _ _ => id, fun _ => rfl⟩
  | expired c u w w₁ w' _ hremoved _ _ ih =>
    exact ⟨fun d v hat => hremoved.at (ih.1 d v hat),
      fun v => (ih.2 v).trans (hremoved.db.idOf v)⟩

/-- A rename that is not of somebody logged in changes nothing for those who are. -/
theorem Renamed.idOf {newUsername u : Str} {r s : UserRow} {db db' : Database P}
    (h : Renamed E newUsername r.userId db db') (hr : r ∈ db.users) (hu : db.byName u = some s)
    (hfree : s = r → db.byName newUsername ≠ none) : db'.idOf u = some s.userId := by
  obtain ⟨_, _, _, hupdate⟩ := h
  by_cases hs : s.userId = r.userId
  · have hsr : s = r := Database.eq_of_id (Database.byName_iff.mp hu).1 hr hs
    -- nobody but `r` can have the weight of the new name, or the statement would have failed
    obtain ⟨t, ht⟩ := Option.ne_none_iff_exists'.mp (hfree hsr)
    obtain ⟨htmem, htw⟩ := Database.byName_iff.mp ht
    have htr : t.userId = r.userId := by
      by_contra hne
      exact (Database.users_of_updateUsername hupdate).1 t htmem hne htw
    have hts : t = s := (Database.eq_of_id htmem hr htr).trans hsr.symm
    rw [hs]
    refine Database.idOf_updateUsername_self hupdate hu hs ?_
    rw [← htw, hts]
    exact (Database.byName_iff.mp hu).2
  · unfold Database.idOf
    rw [Database.byName_updateUsername hupdate hu hs]
    rfl

theorem UserUpdated.idOf {request : Request} {u : Str} {r s : UserRow} {db db' : Database P}
    (h : UserUpdated E request r.userId db db') (hr : r ∈ db.users) (hu : db.byName u = some s)
    (hfree : s = r → UserManager.validateUsername request.newUsername = true →
      db.byName request.newUsername ≠ none) : db'.idOf u = some s.userId := by
  obtain ⟨db₁, hrename, hpassword⟩ := h
  have h₁ : db₁.idOf u = some s.userId := by
    rcases hrename with rfl | hrename
    · unfold Database.idOf
      rw [hu]
      rfl
    · exact hrename.idOf hr hu fun hsr => hfree hsr hrename.2.1
  rcases hpassword with rfl | rfl
  · exact h₁
  · exact (Database.idOf_mapUsers u).trans h₁

/-- A request that is served. A login that is accepted writes down the account that it was checked
against; a registration takes no name that is in use; and a change of user data renames nobody who is
logged in. -/
theorem KeepsIdentity.served {auth : Socket → Option UserId} {c : Socket} {root : Json}
    {garbage : Int} {request : Request} {response : Response} {w₁ w₂ : World P}
    (h : KeepsIdentity ⟨w, auth⟩)
    (hrequest : requestOf w.sessions.logins c garbage root = .ok request) (hquiet : Quiet w w₁)
    (hserves : Serves E request w₁ response w₂) (hrest : Quiet w₂ w')
    (hcond : ¬ RenamesLoggedIn w (.request c (some root))) :
    KeepsIdentity ⟨w', authAfter ⟨w, auth⟩ (.request c (some root)) (some (request, response))⟩ := by
  have hat₂ : ∀ d u, w'.sessions.logins.At d u → w₂.sessions.logins.At d u := by
    intro d u
    rw [hrest.logins]
    exact id
  have hid₂ : ∀ u, w'.db.idOf u = w₂.db.idOf u := fun u => by rw [hrest.db]
  -- a request that is no accepted login leaves `auth` as it is
  have unauth : ¬ (request.type = bytes "LOGIN" ∧ response.code = 0) →
      (∀ d u, w₂.sessions.logins.At d u → w₁.sessions.logins.At d u) →
      (∀ d u i, w.sessions.logins.At d u → w.db.idOf u = some i → w₂.db.idOf u = some i) →
      KeepsIdentity ⟨w', authAfter ⟨w, auth⟩ (.request c (some root)) (some (request, response))⟩ := by
    intro hno hat hid d u hd
    have hd' : w.sessions.logins.At d u := hquiet.logins ▸ hat d u (hat₂ d u hd)
    obtain ⟨i, hi, hidu⟩ := h d u hd'
    refine ⟨i, ?_, (hid₂ u).trans (hid d u i hd' hidu)⟩
    simp only [authAfter, if_neg hno]
    exact hi
  cases hserves with
  | refused _ hlogin =>
    refine unauth (fun hl => (hlogin hl.1).1 hl.2) (fun _ _ => id) fun d u i _ hi => ?_
    rw [hquiet.db]
    exact hi
  -- the new row has a name that no row had
  | registered _ db htype _ hinsert =>
    refine unauth (fun hl => ?_) (fun _ _ => id) fun d u i _ hi => ?_
    · exact absurd (htype.symm.trans hl.1) (by decide)
    · exact Database.idOf_insertUser hinsert (hquiet.db ▸ hi)
  -- a name that stops meaning its account would be that of a session of the renamed user
  | updated _ r db htype hr hmd5 hupdate =>
    refine unauth (fun hl => ?_) (fun _ _ => id) fun d u i hd hi => ?_
    · exact absurd (htype.symm.trans hl.1) (by decide)
    · obtain ⟨s, hs, rfl⟩ := Option.map_eq_some_iff.mp hi
      rw [hquiet.db] at hr hupdate
      refine hupdate.idOf (Database.byName_iff.mp hr).1 hs fun hsr hvalid hnone => hcond ?_
      exact ⟨garbage, request, r, hrequest, htype, hr, hmd5, hvalid, hnone, d, u, hd, hsr ▸ hs⟩
  | other _ _ hlogin hkeeps =>
    refine unauth (fun hl => hlogin hl.1) (fun d u => ?_) fun d u i _ hi => ?_
    · rw [hkeeps.sessions]
      exact id
    · rw [hkeeps.idOf, hquiet.db]
      exact hi
  | loggedIn r kicks w₃ _ htype haccepts hlogin hkeeps =>
    have hid : ∀ u, w'.db.idOf u = w.db.idOf u := fun u => by
      rw [hid₂, hkeeps.idOf, hlogin.db.idOf, hquiet.db]
    have hclient := requestOf_clientSocket hrequest
    intro d u hd
    have hd := hat₂ d u hd
    rw [hkeeps.sessions, hlogin.logins, hclient, hquiet.logins] at hd
    have hd := Logins.at_of_signIn hd
    have hcode : UserManager.loginAccepted.code = 0 := rfl
    simp only [authAfter, if_pos (And.intro htype hcode), hid]
    -- this connection has just logged in; the others have kept their names, or lost them
    by_cases hdc : d = c
    · rw [if_pos hdc] at hd ⊢
      rw [hd, ← hquiet.db]
      refine ⟨r.userId, ?_, ?_⟩ <;>
      · unfold Database.idOf
        rw [haccepts.2.1]
        rfl
    · rw [if_neg hdc] at hd ⊢
      exact h d u hd

/-- One event. Whatever is no request leaves the names and their accounts as they are, or takes a name
away from a session. -/
theorem KeepsIdentity.next {s : AuthWorld P} (h : KeepsIdentity s) (e : Event × List Choice)
    (hcond : ¬ RenamesLoggedIn s.world e.1) : KeepsIdentity (s.next e) := by
  obtain ⟨w, auth⟩ := s
  obtain ⟨e, cs⟩ := e
  have happens := step_happens .any w e cs fun ch _ => Env.ok_any ch
  unfold AuthWorld.next
  generalize step w e cs = result at happens ⊢
  obtain ⟨served, w'⟩ := result
  dsimp only at happens hcond ⊢
  cases happens with
  | disabled => cases e <;> exact h
  | turnedAway c _ _ hdb hsessions =>
    exact h.of_fewer (fun _ _ => by rw [hsessions]; exact id) fun _ _ => by rw [hdb]; exact id
  | accepted c _ _ hdb hlogins =>
    refine h.of_fewer (fun d u hat => ?_) fun _ _ => by rw [hdb]; exact id
    rw [hlogins, Logins.at_connect] at hat
    exact hat.2
  | malformed c _ hquiet =>
    exact h.of_fewer (fun _ _ => by rw [hquiet.logins]; exact id) fun _ _ => by
      rw [hquiet.db]; exact id
  | thrown c root _ _ w₁ _ _ hquiet hremoved =>
    refine h.of_fewer (fun d u hat => ?_) fun u i hi => ?_
    · exact hquiet.logins ▸ hremoved.at hat
    · rw [hremoved.db.idOf, hquiet.db]
      exact hi
  | hungUp c _ hremoved =>
    exact h.of_fewer (fun _ _ => hremoved.at) fun u i hi => (hremoved.db.idOf u).trans hi
  | scanned _ hscan =>
    exact h.of_fewer hscan.at_and_idOf.1 fun u i hi => (hscan.at_and_idOf.2 u).trans hi
  | served c root garbage request response w₁ w₂ _ hc hrequest hquiet hserves hrest =>
    exact h.served hrequest hquiet hserves hrest hcond

/-! ## Runs -/

theorem keepsIdentity_start (db : Database P) : KeepsIdentity ⟨World.start db, fun _ => none⟩ := by
  intro c u hat
  exact absurd hat (by simp [World.start, Logins.At, Logins.empty])

/-- **Identities are kept in every run in which nobody who is logged in is renamed.** After any such run
of connections, requests, disconnections and scans, with any failing statements, the name of every
session selects the account that the connection authenticated to last. -/
theorem keepsIdentity_run (db : Database P) (es : List (Event × List Choice))
    (h : Effect.Meets AuthWorld.next (fun s e => ¬ RenamesLoggedIn s.world e.1)
      ⟨World.start db, fun _ => none⟩ es) :
    KeepsIdentity (Effect.runAll AuthWorld.next ⟨World.start db, fun _ => none⟩ es) :=
  Effect.runAll_inv (keepsIdentity_start db) (fun _ e hs hcond => hs.next e hcond) h

/-- Only a request to change user data can be such a rename. -/
theorem not_renamesLoggedIn_of_type {c : Socket} {root node : Json} {type : Str}
    (hheader : header root = .ok (type, node)) (htype : type ≠ bytes "UPDATE_USER") :
    ¬ RenamesLoggedIn w (.request c (some root)) := by
  rintro ⟨garbage, request, r, hrequest, hupdate, _⟩
  exact htype ((requestOf_type hheader hrequest).symm.trans hupdate)

/-- Nor is it one when the account to be renamed is not that of any session. -/
theorem not_renamesLoggedIn_of_away {c : Socket} {root : Json} {u : Str}
    (hname : ∀ garbage request, requestOf w.sessions.logins c garbage root = .ok request →
      request.username = u)
    (haway : ∀ d ∈ w.sessions.cliSessionMap.keys, ∀ v, w.sessions.loginAt d = some v →
      w.db.byName v ≠ w.db.byName u) : ¬ RenamesLoggedIn w (.request c (some root)) := by
  rintro ⟨garbage, request, r, hrequest, -, hr, -, -, -, d, v, hat, hv⟩
  rw [hname garbage request hrequest] at hr
  exact haway d (SessionManager.mem_keys_of_at hat) v (SessionManager.at_iff.mp hat).1 (hv.trans hr.symm)

/-- While Alice is logged in, Bob, who is not, changes his name. -/
theorem keepsIdentity_login :
    KeepsIdentity (Effect.runAll AuthWorld.next
      ⟨World.start (Database.empty : Database asciiCi), fun _ => none⟩
      [(.accept 1, []),
       (.request 1 (flatBody
          [("type", "REGISTER"), ("username", "alice"), ("password", "secret")]), []),
       (.request 1 (flatBody
          [("type", "LOGIN"), ("username", "alice"), ("password", "secret")]), []),
       (.accept 2, []),
       (.request 2 (flatBody
          [("type", "REGISTER"), ("username", "bob"), ("password", "qwerty")]), []),
       (.request 2 (flatBody [("type", "UPDATE_USER"), ("username", "bob"),
          ("verifyPassword", "qwerty"), ("newUsername", "robert")]), [])]) := by
  apply keepsIdentity_run
  refine ⟨id, ?_, ?_, id, ?_, ?_, trivial⟩
  · exact not_renamesLoggedIn_of_type rfl (by decide)
  · exact not_renamesLoggedIn_of_type rfl (by decide)
  · exact not_renamesLoggedIn_of_type rfl (by decide)
  · refine not_renamesLoggedIn_of_away (u := bytes "bob") ?_ (by decide +kernel)
    intro garbage request hrequest
    cases hrequest
    rfl

/-- Alice renames herself and somebody registers under her old name: her session now speaks for an
account it has never seen the password of. -/
theorem not_keepsIdentity :
    ¬ ∀ es, KeepsIdentity (Effect.runAll AuthWorld.next
      ⟨World.start (Database.empty : Database asciiCi), fun _ => none⟩ es) := by
  intro h
  let es : List (Event × List Choice) :=
    [(.accept 1, []),
     (.request 1 (flatBody
        [("type", "REGISTER"), ("username", "alice"), ("password", "secret")]), []),
     (.request 1 (flatBody
        [("type", "LOGIN"), ("username", "alice"), ("password", "secret")]), []),
     (.request 1 (flatBody
        [("type", "UPDATE_USER"), ("verifyPassword", "secret"), ("newUsername", "alice2")]), []),
     (.accept 2, []),
     (.request 2 (flatBody
        [("type", "REGISTER"), ("username", "alice"), ("password", "qwerty")]), [])]
  let s := Effect.runAll AuthWorld.next
    ⟨World.start (Database.empty : Database asciiCi), fun _ => none⟩ es
  have hat : s.world.sessions.logins.At 1 (bytes "alice") :=
    SessionManager.at_iff.mpr ⟨by decide, by decide⟩
  have hauth : s.auth 1 = some 1 := by decide
  have hid : s.world.db.idOf (bytes "alice") = some 2 := by decide
  obtain ⟨i, hi, hi'⟩ := h es 1 (bytes "alice") hat
  exact absurd ((hauth.symm.trans hi).trans (hi'.symm.trans hid)) (by decide)

end LiteChat
