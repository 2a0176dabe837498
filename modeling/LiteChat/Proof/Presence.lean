import LiteChat.Proof.Identity
import LiteChat.Proof.Routing

/-!
# The online flag and the sessions

`is_online` is written by number when a user logs in and by name when a session ends, and the
session that it is about is found by name. The invariant that keeps the two together says more than
that they agree: routes are sound and complete, and every session carries a name exactly as the
`users` table stores it. The last part is what a login with another spelling breaks, a rename of a
logged-in user breaks it too, and a login without a session breaks the first.

`Presence` is the invariant: besides the agreement itself, that routes are sound and complete, since a
login looks at the flag to decide whether to kick and at the route to find whom, and that the name of a
session is that of a row. Each event is one lemma about it: a session that goes, a name that changes, a
login, a scan.
-/

namespace LiteChat

open LiteChat.Action Spec Server

variable {P : Platform} {E : Env} {w w' w'' : World P}

/-- The flag of a row is set exactly if a session has its username. -/
def OnlineAgrees (w : World P) : Prop :=
  ∀ r ∈ w.db.users, r.isOnline = true ↔ ∃ c, w.sessions.logins.At c r.username

structure Presence (w : World P) : Prop where
  routing : SoundRouting w
  complete : w.sessions.logins.Complete
  stored : ∀ c u, w.sessions.logins.At c u → ∃ r ∈ w.db.users, r.username = u
  agrees : OnlineAgrees w

/-- A login under a spelling that is not the stored one. -/
def MisspeltLogin (w : World P) (e : Event) : Prop :=
  ∃ request r, LoginFor w request r e ∧ r.username ≠ request.username

/-- The steps that keep flags and sessions together. -/
def KeepsPresence (w : World P) (e : Event) : Prop :=
  ¬ RenamesLoggedIn w e ∧ ¬ SessionlessLogin w e ∧ ¬ MisspeltLogin w e

/-! ## One step -/

/-- Rows and sessions as they were. -/
theorem Presence.congr (h : Presence w) (husers : w'.db.users = w.db.users)
    (hlogins : w'.sessions.logins = w.sessions.logins) (hrouting : SoundRouting w') :
    Presence w' := by
  refine ⟨hrouting, hlogins ▸ h.complete, fun c u hat => ?_, fun r hr => ?_⟩
  · rw [husers]
    exact h.stored c u (hlogins ▸ hat)
  · rw [hlogins]
    exact h.agrees r (husers ▸ hr)

theorem Presence.connected {c : Socket} (h : Presence w) (hc : c ∉ w.openSockets)
    (hdb : w'.db = w.db) (hlogins : w'.sessions.logins = w.sessions.logins.connect c)
    (hrouting : SoundRouting w') : Presence w' := by
  have hat : ∀ d u, w'.sessions.logins.At d u ↔ w.sessions.logins.At d u := by
    intro d u
    rw [hlogins, Logins.at_connect]
    refine ⟨fun hd => hd.2, fun hd => ⟨?_, hd⟩⟩
    rintro rfl
    refine hc (h.routing.isOpen d ?_)
    rw [show w.sessions.logins.login d = some (some u) from hd]
    simp
  refine ⟨hrouting, ?_, fun d u hd => ?_, fun r hr => ?_⟩
  · rw [hlogins]
    exact h.complete.connect c
  · rw [hdb]
    exact h.stored d u ((hat d u).mp hd)
  · simp only [hat]
    exact h.agrees r (hdb ▸ hr)

/-- The end of a session takes the flag of exactly its own user away: the flag is cleared by name, and
there is one session for a name. -/
theorem Presence.removed {c : Socket} (h : Presence w) (hr : Removed E c w w') (hE : ¬ E.dbFails)
    (hrouting : SoundRouting w') : Presence w' := by
  have hat : ∀ d u, w'.sessions.logins.At d u ↔ d ≠ c ∧ w.sessions.logins.At d u := by
    intro d u
    rw [hr.logins]
    exact Logins.at_drop _ c d u
  have hcomplete : w'.sessions.logins.Complete := hr.logins ▸ h.complete.drop c
  have hdb := hr.db
  unfold SignedOff at hdb
  split at hdb
  · rename_i v hv
    have hv : w.sessions.logins.At c v := hv
    obtain ⟨r, hrmem, rfl⟩ := h.stored c v hv
    rcases hdb with hdb | ⟨hf, -⟩
    · refine ⟨hrouting, hcomplete, fun d u hd => ?_, fun s' hs' => ?_⟩
      · obtain ⟨s, hs, hsu⟩ := h.stored d u ((hat d u).mp hd).2
        rw [hdb]
        refine ⟨_, List.mem_map_of_mem hs, ?_⟩
        split <;> exact hsu
      · rw [hdb] at hs'
        obtain ⟨s, hs, rfl⟩ := List.mem_map.mp hs'
        by_cases hw : P.weight s.username = P.weight r.username
        · -- the row of the session that goes: nobody else is logged in under its name
          obtain rfl := Database.eq_of_weight hs hrmem hw
          simp only [hat, decide_true, if_true, Bool.false_eq_true, false_iff, not_exists]
          rintro d ⟨hdc, hd⟩
          exact hdc (h.complete.unique hd hv)
        · simp only [hat, decide_eq_false hw, Bool.false_eq_true, if_false, h.agrees s hs]
          refine ⟨fun ⟨d, hd⟩ => ⟨d, ?_, hd⟩, fun ⟨d, _, hd⟩ => ⟨d, hd⟩⟩
          rintro rfl
          have hsr : s.username = r.username :=
            Option.some.inj (Option.some.inj (hd.symm.trans hv))
          exact hw (by rw [hsr])
    · exact absurd hf hE
  · -- nobody was logged in there, and no flag has changed
    rename_i hnobody
    have hc : ∀ u, ¬ w.sessions.logins.At c u := fun u hu => hnobody u hu
    have hat' : ∀ d u, w'.sessions.logins.At d u ↔ w.sessions.logins.At d u := by
      intro d u
      rw [hat]
      refine ⟨fun hd => hd.2, fun hd => ⟨?_, hd⟩⟩
      rintro rfl
      exact hc u hd
    refine ⟨hrouting, hcomplete, fun d u hd => ?_, fun s hs => ?_⟩
    · rw [hdb]
      exact h.stored d u ((hat' d u).mp hd)
    · simp only [hat']
      exact h.agrees s (hdb ▸ hs)

theorem Presence.scanned (h : Presence w) (hscan : Scanned E w w') (hE : ¬ E.dbFails) :
    Presence w' := by
  induction hscan with
  | done w => exact h
  | expired c u w w₁ w' hat hremoved hopen hrest ih =>
    have hrouting := h.routing.removed hremoved fun d hd _ => hopen ▸ hd
    exact ih (h.removed hremoved hE hrouting)

theorem Presence.registered {u pw : Str} {db : Database P} (h : Presence w)
    (hinsert : w.db.insertUser u pw = some db) (hrouting : SoundRouting { w with db := db }) :
    Presence { w with db := db } := by
  obtain ⟨hnew, husers⟩ := Database.users_of_insertUser hinsert
  refine ⟨hrouting, h.complete, fun c v hat => ?_, fun r hr => ?_⟩
  · obtain ⟨r, hr, hrv⟩ := h.stored c v hat
    refine ⟨r, ?_, hrv⟩
    show r ∈ db.users
    rw [husers]
    exact List.mem_append_left _ hr
  · rw [show ({ w with db := db } : World P).db.users = _ from husers] at hr
    rcases List.mem_append.mp hr with hr | hr
    · exact h.agrees r hr
    · rw [List.mem_singleton.mp hr]
      simp only [Bool.false_eq_true, false_iff, not_exists]
      -- a session under the new name would carry a stored name of its weight
      intro c hat
      obtain ⟨s, hs, hsu⟩ := h.stored c u hat
      exact hnew s hs (by rw [hsu])

/-- A change of names. Nobody is logged in to the account, and the new name was nobody's. -/
theorem Presence.renamed {newUsername : Str} {r : UserRow} {db : Database P} (h : Presence w)
    (hE : ¬ E.dbFails) (hr : r ∈ w.db.users)
    (hrename : Renamed E newUsername r.userId w.db db)
    (hfree : ∀ d u, w.sessions.logins.At d u → w.db.byName u ≠ some r)
    (hrouting : SoundRouting { w with db := db }) : Presence { w with db := db } := by
  obtain ⟨-, -, hnone, hupdate⟩ := hrename
  obtain ⟨-, husers⟩ := Database.users_of_updateUsername hupdate
  have hnone := Database.byName_eq_none.mp (hnone hE)
  refine ⟨hrouting, h.complete, fun c u hat => ?_, fun s' hs' => ?_⟩
  · obtain ⟨s, hs, hsu⟩ := h.stored c u hat
    have hsr : s.userId ≠ r.userId := by
      intro hid
      refine hfree c u hat ?_
      rw [← hsu, Database.eq_of_id hs hr hid]
      exact Database.byName_self hr
    refine ⟨s, ?_, hsu⟩
    show s ∈ db.users
    rw [husers]
    exact List.mem_map.mpr ⟨s, hs, if_neg hsr⟩
  · rw [show ({ w with db := db } : World P).db.users = _ from husers] at hs'
    obtain ⟨s, hs, rfl⟩ := List.mem_map.mp hs'
    unfold Database.renameRow
    by_cases hid : s.userId = r.userId
    · obtain rfl := Database.eq_of_id hs hr hid
      rw [if_pos rfl]
      -- nobody is logged in under the old name, nor under the new one
      constructor
      · intro hon
        obtain ⟨c, hat⟩ := (h.agrees s hs).mp hon
        exact absurd (Database.byName_self hs) (hfree c s.username hat)
      · rintro ⟨c, hat⟩
        obtain ⟨t, ht, htu⟩ := h.stored c newUsername hat
        exact absurd (by rw [htu]) (hnone t ht)
    · rw [if_neg hid]
      exact h.agrees s hs

theorem Presence.updated {request : Request} {r : UserRow} {db : Database P} (h : Presence w)
    (hE : ¬ E.dbFails) (hr : r ∈ w.db.users)
    (hupdate : UserUpdated E request r.userId w.db db)
    (hfree : UserManager.validateUsername request.newUsername = true →
      w.db.byName request.newUsername = none →
      ∀ d u, w.sessions.logins.At d u → w.db.byName u ≠ some r) :
    Presence { w with db := db } := by
  obtain ⟨db₁, hrename, hpassword⟩ := hupdate
  have h₁ : Presence { w with db := db₁ } := by
    rcases hrename with rfl | hrename
    · exact h
    · exact h.renamed hE hr hrename (hfree hrename.2.1 (hrename.2.2.1 hE))
        (h.routing.congr rfl rfl)
  rcases hpassword with rfl | rfl
  · exact h₁
  · refine ⟨h.routing.congr rfl rfl, h.complete, fun c u hat => ?_, fun s' hs' => ?_⟩
    · obtain ⟨s, hs, hsu⟩ := h₁.stored c u hat
      refine ⟨_, List.mem_map_of_mem hs, ?_⟩
      split <;> exact hsu
    · obtain ⟨s, hs, rfl⟩ := List.mem_map.mp hs'
      have := h₁.agrees s hs
      split <;> exact this

/-- A login that is accepted. Its account is online afterwards; who was online stays so, and whoever was
kicked was of the same account. -/
theorem Presence.loggedIn {c : Socket} {r : UserRow} {kicks : Bool} (h : Presence w)
    (hE : ¬ E.dbFails) (hr : r ∈ w.db.users)
    (hlogin : LoggedIn E c r.username r.userId kicks w w')
    (hfree : w.sessions.logins.Free c r.username) : Presence w' := by
  have hkicks : (∃ d, w.sessions.logins.At d r.username) → kicks = true := by
    intro hd
    rw [hlogin.kicks_iff hE, Database.byId_iff.mpr ⟨hr, rfl⟩]
    exact (h.agrees r hr).mpr hd
  have hself := Logins.at_signIn_self h.complete hfree hkicks
  obtain ⟨f, husers, hf⟩ := hlogin.db.users
  refine ⟨h.routing.loggedIn hlogin hfree, ?_, fun d u hd => ?_, fun s' hs' => ?_⟩
  · rw [hlogin.logins]
    exact h.complete.signIn hfree hkicks
  · rw [hlogin.logins] at hd
    have hstored : ∃ s ∈ w.db.users, s.username = u := by
      by_cases hu : u = r.username
      · exact ⟨r, hr, hu.symm⟩
      · exact h.stored d u ((Logins.at_signIn_other h.routing.sound hfree hu d).mp hd)
    obtain ⟨s, hs, hsu⟩ := hstored
    refine ⟨f s, ?_, (hf s).2.1.trans hsu⟩
    rw [husers]
    exact List.mem_map_of_mem hs
  · rw [husers] at hs'
    obtain ⟨s, hs, rfl⟩ := List.mem_map.mp hs'
    rw [hlogin.logins, (hf s).2.1]
    by_cases hid : s.userId = r.userId
    · -- the account that logs in: its flag is set, and the session is this one
      obtain rfl := Database.eq_of_id hs hr hid
      have hon : (f s).isOnline = true := by
        refine hlogin.isOnline hE (f s) ?_ (hf s).1
        rw [husers]
        exact List.mem_map_of_mem hs
      simp only [hself, hon, true_iff]
      exact ⟨c, rfl⟩
    · have hname : s.username ≠ r.username := by
        intro hsr
        exact hid (by rw [Database.eq_of_weight hs hr (by rw [hsr])])
      rw [(hf s).2.2.2 hid]
      simp only [Logins.at_signIn_other h.routing.sound hfree hname]
      exact h.agrees s hs

/-- **Flags and sessions stay together**, through every event but the three kinds: a rename of somebody
who is logged in, a login without a session, and a login under another spelling. -/
theorem Presence.next {e : Event} {served : Option (Request × Response)} (h : Presence w)
    (happens : Happens E w e served w') (hE : ¬ E.dbFails) (hcond : KeepsPresence w e) :
    Presence w' := by
  obtain ⟨hrename, hsessionless, hmisspelt⟩ := hcond
  have hrouting := h.routing.next happens hsessionless
  cases happens with
  | disabled => exact h
  | turnedAway c _ _ hdb hsessions => exact h.congr (by rw [hdb]) (by rw [hsessions]) hrouting
  | accepted c _ hc hdb hlogins => exact h.connected hc hdb hlogins hrouting
  | malformed c _ hquiet => exact h.congr (by rw [hquiet.db]) hquiet.logins hrouting
  | thrown c root _ _ w₁ _ _ hquiet hremoved =>
    have h₁ := h.congr (by rw [hquiet.db]) hquiet.logins
      (h.routing.congr hquiet.logins hquiet.openSockets)
    exact h₁.removed hremoved hE hrouting
  | hungUp c _ hremoved => exact h.removed hremoved hE hrouting
  | scanned _ hscan => exact h.scanned hscan hE
  | served c root garbage request response w₁ w₂ _ hc hrequest hquiet hserves hrest =>
    have h₁ : Presence w₁ := h.congr (by rw [hquiet.db]) hquiet.logins
      (h.routing.congr hquiet.logins hquiet.openSockets)
    refine Presence.congr (w := w₂) ?_ (by rw [hrest.db]) hrest.logins hrouting
    cases hserves with
    | refused => exact h₁
    | registered _ db _ _ hinsert => exact h₁.registered hinsert (h₁.routing.congr rfl rfl)
    | updated _ r db htype hr hmd5 hupdate =>
      -- the account that is renamed has nobody logged in to it
      refine h₁.updated hE (Database.byName_iff.mp hr).1 hupdate fun hvalid hnone d u hat hu => ?_
      rw [hquiet.logins] at hat
      rw [hquiet.db] at hr hnone hu
      exact hrename ⟨garbage, request, r, hrequest, htype, hr, hmd5, hvalid, hnone, d, u, hat, hu⟩
    | other _ _ _ hkeeps =>
      exact h₁.congr hkeeps.users (by rw [hkeeps.sessions])
        (h₁.routing.congr (by rw [hkeeps.sessions]) hkeeps.openSockets)
    | loggedIn r kicks w₃ _ htype haccepts hlogin hkeeps =>
      have hclient := requestOf_clientSocket hrequest
      -- what the condition says of logins, said of this one
      have hfor : LoginFor w request r (.request c (some root)) :=
        ⟨garbage, hrequest, htype, hquiet.db ▸ haccepts⟩
      have hspelt : r.username = request.username := by
        by_contra hne
        exact hmisspelt ⟨request, r, hfor, hne⟩
      have hsession : w.sessions.logins.login c ≠ none := by
        intro hnone
        refine hsessionless ⟨request, r, hfor, ?_⟩
        rw [hclient]
        exact SessionManager.login_eq_none.mp hnone
      have hfree : w₁.sessions.logins.Free c r.username := by
        rw [hspelt, hquiet.logins]
        exact free_of_requestOf hrequest hsession
      rw [hclient, ← hspelt] at hlogin
      have h₃ := h₁.loggedIn hE (Database.byName_iff.mp haccepts.2.1).1 hlogin hfree
      exact h₃.congr hkeeps.users (by rw [hkeeps.sessions])
        (h₃.routing.congr (by rw [hkeeps.sessions]) hkeeps.openSockets)

/-! ## Runs -/

/-- The environment lets every statement of the event succeed. -/
def NoDbFailure (e : Event × List Choice) : Prop := ∀ ch ∈ e.2, ch.dbOk = true

theorem Presence.start {db : Database P} (hoffline : ∀ r ∈ db.users, r.isOnline = false) :
    Presence (World.start db) := by
  refine ⟨.start db, Logins.Complete.empty, fun c u hat => ?_, fun r hr => ?_⟩
  · exact absurd hat (by simp [World.start, Logins.At, Logins.empty])
  · simp [hoffline r hr, World.start, Logins.At, Logins.empty]

theorem presence_run {db : Database P} (hoffline : ∀ r ∈ db.users, r.isOnline = false)
    {es : List (Event × List Choice)}
    (h : Effect.Meets next (fun w e => NoDbFailure e ∧ KeepsPresence w e.1) (World.start db) es) :
    Presence (Effect.runAll next (World.start db) es) := by
  refine Effect.runAll_inv (Presence.start hoffline) (fun w e hw hcond => ?_) h
  have happens := step_happens .reliable w e.1 e.2
    fun ch hch => Env.ok_reliable.mpr (hcond.1 ch hch)
  exact hw.next happens id hcond.2

/-- **The flags agree with the sessions in every run whose steps are none of the three kinds.** After
any such run a row of `users` is marked online exactly if somebody is logged in on some connection under
the name in that row. The events are of every kind, scans and exceptions included, and no statement
fails. -/
theorem onlineAgrees_run (db : Database P) (hoffline : ∀ r ∈ db.users, r.isOnline = false)
    (es : List (Event × List Choice))
    (h : Effect.Meets next (fun w e => NoDbFailure e ∧ KeepsPresence w e.1) (World.start db) es) :
    OnlineAgrees (Effect.runAll next (World.start db) es) := by
  refine (Effect.runAll_inv (Presence.start hoffline) (fun w e hw hcond => ?_) h).agrees
  have happens := step_happens .reliable w e.1 e.2
    fun ch hch => Env.ok_reliable.mpr (hcond.1 ch hch)
  exact hw.next happens id hcond.2

/-- Only a login can be a login. -/
theorem not_loginFor_of_type {c : Socket} {root node : Json} {type : Str} {request : Request}
    {r : UserRow} (hheader : header root = .ok (type, node)) (htype : type ≠ bytes "LOGIN") :
    ¬ LoginFor w request r (.request c (some root)) := by
  rintro ⟨garbage, hrequest, hlogin, _⟩
  exact htype ((requestOf_type hheader hrequest).symm.trans hlogin)

/-- A registration is none of the three kinds. -/
theorem keepsPresence_register {c : Socket} {root node : Json}
    (hheader : header root = .ok (bytes "REGISTER", node)) :
    KeepsPresence w (.request c (some root)) := by
  refine ⟨not_renamesLoggedIn_of_type hheader (by decide), ?_, ?_⟩
  · rintro ⟨request, r, hfor, _⟩
    exact not_loginFor_of_type hheader (by decide) hfor
  · rintro ⟨request, r, hfor, _⟩
    exact not_loginFor_of_type hheader (by decide) hfor

theorem keepsPresence_accept (c : Socket) : KeepsPresence w (.accept c) :=
  ⟨id, fun ⟨_, _, hfor, _⟩ => hfor, fun ⟨_, _, hfor, _⟩ => hfor⟩

/-- Alice registers and logs in. -/
theorem meets_aliceLogsIn : Effect.Meets next (fun w e => NoDbFailure e ∧ KeepsPresence w e.1)
    (World.start (Database.empty : Database asciiCi)) (aliceRegisters ++ [aliceLogsIn]) := by
  refine ⟨⟨by simp [NoDbFailure], keepsPresence_accept 1⟩,
    ⟨by simp [NoDbFailure], keepsPresence_register rfl⟩,
    ⟨by simp [NoDbFailure, aliceLogsIn], ?_, ?_, ?_⟩, trivial⟩
  · exact not_renamesLoggedIn_of_type rfl (by decide)
  · intro hsessionless
    obtain ⟨request, r, ⟨garbage, hrequest, _⟩, hnone⟩ := hsessionless
    rw [requestOf_clientSocket hrequest] at hnone
    exact absurd hnone (by decide)
  · intro hmisspelt
    obtain ⟨request, r, ⟨garbage, hrequest, _, haccepts⟩, hne⟩ := hmisspelt
    cases Except.ok.inj hrequest
    have hstored : ((Effect.runAll next (World.start (Database.empty : Database asciiCi))
        aliceRegisters).db.byName (bytes "alice")).map (·.username) = some (bytes "alice") := by
      decide
    have hbyName := congrArg (Option.map (·.username)) haccepts.2.1
    exact hne (Option.some.inj (hbyName.symm.trans hstored))

theorem onlineAgrees_login :
    OnlineAgrees (Effect.runAll next (World.start (Database.empty : Database asciiCi))
      (aliceRegisters ++ [aliceLogsIn])) := by
  apply onlineAgrees_run
  · simp [Database.empty]
  refine ⟨⟨by simp [NoDbFailure], keepsPresence_accept 1⟩,
    ⟨by simp [NoDbFailure], keepsPresence_register rfl⟩,
    ⟨by simp [NoDbFailure, aliceLogsIn], ?_, ?_, ?_⟩, trivial⟩
  · exact not_renamesLoggedIn_of_type rfl (by decide)
  · rintro ⟨request, r, ⟨garbage, hrequest, _⟩, hnone⟩
    rw [requestOf_clientSocket hrequest] at hnone
    exact absurd hnone (by decide)
  · rintro ⟨request, r, ⟨garbage, hrequest, _, haccepts⟩, hne⟩
    obtain rfl := Except.ok.inj hrequest
    have hstored : ((Effect.runAll next (World.start (Database.empty : Database asciiCi))
        aliceRegisters).db.byName (bytes "alice")).map (·.username) = some (bytes "alice") := by
      decide
    have hbyName := congrArg (Option.map (·.username)) haccepts.2.1
    exact hne (Option.some.inj (hbyName.symm.trans hstored))

def aliceRenamesHerself : List (Event × List Choice) :=
  aliceRegisters ++ [aliceLogsIn,
    (.request 1 (flatBody
      [("type", "UPDATE_USER"), ("verifyPassword", "secret"), ("newUsername", "alice2")]), [])]

def aliceRenamed : World asciiCi := Effect.runAll next (World.start Database.empty) aliceRenamesHerself

/-- Alice renames herself: her row is online, and no session has its name any more. -/
theorem not_onlineAgrees :
    ¬ ∀ es : List (Event × List Choice), (∀ e ∈ es, NoDbFailure e) →
      OnlineAgrees (Effect.runAll next (World.start (Database.empty : Database asciiCi)) es) := by
  intro h
  have hagrees : OnlineAgrees aliceRenamed := h aliceRenamesHerself (by
    simp [aliceRenamesHerself, aliceRegisters, aliceLogsIn, NoDbFailure])
  have husers : aliceRenamed.db.users.map (fun r => (r.username, r.isOnline)) =
      [(bytes "alice2", true)] := by decide
  have hkeys : aliceRenamed.sessions.cliSessionMap.keys = [1] := by decide
  have hlogin : aliceRenamed.sessions.loginAt 1 = some (bytes "alice") := by decide
  obtain ⟨r, hr, hvals⟩ : ∃ r ∈ aliceRenamed.db.users,
      (r.username, r.isOnline) = (bytes "alice2", true) := by
    refine List.mem_map.mp ?_
    rw [husers]
    exact List.mem_singleton_self _
  obtain ⟨hname, hon⟩ := Prod.mk.inj hvals
  obtain ⟨c, hat⟩ := (hagrees r hr).mp hon
  have hc := SessionManager.mem_keys_of_at hat
  rw [hkeys, List.mem_singleton] at hc
  rw [hc, hname] at hat
  exact absurd (hlogin.symm.trans (SessionManager.at_iff.mp hat).1) (by decide)

end LiteChat
