import LiteChat.Proof.Presence

/-!
# One session for each account

The database compares names by weight and the session manager by bytes. A login looks the online
flag up in the one and the session to kick in the other, so what decides is whether the two agree on
the account: if everybody who logs in to an account that has a session spells its name as that
session does, the kick finds the session, and there is never a second one (`exclusive_run`).

The routes know a session under one spelling only, in any case. So that it is found under every spelling
of its name the name must have no other, and where only such names log in the first condition is met of
itself (`oneSession_run`).
-/

namespace LiteChat

open LiteChat.Action Spec Server

variable {P : Platform} {E : Env} {w w' w'' : World P}

/-- No two sessions have names that select the same row. -/
def OneSession (w : World P) : Prop :=
  ∀ c d u v r, w.sessions.logins.At c u → w.sessions.logins.At d v →
    w.db.byName u = some r → w.db.byName v = some r → c = d

/-- An accepted login ends every other session of the account: it is nobody's, and is shut down in the
same event. -/
def EndsOthers (w : World P) (e : Event) (w' : World P) : Prop :=
  ∀ request r d v, LoginFor w request r e → w.sessions.logins.At d v → w.db.byName v = some r →
    d ≠ request.clientSocket → (∀ u, ¬ w'.sessions.logins.At d u) ∧ Said (.shutdown d) w w'

/-- The session of a connection is found under every spelling of its name. -/
def FoundUnderEverySpelling (w : World P) (c : Socket) (u : Str) : Prop :=
  ∀ v, P.weight v = P.weight u → w.sessions.getSessionByUsername v = w.sessions.getSession c

/-- The database takes no other name for this one. -/
def OneSpelling (P : Platform) (u : Str) : Prop := ∀ v, P.weight v = P.weight u → v = u

/-- A request that may change a name. -/
def ChangesUser (w : World P) : Event → Prop
  | .request c (some root) => ∃ garbage request,
      requestOf w.sessions.logins c garbage root = .ok request ∧
      request.type = bytes "UPDATE_USER"
  | _ => False

/-- A login to an account with a session, under another spelling than the session's. -/
def RespeltLogin (w : World P) (e : Event) : Prop :=
  ∃ request r d v, LoginFor w request r e ∧ w.sessions.logins.At d v ∧ w.db.byName v = some r ∧
    v ≠ request.username

/-- A login under a name that has another spelling. -/
def SpellableLogin (w : World P) (e : Event) : Prop :=
  ∃ request r, LoginFor w request r e ∧ ¬ OneSpelling P request.username

structure Exclusive (w : World P) : Prop where
  routing : Attached w
  complete : w.sessions.logins.Complete
  online : ∀ c u, w.sessions.logins.At c u → ∃ r, w.db.byName u = some r ∧ r.isOnline = true
  one : OneSession w

/-! ## One step -/

theorem Exclusive.congr (h : Exclusive w) (husers : ∀ u, w'.db.byName u = w.db.byName u)
    (hlogins : w'.sessions.logins = w.sessions.logins) (hrouting : Attached w') :
    Exclusive w' := by
  refine ⟨hrouting, hlogins ▸ h.complete, fun c u hat => ?_, fun c d u v r hc hd hu hv => ?_⟩
  · rw [husers]
    exact h.online c u (hlogins ▸ hat)
  · rw [husers] at hu hv
    exact h.one c d u v r (hlogins ▸ hc) (hlogins ▸ hd) hu hv

/-- Names may come in, as long as those that sessions carry go on meaning what they meant. -/
theorem Exclusive.of_keeps (h : Exclusive w)
    (husers : ∀ u r, w.db.byName u = some r → w'.db.byName u = some r)
    (hlogins : ∀ c u, w'.sessions.logins.At c u → w.sessions.logins.At c u)
    (hcomplete : w'.sessions.logins.Complete) (hrouting : Attached w') : Exclusive w' := by
  refine ⟨hrouting, hcomplete, fun c u hat => ?_, fun c d u v r hc hd hu hv => ?_⟩
  · obtain ⟨r, hr, hon⟩ := h.online c u (hlogins c u hat)
    exact ⟨r, husers u r hr, hon⟩
  · obtain ⟨r₁, hr₁, _⟩ := h.online c u (hlogins c u hc)
    obtain ⟨r₂, hr₂, _⟩ := h.online d v (hlogins d v hd)
    have h₁ : r₁ = r := Option.some.inj ((husers u r₁ hr₁).symm.trans hu)
    have h₂ : r₂ = r := Option.some.inj ((husers v r₂ hr₂).symm.trans hv)
    exact h.one c d u v r (hlogins c u hc) (hlogins d v hd) (h₁ ▸ hr₁) (h₂ ▸ hr₂)

/-- A session goes, with its route and the flag of its account. Nobody else was logged in to that
account, so all others have their flags as before. -/
theorem Exclusive.removed {c : Socket} (h : Exclusive w) (hr : Removed E c w w')
    (hrouting : Attached w') : Exclusive w' := by
  have hat : ∀ d u, w'.sessions.logins.At d u ↔ d ≠ c ∧ w.sessions.logins.At d u := by
    intro d u
    rw [hr.logins]
    exact Logins.at_drop _ c d u
  obtain ⟨f, hid, hname, hdb, _⟩ := hr.db.mapUsers
  refine ⟨hrouting, hr.logins ▸ h.complete.drop c, fun d u hd => ?_, fun d d' u v r hd hd' hu hv => ?_⟩
  · obtain ⟨hdc, hd⟩ := (hat d u).mp hd
    obtain ⟨r, hru, hon⟩ := h.online d u hd
    have hsame : w'.db = w.db ∨ ∃ v, w.sessions.logins.At c v ∧
        w'.db = w.db.setOnlineWhere (fun s => P.weight s.username = P.weight v) false := by
      have hsigned := hr.db
      unfold SignedOff at hsigned
      split at hsigned
      · rename_i v hv
        exact hsigned.elim (fun h => .inr ⟨v, hv, h⟩) fun h => .inl h.2
      · exact .inl hsigned
    rcases hsame with hsame | ⟨v, hv, hsame⟩
    · exact ⟨r, hsame ▸ hru, hon⟩
    · -- the row whose flag goes off is the row of the session that goes, not of this one
      obtain ⟨s, hs, _⟩ := h.online c v hv
      have hsr : P.weight r.username ≠ P.weight v := by
        intro hw
        refine hdc (h.one d c u v r hd hv hru ?_)
        exact Database.byName_iff.mpr ⟨(Database.byName_iff.mp hru).1, hw⟩
      refine ⟨r, ?_, hon⟩
      rw [hsame]
      unfold Database.setOnlineWhere
      rw [Database.byName_mapUsers, hru, Option.map_some, if_neg (by simpa using hsr)]
  · obtain ⟨_, hd⟩ := (hat d u).mp hd
    obtain ⟨_, hd'⟩ := (hat d' v).mp hd'
    rw [hdb, Database.byName_mapUsers] at hu hv
    obtain ⟨r₁, hr₁, hf₁⟩ := Option.map_eq_some_iff.mp hu
    obtain ⟨r₂, hr₂, hf₂⟩ := Option.map_eq_some_iff.mp hv
    have h₁₂ : r₁ = r₂ := by
      refine Database.eq_of_id (Database.byName_iff.mp hr₁).1 (Database.byName_iff.mp hr₂).1 ?_
      rw [← hid r₁, ← hid r₂, hf₁, hf₂]
    exact h.one d d' u v r₁ hd hd' hr₁ (h₁₂ ▸ hr₂)

/-- A session under the name that logs in is kicked. -/
theorem Exclusive.kicks {c d : Socket} {u : Str} {r : UserRow} {kicks : Bool}
    (h : Exclusive w) (hE : ¬ E.dbFails) (hr : w.db.byName u = some r)
    (hlogin : LoggedIn E c u r.userId kicks w w') (hd : w.sessions.logins.At d u) :
    kicks = true := by
  obtain ⟨s, hs, hon⟩ := h.online d u hd
  rw [hlogin.kicks_iff hE, Database.byId_of_byName hr]
  exact Option.some.inj (hr.symm.trans hs) ▸ hon

/-- A login that is accepted. If a session of the account was there its name is spelled as this one, so
it is the one that the name was routed to, and it has been kicked. -/
theorem Exclusive.loggedIn {c : Socket} {u : Str} {r : UserRow} {kicks : Bool} (h : Exclusive w)
    (hE : ¬ E.dbFails) (hr : w.db.byName u = some r)
    (hlogin : LoggedIn E c u r.userId kicks w w') (hfree : w.sessions.logins.Free c u)
    (hspelt : ∀ d v, w.sessions.logins.At d v → w.db.byName v = some r → v = u)
    (hrouting : Attached w') : Exclusive w' := by
  have hkicks : (∃ d, w.sessions.logins.At d u) → kicks = true :=
    fun ⟨d, hd⟩ => h.kicks hE hr hlogin hd
  have hat : ∀ d v, w'.sessions.logins.At d v →
      if d = c then v = u else w.sessions.logins.At d v ∧
        (kicks = true → w.sessions.logins.route u ≠ some d) := by
    intro d v hd
    rw [hlogin.logins] at hd
    exact (Logins.at_signIn hfree.ne_none).mp hd
  obtain ⟨f, husers, hf⟩ := hlogin.db.users
  have hbyName : ∀ v, w'.db.byName v = (w.db.byName v).map f :=
    Database.byName_of_map husers fun r => (hf r).2.1
  have hon : (f r).isOnline = true := by
    refine hlogin.isOnline hE (f r) ?_ (hf r).1
    rw [husers]
    exact List.mem_map_of_mem (Database.byName_iff.mp hr).1
  -- a session elsewhere whose name selects `r` had the name that logs in, and was kicked
  have elsewhere : ∀ d v s, d ≠ c → w'.sessions.logins.At d v → w.db.byName v = some s → s ≠ r := by
    rintro d v s hdc hd hs rfl
    obtain ⟨hd, hroute⟩ := (if_neg hdc ▸ hat d v hd :)
    obtain rfl := hspelt d v hd hs
    exact hroute (hkicks ⟨d, hd⟩) (h.complete v d hd)
  refine ⟨hrouting, ?_, fun d v hd => ?_, fun d d' v v' s hd hd' hv hv' => ?_⟩
  · rw [hlogin.logins]
    exact h.complete.signIn hfree hkicks
  · by_cases hdc : d = c
    · have hvu : v = u := (if_pos hdc ▸ hat d v hd :)
      exact ⟨f r, by rw [hbyName, hvu, hr]; rfl, hon⟩
    · obtain ⟨hd, _⟩ := (if_neg hdc ▸ hat d v hd :)
      obtain ⟨s, hs, hson⟩ := h.online d v hd
      by_cases hid : s.userId = r.userId
      · have hsr := Database.eq_of_id (Database.byName_iff.mp hs).1 (Database.byName_iff.mp hr).1 hid
        exact ⟨f s, by rw [hbyName, hs]; rfl, hsr ▸ hon⟩
      · exact ⟨f s, by rw [hbyName, hs]; rfl, by rw [(hf s).2.2.2 hid]; exact hson⟩
  · rw [hbyName] at hv hv'
    obtain ⟨s₁, hs₁, hf₁⟩ := Option.map_eq_some_iff.mp hv
    obtain ⟨s₂, hs₂, hf₂⟩ := Option.map_eq_some_iff.mp hv'
    have hs : s₁ = s₂ := by
      refine Database.eq_of_id (Database.byName_iff.mp hs₁).1 (Database.byName_iff.mp hs₂).1 ?_
      rw [← (hf s₁).1, ← (hf s₂).1, hf₁, hf₂]
    subst hs
    have hself : ∀ v, w'.sessions.logins.At c v → w.db.byName v = some r := by
      intro v hv
      have hvu : v = u := (if_pos rfl ▸ hat c v hv :)
      rw [hvu, hr]
    -- two sessions of one account: one of them would be elsewhere and not kicked
    by_cases hdc : d = c <;> by_cases hdc' : d' = c
    · rw [hdc, hdc']
    · subst hdc
      exact absurd (Option.some.inj (hs₁.symm.trans (hself v hd))) (elsewhere d' v' s₁ hdc' hd' hs₂)
    · subst hdc'
      exact absurd (Option.some.inj (hs₂.symm.trans (hself v' hd'))) (elsewhere d v s₁ hdc hd hs₁)
    · obtain ⟨hd, _⟩ := (if_neg hdc ▸ hat d v hd :)
      obtain ⟨hd', _⟩ := (if_neg hdc' ▸ hat d' v' hd' :)
      exact h.one d d' v v' s₁ hd hd' hs₁ hs₂

/-- The steps that keep accounts and sessions one to one. -/
def KeepsExclusive (w : World P) (e : Event) : Prop :=
  ¬ ChangesUser w e ∧ e ≠ .heartbeatScan ∧ ¬ RespeltLogin w e

/-- One event, of any kind that the condition admits: no change of user data, no scan, and no login
under another spelling of a name that is logged in. -/
theorem Exclusive.next {e : Event} {served : Option (Request × Response)} (h : Exclusive w)
    (happens : Happens E w e served w') (hE : ¬ E.dbFails) (hcond : KeepsExclusive w e) :
    Exclusive w' := by
  obtain ⟨hchange, hscan, hrespelt⟩ := hcond
  have hrouting := h.routing.next happens hscan
  cases happens with
  | disabled => exact h
  | turnedAway c _ _ hdb hsessions =>
    exact h.congr (fun _ => by rw [hdb]) (by rw [hsessions]) hrouting
  | accepted c _ hc hdb hlogins =>
    refine h.of_keeps (fun u r hu => by rw [hdb]; exact hu) (fun d u hat => ?_) ?_ hrouting
    · rw [hlogins, Logins.at_connect] at hat
      exact hat.2
    · rw [hlogins]
      exact h.complete.connect c
  | malformed c _ hquiet => exact h.congr (fun _ => by rw [hquiet.db]) hquiet.logins hrouting
  | thrown c root _ _ w₁ _ _ hquiet hremoved =>
    have h₁ := h.congr (fun _ => by rw [hquiet.db]) hquiet.logins
      (h.routing.congr hquiet.logins hquiet.openSockets)
    exact h₁.removed hremoved hrouting
  | hungUp c _ hremoved => exact h.removed hremoved hrouting
  | scanned => exact absurd rfl hscan
  | served c root garbage request response w₁ w₂ _ hc hrequest hquiet hserves hrest =>
    have h₁ : Exclusive w₁ := h.congr (fun _ => by rw [hquiet.db]) hquiet.logins
      (h.routing.congr hquiet.logins hquiet.openSockets)
    refine Exclusive.congr (w := w₂) ?_ (fun _ => by rw [hrest.db]) hrest.logins hrouting
    have hrouting₂ : Attached w₂ := hrouting.congr hrest.logins.symm hrest.openSockets.symm
    cases hserves with
    | refused => exact h₁
    -- the new account has a name that selects no other row
    | registered _ db _ _ hinsert =>
      exact h₁.of_keeps (fun u r hu => Database.byName_insertUser hinsert hu) (fun _ _ => id)
        h₁.complete hrouting₂
    | updated _ r db htype => exact absurd ⟨garbage, request, hrequest, htype⟩ hchange
    | other _ _ _ hkeeps => exact h₁.congr hkeeps.byName (by rw [hkeeps.sessions]) hrouting₂
    | loggedIn r kicks w₃ _ htype haccepts hlogin hkeeps =>
      have hclient := requestOf_clientSocket hrequest
      have hfor : LoginFor w request r (.request c (some root)) :=
        ⟨garbage, hrequest, htype, hquiet.db ▸ haccepts⟩
      have hfree : w₁.sessions.logins.Free c request.username := by
        rw [hquiet.logins]
        exact free_of_requestOf hrequest (h.routing.hasSession c hc)
      have hrouting₃ : Attached w₃ :=
        hrouting₂.congr (by rw [hkeeps.sessions]) hkeeps.openSockets.symm
      rw [hclient] at hlogin
      refine (h₁.loggedIn hE haccepts.2.1 hlogin hfree (fun d v hd hv => ?_) hrouting₃).congr
        hkeeps.byName (by rw [hkeeps.sessions]) hrouting₂
      rw [hquiet.logins] at hd
      rw [hquiet.db] at hv
      by_contra hne
      exact hrespelt ⟨request, r, d, v, hfor, hd, hv, hne⟩

/-- **An accepted login ends the other session of the account.** -/
theorem Exclusive.endsOthers {e : Event} {served : Option (Request × Response)} (h : Exclusive w)
    (happens : Happens E w e served w') (hE : ¬ E.dbFails) (hcond : KeepsExclusive w e)
    (henabled : e.Enabled P w) : EndsOthers w e w' := by
  obtain ⟨_, _, hrespelt⟩ := hcond
  intro request r d v hfor hd hv hne
  have hsession : w.sessions.logins.login request.clientSocket ≠ none := fun hnone =>
    h.routing.not_sessionlessLogin henabled ⟨request, r, hfor, SessionManager.login_eq_none.mp hnone⟩
  have hspelt : v = request.username := by
    by_contra hvu
    exact hrespelt ⟨request, r, d, v, hfor, hd, hv, hvu⟩
  cases happens with
  | disabled _ he => exact absurd henabled he
  | turnedAway => exact absurd hfor id
  | accepted => exact absurd hfor id
  | malformed => exact absurd hfor id
  | hungUp => exact absurd hfor id
  | scanned => exact absurd hfor id
  | thrown c root garbage e _ _ herror =>
    obtain ⟨g, hg, _⟩ := hfor
    obtain ⟨n, hn⟩ := requestOf_garbage hg garbage
    exact absurd (hn.symm.trans herror) (by simp)
  | served c root garbage request' response w₁ w₂ _ hc hrequest hquiet hserves hrest =>
    obtain ⟨g, hg, hgtype, hgaccepts⟩ := hfor
    obtain ⟨n, hn⟩ := requestOf_garbage hg garbage
    obtain rfl := Except.ok.inj (hn.symm.trans hrequest)
    have haccepts : Accepts w₁.db { request with count := n } r := hquiet.db ▸ hgaccepts
    cases hserves with
    -- the login would have been accepted, so it was not refused
    | refused _ hlogin => exact absurd haccepts ((hlogin hgtype).2 hE r)
    | registered _ _ htype => exact absurd (hgtype.symm.trans htype) (by decide)
    | updated _ _ _ htype => exact absurd (hgtype.symm.trans htype) (by decide)
    | other _ _ hlogin => exact absurd hgtype hlogin
    | loggedIn r' kicks w₃ _ htype haccepts' hlogin hkeeps =>
      obtain rfl := Option.some.inj (haccepts.2.1.symm.trans haccepts'.2.1)
      have h₁ : Exclusive w₁ := h.congr (fun _ => by rw [hquiet.db]) hquiet.logins
        (h.routing.congr hquiet.logins hquiet.openSockets)
      have hd₁ : w₁.sessions.logins.At d request.username := by
        rw [hquiet.logins, ← hspelt]
        exact hd
      have hkicks : kicks = true := h₁.kicks hE haccepts.2.1 hlogin hd₁
      -- the other session is the one that the name is routed to
      have hroute := h₁.complete _ d hd₁
      constructor
      · intro u hu
        rw [hrest.logins, hkeeps.sessions, hlogin.logins,
          Logins.at_signIn (by rw [hquiet.logins]; exact hsession), if_neg hne] at hu
        exact hu.2 hkicks hroute
      · have hlogged : w₁.sessions.logins.login d ≠ none := by
          rw [show w₁.sessions.logins.login d = some (some request.username) from hd₁]
          simp
        exact (hlogin.shutdown hkicks d hroute hlogged).around hquiet.trace
          (hkeeps.trace.trans hrest.trace)

/-! ## Spellings -/

/-- A session is found under every spelling of its name exactly if there is only one. -/
theorem Exclusive.foundUnderEverySpelling_iff (h : Exclusive w) {c : Socket} {u : Str}
    (hat : w.sessions.logins.At c u) :
    FoundUnderEverySpelling w c u ↔ OneSpelling P u := by
  have hfound : w.sessions.getSessionByUsername u = w.sessions.getSession c :=
    SessionManager.getSessionByUsername_of_route (h.complete u c hat)
  constructor
  · intro hall v hv
    have hsession : w.sessions.getSession c ≠ none := by
      rw [Ne, ← SessionManager.login_eq_none, show w.sessions.logins.login c = _ from hat]
      simp
    obtain ⟨p, hp⟩ := Option.ne_none_iff_exists'.mp hsession
    have hvp : w.sessions.getSessionByUsername v = some p := (hall v hv).trans hp
    obtain ⟨d, hr, hd⟩ := SessionManager.getSession_of_byUsername hvp
    have hdc : d = c := w.sessions.ptr_inj hd hp
    have hvat : w.sessions.logins.At c v := hdc ▸ h.routing.sound v d hr
    exact Option.some.inj (Option.some.inj (hvat.symm.trans hat))
  · intro hone v hv
    rw [hone v hv]
    exact hfound

/-! ## Runs -/

theorem Exclusive.start (db : Database P) : Exclusive (World.start db) := by
  have hat : ∀ c u, ¬ (World.start db).sessions.logins.At c u := by
    intro c u hat
    exact absurd hat (by simp [World.start, Logins.At, Logins.empty])
  exact ⟨.start db, Logins.Complete.empty, fun c u h => absurd h (hat c u),
    fun c _ u _ _ h => absurd h (hat c u)⟩

theorem happens_reliable (w : World P) (e : Event × List Choice) (h : NoDbFailure e) :
    Happens .reliable w e.1 (step w e.1 e.2).1 (step w e.1 e.2).2 :=
  step_happens .reliable w e.1 e.2 fun ch hch => Env.ok_reliable.mpr (h ch hch)

/-- In every run without renames and scans in which nobody logs in to an account that has a session
under another spelling there is one session for each account, and the next such login ends the
account's other session. A session is found under every spelling of its name exactly if there is one. -/
theorem exclusive_run (db : Database P) (es : List (Event × List Choice))
    (h : Effect.Meets next (fun w e => NoDbFailure e ∧ KeepsExclusive w e.1) (World.start db) es) :
    let w := Effect.runAll next (World.start db) es
    OneSession w ∧
      (∀ e, NoDbFailure e → KeepsExclusive w e.1 → e.1.Enabled P w →
        EndsOthers w e.1 (next w e)) ∧
      ∀ c u, w.sessions.logins.At c u → (FoundUnderEverySpelling w c u ↔ OneSpelling P u) := by
  have hex := Effect.runAll_inv (Exclusive.start db)
    (fun w e hw hcond => hw.next (happens_reliable w e hcond.1) id hcond.2) h
  refine ⟨hex.one, fun e hdb hcond henabled => ?_, fun c u hat => ?_⟩
  · exact hex.endsOthers (happens_reliable _ e hdb) id hcond henabled
  · exact hex.foundUnderEverySpelling_iff hat

/-- The steps that keep accounts, sessions and spellings one to one: nobody is renamed, no session is
taken by a scan, and whoever logs in has a name of one spelling. -/
def KeepsOneSession (w : World P) (e : Event) : Prop :=
  ¬ ChangesUser w e ∧ e ≠ .heartbeatScan ∧ ¬ SpellableLogin w e

/-- A name of one spelling has been spelt like that before. -/
theorem KeepsOneSession.keepsExclusive {e : Event} (h : KeepsOneSession w e) : KeepsExclusive w e := by
  obtain ⟨hchange, hscan, hspellable⟩ := h
  refine ⟨hchange, hscan, ?_⟩
  rintro ⟨request, r, d, v, hfor, _, hv, hne⟩
  have haccepts : w.db.byName request.username = some r := by
    cases e with
    | request c parsed => cases parsed with
      | none => exact absurd hfor id
      | some root =>
        obtain ⟨_, _, _, haccepts⟩ := hfor
        exact haccepts.2.1
    | accept | hangup | heartbeatScan => exact absurd hfor id
  refine hspellable ⟨request, r, hfor, fun hone => hne (hone v ?_)⟩
  rw [← (Database.byName_iff.mp hv).2, ← (Database.byName_iff.mp haccepts).2]

/-- Whoever has a session has had it, or has just logged in: no other event gives a session a name. -/
theorem Exclusive.signedIn {e : Event} {served : Option (Request × Response)} (h : Exclusive w)
    (happens : Happens E w e served w') (hscan : e ≠ .heartbeatScan) {d : Socket} {u : Str}
    (hat : w'.sessions.logins.At d u) :
    w.sessions.logins.At d u ∨ ∃ request r, LoginFor w request r e ∧ u = request.username := by
  have dropped : ∀ {w₁ : World P} {c : Socket}, w₁.sessions.logins = w.sessions.logins →
      Removed E c w₁ w' → w.sessions.logins.At d u := by
    intro w₁ c hsame hremoved
    rw [hremoved.logins, Logins.at_drop, hsame] at hat
    exact hat.2
  cases happens with
  | disabled => exact .inl hat
  | turnedAway c _ _ hdb hsessions => exact .inl (hsessions ▸ hat)
  | accepted c _ hc hdb hlogins =>
    rw [hlogins, Logins.at_connect] at hat
    exact .inl hat.2
  | malformed c _ hquiet => exact .inl (hquiet.logins ▸ hat)
  | thrown c root _ _ w₁ _ _ hquiet hremoved => exact .inl (dropped hquiet.logins hremoved)
  | hungUp c _ hremoved => exact .inl (dropped rfl hremoved)
  | scanned => exact absurd rfl hscan
  | served c root garbage request response w₁ w₂ _ hc hrequest hquiet hserves hrest =>
    rw [hrest.logins] at hat
    cases hserves with
    | refused | registered | updated => exact .inl (hquiet.logins ▸ hat)
    | other _ _ _ hkeeps => exact .inl (hquiet.logins ▸ hkeeps.sessions ▸ hat)
    | loggedIn r kicks w₃ _ htype haccepts hlogin hkeeps =>
      have hclient := requestOf_clientSocket hrequest
      have hfree := free_of_requestOf hrequest (h.routing.hasSession c hc)
      -- the connection has a session, so the login gives a name to nobody else
      have hhere : w₁.sessions.logins.login request.clientSocket ≠ none := by
        rw [hquiet.logins, hclient]
        exact hfree.ne_none
      rw [hkeeps.sessions, hlogin.logins, Logins.at_signIn hhere] at hat
      split at hat
      · exact .inr ⟨request, r, ⟨garbage, hrequest, htype, hquiet.db ▸ haccepts⟩, hat⟩
      · exact .inl (hquiet.logins ▸ hat.1)

/-- **One session for each account, under every spelling of its name, in every run without renames and
scans in which only names of one spelling log in.** And the next login, of which it is enough that it
spells the name of a session as the session does, ends the account's other session. -/
theorem oneSession_run (db : Database P) (es : List (Event × List Choice))
    (h : Effect.Meets next (fun w e => NoDbFailure e ∧ KeepsOneSession w e.1) (World.start db) es) :
    let w := Effect.runAll next (World.start db) es
    OneSession w ∧
      (∀ e, NoDbFailure e → KeepsExclusive w e.1 → e.1.Enabled P w →
        EndsOthers w e.1 (next w e)) ∧
      ∀ c u, w.sessions.logins.At c u → FoundUnderEverySpelling w c u := by
  let Inv := fun w : World P => Exclusive w ∧ ∀ c u, w.sessions.logins.At c u → OneSpelling P u
  have hstart : Inv (World.start db) := by
    refine ⟨.start db, fun c u hat => ?_⟩
    exact absurd hat (by simp [World.start, Logins.At, Logins.empty])
  have hstep : ∀ w e, Inv w → NoDbFailure e ∧ KeepsOneSession w e.1 → Inv (next w e) := by
    rintro w e ⟨hex, hnames⟩ ⟨hdb, hcond⟩
    have happens := happens_reliable w e hdb
    refine ⟨hex.next happens id hcond.keepsExclusive, fun c u hat => ?_⟩
    rcases hex.signedIn happens hcond.2.1 hat with hat | ⟨request, r, hfor, rfl⟩
    · exact hnames c u hat
    · exact not_not.mp fun hmany => hcond.2.2 ⟨request, r, hfor, hmany⟩
  obtain ⟨hex, hnames⟩ : Inv _ := Effect.runAll_inv hstart hstep h
  refine ⟨hex.one, fun e hdb hcond henabled => ?_, fun c u hat => ?_⟩
  · exact hex.endsOthers (happens_reliable _ e hdb) id hcond henabled
  · exact (hex.foundUnderEverySpelling_iff hat).mpr (hnames c u hat)

theorem not_changesUser_of_type {c : Socket} {root node : Json} {type : Str}
    (hheader : header root = .ok (type, node)) (htype : type ≠ bytes "UPDATE_USER") :
    ¬ ChangesUser w (.request c (some root)) := by
  rintro ⟨garbage, request, hrequest, hupdate⟩
  exact htype ((requestOf_type hheader hrequest).symm.trans hupdate)

theorem keepsOneSession_of_type {c : Socket} {root node : Json} {type : Str}
    (hheader : header root = .ok (type, node)) (hupdate : type ≠ bytes "UPDATE_USER")
    (hlogin : type ≠ bytes "LOGIN") : KeepsOneSession w (.request c (some root)) := by
  refine ⟨not_changesUser_of_type hheader hupdate, nofun, ?_⟩
  rintro ⟨request, r, hfor, _⟩
  exact not_loginFor_of_type hheader hlogin hfor

theorem keepsOneSession_accept (c : Socket) : KeepsOneSession w (.accept c) :=
  ⟨id, nofun, fun ⟨_, _, hfor, _⟩ => hfor⟩

/-- ASCII letters compare case-insensitively, and nothing else is folded. -/
def caseFolding : Platform := { asciiCi with weight := fun u => u.map asciiLower }

/-- A name without letters has one spelling. -/
theorem oneSpelling_digits : OneSpelling caseFolding (bytes "007") := by
  have digit : ∀ b d : UInt8, d = 48 ∨ d = 55 → asciiLower b = d → b = d := by
    intro b d hd h
    unfold asciiLower at h
    split at h
    · grind
    · exact h
  intro v hv
  change v.map asciiLower = [48, 48, 55] at hv
  obtain ⟨b₁, v₁, rfl, h₁, hv₁⟩ := List.map_eq_cons_iff.mp hv
  obtain ⟨b₂, v₂, rfl, h₂, hv₂⟩ := List.map_eq_cons_iff.mp hv₁
  obtain ⟨b₃, v₃, rfl, h₃, hv₃⟩ := List.map_eq_cons_iff.mp hv₂
  obtain rfl := List.map_eq_nil_iff.mp hv₃
  rw [digit b₁ 48 (.inl rfl) h₁, digit b₂ 48 (.inl rfl) h₂, digit b₃ 55 (.inr rfl) h₃]
  rfl

def digitsLogIn (c : Socket) : Event × List Choice :=
  (.request c (flatBody [("type", "LOGIN"), ("username", "007"), ("password", "secret")]), [])

/-- A user without letters in his name registers, logs in, and connects again. -/
def digitsLoggedIn : List (Event × List Choice) :=
  [(.accept 1, []),
   (.request 1 (flatBody [("type", "REGISTER"), ("username", "007"), ("password", "secret")]), []),
   digitsLogIn 1, (.accept 2, [])]

def digitsThere (es : List (Event × List Choice)) : World caseFolding :=
  Effect.runAll next (World.start Database.empty) (digitsLoggedIn ++ es)

theorem meets_digitsLoggedIn : Effect.Meets next (fun w e => NoDbFailure e ∧ KeepsOneSession w e.1)
    (World.start (Database.empty : Database caseFolding)) (digitsLoggedIn ++ [digitsLogIn 2]) := by
  refine ⟨⟨by simp [NoDbFailure], keepsOneSession_accept 1⟩,
    ⟨by simp [NoDbFailure], keepsOneSession_of_type rfl (by decide) (by decide)⟩,
    ⟨by simp [NoDbFailure, digitsLogIn], not_changesUser_of_type rfl (by decide), nofun, ?_⟩,
    ⟨by simp [NoDbFailure], keepsOneSession_accept 2⟩,
    ⟨by simp [NoDbFailure, digitsLogIn], not_changesUser_of_type rfl (by decide), nofun, ?_⟩, trivial⟩
  all_goals
    rintro ⟨request, r, ⟨garbage, hrequest, _⟩, hmany⟩
    obtain rfl := Except.ok.inj hrequest
    exact hmany oneSpelling_digits

/-- He logs in on the second connection, and the first is kicked. -/
theorem oneSession_kick :
    OneSession (digitsThere [digitsLogIn 2]) ∧
    FoundUnderEverySpelling (digitsThere [digitsLogIn 2]) 2 (bytes "007") ∧
    (digitsThere []).sessions.loginAt 1 = some (bytes "007") ∧
    (∀ u, ¬ (digitsThere [digitsLogIn 2]).sessions.logins.At 1 u) ∧
    Said (.shutdown 1) (digitsThere []) (digitsThere [digitsLogIn 2]) := by
  have hmeets := meets_digitsLoggedIn
  obtain ⟨hone, _, hfound⟩ := oneSession_run Database.empty _ hmeets
  obtain ⟨_, hends, _⟩ := oneSession_run Database.empty digitsLoggedIn (hmeets.take 4)
  have hfirst : (digitsThere []).sessions.loginAt 1 = some (bytes "007") := by decide
  have hsecond : (digitsThere [digitsLogIn 2]).sessions.loginAt 2 = some (bytes "007") := by decide
  have hrow : ((digitsThere []).db.byName (bytes "007")).map (·.passwordHash) =
      some (caseFolding.md5 (bytes "secret")) := by decide
  obtain ⟨r, hr, hhash⟩ := Option.map_eq_some_iff.mp hrow
  have hfor : LoginFor (digitsThere []) { aliceLogin 2 with username := bytes "007" } r
      (digitsLogIn 2).1 := ⟨0, rfl, rfl, by decide, hr, hhash.symm⟩
  have hcond : KeepsOneSession (digitsThere []) (digitsLogIn 2).1 := hmeets.2.2.2.2.1.2
  have hkick := hends (digitsLogIn 2) (by simp [NoDbFailure, digitsLogIn]) hcond.keepsExclusive (by decide)
    _ r 1 (bytes "007") hfor (SessionManager.at_iff.mpr ⟨hfirst, by decide⟩) hr (by decide)
  exact ⟨hone, hfound 2 _ (SessionManager.at_iff.mpr ⟨hsecond, by decide⟩), hfirst, hkick⟩

def aliceLogsInTwice : List (Event × List Choice) :=
  aliceRegisters ++ [aliceLogsIn, (.accept 2, []),
    (.request 2 (flatBody [("type", "LOGIN"), ("username", "Alice"), ("password", "secret")]), [])]

def aliceTwice : World asciiCi := Effect.runAll next (World.start Database.empty) aliceLogsInTwice

/-- `alice` and `Alice` are one account and two sessions. -/
theorem not_oneSession :
    ¬ ∀ es : List (Event × List Choice), (∀ e ∈ es, NoDbFailure e) →
      OneSession (Effect.runAll next (World.start (Database.empty : Database asciiCi)) es) := by
  intro h
  have hone : OneSession aliceTwice := h aliceLogsInTwice (by
    simp [aliceLogsInTwice, aliceRegisters, aliceLogsIn, NoDbFailure])
  have h₁ : aliceTwice.sessions.loginAt 1 = some (bytes "alice") := by decide
  have h₂ : aliceTwice.sessions.loginAt 2 = some (bytes "Alice") := by decide
  have hr : (aliceTwice.db.byName (bytes "alice")).isSome = true := by decide
  obtain ⟨r, hr⟩ := Option.isSome_iff_exists.mp hr
  have hr' : aliceTwice.db.byName (bytes "Alice") = some r :=
    (Database.byName_congr (by decide)).trans hr
  have h₁₂ := hone 1 2 _ _ r (SessionManager.at_iff.mpr ⟨h₁, by decide⟩)
    (SessionManager.at_iff.mpr ⟨h₂, by decide⟩) hr hr'
  exact absurd h₁₂ (by decide)

end LiteChat
