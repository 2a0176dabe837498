import LiteChat.Proof.Events
import LiteChat.Proof.Routing

/-!
# What a heartbeat scan removes

`HeartbeatCheckThread` looks at the sessions that are connected and have a name, and ends those that
were silent for more than 600 seconds. A connection that nobody is logged in on is never looked at, so
the idle connections are removed exactly if there is none among them (`removesIdle_iff`).
-/

namespace LiteChat

open LiteChat.Action Server

variable {P : Platform} {E : Env} {w w' w'' : World P} {t : Nat}

/-! ## What is to be removed -/

/-- Just these connections were removed, each with everything that belongs to it. -/
structure Removes (removed : List Socket) (w w' : World P) : Prop where
  kept : ∀ c ∉ removed, w'.sessions.getSession c = w.sessions.getSession c ∧
    w'.sessions.session c = w.sessions.session c
  gone : ∀ c ∈ removed, w'.sessions.getSession c = none
  routes : ∀ u, w'.sessions.route u =
    if u ≠ [] ∧ ∃ c ∈ removed, w.sessions.loginAt c = some u ∧ w.sessions.route u = some c then none
    else w.sessions.route u
  shut : ∃ said, w'.trace = w.trace ++ said ∧ ∀ c ∈ removed, .shutdown c ∈ said
  counted : w'.currentConnections = w.currentConnections - removed.length
  uncached : ∀ c ∈ removed, ∀ u ≠ [], w.sessions.loginAt c = some u →
    w'.cachedFriendLists.lookup u = none

/-- The users of these connections are offline. -/
def AllOffline (removed : List Socket) (w w' : World P) : Prop :=
  ∀ c ∈ removed, ∀ u ≠ [], w.sessions.loginAt c = some u →
    ∀ r ∈ w'.db.users, P.weight r.username = P.weight u → r.isOnline = false

/-- What a scan at the time `t` has to do. -/
structure RemovesIdle (t : Nat) (w w' : World P) : Prop where
  removes : Removes (w.sessions.those (·.idle t)) w w'
  offline : AllOffline (w.sessions.those (·.idle t)) w w'

/-- Every scan at the time `t` does it. -/
def ScanRemovesIdle (E : Env) (t : Nat) (w : World P) : Prop :=
  Effect.Prog.wp World.handle (fun ch => E.Ok ch ∧ ch.now = t) heartbeatCheck
    (fun _ w' => RemovesIdle t w w') w

/-! ## One connection -/

/-- Rows keep their names, and nobody comes online. -/
def Dims (w w' : World P) : Prop :=
  ∀ r' ∈ w'.db.users, ∃ r ∈ w.db.users, r'.username = r.username ∧
    (r.isOnline = false → r'.isOnline = false)

theorem Dims.refl (w : World P) : Dims w w := fun r hr => ⟨r, hr, rfl, id⟩

theorem Dims.trans (h : Dims w w') (h' : Dims w' w'') : Dims w w'' := by
  intro r'' hr''
  obtain ⟨r', hr', hname', hoff'⟩ := h' r'' hr''
  obtain ⟨r, hr, hname, hoff⟩ := h r' hr'
  exact ⟨r, hr, hname'.trans hname, fun hr => hoff' (hoff hr)⟩

/-- The connection `c` of `u` was ended by a scan. -/
structure Expired (E : Env) (c : Socket) (u : Str) (w w' : World P) : Prop where
  sessions : w'.sessions = w.sessions.removeSession c
  cache : w'.cachedFriendLists = w.cachedFriendLists.erase u
  counted : w'.currentConnections = w.currentConnections + -1
  said : ∃ said, w'.trace = w.trace ++ said ∧ .shutdown c ∈ said
  dims : Dims w w'
  offline : ¬ E.dbFails → ∀ r ∈ w'.db.users, P.weight r.username = P.weight u → r.isOnline = false

/-- The other connections keep their sessions. -/
theorem Expired.getSession {c d : Socket} {u : Str} (h : Expired E c u w w') (hdc : d ≠ c) :
    w'.sessions.getSession d = w.sessions.getSession d := by
  rw [h.sessions, SessionManager.getSession_removeSession, if_neg hdc]

theorem Expired.session {c d : Socket} {u : Str} (h : Expired E c u w w') (hdc : d ≠ c) :
    w'.sessions.session d = w.sessions.session d := by
  rw [h.sessions, SessionManager.session_removeSession, if_neg hdc]

theorem Expired.loginAt {c d : Socket} {u : Str} (h : Expired E c u w w') (hdc : d ≠ c) :
    w'.sessions.loginAt d = w.sessions.loginAt d := by
  rw [h.sessions, SessionManager.loginAt_removeSession, if_neg hdc]

theorem dims_setOnlineWhere (w : World P) (p : UserRow → Prop) [DecidablePred p] :
    Dims w { w with db := w.db.setOnlineWhere p false } := by
  intro r' hr'
  obtain ⟨r, hr, rfl⟩ := List.mem_map.mp hr'
  refine ⟨r, hr, ?_, fun hoff => ?_⟩
  · split <;> rfl
  · split
    · rfl
    · exact hoff

theorem offline_setOnlineWhere (db : Database P) (u : Str) :
    ∀ r ∈ (db.setOnlineWhere (fun r => P.weight r.username = P.weight u) false).users,
      P.weight r.username = P.weight u → r.isOnline = false := by
  intro r' hr' hname
  obtain ⟨r, hr, rfl⟩ := List.mem_map.mp hr'
  simp only [decide_eq_true_eq] at hname ⊢
  split
  · rfl
  · next hother =>
    rw [if_neg hother] at hname
    exact absurd hname hother

theorem wp_expire_all {c : Socket} {p : SessionPtr} {s : ClientSession}
    (hs : w.sessions.heap.lookup p = some s) :
    wp E (expire c p) (fun _ w' => Expired E c s.username w w') w := by
  -- what is left to do once the statement has been executed, or has failed
  have hrest : ∀ db : Database P, Dims w { w with db := db } →
      (¬ E.dbFails → ∀ r ∈ db.users, P.weight r.username = P.weight s.username →
        r.isOnline = false) →
      wp E (do
        UserManager.notifyFriendsStatusChange s.username .offline
        let username ← getUsername p
        FriendManager.removeFriendCache username
        shutdown c
        removeSession c
        addConnections (-1)) (fun _ w' => Expired E c s.username w w') { w with db := db } := by
    intro db hdims hoffline
    rw [wp_bind]
    apply wp_notify
    rintro _ ⟨said, rfl⟩
    rw [wp_bind, wp_getUsername (by exact hs)]
    simp only [wp_bind, FriendManager.removeFriendCache, wp_cacheErase, wp_shutdown, wp_removeSession,
      wp_addConnections]
    refine ⟨rfl, rfl, rfl, ⟨said ++ [.shutdown c], ?_, by simp⟩, hdims, hoffline⟩
    exact List.append_assoc _ _ _
  unfold expire farewell
  simp only [wp_bind, wp_getUsername hs, UserManager.updateUserOnlineStatus,
    wp_updateOnlineStatusByUsername]
  simp only [wp_bind] at hrest
  refine ⟨fun hf => hrest w.db (Dims.refl w) fun hnf => absurd hf hnf, ?_⟩
  rw [wp_getUsername (by exact hs)]
  exact hrest _ (dims_setOnlineWhere w _) fun _ => offline_setOnlineWhere w.db s.username

/-! ## All of them -/

/-- What the scan has done to the connections `removed`. -/
structure Swept (E : Env) (removed : List Socket) (w w' : World P) : Prop where
  removes : Removes removed w w'
  forgets : ∀ u, w.cachedFriendLists.lookup u = none → w'.cachedFriendLists.lookup u = none
  dims : Dims w w'
  offline : ¬ E.dbFails → AllOffline removed w w'

theorem Swept.nil (w : World P) : Swept E [] w w := by
  refine ⟨⟨fun c _ => ⟨rfl, rfl⟩, nofun, fun u => ?_, ⟨[], (List.append_nil _).symm, nofun⟩, ?_,
    nofun⟩, fun _ h => h, Dims.refl w, fun _ => nofun⟩
  · rw [if_neg]
    rintro ⟨-, c, hc, -⟩
    cases hc
  · simp

/-- Removing a connection and then others removes them all, since they are different connections: the
sessions, the routes that were theirs, and the lists of their names. -/
theorem Removes.cons {c : Socket} {u : Str} {removed : List Socket}
    (hl : w.sessions.loginAt c = some u) (hc : c ∉ removed) (h : Expired E c u w w')
    (hrest : Removes removed w' w'')
    (hforgets : ∀ v, w'.cachedFriendLists.lookup v = none → w''.cachedFriendLists.lookup v = none) :
    Removes (c :: removed) w w'' := by
  have hlogin : ∀ d ∈ removed, w'.sessions.loginAt d = w.sessions.loginAt d :=
    fun d hd => h.loginAt fun hdc : d = c => hc (hdc ▸ hd)
  refine ⟨fun d hd => ?_, fun d hd => ?_, fun v => ?_, ?_, ?_, fun d hd v hv hlv => ?_⟩
  · obtain ⟨hdc, hd⟩ := not_or.mp (List.mem_cons.not.mp hd)
    obtain ⟨hget, hsession⟩ := hrest.kept d hd
    exact ⟨hget.trans (h.getSession hdc), hsession.trans (h.session hdc)⟩
  · rcases List.mem_cons.mp hd with rfl | hd
    · rw [(hrest.kept d hc).1, h.sessions, SessionManager.getSession_removeSession, if_pos rfl]
    · exact hrest.gone d hd
  · have hroute : w'.sessions.route v = if w.sessions.loginAt c = some v ∧ v ≠ [] ∧
        w.sessions.route v = some c then none else w.sessions.route v := by
      rw [h.sessions, SessionManager.route_removeSession]
    -- the route was that of this connection, or is still what it was
    by_cases hown : w.sessions.loginAt c = some v ∧ v ≠ [] ∧ w.sessions.route v = some c
    · rw [if_pos hown] at hroute
      rw [hrest.routes, hroute, ite_self]
      exact (if_pos ⟨hown.2.1, c, List.mem_cons_self, hown.1, hown.2.2⟩).symm
    · rw [if_neg hown] at hroute
      rw [hrest.routes, hroute]
      refine if_congr (and_congr_right fun hv => ⟨?_, ?_⟩) rfl rfl
      · rintro ⟨d, hd, hld, hroute⟩
        exact ⟨d, List.mem_cons_of_mem _ hd, hlogin d hd ▸ hld, hroute⟩
      · rintro ⟨d, hd, hld, hroute⟩
        rcases List.mem_cons.mp hd with rfl | hd
        · exact absurd ⟨hld, hv, hroute⟩ hown
        · exact ⟨d, hd, (hlogin d hd).symm ▸ hld, hroute⟩
  · obtain ⟨said, hsaid, hshut⟩ := h.said
    obtain ⟨said', hsaid', hshut'⟩ := hrest.shut
    refine ⟨said ++ said', by rw [hsaid', hsaid, List.append_assoc], fun d hd => ?_⟩
    rcases List.mem_cons.mp hd with rfl | hd
    · exact List.mem_append_left _ hshut
    · exact List.mem_append_right _ (hshut' d hd)
  · rw [hrest.counted, h.counted, List.length_cons]
    omega
  · rcases List.mem_cons.mp hd with rfl | hd
    · obtain rfl := Option.some.inj (hl.symm.trans hlv)
      refine hforgets u ?_
      rw [h.cache, Effect.Map.lookup_erase, if_pos rfl]
    · exact hrest.uncached d hd v hv ((hlogin d hd).trans hlv)

/-- One connection, then the others. -/
theorem Swept.cons {c : Socket} {u : Str} {removed : List Socket}
    (hl : w.sessions.loginAt c = some u) (hc : c ∉ removed) (h : Expired E c u w w')
    (hrest : Swept E removed w' w'') : Swept E (c :: removed) w w'' := by
  refine ⟨.cons hl hc h hrest.removes hrest.forgets, fun v hv => ?_, h.dims.trans hrest.dims,
    fun hE d hd v hv hlv r'' hr'' hname => ?_⟩
  · refine hrest.forgets v ?_
    rw [h.cache, Effect.Map.lookup_erase]
    split
    · rfl
    · exact hv
  · rcases List.mem_cons.mp hd with rfl | hd
    · obtain rfl := Option.some.inj (hl.symm.trans hlv)
      obtain ⟨r', hr', hsame, hoff⟩ := hrest.dims r'' hr''
      exact hoff (h.offline hE r' hr' (hsame ▸ hname))
    · refine hrest.offline hE d hd v hv ?_ r'' hr'' hname
      exact (h.loginAt fun hdc : d = c => hc (hdc ▸ hd)).trans hlv

theorem expiresEach_swept (E : Env) : ExpiresEach E (fun _ : World P => True) (Swept E) := by
  intro c p s w _ hs hl _
  refine wp_mono (wp_expire_all hs) fun _ w₁ h₁ => ⟨trivial, fun removed w' hc hrest => ?_⟩
  exact .cons hl hc h₁ hrest

/-- A list may be gone through in any order. -/
theorem Swept.perm {removed removed' : List Socket} (h : Swept E removed w w')
    (hperm : removed.Perm removed') : Swept E removed' w w' := by
  obtain ⟨⟨kept, gone, routes, ⟨said, hsaid, hshut⟩, counted, uncached⟩, forgets, dims, offline⟩ := h
  have hmem : ∀ {c}, c ∈ removed' → c ∈ removed := fun hc => hperm.mem_iff.mpr hc
  refine ⟨⟨fun c hc => kept c fun h => hc (hperm.mem_iff.mp h), fun c hc => gone c (hmem hc), ?_,
    ⟨said, hsaid, fun c hc => hshut c (hmem hc)⟩, hperm.length_eq ▸ counted,
    fun c hc => uncached c (hmem hc)⟩, forgets, dims, fun hE c hc => offline hE c (hmem hc)⟩
  intro u
  rw [routes u]
  simp only [hperm.mem_iff]

/-- **A scan ends the connections of users who are idle**, and no other. -/
theorem wp_heartbeatCheck_swept (E : Env) (t : Nat) (w : World P) :
    Effect.Prog.wp World.handle (fun ch => E.Ok ch ∧ ch.now = t) heartbeatCheck
      (fun _ w' => Swept E (w.sessions.those (·.expires t)) w w') w := by
  refine Effect.Prog.wp_mono (wp_heartbeatCheck_each (fun _ h => h.1) (fun w _ => .nil w)
    (expiresEach_swept E) trivial) ?_
  rintro _ w' ⟨ch, removed, ⟨-, rfl⟩, hperm, hswept⟩
  exact hswept.perm hperm

/-! ## The idle ones -/

/-- The idle connections are connected, and somebody is logged in on each. -/
def IdleLoggedIn (t : Nat) (w : World P) : Prop :=
  ∀ c s, w.sessions.session c = some s → s.idle t = true → s.isConnected = true ∧ s.username ≠ []

/-- Nobody who is logged in on an idle connection is online. -/
def IdleOffline (t : Nat) (w : World P) : Prop :=
  ∀ c s, w.sessions.session c = some s → s.idle t = true → s.username ≠ [] →
    ∀ r ∈ w.db.users, P.weight r.username = P.weight s.username → r.isOnline = false

theorem mem_those {m : SessionManager} {f : ClientSession → Bool} {c : Socket} :
    c ∈ m.those f ↔ ∃ s, m.session c = some s ∧ f s = true := by
  unfold SessionManager.those
  rw [List.mem_filter, Option.any_eq_true]
  refine and_iff_right_of_imp ?_
  rintro ⟨s, hs, -⟩
  obtain ⟨p, hp, -⟩ := Option.bind_eq_some_iff.mp hs
  exact AList.lookup_isSome.mp (by rw [hp]; rfl)

/-- A database that is away keeps its rows. -/
theorem wp_away {α : Type} (p : Action α) (t : Nat) (w : World P) :
    Effect.Prog.wp World.handle (fun ch => ch.dbOk = false ∧ ch.sendOk = true ∧ ch.now = t) p
      (fun _ w' => w'.db = w.db) w := by
  refine Effect.Prog.wp_frame (S := fun _ => True) (p.uses_of_forall fun _ => trivial)
    (fun w w' : World P => w'.db = w.db) (fun _ => rfl) (fun _ _ _ h h' => h'.trans h) ?_
  rintro o ch w - ⟨hdb, -⟩
  rcases World.db_handle o ch w with hsame | ⟨st, r, rfl, -⟩
  · exact hsame
  · show (w.execute st ch).2.db = w.db
    unfold World.execute
    rw [hdb]
    rfl

theorem ScanRemovesIdle.idleLoggedIn (h : ScanRemovesIdle E t w) : IdleLoggedIn t w := by
  intro c s hs hidle
  obtain ⟨_, w', hremoves, hswept⟩ := Effect.Prog.exists_of_wp
    ⟨{ (default : Choice) with now := t }, ⟨nofun, nofun⟩, rfl⟩
    (Effect.Prog.wp_and h (wp_heartbeatCheck_swept E t w))
  have hgone := hremoves.removes.gone c (mem_those.mpr ⟨s, hs, hidle⟩)
  by_contra hnot
  -- a connection that is not asked for is kept, so it is one that is
  have hkept : c ∉ w.sessions.those (·.expires t) := by
    intro hmem
    obtain ⟨s', hs', hexpires⟩ := mem_those.mp hmem
    obtain rfl := Option.some.inj (hs.symm.trans hs')
    simp only [ClientSession.expires, Bool.and_eq_true, decide_eq_true_eq] at hexpires
    exact hnot hexpires.1
  rw [(hswept.removes.kept c hkept).1] at hgone
  rw [show w.sessions.session c = none from congrArg (·.bind w.sessions.heap.lookup) hgone] at hs
  cases hs

theorem ScanRemovesIdle.idleOffline (h : ScanRemovesIdle E t w) (hE : E.dbFails) :
    IdleOffline t w := by
  intro c s hs hidle hu
  have haway := Effect.Prog.wp_restrict (B := fun ch => ch.dbOk = false ∧ ch.sendOk = true ∧ ch.now = t)
    (fun ch hch => ⟨⟨fun _ => hE, fun hsend => absurd (hch.2.1.symm.trans hsend) nofun⟩, hch.2.2⟩) h
  obtain ⟨_, w', hremoves, hdb⟩ := Effect.Prog.exists_of_wp
    ⟨{ (default : Choice) with dbOk := false, now := t }, rfl, rfl, rfl⟩
    (Effect.Prog.wp_and haway (wp_away heartbeatCheck t w))
  have hoffline := hremoves.offline c (mem_those.mpr ⟨s, hs, hidle⟩) s.username hu
    (by rw [SessionManager.loginAt, hs]; rfl)
  rw [hdb] at hoffline
  exact hoffline

/-- **The scan removes exactly the idle connections** exactly if each of them is connected and somebody
is logged in on it; and, where statements may fail, if these users are offline already. -/
theorem removesIdle_iff (E : Env) (t : Nat) (w : World P) :
    ScanRemovesIdle E t w ↔ IdleLoggedIn t w ∧ (E.dbFails → IdleOffline t w) := by
  constructor
  · exact fun h => ⟨h.idleLoggedIn, h.idleOffline⟩
  · rintro ⟨hloggedIn, hoffline⟩
    have hsame : w.sessions.those (·.expires t) = w.sessions.those (·.idle t) := by
      refine List.filter_congr fun c _ => ?_
      cases hs : w.sessions.session c with
      | none => rfl
      | some s =>
        cases hidle : s.idle t with
        | false => simp [ClientSession.expires, hidle]
        | true =>
          obtain ⟨hconnected, hu⟩ := hloggedIn c s hs hidle
          simp [ClientSession.expires, hidle, hconnected, hu]
    refine Effect.Prog.wp_mono (wp_heartbeatCheck_swept E t w) fun _ w' h => ?_
    rw [hsame] at h
    refine ⟨h.removes, ?_⟩
    by_cases hE : E.dbFails
    · intro c hc u hu hl r' hr' hname
      obtain ⟨s, hs, hidle⟩ := mem_those.mp hc
      obtain ⟨r, hr, hsame, hoff⟩ := h.dims r' hr'
      rw [SessionManager.loginAt, hs] at hl
      obtain rfl := Option.some.inj hl
      exact hoff (hoffline hE c s hs hidle hu r hr (hsame ▸ hname))
    · exact h.offline hE

/-- A connection that nobody logs in on stays. -/
theorem not_removesIdle : ¬ ∀ (t : Nat) (w : World asciiCi), ScanRemovesIdle .reliable t w := by
  intro h
  have hidle := (h 601 (Effect.runAll next (World.start Database.empty) [(.accept 1, [])])).idleLoggedIn
  exact absurd (hidle 1 ⟨1, [], 0, true⟩ (by decide) (by decide)).2 (by decide)

end LiteChat
