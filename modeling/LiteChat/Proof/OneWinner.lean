import LiteChat.Proof.Presence
import LiteChat.Proof.Threads

/-!
# Logins at the same time

Any number of connections log in to one account at once, and their calls interleave. A login looks
for a session to kick first and takes the account later, so a session that takes it in between is
not seen by anybody. The runs in which this does not happen are those in which a name is only set
when no other session of the account is left, and a route is not taken away from a session that has
the name. The last to set its name is the winner there: nobody kicks it any more, because a login
kicks before it sets its own.

The invariant (`Racing`) follows the threads by the calls they have made: the winner is the one that set
the name of its session last, and everybody else of the account has lost name or route to somebody. Each
call of `HandleLogin` keeps it, by the three that matter: to kick, to enter, to take the route.
-/

namespace LiteChat

open LiteChat.Action Effect UserManager Server

variable {P : Platform} {w w₀ w' : World P} {ι : Type}

/-- One session has the name, and the route; every other session of the account, and every other
connection that logged in, has been unbound and shut down since. -/
def OneWinner (w₀ : World P) (connection : ι → Socket) (u : Str) (w : World P) : Prop :=
  ∃ c, w.sessions.loginAt c = some u ∧ (∀ d, w.sessions.loginAt d = some u → d = c) ∧
    w.sessions.route u = some c ∧
    ∀ d, d ≠ c → (w₀.accountAt d = w₀.db.idOf u ∨ ∃ k, d = connection k) →
      w.sessions.loginAt d = some [] ∧
        ∃ said, w.trace = w₀.trace ++ said ∧ Obs.shutdown d ∈ said

/-- A name is set when no other session of its account is left, and a route is not taken away from
a session that has the name. -/
def OneAtATime (w : World P) : Op → Prop
  | .setUsername p u => u ≠ [] → ∀ c ∈ w.sessions.cliSessionMap.keys,
      w.accountAt c = w.db.idOf u → w.sessions.getSession c = some p
  | .bindUsername c u => ∀ d, w.sessions.route u = some d → d ≠ c → w.sessions.loginAt d ≠ some u
  | _ => True

theorem oneAtATime_bindUsername_iff (w : World P) (c : Socket) (u : Str) :
    (∀ d ∈ (w.sessions.route u).toList, d ≠ c → w.sessions.loginAt d ≠ some u) ↔
      OneAtATime w (.bindUsername c u) := by
  simp [OneAtATime, Option.mem_toList]

instance (w : World P) (o : Op) : Decidable (OneAtATime w o) := by
  apply Op.casesOn (motive := fun o => Decidable (OneAtATime w o)) o
  case bindUsername => exact fun c u => decidable_of_iff _ (oneAtATime_bindUsername_iff w c u)
  all_goals intros; unfold OneAtATime; infer_instance

/-! ## The account of a session -/

theorem accountAt_congr {c : Socket} (hlogin : w'.sessions.loginAt c = w.sessions.loginAt c)
    (hcred : ∀ u, w'.db.credentials u = w.db.credentials u) : w'.accountAt c = w.accountAt c := by
  unfold World.accountAt
  rw [hlogin]
  congr 1
  funext v
  rw [Database.idOf_eq_credentials, Database.idOf_eq_credentials, hcred]

theorem accountAt_of_loginAt {c : Socket} {u : Str} (hu : u ≠ [])
    (h : w.sessions.loginAt c = some u) : w.accountAt c = w.db.idOf u := by
  unfold World.accountAt
  rw [h, Option.bind_some, if_neg hu]

theorem accountAt_of_nobody {c : Socket} (h : w.sessions.loginAt c = some []) :
    w.accountAt c = none := by
  unfold World.accountAt
  rw [h, Option.bind_some, if_pos rfl]

theorem mem_keys_of_accountAt {c : Socket} {i : UserId} (h : w.accountAt c = some i) :
    c ∈ w.sessions.cliSessionMap.keys := by
  unfold World.accountAt at h
  obtain ⟨u, hlogin, hid⟩ := Option.bind_eq_some_iff.mp h
  split at hid
  · cases hid
  · rename_i hu
    exact SessionManager.mem_keys_of_at (SessionManager.at_iff.mpr ⟨hlogin, hu⟩)

/-! ## The invariant -/

/-- The thread that enters a session under the name by this call, if it is one. -/
def entering (p : ι → SessionPtr) (u : Str) : ι × Op → Option ι
  | (k, .setUsername q v) => if q = p k ∧ v = u then some k else none
  | _ => none

/-- The last thread that entered. -/
abbrev winner (p : ι → SessionPtr) (u : Str) (h : List (ι × Op)) : Option ι :=
  lastWrite (entering p u) h

/-- What holds between any two calls of logins to the account `i` under the name `u`, on the
connections `c` with the sessions `p`. -/
structure Racing (w₀ : World P) (u : Str) (i : UserId) (c : ι → Socket) (p : ι → SessionPtr)
    (w : World P) (h : List (ι × Op)) : Prop where
  credentials : ∀ v, w.db.credentials v = w₀.db.credentials v
  getSession : ∀ d, w.sessions.getSession d = w₀.sessions.getSession d
  alone : ∀ d, w.accountAt d = some i → ∀ k, winner p u h = some k → d = c k
  named : ∀ k, winner p u h = some k →
    w.sessions.loginAt (c k) = some u ∨ ∃ j, (j, .setUsername (p j) u) ∉ h
  routed : ∀ k, winner p u h = some k → (k, .bindUsername (c k) u) ∈ h →
    w.sessions.loginAt (c k) = some u → w.sessions.route u = some (c k)
  unbound : ∀ d, (w₀.accountAt d = some i ∨ ∃ k, d = c k ∧ (k, .setUsername (p k) u) ∈ h) →
    w.accountAt d = some i ∨ w.sessions.loginAt d = some [] ∧
      ∃ j q, w₀.sessions.getSession d = some q ∧ (j, .setUsername q []) ∈ h
  recorded : ∃ said, w.trace = w₀.trace ++ said ∧
    ∀ j d, (j, .shutdown d) ∈ h → Obs.shutdown d ∈ said

section Racing

variable {u : Str} {i : UserId} {c : ι → Socket} {p : ι → SessionPtr} {h : List (ι × Op)} {j : ι}
  {o : Op}

theorem winner_concat (e : ι × Op) :
    winner p u (h ++ [e]) = (entering p u e).or (winner p u h) := lastWrite_concat _ _ _

theorem entering_setUsername (q : SessionPtr) (v : Str) :
    entering p u (j, .setUsername q v) = if q = p j ∧ v = u then some j else none := rfl

theorem entering_of_ne (ho : ∀ q v, o ≠ .setUsername q v) : entering p u (j, o) = none := by
  cases o with
  | setUsername q v => exact absurd rfl (ho q v)
  | _ => rfl

/-- What was said and shut down goes on record with every call. -/
theorem Racing.recorded_step (hr : Racing w₀ u i c p w h) (ch : Choice) :
    ∃ said, (World.handle o ch w).2.trace = w₀.trace ++ said ∧
      ∀ k d, (k, .shutdown d) ∈ h ++ [(j, o)] → Obs.shutdown d ∈ said := by
  obtain ⟨said, hsaid, hshut⟩ := hr.recorded
  obtain ⟨said', hsaid', hshut'⟩ := World.trace_handle o ch w
  refine ⟨said ++ said', by rw [hsaid', hsaid, List.append_assoc], fun k d hd => ?_⟩
  rcases List.mem_append.mp hd with hd | hd
  · exact List.mem_append_left _ (hshut k d hd)
  · obtain ⟨_, ho⟩ := Prod.mk.inj (List.mem_singleton.mp hd)
    exact List.mem_append_right _ (hshut' d ho.symm)

/-- A call that moves no name and no route leaves the race as it is: the winner is still the winner. -/
theorem Racing.standing (hr : Racing w₀ u i c p w h) {ch : Choice}
    (hs : Standing w (World.handle o ch w).2) (hname : ∀ q v, o ≠ .setUsername q v)
    (hroute : ∀ d v, o ≠ .bindUsername d v) :
    Racing w₀ u i c p (World.handle o ch w).2 (h ++ [(j, o)]) := by
  have hacc : ∀ d, (World.handle o ch w).2.accountAt d = w.accountAt d :=
    fun d => accountAt_congr (hs.loginAt d) hs.credentials
  have hwinner : winner p u (h ++ [(j, o)]) = winner p u h := by
    rw [winner_concat, entering_of_ne hname, Option.none_or]
  have hset : ∀ k q v, (k, .setUsername q v) ∈ h ++ [(j, o)] → (k, .setUsername q v) ∈ h :=
    fun k q v hmem => Pool.mem_of_mem_concat hmem (hname q v).symm
  have hbind : ∀ k d, (k, .bindUsername d u) ∈ h ++ [(j, o)] → (k, .bindUsername d u) ∈ h :=
    fun k d hmem => Pool.mem_of_mem_concat hmem (hroute d u).symm
  constructor
  · intro v
    rw [hs.credentials, hr.credentials]
  · intro d
    rw [hs.getSession, hr.getSession]
  · rw [hwinner]
    intro d hd
    exact hr.alone d (hacc d ▸ hd)
  · rw [hwinner]
    intro k hk
    rw [hs.loginAt]
    exact (hr.named k hk).imp_right fun ⟨j', hj'⟩ => ⟨j', fun hmem => hj' (hset _ _ _ hmem)⟩
  · rw [hwinner]
    intro k hk hmem hlogin
    rw [hs.loginAt] at hlogin
    rw [hs.route]
    exact hr.routed k hk (hbind _ _ hmem) hlogin
  · intro d hd
    rw [hacc, hs.loginAt]
    refine (hr.unbound d (hd.imp_right fun ⟨k, hk, hmem⟩ => ⟨k, hk, hset _ _ _ hmem⟩)).imp_right ?_
    rintro ⟨hlogin, j', q, hq, hmem⟩
    exact ⟨hlogin, j', q, hq, List.mem_append_left _ hmem⟩
  · exact hr.recorded_step ch

/-- A thread kicks a session, and has not entered itself. -/
theorem Racing.kick (hr : Racing w₀ u i c p w h) (hu : u ≠ []) {q : SessionPtr} {ch : Choice}
    (hout : (j, .setUsername (p j) u) ∉ h) :
    Racing w₀ u i c p (World.handle (.setUsername q []) ch w).2 (h ++ [(j, .setUsername q [])]) := by
  have hcred : ∀ v, (World.handle (.setUsername q []) ch w).2.db.credentials v =
      w.db.credentials v := fun v => by rw [World.db_handle_of_ne (by nofun)]
  have hsessions := World.sessions_setUsername q [] ch w
  have hlogin : ∀ d, (World.handle (.setUsername q []) ch w).2.sessions.loginAt d =
      if w.sessions.getSession d = some q then some [] else w.sessions.loginAt d :=
    fun d => by rw [hsessions, SessionManager.loginAt_setUsername]
  have hwinner : winner p u (h ++ [(j, .setUsername q [])]) = winner p u h := by
    rw [winner_concat, entering_setUsername, if_neg fun hqv => hu hqv.2.symm, Option.none_or]
  have hset : ∀ k, (k, .setUsername (p k) u) ∈ h ++ [(j, .setUsername q [])] →
      (k, .setUsername (p k) u) ∈ h :=
    fun k hmem => Pool.mem_of_mem_concat hmem fun ho => hu (Op.setUsername.inj ho).2
  constructor
  · intro v
    rw [hcred, hr.credentials]
  · intro d
    rw [hsessions, SessionManager.getSession_setUsername, hr.getSession]
  · rw [hwinner]
    intro d hd
    -- the kick only takes accounts away
    by_cases hdq : w.sessions.getSession d = some q
    · rw [accountAt_of_nobody (by rw [hlogin, if_pos hdq])] at hd
      cases hd
    · rw [accountAt_congr (by rw [hlogin, if_neg hdq]) hcred] at hd
      exact hr.alone d hd
  · rw [hwinner]
    intro k _
    exact .inr ⟨j, fun hmem => hout (hset j hmem)⟩
  · rw [hwinner]
    intro k hk hmem hnamed
    rw [hlogin] at hnamed
    split at hnamed
    · exact absurd (Option.some.inj hnamed).symm hu
    · rw [hsessions, SessionManager.route_setUsername]
      exact hr.routed k hk (Pool.mem_of_mem_concat hmem nofun) hnamed
  · intro d hd
    by_cases hdq : w.sessions.getSession d = some q
    · refine .inr ⟨by rw [hlogin, if_pos hdq], j, q, ?_, by simp⟩
      rw [← hr.getSession, hdq]
    · rw [accountAt_congr (by rw [hlogin, if_neg hdq]) hcred, hlogin, if_neg hdq]
      refine (hr.unbound d (hd.imp_right fun ⟨k, hk, hmem⟩ => ⟨k, hk, hset k hmem⟩)).imp_right ?_
      rintro ⟨hnobody, j', q', hq', hmem⟩
      exact ⟨hnobody, j', q', hq', List.mem_append_left _ hmem⟩
  · exact hr.recorded_step ch

/-- A thread enters. It is the winner now, and alone. -/
theorem Racing.enter (hr : Racing w₀ u i c p w h) (hu : u ≠ []) (hid : w₀.db.idOf u = some i)
    (hp : ∀ k, w₀.sessions.getSession (c k) = some (p k)) {ch : Choice}
    (hout : (j, .bindUsername (c j) u) ∉ h) (hcond : OneAtATime w (.setUsername (p j) u)) :
    Racing w₀ u i c p (World.handle (.setUsername (p j) u) ch w).2
      (h ++ [(j, .setUsername (p j) u)]) := by
  have hcred : ∀ v, (World.handle (.setUsername (p j) u) ch w).2.db.credentials v =
      w.db.credentials v := fun v => by rw [World.db_handle_of_ne (by nofun)]
  have hsessions := World.sessions_setUsername (p j) u ch w
  have hlogin : ∀ d, (World.handle (.setUsername (p j) u) ch w).2.sessions.loginAt d =
      if w.sessions.getSession d = some (p j) then some u else w.sessions.loginAt d :=
    fun d => by rw [hsessions, SessionManager.loginAt_setUsername]
  have hid' : w.db.idOf u = some i := by
    rw [Database.idOf_eq_credentials, hr.credentials, ← Database.idOf_eq_credentials, hid]
  have hown : ∀ d, w.sessions.getSession d = some (p j) → d = c j := by
    intro d hd
    rw [hr.getSession] at hd
    exact w₀.sessions.ptr_inj hd (hp j)
  have hself : w.sessions.getSession (c j) = some (p j) := by rw [hr.getSession, hp]
  have honly : ∀ d, w.accountAt d = some i → d = c j := fun d hd =>
    hown d (hcond hu d (mem_keys_of_accountAt hd) (by rw [hd, hid']))
  have hwinner : winner p u (h ++ [(j, .setUsername (p j) u)]) = some j := by
    rw [winner_concat, entering_setUsername, if_pos ⟨rfl, rfl⟩, Option.some_or]
  constructor
  · intro v
    rw [hcred, hr.credentials]
  · intro d
    rw [hsessions, SessionManager.getSession_setUsername, hr.getSession]
  · rw [hwinner]
    rintro d hd k ⟨⟩
    by_cases hdp : w.sessions.getSession d = some (p j)
    · exact hown d hdp
    · rw [accountAt_congr (by rw [hlogin, if_neg hdp]) hcred] at hd
      exact honly d hd
  · rw [hwinner]
    rintro k ⟨⟩
    exact .inl (by rw [hlogin, if_pos hself])
  · rw [hwinner]
    rintro k ⟨⟩ hmem
    exact absurd (Pool.mem_of_mem_concat hmem nofun) hout
  · intro d hd
    by_cases hdp : w.sessions.getSession d = some (p j)
    · left
      rw [accountAt_of_loginAt hu (by rw [hlogin, if_pos hdp]), World.db_handle_of_ne (by nofun), hid']
    · -- another session had lost the account before
      right
      rw [hlogin, if_neg hdp]
      have hd' : w₀.accountAt d = some i ∨ ∃ k, d = c k ∧ (k, .setUsername (p k) u) ∈ h := by
        refine hd.imp_right ?_
        rintro ⟨k, rfl, hmem⟩
        refine ⟨k, rfl, (List.mem_append.mp hmem).resolve_right fun hnew => ?_⟩
        obtain ⟨rfl, _⟩ := Prod.mk.inj (List.mem_singleton.mp hnew)
        exact hdp hself
      rcases hr.unbound d hd' with hacc | ⟨hnobody, j', q, hq, hmem⟩
      · exact absurd ((honly d hacc) ▸ hself) hdp
      · exact ⟨hnobody, j', q, hq, List.mem_append_left _ hmem⟩
  · exact hr.recorded_step ch

/-- A thread takes the route, unless the winner has it. -/
theorem Racing.bind (hr : Racing w₀ u i c p w h) (hc : Function.Injective c) {ch : Choice}
    (hcond : OneAtATime w (.bindUsername (c j) u)) :
    Racing w₀ u i c p (World.handle (.bindUsername (c j) u) ch w).2
      (h ++ [(j, .bindUsername (c j) u)]) := by
  have hwinner : winner p u (h ++ [(j, .bindUsername (c j) u)]) = winner p u h := by
    rw [winner_concat, entering_of_ne (o := .bindUsername (c j) u) nofun, Option.none_or]
  have hset : ∀ k q v, (k, .setUsername q v) ∈ h ++ [(j, .bindUsername (c j) u)] →
      (k, .setUsername q v) ∈ h := fun k q v hmem => Pool.mem_of_mem_concat hmem nofun
  refine ⟨hr.credentials, hr.getSession, ?_, ?_, ?_, ?_, hr.recorded_step ch⟩
  · rw [hwinner]
    exact hr.alone
  · rw [hwinner]
    intro k hk
    exact (hr.named k hk).imp_right fun ⟨j', hj'⟩ => ⟨j', fun hmem => hj' (hset _ _ _ hmem)⟩
  · rw [hwinner]
    intro k hk hmem hnamed
    show (w.sessions.bindUsername (c j) u).route u = some (c k)
    rw [SessionManager.route_bindUsername, if_pos rfl]
    by_cases hkj : k = j
    · rw [hkj]
    · -- the winner has the route already, and the condition forbids to take it away
      have hmem' : (k, .bindUsername (c k) u) ∈ h := by
        refine (List.mem_append.mp hmem).resolve_right fun hnew => ?_
        exact hkj (Prod.mk.inj (List.mem_singleton.mp hnew)).1
      exact absurd hnamed (hcond (c k) (hr.routed k hk hmem' hnamed) fun heq => hkj (hc heq))
  · intro d hd
    refine (hr.unbound d (hd.imp_right fun ⟨k, hk, hmem⟩ => ⟨k, hk, hset _ _ _ hmem⟩)).imp_right ?_
    -- who has lost the account does not get it back by a route
    rintro ⟨hnobody, j', q, hq, hmem⟩
    exact ⟨hnobody, j', q, hq, List.mem_append_left _ hmem⟩

/-- Every call of a login that meets the condition keeps the invariant. -/
theorem Racing.step [DecidableEq ι] (hr : Racing w₀ u i c p w h) (hu : u ≠ [])
    (hid : w₀.db.idOf u = some i) (hp : ∀ k, w₀.sessions.getSession (c k) = some (p k))
    (hc : Function.Injective c) (hok : LoginCalls (c j) u i (p j) (Pool.own h j) o)
    (hcond : OneAtATime w o) (ch : Choice) :
    Racing w₀ u i c p (World.handle o ch w).2 (h ++ [(j, o)]) := by
  by_cases hname : ∃ q v, o = .setUsername q v
  · obtain ⟨q, v, rfl⟩ := hname
    rcases hok with ⟨rfl, hout⟩ | ⟨rfl, rfl, hout⟩
    · exact hr.kick hu fun hmem => hout (Pool.mem_own.mpr hmem)
    · exact hr.enter hu hid hp (fun hmem => hout (Pool.mem_own.mpr hmem)) hcond
  by_cases hroute : ∃ d v, o = .bindUsername d v
  · obtain ⟨d, v, rfl⟩ := hroute
    obtain ⟨rfl, rfl⟩ := hok
    exact hr.bind hc hcond
  have hname' : ∀ q v, o ≠ .setUsername q v := fun q v ho => hname ⟨q, v, ho⟩
  have hroute' : ∀ d v, o ≠ .bindUsername d v := fun d v ho => hroute ⟨d, v, ho⟩
  exact hr.standing (hok.standing hname' hroute' ch w) hname' hroute'

theorem Racing.start : Racing w₀ u i c p w₀ [] where
  credentials _ := rfl
  getSession _ := rfl
  alone _ _ _ hk := by cases hk
  named _ hk := by cases hk
  routed _ hk := by cases hk
  unbound d hd := by
    rcases hd with hd | ⟨k, _, hmem⟩
    · exact .inl hd
    · cases hmem
  recorded := ⟨[], by simp, nofun⟩

/-- What the invariant says once every thread is done. -/
theorem Racing.oneWinner [DecidableEq ι] [Nonempty ι] (hr : Racing w₀ u i c p w h) (hu : u ≠ [])
    (hid : w₀.db.idOf u = some i)
    (hdone : ∀ k, Inside (fun q d => w₀.sessions.getSession d = some q) (c k) u i (p k)
      (Pool.own h k)) : OneWinner w₀ c u w := by
  have hset : ∀ k, (k, .setUsername (p k) u) ∈ h := fun k => Pool.mem_own.mp (hdone k).name
  obtain ⟨k, hk⟩ : ∃ k, winner p u h = some k := by
    obtain ⟨j⟩ := ‹Nonempty ι›
    have hj : entering p u (j, .setUsername (p j) u) = some j := if_pos ⟨rfl, rfl⟩
    exact Option.ne_none_iff_exists'.mp (lastWrite_ne_none (hset j) hj)
  have hnamed : w.sessions.loginAt (c k) = some u :=
    (hr.named k hk).resolve_right fun ⟨j, hj⟩ => hj (hset j)
  have hid' : w.db.idOf u = some i := by
    rw [Database.idOf_eq_credentials, hr.credentials, ← Database.idOf_eq_credentials, hid]
  refine ⟨c k, hnamed, fun d hd => ?_, ?_, fun d hd hold => ?_⟩
  · exact hr.alone d (by rw [accountAt_of_loginAt hu hd, hid']) k hk
  · exact hr.routed k hk (Pool.mem_own.mp (hdone k).route) hnamed
  · have hold' : w₀.accountAt d = some i ∨ ∃ k, d = c k ∧ (k, .setUsername (p k) u) ∈ h := by
      rw [hid] at hold
      exact hold.imp_right fun ⟨j, hj⟩ => ⟨j, hj, hset j⟩
    rcases hr.unbound d hold' with hacc | ⟨hnobody, j, q, hq, hkick⟩
    · exact absurd (hr.alone d hacc k hk) hd
    · obtain ⟨said, hsaid, hshut⟩ := hr.recorded
      obtain ⟨d', hd', hmem⟩ := (hdone j).kicks q (Pool.mem_own.mpr hkick)
      rw [w₀.sessions.ptr_inj hd' hq] at hmem
      exact ⟨hnobody, said, hsaid, hshut j d (Pool.mem_own.mp hmem)⟩

end Racing

/-! ## Every interleaving -/

/-- Logins of one user with the right password, on connections that have a session. -/
structure Contenders (w : World P) (u password : Str) (request : ι → Request) : Prop where
  named : ∀ k, (request k).username = u
  authentic : ∀ k, (request k).password = password
  valid : validateUsername u = true
  account : ∃ r, w.db.byName u = some r ∧ r.passwordHash = P.md5 password
  sessions : ∀ k, w.sessions.loginAt (request k).clientSocket ≠ none
  different : Function.Injective fun k => (request k).clientSocket

/-- The calls in which nothing fails and the condition is met. -/
abbrev OneAtATimeIn [DecidableEq ι] : Pool ι Op Op.Res Response (World P) → ι × Choice → Prop :=
  Pool.Allows Answers fun w _ _ o => OneAtATime w o

/-- **Concurrent logins leave one winner**, in every interleaving in which a name is only set when no
other session of the account is left, and no route is taken away from a session that has the name. Any
number of threads log in with the password of one account, each on its own connection; when all are
through, one of the connections is logged in to the account, no other is, and the name is routed to it. -/
theorem oneWinner_run [DecidableEq ι] [Nonempty ι] {u password : Str} {request : ι → Request}
    (hrequest : Contenders w₀ u password request) (es : List (ι × Choice))
    (hes : Meets (Pool.step World.handle) OneAtATimeIn
      (Pool.start (fun k => handleLogin P (request k)) w₀) es)
    (hfin : (runAll (Pool.step World.handle)
      (Pool.start (fun k => handleLogin P (request k)) w₀) es).Finished) :
    OneWinner w₀ (fun k => (request k).clientSocket) u
      (runAll (Pool.step World.handle)
        (Pool.start (fun k => handleLogin P (request k)) w₀) es).shared := by
  obtain ⟨r, hr, hhash⟩ := hrequest.account
  have hu : u ≠ [] := by
    rintro rfl
    exact absurd hrequest.valid (by decide)
  have hid : w₀.db.idOf u = some r.userId := by
    unfold Database.idOf
    rw [hr, Option.map_some]
  have hsession : ∀ k, ∃ q, w₀.sessions.getSession (request k).clientSocket = some q :=
    fun k => Option.ne_none_iff_exists'.mp fun hnone =>
      hrequest.sessions k (SessionManager.getSession_eq_none.mp hnone)
  choose p hp using hsession
  let I : World P → Prop := fun w => w.db.credentials u = some (r.userId, P.md5 password) ∧
    ∀ d, w.sessions.getSession d = w₀.sessions.getSession d
  have hthreads : ∀ k, AmongThreads I
      (LoginCalls (request k).clientSocket u r.userId (p k)) (handleLogin P (request k))
      (fun _ own => Inside (fun q d => w₀.sessions.getSession d = some q)
        (request k).clientSocket u r.userId (p k) own) [] := by
    intro k
    have hlogin : AmongThreads I (LoginCalls (request k).clientSocket (request k).username r.userId (p k))
        (handleLogin P (request k)) (fun response own => response = loginAccepted ∧
          Inside (fun q d => w₀.sessions.getSession d = some q) (request k).clientSocket
            (request k).username r.userId (p k) own) [] := by
      refine handleLogin_among ?_ ?_ ?_
      · rw [hrequest.named k]
        exact hrequest.valid
      · rintro w ⟨hcred, hsessions⟩
        exact ⟨by rw [hrequest.named, hrequest.authentic, hcred], by rw [hsessions, hp]⟩
      · -- the pointer that is kicked is good in every state in between
        rintro w q ⟨_, hsessions⟩ hq w' ⟨_, hsessions'⟩
        obtain ⟨d, _, hd⟩ := SessionManager.getSession_of_byUsername hq
        rw [hsessions, ← hsessions'] at hd
        obtain ⟨s, hs, hsd, _⟩ := SessionManager.heap_of_getSession hd
        have hderef : (w'.deref q (·.socket) (0 : Nat)).1 = d := by
          unfold World.deref
          rw [hs]
          exact hsd
        rw [hderef, ← hsessions', hd]
    rw [hrequest.named k] at hlogin
    exact hlogin.mono fun _ _ hdone => hdone.2
  have hcred : w₀.db.credentials u = some (r.userId, P.md5 password) := by
    unfold Database.credentials
    rw [hr, Option.map_some, hhash]
  -- every thread has been answered as for a login that is accepted, so each gets to the end
  obtain ⟨hracing, hdone⟩ := Pool.inv_ops (I := I)
    (J := Racing w₀ u r.userId (fun k => (request k).clientSocket) p) hthreads Racing.start
    (fun w h hr => ⟨(hr.credentials u).trans hcred, hr.getSession⟩)
    (fun w h k o ch hr hok _ hcond => hr.step hu hid hp hrequest.different hok hcond ch) hes
  exact hracing.oneWinner hu hid fun k => (hdone k (hfin k)).elim fun _ hin => hin

/-! ## Two connections -/

/-- Alice has an account, and two connections that nobody has logged in on. -/
def aliceTwoConnections : World asciiCi :=
  runAll next (World.start Database.empty) (aliceRegisters ++ [(.accept 2, [])])

/-- The two logins. -/
def aliceLogins (k : Bool) : Request := aliceLogin (if k then 2 else 1)

theorem aliceLogins_contenders :
    Contenders aliceTwoConnections (bytes "alice") (bytes "secret") aliceLogins where
  named k := by cases k <;> rfl
  authentic k := by cases k <;> rfl
  valid := by decide
  account := ⟨_, rfl, by decide⟩
  sessions := by decide
  different := by
    intro j k
    revert j k
    decide

/-- Turns of the threads, in which every statement and every send works. -/
def turns (schedule : List (ι × Nat)) : List (ι × Choice) :=
  schedule.flatMap fun turn => List.replicate turn.2 (turn.1, default)

/-- The second login reads the flag before the first has set it, and goes on after. -/
theorem oneWinner_kick : OneWinner aliceTwoConnections (fun k => (aliceLogins k).clientSocket)
    (bytes "alice") (runAll (Pool.step World.handle)
      (Pool.start (fun k => handleLogin asciiCi (aliceLogins k)) aliceTwoConnections)
      (turns [(false, 1), (true, 1), (false, 9), (true, 15)])).shared :=
  oneWinner_run aliceLogins_contenders _ (by decide) (by decide)

/-- At most one session has the name, and the flag of the account says whether one has it. -/
def OneBound (w : World P) (u : Str) : Prop :=
  (∀ c d, w.sessions.loginAt c = some u → w.sessions.loginAt d = some u → c = d) ∧
    ((w.db.byName u).map (·.isOnline) = some true ↔ ∃ c, w.sessions.loginAt c = some u)

/-- Both logins read the flag before either sets it, nobody is kicked, and both have the name. -/
theorem not_oneWinner :
    ¬ ∀ (w₀ : World asciiCi) (u password : Str) (request : Bool → Request),
      Contenders w₀ u password request →
      (∀ k, w₀.sessions.loginAt (request k).clientSocket = some []) → OneBound w₀ u →
      ∀ es : List (Bool × Choice), (∀ e ∈ es, e.2.dbOk = true) →
        (runAll (Pool.step World.handle)
          (Pool.start (fun k => handleLogin asciiCi (request k)) w₀) es).Finished →
        OneWinner w₀ (fun k => (request k).clientSocket) u
          (runAll (Pool.step World.handle)
            (Pool.start (fun k => handleLogin asciiCi (request k)) w₀) es).shared := by
  intro h
  have hnobody : ∀ c, aliceTwoConnections.sessions.loginAt c ≠ some (bytes "alice") := by
    intro c hc
    have hkeys : ∀ c ∈ aliceTwoConnections.sessions.cliSessionMap.keys,
        aliceTwoConnections.sessions.loginAt c ≠ some (bytes "alice") := by decide
    exact hkeys c (SessionManager.mem_keys_of_at (SessionManager.at_iff.mpr ⟨hc, by decide⟩)) hc
  have hbound : OneBound aliceTwoConnections (bytes "alice") := by
    refine ⟨fun c _ hc => absurd hc (hnobody c), ?_⟩
    refine iff_of_false (by decide) ?_
    rintro ⟨c, hc⟩
    exact hnobody c hc
  obtain ⟨c, _, honly, _⟩ := h aliceTwoConnections (bytes "alice") (bytes "secret") aliceLogins
    aliceLogins_contenders (by decide) hbound
    (turns [(false, 2), (true, 2), (false, 8), (true, 8)]) (by decide) (by decide)
  have h₁ : (1 : Socket) = c := honly 1 (by decide)
  have h₂ : (2 : Socket) = c := honly 2 (by decide)
  exact absurd (h₁.trans h₂.symm) (by decide)

end LiteChat
