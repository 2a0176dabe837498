import LiteChat.Model.Sessions
import LiteChat.Spec.Logins

/-!
# The session manager refines `Spec.Logins`

`SessionManager.logins` forgets addresses, heartbeats and the convention that an empty username
means nobody. Each lemma below says which operation of the abstract state a piece of code is: the
two lines of the kick are `kick`, the three lines that follow it are `enter`, and removing a
session is `drop`, ownership check included.
-/

namespace LiteChat.SessionManager

open Spec

/-- Who is logged in where, as the abstract state. -/
def logins (m : SessionManager) : Logins Socket Str where
  login c := (m.loginAt c).map fun u => if u = [] then none else some u
  route := m.route

theorem login_eq_none {m : SessionManager} {c : Socket} :
    m.logins.login c = none ↔ m.getSession c = none := by
  rw [getSession_eq_none]
  simp [logins]

theorem at_iff {m : SessionManager} {c : Socket} {u : Str} :
    m.logins.At c u ↔ m.loginAt c = some u ∧ u ≠ [] := by
  unfold Logins.At logins
  dsimp only
  cases m.loginAt c with
  | none => simp
  | some v =>
    rw [Option.map_some]
    by_cases hv : v = []
    · rw [if_pos hv, hv]
      simp +contextual [eq_comm]
    · rw [if_neg hv]
      simp only [Option.some.injEq]
      exact ⟨fun h => ⟨h, h ▸ hv⟩, fun h => h.1⟩

/-- Who is logged in has a session in the map. -/
theorem mem_keys_of_at {m : SessionManager} {c : Socket} {u : Str} (h : m.logins.At c u) :
    c ∈ m.cliSessionMap.keys := by
  have hne : m.cliSessionMap.lookup c ≠ none := by
    intro hnone
    have hlogin : m.logins.login c = none := login_eq_none.mpr hnone
    exact absurd (h.symm.trans hlogin) (by simp)
  obtain ⟨p, hp⟩ := Option.ne_none_iff_exists'.mp hne
  exact AList.lookup_isSome.mp (by rw [hp]; rfl)

theorem login_eq_nobody {m : SessionManager} {c : Socket} :
    m.logins.login c = some none ↔ m.loginAt c = some [] := by
  unfold logins
  dsimp only
  cases m.loginAt c with
  | none => simp
  | some v => by_cases hv : v = [] <;> simp [hv]

/-- Two managers with the same sessions, names and routes are the same to everybody. -/
theorem logins_ext {m m' : SessionManager} (hl : ∀ c, m'.loginAt c = m.loginAt c)
    (hr : ∀ u, m'.route u = m.route u) : m'.logins = m.logins := by
  unfold logins
  congr 1
  · funext c
    rw [hl c]
  · exact funext hr

@[simp] theorem logins_empty : empty.logins = Logins.empty := rfl

@[simp] theorem logins_updateHeartbeat (m : SessionManager) (p : SessionPtr) (now : Nat) :
    (m.updateHeartbeat p now).logins = m.logins :=
  logins_ext (fun c => loginAt_updateHeartbeat m p now c) fun u => route_updateHeartbeat m p now u

theorem logins_addSession (m : SessionManager) (c : Socket) (now : Nat) :
    (m.addSession ⟨c, [], now, true⟩).logins = m.logins.connect c := by
  unfold logins Logins.connect
  congr 1
  funext d
  rw [loginAt_addSession]
  by_cases hd : d = c <;> simp [hd]

theorem logins_removeSession (m : SessionManager) (c : Socket) :
    (m.removeSession c).logins = m.logins.drop c := by
  have hat : ∀ v, (m.loginAt c = some v ∧ v ≠ [] ∧ m.route v = some c) ↔
      (m.logins.login c = some (some v) ∧ m.route v = some c) := by
    intro v
    rw [← and_assoc, ← at_iff]
    rfl
  show Logins.mk _ _ = Logins.mk _ _
  congr 1
  · funext d
    rw [loginAt_removeSession]
    by_cases hd : d = c <;> simp [hd, logins]
  · funext v
    rw [route_removeSession]
    simp only [hat]
    rfl

/-- Nobody is kicked when the route leads nowhere. -/
theorem logins_kick_none {m : SessionManager} {u : Str} (h : m.getSessionByUsername u = none) :
    m.logins.kick u = m.logins := by
  unfold Logins.kick
  congr 1
  funext d
  refine if_neg ?_
  rintro ⟨hr, hd⟩
  refine hd (login_eq_none.mpr ?_)
  unfold getSessionByUsername at h
  have hr' : m.usernameToSocket.lookup u = some d := hr
  rw [hr'] at h
  exact h

theorem logins_kick {m : SessionManager} {u : Str} {p : SessionPtr}
    (h : m.getSessionByUsername u = some p) : (m.setUsername p []).logins = m.logins.kick u := by
  obtain ⟨c, hr, hp⟩ := getSession_of_byUsername h
  show Logins.mk _ _ = Logins.mk _ _
  congr 1
  · funext d
    rw [loginAt_setUsername]
    by_cases hd : d = c
    · subst hd
      have hne : m.logins.login d ≠ none := by
        rw [Ne, login_eq_none, hp]
        simp
      rw [if_pos hp, if_pos ⟨hr, hne⟩]
      rfl
    · have hpd : m.getSession d ≠ some p := fun h' => hd (m.ptr_inj h' hp)
      rw [if_neg hpd, if_neg fun hk => hd (Option.some.inj (hk.1.symm.trans hr))]
      rfl
  · exact funext fun v => route_setUsername m p [] v

theorem logins_enter_none {m : SessionManager} {c : Socket} {u : Str} (h : m.getSession c = none) :
    m.logins.enter c u = m.logins :=
  if_pos (login_eq_none.mpr h)

theorem logins_enter {m : SessionManager} {c : Socket} {u : Str} {p : SessionPtr} (hu : u ≠ [])
    (h : m.getSession c = some p) :
    ((m.setUsername p u).bindUsername c u).logins = m.logins.enter c u := by
  have hne : m.logins.login c ≠ none := by
    rw [Ne, login_eq_none, h]
    simp
  unfold Logins.enter
  rw [if_neg hne]
  show Logins.mk _ _ = Logins.mk _ _
  congr 1
  · funext d
    rw [loginAt_bindUsername, loginAt_setUsername]
    by_cases hd : d = c
    · subst hd
      rw [if_pos h, if_pos rfl]
      simp [hu]
    · have hpd : m.getSession d ≠ some p := fun h' => hd (m.ptr_inj h' h)
      rw [if_neg hpd, if_neg hd]
      rfl
  · funext v
    rw [route_bindUsername, route_setUsername]
    rfl

end LiteChat.SessionManager
