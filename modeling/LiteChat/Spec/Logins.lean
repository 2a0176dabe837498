import Mathlib.Logic.Function.Basic
import Mathlib.Tactic.Common

/-!
# Who is logged in where

The session manager, seen from outside: a set of connections, at most one name logged in on each,
and for each name at most one connection that messages to it go to. Connections `κ` and names `ν`
are any types with decidable equality. `SessionManager.logins` (`Proof/Sessions.lean`) is the view
of the code's maps, and the lemmas there say which operation below each function of the manager is.

Four things happen to such a state. A connection appears with nobody on it (`connect`) or goes
(`drop`). A login takes the name away from the connection it is routed to (`kick`) and gives it to
another (`enter`); the code does these one after the other, and skips either of them when it finds
no session. The two halves of "the route of a name is the connection it is logged in on" behave
differently under that:

* `Sound`: a route leads to a connection where the name is logged in;
* `Complete`: a logged-in name is routed to its connection, so it is logged in nowhere else.

Logging in on a connection that is gone breaks `Sound`, logging in without the kick breaks
`Complete`, and nothing else breaks either.
-/

set_option linter.unusedSectionVars false

namespace LiteChat.Spec

/-- `login c` is `none` when the connection has no session, `some none` when nobody is logged in
there. -/
structure Logins (κ ν : Type) where
  login : κ → Option (Option ν)
  route : ν → Option κ

namespace Logins

variable {κ ν : Type} [DecidableEq κ] [DecidableEq ν]

def empty : Logins κ ν := ⟨fun _ => none, fun _ => none⟩

def connect (L : Logins κ ν) (c : κ) : Logins κ ν :=
  { L with login := fun d => if d = c then some none else L.login d }

def kick (L : Logins κ ν) (u : ν) : Logins κ ν :=
  { L with
    login := fun d => if L.route u = some d ∧ L.login d ≠ none then some none else L.login d }

def enter (L : Logins κ ν) (c : κ) (u : ν) : Logins κ ν :=
  if L.login c = none then L
  else
    { login := fun d => if d = c then some (some u) else L.login d
      route := fun v => if v = u then some c else L.route v }

def drop (L : Logins κ ν) (c : κ) : Logins κ ν where
  login := fun d => if d = c then none else L.login d
  route := fun v => if L.login c = some (some v) ∧ L.route v = some c then none else L.route v

/-- A login, with the kick or without it. -/
def signIn (L : Logins κ ν) (kicks : Bool) (c : κ) (u : ν) : Logins κ ν :=
  (if kicks then L.kick u else L).enter c u

/-- The name is logged in on the connection. -/
def At (L : Logins κ ν) (c : κ) (u : ν) : Prop := L.login c = some (some u)

def Sound (L : Logins κ ν) : Prop := ∀ u c, L.route u = some c → L.At c u

def Complete (L : Logins κ ν) : Prop := ∀ u c, L.At c u → L.route u = some c

theorem Complete.unique {L : Logins κ ν} (h : L.Complete) {u : ν} {c d : κ} (hc : L.At c u)
    (hd : L.At d u) : c = d :=
  Option.some.inj ((h u c hc).symm.trans (h u d hd))

/-- A connection that a name can log in on: it is there, and nobody else is logged in on it. -/
def Free (L : Logins κ ν) (c : κ) (u : ν) : Prop := L.login c = some none ∨ L.At c u

theorem Free.ne_none {L : Logins κ ν} {c : κ} {u : ν} (h : L.Free c u) : L.login c ≠ none := by
  rcases h with h | h
  · simp [h]
  · unfold At at h
    simp [h]

/-! ## Who is logged in after each operation -/

@[simp] theorem at_connect (L : Logins κ ν) (c d : κ) (u : ν) :
    (L.connect c).At d u ↔ d ≠ c ∧ L.At d u := by
  unfold At connect
  by_cases h : d = c <;> simp [h]

@[simp] theorem at_drop (L : Logins κ ν) (c d : κ) (u : ν) :
    (L.drop c).At d u ↔ d ≠ c ∧ L.At d u := by
  unfold At drop
  by_cases h : d = c <;> simp [h]

/-- A connection without a session has nothing to lose. -/
theorem drop_of_none {L : Logins κ ν} {c : κ} (hc : L.login c = none) : L.drop c = L := by
  unfold drop
  congr 1
  · funext d
    by_cases h : d = c
    · rw [if_pos h, h, hc]
    · rw [if_neg h]
  · funext v
    rw [if_neg fun h => absurd (hc.symm.trans h.1) (by simp)]

theorem at_kick (L : Logins κ ν) (d : κ) (u v : ν) :
    (L.kick u).At d v ↔ L.At d v ∧ L.route u ≠ some d := by
  unfold At kick
  by_cases h : L.route u = some d
  · by_cases hd : L.login d = none <;> simp [h, hd]
  · simp [h]

theorem login_kick_eq_none (L : Logins κ ν) (d : κ) (u : ν) :
    (L.kick u).login d = none ↔ L.login d = none := by
  unfold kick
  by_cases h : L.route u = some d ∧ L.login d ≠ none
  · simp [h]
  · simp only [if_neg h]

@[simp] theorem route_kick (L : Logins κ ν) (u : ν) : (L.kick u).route = L.route := rfl

theorem login_enter_eq_none (L : Logins κ ν) (c d : κ) (u : ν) :
    (L.enter c u).login d = none ↔ L.login d = none := by
  unfold enter
  by_cases hc : L.login c = none
  · rw [if_pos hc]
  · rw [if_neg hc]
    by_cases h : d = c
    · simp [h, hc]
    · simp [h]

theorem at_enter (L : Logins κ ν) {c d : κ} {u v : ν} (hc : L.login c ≠ none) :
    (L.enter c u).At d v ↔ if d = c then v = u else L.At d v := by
  unfold At enter
  rw [if_neg hc]
  by_cases h : d = c
  · simp [h, eq_comm]
  · simp [h]

theorem route_enter (L : Logins κ ν) {c : κ} {u v : ν} (hc : L.login c ≠ none) :
    (L.enter c u).route v = if v = u then some c else L.route v := by
  unfold enter
  rw [if_neg hc]

section signIn

variable {L : Logins κ ν} {kicks : Bool} {c d : κ} {u v : ν}

theorem login_signIn_eq_none : (L.signIn kicks c u).login d = none ↔ L.login d = none := by
  unfold signIn
  rw [login_enter_eq_none]
  cases kicks with
  | false => rfl
  | true => exact login_kick_eq_none L d u

theorem at_signIn (hc : L.login c ≠ none) :
    (L.signIn kicks c u).At d v ↔
      if d = c then v = u else L.At d v ∧ (kicks = true → L.route u ≠ some d) := by
  unfold signIn
  cases kicks with
  | false => simp [at_enter L hc]
  | true =>
    have hk : (L.kick u).login c ≠ none := fun h => hc ((login_kick_eq_none L c u).mp h)
    simp [at_enter _ hk, at_kick]

theorem route_signIn (hc : L.login c ≠ none) :
    (L.signIn kicks c u).route v = if v = u then some c else L.route v := by
  unfold signIn
  cases kicks with
  | false => simp [route_enter L hc]
  | true =>
    have hk : (L.kick u).login c ≠ none := fun h => hc ((login_kick_eq_none L c u).mp h)
    simp [route_enter _ hk]

/-- Whatever a login does, nobody gets a name by it but the one who logs in. -/
theorem at_of_signIn (h : (L.signIn kicks c u).At d v) : if d = c then v = u else L.At d v := by
  by_cases hc : L.login c = none
  · have hd : L.login d ≠ none := by
      intro hn
      have : (L.signIn kicks c u).login d = none := login_signIn_eq_none.mpr hn
      exact absurd (h.symm.trans this) (by simp)
    have hdc : d ≠ c := fun hdc => hd (hdc ▸ hc)
    rw [if_neg hdc]
    have hkick : (if kicks = true then L.kick u else L).At d v := by
      unfold signIn enter at h
      rwa [if_pos] at h
      split
      · exact (login_kick_eq_none L c u).mpr hc
      · exact hc
    cases kicks with
    | false => exact hkick
    | true => exact ((at_kick L d u v).mp hkick).1
  · rw [at_signIn hc] at h
    by_cases hdc : d = c
    · rwa [if_pos hdc] at h ⊢
    · rw [if_neg hdc] at h ⊢
      exact h.1

end signIn

/-! ## Routes stay sound -/

theorem Sound.empty : (Logins.empty : Logins κ ν).Sound := by
  intro u c h
  exact absurd h (by simp [Logins.empty])

theorem Sound.connect {L : Logins κ ν} (h : L.Sound) {c : κ} (hc : L.login c = none) :
    (L.connect c).Sound := by
  intro u d hd
  have hat := h u d hd
  refine (at_connect L c d u).mpr ⟨?_, hat⟩
  rintro rfl
  exact absurd hat (by simp [At, hc])

theorem Sound.drop {L : Logins κ ν} (h : L.Sound) (c : κ) : (L.drop c).Sound := by
  intro u d hd
  have hr : L.route u = some d ∧ ¬ (L.login c = some (some u) ∧ L.route u = some c) := by
    unfold Logins.drop at hd
    dsimp only at hd
    split at hd
    · exact absurd hd (by simp)
    · exact ⟨hd, ‹_›⟩
  have hat := h u d hr.1
  refine (at_drop L c d u).mpr ⟨?_, hat⟩
  rintro rfl
  exact hr.2 ⟨hat, hr.1⟩

theorem Sound.signIn {L : Logins κ ν} (h : L.Sound) {c : κ} {u : ν} (hfree : L.Free c u)
    (kicks : Bool) : (L.signIn kicks c u).Sound := by
  intro v d hd
  rw [route_signIn hfree.ne_none] at hd
  rw [at_signIn hfree.ne_none]
  by_cases hv : v = u
  · rw [if_pos hv] at hd
    rw [if_pos (Option.some.inj hd).symm]
    exact hv
  · rw [if_neg hv] at hd
    have hat := h v d hd
    have hdc : d ≠ c := by
      rintro rfl
      rcases hfree with hn | hn
      · exact absurd (hat.symm.trans hn) (by simp)
      · exact hv (Option.some.inj (Option.some.inj (hat.symm.trans hn)))
    rw [if_neg hdc]
    refine ⟨hat, fun _ hu => hv ?_⟩
    exact Option.some.inj (Option.some.inj (hat.symm.trans (h u d hu)))

/-! ## Routes stay complete -/

theorem Complete.empty : (Logins.empty : Logins κ ν).Complete := by
  intro u c h
  exact absurd h (by simp [At, Logins.empty])

theorem Complete.connect {L : Logins κ ν} (h : L.Complete) (c : κ) : (L.connect c).Complete := by
  intro u d hd
  exact h u d ((at_connect L c d u).mp hd).2

theorem Complete.drop {L : Logins κ ν} (h : L.Complete) (c : κ) : (L.drop c).Complete := by
  intro u d hd
  obtain ⟨hdc, hat⟩ := (at_drop L c d u).mp hd
  have hr := h u d hat
  unfold Logins.drop
  dsimp only
  rw [if_neg fun hc => hdc (Option.some.inj (hr.symm.trans hc.2))]
  exact hr

/-- A login keeps the routes complete if it kicks whoever has the name. -/
theorem Complete.signIn {L : Logins κ ν} (h : L.Complete) {c : κ} {u : ν} (hfree : L.Free c u)
    {kicks : Bool} (hk : (∃ d, L.At d u) → kicks = true) : (L.signIn kicks c u).Complete := by
  intro v d hd
  rw [route_signIn hfree.ne_none]
  rw [at_signIn hfree.ne_none] at hd
  by_cases hdc : d = c
  · rw [if_pos hdc] at hd
    rw [if_pos hd, hdc]
  · rw [if_neg hdc] at hd
    have hv : v ≠ u := by
      rintro rfl
      exact hd.2 (hk ⟨d, hd.1⟩) (h v d hd.1)
    rw [if_neg hv]
    exact h v d hd.1

/-- After a login that kicks whoever has the name, the name is logged in there and nowhere else. -/
theorem at_signIn_self {L : Logins κ ν} (h : L.Complete) {c : κ} {u : ν} (hfree : L.Free c u)
    {kicks : Bool} (hk : (∃ d, L.At d u) → kicks = true) (d : κ) :
    (L.signIn kicks c u).At d u ↔ d = c := by
  rw [at_signIn hfree.ne_none]
  by_cases hdc : d = c
  · simp [hdc]
  · rw [if_neg hdc]
    exact ⟨fun hd => absurd (h u d hd.1) (hd.2 (hk ⟨d, hd.1⟩)), fun hd => absurd hd hdc⟩

/-- Other names stay where they are. -/
theorem at_signIn_other {L : Logins κ ν} (hs : L.Sound) {c : κ} {u v : ν} (hfree : L.Free c u)
    {kicks : Bool} (hv : v ≠ u) (d : κ) : (L.signIn kicks c u).At d v ↔ L.At d v := by
  rw [at_signIn hfree.ne_none]
  by_cases hdc : d = c
  · subst hdc
    rw [if_pos rfl]
    refine ⟨fun h => absurd h hv, fun hat => ?_⟩
    rcases hfree with hn | hn
    · exact absurd (hat.symm.trans hn) (by simp)
    · exact absurd (Option.some.inj (Option.some.inj (hat.symm.trans hn))) hv
  · rw [if_neg hdc]
    refine ⟨fun h => h.1, fun hat => ⟨hat, fun _ hr => hv ?_⟩⟩
    exact Option.some.inj (Option.some.inj (hat.symm.trans (hs u d hr)))

end Logins

end LiteChat.Spec
