import Mathlib.Tactic.Common

/-!
# Loops

A round of a `while` loop ends it with a result, or leads to the state before the next one. What an
invariant holds of `Advance`s: a round ends with a result that is as it should be, or keeps the
invariant and lessens a measure. So the loop ends, with such a result, after no more rounds than the
measure says (`Advance.loop`), and it is in no state after more of them (`Advance.reached`).
-/

namespace Effect

variable {σ ρ : Type}

/-- The result, if the loop ends within the rounds. -/
def loop (round : σ → ρ ⊕ σ) : Nat → σ → Option ρ
  | 0, _ => none
  | rounds + 1, s =>
    match round s with
    | .inl r => some r
    | .inr s' => loop round rounds s'

/-- The loop goes from one state to another in so many rounds. -/
inductive Reached (round : σ → ρ ⊕ σ) (s : σ) : Nat → σ → Prop
  | start : Reached round s 0 s
  | next {rounds : Nat} {t t' : σ} (h : Reached round s rounds t) (ht : round t = .inr t') :
      Reached round s (rounds + 1) t'

/-- One round. -/
inductive Advance (round : σ → ρ ⊕ σ) (Inv : σ → Prop) (measure : σ → Nat) (Post : ρ → Prop)
    (s : σ) : Prop
  | done (r : ρ) (hs : round s = .inl r) (post : Post r)
  | next (s' : σ) (hs : round s = .inr s') (inv : Inv s') (lt : measure s' < measure s)

variable {round : σ → ρ ⊕ σ} {Inv : σ → Prop} {measure : σ → Nat} {Post : ρ → Prop} {s : σ}

theorem loop_inl {r : ρ} (h : round s = .inl r) (rounds : Nat) :
    loop round (rounds + 1) s = some r := by
  unfold loop
  rw [h]

theorem loop_inr {s' : σ} (h : round s = .inr s') (rounds : Nat) :
    loop round (rounds + 1) s = loop round rounds s' := by
  rw [loop, h]

/-- A result is that of the last round. -/
theorem Reached.exists_inl {rounds rounds' : Nat} {t : σ} {r : ρ} (h : Reached round s rounds t)
    (hloop : loop round rounds' t = some r) :
    ∃ last t', Reached round s last t' ∧ round t' = .inl r := by
  induction rounds' generalizing rounds t with
  | zero => cases hloop
  | succ rounds' ih =>
    cases ht : round t with
    | inl r' =>
      rw [loop_inl ht] at hloop
      cases hloop
      exact ⟨rounds, t, h, ht⟩
    | inr t' =>
      rw [loop_inr ht] at hloop
      exact ih (h.next ht) hloop

/-- **The rule for loops.** -/
theorem Advance.loop (h : ∀ s, Inv s → Advance round Inv measure Post s) (hs : Inv s) :
    ∃ r, (∀ rounds, measure s < rounds → loop round rounds s = some r) ∧ Post r := by
  generalize hm : measure s = m
  induction m using Nat.strongRecOn generalizing s with
  | ind m ih =>
    have hsucc : ∀ rounds, m < rounds → ∃ n, rounds = n + 1 := by
      intro rounds hlt
      exact Nat.exists_eq_succ_of_ne_zero (Nat.ne_of_gt (Nat.zero_lt_of_lt hlt))
    cases h s hs with
    | done r hr post =>
      refine ⟨r, fun rounds hlt => ?_, post⟩
      obtain ⟨n, rfl⟩ := hsucc rounds hlt
      exact loop_inl hr n
    | next s' hr inv lt =>
      obtain ⟨r, hloop, post⟩ := ih (measure s') (hm ▸ lt) inv rfl
      refine ⟨r, fun rounds hlt => ?_, post⟩
      obtain ⟨n, rfl⟩ := hsucc rounds hlt
      rw [loop_inr hr]
      apply hloop
      omega

/-- The states of the loop have the invariant, and the measure counts the rounds. -/
theorem Advance.reached (h : ∀ s, Inv s → Advance round Inv measure Post s) (hs : Inv s)
    {rounds : Nat} {t : σ} (ht : Reached round s rounds t) :
    Inv t ∧ rounds + measure t ≤ measure s := by
  induction ht with
  | start => exact ⟨hs, by omega⟩
  | next _ hround ih =>
    obtain ⟨hinv, hle⟩ := ih
    cases h _ hinv with
    | done r hr post =>
      rw [hr] at hround
      cases hround
    | next s' hr inv lt =>
      rw [hr] at hround
      cases hround
      exact ⟨inv, by omega⟩

end Effect
