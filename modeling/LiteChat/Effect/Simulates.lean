import LiteChat.Effect.Interleave

/-!
# One program for another

Two programs over two kinds of operations run in step if each call of the one matches the call of the
other, and whatever matching answers they are given, they go on in step (`Prog.Simulates`). `Match o o' T`
says that the calls match and that `T` is how their answers are related.

If the states of the two are related as well, by a relation that matching calls keep and under which
they are answered as `T` says (`Respects`), a pool of the one and a pool of the other that take the same
turns stay in related states, thread by thread (`Pool.simulates_runAll`). A program that makes only calls
that match themselves, with the same answer, runs in step with itself (`Uses.simulates`): only the code
that looks at what the relation changes is left to be compared.
-/

namespace Effect

variable {ι Op Op' : Type} {Res : Op → Type} {Res' : Op' → Type} {α β χ σ τ : Type}

namespace Prog

/-- The programs run in step. -/
def Simulates (Match : (o : Op) → (o' : Op') → (Res o → Res' o' → Prop) → Prop) :
    Prog Op Res α → Prog Op' Res' α → Prop
  | .pure a, q => q = .pure a
  | .call o k, q => ∃ o' k' T, q = .call o' k' ∧ Match o o' T ∧
      ∀ r r', T r r' → (k r).Simulates Match (k' r')

section Rules

variable {Match : (o : Op) → (o' : Op') → (Res o → Res' o' → Prop) → Prop}

/-- The rule for a call. -/
theorem Simulates.call {o : Op} {o' : Op'} {T : Res o → Res' o' → Prop} (hmatch : Match o o' T)
    {f : Res o → Prog Op Res α} {f' : Res' o' → Prog Op' Res' α}
    (hf : ∀ r r', T r r' → (f r).Simulates Match (f' r')) :
    ((op o).bind f).Simulates Match ((op o').bind f') := ⟨o', f', T, rfl, hmatch, hf⟩

/-- The rule for a sequence. -/
theorem Simulates.bind {p : Prog Op Res α} {q : Prog Op' Res' α} {f : α → Prog Op Res β}
    {f' : α → Prog Op' Res' β} (h : p.Simulates Match q)
    (hf : ∀ a, (f a).Simulates Match (f' a)) : (p.bind f).Simulates Match (q.bind f') := by
  induction p generalizing q with
  | pure a =>
    cases h
    exact hf a
  | call o k ih =>
    obtain ⟨o', k', T, rfl, hmatch, hk⟩ := h
    exact ⟨o', _, T, rfl, hmatch, fun r r' hr => ih r (hk r r' hr)⟩

theorem simulates_ite {c : Prop} [Decidable c] {p₁ p₂ : Prog Op Res α} {q₁ q₂ : Prog Op' Res' α}
    (h₁ : p₁.Simulates Match q₁) (h₂ : p₂.Simulates Match q₂) :
    (if c then p₁ else p₂).Simulates Match (if c then q₁ else q₂) := by
  split
  · exact h₁
  · exact h₂

/-- A program over operations that match themselves, with the same answer. -/
theorem Uses.simulates {Match : (o o' : Op) → (Res o → Res o' → Prop) → Prop} {S : Op → Prop}
    {p : Prog Op Res α} (hp : p.Uses S) (hS : ∀ o, S o → Match o o (· = ·)) :
    p.Simulates Match p := by
  induction p with
  | pure a => rfl
  | call o k ih =>
    refine ⟨o, k, _, rfl, hS o hp.1, fun r r' hr => ?_⟩
    subst hr
    exact ih r (hp.2 r)

end Rules

/-- Matching calls, made in related states, are answered as they match, and keep the relation. -/
def Respects (Match : (o : Op) → (o' : Op') → (Res o → Res' o' → Prop) → Prop) (R : σ → τ → Prop)
    (H : Handler Op Res χ σ) (H' : Handler Op' Res' χ τ) : Prop :=
  ∀ o o' T, Match o o' T → ∀ c s t, R s t → T (H o c s).1 (H' o' c t).1 ∧ R (H o c s).2 (H' o' c t).2

end Prog

namespace Pool

variable [DecidableEq ι] {Match : (o : Op) → (o' : Op') → (Res o → Res' o' → Prop) → Prop}
  {R : σ → τ → Prop} {H : Handler Op Res χ σ} {H' : Handler Op' Res' χ τ}
  {t : Pool ι Op Res α σ} {t' : Pool ι Op' Res' α τ}

/-- Every thread runs in step with the other of its name, on related states. -/
structure InStep (Match : (o : Op) → (o' : Op') → (Res o → Res' o' → Prop) → Prop) (R : σ → τ → Prop)
    (t : Pool ι Op Res α σ) (t' : Pool ι Op' Res' α τ) : Prop where
  threads : ∀ i, (t.threads i).Simulates Match (t'.threads i)
  shared : R t.shared t'.shared

theorem InStep.step (hH : Prog.Respects Match R H H') (h : InStep Match R t t') (e : ι × χ) :
    InStep Match R (Pool.step H t e) (Pool.step H' t' e) := by
  have hthread := h.threads e.1
  cases hcall : t.threads e.1 with
  | pure a =>
    rw [hcall] at hthread
    unfold Pool.step
    rw [hcall, show t'.threads e.1 = .pure a from hthread]
    exact h
  | call o k =>
    rw [hcall] at hthread
    obtain ⟨o', k', T, hcall', hmatch, hk⟩ := hthread
    obtain ⟨hanswer, hshared⟩ := hH o o' T hmatch e.2 _ _ h.shared
    rw [Pool.step_call hcall, Pool.step_call hcall']
    refine ⟨fun i => ?_, hshared⟩
    by_cases hi : i = e.1
    · subst hi
      dsimp only
      rw [Function.update_self, Function.update_self]
      exact hk _ _ hanswer
    · dsimp only
      rw [Function.update_of_ne hi, Function.update_of_ne hi]
      exact h.threads i

/-- **The rule for pools in step.** The same turns, and the same choices of the environment, lead
related pools to related pools. -/
theorem simulates_runAll (hH : Prog.Respects Match R H H') (h : InStep Match R t t')
    (es : List (ι × χ)) : InStep Match R (runAll (Pool.step H) t es) (runAll (Pool.step H') t' es) := by
  induction es generalizing t t' with
  | nil => exact h
  | cons e es ih => exact ih (h.step hH e)

end Pool

end Effect
