import LiteChat.Effect.Journal

/-!
# Programs that throw

A program with exceptions ends with an answer or with an exception, so it is a `Prog` under `ExceptT`.
Code that throws nothing is `Prog.clear`: no handler around it is ever entered (`tryCatch_clear`).
`Prog.within` reads a program over some operations as one over more operations, as it is where modules
with operations of their own are put together.
-/

namespace Effect

namespace Prog

variable {Op Op' : Type} {Res : Op → Type} {Res' : Op' → Type} {ε α β χ χ' σ σ' : Type}

/-- The laws of a monad. This is no instance, because `simp` would then write every program in a
normal form of its own. -/
theorem lawfulMonad : LawfulMonad (Prog Op Res) :=
  LawfulMonad.mk' _ bind_pure (fun _ _ => rfl) bind_assoc

/-! ## Code that throws nothing -/

/-- A program as one that could throw. -/
def clear (p : Prog Op Res α) : ExceptT ε (Prog Op Res) α := ExceptT.mk (p.bind fun a => .pure (.ok a))

theorem run_clear (p : Prog Op Res α) :
    (p.clear : ExceptT ε (Prog Op Res) α).run = p.bind fun a => .pure (.ok a) := rfl

theorem clear_bind (p : Prog Op Res α) (f : α → Prog Op Res β) :
    ((p.bind f).clear : ExceptT ε (Prog Op Res) β) = p.clear >>= fun a => (f a).clear := by
  show ((p.bind f).bind fun b => .pure (.ok b) : Prog Op Res (Except ε β)) =
    (p.bind fun a => .pure (.ok a)).bind (ExceptT.bindCont fun a => (f a).clear)
  rw [bind_assoc, bind_assoc]
  rfl

/-- A handler around code that throws nothing is not entered. -/
theorem tryCatch_clear (p : Prog Op Res α) (h : ε → ExceptT ε (Prog Op Res) α) :
    tryCatch (p.clear : ExceptT ε (Prog Op Res) α) h = p.clear := by
  show ((p.bind fun a => .pure (Except.ok a)).bind fun r => match r with
    | .ok a => .pure (Except.ok a)
    | .error e => (h e).run : Prog Op Res (Except ε α)) = p.bind fun a => .pure (Except.ok a)
  rw [bind_assoc]
  rfl

/-! ## Among more operations -/

/-- The program, with its operations among those of `Op'`. -/
def within (ι : Op → Op') (back : (o : Op) → Res' (ι o) → Res o) : Prog Op Res α → Prog Op' Res' α
  | .pure a => .pure a
  | .call o k => .call (ι o) fun r => (k (back o r)).within ι back

variable {ι : Op → Op'} {back : (o : Op) → Res' (ι o) → Res o}

theorem within_bind (p : Prog Op Res α) (f : α → Prog Op Res β) :
    (p.bind f).within ι back = (p.within ι back).bind fun a => (f a).within ι back := by
  induction p with
  | pure a => rfl
  | call o k ih => simp only [call_bind, within, ih]

theorem uses_within (p : Prog Op Res α) : (p.within ι back).Uses fun o' => ∃ o, o' = ι o := by
  induction p with
  | pure a => trivial
  | call o k ih => exact ⟨⟨o, rfl⟩, fun r => ih _⟩

/-- Where the operations do the same to a part of the state, so does the program. -/
theorem run_within [Inhabited χ] [Inhabited χ'] {H : Handler Op Res χ σ}
    {H' : Handler Op' Res' χ' σ'} (g : χ' → χ) (part : σ' → σ) (put : σ → σ' → σ')
    (hdefault : g default = default) (hput : ∀ s, put (part s) s = s)
    (hpart : ∀ t s, part (put t s) = t) (hputput : ∀ t t' s, put t (put t' s) = put t s)
    (hop : ∀ o c s, back o (H' (ι o) c s).1 = (H o (g c) (part s)).1 ∧
      (H' (ι o) c s).2 = put (H o (g c) (part s)).2 s)
    (p : Prog Op Res α) (cs : List χ') (s : σ') :
    (p.within ι back).run H' cs s =
      ((p.run H (cs.map g) (part s)).1, put (p.run H (cs.map g) (part s)).2 s) := by
  induction p generalizing cs s with
  | pure a => exact Prod.ext rfl (hput s).symm
  | call o k ih =>
    have hhead : (cs.map g).headD default = g (cs.headD default) := by
      cases cs with
      | nil => exact hdefault.symm
      | cons c cs => rfl
    obtain ⟨hanswer, hstate⟩ := hop o (cs.headD default) s
    unfold within run
    rw [ih, hanswer, hstate, hhead, hpart, hputput, List.map_tail]

end Prog

/-- A run calls what the program may call. -/
theorem Prog.mem_calls {Op : Type} {Res : Op → Type} {α χ σ : Type} [Inhabited χ]
    {H : Handler Op Res χ σ} {S : Op → Prop} {p : Prog Op Res α} (hp : p.Uses S) {cs : List χ} {s : σ}
    {call : Call Op Res} (h : call ∈ p.calls H cs s) : S call.1 := by
  induction p generalizing cs s with
  | pure a => cases h
  | call o k ih =>
    rcases List.mem_cons.mp h with rfl | h
    · exact hp.1
    · exact ih _ (hp.2 _) h

end Effect
