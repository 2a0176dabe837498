import LiteChat.Effect.Interleave
import LiteChat.Effect.Journal

/-!
# Threads that keep to a protocol whatever they are answered

`Prog.Obeys Ok p own`: with the calls `own` behind it, the program makes only calls that are `Ok` in
view of its own calls before. Nothing is assumed of the answers, nor of what the other threads do, so
the rule for a pool (`Pool.obeys_runAll`) holds for every interleaving and every environment.

What a thread has been told it stays told: the calls behind it only grow, and the rule for a sequence
says so. What was true of the calls behind it at the moment of one of its calls is what `Made` keeps, which
is how a statement about the end of a run can say what a thread had been asked when it did something.
-/

namespace Effect

variable {ι Op : Type} {Res : Op → Type} {α β χ σ : Type}

/-- A condition that every event meets is met by every run. -/
theorem Meets.of_forall {ε : Type} {step : σ → ε → σ} {Cond : σ → ε → Prop}
    (h : ∀ s e, Cond s e) (s : σ) (es : List ε) : Meets step Cond s es := by
  induction es generalizing s with
  | nil => trivial
  | cons e es ih => exact ⟨h s e, ih _⟩

namespace Prog

/-- Whatever it is answered, the program makes calls that are `Ok` in view of its own before. -/
def Obeys (Ok : List (Call Op Res) → Op → Prop) (p : Prog Op Res α) (own : List (Call Op Res)) :
    Prop :=
  p.Expecting (fun _ => True) Ok (fun _ own' => own <+: own') own

section Rules

variable {Ok : List (Call Op Res) → Op → Prop} {own : List (Call Op Res)}

theorem obeys_pure (a : α) : (Prog.pure a : Prog Op Res α).Obeys Ok own := List.prefix_rfl

/-- The rule for a call. -/
theorem Obeys.call {o : Op} {f : Res o → Prog Op Res α} (hok : Ok own o)
    (hf : ∀ r, (f r).Obeys Ok (own ++ [⟨o, r⟩])) : ((op o).bind f).Obeys Ok own := by
  refine Expecting.call hok fun r _ => (hf r).mono fun _ own' h => ?_
  exact (List.prefix_append own _).trans h

theorem obeys_op {o : Op} (hok : Ok own o) : (op o : Prog Op Res _).Obeys Ok own :=
  ⟨hok, fun _ _ => List.prefix_append own _⟩

/-- The rule for a sequence: what was told before is still known after. -/
theorem Obeys.seq {p : Prog Op Res α} {f : α → Prog Op Res β} (hp : p.Obeys Ok own)
    (hf : ∀ a own', own <+: own' → (f a).Obeys Ok own') : (p.bind f).Obeys Ok own := by
  refine Expecting.seq hp fun a own' hown => (hf a own' hown).mono fun _ own'' h => ?_
  exact hown.trans h

/-- A program that keeps to its protocol obeys it, whatever else it is known to end with. -/
theorem Expecting.obeys {Done : α → List (Call Op Res) → Prop} {p : Prog Op Res α}
    (h : p.Expecting (fun _ => True) Ok Done own) : p.Obeys Ok own := by
  induction p generalizing own with
  | pure a => exact obeys_pure a
  | call o k ih => exact Obeys.call h.1 fun r => ih r (h.2 r trivial)

/-- What a program does not do for two reasons. -/
theorem Uses.and {S T : Op → Prop} {p : Prog Op Res α} (hS : p.Uses S) (hT : p.Uses T) :
    p.Uses fun o => S o ∧ T o := by
  induction p with
  | pure a => trivial
  | call o k ih => exact ⟨⟨hS.1, hT.1⟩, fun r => ih r (hS.2 r) (hT.2 r)⟩

/-- The rule for a program over operations that are allowed from here on. -/
theorem Uses.obeys {S : Op → Prop} {p : Prog Op Res α} (hp : p.Uses S)
    (h : ∀ o own', S o → own <+: own' → Ok own' o) : p.Obeys Ok own := by
  refine hp.expecting (fun own' => own <+: own') List.prefix_rfl fun own' o hown ho => ?_
  exact ⟨h o own' ho hown, fun r _ => hown.trans (List.prefix_append own' _)⟩

/-- The rule for a program that obeys and runs alone: an invariant that its calls keep holds at its end. -/
theorem Obeys.wp {H : Handler Op Res χ σ} {A : χ → Prop} {J : σ → List (Call Op Res) → Prop}
    {p : Prog Op Res α} {s : σ} (hp : p.Obeys Ok own) (hs : J s own)
    (hJ : ∀ s own o c, J s own → Ok own o → A c → J (H o c s).2 (own ++ [⟨o, (H o c s).1⟩])) :
    p.wp H A (fun _ s' => ∃ own', own <+: own' ∧ J s' own') s := by
  suffices hgrown : ∀ own', own <+: own' → J s own' →
      p.Expecting (fun _ => True) Ok (fun _ own'' => own <+: own'') own' →
      p.wp H A (fun _ s' => ∃ own'', own <+: own'' ∧ J s' own'') s from
    hgrown own List.prefix_rfl hs hp
  clear hp hs
  induction p generalizing s with
  | pure a => exact fun own' hown hs _ => ⟨own', hown, hs⟩
  | call o k ih =>
    intro own' hown hs hp c hc
    exact ih _ _ (hown.trans (List.prefix_append _ _)) (hJ s own' o c hs hp.1 hc) (hp.2 _ trivial)

/-- The rule for a program somewhere in the middle: what its calls keep holds of those it has made, and it
keeps to its protocol with what is left of it. -/
theorem Makes.keeps {Done : α → List (Call Op Res) → Prop} {J : List (Call Op Res) → Prop}
    {p q : Prog Op Res α} (h : p.Makes own q) (hp : p.Expecting (fun _ => True) Ok Done []) (hnil : J [])
    (hJ : ∀ own o r, J own → Ok own o → J (own ++ [⟨o, r⟩])) :
    J own ∧ q.Expecting (fun _ => True) Ok Done own := by
  induction h with
  | start => exact ⟨hnil, hp⟩
  | call h r ih => exact ⟨hJ _ _ r ih.1 ih.2.1, ih.2.2 r trivial⟩

end Rules

end Prog

/-! ## A call that was made -/

section Made

variable {own own' : List (Call Op Res)} {c : Call Op Res} {Q : List (Call Op Res) → Prop}

/-- The thread has made that call, and when it did the calls behind it were as `Q` says. -/
def Made (own : List (Call Op Res)) (c : Call Op Res) (Q : List (Call Op Res) → Prop) : Prop :=
  ∃ before, before ++ [c] <+: own ∧ Q before

theorem Made.now (h : Q own) (c : Call Op Res) : Made (own ++ [c]) c Q := ⟨own, List.prefix_rfl, h⟩

theorem Made.mono (h : Made own c Q) (hown : own <+: own') : Made own' c Q := by
  obtain ⟨before, hbefore, hQ⟩ := h
  exact ⟨before, hbefore.trans hown, hQ⟩

theorem Made.mem (h : Made own c Q) : c ∈ own := by
  obtain ⟨before, hbefore, _⟩ := h
  exact hbefore.subset List.mem_concat_self

end Made

namespace Pool

section Own

variable [DecidableEq ι] {β : Type} {h h' : List (ι × β)} {i j : ι} {o o' : β}

theorem own_prefix (hh : h <+: h') (i : ι) : own h i <+: own h' i := (hh.filter _).map _

theorem mem_own_concat : o ∈ own (h ++ [(j, o')]) i ↔ o ∈ own h i ∨ i = j ∧ o = o' := by
  simp [mem_own]

end Own

variable [DecidableEq ι] {H : Handler Op Res χ σ} {Ok : ι → List (Call Op Res) → Op → Prop}
  {J : σ → List (ι × Call Op Res) → Prop}

/-- Threads that obey go on obeying. -/
theorem obeys_step {t : Pool ι Op Res α σ} (h : ∀ i, (t.threads i).Obeys (Ok i) (own t.calls i))
    (e : ι × χ) (i : ι) :
    ((Pool.step H t e).threads i).Obeys (Ok i) (own (Pool.step H t e).calls i) := by
  cases hcall : t.threads e.1 with
  | pure a =>
    have hsame : Pool.step H t e = t := by
      unfold Pool.step
      rw [hcall]
    rw [hsame]
    exact h i
  | call o k =>
    rw [step_call hcall]
    by_cases hi : i = e.1
    · subst hi
      have hthread := h e.1
      rw [hcall] at hthread
      dsimp only
      rw [Function.update_self, own_append_self]
      exact (hthread.2 _ trivial).obeys
    · dsimp only
      rw [Function.update_of_ne hi, own_append_ne fun h => hi h.symm]
      exact h i

/-- The rule for threads that keep to their protocols in every environment, with what they have done by
their ends. -/
theorem ending_runAll {Done : ι → α → List (Call Op Res) → Prop} {threads : ι → Prog Op Res α} {s : σ}
    (hthreads : ∀ i, (threads i).Expecting (fun _ => True) (Ok i) (Done i) []) (hs : J s [])
    (hJ : ∀ s hist i o c, J s hist → Ok i (own hist i) o →
      J (H o c s).2 (hist ++ [(i, ⟨o, (H o c s).1⟩)])) (es : List (ι × χ)) :
    J (runAll (Pool.step H) (start threads s) es).shared
        (runAll (Pool.step H) (start threads s) es).calls ∧
      ∀ i, ((runAll (Pool.step H) (start threads s) es).threads i).isPure = true →
        ∃ a, Done i a (own (runAll (Pool.step H) (start threads s) es).calls i) := by
  have hes : Meets (Pool.step H) (AllowsCalls (fun _ => True) fun _ _ _ _ => True)
      (start threads s) es := by
    refine .of_forall (fun t e => ⟨trivial, ?_⟩) _ _
    cases t.threads e.1 <;> trivial
  refine expecting_runAll hthreads hs hes ?_
  intro s hist i o c h hok _ _
  exact ⟨trivial, hJ s hist i o c h hok⟩

/-- **The rule for threads that obey.** What every call allowed by its thread's protocol keeps holds at
the end of every interleaving. -/
theorem obeys_runAll {threads : ι → Prog Op Res α} {s : σ}
    (hthreads : ∀ i, (threads i).Obeys (Ok i) []) (hs : J s [])
    (hJ : ∀ s hist i o c, J s hist → Ok i (own hist i) o →
      J (H o c s).2 (hist ++ [(i, ⟨o, (H o c s).1⟩)])) (es : List (ι × χ)) :
    J (runAll (Pool.step H) (start threads s) es).shared
      (runAll (Pool.step H) (start threads s) es).calls := by
  have hexpecting : ∀ i, (threads i).Expecting (fun _ => True) (Ok i) (fun _ own' => [] <+: own') [] :=
    hthreads
  exact (ending_runAll hexpecting hs hJ es).1

end Pool

end Effect
