import LiteChat.Effect.Prog

/-!
# What a run has called

`Prog.calls` is the list of the calls that a program makes when it runs alone, each with its answer.
It is how a statement speaks of what the environment did to a run: which writes went through, and
which did not.

`wpc` is `wp` for such statements. Most calls say nothing of interest, so it looks at them through a
function `see`, which gives what there is to be noted of a call. Code of which nothing is ever noted
obeys its `wp` (`wpc_of_wp`), so only the calls that are seen need rules of their own.

Among other threads a program does not run alone, and what it is answered is not of its own making.
`Prog.Makes` says of a list of calls with their answers only that the program may make them, one after
the other, and what is left of it then.
-/

namespace Effect

namespace Prog

variable {Op : Type} {Res : Op → Type} {α β χ σ ω : Type}

/-- The calls of a run, in their order. -/
def calls [Inhabited χ] (H : Handler Op Res χ σ) : Prog Op Res α → List χ → σ → List (Call Op Res)
  | .pure _, _, _ => []
  | .call o k, cs, s => ⟨o, (H o (cs.headD default) s).1⟩ ::
      (k (H o (cs.headD default) s).1).calls H cs.tail (H o (cs.headD default) s).2

/-- `wpc H A see p Q s`: run from `s` on choices that all satisfy `A`, the program ends with an
answer, a list of what was seen of its calls, and a state that satisfy `Q`. -/
def wpc (H : Handler Op Res χ σ) (A : χ → Prop) (see : Call Op Res → Option ω) :
    Prog Op Res α → (α → List ω → σ → Prop) → σ → Prop
  | .pure a, Q, s => Q a [] s
  | .call o k, Q, s => ∀ c, A c → (k (H o c s).1).wpc H A see
      (fun a l t => Q a ((see ⟨o, (H o c s).1⟩).toList ++ l) t) (H o c s).2

/-- Having made these calls and been answered so, by whomever, the program has come to `q`: this is what
is left of it. It has run to its end if `q` is a `pure`. -/
inductive Makes (p : Prog Op Res α) : List (Call Op Res) → Prog Op Res α → Prop
  | start : p.Makes [] p
  | call {own : List (Call Op Res)} {o : Op} {k : Res o → Prog Op Res α} (h : p.Makes own (.call o k))
      (r : Res o) : p.Makes (own ++ [⟨o, r⟩]) (k r)

section Rules

variable {H : Handler Op Res χ σ} {A : χ → Prop} {see : Call Op Res → Option ω}
  {Q R : α → List ω → σ → Prop} {s : σ}

@[simp] theorem wpc_pure (a : α) : (Prog.pure a : Prog Op Res α).wpc H A see Q s ↔ Q a [] s :=
  Iff.rfl

theorem wpc_op (o : Op) {Q : Res o → List ω → σ → Prop} :
    (op o : Prog Op Res _).wpc H A see Q s ↔
      ∀ c, A c → Q (H o c s).1 (see ⟨o, (H o c s).1⟩).toList (H o c s).2 := by
  simp only [op, wpc, List.append_nil]

/-- The rule of consequence. -/
theorem wpc_mono {p : Prog Op Res α} (h : p.wpc H A see Q s) (hQR : ∀ a l t, Q a l t → R a l t) :
    p.wpc H A see R s := by
  induction p generalizing s Q R with
  | pure a => exact hQR a [] s h
  | call o k ih => exact fun c hc => ih _ (h c hc) fun a l t => hQR a _ t

@[simp] theorem wpc_bind (p : Prog Op Res α) (f : α → Prog Op Res β)
    {Q : β → List ω → σ → Prop} :
    (p.bind f).wpc H A see Q s ↔ p.wpc H A see
      (fun a l t => (f a).wpc H A see (fun b l' u => Q b (l ++ l') u) t) s := by
  induction p generalizing s Q with
  | pure a => simp only [pure_bind, wpc_pure, List.nil_append]
  | call o k ih => simp only [call_bind, wpc, ih, List.append_assoc]

/-- Code obeys its `wp`, and what is seen of it is of the calls it may make. -/
theorem wpc_of_wp {S : Op → Prop} {p : Prog Op Res α} (hp : p.Uses S)
    (h : p.wp H A (fun a t => ∀ l, (∀ e ∈ l, ∃ o r, S o ∧ see ⟨o, r⟩ = some e) → Q a l t) s) :
    p.wpc H A see Q s := by
  induction p generalizing s Q with
  | pure a => exact h [] nofun
  | call o k ih =>
    intro c hc
    refine ih _ (hp.2 _) (wp_mono (h c hc) fun a t hQ l hl => hQ _ fun e he => ?_)
    rcases List.mem_append.mp he with he | he
    · exact ⟨o, _, hp.1, Option.mem_toList.mp he⟩
    · exact hl e he

theorem wpc_of_uses {S : Op → Prop} {p : Prog Op Res α} (hp : p.Uses S) :
    p.wpc H A see (fun _ l _ => ∀ e ∈ l, ∃ o r, S o ∧ see ⟨o, r⟩ = some e) s :=
  wpc_of_wp hp (wp_of_forall fun _ _ _ hl => hl)

/-- Code of which nothing is seen. -/
theorem wpc_unseen {p : Prog Op Res α} (hp : p.Uses fun o => ∀ r, see ⟨o, r⟩ = none)
    (h : p.wp H A (fun a t => Q a [] t) s) : p.wpc H A see Q s := by
  refine wpc_of_wp hp (wp_mono h fun a t hQ l hl => ?_)
  cases l with
  | nil => exact hQ
  | cons e l =>
    obtain ⟨o, r, ho, he⟩ := hl e List.mem_cons_self
    rw [ho r] at he
    cases he

/-- What is not asked of the calls holds without them. -/
theorem wp_of_wpc {p : Prog Op Res α} {Q : α → σ → Prop} (h : p.wpc H A see (fun a _ t => Q a t) s) :
    p.wp H A Q s := by
  induction p generalizing s with
  | pure a => exact h
  | call o k ih => exact fun c hc => ih _ (h c hc)

/-- What `wpc` promises is what a run gives. -/
theorem run_of_wpc [Inhabited χ] {p : Prog Op Res α} (hd : A default) (h : p.wpc H A see Q s)
    (cs : List χ) (hcs : ∀ c ∈ cs, A c) :
    Q (p.run H cs s).1 ((p.calls H cs s).filterMap see) (p.run H cs s).2 := by
  induction p generalizing s cs Q with
  | pure a => exact h
  | call o k ih =>
    have hc : A (cs.headD default) := by
      cases cs with
      | nil => exact hd
      | cons c cs => exact hcs c (by simp)
    have hnext := ih _ (h _ hc) cs.tail fun c hmem => hcs c (List.mem_of_mem_tail hmem)
    unfold run calls
    rw [List.filterMap_cons]
    cases hsee : see ⟨o, (H o (cs.headD default) s).1⟩ with
    | none =>
      rw [hsee] at hnext
      exact hnext
    | some e =>
      rw [hsee] at hnext
      exact hnext

end Rules

/-! ## Replaying the calls -/

/-- A part of the state that every call changes as its answer says is what the calls of a run, one
after the other, make of it. -/
theorem foldl_calls [Inhabited χ] {H : Handler Op Res χ σ} (view : σ → β)
    {change : β → Call Op Res → β}
    (h : ∀ o c s, view (H o c s).2 = change (view s) ⟨o, (H o c s).1⟩) (p : Prog Op Res α)
    (cs : List χ) (s : σ) : view (p.run H cs s).2 = (p.calls H cs s).foldl change (view s) := by
  induction p generalizing cs s with
  | pure a => rfl
  | call o k ih =>
    unfold run calls
    rw [ih, List.foldl_cons, h]

end Prog

end Effect
