import LiteChat.Effect.Prog
import LiteChat.Effect.Runs
import Mathlib.Logic.Function.Basic
import Mathlib.Data.Fintype.Defs

/-!
# Threads that take turns

A `Pool` is a family of programs in the middle of their runs, over one shared state. One step lets
one thread make one call; which thread that is, and what the environment chooses for the call, is
the event, so an interleaving is a run in the sense of `Effect/Runs.lean`. The pool remembers who
called what and was answered what. This is no data of the programs: it is what statements about an
order of calls are made of.

A thread cannot know what the others do between its calls. `Prog.Among` is what can be proved of it
all the same: if every state in which it makes a call satisfies `I`, then the calls it makes follow
a protocol, each in view of its own calls before, and it ends as it should. `Pool.inv` puts the
threads together: a global invariant `J` that implies `I`, and that every call allowed by its
thread's protocol keeps, holds at the end of every interleaving.

Most protocols are about what was called, and not about the answers. `AmongOps` and `Pool.inv_ops`
are the same for these.
-/

namespace Effect

variable {ι Op : Type} {Res : Op → Type} {α β χ σ : Type}

/-! ## One thread among others -/

namespace Prog

/-- The program has no call left to make. -/
def isPure : Prog Op Res α → Bool
  | .pure _ => true
  | .call _ _ => false

theorem isPure_iff {p : Prog Op Res α} : p.isPure = true ↔ ∃ a, p = .pure a := by
  cases p with
  | pure a => exact ⟨fun _ => ⟨a, rfl⟩, fun _ => rfl⟩
  | call o k => simp [isPure]

/-- Started with the calls `own` behind it, and always called in states that satisfy `I`, the
program makes calls that are `Ok` in view of its own calls before, and ends with `Done`. -/
def Among (H : Handler Op Res χ σ) (A : χ → Prop) (I : σ → Prop)
    (Ok : List (Call Op Res) → Op → Prop) :
    Prog Op Res α → (α → List (Call Op Res) → Prop) → List (Call Op Res) → Prop
  | .pure a, Done, own => Done a own
  | .call o k, Done, own => Ok own o ∧
      ∀ c s, A c → I s → (k (H o c s).1).Among H A I Ok Done (own ++ [⟨o, (H o c s).1⟩])

section Rules

variable {H : Handler Op Res χ σ} {A : χ → Prop} {I : σ → Prop}
  {Ok : List (Call Op Res) → Op → Prop} {own : List (Call Op Res)}

/-- The rule for a call. `R` is all that is known of the answer. -/
theorem Among.call {o : Op} {f : Res o → Prog Op Res α} {Done : α → List (Call Op Res) → Prop}
    (hok : Ok own o) (R : Res o → Prop) (hR : ∀ c s, A c → I s → R (H o c s).1)
    (hf : ∀ r, R r → (f r).Among H A I Ok Done (own ++ [⟨o, r⟩])) :
    ((op o).bind f).Among H A I Ok Done own :=
  ⟨hok, fun c s hc hs => hf _ (hR c s hc hs)⟩

/-- The rule for a call whose answer may be anything. -/
theorem Among.call_any {o : Op} {f : Res o → Prog Op Res α} {Done : α → List (Call Op Res) → Prop}
    (hok : Ok own o) (hf : ∀ r, (f r).Among H A I Ok Done (own ++ [⟨o, r⟩])) :
    ((op o).bind f).Among H A I Ok Done own :=
  .call hok (fun _ => True) (fun _ _ _ _ => trivial) fun r _ => hf r

theorem among_bind (p : Prog Op Res α) (f : α → Prog Op Res β)
    {Done : β → List (Call Op Res) → Prop} :
    (p.bind f).Among H A I Ok Done own ↔
      p.Among H A I Ok (fun a own' => (f a).Among H A I Ok Done own') own := by
  induction p generalizing own with
  | pure a => rfl
  | call o k ih => simp only [call_bind, Among, ih]

/-- The rule of consequence, for the protocol as well. -/
theorem Among.weaken {Ok' : List (Call Op Res) → Op → Prop} {p : Prog Op Res α}
    {Done Done' : α → List (Call Op Res) → Prop} (h : p.Among H A I Ok Done own)
    (hok : ∀ own o, Ok own o → Ok' own o) (hd : ∀ a own', Done a own' → Done' a own') :
    p.Among H A I Ok' Done' own := by
  induction p generalizing own with
  | pure a => exact hd a own h
  | call o k ih => exact ⟨hok own o h.1, fun c s hc hs => ih _ (h.2 c s hc hs)⟩

theorem Among.mono {p : Prog Op Res α} {Done Done' : α → List (Call Op Res) → Prop}
    (h : p.Among H A I Ok Done own) (hd : ∀ a own', Done a own' → Done' a own') :
    p.Among H A I Ok Done' own := h.weaken (fun _ _ hok => hok) hd

/-- A program over operations that are always allowed, and that keep a fact about its calls. -/
theorem Uses.among {S : Op → Prop} {p : Prog Op Res α} (hp : p.Uses S)
    (K : List (Call Op Res) → Prop) (hK : K own)
    (hOk : ∀ own o, K own → S o → Ok own o ∧ ∀ r, K (own ++ [⟨o, r⟩])) :
    p.Among H A I Ok (fun _ own' => K own') own := by
  induction p generalizing own with
  | pure a => exact hK
  | call o k ih =>
    obtain ⟨hok, hK'⟩ := hOk own o hK hp.1
    exact ⟨hok, fun c s _ _ => ih _ (hp.2 _) (hK' _)⟩

end Rules

/-! ### Protocols that do not look at answers -/

/-- What was called. -/
abbrev opsOf (own : List (Call Op Res)) : List Op := own.map Sigma.fst

/-- `Among`, for a protocol that is about what was called. -/
def AmongOps (H : Handler Op Res χ σ) (A : χ → Prop) (I : σ → Prop) (Ok : List Op → Op → Prop)
    (p : Prog Op Res α) (Done : α → List Op → Prop) (ops : List Op) : Prop :=
  ∀ own : List (Call Op Res), opsOf own = ops →
    p.Among H A I (fun own o => Ok (opsOf own) o) (fun a own => Done a (opsOf own)) own

section OpsRules

variable {H : Handler Op Res χ σ} {A : χ → Prop} {I : σ → Prop} {Ok : List Op → Op → Prop}
  {ops : List Op}

theorem opsOf_append (own : List (Call Op Res)) (o : Op) (r : Res o) :
    opsOf (own ++ [⟨o, r⟩]) = opsOf own ++ [o] := by simp [opsOf]

theorem AmongOps.pure {a : α} {Done : α → List Op → Prop} (h : Done a ops) :
    (Prog.pure a : Prog Op Res α).AmongOps H A I Ok Done ops := by
  rintro own rfl
  exact h

theorem AmongOps.call {o : Op} {f : Res o → Prog Op Res α} {Done : α → List Op → Prop}
    (hok : Ok ops o) (R : Res o → Prop) (hR : ∀ c s, A c → I s → R (H o c s).1)
    (hf : ∀ r, R r → (f r).AmongOps H A I Ok Done (ops ++ [o])) :
    ((op o).bind f).AmongOps H A I Ok Done ops := by
  rintro own rfl
  exact .call hok R hR fun r hr => hf r hr _ (opsOf_append own o r)

/-- The rule for a call whose answer may be anything. -/
theorem AmongOps.call_any {o : Op} {f : Res o → Prog Op Res α} {Done : α → List Op → Prop}
    (hok : Ok ops o) (hf : ∀ r, (f r).AmongOps H A I Ok Done (ops ++ [o])) :
    ((op o).bind f).AmongOps H A I Ok Done ops :=
  .call hok (fun _ => True) (fun _ _ _ _ => trivial) fun r _ => hf r

/-- The rule for the last call. -/
theorem AmongOps.last {o : Op} {Done : Res o → List Op → Prop} (hok : Ok ops o)
    (hdone : ∀ r, Done r (ops ++ [o])) : (op o : Prog Op Res _).AmongOps H A I Ok Done ops := by
  rintro own rfl
  refine ⟨hok, fun c s _ _ => ?_⟩
  change Done _ (opsOf _)
  rw [opsOf_append]
  exact hdone _

theorem AmongOps.mono {p : Prog Op Res α} {Done Done' : α → List Op → Prop}
    (h : p.AmongOps H A I Ok Done ops) (hd : ∀ a ops', Done a ops' → Done' a ops') :
    p.AmongOps H A I Ok Done' ops :=
  fun own hown => (h own hown).mono fun a _ => hd a _

/-- The rule for a sequence. -/
theorem AmongOps.seq {p : Prog Op Res α} {f : α → Prog Op Res β} {Mid : α → List Op → Prop}
    {Done : β → List Op → Prop} (hp : p.AmongOps H A I Ok Mid ops)
    (hf : ∀ a ops', Mid a ops' → (f a).AmongOps H A I Ok Done ops') :
    (p.bind f).AmongOps H A I Ok Done ops :=
  fun own hown => (among_bind p f).mpr ((hp own hown).mono fun a own' ha => hf a _ ha own' rfl)

theorem Uses.amongOps {S : Op → Prop} {p : Prog Op Res α} (hp : p.Uses S) (K : List Op → Prop)
    (hK : K ops) (hOk : ∀ ops o, K ops → S o → Ok ops o ∧ K (ops ++ [o])) :
    p.AmongOps H A I Ok (fun _ ops' => K ops') ops := by
  rintro own rfl
  refine hp.among (fun own => K (opsOf own)) hK fun own o h ho => ?_
  obtain ⟨hok, hk⟩ := hOk _ o h ho
  exact ⟨hok, fun r => opsOf_append own o r ▸ hk⟩

end OpsRules

/-! ### Threads that expect their answers -/

/-- As long as it is answered `Right`, the program makes calls that are `Ok` in view of its own calls
before, and ends with `Done`. -/
def Expecting (Right : Call Op Res → Prop) (Ok : List (Call Op Res) → Op → Prop) :
    Prog Op Res α → (α → List (Call Op Res) → Prop) → List (Call Op Res) → Prop
  | .pure a, Done, own => Done a own
  | .call o k, Done, own => Ok own o ∧
      ∀ r, Right ⟨o, r⟩ → (k r).Expecting Right Ok Done (own ++ [⟨o, r⟩])

section ExpectingRules

variable {Right : Call Op Res → Prop} {Ok : List (Call Op Res) → Op → Prop}
  {own : List (Call Op Res)}

/-- The rule for a call. -/
theorem Expecting.call {o : Op} {f : Res o → Prog Op Res α} {Done : α → List (Call Op Res) → Prop}
    (hok : Ok own o) (hf : ∀ r, Right ⟨o, r⟩ → (f r).Expecting Right Ok Done (own ++ [⟨o, r⟩])) :
    ((op o).bind f).Expecting Right Ok Done own := ⟨hok, hf⟩

theorem expecting_bind (p : Prog Op Res α) (f : α → Prog Op Res β)
    {Done : β → List (Call Op Res) → Prop} :
    (p.bind f).Expecting Right Ok Done own ↔
      p.Expecting Right Ok (fun a own' => (f a).Expecting Right Ok Done own') own := by
  induction p generalizing own with
  | pure a => rfl
  | call o k ih => simp only [call_bind, Expecting, ih]

theorem Expecting.mono {p : Prog Op Res α} {Done Done' : α → List (Call Op Res) → Prop}
    (h : p.Expecting Right Ok Done own) (hd : ∀ a own', Done a own' → Done' a own') :
    p.Expecting Right Ok Done' own := by
  induction p generalizing own with
  | pure a => exact hd a own h
  | call o k ih => exact ⟨h.1, fun r hr => ih r (h.2 r hr)⟩

/-- The rule for a sequence. -/
theorem Expecting.seq {p : Prog Op Res α} {f : α → Prog Op Res β}
    {M : α → List (Call Op Res) → Prop} {Done : β → List (Call Op Res) → Prop}
    (hp : p.Expecting Right Ok M own)
    (hf : ∀ a own', M a own' → (f a).Expecting Right Ok Done own') :
    (p.bind f).Expecting Right Ok Done own := by
  exact (expecting_bind p f).mpr (hp.mono hf)

/-- What a program keeps to for two reasons. -/
theorem Expecting.and {Ok' : List (Call Op Res) → Op → Prop} {p : Prog Op Res α}
    {Done Done' : α → List (Call Op Res) → Prop} (h : p.Expecting Right Ok Done own)
    (h' : p.Expecting Right Ok' Done' own) :
    p.Expecting Right (fun own o => Ok own o ∧ Ok' own o) (fun a own' => Done a own' ∧ Done' a own')
      own := by
  induction p generalizing own with
  | pure a => exact ⟨h, h'⟩
  | call o k ih => exact ⟨⟨h.1, h'.1⟩, fun r hr => ih r (h.2 r hr) (h'.2 r hr)⟩

/-- A program over operations that are always allowed, and that keep a fact about its calls. -/
theorem Uses.expecting {S : Op → Prop} {p : Prog Op Res α} (hp : p.Uses S)
    (K : List (Call Op Res) → Prop) (hK : K own)
    (hOk : ∀ own o, K own → S o → Ok own o ∧ ∀ r, Right ⟨o, r⟩ → K (own ++ [⟨o, r⟩])) :
    p.Expecting Right Ok (fun _ own' => K own') own := by
  induction p generalizing own with
  | pure a => exact hK
  | call o k ih =>
    obtain ⟨hok, hK'⟩ := hOk own o hK hp.1
    exact ⟨hok, fun r hr => ih _ (hp.2 _) (hK' r hr)⟩

/-- A thread that was answered wrong once has nothing to keep to any more. -/
theorem Expecting.among {p : Prog Op Res α} {Done : α → List (Call Op Res) → Prop}
    {H : Handler Op Res χ σ} {A : χ → Prop} {I : σ → Prop}
    (h : (∀ call ∈ own, Right call) → p.Expecting Right Ok Done own) :
    p.Among H A I (fun own o => (∀ call ∈ own, Right call) → Ok own o)
      (fun a own => (∀ call ∈ own, Right call) → Done a own) own := by
  induction p generalizing own with
  | pure a => exact h
  | call o k ih =>
    refine ⟨fun hown => (h hown).1, fun c s _ _ => ih _ fun hown => ?_⟩
    refine (h fun call hcall => hown call (List.mem_append_left _ hcall)).2 _ (hown _ ?_)
    exact List.mem_append_right _ (List.mem_singleton_self _)

end ExpectingRules

end Prog

/-! ## The pool -/

/-- Threads in the middle of their runs, what they share, and who called what and was answered
what. -/
structure Pool (ι Op : Type) (Res : Op → Type) (α σ : Type) where
  threads : ι → Prog Op Res α
  shared : σ
  calls : List (ι × Call Op Res)

namespace Pool

def start (threads : ι → Prog Op Res α) (s : σ) : Pool ι Op Res α σ := ⟨threads, s, []⟩

def Finished (t : Pool ι Op Res α σ) : Prop := ∀ i, (t.threads i).isPure = true

instance [Fintype ι] (t : Pool ι Op Res α σ) : Decidable t.Finished :=
  inferInstanceAs (Decidable (∀ i, (t.threads i).isPure = true))

/-- Who called what. -/
abbrev opsOf (h : List (ι × Call Op Res)) : List (ι × Op) := h.map fun e => (e.1, e.2.1)

def history (t : Pool ι Op Res α σ) : List (ι × Op) := opsOf t.calls

theorem opsOf_append (h : List (ι × Call Op Res)) (i : ι) (o : Op) (r : Res o) :
    opsOf (h ++ [(i, ⟨o, r⟩)]) = opsOf h ++ [(i, o)] := by simp [opsOf]

/-- What was called before another operation was. -/
theorem mem_of_mem_concat {β : Type} {h : List (ι × β)} {i j : ι} {o o' : β}
    (hmem : (i, o) ∈ h ++ [(j, o')]) (ho : o ≠ o') : (i, o) ∈ h := by
  rcases List.mem_append.mp hmem with hmem | hmem
  · exact hmem
  · exact absurd (Prod.mk.inj (List.mem_singleton.mp hmem)).2 ho

variable [DecidableEq ι]

/-- What one thread called. -/
def own {β : Type} (h : List (ι × β)) (i : ι) : List β := (h.filter fun e => e.1 = i).map Prod.snd

theorem mem_own {β : Type} {h : List (ι × β)} {i : ι} {o : β} : o ∈ own h i ↔ (i, o) ∈ h := by
  unfold own
  simp only [List.mem_map, List.mem_filter, decide_eq_true_eq]
  constructor
  · rintro ⟨⟨j, o'⟩, ⟨he, rfl⟩, rfl⟩
    exact he
  · intro he
    exact ⟨(i, o), ⟨he, rfl⟩, rfl⟩

theorem own_append_self {β : Type} (h : List (ι × β)) (i : ι) (o : β) :
    own (h ++ [(i, o)]) i = own h i ++ [o] := by
  simp [own]

theorem own_append_ne {β : Type} {h : List (ι × β)} {i j : ι} (hij : i ≠ j) (o : β) :
    own (h ++ [(i, o)]) j = own h j := by
  simp [own, hij]

theorem opsOf_own (h : List (ι × Call Op Res)) (i : ι) :
    Prog.opsOf (own h i) = own (opsOf h) i := by
  unfold Prog.opsOf opsOf own
  rw [List.filter_map, List.map_map, List.map_map]
  rfl

/-- One thread makes its next call. A thread that has finished does nothing. -/
def step (H : Handler Op Res χ σ) (t : Pool ι Op Res α σ) (e : ι × χ) : Pool ι Op Res α σ :=
  match t.threads e.1 with
  | .pure _ => t
  | .call o k =>
    { threads := Function.update t.threads e.1 (k (H o e.2 t.shared).1)
      shared := (H o e.2 t.shared).2
      calls := t.calls ++ [(e.1, ⟨o, (H o e.2 t.shared).1⟩)] }

/-- The environment's choice is of the kind `A`, and the call meets the condition `C` in the state
it is made in, which is the shared state and who has called what. -/
def Allows (A : χ → Prop) (C : σ → List (ι × Op) → ι → Op → Prop) (t : Pool ι Op Res α σ)
    (e : ι × χ) : Prop :=
  A e.2 ∧ match t.threads e.1 with
    | .pure _ => True
    | .call o _ => C t.shared t.history e.1 o

instance {A : χ → Prop} {C : σ → List (ι × Op) → ι → Op → Prop} [∀ c, Decidable (A c)]
    [∀ s h i o, Decidable (C s h i o)] (t : Pool ι Op Res α σ) (e : ι × χ) :
    Decidable (Allows A C t e) := by
  unfold Allows
  cases t.threads e.1 <;> infer_instance

/-- The same for a condition that looks at answers. -/
def AllowsCalls (A : χ → Prop) (C : σ → List (ι × Call Op Res) → ι → Op → Prop)
    (t : Pool ι Op Res α σ) (e : ι × χ) : Prop :=
  A e.2 ∧ match t.threads e.1 with
    | .pure _ => True
    | .call o _ => C t.shared t.calls e.1 o

instance {A : χ → Prop} {C : σ → List (ι × Call Op Res) → ι → Op → Prop} [∀ c, Decidable (A c)]
    [∀ s h i o, Decidable (C s h i o)] (t : Pool ι Op Res α σ) (e : ι × χ) :
    Decidable (AllowsCalls A C t e) := by
  unfold AllowsCalls
  cases t.threads e.1 <;> infer_instance

variable {H : Handler Op Res χ σ} {A : χ → Prop} {I : σ → Prop}
  {C : σ → List (ι × Op) → ι → Op → Prop} {C' : σ → List (ι × Call Op Res) → ι → Op → Prop}

/-! ### What a step leaves alone -/

theorem step_call {t : Pool ι Op Res α σ} {e : ι × χ} {o : Op} {k : Res o → Prog Op Res α}
    (h : t.threads e.1 = .call o k) : step H t e =
      { threads := Function.update t.threads e.1 (k (H o e.2 t.shared).1)
        shared := (H o e.2 t.shared).2
        calls := t.calls ++ [(e.1, ⟨o, (H o e.2 t.shared).1⟩)] } := by
  unfold step
  rw [h]

theorem threads_step (t : Pool ι Op Res α σ) (e : ι × χ) {i : ι} (hi : i ≠ e.1) :
    (step H t e).threads i = t.threads i := by
  unfold step
  split
  · rfl
  · exact Function.update_of_ne hi _ _

/-- A thread that has finished stays as it is. -/
theorem threads_step_pure {t : Pool ι Op Res α σ} {i : ι} {a : α} (h : t.threads i = .pure a)
    (e : ι × χ) : (step H t e).threads i = .pure a := by
  by_cases hi : i = e.1
  · unfold step
    rw [← hi, h]
    exact h
  · rw [threads_step t e hi, h]

/-- What is true of every call a thread can reach stays true. -/
theorem everywhere_step {S : (o : Op) → (Res o → Prog Op Res α) → Prop} {t : Pool ι Op Res α σ}
    {i : ι} (h : (t.threads i).Everywhere S) (e : ι × χ) :
    ((step H t e).threads i).Everywhere S := by
  by_cases hi : i = e.1
  · subst hi
    unfold step
    cases hcall : t.threads e.1 with
    | pure a => exact h
    | call o k =>
      rw [hcall] at h
      dsimp only
      rw [Function.update_self]
      exact h.2 _
  · rw [threads_step t e hi]
    exact h

section Calls

variable {Ok : ι → List (Call Op Res) → Op → Prop} {Done : ι → α → List (Call Op Res) → Prop}
  {J : σ → List (ι × Call Op Res) → Prop}

/-- Every thread is at a point from which it follows its protocol, and the invariant holds. -/
structure Follows (H : Handler Op Res χ σ) (A : χ → Prop) (I : σ → Prop)
    (Ok : ι → List (Call Op Res) → Op → Prop) (Done : ι → α → List (Call Op Res) → Prop)
    (J : σ → List (ι × Call Op Res) → Prop) (t : Pool ι Op Res α σ) : Prop where
  threads : ∀ i, (t.threads i).Among H A I (Ok i) (Done i) (own t.calls i)
  inv : J t.shared t.calls

theorem Follows.step {t : Pool ι Op Res α σ} {e : ι × χ} (h : Follows H A I Ok Done J t)
    (hI : ∀ s hist, J s hist → I s)
    (hJ : ∀ s hist i o c, J s hist → Ok i (own hist i) o → A c → C' s hist i o →
      J (H o c s).2 (hist ++ [(i, ⟨o, (H o c s).1⟩)]))
    (he : AllowsCalls A C' t e) : Follows H A I Ok Done J (Pool.step H t e) := by
  obtain ⟨hA, hC⟩ := he
  have hthread := h.threads e.1
  unfold Pool.step
  cases hcall : t.threads e.1 with
  | pure a => exact h
  | call o k =>
    rw [hcall] at hC hthread
    obtain ⟨hok, hnext⟩ := hthread
    refine ⟨fun i => ?_, hJ _ _ _ _ _ h.inv hok hA hC⟩
    by_cases hi : i = e.1
    · subst hi
      dsimp only
      rw [Function.update_self, own_append_self]
      exact hnext _ _ hA (hI _ _ h.inv)
    · dsimp only
      rw [Function.update_of_ne hi, own_append_ne fun h => hi h.symm]
      exact h.threads i

/-- **The rule for interleavings.** Each thread keeps to its protocol as long as the invariant
holds, and the invariant is kept by every call that keeps to the protocol; so the invariant holds at
the end of every run. -/
theorem follows_runAll {threads : ι → Prog Op Res α} {s : σ} {es : List (ι × χ)}
    (hthreads : ∀ i, (threads i).Among H A I (Ok i) (Done i) []) (hs : J s [])
    (hes : Meets (Pool.step H) (Allows A C) (start threads s) es) (hI : ∀ s hist, J s hist → I s)
    (hJ : ∀ s hist i o c, J s hist → Ok i (own hist i) o → A c → C s (opsOf hist) i o →
      J (H o c s).2 (hist ++ [(i, ⟨o, (H o c s).1⟩)])) :
    Follows H A I Ok Done J (runAll (Pool.step H) (start threads s) es) :=
  have hstep : ∀ t e, Follows H A I Ok Done J t → Allows A C t e →
      Follows H A I Ok Done J (Pool.step H t e) := fun _ _ h he =>
    h.step hI hJ (show AllowsCalls A (fun s hist => C s (opsOf hist)) _ _ from he)
  runAll_inv ⟨hthreads, hs⟩ hstep hes

/-- A call that keeps to its protocol, and is allowed, has whatever follows from that. -/
theorem Follows.allows {t : Pool ι Op Res α σ} {e : ι × χ} (h : Follows H A I Ok Done J t)
    {D : σ → List (ι × Call Op Res) → ι → Op → Prop}
    (hD : ∀ s hist i o, J s hist → Ok i (own hist i) o → C' s hist i o → D s hist i o)
    (he : AllowsCalls A C' t e) : AllowsCalls A D t e := by
  obtain ⟨hA, hC⟩ := he
  have hthread := h.threads e.1
  refine ⟨hA, ?_⟩
  cases hcall : t.threads e.1 with
  | pure a => trivial
  | call o k =>
    rw [hcall] at hC hthread
    exact hD _ _ _ _ h.inv hthread.1 hC

/-- The rule for threads that expect their answers: if the invariant gives each thread the answers that
it counts on, each keeps to its protocol, and the invariant holds at the end of every run that the
environment may choose. -/
theorem expecting_runAll {Right : ι → Call Op Res → Prop} {threads : ι → Prog Op Res α} {s : σ}
    {es : List (ι × χ)}
    (hthreads : ∀ i, (threads i).Expecting (Right i) (Ok i) (Done i) []) (hs : J s [])
    (hes : Meets (Pool.step H) (AllowsCalls A C') (start threads s) es)
    (hJ : ∀ s hist i o c, J s hist → Ok i (own hist i) o → A c → C' s hist i o →
      Right i ⟨o, (H o c s).1⟩ ∧ J (H o c s).2 (hist ++ [(i, ⟨o, (H o c s).1⟩)])) :
    J (runAll (Pool.step H) (start threads s) es).shared
        (runAll (Pool.step H) (start threads s) es).calls ∧
      ∀ i, ((runAll (Pool.step H) (start threads s) es).threads i).isPure = true →
        ∃ a, Done i a (own (runAll (Pool.step H) (start threads s) es).calls i) := by
  have hright : ∀ {hist : List (ι × Call Op Res)}, (∀ e ∈ hist, Right e.1 e.2) →
      ∀ i, ∀ call ∈ own hist i, Right i call := fun h i call hcall => h _ (mem_own.mp hcall)
  -- until one of its answers is wrong, a thread keeps to its protocol; and none is
  have hstart : Follows H A (fun _ => True)
      (fun i own o => (∀ call ∈ own, Right i call) → Ok i own o)
      (fun i a own => (∀ call ∈ own, Right i call) → Done i a own)
      (fun s hist => J s hist ∧ ∀ e ∈ hist, Right e.1 e.2) (start threads s) :=
    ⟨fun i => Prog.Expecting.among fun _ => hthreads i, hs, nofun⟩
  have hend := runAll_inv hstart (fun t e ht he => ht.step (fun _ _ _ => trivial) ?_ he) hes
  · refine ⟨hend.inv.1, fun i hi => ?_⟩
    obtain ⟨a, ha⟩ := Prog.isPure_iff.mp hi
    have hdone := hend.threads i
    rw [ha] at hdone
    exact ⟨a, hdone (hright hend.inv.2 i)⟩
  · rintro s hist i o c ⟨hinv, hall⟩ hok hA hC
    obtain ⟨hr, hinv'⟩ := hJ s hist i o c hinv (hok (hright hall i)) hA hC
    refine ⟨hinv', fun e he => ?_⟩
    rcases List.mem_append.mp he with he | he
    · exact hall e he
    · rw [List.mem_singleton.mp he]
      exact hr

/-- Who has finished is done. -/
theorem Follows.done {t : Pool ι Op Res α σ} (h : Follows H A I Ok Done J t) {i : ι}
    (hi : (t.threads i).isPure = true) : ∃ a, Done i a (own t.calls i) := by
  obtain ⟨a, ha⟩ := Prog.isPure_iff.mp hi
  have hdone := h.threads i
  rw [ha] at hdone
  exact ⟨a, hdone⟩

end Calls

section Ops

variable {Ok : ι → List Op → Op → Prop} {Done : ι → α → List Op → Prop}
  {J : σ → List (ι × Op) → Prop}

/-- The rule for protocols and invariants that do not look at answers. -/
theorem inv_ops {threads : ι → Prog Op Res α} {s : σ} {es : List (ι × χ)}
    (hthreads : ∀ i, (threads i).AmongOps H A I (Ok i) (Done i) []) (hs : J s [])
    (hI : ∀ s hist, J s hist → I s)
    (hJ : ∀ s hist i o c, J s hist → Ok i (own hist i) o → A c → C s hist i o →
      J (H o c s).2 (hist ++ [(i, o)]))
    (hes : Meets (Pool.step H) (Allows A C) (start threads s) es) :
    J (runAll (Pool.step H) (start threads s) es).shared
        (runAll (Pool.step H) (start threads s) es).history ∧
      ∀ i, ((runAll (Pool.step H) (start threads s) es).threads i).isPure = true →
        ∃ a, Done i a (own (runAll (Pool.step H) (start threads s) es).history i) := by
  have hend := follows_runAll (J := fun s hist => J s (opsOf hist)) (fun i => hthreads i [] rfl) hs
    hes (fun s hist h => hI s _ h) fun s hist i o c h hok hA hC => by
      rw [opsOf_append]
      exact hJ s _ i o c h (opsOf_own hist i ▸ hok) hA hC
  refine ⟨hend.inv, fun i hi => ?_⟩
  obtain ⟨a, ha⟩ := hend.done hi
  rw [opsOf_own] at ha
  exact ⟨a, ha⟩

end Ops

end Pool

end Effect
