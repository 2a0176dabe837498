import Mathlib.Tactic.Common

/-!
# Programs that call atomic operations

A server is written as code that calls operations of a shared state (a database statement, a
lookup under a lock, a `send`) and goes on with what they answer. `Prog Op Res α` is that code
as a tree: `pure a` has finished with `a`, and `call o k` calls the operation `o` and goes on
with `k r` when `o` answered `r`.

The same tree has two readings, and that is the reason for keeping it as data:

* `run` runs it alone, from its first operation to its last (this file);
* `Effect.Pool` (`Effect/Interleave.lean`) lets several trees take turns, one operation at a
  time.

What an operation does is a `Handler`: it takes the operation, one *choice* of the environment
(did the statement succeed, how much did the socket accept) and the state. A program is run on
a list of choices, one for each operation, and a statement about every list of choices is a
statement about every behaviour of the environment. `wp` is that quantification, and the rules
below are how it is used.
-/

namespace Effect

/-- Code over the operations `Op`, where `o : Op` answers in `Res o`. -/
inductive Prog (Op : Type) (Res : Op → Type) (α : Type) : Type
  | pure (a : α)
  | call (o : Op) (k : Res o → Prog Op Res α)

/-- A call and its answer. -/
abbrev Call (Op : Type) (Res : Op → Type) : Type := Σ o : Op, Res o

/-- What the operations do: the answer and the next state, for each choice of the
environment. -/
abbrev Handler (Op : Type) (Res : Op → Type) (χ σ : Type) : Type :=
  (o : Op) → χ → σ → Res o × σ

namespace Prog

variable {Op : Type} {Res : Op → Type} {α β γ χ σ : Type}

def bind : Prog Op Res α → (α → Prog Op Res β) → Prog Op Res β
  | .pure a, f => f a
  | .call o k, f => .call o fun r => (k r).bind f

/-- One operation, answering what it answers. -/
def op (o : Op) : Prog Op Res (Res o) := .call o .pure

instance : Monad (Prog Op Res) where
  pure := Prog.pure
  bind := Prog.bind

theorem bind_eq (p : Prog Op Res α) (f : α → Prog Op Res β) : p >>= f = p.bind f := rfl

@[simp] theorem pure_bind (a : α) (f : α → Prog Op Res β) : (Prog.pure a).bind f = f a := rfl

@[simp] theorem call_bind (o : Op) (k : Res o → Prog Op Res α) (f : α → Prog Op Res β) :
    (Prog.call o k).bind f = .call o fun r => (k r).bind f := rfl

@[simp] theorem bind_pure (p : Prog Op Res α) : p.bind .pure = p := by
  induction p with
  | pure a => rfl
  | call o k ih => simp only [call_bind, ih]

theorem bind_assoc (p : Prog Op Res α) (f : α → Prog Op Res β) (g : β → Prog Op Res γ) :
    (p.bind f).bind g = p.bind fun a => (f a).bind g := by
  induction p with
  | pure a => rfl
  | call o k ih => simp only [call_bind, ih]

/-! ## Which operations a program may call -/

/-- Every operation the program can reach, whatever it is answered, is in `S`. -/
def Uses (S : Op → Prop) : Prog Op Res α → Prop
  | .pure _ => True
  | .call o k => S o ∧ ∀ r, (k r).Uses S

@[simp] theorem uses_pure (S : Op → Prop) (a : α) : (Prog.pure a : Prog Op Res α).Uses S :=
  trivial

@[simp] theorem uses_op {S : Op → Prop} {o : Op} : (op o : Prog Op Res _).Uses S ↔ S o :=
  ⟨fun h => h.1, fun h => ⟨h, fun _ => trivial⟩⟩

theorem Uses.bind {S : Op → Prop} {p : Prog Op Res α} {f : α → Prog Op Res β}
    (hp : p.Uses S) (hf : ∀ a, (f a).Uses S) : (p.bind f).Uses S := by
  induction p with
  | pure a => exact hf a
  | call o k ih => exact ⟨hp.1, fun r => ih r (hp.2 r)⟩

theorem Uses.mono {S T : Op → Prop} (hST : ∀ o, S o → T o) {p : Prog Op Res α}
    (hp : p.Uses S) : p.Uses T := by
  induction p with
  | pure a => trivial
  | call o k ih => exact ⟨hST o hp.1, fun r => ih r (hp.2 r)⟩

theorem uses_of_forall {S : Op → Prop} (p : Prog Op Res α) (h : ∀ o, S o) : p.Uses S := by
  induction p with
  | pure a => trivial
  | call o k ih => exact ⟨h o, fun r => ih r⟩

/-- Every call the program can reach, with what comes after it, is as `S` says. -/
def Everywhere (S : (o : Op) → (Res o → Prog Op Res α) → Prop) : Prog Op Res α → Prop
  | .pure _ => True
  | .call o k => S o k ∧ ∀ r, (k r).Everywhere S

/-! ## Running a program alone -/

/-- The choices that are left when one has been made. -/
theorem getD_tail (cs : List χ) (n : Nat) (c : χ) : cs.tail.getD n c = cs.getD (n + 1) c := by
  cases cs with
  | nil => rfl
  | cons c' cs => rfl

/-- Run the program on a list of choices, one for each operation; a list that is too short is
continued by the default choice. -/
def run [Inhabited χ] (H : Handler Op Res χ σ) : Prog Op Res α → List χ → σ → α × σ
  | .pure a, _, s => (a, s)
  | .call o k, cs, s => (k (H o (cs.headD default) s).1).run H cs.tail (H o (cs.headD default) s).2

/-- The choices that a run leaves over. -/
def left [Inhabited χ] (H : Handler Op Res χ σ) : Prog Op Res α → List χ → σ → List χ
  | .pure _, cs, _ => cs
  | .call o k, cs, s => (k (H o (cs.headD default) s).1).left H cs.tail (H o (cs.headD default) s).2

/-- What comes after a program runs on what that leaves over. -/
theorem run_bind [Inhabited χ] {H : Handler Op Res χ σ} (p : Prog Op Res α)
    (f : α → Prog Op Res β) (cs : List χ) (s : σ) :
    (p.bind f).run H cs s = (f (p.run H cs s).1).run H (p.left H cs s) (p.run H cs s).2 := by
  induction p generalizing cs s with
  | pure a => rfl
  | call o k ih => exact ih _ _ _

/-- Where no choices were given, none are left. -/
@[simp] theorem left_nil [Inhabited χ] {H : Handler Op Res χ σ} (p : Prog Op Res α) (s : σ) :
    p.left H [] s = [] := by
  induction p generalizing s with
  | pure a => rfl
  | call o k ih => exact ih _ _

/-- A change of the choices that no operation of the program looks at changes nothing. -/
theorem run_map [Inhabited χ] {H : Handler Op Res χ σ} {S : Op → Prop} {g : χ → χ}
    (hg : ∀ o c s, S o → H o (g c) s = H o c s) {p : Prog Op Res α} (hp : p.Uses S) (cs : List χ)
    (s : σ) : p.run H (cs.map g) s = p.run H cs s ∧
      p.left H (cs.map g) s = (p.left H cs s).map g := by
  induction p generalizing cs s with
  | pure a => exact ⟨rfl, rfl⟩
  | call o k ih =>
    have hhead : H o ((cs.map g).headD default) s = H o (cs.headD default) s := by
      cases cs with
      | nil => rfl
      | cons c cs => exact hg o c s hp.1
    have hrest := ih (H o (cs.headD default) s).1 (hp.2 _) cs.tail (H o (cs.headD default) s).2
    unfold run left
    rw [hhead, ← List.map_tail]
    exact hrest

/-- `wp H A p Q s`: run from `s` on choices that all satisfy `A`, the program ends with an
answer and a state that satisfy `Q`. -/
def wp (H : Handler Op Res χ σ) (A : χ → Prop) : Prog Op Res α → (α → σ → Prop) → σ → Prop
  | .pure a, Q, s => Q a s
  | .call o k, Q, s => ∀ c, A c → (k (H o c s).1).wp H A Q (H o c s).2

section Rules

variable {H : Handler Op Res χ σ} {A : χ → Prop} {Q R : α → σ → Prop} {s : σ}

@[simp] theorem wp_pure (a : α) : (Prog.pure a : Prog Op Res α).wp H A Q s ↔ Q a s := Iff.rfl

theorem wp_call (o : Op) (k : Res o → Prog Op Res α) :
    (Prog.call o k).wp H A Q s ↔ ∀ c, A c → (k (H o c s).1).wp H A Q (H o c s).2 := Iff.rfl

@[simp] theorem wp_op (o : Op) {Q : Res o → σ → Prop} :
    (op o : Prog Op Res _).wp H A Q s ↔ ∀ c, A c → Q (H o c s).1 (H o c s).2 := Iff.rfl

@[simp] theorem wp_bind (p : Prog Op Res α) (f : α → Prog Op Res β) {Q : β → σ → Prop} :
    (p.bind f).wp H A Q s ↔ p.wp H A (fun a t => (f a).wp H A Q t) s := by
  induction p generalizing s with
  | pure a => rfl
  | call o k ih => simp only [call_bind, wp_call, ih]

@[simp] theorem wp_ite {c : Prop} [Decidable c] (p q : Prog Op Res α) :
    (if c then p else q).wp H A Q s ↔ if c then p.wp H A Q s else q.wp H A Q s := by
  split <;> rfl

/-- The rule of consequence. -/
theorem wp_mono {p : Prog Op Res α} (h : p.wp H A Q s) (hQR : ∀ a t, Q a t → R a t) :
    p.wp H A R s := by
  induction p generalizing s with
  | pure a => exact hQR a s h
  | call o k ih => exact fun c hc => ih _ (h c hc)

/-- Two promises about one program are one promise. -/
theorem wp_and {p : Prog Op Res α} (h : p.wp H A Q s) (h' : p.wp H A R s) :
    p.wp H A (fun a t => Q a t ∧ R a t) s := by
  induction p generalizing s with
  | pure a => exact ⟨h, h'⟩
  | call o k ih => exact fun c hc => ih _ (h c hc) (h' c hc)

/-- What holds whatever the environment chooses holds if it chooses from less. -/
theorem wp_restrict {B : χ → Prop} (hBA : ∀ c, B c → A c) {p : Prog Op Res α}
    (h : p.wp H A Q s) : p.wp H B Q s := by
  induction p generalizing s with
  | pure a => exact h
  | call o k ih => exact fun c hc => ih _ (h c (hBA c hc))

/-- What is promised can come about, if the environment has a choice at all. -/
theorem exists_of_wp (hA : ∃ c, A c) {p : Prog Op Res α} (h : p.wp H A Q s) : ∃ a t, Q a t := by
  obtain ⟨c, hc⟩ := hA
  induction p generalizing s with
  | pure a => exact ⟨a, s, h⟩
  | call o k ih => exact ih _ (h c hc)

/-- Every program ends. -/
theorem wp_of_forall {p : Prog Op Res α} (h : ∀ a t, Q a t) : p.wp H A Q s := by
  induction p generalizing s with
  | pure a => exact h a s
  | call o k ih => exact fun c _ => ih _

/-- **The frame rule.** A relation between states that is reflexive, transitive and respected
by every operation of `S` is respected by every program over `S`. -/
theorem wp_frame {S : Op → Prop} {p : Prog Op Res α} (hp : p.Uses S) (F : σ → σ → Prop)
    (hrefl : ∀ t, F t t) (htrans : ∀ t t' t'', F t t' → F t' t'' → F t t'')
    (hstep : ∀ o c t, S o → A c → F t (H o c t).2) : p.wp H A (fun _ t => F s t) s := by
  induction p generalizing s with
  | pure a => exact hrefl s
  | call o k ih =>
    intro c hc
    exact wp_mono (ih _ (hp.2 _)) fun _ t ht => htrans _ _ _ (hstep o c s hp.1 hc) ht

/-- What `wp` promises is what a run gives. -/
theorem run_of_wp [Inhabited χ] {p : Prog Op Res α} (hd : A default) (h : p.wp H A Q s)
    (cs : List χ) (hcs : ∀ c ∈ cs, A c) : Q (p.run H cs s).1 (p.run H cs s).2 := by
  induction p generalizing s cs with
  | pure a => exact h
  | call o k ih =>
    cases cs with
    | nil => exact ih _ (h default hd) [] hcs
    | cons c cs => exact ih _ (h c (hcs c (by simp))) cs fun d hd => hcs d (by simp [hd])

end Rules

end Prog

end Effect
