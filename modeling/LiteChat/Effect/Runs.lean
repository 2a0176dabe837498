import Mathlib.Data.List.DropRight
import Mathlib.Tactic.Common

/-!
# Runs of a deterministic step

A system takes one event after another, `step s e` being the state after `e`. What the environment
decides is part of the event, so `step` is a function and a run is a list of events.

`Meets step Cond s es` says that every event of the run meets a condition on the state it happens
in. `runAll_inv` is the one induction over runs: an invariant of the steps that meet the condition
holds after every run that meets it. Every prefix of such a run meets it too (`Meets.take`), so it
holds in every state on the way. A condition may also look back at the events before (`Along`).
-/

namespace Effect

variable {σ ε : Type}

def runAll (step : σ → ε → σ) (s : σ) (es : List ε) : σ := es.foldl step s

/-- Every event of the run meets the condition, in the state it happens in. -/
def Meets (step : σ → ε → σ) (Cond : σ → ε → Prop) : σ → List ε → Prop
  | _, [] => True
  | s, e :: es => Cond s e ∧ Meets step Cond (step s e) es

variable {step : σ → ε → σ} {Cond : σ → ε → Prop}

@[simp] theorem runAll_nil (s : σ) : runAll step s [] = s := rfl

@[simp] theorem runAll_cons (s : σ) (e : ε) (es : List ε) :
    runAll step s (e :: es) = runAll step (step s e) es := rfl

theorem runAll_append (s : σ) (es es' : List ε) :
    runAll step s (es ++ es') = runAll step (runAll step s es) es' := List.foldl_append

theorem Meets.take {s : σ} {es : List ε} (h : Meets step Cond s es) (n : Nat) :
    Meets step Cond s (es.take n) := by
  induction es generalizing s n with
  | nil => simpa using h
  | cons e es ih =>
    cases n with
    | zero => trivial
    | succ n => exact ⟨h.1, ih h.2 n⟩

instance [∀ s e, Decidable (Cond s e)] : ∀ (s : σ) (es : List ε), Decidable (Meets step Cond s es)
  | _, [] => inferInstanceAs (Decidable True)
  | s, e :: es =>
    have := instDecidableMeets (step s e) es
    inferInstanceAs (Decidable (Cond s e ∧ Meets step Cond (step s e) es))

/-- **The invariant rule.** -/
theorem runAll_inv {Inv : σ → Prop} {s : σ} {es : List ε} (hs : Inv s)
    (hstep : ∀ s e, Inv s → Cond s e → Inv (step s e)) (h : Meets step Cond s es) :
    Inv (runAll step s es) := by
  induction es generalizing s with
  | nil => exact hs
  | cons e es ih => exact ih (hstep s e hs h.1) h.2

/-- The rule for an invariant of every step. -/
theorem runAll_inv_always {Inv : σ → Prop} {s : σ} (hs : Inv s)
    (hstep : ∀ s e, Inv s → Inv (step s e)) (es : List ε) : Inv (runAll step s es) := by
  induction es generalizing s with
  | nil => exact hs
  | cons e es ih => exact ih (hstep s e hs)

/-- An invariant of the run turns one condition on its events into another. -/
theorem Meets.of_inv {Inv : σ → Prop} {Cond' : σ → ε → Prop} {s : σ} {es : List ε} (hs : Inv s)
    (hstep : ∀ s e, Inv s → Cond s e → Inv (step s e))
    (hcond : ∀ s e, Inv s → Cond s e → Cond' s e) (h : Meets step Cond s es) :
    Meets step Cond' s es := by
  induction es generalizing s with
  | nil => trivial
  | cons e es ih => exact ⟨hcond s e hs h.1, ih (hstep s e hs h.1) h.2⟩

/-! ## Conditions that look back -/

/-- Every event of the run meets a condition on the events before it, of which `past` are those before
the run. -/
def Along (Cond : List ε → ε → Prop) : List ε → List ε → Prop
  | _, [] => True
  | past, e :: es => Cond past e ∧ Along Cond (past ++ [e]) es

/-- The invariant rule for such a condition. -/
theorem Along.inv {Cond : List ε → ε → Prop} {Inv : List ε → Prop} {past es : List ε}
    (h : Along Cond past es) (hpast : Inv past)
    (hstep : ∀ past e, Inv past → Cond past e → Inv (past ++ [e])) : Inv (past ++ es) := by
  induction es generalizing past with
  | nil =>
    rw [List.append_nil]
    exact hpast
  | cons e es ih =>
    rw [List.append_cons]
    exact ih h.2 (hstep past e hpast h.1)

/-! ## A register that events write -/

variable {β : Type}

/-- What the last event that writes has written. -/
def lastWrite (write : ε → Option β) (es : List ε) : Option β := (es.filterMap write).getLast?

theorem getD_lastWrite_cons (write : ε → Option β) (e : ε) (es : List ε) (b : β) :
    (lastWrite write (e :: es)).getD b = (lastWrite write es).getD ((write e).getD b) := by
  unfold lastWrite
  cases hw : write e with
  | none => rw [List.filterMap_cons_none hw, Option.getD_none]
  | some b' =>
    rw [List.filterMap_cons_some hw, List.getLast?_cons, Option.getD_some, Option.getD_some]

theorem lastWrite_concat (write : ε → Option β) (es : List ε) (e : ε) :
    lastWrite write (es ++ [e]) = (write e).or (lastWrite write es) := by
  unfold lastWrite
  rw [List.filterMap_append]
  cases hw : write e with
  | none => simp [hw]
  | some b => simp [hw]

theorem lastWrite_ne_none {write : ε → Option β} {es : List ε} {e : ε} {b : β} (he : e ∈ es)
    (hb : write e = some b) : lastWrite write es ≠ none := by
  unfold lastWrite
  rw [Ne, List.getLast?_eq_none_iff]
  exact List.ne_nil_of_mem (List.mem_filterMap.mpr ⟨e, he, hb⟩)

/-- A register that every event either writes or leaves alone holds what was written last. -/
theorem runAll_lastWrite (Inv : σ → Prop) {read : σ → β} {write : ε → Option β} {s : σ}
    (hs : Inv s) (hinv : ∀ s e, Inv s → Inv (step s e))
    (hwrite : ∀ s e, Inv s → read (step s e) = (write e).getD (read s)) (es : List ε) :
    read (runAll step s es) = (lastWrite write es).getD (read s) := by
  induction es generalizing s with
  | nil => rfl
  | cons e es ih =>
    rw [runAll_cons, ih (hinv s e hs), hwrite s e hs, getD_lastWrite_cons]

/-! ## A log that events append to and clear -/

variable {ω : Type}

/-- What a run notes of its events. -/
def noted (step : σ → ε → σ) (note : σ → ε → Option ω) : σ → List ε → List ω
  | _, [] => []
  | s, e :: es => (note s e).toList ++ noted step note (step s e) es

/-- What every step changes as its note says is what the notes of a run, one after the other, make
of it. -/
theorem runAll_noted (read : σ → β) {note : σ → ε → Option ω} (change : β → ω → β)
    (h : ∀ s e, read (step s e) = (note s e).toList.foldl change (read s)) (s : σ) (es : List ε) :
    read (runAll step s es) = (noted step note s es).foldl change (read s) := by
  induction es generalizing s with
  | nil => rfl
  | cons e es ih =>
    unfold noted
    rw [runAll_cons, ih, List.foldl_append, h]

theorem noted_append (note : σ → ε → Option ω) (s : σ) (es es' : List ε) :
    noted step note s (es ++ es') = noted step note s es ++ noted step note (runAll step s es) es' := by
  induction es generalizing s with
  | nil => rfl
  | cons e es ih =>
    show (note s e).toList ++ noted step note (step s e) (es ++ es') =
      (note s e).toList ++ noted step note (step s e) es ++ _
    rw [ih, List.append_assoc]
    rfl

/-- The invariant rule for the states of a run together with what has been noted of it so far. -/
theorem noted_inv {Inv : σ → List ω → Prop} {note : σ → ε → Option ω}
    (hstep : ∀ s h e, Inv s h → Inv (step s e) (h ++ (note s e).toList)) {s : σ} {h : List ω}
    (hs : Inv s h) (es : List ε) : Inv (runAll step s es) (h ++ noted step note s es) := by
  induction es generalizing s h with
  | nil =>
    unfold noted
    rw [List.append_nil]
    exact hs
  | cons e es ih =>
    unfold noted
    rw [runAll_cons, ← List.append_assoc]
    exact ih (hstep s h e hs)

/-- What was noted since the log was last cleared. -/
def sinceCleared (clears : ω → Bool) (ds : List ω) : List ω := ds.rtakeWhile fun d => !clears d

/-- A log that every note either clears or makes an entry in, holds the entries since it was last
cleared, after what it held before if it never was. -/
theorem foldl_log {change : List β → ω → List β} {clears : ω → Bool} {entry : ω → Option β}
    (h : ∀ l d, change l d = if clears d then [] else l ++ (entry d).toList) (l : List β)
    (ds : List ω) : ds.foldl change l =
      (if ds.any clears then [] else l) ++ (sinceCleared clears ds).filterMap entry := by
  unfold sinceCleared
  induction ds using List.reverseRecOn with
  | nil => simp
  | append_singleton ds d ih =>
    rw [List.foldl_append, List.foldl_cons, List.foldl_nil, ih, h]
    cases hd : clears d with
    | true => simp [hd]
    | false =>
      rw [List.rtakeWhile_concat_pos _ _ _ (by simp [hd]), List.filterMap_append]
      simp [hd, List.filterMap_cons]
      cases entry d <;> rfl

end Effect
