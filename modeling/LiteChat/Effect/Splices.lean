import LiteChat.Effect.Search
import Mathlib.Data.List.Infix

/-!
# Editing a text while it is searched

`occurrences` counts how often a pattern is in a text. A search that goes on behind what it has found
has fewer of them in front of it (`occurrences_drop_lt`), also when a text is put in between that has
nothing of the pattern (`occurrences_append`).

`Spliced by' text result` says that disjoint parts of `text` have given way to `by'`. Edits from
left to right splice, if each of them begins where the one before it has ended or later
(`SplicedUpTo.replace`).
-/

namespace Effect

variable {α : Type}

/-! ## Counting -/

section Occurrences

variable [DecidableEq α] {pattern : List α}

/-- At how many positions of a text a pattern is. -/
def occurrences (pattern text : List α) : Nat := text.tails.countP fun rest => pattern <+: rest

theorem occurrences_cons (a : α) (text : List α) : occurrences pattern (a :: text) =
    occurrences pattern text + if pattern <+: a :: text then 1 else 0 := by
  unfold occurrences
  rw [List.tails_cons, List.countP_cons]
  simp

theorem occurrences_le_of_suffix {text text' : List α} (h : text' <:+ text) :
    occurrences pattern text' ≤ occurrences pattern text := by
  obtain ⟨before, rfl⟩ := h
  induction before with
  | nil => exact Nat.le_refl _
  | cons a before ih =>
    rw [List.cons_append, occurrences_cons]
    exact Nat.le_add_right_of_le ih

/-- What has no element of the pattern brings no occurrence. -/
theorem occurrences_append (hne : pattern ≠ []) {before : List α} (h : ∀ a ∈ before, a ∉ pattern)
    (text : List α) : occurrences pattern (before ++ text) = occurrences pattern text := by
  induction before with
  | nil => rfl
  | cons a before ih =>
    have hpre : ¬ pattern <+: a :: (before ++ text) := by
      intro hpre
      obtain ⟨b, pattern', rfl⟩ := List.exists_cons_of_ne_nil hne
      obtain ⟨rfl, -⟩ := List.cons_prefix_cons.mp hpre
      exact h b List.mem_cons_self List.mem_cons_self
    rw [List.cons_append, occurrences_cons, if_neg hpre, Nat.add_zero]
    exact ih fun b hb => h b (List.mem_cons_of_mem a hb)

omit [DecidableEq α] in
/-- An occurrence does not begin in what has no element of the pattern. -/
theorem le_of_prefix_drop_append (hne : pattern ≠ []) {before text : List α} {k : Nat}
    (h : ∀ a ∈ before, a ∉ pattern) (hpre : pattern <+: (before ++ text).drop k) :
    before.length ≤ k := by
  by_contra hlt
  obtain ⟨b, pattern', rfl⟩ := List.exists_cons_of_ne_nil hne
  rw [List.drop_append_of_le_length (by omega), List.drop_eq_getElem_cons (by omega),
    List.cons_append] at hpre
  apply h before[k] (List.getElem_mem _)
  rw [(List.cons_prefix_cons.mp hpre).1]
  exact List.mem_cons_self

theorem find_lt (hne : pattern ≠ []) {text : List α} {pos i : Nat}
    (h : find text pattern pos = some i) : i < text.length := by
  obtain ⟨-, -, hpre⟩ := find_spec h
  have hlen := hpre.length_le
  have hpos := List.length_pos_iff.mpr hne
  rw [List.length_drop] at hlen
  omega

theorem occurrences_drop_le (pattern text : List α) {i j : Nat} (h : i ≤ j) :
    occurrences pattern (text.drop j) ≤ occurrences pattern (text.drop i) := by
  apply occurrences_le_of_suffix
  rw [← Nat.add_sub_cancel' h, ← List.drop_drop]
  exact List.drop_suffix _ _

/-- Behind an occurrence there is one less. -/
theorem occurrences_drop_lt (hne : pattern ≠ []) {text : List α} {pos i : Nat}
    (h : find text pattern pos = some i) :
    occurrences pattern (text.drop (i + 1)) < occurrences pattern (text.drop pos) := by
  obtain ⟨hpos, -, hpre⟩ := find_spec h
  have hle := occurrences_drop_le pattern text hpos
  rw [List.drop_eq_getElem_cons (find_lt hne h)] at hle hpre
  rw [occurrences_cons, if_pos hpre] at hle
  omega

end Occurrences

/-- What is behind the beginning of an edit. -/
theorem drop_replace {text by' : List α} {start length n : Nat} (hstart : start ≤ text.length)
    (hn : start ≤ n) : (replace text start length by').drop n =
      (by' ++ text.drop (start + length)).drop (n - start) := by
  unfold replace
  rw [List.append_assoc, List.drop_append, List.length_take, Nat.min_eq_left hstart,
    List.drop_eq_nil_of_le (by rw [List.length_take]; omega), List.nil_append]

/-! ## Splicing -/

/-- Parts of the text have given way to `by'`, and what is before, between and after them is there
in its order. -/
def Spliced (by' text result : List α) : Prop :=
  ∃ (parts : List (List α × List α)) (last : List α),
    text = (parts.flatMap fun p => p.1 ++ p.2) ++ last ∧
      result = (parts.flatMap fun p => p.1 ++ by') ++ last

/-- It is so with the first `n` elements of the result, and the others are the end of the text. -/
def SplicedUpTo (by' text result : List α) (n : Nat) : Prop :=
  ∃ before before' after, text = before ++ after ∧ result = before' ++ after ∧
    Spliced by' before before' ∧ before'.length = n

variable {by' text result : List α}

theorem Spliced.append (h : Spliced by' text result) (kept : List α) :
    Spliced by' (text ++ kept) (result ++ kept) := by
  obtain ⟨parts, last, rfl, rfl⟩ := h
  exact ⟨parts, last ++ kept, List.append_assoc _ _ _, List.append_assoc _ _ _⟩

theorem Spliced.part (h : Spliced by' text result) (part : List α) :
    Spliced by' (text ++ part) (result ++ by') := by
  obtain ⟨parts, last, rfl, rfl⟩ := h
  refine ⟨parts ++ [(last, part)], [], ?_, ?_⟩
  · simp [List.flatMap_append]
  · simp [List.flatMap_append]

theorem SplicedUpTo.refl (by' text : List α) : SplicedUpTo by' text text 0 :=
  ⟨[], [], text, rfl, rfl, ⟨[], [], rfl, rfl⟩, rfl⟩

theorem SplicedUpTo.spliced {n : Nat} (h : SplicedUpTo by' text result n) :
    Spliced by' text result := by
  obtain ⟨before, before', after, rfl, rfl, h, -⟩ := h
  exact h.append after

/-- A text in three, by the lengths of the first two. -/
theorem exists_three {k m : Nat} (h : k + m ≤ text.length) : ∃ kept part after,
    text = kept ++ part ++ after ∧ kept.length = k ∧ part.length = m := by
  refine ⟨text.take k, (text.drop k).take m, text.drop (k + m), ?_, ?_, ?_⟩
  · rw [← List.drop_drop, List.append_assoc, List.take_append_drop, List.take_append_drop]
  · rw [List.length_take]
    omega
  · rw [List.length_take, List.length_drop]
    omega

/-- **One edit more.** -/
theorem SplicedUpTo.replace {n start stop : Nat} (h : SplicedUpTo by' text result n)
    (hn : n ≤ start) (hstart : start ≤ stop) (hstop : stop ≤ result.length) :
    SplicedUpTo by' text (replace result start (stop - start) by') (start + by'.length) := by
  obtain ⟨before, before', rest, rfl, rfl, h, rfl⟩ := h
  rw [List.length_append] at hstop
  obtain ⟨kept, part, after, rfl, hkept, hpart⟩ :
      ∃ kept part after, rest = kept ++ part ++ after ∧
        kept.length = start - before'.length ∧ part.length = stop - start := by
    apply exists_three
    omega
  have hedge : (before' ++ kept).length = start := by
    rw [List.length_append]
    omega
  refine ⟨before ++ kept ++ part, before' ++ kept ++ by', after, ?_, ?_, ?_, ?_⟩
  · simp only [List.append_assoc]
  · rw [← hpart, ← hedge, ← replace_append (before' ++ kept) part after by']
    simp only [List.append_assoc]
  · exact (h.append kept).part part
  · rw [List.length_append, hedge]

end Effect
