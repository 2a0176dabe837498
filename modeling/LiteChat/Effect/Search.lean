import Mathlib.Data.List.Infix
import Mathlib.Tactic.Common

/-!
# Searching a text

`find text pattern pos` is the first occurrence of a pattern at or after a position, and `replace`
puts another text in place of a part of one. An element that is not in the pattern separates: what
is before it and what is after it are searched one after the other (`search_append_cons`).
-/

namespace Effect

variable {α : Type}

/-- `length` elements from `pos` on give way to `by'`. -/
def replace (text : List α) (pos length : Nat) (by' : List α) : List α :=
  text.take pos ++ by' ++ text.drop (pos + length)

theorem replace_append (before part after by' : List α) :
    replace (before ++ part ++ after) before.length part.length by' = before ++ by' ++ after := by
  unfold replace
  rw [List.append_assoc before part, List.take_left, ← List.drop_drop, List.drop_left,
    List.drop_left]

theorem length_replace {text by' : List α} {pos length : Nat} (h : pos + length ≤ text.length) :
    (replace text pos length by').length = text.length - length + by'.length := by
  unfold replace
  simp only [List.length_append, List.length_take, List.length_drop]
  omega

/-- An occurrence does not reach over an element that the pattern does not have. -/
theorem prefix_append_cons {pattern before after : List α} {z : α} (hz : z ∉ pattern) :
    pattern <+: before ++ z :: after ↔ pattern <+: before := by
  induction before generalizing pattern with
  | nil =>
    cases pattern with
    | nil => simp
    | cons p pattern =>
      constructor
      · intro h
        obtain ⟨rfl, -⟩ := List.cons_prefix_cons.mp h
        exact absurd List.mem_cons_self hz
      · intro h
        exact absurd (List.prefix_nil.mp h) (List.cons_ne_nil p pattern)
  | cons b before ih =>
    cases pattern with
    | nil => simp
    | cons p pattern =>
      rw [List.cons_append, List.cons_prefix_cons, List.cons_prefix_cons,
        ih fun h => hz (List.mem_cons_of_mem p h)]

theorem append_cons_inj {before before' after after' : List α} {z : α} (hz : z ∉ before)
    (hz' : z ∉ before') : before ++ z :: after = before' ++ z :: after' ↔
      before = before' ∧ after = after' := by
  induction before generalizing before' with
  | nil =>
    cases before' with
    | nil => simp
    | cons b before' =>
      have hne : z ≠ b := fun h => hz' (h ▸ List.mem_cons_self)
      simp [hne]
  | cons b before ih =>
    cases before' with
    | nil =>
      have hne : b ≠ z := fun h => hz (h ▸ List.mem_cons_self)
      simp [hne]
    | cons b' before' =>
      have h := ih (fun h => hz (List.mem_cons_of_mem b h))
        (fun h => hz' (List.mem_cons_of_mem b' h))
      rw [List.cons_append, List.cons_append, List.cons.injEq, List.cons.injEq, h, and_assoc]

/-! ## Searching -/

variable [DecidableEq α]

/-- How many elements are before the first occurrence. -/
def search (pattern : List α) : List α → Option Nat
  | [] => if pattern = [] then some 0 else none
  | a :: text =>
    if pattern <+: a :: text then some 0 else (search pattern text).map (· + 1)

/-- The position of the first occurrence that does not start before `pos`. -/
def find (text pattern : List α) (pos : Nat) : Option Nat :=
  if pos ≤ text.length then (search pattern (text.drop pos)).map (pos + ·) else none

/-! ## An occurrence -/

theorem prefix_drop_of_search {pattern text : List α} {i : Nat} (h : search pattern text = some i) :
    pattern <+: text.drop i := by
  induction text generalizing i with
  | nil =>
    unfold search at h
    split at h
    · next hnil => simp [hnil]
    · cases h
  | cons a text ih =>
    unfold search at h
    split at h
    · next hpre =>
      cases h
      exact hpre
    · obtain ⟨j, hj, rfl⟩ := Option.map_eq_some_iff.mp h
      exact ih hj

theorem le_length_of_search {pattern text : List α} {i : Nat} (h : search pattern text = some i) :
    i ≤ text.length := by
  induction text generalizing i with
  | nil =>
    unfold search at h
    split at h
    · cases h
      exact Nat.le_refl 0
    · cases h
  | cons a text ih =>
    unfold search at h
    split at h
    · cases h
      exact Nat.zero_le _
    · obtain ⟨j, hj, rfl⟩ := Option.map_eq_some_iff.mp h
      exact Nat.succ_le_succ (ih hj)

theorem search_eq_none_iff {pattern text : List α} :
    search pattern text = none ↔ ¬ pattern <:+: text := by
  induction text with
  | nil => simp [search]
  | cons a text ih =>
    rw [List.infix_cons_iff, search]
    split
    · next hpre => simp [hpre]
    · next hpre => simp [hpre, ih]

/-- **A separator.** A pattern without the separator is found before it or after it, and never across
it. -/
theorem search_append_cons {pattern before after : List α} {z : α} (hz : z ∉ pattern)
    (hne : pattern ≠ []) : search pattern (before ++ z :: after) =
      (search pattern before).or
        ((search pattern after).map (before.length + 1 + ·)) := by
  induction before with
  | nil =>
    have hpre : ¬ pattern <+: z :: after := by
      intro h
      have hnil : pattern <+: [] ++ z :: after := h
      exact hne (List.prefix_nil.mp ((prefix_append_cons hz).mp hnil))
    have hnil : search pattern [] = none := if_neg hne
    have hcons : search pattern (z :: after) = (search pattern after).map (· + 1) := if_neg hpre
    rw [List.nil_append, hcons, hnil, Option.none_or]
    congr 1
    funext i
    simp
    omega
  | cons b before ih =>
    rw [List.cons_append, search, search]
    -- a match that begins before the separator ends before it
    have hcut : pattern <+: b :: (before ++ z :: after) ↔ pattern <+: b :: before := by
      rw [← List.cons_append]
      exact prefix_append_cons hz
    by_cases hpre : pattern <+: b :: before
    · have hpre' := hcut.mpr hpre
      rw [if_pos hpre, if_pos hpre', Option.some_or]
    · have hpre' := fun h => hpre (hcut.mp h)
      rw [if_neg hpre, if_neg hpre', ih]
      cases search pattern before with
      | some i => rfl
      | none =>
        rw [Option.none_or, Option.map_none, Option.none_or, Option.map_map]
        congr 1
        funext i
        simp
        omega

/-- The first of them. -/
theorem search_singleton {before after : List α} {z : α} (hz : z ∉ before) :
    search [z] (before ++ z :: after) = some before.length := by
  induction before with
  | nil => simp [search]
  | cons b before ih =>
    obtain ⟨hb, hbefore⟩ := not_or.mp (List.mem_cons.not.mp hz)
    have hpre : ¬ [z] <+: b :: (before ++ z :: after) := by
      intro h
      exact hb (List.cons_prefix_cons.mp h).1
    rw [List.cons_append, search, if_neg hpre, ih hbefore]
    rfl

/-! ## Positions -/

theorem find_of_le {text pattern : List α} {pos : Nat} (h : pos ≤ text.length) :
    find text pattern pos = (search pattern (text.drop pos)).map (pos + ·) :=
  if_pos h

theorem find_of_lt {text pattern : List α} {pos : Nat} (h : text.length < pos) :
    find text pattern pos = none :=
  if_neg (Nat.not_le.mpr h)

theorem find_append (before after pattern : List α) (pos : Nat) :
    find (before ++ after) pattern (before.length + pos) =
      (find after pattern pos).map (before.length + ·) := by
  rcases Nat.lt_or_ge after.length pos with hlt | hle
  · rw [find_of_lt hlt, find_of_lt (by rw [List.length_append]; omega), Option.map_none]
  · rw [find_of_le hle, find_of_le (by rw [List.length_append]; omega), List.drop_append,
      Nat.add_sub_cancel_left, List.drop_eq_nil_of_le (Nat.le_add_right _ _), List.nil_append,
      Option.map_map]
    congr 1
    funext i
    simp [Nat.add_assoc]

theorem find_eq_none_iff {text pattern : List α} {pos : Nat} (hne : pattern ≠ []) :
    find text pattern pos = none ↔ ¬ pattern <:+: text.drop pos := by
  rcases Nat.lt_or_ge text.length pos with hlt | hle
  · rw [find_of_lt hlt, List.drop_eq_nil_of_le (by omega), List.infix_nil]
    simp [hne]
  · rw [find_of_le hle, Option.map_eq_none_iff, search_eq_none_iff]

/-- **A separator**, for positions. -/
theorem find_append_cons {pattern before after : List α} {z : α} (hz : z ∉ pattern)
    (hne : pattern ≠ []) (pos : Nat) : find (before ++ z :: after) pattern pos =
      (find before pattern pos).or
        ((find after pattern (pos - (before.length + 1))).map (before.length + 1 + ·)) := by
  rcases Nat.lt_or_ge before.length pos with hlt | hle
  · obtain ⟨n, rfl⟩ : ∃ n, pos = before.length + 1 + n := ⟨pos - (before.length + 1), by omega⟩
    have h := find_append (before ++ [z]) after pattern n
    rw [List.append_assoc, List.length_append, List.length_singleton] at h
    rw [find_of_lt hlt, Option.none_or, Nat.add_sub_cancel_left]
    exact h
  · have hpos : pos - (before.length + 1) = 0 := by omega
    rw [find_of_le hle, hpos, find_of_le (Nat.zero_le _), find_of_le (by simp; omega),
      List.drop_append_of_le_length hle, search_append_cons hz hne, List.length_drop, List.drop_zero]
    cases search pattern (before.drop pos) with
    | some i => rfl
    | none =>
      simp only [Option.map_none, Option.none_or, Option.map_map]
      congr 1
      funext i
      simp
      omega

theorem find_singleton {before after : List α} {z : α} {pos : Nat} (hle : pos ≤ before.length)
    (hz : z ∉ before.drop pos) : find (before ++ z :: after) [z] pos = some before.length := by
  rw [find_of_le (by simp; omega), List.drop_append_of_le_length hle, search_singleton hz,
    List.length_drop, Option.map_some]
  congr 1
  omega

/-- What a search from a position finds. -/
theorem find_spec {text pattern : List α} {pos i : Nat} (h : find text pattern pos = some i) :
    pos ≤ i ∧ i ≤ text.length ∧ pattern <+: text.drop i := by
  unfold find at h
  split at h
  · next hle =>
    obtain ⟨j, hj, rfl⟩ := Option.map_eq_some_iff.mp h
    have hlen := le_length_of_search hj
    have hpre := prefix_drop_of_search hj
    rw [List.length_drop] at hlen
    rw [List.drop_drop] at hpre
    exact ⟨Nat.le_add_right pos j, by omega, hpre⟩
  · cases h

end Effect
