import Mathlib.Data.List.AList
import Mathlib.Data.List.Sort
import Mathlib.Data.List.Nodup

/-!
# Rows with a unique key, rows in no particular order, and maps

Facts about tables that have nothing to do with what is in them.

* A `UNIQUE` column makes a lookup exact: `find?` by the key gives a row if and only if the row
  is there (`find?_key_iff`), and two rows with one key are one row (`eq_of_key_eq`).
* A query without `ORDER BY` gives its rows in whatever order the engine likes. `arrange rank`
  is that order as a function of a `rank` the environment chooses: every permutation is
  `arrange rank` for some `rank`, and each `arrange rank` is a permutation (`arrange_perm`).
* `Map κ ν` is a finite map (`std::unordered_map`), with lookups after an insertion or an erasure
  stated as an `if`, so that a case split on the key is all a proof has to do.
-/

namespace Effect

variable {α κ : Type}

/-! ## Unique keys -/

theorem eq_of_key_eq (key : α → κ) {rows : List α} (h : (rows.map key).Nodup) {r s : α}
    (hr : r ∈ rows) (hs : s ∈ rows) (hk : key r = key s) : r = s :=
  List.inj_on_of_nodup_map h hr hs hk

/-- Looking a row up by its unique key finds it exactly. -/
theorem find?_key_iff [DecidableEq κ] (key : α → κ) {rows : List α}
    (h : (rows.map key).Nodup) {k : κ} {r : α} :
    rows.find? (fun s => key s = k) = some r ↔ r ∈ rows ∧ key r = k := by
  constructor
  · intro hf
    exact ⟨List.mem_of_find?_eq_some hf, by simpa using List.find?_some hf⟩
  · rintro ⟨hr, hk⟩
    cases hf : rows.find? (fun s => key s = k) with
    | none =>
      have := List.find?_eq_none.mp hf r hr
      exact absurd hk (by simpa using this)
    | some s =>
      have hs : s ∈ rows ∧ key s = k :=
        ⟨List.mem_of_find?_eq_some hf, by simpa using List.find?_some hf⟩
      rw [eq_of_key_eq key h hr hs.1 (hk.trans hs.2.symm)]

theorem find?_key_eq_none [DecidableEq κ] (key : α → κ) {rows : List α} {k : κ} :
    rows.find? (fun s => key s = k) = none ↔ ∀ r ∈ rows, key r ≠ k := by
  simp [List.find?_eq_none]

/-- Rewriting rows without touching their key keeps the keys. -/
theorem map_key_map {key : α → κ} {f : α → α} (hf : ∀ r, key (f r) = key r)
    (rows : List α) : (rows.map f).map key = rows.map key := by
  rw [List.map_map]
  exact List.map_congr_left fun r _ => hf r

/-- How many rows are one of two. -/
theorem length_filter_pair [DecidableEq α] {x y : α} (hxy : x ≠ y) (rows : List α) :
    (rows.filter fun r => r = x ∨ r = y).length = rows.count x + rows.count y := by
  induction rows with
  | nil => rfl
  | cons r rows ih =>
    rw [List.count_cons, List.count_cons]
    by_cases hx : r = x
    · subst hx
      rw [List.filter_cons_of_pos (by simp), List.length_cons, ih]
      simp [hxy]
      omega
    · by_cases hy : r = y
      · subst hy
        rw [List.filter_cons_of_pos (by simp), List.length_cons, ih]
        simp [hx]
        omega
      · rw [List.filter_cons_of_neg (by simp [hx, hy]), ih]
        simp [hx, hy]

/-- What rows are mapped to is without repetition if no two rows are mapped to one thing. The rows
themselves are: they are the rows of a table with a primary key. -/
theorem nodup_filterMap_iff {β : Type} {f : α → Option β} {rows : List α} (h : rows.Nodup) :
    (rows.filterMap f).Nodup ↔
      ∀ r ∈ rows, ∀ s ∈ rows, ∀ b, f r = some b → f s = some b → r = s := by
  constructor
  · intro hnodup
    induction rows with
    | nil => nofun
    | cons t rows ih =>
      obtain ⟨_, h⟩ := List.nodup_cons.mp h
      have hrest : (rows.filterMap f).Nodup := hnodup.sublist
        ((List.sublist_cons_self t rows).filterMap f)
      -- the row in front shares what it is mapped to with no row after it
      have hfront : ∀ r ∈ rows, ∀ b, f t = some b → f r ≠ some b := by
        intro r hr b ht hb
        rw [List.filterMap_cons_some ht] at hnodup
        exact (List.nodup_cons.mp hnodup).1 (List.mem_filterMap.mpr ⟨r, hr, hb⟩)
      intro r hr s hs b hrb hsb
      rcases List.mem_cons.mp hr with hrt | hr'
      · rcases List.mem_cons.mp hs with hst | hs'
        · exact hrt.trans hst.symm
        · exact absurd hsb (hfront s hs' b (hrt ▸ hrb))
      · rcases List.mem_cons.mp hs with hst | hs'
        · exact absurd hrb (hfront r hr' b (hst ▸ hsb))
        · exact ih h hrest r hr' s hs' b hrb hsb
  · intro hinj
    induction rows with
    | nil => exact List.nodup_nil
    | cons t rows ih =>
      obtain ⟨ht, h⟩ := List.nodup_cons.mp h
      have hrest := ih h fun r hr s hs => hinj r (.tail _ hr) s (.tail _ hs)
      cases hb : f t with
      | none =>
        rw [List.filterMap_cons_none hb]
        exact hrest
      | some b =>
        rw [List.filterMap_cons_some hb]
        refine List.nodup_cons.mpr ⟨fun hmem => ht ?_, hrest⟩
        obtain ⟨r, hr, hrb⟩ := List.mem_filterMap.mp hmem
        exact hinj t (.head _) r (.tail _ hr) b hb hrb ▸ hr

/-! ## No particular order -/

/-- The rows, in the order of the rank of their position. -/
def arrange (rank : Nat → Nat) (rows : List α) : List α :=
  (rows.zipIdx.insertionSort fun a b => rank a.2 ≤ rank b.2).map Prod.fst

theorem arrange_perm (rank : Nat → Nat) (rows : List α) : (arrange rank rows).Perm rows := by
  have h := (List.perm_insertionSort (fun a b : α × Nat => rank a.2 ≤ rank b.2) rows.zipIdx).map
    Prod.fst
  simpa [arrange] using h

@[simp] theorem mem_arrange {rank : Nat → Nat} {rows : List α} {r : α} :
    r ∈ arrange rank rows ↔ r ∈ rows := (arrange_perm rank rows).mem_iff

/-! ## Maps -/

/-- A finite map: `std::unordered_map<κ, ν>`. -/
abbrev Map (κ ν : Type) : Type := AList fun _ : κ => ν

theorem Map.lookup_insert {ν : Type} [DecidableEq κ] (m : Map κ ν) (k k' : κ) (v : ν) :
    (AList.insert k v m).lookup k' = if k' = k then some v else m.lookup k' := by
  by_cases h : k' = k
  · subst h
    rw [if_pos rfl, AList.lookup_insert]
  · rw [if_neg h, AList.lookup_insert_ne h]

theorem Map.lookup_erase {ν : Type} [DecidableEq κ] (m : Map κ ν) (k k' : κ) :
    (AList.erase k m).lookup k' = if k' = k then none else m.lookup k' := by
  by_cases h : k' = k
  · subst h
    rw [if_pos rfl, AList.lookup_erase]
  · rw [if_neg h, AList.lookup_erase_ne h]

end Effect
