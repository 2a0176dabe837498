import LiteChat.Effect.Rows
import Mathlib.Data.List.TakeWhile

/-!
# Sorted by a key that has ties

`ORDER BY key` leaves rows of one key in whatever order the engine likes, so it allows every listing
of the rows that is sorted by the key (`OrderedBy`), and no other (`orderedBy_iff`). `before_iff`
says when all of these listings, cut off after so many rows, have some rows in the right order: the
keys tell them apart, or the later of the two is cut off whatever the engine does.
-/

namespace Effect

variable {α : Type} {key : α → Nat} {rows listing : List α}

/-- A listing that `ORDER BY key` allows. -/
structure OrderedBy (key : α → Nat) (rows listing : List α) : Prop where
  perm : listing.Perm rows
  sorted : listing.Pairwise fun r s => key r ≤ key s

/-! ## Every such listing is an answer -/

/-- Every order of the rows is the order of some rank: give each row the place that it has in that
order. -/
theorem exists_arrange [DecidableEq α] (h : rows.Nodup) (hperm : listing.Perm rows) :
    ∃ rank, arrange rank rows = listing := by
  have hnodup : listing.Nodup := hperm.nodup_iff.mpr h
  let rank : Nat → Nat := fun i => ((rows[i]?).map listing.idxOf).getD 0
  have htotal : Std.Total fun a b : α × Nat => rank a.2 ≤ rank b.2 :=
    ⟨fun a b => Nat.le_total (rank a.2) (rank b.2)⟩
  have htrans : IsTrans (α × Nat) fun a b => rank a.2 ≤ rank b.2 := ⟨fun _ _ _ => Nat.le_trans⟩
  have hrank : ∀ a ∈ rows.zipIdx.insertionSort fun a b => rank a.2 ≤ rank b.2,
      rank a.2 = listing.idxOf a.1 := by
    intro a ha
    have hget := List.mem_zipIdx_iff_getElem?.mp ((List.mem_insertionSort _).mp ha)
    show ((rows[a.2]?).map listing.idxOf).getD 0 = _
    rw [hget]
    rfl
  refine ⟨rank, ?_⟩
  have hinj : ∀ a b, a ∈ arrange rank rows → b ∈ listing → listing.idxOf a ≤ listing.idxOf b →
      listing.idxOf b ≤ listing.idxOf a → a = b := by
    intro a b ha _ hab hba
    have hmem : a ∈ listing := hperm.mem_iff.mpr (mem_arrange.mp ha)
    exact (List.idxOf_inj hmem).mp (Nat.le_antisymm hab hba)
  -- both lists are sorted by their place in the listing
  refine List.Perm.eq_of_pairwise hinj ?_ ?_ ((arrange_perm rank rows).trans hperm.symm)
  · refine List.pairwise_map.mpr ((List.pairwise_insertionSort _ _).imp_of_mem ?_)
    intro a b ha hb hab
    rw [← hrank a ha, ← hrank b hb]
    exact hab
  · refine List.pairwise_iff_getElem.mpr fun i j hi hj hij => ?_
    rw [hnodup.idxOf_getElem i hi, hnodup.idxOf_getElem j hj]
    exact Nat.le_of_lt hij

/-- The listing that a rank makes. -/
def sortBy (key : α → Nat) (rank : Nat → Nat) (rows : List α) : List α :=
  (arrange rank rows).insertionSort fun r s => key r ≤ key s

theorem orderedBy_insertionSort (h : listing.Perm rows) :
    OrderedBy key rows (listing.insertionSort fun r s => key r ≤ key s) := by
  have htotal : Std.Total fun r s : α => key r ≤ key s := ⟨fun r s => Nat.le_total (key r) (key s)⟩
  have htrans : IsTrans α fun r s => key r ≤ key s := ⟨fun _ _ _ => Nat.le_trans⟩
  exact ⟨(List.perm_insertionSort _ _).trans h, List.pairwise_insertionSort _ _⟩

theorem orderedBy_iff [DecidableEq α] (h : rows.Nodup) :
    OrderedBy key rows listing ↔ ∃ rank, sortBy key rank rows = listing := by
  constructor
  · intro hlisting
    obtain ⟨rank, hrank⟩ := exists_arrange h hlisting.perm
    refine ⟨rank, ?_⟩
    unfold sortBy
    rw [hrank]
    exact hlisting.sorted.insertionSort_eq
  · rintro ⟨rank, rfl⟩
    exact orderedBy_insertionSort (arrange_perm rank rows)

/-! ## What comes before a row -/

/-- How many rows come before a row in every listing. -/
def below (key : α → Nat) (rows : List α) (r : α) : Nat := rows.countP fun s => key s < key r

theorem OrderedBy.below_eq {before after : List α} {r : α}
    (h : OrderedBy key rows (before ++ r :: after)) :
    below key rows r = before.countP fun s => key s < key r := by
  have hafter : after.countP (fun s => key s < key r) = 0 := by
    refine List.countP_eq_zero.mpr fun s hs => ?_
    have hle := (List.pairwise_cons.mp (List.pairwise_append.mp h.sorted).2.1).1 s hs
    simpa using hle
  unfold below
  rw [← h.perm.countP_eq, List.countP_append, List.countP_cons, hafter]
  simp

theorem OrderedBy.below_le {before after : List α} {r : α}
    (h : OrderedBy key rows (before ++ r :: after)) : below key rows r ≤ before.length := by
  rw [h.below_eq]
  exact List.countP_le_length

theorem OrderedBy.mem_before {before after : List α} {r s : α}
    (h : OrderedBy key rows (before ++ r :: after)) (hs : s ∈ rows) (hne : s ≠ r)
    (hkey : key s < key r) : s ∈ before := by
  rcases List.mem_append.mp (h.perm.mem_iff.mpr hs) with hs | hs
  · exact hs
  · have hafter := List.pairwise_cons.mp (List.pairwise_append.mp h.sorted).2.1
    rcases List.mem_cons.mp hs with rfl | hs
    · exact absurd rfl hne
    · exact absurd (hafter.1 s hs) (Nat.not_le.mpr hkey)

/-- A row of the same key that comes before is one more. -/
theorem OrderedBy.below_lt {before after : List α} {r s : α}
    (h : OrderedBy key rows (before ++ r :: after)) (hs : s ∈ before) (hkey : key r ≤ key s) :
    below key rows r < before.length := by
  rw [h.below_eq]
  refine Nat.lt_of_le_of_ne List.countP_le_length fun hall => ?_
  have hlt := List.countP_eq_length.mp hall s hs
  exact absurd (of_decide_eq_true hlt) (Nat.not_lt.mpr hkey)

/-- The rows of a smaller key, then the row, then the others. -/
theorem insertionSort_cons_split (key : α → Nat) (r : α) (l : List α) : ∃ before after,
    ((r :: l).insertionSort fun r s => key r ≤ key s) = before ++ r :: after ∧
      ∀ s ∈ before, key s < key r := by
  refine ⟨_, _, List.insertionSort_cons_eq_take_drop _ _ _, fun s hs => ?_⟩
  simpa using List.mem_takeWhile_imp hs

/-- A row can come as early as its key allows. -/
theorem exists_front (key : α → Nat) {r : α} (hr : r ∈ rows) : ∃ before after,
    OrderedBy key rows (before ++ r :: after) ∧ before.length = below key rows r := by
  obtain ⟨a, b, rfl⟩ := List.append_of_mem hr
  obtain ⟨before, after, hsplit, hbefore⟩ := insertionSort_cons_split key r (a ++ b)
  have hperm : (r :: (a ++ b)).Perm (a ++ r :: b) := List.perm_middle.symm
  have hsorted : OrderedBy key _ _ := orderedBy_insertionSort hperm
  rw [hsplit] at hsorted
  refine ⟨before, after, hsorted, ?_⟩
  rw [hsorted.below_eq]
  exact (List.countP_eq_length.mpr fun s hs => decide_eq_true (hbefore s hs)).symm

/-- A row of the same key can come right before it. -/
theorem exists_front_pair {r s : α} (hr : r ∈ rows) (hs : s ∈ rows) (hne : r ≠ s)
    (hkey : key s = key r) : ∃ before after,
    OrderedBy key rows (before ++ s :: r :: after) ∧ before.length = below key rows r := by
  obtain ⟨a, b, rfl⟩ := List.append_of_mem hs
  have hr' : r ∈ a ++ b := by simpa [hne] using hr
  obtain ⟨before, after, h, hlength⟩ := exists_front key hr'
  obtain ⟨hbefore, hafter, hcross⟩ := List.pairwise_append.mp h.sorted
  refine ⟨before, after, ⟨?_, ?_⟩, ?_⟩
  · exact (List.perm_middle.trans (h.perm.cons s)).trans List.perm_middle.symm
  · refine List.pairwise_append.mpr ⟨hbefore, List.pairwise_cons.mpr ⟨fun t ht => ?_, hafter⟩, ?_⟩
    · rcases List.mem_cons.mp ht with rfl | ht
      · exact hkey.le
      · exact hkey.trans_le ((List.pairwise_cons.mp hafter).1 t ht)
    · intro t ht u hu
      rcases List.mem_cons.mp hu with rfl | hu
      · exact (hcross t ht r List.mem_cons_self).trans hkey.ge
      · exact hcross t ht u hu
  · rw [hlength]
    unfold below
    simp [hkey]

/-! ## Which of two comes first -/

/-- The rows up to a limit are in the right order in every listing: a row that must come before
another one has a smaller key, or the rows that come before it fill the limit. -/
theorem before_iff {T : α → α → Prop} (hT : ∀ r, ¬ T r r) (limit : Nat) :
    (∀ listing, OrderedBy key rows listing →
      (listing.take limit).Pairwise fun s r => ¬ T r s) ↔
    ∀ r ∈ rows, ∀ s ∈ rows, T r s → key r < key s ∨
      limit ≤ below key rows r + if key s = key r then 1 else 0 := by
  constructor
  · intro h r hr s hs hTrs
    by_contra hcon
    obtain ⟨hkey, hlimit⟩ := not_or.mp hcon
    have hne : r ≠ s := fun heq => hT r (heq ▸ hTrs)
    -- a listing in which the other row is seen before it
    have hseen : ∃ listing, OrderedBy key rows listing ∧ [s, r].Sublist (listing.take limit) := by
      by_cases htie : key s = key r
      · obtain ⟨before, after, hlisting, hlength⟩ := exists_front_pair hr hs hne htie
        rw [if_pos htie] at hlimit
        refine ⟨_, hlisting, (List.sublist_append_right before [s, r]).trans ?_⟩
        refine (List.prefix_take_iff.mpr ⟨⟨after, ?_⟩, ?_⟩).sublist
        · rw [List.append_assoc]
          rfl
        · rw [List.length_append, hlength]
          simp only [List.length_cons, List.length_nil]
          omega
      · obtain ⟨before, after, hlisting, hlength⟩ := exists_front key hr
        rw [if_neg htie] at hlimit
        have hs' : s ∈ before := hlisting.mem_before hs hne.symm (by omega)
        refine ⟨_, hlisting, ((List.singleton_sublist.mpr hs').append_right [r]).trans ?_⟩
        refine (List.prefix_take_iff.mpr ⟨⟨after, ?_⟩, ?_⟩).sublist
        · rw [List.append_assoc]
          rfl
        · rw [List.length_append, hlength, List.length_singleton]
          omega
    obtain ⟨listing, hlisting, hsub⟩ := hseen
    exact List.pairwise_iff_forall_sublist.mp (h listing hlisting) hsub hTrs
  · -- a row that must come before and comes after has a key that is no smaller, and then fills the limit
    intro h listing hlisting
    refine List.pairwise_iff_forall_sublist.mpr fun {s r} hsub hTrs => ?_
    obtain ⟨front, back, hsplit, hs, hr⟩ := List.cons_sublist_iff.mp hsub
    obtain ⟨mid, after, rfl⟩ := List.append_of_mem (List.singleton_sublist.mp hr)
    have hlist : listing = (front ++ mid) ++ r :: (after ++ listing.drop limit) := by
      conv_lhs => rw [← List.take_append_drop limit listing, hsplit]
      simp only [List.append_assoc, List.cons_append]
    have hlisting' := hlisting
    rw [hlist] at hlisting'
    have hlength : (front ++ mid).length < limit := by
      have hle := List.length_take_le limit listing
      rw [hsplit, List.length_append, List.length_append, List.length_cons] at hle
      rw [List.length_append]
      omega
    have hs' : s ∈ front ++ mid := List.mem_append_left mid hs
    have hrow : ∀ t ∈ listing, t ∈ rows := fun t => hlisting.perm.mem_iff.mp
    have hkey : key s ≤ key r :=
      (List.pairwise_append.mp hlisting'.sorted).2.2 s hs' r List.mem_cons_self
    rcases h r (hrow r (hlist ▸ by simp)) s (hrow s (hlist ▸ by simp [hs])) hTrs with hlt | hlimit
    · exact absurd hlt (Nat.not_lt.mpr hkey)
    · by_cases htie : key s = key r
      · have hbelow := hlisting'.below_lt hs' htie.ge
        rw [if_pos htie] at hlimit
        omega
      · have hbelow := hlisting'.below_le
        rw [if_neg htie] at hlimit
        omega

/-- The same without a limit. -/
theorem before_iff_all {T : α → α → Prop} (hT : ∀ r, ¬ T r r) :
    (∀ listing, OrderedBy key rows listing → listing.Pairwise fun s r => ¬ T r s) ↔
      ∀ r ∈ rows, ∀ s ∈ rows, T r s → key r < key s := by
  constructor
  · intro h r hr s hs hTrs
    have hne : r ≠ s := fun heq => hT r (heq ▸ hTrs)
    have htake : ∀ listing, OrderedBy key rows listing →
        (listing.take rows.length).Pairwise fun s r => ¬ T r s := by
      intro listing hlisting
      exact (h listing hlisting).sublist (List.take_sublist _ _)
    rcases (before_iff hT rows.length).mp htake r hr s hs hTrs with hlt | hlimit
    · exact hlt
    · -- with as many rows as there are, no row is cut off
      exfalso
      by_cases htie : key s = key r
      · obtain ⟨before, after, hlisting, hlength⟩ := exists_front_pair hr hs hne htie
        have hall := hlisting.perm.length_eq
        rw [List.length_append, List.length_cons, List.length_cons, hlength] at hall
        rw [if_pos htie] at hlimit
        omega
      · obtain ⟨before, after, hlisting, hlength⟩ := exists_front key hr
        have hall := hlisting.perm.length_eq
        rw [List.length_append, List.length_cons, hlength] at hall
        rw [if_neg htie] at hlimit
        omega
  · intro h listing hlisting
    have htake := (before_iff hT listing.length).mpr (fun r hr s hs hTrs => .inl (h r hr s hs hTrs))
      listing hlisting
    rwa [List.take_length] at htake

/-! ## Cut off at the wrong end -/

/-- The first rows of a listing are the greatest ones if nothing is cut off, or there is one key
only. -/
theorem OrderedBy.greatest_take_iff (h : OrderedBy key rows listing) (hnodup : rows.Nodup)
    {limit : Nat} (hpos : 0 < limit) :
    (∀ r ∈ rows, r ∉ listing.take limit → ∀ s ∈ listing.take limit, key r ≤ key s) ↔
      rows.length ≤ limit ∨ ∀ r ∈ rows, ∀ s ∈ rows, key r = key s := by
  have hsplit : listing.take limit ++ listing.drop limit = listing := List.take_append_drop _ _
  have hdistinct : ∀ r ∈ listing.drop limit, r ∉ listing.take limit := by
    intro r hr hr'
    have hnodup' : listing.Nodup := h.perm.nodup_iff.mpr hnodup
    rw [← hsplit] at hnodup'
    exact (List.nodup_append.mp hnodup').2.2 r hr' r hr rfl
  constructor
  · intro hgreatest
    by_cases hlength : rows.length ≤ limit
    · exact .inl hlength
    · right
      have hlong : limit < listing.length := h.perm.length_eq ▸ Nat.lt_of_not_le hlength
      -- what is cut off is at least what is left by the order, and at most by the hypothesis
      have hsame : ∀ s ∈ listing.take limit, ∀ r ∈ listing.drop limit, key s = key r := by
        intro s hs r hr
        have hsorted := h.sorted
        rw [← hsplit] at hsorted
        refine Nat.le_antisymm ((List.pairwise_append.mp hsorted).2.2 s hs r hr) ?_
        exact hgreatest r (h.perm.mem_iff.mp (List.mem_of_mem_drop hr)) (hdistinct r hr) s hs
      obtain ⟨s, hs⟩ : ∃ s, s ∈ listing.take limit := by
        refine List.exists_mem_of_length_pos ?_
        rw [List.length_take]
        omega
      obtain ⟨r, hr⟩ : ∃ r, r ∈ listing.drop limit := by
        refine List.exists_mem_of_length_pos ?_
        rw [List.length_drop]
        omega
      have hall : ∀ t ∈ rows, key t = key r := by
        intro t ht
        rw [← h.perm.mem_iff, ← hsplit] at ht
        rcases List.mem_append.mp ht with ht | ht
        · exact hsame t ht r hr
        · exact (hsame s hs t ht).symm.trans (hsame s hs r hr)
      exact fun t ht t' ht' => (hall t ht).trans (hall t' ht').symm
  · rintro (hlength | hall) r hr hout s hs
    · rw [List.take_of_length_le (h.perm.length_eq ▸ hlength)] at hout
      exact absurd (h.perm.mem_iff.mpr hr) hout
    · exact (hall r hr s (h.perm.mem_iff.mp (List.mem_of_mem_take hs))).le

end Effect
