import LiteChat.Effect.Monitor
import Mathlib.Data.List.Nodup

/-!
# Who has been woken up for what

A condition variable remembers nothing, so a program must see to it that nobody sleeps on while there
is something for him. `Signals` is a discipline of the code that does: for every item that may be taken
from the shared state there is a thread that is about to take one or to wake somebody up, as long as
anybody sleeps (`Signalled`). The threads that have been told may be fewer than those that sleep, and
one that has been told may find that another was faster; the count is right all the same. So if nobody
can make a step and somebody sleeps, nothing is left to take (`Signalled.stuck`).
-/

namespace Effect

variable {ι χ σ L : Type}

/-- The thread is about to look at the shared state, or to wake somebody up. -/
def Status.credited (credit : L → Bool) : Status L → Bool
  | .ready l => credit l
  | .woken _ => true
  | .parking _ | .blocked _ => false

/-- What the instruction does to the count: whoever finds that there is nothing to wait for is at a
label with credit, as is whoever has put something there; and what there is to take changes under the
mutex only. `here` is the credit before, and `locked` whether the mutex is held. -/
def Instr.Signals (items : σ → Nat) (credit : L → Bool) (locked here : Bool) : Instr ι χ σ L → Prop
  | .lock next | .unlock next => here = true → credit next = true
  | .wait next => here = true ∧ credit next = true
  | .act f => ∀ c x, (locked = false → items (f c x).2 = items x) ∧
      (items (f c x).2 + here.toNat ≤ items x + (credit (f c x).1).toNat ∨ items (f c x).2 = 0)
  | .notifyOne _ | .notifyAll _ => True
  | .join _ _ | .halt => here = false

/-- The code signals. `items` is how much there is to take, and `credit` says at which labels a thread
is about to take something or to wake somebody up for it. Of what the threads do by themselves this is
asked at the labels `Ok`. -/
structure Signals (p : Program ι χ σ L) (Ok : ι → L → Prop) (holds : ι → L → Bool)
    (items : σ → Nat) (credit : ι → L → Bool) : Prop where
  pred : ∀ x, p.pred x = false → items x = 0
  code : ∀ i l, Ok i l → (p.code i l).Signals items (credit i) (holds i l) (credit i l)

theorem Signals.of_code {p : Program ι χ σ L} {s : Monitor ι σ L} {Ok : ι → L → Prop}
    {holds credit : ι → L → Bool} {items : σ → Nat} (hsig : Signals p Ok holds items credit)
    (hok : ∀ i, Ok i (s.labels i)) {i : ι} {st : Status L} {instr : Instr ι χ σ L}
    (hst : s.status i = st) (h : p.code i st.label = instr) :
    instr.Signals items (credit i) (holds i st.label) (credit i st.label) := by
  have hl : s.labels i = st.label := congrArg Status.label hst
  exact h ▸ hsig.code i _ (hl ▸ hok i)

namespace Monitor

variable {p : Program ι χ σ L} {s s' : Monitor ι σ L} {e : Tick ι χ} {holds : ι → L → Bool}
  {items : σ → Nat} {credit : ι → L → Bool} {Ok : ι → L → Prop}

/-- So many threads have been told. -/
def Told (credit : ι → L → Bool) (s : Monitor ι σ L) (n : Nat) : Prop :=
  ∃ is : List ι, is.Nodup ∧ (∀ i ∈ is, (s.status i).credited (credit i) = true) ∧ n ≤ is.length

/-- As long as somebody sleeps, a thread has been told for everything there is to take; and whoever is
about to sleep has seen that there is nothing. -/
structure Signalled (items : σ → Nat) (credit : ι → L → Bool) (s : Monitor ι σ L) : Prop where
  parking : ∀ i l, s.status i = .parking l → items s.shared = 0
  told : ∀ j, (s.status j).isBlocked = true → Told credit s (items s.shared)

theorem Told.none (s : Monitor ι σ L) : Told credit s 0 := ⟨[], List.nodup_nil, by simp, le_rfl⟩

theorem Told.wakeUp {n : Nat} (h : Told credit s n) (who : ι → Bool) :
    Told credit (s.wakeUp who) n := by
  obtain ⟨is, hnodup, his, hn⟩ := h
  refine ⟨is, hnodup, fun i hi => ?_, hn⟩
  have hi := his i hi
  unfold Monitor.wakeUp
  dsimp only
  split
  · cases hst : s.status i <;> simp_all [Status.wake, Status.credited]
  · exact hi

theorem Signalled.wakeUp (h : Signalled items credit s) (who : ι → Bool) :
    Signalled items credit (s.wakeUp who) := by
  constructor
  · intro i l hi
    refine h.parking i l ?_
    unfold Monitor.wakeUp at hi
    dsimp only at hi
    split at hi
    · cases hst : s.status i <;> simp_all [Status.wake]
    · exact hi
  · intro j hj
    refine (h.told j ?_).wakeUp who
    unfold Monitor.wakeUp at hj
    dsimp only at hj
    split at hj
    · cases hst : s.status j <;> simp_all [Status.wake, Status.isBlocked]
    · exact hj

theorem not_isBlocked_wakeUp (s : Monitor ι σ L) (j : ι) :
    ((s.wakeUp fun _ => true).status j).isBlocked = false := by
  unfold Monitor.wakeUp
  dsimp only
  cases s.status j <;> rfl

theorem isBlocked_of_wakeUp {who : ι → Bool} {j : ι}
    (h : ((s.wakeUp who).status j).isBlocked = true) : (s.status j).isBlocked = true := by
  unfold Monitor.wakeUp at h
  dsimp only at h
  split at h
  · cases hst : s.status j <;> simp_all [Status.wake, Status.isBlocked]
  · exact h

/-- **If nobody can make a step and somebody sleeps, there is nothing to take.** -/
theorem Signalled.stuck (hsig : Signals p Ok holds items credit) (hok : ∀ i, Ok i (s.labels i))
    (h : Signalled items credit s)
    (hrest : ∀ i, AtRest p s i) {j : ι} (hj : (s.status j).isBlocked = true) :
    items s.shared = 0 := by
  obtain ⟨is, _, his, hn⟩ := h.told j hj
  have hnone : is = [] := by
    refine List.eq_nil_iff_forall_not_mem.mpr fun i hi => ?_
    have hi := his i hi
    cases hrest i with
    | blocked hb =>
      obtain ⟨l, hl⟩ := Status.isBlocked_iff.mp hb
      simp [hl, Status.credited] at hi
    | joining l j next hst hcode _ =>
      have hnone : credit i l = false := hsig.of_code hok hst hcode
      simp [hst, Status.credited, hnone] at hi
    | finished hf =>
      obtain ⟨l, hst, hcode⟩ := finished_iff.mp hf
      have hnone : credit i l = false := hsig.of_code hok hst hcode
      simp [hst, Status.credited, hnone] at hi
  simpa [hnone] using hn

variable [DecidableEq ι]

/-- Whoever is woken up has been told, and had not been. -/
theorem Told.notify {n : Nat} {j : ι} (h : Told credit s n) (hj : (s.status j).isBlocked = true) :
    Told credit (s.wakeUp (· = j)) (n + 1) := by
  obtain ⟨m, hm⟩ := Status.isBlocked_iff.mp hj
  obtain ⟨is, hnodup, his, hn⟩ := h
  have hnew : j ∉ is := fun hmem => by simpa [hm, Status.credited] using his j hmem
  refine ⟨j :: is, List.nodup_cons.mpr ⟨hnew, hnodup⟩, fun i hi => ?_, by simpa using hn⟩
  unfold Monitor.wakeUp
  dsimp only
  by_cases hij : i = j
  · subst hij
    simp [hm, Status.wake, Status.credited]
  · simpa [hij] using his i ((List.mem_cons.mp hi).resolve_left hij)

/-- One thread moves. It may get credit or lose it, as long as what there is to take changes by no more. -/
theorem Told.move {m n : Nat} {i : ι} {st : Status L} {owner : Option ι} {x : σ}
    (h : Told credit s m)
    (hbal : n + ((s.status i).credited (credit i)).toNat ≤ m + (st.credited (credit i)).toNat) :
    Told credit { s.setStatus i st with owner := owner, shared := x } n := by
  obtain ⟨is, hnodup, his, hm⟩ := h
  have others : ∀ {is' : List ι}, (∀ j ∈ is', j ≠ i → j ∈ is) →
      (i ∈ is' → st.credited (credit i) = true) → ∀ j ∈ is',
      (({ s.setStatus i st with owner := owner, shared := x } : Monitor ι σ L).status j).credited
        (credit j) = true := by
    intro is' hsub hi j hj
    show ((s.setStatus i st).status j).credited (credit j) = true
    by_cases hji : j = i
    · subst hji
      simpa using hi hj
    · simpa [hji] using his j (hsub j hj hji)
  by_cases hmem : i ∈ is
  · -- it was one of those with credit, and may lose it
    have hold := his i hmem
    cases hnew : st.credited (credit i) with
    | true =>
      refine ⟨is, hnodup, others (fun j hj _ => hj) fun _ => hnew, ?_⟩
      simp only [hold, hnew, Bool.toNat_true] at hbal
      omega
    | false =>
      refine ⟨is.erase i, hnodup.erase i, others (fun j hj _ => List.mem_of_mem_erase hj)
        (fun hi => absurd hi hnodup.not_mem_erase), ?_⟩
      rw [List.length_erase_of_mem hmem]
      simp only [hold, hnew, Bool.toNat_true, Bool.toNat_false] at hbal
      omega
  · -- it was none of those with credit, and may get some
    cases hnew : st.credited (credit i) with
    | true =>
      refine ⟨i :: is, List.nodup_cons.mpr ⟨hmem, hnodup⟩,
        others (fun j hj hji => (List.mem_cons.mp hj).resolve_left hji) (fun _ => hnew), ?_⟩
      simp only [hnew, Bool.toNat_true] at hbal
      simp only [List.length_cons]
      omega
    | false =>
      refine ⟨is, hnodup, others (fun j hj _ => hj) fun hi => absurd hi hmem, ?_⟩
      simp only [hnew, Bool.toNat_false] at hbal
      omega

/-- One thread moves, and what it leaves behind is accounted for. -/
theorem Signalled.move {i : ι} {st : Status L} {owner : Option ι} {x : σ}
    (h : Signalled items credit s)
    (hsees : ∀ l, st = .parking l ∨ st = .blocked l → items x = 0)
    (hothers : ∀ j l, j ≠ i → s.status j = .parking l → items x = 0)
    (hbal : items x + ((s.status i).credited (credit i)).toNat ≤
      items s.shared + (st.credited (credit i)).toNat ∨ items x = 0) :
    Signalled items credit { s.setStatus i st with owner := owner, shared := x } := by
  constructor
  · intro j l hj
    change (s.setStatus i st).status j = _ at hj
    show items x = 0
    by_cases hji : j = i
    · subst hji
      exact hsees l (.inl (by simpa using hj))
    · exact hothers j l hji (by simpa [hji] using hj)
  · intro j hj
    change ((s.setStatus i st).status j).isBlocked = true at hj
    show Told credit _ (items x)
    by_cases hji : j = i
    · subst hji
      obtain ⟨l, hl⟩ := Status.isBlocked_iff.mp (by simpa using hj)
      rw [hsees l (.inr hl)]
      exact .none _
    · rcases hbal with hbal | hnone
      · exact (h.told j (by simpa [hji] using hj)).move hbal
      · rw [hnone]
        exact .none _

/-- A thread that is ready has not been blocked, and the others are as they were. -/
theorem isBlocked_of_setStatus {i j : ι} {l : L}
    (h : ((s.setStatus i (.ready l)).status j).isBlocked = true) : (s.status j).isBlocked = true := by
  rw [status_setStatus] at h
  split at h
  · cases h
  · exact h

theorem parking_of_setStatus {i j : ι} {l m : L}
    (h : (s.setStatus i (.ready l)).status j = .parking m) : s.status j = .parking m := by
  rw [status_setStatus] at h
  split at h
  · cases h
  · exact h

/-- **Everything there is to take has been signalled**, through every step. -/
theorem Signalled.step (hsig : Signals p Ok holds items credit) (hok : ∀ i, Ok i (s.labels i))
    (howned : Owned p holds s) (h : Signalled items credit s) (hstep : Steps p s e s') :
    Signalled items credit s' := by
  have kept : ∀ {i j : ι} {l : L}, j ≠ i → s.status j = .parking l → items s.shared = 0 :=
    fun _ hj => h.parking _ _ hj
  -- a thread that goes on, and is told what it was told before
  have goes : ∀ {i : ι} {l next : L} {owner : Option ι}, s.status i = .ready l →
      (credit i l = true → credit i next = true) →
      Signalled items credit { s.setStatus i (.ready next) with owner := owner } := by
    intro i l next owner hst hcredit
    refine h.move (by simp) (fun j m => kept) (.inl ?_)
    rw [hst]
    cases hl : credit i l <;> cases hnext : credit i next <;>
      simp_all [Status.credited]
  cases hstep with
  | locks i _ _ l next hst hcode _ => exact goes hst (hsig.of_code hok hst hcode)
  | unlocks i _ _ l next hst hcode => exact goes hst (hsig.of_code hok hst hcode)
  | passes i _ _ l next hst hcode _ => exact goes hst fun _ => (hsig.of_code hok hst hcode).2
  -- who goes to sleep has found nothing to take
  | parks i _ _ l next hst hcode hpred =>
    have hnone := hsig.pred _ hpred
    exact h.move (fun _ _ => hnone) (fun j m => kept) (.inr hnone)
  | blocks i _ _ l hst =>
    have hnone := h.parking i l hst
    exact h.move (fun _ _ => hnone) (fun j m => kept) (.inr hnone)
  | returns i _ _ l hst _ =>
    obtain ⟨next, hcode⟩ := howned.waits i l (.inr (.inr hst))
    have hl : credit i l = true := (hsig.of_code hok hst hcode).1
    refine h.move (by simp) (fun j m => kept) (.inl ?_)
    rw [hst]
    simp [Status.credited, hl]
  | acts i c _ l f hst hcode =>
    obtain ⟨hapart, hbal⟩ := hsig.of_code hok hst hcode c s.shared
    refine h.move (by simp) (fun j m hji hj => ?_) ?_
    · -- `j` holds the mutex, so `i` does not
      have hj' : s.owner = some j := (howned.owner j).mpr (by rw [hj]; rfl)
      have hl : holds i l = false := by
        by_contra hl
        have hi : s.owner = some i :=
          (howned.owner i).mpr (by simpa [hst, Status.holding] using hl)
        exact hji (Option.some.inj (hj'.symm.trans hi))
      rw [hapart hl]
      exact h.parking j m hj
    · rw [hst]
      exact hbal
  -- the credit of the notification goes to the one who is woken
  | notifies i _ j l next hst hcode hj =>
    constructor
    · intro k m hk
      exact (h.wakeUp (· = j)).parking k m (parking_of_setStatus hk)
    · intro k hk
      have hk := isBlocked_of_wakeUp (isBlocked_of_setStatus hk)
      show Told credit { (s.wakeUp (· = j)).setStatus i (.ready next) with
        owner := s.owner, shared := s.shared } _
      refine ((h.told k hk).notify hj).move ?_
      rw [Nat.add_assoc]
      refine Nat.add_le_add_left ?_ _
      exact (Bool.toNat_le _).trans (Nat.le_add_right 1 _)
  | notifiesNobody i _ l next hst hcode hnone =>
    constructor
    · intro k m hk
      exact h.parking k m (parking_of_setStatus hk)
    · intro k hk
      exact absurd (isBlocked_of_setStatus hk) (by simp [hnone k])
  | notifiesAll i _ _ l next hst hcode =>
    constructor
    · intro k m hk
      exact (h.wakeUp fun _ => true).parking k m (parking_of_setStatus hk)
    · intro k hk
      exact absurd (isBlocked_of_setStatus hk) (by simp [not_isBlocked_wakeUp])
  | joins i _ _ l j next hst hcode _ =>
    have hnone : credit i l = false := hsig.of_code hok hst hcode
    exact goes hst fun hl => absurd hl (by simp [hnone])
  | wakes i _ => exact h.wakeUp _

end Monitor

end Effect
