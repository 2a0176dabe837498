import Mathlib.Tactic.Common

/-!
# A stream in pieces

What a stream socket delivers is a sequence of elements, cut into pieces that say nothing. `recv n`
takes from the first piece, and no more than `n`. `Cut` are the positions between pieces; a `recv`
keeps the cuts that are left, and stops short of `n` at a cut only.
-/

namespace Effect

variable {α : Type} {pieces : List (List α)} {n c : Nat}

/-- Up to `n` elements of the first piece, and what is left; nothing at the end. -/
def recv (n : Nat) : List (List α) → List α × List (List α)
  | [] => ([], [])
  | p :: ps => if p.length ≤ n then (p, ps) else (p.take n, p.drop n :: ps)

/-- No piece is empty. -/
def NonemptyPieces (pieces : List (List α)) : Prop := ∀ p ∈ pieces, p ≠ []

/-- Some pieces end at the position. -/
def Cut (pieces : List (List α)) (c : Nat) : Prop := ∃ i, (pieces.take i).flatten.length = c

theorem NonemptyPieces.eq_nil (h : NonemptyPieces pieces) (hflat : pieces.flatten = []) :
    pieces = [] := by
  cases pieces with
  | nil => rfl
  | cons p ps =>
    rw [List.flatten_cons, List.append_eq_nil_iff] at hflat
    exact absurd hflat.1 (h p List.mem_cons_self)

theorem recv_cons_of_le {p : List α} {ps : List (List α)} (h : p.length ≤ n) :
    recv n (p :: ps) = (p, ps) :=
  if_pos h

theorem recv_cons_of_lt {p : List α} {ps : List (List α)} (h : n < p.length) :
    recv n (p :: ps) = (p.take n, p.drop n :: ps) :=
  if_neg (Nat.not_le.mpr h)

theorem recv_append (n : Nat) (pieces : List (List α)) :
    (recv n pieces).1 ++ (recv n pieces).2.flatten = pieces.flatten := by
  cases pieces with
  | nil => rfl
  | cons p ps =>
    rcases Nat.lt_or_ge n p.length with h | h
    · rw [recv_cons_of_lt h, List.flatten_cons, List.flatten_cons, ← List.append_assoc,
        List.take_append_drop]
    · rw [recv_cons_of_le h, List.flatten_cons]

theorem length_recv_le (n : Nat) (pieces : List (List α)) : (recv n pieces).1.length ≤ n := by
  cases pieces with
  | nil => exact Nat.zero_le n
  | cons p ps =>
    rcases Nat.lt_or_ge n p.length with h | h
    · rw [recv_cons_of_lt h]
      exact List.length_take_le n p
    · rw [recv_cons_of_le h]
      exact h

theorem recv_ne_nil (h : NonemptyPieces pieces) (hpieces : pieces ≠ []) (hn : 0 < n) :
    (recv n pieces).1 ≠ [] := by
  cases pieces with
  | nil => exact absurd rfl hpieces
  | cons p ps =>
    rcases Nat.lt_or_ge n p.length with hp | hp
    · rw [recv_cons_of_lt hp]
      intro htake
      have hlen := congrArg List.length htake
      rw [List.length_take, List.length_nil] at hlen
      omega
    · rw [recv_cons_of_le hp]
      exact h p List.mem_cons_self

theorem NonemptyPieces.recv (h : NonemptyPieces pieces) (n : Nat) :
    NonemptyPieces (recv n pieces).2 := by
  cases pieces with
  | nil => exact h
  | cons p ps =>
    have hps : NonemptyPieces ps := fun q hq => h q (List.mem_cons_of_mem p hq)
    rcases Nat.lt_or_ge n p.length with hp | hp
    · rw [recv_cons_of_lt hp]
      intro q hq
      rcases List.mem_cons.mp hq with rfl | hq
      · intro hdrop
        have := List.drop_eq_nil_iff.mp hdrop
        omega
      · exact hps q hq
    · rw [recv_cons_of_le hp]
      exact hps

/-- The cuts after a `recv` are those that were there before, as many bytes on as the `recv` has taken. -/
theorem cut_recv_iff (hc : 0 < c) :
    Cut (recv n pieces).2 c ↔ Cut pieces ((recv n pieces).1.length + c) := by
  unfold Cut
  cases pieces with
  | nil => simp [recv, Nat.ne_of_lt hc]
  | cons p ps =>
    rcases Nat.lt_or_ge n p.length with hp | hp
    · -- part of the first piece is taken, and its end is the first cut
      rw [recv_cons_of_lt hp]
      constructor
      · rintro ⟨i, hi⟩
        cases i with
        | zero => exact absurd hi (by simpa using Nat.ne_of_lt hc)
        | succ i =>
          refine ⟨i + 1, ?_⟩
          simp only [List.take_succ_cons, List.flatten_cons, List.length_append, List.length_take,
            List.length_drop] at hi ⊢
          omega
      · rintro ⟨i, hi⟩
        cases i with
        | zero =>
          simp only [List.take_zero, List.flatten_nil, List.length_nil] at hi
          omega
        | succ i =>
          refine ⟨i + 1, ?_⟩
          simp only [List.take_succ_cons, List.flatten_cons, List.length_append, List.length_take,
            List.length_drop] at hi ⊢
          omega
    · -- the first piece is taken, and its end is no cut any more
      rw [recv_cons_of_le hp]
      constructor
      · rintro ⟨i, hi⟩
        refine ⟨i + 1, ?_⟩
        rw [List.take_succ_cons, List.flatten_cons, List.length_append, hi]
      · rintro ⟨i, hi⟩
        cases i with
        | zero =>
          simp only [List.take_zero, List.flatten_nil, List.length_nil] at hi
          omega
        | succ i =>
          rw [List.take_succ_cons, List.flatten_cons, List.length_append] at hi
          exact ⟨i, Nat.add_left_cancel hi⟩

/-- A `recv` that stops short stops at a cut. -/
theorem cut_of_recv_lt (hpieces : pieces ≠ []) (hshort : (recv n pieces).1.length < n) :
    Cut pieces (recv n pieces).1.length := by
  cases pieces with
  | nil => exact absurd rfl hpieces
  | cons p ps =>
    rcases Nat.lt_or_ge n p.length with hp | hp
    · rw [recv_cons_of_lt hp, List.length_take] at hshort
      omega
    · rw [recv_cons_of_le hp]
      exact ⟨1, by simp⟩

/-- If the stream is cut before `n`, a `recv` of `n` stops short. -/
theorem recv_lt_of_cut (hcut : Cut pieces c) (hc : 0 < c) (hcn : c < n) :
    (recv n pieces).1.length < n := by
  obtain ⟨i, rfl⟩ := hcut
  cases pieces with
  | nil => exact absurd hc (by simp)
  | cons p ps =>
    cases i with
    | zero => exact absurd hc (by simp)
    | succ i =>
      simp only [List.take_succ_cons, List.flatten_cons, List.length_append] at hcn
      rw [recv_cons_of_le (by omega)]
      show p.length < n
      omega

end Effect
