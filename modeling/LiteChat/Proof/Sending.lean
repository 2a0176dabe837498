import LiteChat.Effect.Runs
import LiteChat.Model.Wire

/-!
# Frames on one socket

A call of `SendData` that is in the middle of its frame, whether it goes on or has failed, leaves
the stream where only its own next byte may follow. As long as every byte that is accepted respects
that, the stream is whole frames and one that is not finished.
-/

namespace LiteChat

namespace Sending

open Effect

variable {ι : Type} [DecidableEq ι] {data : ι → Str} {s : Sending ι}

/-- The stream is frames of different calls, and after them the beginning of one at most. -/
def Framed (data : ι → Str) (written : Str) : Prop :=
  ∃ (order : List ι) (truncated : Str), order.Nodup ∧
    written = (order.map fun i => packageMessage (data i)).flatten ++ truncated ∧
    (truncated = [] ∨ ∃ j, j ∉ order ∧ truncated <+: packageMessage (data j))

/-- The call has written a part of its frame. -/
def MidFrame (data : ι → Str) (s : Sending ι) (i : ι) : Prop :=
  0 < s.totalSent i ∧ s.totalSent i < (packageMessage (data i)).length

/-- A byte of one call is accepted in the middle of the frame of another. -/
def Interleaves (data : ι → Str) (s : Sending ι) : Send ι → Prop
  | .accepts i bytesSent => Send.Enabled data s (.accepts i bytesSent) ∧
      ∃ j, j ≠ i ∧ MidFrame data s j
  | .fails _ => False

/-- The stream, by how far the calls are. -/
structure Ordered (data : ι → Str) (s : Sending ι) (order : List ι) : Prop where
  nodup : order.Nodup
  mem_iff : ∀ i, i ∈ order ↔ s.totalSent i = (packageMessage (data i)).length
  le : ∀ i, s.totalSent i ≤ (packageMessage (data i)).length
  written : (∀ j, ¬ MidFrame data s j) ∧
      s.written = (order.map fun i => packageMessage (data i)).flatten ∨
    ∃ j, MidFrame data s j ∧ (∀ i, MidFrame data s i → i = j) ∧
      s.written = (order.map fun i => packageMessage (data i)).flatten ++
        (packageMessage (data j)).take (s.totalSent j)

theorem length_packageMessage_pos (body : Str) : 0 < (packageMessage body).length := by
  unfold packageMessage Header.toList
  simp

/-- `totalLength` is the length of the frame, unless that overflows. -/
theorem totalLength_le (data : Str) : totalLength data ≤ (packageMessage data).length := by
  unfold totalLength
  rw [BitVec.toInt_eq_toNat_cond, BitVec.toNat_ofNat]
  split <;> omega

omit [DecidableEq ι] in
theorem midFrame_iff {s' : Sending ι} {j : ι} (h : s'.totalSent j = s.totalSent j) :
    MidFrame data s' j ↔ MidFrame data s j := by
  unfold MidFrame
  rw [h]

/-- One call goes on with its frame, and nobody else is in the middle of one. -/
theorem Ordered.accepts {order : List ι} (h : Ordered data s order) {i : ι} {bytesSent : Nat}
    (hpos : 0 < bytesSent) (hle : s.totalSent i + bytesSent ≤ (packageMessage (data i)).length)
    (halone : ∀ j, MidFrame data s j → j = i) :
    ∃ order, Ordered data (s.send data (.accepts i bytesSent)) order := by
  -- what has been written of the frame of `i` is at the end of the stream
  have hwritten : s.written = (order.map fun i => packageMessage (data i)).flatten ++
      (packageMessage (data i)).take (s.totalSent i) := by
    rcases h.written with ⟨hnone, hwritten⟩ | ⟨j, hj, _, hwritten⟩
    · have hzero : s.totalSent i = 0 := by
        by_contra hne
        exact hnone i ⟨Nat.pos_of_ne_zero hne, by omega⟩
      rw [hwritten, hzero, List.take_zero, List.append_nil]
    · rw [hwritten, halone j hj]
  have hi : i ∉ order := fun hmem => by
    have := (h.mem_iff i).mp hmem
    omega
  generalize hs' : s.send data (.accepts i bytesSent) = s'
  have hself : s'.totalSent i = s.totalSent i + bytesSent := by
    rw [← hs']
    exact Function.update_self i _ s.totalSent
  have hother : ∀ j, j ≠ i → s'.totalSent j = s.totalSent j := by
    intro j hj
    rw [← hs']
    exact Function.update_of_ne hj _ s.totalSent
  have hwritten' : s'.written = (order.map fun i => packageMessage (data i)).flatten ++
      (packageMessage (data i)).take (s.totalSent i + bytesSent) := by
    rw [← hs']
    show s.written ++ _ = _
    rw [hwritten, List.append_assoc, ← List.take_add]
  have halone' : ∀ j, MidFrame data s' j → j = i := by
    intro j hj
    by_contra hji
    exact hji (halone j ((midFrame_iff (hother j hji)).mp hj))
  have hle' : ∀ j, s'.totalSent j ≤ (packageMessage (data j)).length := by
    intro j
    by_cases hji : j = i
    · rw [hji, hself]
      exact hle
    · rw [hother j hji]
      exact h.le j
  by_cases hwhole : s.totalSent i + bytesSent = (packageMessage (data i)).length
  · -- the frame is whole now
    refine ⟨order ++ [i], ?_, fun j => ?_, hle', .inl ⟨fun j hj => ?_, ?_⟩⟩
    · exact List.nodup_append.mpr ⟨h.nodup, by simp, fun j hj k hk =>
        fun hjk => hi (List.mem_singleton.mp hk ▸ hjk ▸ hj)⟩
    · rw [List.mem_append, List.mem_singleton, h.mem_iff j]
      by_cases hji : j = i
      · subst hji
        rw [hself]
        exact iff_of_true (.inr rfl) hwhole
      · rw [hother j hji]
        exact or_iff_left hji
    · rw [halone' j hj] at hj
      have := hj.2
      omega
    · rw [hwritten', hwhole, List.take_length, List.map_append, List.flatten_append]
      simp
  · -- the frame has a part that is missing
    have hmid : MidFrame data s' i := ⟨by omega, by omega⟩
    refine ⟨order, h.nodup, fun j => ?_, hle', .inr ⟨i, hmid, halone', ?_⟩⟩
    · by_cases hji : j = i
      · subst hji
        exact iff_of_false hi (by omega)
      · rw [hother j hji]
        exact h.mem_iff j
    · rw [hwritten', hself]

theorem Ordered.step {order : List ι} (h : Ordered data s order) {e : Send ι}
    (hcond : ¬ Interleaves data s e) : ∃ order, Ordered data (s.step data e) order := by
  unfold Sending.step
  by_cases he : e.Enabled data s
  · rw [if_pos he]
    cases e with
    | accepts i bytesSent =>
      refine h.accepts he.2.1 ?_ fun j hj => ?_
      · have htotal := totalLength_le (data i)
        have hle := he.2.2
        omega
      · by_contra hji
        exact hcond ⟨he, j, hji, hj⟩
    | fails i => exact ⟨order, h.nodup, h.mem_iff, h.le, h.written⟩
  · rw [if_neg he]
    exact ⟨order, h⟩

omit [DecidableEq ι] in
theorem Ordered.framed {order : List ι} (h : Ordered data s order) : Framed data s.written := by
  rcases h.written with ⟨_, hwritten⟩ | ⟨j, hj, _, hwritten⟩
  · exact ⟨order, [], h.nodup, by rw [hwritten, List.append_nil], .inl rfl⟩
  · refine ⟨order, _, h.nodup, hwritten, .inr ⟨j, fun hmem => ?_, List.take_prefix _ _⟩⟩
    have := (h.mem_iff j).mp hmem
    have := hj.2
    omega

omit [DecidableEq ι] in
theorem Ordered.start : Ordered data start [] := by
  refine ⟨List.nodup_nil, fun i => ?_, fun i => Nat.zero_le _, .inl ⟨fun j hj => ?_, rfl⟩⟩
  · have := length_packageMessage_pos (data i)
    exact iff_of_false List.not_mem_nil (Nat.ne_of_lt this)
  · exact absurd hj.1 (Nat.lt_irrefl 0)

/-- **Frames stay whole** in every run in which no byte is accepted in the middle of the frame of
another call. The run is any order of the `send`s of any number of `SendData` calls on one socket, each
accepting as much as it likes or failing. What has been written is then whole frames of the calls that
have ended, one after the other, and at most one part of a frame at the end: of the call that is still
at it, or that has failed. -/
theorem framed_run (data : ι → Str) (es : List (Send ι))
    (h : Meets (step data) (fun s e => ¬ Interleaves data s e) start es) :
    Framed data (runAll (step data) start es).written := by
  let Inv (s : Sending ι) : Prop := ∃ order, Ordered data s order
  have hstart : Inv start := ⟨[], Ordered.start⟩
  have hstep : ∀ s e, Inv s → ¬ Interleaves data s e → Inv (step data s e) := by
    rintro s e ⟨order, horder⟩ hcond
    exact horder.step hcond
  obtain ⟨order, horder⟩ := runAll_inv hstart hstep h
  exact horder.framed

def twoCalls : Bool → Str
  | false => bytes "a"
  | true => bytes "b"

/-- Two calls, one after the other: the first in two parts, the second fails after a byte. -/
theorem framed_inTurn : Framed twoCalls (runAll (step twoCalls) start
    [.accepts false 2, .accepts false 3, .accepts true 1, .fails true]).written := by
  apply framed_run
  refine ⟨?_, ?_, ?_, id, trivial⟩
  · rintro ⟨_, j, _, hmid⟩
    cases j <;> exact absurd hmid.1 (by decide)
  · rintro ⟨_, j, hj, hmid⟩
    cases j with
    | false => exact hj rfl
    | true => exact absurd hmid.1 (by decide)
  · rintro ⟨_, j, hj, hmid⟩
    cases j with
    | false => exact absurd hmid.2 (by decide)
    | true => exact hj rfl

/-- The second call writes its frame after the first byte of the first. -/
theorem not_framed :
    ¬ ∀ es : List (Send Bool), Framed twoCalls (runAll (step twoCalls) start es).written := by
  intro h
  obtain ⟨order, truncated, _, hwritten, hrest⟩ := h [.accepts false 1, .accepts true 5]
  have hbytes : (runAll (step twoCalls) start [.accepts false 1, .accepts true 5]).written =
      [0, 0, 0, 0, 1, 98] := by decide
  have hfive : ∀ i, (packageMessage (twoCalls i)).length = 5 := by decide
  rw [hbytes] at hwritten
  match order with
  | [] =>
    -- six bytes are more than one frame
    have hsix : truncated.length = 6 := (congrArg List.length hwritten).symm
    rcases hrest with rfl | ⟨j, _, hprefix⟩
    · exact absurd hsix (by decide)
    · have hle := hprefix.length_le
      rw [hsix, hfive] at hle
      omega
  | [i] =>
    -- the first five bytes are no frame
    have htake := congrArg (List.take 5) hwritten
    have hframe : (packageMessage (twoCalls i)).length ≤ 5 := Nat.le_of_eq (hfive i)
    rw [List.map_singleton, List.flatten_singleton,
      List.take_append_of_le_length (Nat.le_of_eq (hfive i).symm), List.take_of_length_le hframe] at htake
    cases i <;> exact absurd htake (by decide)
  | i :: j :: order =>
    have hlength := congrArg List.length hwritten
    simp only [List.map_cons, List.flatten_cons, List.length_append, hfive, List.length_cons,
      List.length_nil] at hlength
    omega

end Sending

end LiteChat
