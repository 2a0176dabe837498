import Mathlib.Algebra.Group.Nat.Defs
import LiteChat.Effect.Loops
import LiteChat.Model.SendData
import LiteChat.Proof.Sending

/-!
# A frame is sent whole, or the call fails

Between two rounds the socket has accepted the beginning of the frame, `totalSent` bytes of it
(`Sent`). So what a round gives to `send` is the rest of the frame: nothing is sent twice or left
out. A round that goes on has one byte more accepted at least (`round_advance`), which is why the loop
ends.

The frames of several calls on one socket are the subject of `Proof/Sending.lean`, whose step lets a
call accept or fail at any byte. A call as the source writes it is a run of that step with one call
(`alone_of_loop`).
-/

namespace LiteChat

open Effect SocketCall

/-- A call between two rounds, and the socket it writes to. -/
structure SendState where
  totalSent : Int32
  socket : Outgoing

/-- A round of the loop, with the socket. -/
def Transport.round (transport : Transport) (packagedData : Str) (totalLength : Int32)
    (s : SendState) : (Bool × Outgoing) ⊕ SendState :=
  match (sendRound packagedData totalLength s.totalSent).run transport.handler [] s.socket with
  | (.inl sent, socket) => .inl (sent, socket)
  | (.inr totalSent, socket) => .inr ⟨totalSent, socket⟩

/-- The loop runs round after round. -/
theorem run_sendLoop {transport : Transport} {packagedData : Str} {totalLength : Int32} {rounds : Nat}
    {s : SendState} {r : Bool × Outgoing}
    (h : loop (transport.round packagedData totalLength) rounds s = some r) :
    (sendLoop packagedData totalLength rounds s.totalSent).run transport.handler [] s.socket =
      (some r.1, r.2) := by
  induction rounds generalizing s with
  | zero => cases h
  | succ rounds ih =>
    unfold sendLoop
    rw [Prog.run_bind, Prog.left_nil]
    cases hrun : (sendRound packagedData totalLength s.totalSent).run transport.handler []
      s.socket with
    | mk result socket =>
      have hround : transport.round packagedData totalLength s =
          match (result, socket) with
          | (.inl sent, socket) => .inl (sent, socket)
          | (.inr totalSent, socket) => .inr ⟨totalSent, socket⟩ := by
        unfold Transport.round
        rw [hrun]
      cases result with
      | inl sent =>
        rw [loop_inl hround] at h
        cases h
        rfl
      | inr totalSent =>
        rw [loop_inr hround] at h
        exact ih h

/-- The socket has accepted the first `totalSent` bytes. -/
structure Sent (packagedData : Str) (s : SendState) : Prop where
  begins : s.socket.accepted <+: packagedData
  totalSent : s.totalSent.toInt = s.socket.accepted.length

/-- What `SendData` returns tells whether the socket has accepted everything. -/
def AllOrFailure (packagedData : Str) (r : Bool × Outgoing) : Prop :=
  (r.1 = true ↔ r.2.accepted = packagedData) ∧
    (r.1 = false → r.2.accepted <+: packagedData ∧ r.2.accepted ≠ packagedData)

section Rounds

variable {transport : Transport} {packagedData : Str} {totalLength : Int32} {s : SendState}

/-- What is given to `send` is the rest of the frame. -/
theorem Sent.given (hs : Sent packagedData s) (htotal : totalLength.toInt = packagedData.length)
    (hlt : s.totalSent < totalLength) :
    (packagedData.drop s.totalSent.toNatClampNeg).take
        (totalLength - s.totalSent).toNatClampNeg = packagedData.drop s.socket.accepted.length := by
  have hsent : s.totalSent.toNatClampNeg = s.socket.accepted.length := by
    rw [← Int32.toNat_toInt, hs.totalSent, Int.toNat_natCast]
  have hnonneg : 0 ≤ s.totalSent := by
    rw [Int32.le_iff_toInt_le, hs.totalSent]
    exact Int.natCast_nonneg _
  have hrest : (totalLength - s.totalSent).toNatClampNeg =
      packagedData.length - s.socket.accepted.length := by
    rw [← Int32.toNat_toInt, Int32.toInt_sub_of_le _ _ hnonneg (Int32.le_of_lt hlt), htotal,
      hs.totalSent]
    omega
  rw [hsent, hrest]
  exact List.take_of_length_le (Nat.le_of_eq List.length_drop)

/-- The socket after a `send` that accepted so much of the rest of the frame. -/
def Outgoing.accept (socket : Outgoing) (packagedData : Str) (bytesSent : Int32) : Outgoing where
  calls := socket.calls + 1
  accepted := socket.accepted ++
    (packagedData.drop socket.accepted.length).take bytesSent.toNatClampNeg

/-- The socket accepts some of the rest, and `totalSent` does not overflow. -/
theorem Sent.accepts (hs : Sent packagedData s) (hfits : packagedData.length < 2 ^ 31)
    {bytesSent : Int32} (hpos : 0 < bytesSent)
    (hle : bytesSent.toInt ≤ (packagedData.drop s.socket.accepted.length).length) :
    Sent packagedData ⟨s.totalSent + bytesSent, s.socket.accept packagedData bytesSent⟩ := by
  have hcast := Int32.cast_toNatClampNeg bytesSent (Int32.le_of_lt hpos)
  have hbegin := hs.begins.length_le
  rw [List.length_drop] at hle
  unfold Outgoing.accept
  constructor
  · rw [List.prefix_iff_eq_take.mp hs.begins, List.length_take, Nat.min_eq_left hbegin,
      ← List.take_add]
    exact List.take_prefix _ _
  · dsimp only
    rw [Int32.toInt_add, hs.totalSent, List.length_append, List.length_take, List.length_drop,
      Int.bmod_eq_of_le (by omega) (by omega)]
    omega

theorem Sent.lt_iff (hs : Sent packagedData s) (htotal : totalLength.toInt = packagedData.length) :
    s.totalSent < totalLength ↔ s.socket.accepted.length < packagedData.length := by
  rw [Int32.lt_iff_toInt_lt, hs.totalSent, htotal]
  exact Int.ofNat_lt

/-- The round of a call that has not sent everything: one `send`, of the rest of the frame. -/
theorem Sent.round_eq (transport : Transport) (hs : Sent packagedData s)
    (htotal : totalLength.toInt = packagedData.length) (hlt : s.totalSent < totalLength) :
    ∃ bytesSent : Int32,
      bytesSent.toInt ≤ (packagedData.drop s.socket.accepted.length).length ∧
      transport.round packagedData totalLength s =
        if bytesSent ≤ 0 then .inl (false, s.socket.accept packagedData bytesSent)
        else .inr ⟨s.totalSent + bytesSent, s.socket.accept packagedData bytesSent⟩ := by
  refine ⟨transport.send s.socket.calls (packagedData.drop s.socket.accepted.length),
    transport.send_le _ _, ?_⟩
  unfold Transport.round sendRound
  rw [if_pos hlt, hs.given htotal hlt, Prog.run_bind, Prog.left_nil]
  simp only [Prog.op, Prog.run, Transport.handler]
  by_cases hfails : transport.send s.socket.calls
      (packagedData.drop s.socket.accepted.length) ≤ 0
  · rw [if_pos hfails, if_pos hfails]
    rfl
  · rw [if_neg hfails, if_neg hfails]
    rfl

/-- A `send` that fails accepts nothing. -/
theorem accepted_accept {socket : Outgoing} {bytesSent : Int32} (hfails : bytesSent ≤ 0) :
    (socket.accept packagedData bytesSent).accepted = socket.accepted := by
  have hzero : bytesSent.toNatClampNeg = 0 := by
    rw [← Int32.toNat_toInt]
    have := Int32.le_iff_toInt_le.mp hfails
    exact Int.toNat_of_nonpos this
  unfold Outgoing.accept
  rw [hzero, List.take_zero, List.append_nil]

/-- **A round.** It ends the loop with what the whole call promises, or goes on with fewer bytes to
send. A `send` that accepts nothing ends the loop, with `false`. -/
theorem round_advance (transport : Transport) (htotal : totalLength.toInt = packagedData.length)
    (hs : Sent packagedData s) :
    Advance (transport.round packagedData totalLength) (Sent packagedData)
      (fun s => packagedData.length - s.socket.accepted.length) (AllOrFailure packagedData) s := by
  have hfits : packagedData.length < 2 ^ 31 := by
    have := totalLength.toInt_lt
    omega
  by_cases hlt : s.totalSent < totalLength
  · have hshort := (hs.lt_iff htotal).mp hlt
    obtain ⟨bytesSent, hle, hround⟩ := hs.round_eq transport htotal hlt
    by_cases hfails : bytesSent ≤ 0
    · -- the call returns `false`, in the middle of the frame
      rw [if_pos hfails] at hround
      have hne : s.socket.accepted ≠ packagedData := by
        intro heq
        rw [heq] at hshort
        exact Nat.lt_irrefl _ hshort
      rw [← accepted_accept hfails] at hne
      refine .done _ hround ⟨iff_of_false Bool.false_ne_true hne, fun _ => ⟨?_, hne⟩⟩
      rw [accepted_accept hfails]
      exact hs.begins
    · rw [if_neg hfails] at hround
      have hpos : 0 < bytesSent := Int32.not_le.mp hfails
      refine .next _ hround (hs.accepts hfits hpos hle) ?_
      -- one byte more at least
      have hcast := Int32.cast_toNatClampNeg bytesSent (Int32.le_of_lt hpos)
      have hone : 0 < bytesSent.toInt := Int32.lt_iff_toInt_lt.mp hpos
      unfold Outgoing.accept
      rw [List.length_append, List.length_take, List.length_drop]
      omega
  · -- there is nothing left
    have hwhole : s.socket.accepted = packagedData := by
      apply hs.begins.eq_of_length_le
      exact Nat.le_of_not_lt fun h => hlt ((hs.lt_iff htotal).mpr h)
    have hround : transport.round packagedData totalLength s = .inl (true, s.socket) := by
      unfold Transport.round sendRound
      rw [if_neg hlt]
      rfl
    refine .done _ hround ⟨iff_of_true rfl hwhole, fun h => absurd h Bool.false_ne_true.symm⟩

end Rounds

/-! ## The call -/

theorem length_packageMessage (data : Str) : (packageMessage data).length = 4 + data.length := by
  unfold packageMessage
  rw [List.length_append]
  rfl

theorem toInt_length_packageMessage {data : Str} (h : 4 + data.length < 2 ^ 31) :
    (Int32.ofNat (packageMessage data).length).toInt = (packageMessage data).length := by
  apply Int32.toInt_ofNat_of_lt
  rwa [length_packageMessage]

theorem sent_start (packagedData : Str) : Sent packagedData ⟨0, .start⟩ :=
  ⟨List.nil_prefix, rfl⟩

/-! ## Among the calls on a socket -/

/-- The call as the only one on its socket. -/
def SendState.alone (s : SendState) : Sending Unit :=
  ⟨fun _ => s.socket.accepted.length, fun _ => false, s.socket.accepted⟩

theorem totalLength_eq {data : Str} (h : 4 + data.length < 2 ^ 31) :
    totalLength data = (packageMessage data).length :=
  toInt_length_packageMessage h

section Alone

variable {transport : Transport} {data : Str} {s s' : SendState}

theorem Sent.inLoop (h : 4 + data.length < 2 ^ 31) (hs : Sent (packageMessage data) s)
    (hlt : s.totalSent < Int32.ofNat (packageMessage data).length) :
    s.alone.InLoop (fun _ => data) () := by
  refine ⟨rfl, ?_⟩
  rw [totalLength_eq h]
  exact Int.ofNat_lt.mpr ((hs.lt_iff (toInt_length_packageMessage h)).mp hlt)

/-- A round that goes on is a `send` that accepts. -/
theorem Sent.step_of_inr (h : 4 + data.length < 2 ^ 31) (hs : Sent (packageMessage data) s)
    (hround : transport.round (packageMessage data)
      (Int32.ofNat (packageMessage data).length) s = .inr s') :
    ∃ e, s.alone.step (fun _ => data) e = s'.alone := by
  by_cases hlt : s.totalSent < Int32.ofNat (packageMessage data).length
  · obtain ⟨bytesSent, hle, heq⟩ := hs.round_eq transport (toInt_length_packageMessage h) hlt
    rw [heq] at hround
    split at hround
    · cases hround
    · next hfails =>
      cases hround
      -- the round goes on, so the `send` has accepted something
      have hpos : 0 < bytesSent := Int32.not_le.mp hfails
      have hone : 0 < bytesSent.toInt := Int32.lt_iff_toInt_lt.mp hpos
      have hcast := Int32.cast_toNatClampNeg bytesSent (Int32.le_of_lt hpos)
      have hbegin := hs.begins.length_le
      rw [List.length_drop] at hle
      refine ⟨.accepts () bytesSent.toNatClampNeg, ?_⟩
      have henabled : Sending.Send.Enabled (fun _ => data) s.alone
          (.accepts () bytesSent.toNatClampNeg) := by
        refine ⟨hs.inLoop h hlt, by omega, ?_⟩
        rw [totalLength_eq h]
        show (s.socket.accepted.length + bytesSent.toNatClampNeg : Int) ≤ _
        omega
      have hlength : (s.socket.accept (packageMessage data) bytesSent).accepted.length =
          s.socket.accepted.length + bytesSent.toNatClampNeg := by
        unfold Outgoing.accept
        rw [List.length_append, List.length_take, List.length_drop]
        omega
      unfold Sending.step
      rw [if_pos henabled]
      simp only [Sending.send, SendState.alone, hlength]
      congr 1
  · unfold Transport.round sendRound at hround
    rw [if_neg hlt] at hround
    cases hround

/-- So is one that fails. -/
theorem Sent.step_of_inl {r : Bool × Outgoing} (h : 4 + data.length < 2 ^ 31)
    (hs : Sent (packageMessage data) s)
    (hround : transport.round (packageMessage data)
      (Int32.ofNat (packageMessage data).length) s = .inl r) :
    ∃ es, (runAll (Sending.step fun _ => data) s.alone es).written = r.2.accepted ∧
      (runAll (Sending.step fun _ => data) s.alone es).failed () = !r.1 := by
  by_cases hlt : s.totalSent < Int32.ofNat (packageMessage data).length
  · obtain ⟨bytesSent, _, heq⟩ := hs.round_eq transport (toInt_length_packageMessage h) hlt
    rw [heq] at hround
    split at hround
    · next hfailed =>
      cases hround
      have hfails : s.alone.step (fun _ => data) (.fails ()) =
          s.alone.send (fun _ => data) (.fails ()) := if_pos (hs.inLoop h hlt)
      refine ⟨[.fails ()], ?_⟩
      rw [runAll_cons, runAll_nil, hfails, accepted_accept hfailed]
      exact ⟨rfl, rfl⟩
    · cases hround
  · unfold Transport.round sendRound at hround
    rw [if_neg hlt] at hround
    cases hround
    exact ⟨[], rfl, rfl⟩

theorem alone_of_reached (h : 4 + data.length < 2 ^ 31) {rounds : Nat}
    (hreached : Reached (transport.round (packageMessage data)
      (Int32.ofNat (packageMessage data).length)) ⟨0, .start⟩ rounds s) :
    Sent (packageMessage data) s ∧
      ∃ es, runAll (Sending.step fun _ => data) Sending.start es = s.alone := by
  induction hreached with
  | start => exact ⟨sent_start _, [], rfl⟩
  | next hreached hround ih =>
    obtain ⟨hs, es, hes⟩ := ih
    obtain ⟨e, he⟩ := hs.step_of_inr h hround
    refine ⟨?_, es ++ [e], ?_⟩
    · have hstart := sent_start (packageMessage data)
      exact (Advance.reached (fun _ => round_advance transport (toInt_length_packageMessage h))
        hstart (hreached.next hround)).1
    · rw [runAll_append, hes, runAll_cons, runAll_nil, he]

/-- The loop, as a run of one call among the calls on a socket: the same bytes, and it has failed if
it returns `false`. -/
theorem alone_of_loop (h : 4 + data.length < 2 ^ 31) {rounds : Nat} {r : Bool × Outgoing}
    (hloop : loop (transport.round (packageMessage data)
      (Int32.ofNat (packageMessage data).length)) rounds ⟨0, .start⟩ = some r) :
    ∃ es, (runAll (Sending.step fun _ => data) Sending.start es).written = r.2.accepted ∧
      (runAll (Sending.step fun _ => data) Sending.start es).failed () = !r.1 := by
  obtain ⟨last, s, hreached, hround⟩ := Reached.exists_inl .start hloop
  obtain ⟨hs, es, hes⟩ := alone_of_reached h hreached
  obtain ⟨es', hwritten, hfailed⟩ := hs.step_of_inl h hround
  refine ⟨es ++ es', ?_⟩
  rw [runAll_append, hes]
  exact ⟨hwritten, hfailed⟩

end Alone

/-! ## The call -/

/-- **`SendData` sends a frame whole or fails.** Run against any socket, it returns after no more
rounds than the frame has bytes, and what it returns says whether the socket has accepted all of the
frame. What the socket has accepted is the socket's record of the `send`s the code has called, and the
call is a run of one call in the sense of the frames of several calls on one socket. -/
theorem sendData_allOrFailure (transport : Transport) (data : Str) (h : 4 + data.length < 2 ^ 31) :
    ∃ sent socket,
      (∀ rounds, 4 + data.length < rounds →
        (sendData data rounds).run transport.handler [] .start = (some sent, socket)) ∧
      (sent = true ↔ socket.accepted = packageMessage data) ∧
      (sent = false → socket.accepted <+: packageMessage data ∧
        socket.accepted ≠ packageMessage data) ∧
      ∃ es, (runAll (Sending.step fun _ => data) Sending.start es).written = socket.accepted ∧
        (runAll (Sending.step fun _ => data) Sending.start es).failed () = !sent := by
  have hstart := sent_start (packageMessage data)
  obtain ⟨⟨sent, socket⟩, hloop, hwhole, hpart⟩ :=
    Advance.loop (fun _ => round_advance transport (toInt_length_packageMessage h)) hstart
  have hloop' : ∀ rounds, 4 + data.length < rounds →
      loop (transport.round (packageMessage data)
        (Int32.ofNat (packageMessage data).length)) rounds ⟨0, .start⟩ = some (sent, socket) := by
    intro rounds hrounds
    apply hloop
    rw [length_packageMessage]
    exact hrounds
  refine ⟨sent, socket, fun rounds hrounds => run_sendLoop (hloop' rounds hrounds), hwhole, hpart,
    alone_of_loop h (hloop' _ (Nat.lt_succ_self _))⟩

/-- It accepts two bytes of what it is first given, and then fails. -/
def twoBytes : Transport where
  send calls given := if calls = 0 ∧ 2 ≤ given.length then 2 else -1
  send_le calls given := by
    split
    · next h => exact Int.ofNat_le.mpr h.2
    · exact Int.le_trans (by decide) (Int.natCast_nonneg _)

/-- The call is over in the middle of the header, at its second `send`. -/
theorem sendData_twoBytes :
    (∃ sent socket,
      (∀ rounds, 4 + (bytes "ab").length < rounds →
        (sendData (bytes "ab") rounds).run twoBytes.handler [] .start = (some sent, socket)) ∧
      (sent = true ↔ socket.accepted = packageMessage (bytes "ab")) ∧
      (sent = false → socket.accepted <+: packageMessage (bytes "ab") ∧
        socket.accepted ≠ packageMessage (bytes "ab")) ∧
      ∃ es, (runAll (Sending.step fun _ => bytes "ab") Sending.start es).written =
          socket.accepted ∧
        (runAll (Sending.step fun _ => bytes "ab") Sending.start es).failed () = !sent) ∧
    (sendData (bytes "ab") 7).run twoBytes.handler [] .start = (some false, ⟨2, [0, 0]⟩) :=
  ⟨sendData_allOrFailure twoBytes (bytes "ab") (by decide), by decide⟩

end LiteChat
