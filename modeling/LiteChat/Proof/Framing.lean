import LiteChat.Model.Wire

/-!
# Framing

The body of a message may arrive in any pieces, its header may not: `ReceiveData` reads the header
with one `recv`. A stream of frames is put together again exactly if no cut falls inside a header.
In one direction, a `recv` of four bytes that are not cut gives them all, and the loop for the body
gives exactly the body. In the other, what a short `recv` leaves in the array is anything, two values
of its last byte are two lengths, and the body cannot have both.
-/

namespace LiteChat

open Effect

/-! ## Headers -/

theorem getLsbD_255 (j : Nat) : (255#32).getLsbD j = decide (j < 8) := by
  by_cases h : j < 32
  · revert j
    decide
  · rw [BitVec.getLsbD_of_ge _ _ (by omega)]
    simp
    omega

/-- A length is read as it was written. -/
theorem parseMessageHeader_headerOf (length : UInt32) :
    parseMessageHeader (headerOf length) = length := by
  apply UInt32.toBitVec_inj.mp
  apply BitVec.eq_of_getLsbD_eq
  intro i hi
  simp only [parseMessageHeader, headerOf, UInt32.toBitVec_or, UInt32.toBitVec_shiftLeft,
    UInt8.toBitVec_toUInt32, UInt32.toBitVec_toUInt8, UInt32.toBitVec_and,
    UInt32.toBitVec_shiftRight, BitVec.getLsbD_or, UInt32.toBitVec_ofNat]
  simp [getLsbD_255]
  -- each bit of the result comes from one byte
  have hbyte : ∀ n, n ≤ i → n + (i - n) = i := fun n hn => by omega
  grind

/-- The last byte of a header matters. -/
theorem parseMessageHeader_ne (b0 b1 b2 : UInt8) :
    parseMessageHeader ⟨b0, b1, b2, 0⟩ ≠ parseMessageHeader ⟨b0, b1, b2, 1⟩ := by
  intro h
  have h0 := congrArg (fun length => length.toBitVec.getLsbD 0) h
  simp [parseMessageHeader] at h0

theorem fill_toList (garbage header : Header) : garbage.fill header.toList = header := rfl

/-- A short `recv` does not decide the length. -/
theorem exists_garbage_ne {received : Str} (h : received.length < 4) :
    ∃ garbage garbage' : Header,
      parseMessageHeader (garbage.fill received) ≠ parseMessageHeader (garbage'.fill received) := by
  refine ⟨⟨0, 0, 0, 0⟩, ⟨0, 0, 0, 1⟩, ?_⟩
  match received with
  | [] => exact parseMessageHeader_ne 0 0 0
  | [a] => exact parseMessageHeader_ne a 0 0
  | [a, b] => exact parseMessageHeader_ne a b 0
  | [a, b, c] => exact parseMessageHeader_ne a b c
  | a :: b :: c :: d :: rest => exact absurd h (by simp)

/-! ## The loop for the body -/

/-- The rest of a stream, after the bytes `bytes`. -/
structure Rest (pieces : List Str) (bytes : Str) (rest : List Str) : Prop where
  append : bytes ++ rest.flatten = pieces.flatten
  nonempty : NonemptyPieces rest
  cut : ∀ c, 0 < c → (Cut rest c ↔ Cut pieces (bytes.length + c))

theorem Rest.refl {pieces : List Str} (h : NonemptyPieces pieces) : Rest pieces [] pieces :=
  ⟨rfl, h, fun c _ => by simp⟩

theorem Rest.recv {pieces : List Str} (h : NonemptyPieces pieces) (n : Nat) :
    Rest pieces (recv n pieces).1 (recv n pieces).2 :=
  ⟨recv_append n pieces, h.recv n, fun _ hc => cut_recv_iff hc⟩

theorem Rest.trans {pieces rest rest' : List Str} {bytes bytes' : Str} (h : Rest pieces bytes rest)
    (h' : Rest rest bytes' rest') : Rest pieces (bytes ++ bytes') rest' := by
  refine ⟨?_, h'.nonempty, fun c hc => ?_⟩
  · rw [List.append_assoc, h'.append, h.append]
  · rw [h'.cut c hc, h.cut _ (by omega), List.length_append, Nat.add_assoc]

/-- The loop fails for want of bytes, or reads exactly as many as it lacks, in however many pieces they
come. The bytes behind them are left to the next message. -/
theorem receiveBody_spec (messageLength rounds : Nat) (messageBody : Str) {pieces : List Str}
    (hpieces : NonemptyPieces pieces) (hbody : messageBody.length ≤ messageLength)
    (hrounds : messageLength ≤ messageBody.length + rounds) :
    ((receiveBody messageLength rounds messageBody pieces).1 = [] ∧
        messageBody.length + pieces.flatten.length < messageLength) ∨
      ∃ bytes rest, receiveBody messageLength rounds messageBody pieces = (messageBody ++ bytes, rest) ∧
        messageBody.length + bytes.length = messageLength ∧ Rest pieces bytes rest := by
  induction rounds generalizing messageBody pieces with
  | zero =>
    refine .inr ⟨[], pieces, ?_, by simp; omega, Rest.refl hpieces⟩
    rw [List.append_nil]
    rfl
  | succ rounds ih =>
    unfold receiveBody
    by_cases hlt : messageBody.length < messageLength
    · rw [if_pos hlt]
      dsimp only
      have hle := length_recv_le (messageLength - messageBody.length) pieces
      have hrest := Rest.recv hpieces (messageLength - messageBody.length)
      have hempty := recv_ne_nil hpieces (n := messageLength - messageBody.length)
      generalize recv (messageLength - messageBody.length) pieces = received at hle hrest hempty ⊢
      obtain ⟨bytes, rest⟩ := received
      by_cases hnil : bytes = []
      · -- the other side has closed the connection
        have hclosed : pieces = [] := by
          by_contra hne
          exact hempty hne (by omega) hnil
        rw [if_pos hnil, hclosed]
        exact .inl ⟨rfl, by simpa using hlt⟩
      · rw [if_neg hnil]
        have hpos : 0 < bytes.length := List.length_pos_iff.mpr hnil
        dsimp only at hle hrest ⊢
        have hlen : (messageBody ++ bytes).length = messageBody.length + bytes.length :=
          List.length_append
        rcases ih (messageBody ++ bytes) hrest.nonempty (by omega) (by omega) with
          ⟨hfail, hshort⟩ | ⟨bytes', rest', hread, hfull, hrest'⟩
        · refine .inl ⟨hfail, ?_⟩
          rw [← hrest.append, List.length_append]
          omega
        · refine .inr ⟨bytes ++ bytes', rest', ?_, ?_, hrest.trans hrest'⟩
          · rw [hread, List.append_assoc]
          · rw [List.length_append]
            omega
    · rw [if_neg hlt]
      exact .inr ⟨[], pieces, by rw [List.append_nil], by simp; omega, Rest.refl hpieces⟩

/-- The loop from its beginning. -/
theorem receiveBody_nil (messageLength : Nat) {pieces : List Str} (hpieces : NonemptyPieces pieces) :
    ((receiveBody messageLength messageLength [] pieces).1 = [] ∧
        pieces.flatten.length < messageLength) ∨
      ∃ bytes rest, receiveBody messageLength messageLength [] pieces = (bytes, rest) ∧
        bytes.length = messageLength ∧ Rest pieces bytes rest := by
  have hrounds : messageLength ≤ ([] : Str).length + messageLength := Nat.le_add_left _ _
  have h := receiveBody_spec messageLength messageLength [] hpieces (Nat.zero_le _) hrounds
  simpa only [List.length_nil, Nat.zero_add, List.nil_append] using h

/-! ## One message -/

/-- A message is as long as the header says, if there is one. -/
theorem length_receiveData (garbage : Header) {pieces : List Str} (hpieces : NonemptyPieces pieces)
    (h : (receiveData garbage pieces).1 ≠ []) :
    (receiveData garbage pieces).1.length =
      (parseMessageHeader (garbage.fill (recv 4 pieces).1)).toNat := by
  unfold receiveData at h ⊢
  by_cases hnil : (recv 4 pieces).1 = []
  · rw [if_pos hnil] at h
    exact absurd rfl h
  rw [if_neg hnil] at h ⊢
  dsimp only at h ⊢
  generalize parseMessageHeader (garbage.fill (recv 4 pieces).1) = messageLength at h ⊢
  by_cases hbad : messageLength = 0 ∨ 65536 < messageLength
  · rw [if_pos hbad] at h
    exact absurd rfl h
  rw [if_neg hbad] at h ⊢
  rcases receiveBody_nil messageLength.toNat (hpieces.recv 4) with
    ⟨hfail, _⟩ | ⟨bytes, rest, hread, hfull, _⟩
  · exact absurd hfail h
  · rw [hread]
    exact hfull

/-- The four bytes of a header that is not cut are read at once. -/
theorem recv_header {pieces : List Str} {header : Header} {stream : Str}
    (hstream : pieces.flatten = header.toList ++ stream)
    (hpieces : NonemptyPieces pieces) (hcut : ∀ c, Cut pieces c → ¬ (0 < c ∧ c < 4)) :
    (recv 4 pieces).1 = header.toList := by
  have hne : pieces ≠ [] := by
    rintro rfl
    exact absurd hstream (by simp [Header.toList])
  have hfour : (recv 4 pieces).1.length = 4 := by
    have hle := length_recv_le 4 pieces
    have hpos := List.length_pos_iff.mpr (recv_ne_nil hpieces hne (n := 4) (by omega))
    by_contra hshort
    exact hcut _ (cut_of_recv_lt hne (by omega)) ⟨hpos, by omega⟩
  have happend := recv_append 4 pieces
  rw [hstream] at happend
  exact (List.append_inj happend hfour).1

/-- A frame whose header is not cut is received as its body, whatever was in the array, and what comes
after it is left in the stream. -/
theorem receiveData_frame {pieces : List Str} {body stream : Str}
    (hbody : 1 ≤ body.length ∧ body.length ≤ 65536)
    (hstream : pieces.flatten = packageMessage body ++ stream)
    (hpieces : NonemptyPieces pieces) (hcut : ∀ c, Cut pieces c → ¬ (0 < c ∧ c < 4)) :
    ∃ rest, (∀ garbage, receiveData garbage pieces = (body, rest)) ∧
      Rest pieces (packageMessage body) rest ∧ rest.flatten = stream := by
  unfold packageMessage at hstream
  rw [List.append_assoc] at hstream
  have hheader := recv_header hstream hpieces hcut
  have hlength : (UInt32.ofNat body.length).toNat = body.length := by
    simp only [UInt32.toNat_ofNat', Nat.reducePow]
    omega
  have hvalid : ¬ (UInt32.ofNat body.length = 0 ∨ 65536 < UInt32.ofNat body.length) := by
    rw [← UInt32.toNat_inj, UInt32.lt_iff_toNat_lt, hlength]
    simp only [UInt32.toNat_ofNat]
    omega
  have hreceive : ∀ garbage, receiveData garbage pieces =
      receiveBody body.length body.length [] (recv 4 pieces).2 := by
    intro garbage
    unfold receiveData
    dsimp only
    rw [hheader, if_neg (by simp [Header.toList]), fill_toList, parseMessageHeader_headerOf,
      if_neg hvalid, hlength]
  have hrest := Rest.recv hpieces 4
  rw [hheader] at hrest
  have hafter : (recv 4 pieces).2.flatten = body ++ stream := by
    have happend := hrest.append
    rw [hstream] at happend
    exact List.append_cancel_left happend
  rcases receiveBody_nil body.length hrest.nonempty with
    ⟨_, hshort⟩ | ⟨bytes, rest, hread, hfull, hrest'⟩
  · rw [hafter, List.length_append] at hshort
    omega
  · have happend := hrest'.append
    rw [hafter] at happend
    obtain ⟨rfl, hstream'⟩ := List.append_inj happend hfull
    exact ⟨rest, fun garbage => (hreceive garbage).trans hread, hrest.trans hrest', hstream'⟩

/-- A frame whose header is cut may be received as something else: the bytes that are missing are those
of the array, and one of them can make another length. -/
theorem receiveData_cut {pieces : List Str} {body : Str} {c : Nat} (hbody : body ≠ [])
    (hpieces : NonemptyPieces pieces) (hcut : Cut pieces c) (hc : 0 < c ∧ c < 4) :
    ∃ garbage, (receiveData garbage pieces).1 ≠ body := by
  by_contra hall
  simp only [not_exists, not_not] at hall
  obtain ⟨garbage, garbage', hne⟩ := exists_garbage_ne (recv_lt_of_cut hcut hc.1 hc.2)
  have hlength : ∀ garbage : Header, body.length =
      (parseMessageHeader (garbage.fill (recv 4 pieces).1)).toNat := by
    intro garbage
    have h := length_receiveData garbage hpieces (by rw [hall]; exact hbody)
    rwa [hall] at h
  exact hne (UInt32.toNat_inj.mp ((hlength garbage).symm.trans (hlength garbage')))

/-! ## Streams of messages -/

/-- The frames of the bodies, one after the other. -/
def stream (bodies : List Str) : Str := (bodies.map packageMessage).flatten

/-- Some cut falls inside a header. -/
def CutsHeader (bodies : List Str) (pieces : List Str) : Prop :=
  ∃ before body after, bodies = before ++ body :: after ∧
    ∃ c, Cut pieces c ∧ (stream before).length < c ∧ c < (stream before).length + 4

/-- Whatever is in the header arrays, the calls return the bodies in order, and then nothing. -/
def Reassembles (bodies : List Str) (pieces : List Str) : Prop :=
  ∀ garbage, receiveMessages garbage (bodies.length + 1) pieces = bodies ++ [[]]

theorem stream_cons (body : Str) (bodies : List Str) :
    stream (body :: bodies) = packageMessage body ++ stream bodies := by
  unfold stream
  rw [List.map_cons, List.flatten_cons]

theorem cutsHeader_cons_iff {body : Str} {bodies : List Str} {pieces : List Str} :
    CutsHeader (body :: bodies) pieces ↔ (∃ c, Cut pieces c ∧ 0 < c ∧ c < 4) ∨
      ∃ before body' after, bodies = before ++ body' :: after ∧ ∃ c, Cut pieces c ∧
        (packageMessage body).length + (stream before).length < c ∧
        c < (packageMessage body).length + (stream before).length + 4 := by
  constructor
  · rintro ⟨before, body', after, heq, c, hc, hlo, hhi⟩
    cases before with
    | nil => exact .inl ⟨c, hc, hlo, by simpa [stream] using hhi⟩
    | cons first before =>
      obtain ⟨rfl, rfl⟩ := List.cons.inj heq
      rw [stream_cons, List.length_append] at hlo hhi
      exact .inr ⟨before, body', after, rfl, c, hc, hlo, hhi⟩
  · rintro (⟨c, hc, hlo, hhi⟩ | ⟨before, body', after, rfl, c, hc, hlo, hhi⟩)
    · exact ⟨[], body, bodies, rfl, c, hc, hlo, by simpa [stream] using hhi⟩
    · refine ⟨body :: before, body', after, rfl, c, hc, ?_⟩
      rw [stream_cons, List.length_append]
      exact ⟨hlo, hhi⟩

/-- After a frame, headers are cut where they were. -/
theorem cutsHeader_rest_iff {body : Str} {bodies : List Str} {pieces rest : List Str}
    (hrest : Rest pieces (packageMessage body) rest)
    (hcut : ∀ c, Cut pieces c → ¬ (0 < c ∧ c < 4)) :
    CutsHeader (body :: bodies) pieces ↔ CutsHeader bodies rest := by
  rw [cutsHeader_cons_iff]
  constructor
  · rintro (⟨c, hc, hlo, hhi⟩ | ⟨before, body', after, heq, c, hc, hlo, hhi⟩)
    · exact absurd ⟨hlo, hhi⟩ (hcut c hc)
    · refine ⟨before, body', after, heq, c - (packageMessage body).length, ?_, by omega, by omega⟩
      rw [hrest.cut _ (by omega), Nat.add_sub_cancel' (by omega)]
      exact hc
  · rintro ⟨before, body', after, heq, c, hc, hlo, hhi⟩
    exact .inr ⟨before, body', after, heq, _, (hrest.cut c (by omega)).mp hc, by omega, by omega⟩

theorem receiveMessages_succ (garbage : Nat → Header) (calls : Nat) (pieces : List Str) :
    receiveMessages garbage (calls + 1) pieces = (receiveData (garbage 0) pieces).1 ::
      receiveMessages (fun i => garbage (i + 1)) calls (receiveData (garbage 0) pieces).2 := rfl

/-- **Messages are put together again exactly if no header is cut.** The frames may be cut anywhere in
their bodies and glued together in any way. The header is read by one `recv`, and any positive number of
bytes is taken for all four, so that a header that comes in two pieces is completed from what was in the
array. -/
theorem reassembles_iff (bodies pieces : List Str)
    (hbodies : ∀ body ∈ bodies, 1 ≤ body.length ∧ body.length ≤ 65536)
    (hpieces : ∀ piece ∈ pieces, piece ≠ []) (hstream : pieces.flatten = stream bodies) :
    Reassembles bodies pieces ↔ ¬ CutsHeader bodies pieces := by
  induction bodies generalizing pieces with
  | nil =>
    obtain rfl : pieces = [] := NonemptyPieces.eq_nil hpieces hstream
    refine ⟨fun _ => ?_, fun _ garbage => rfl⟩
    rintro ⟨before, body, after, heq, _⟩
    exact absurd heq (by simp)
  | cons body bodies ih =>
    have hbody := hbodies body List.mem_cons_self
    by_cases hcut : ∃ c, Cut pieces c ∧ 0 < c ∧ c < 4
    · -- the first header is cut
      obtain ⟨c, hc, hlt⟩ := hcut
      refine iff_of_false (fun h => ?_) (not_not.mpr (cutsHeader_cons_iff.mpr (.inl ⟨c, hc, hlt⟩)))
      obtain ⟨garbage, hne⟩ := receiveData_cut (List.length_pos_iff.mp hbody.1) hpieces hc hlt
      have hall := h fun _ => garbage
      rw [List.length_cons, receiveMessages_succ, List.cons_append] at hall
      exact hne (List.cons.inj hall).1
    · have hcut : ∀ c, Cut pieces c → ¬ (0 < c ∧ c < 4) := fun c hc hlt => hcut ⟨c, hc, hlt⟩
      rw [stream_cons] at hstream
      obtain ⟨rest, hreceive, hrest, hstream'⟩ := receiveData_frame hbody hstream hpieces hcut
      rw [cutsHeader_rest_iff hrest hcut, ← ih rest
        (fun b hb => hbodies b (List.mem_cons_of_mem body hb)) hrest.nonempty hstream']
      unfold Reassembles
      simp only [List.length_cons, receiveMessages_succ _ (bodies.length + 1), hreceive,
        List.cons_append, List.cons.injEq, true_and]
      -- the garbage of the first call is any
      constructor
      · intro h garbage
        exact h fun i => garbage (i - 1)
      · intro h garbage
        exact h fun i => garbage (i + 1)

/-- Two frames in three pieces, cut in the first body and in the second. -/
theorem reassembles_cutBodies :
    Reassembles [[65, 66], [67, 68, 69]] [[0, 0, 0, 2, 65], [66, 0, 0, 0, 3, 67], [68, 69]] := by
  refine (reassembles_iff _ _ (by decide) (by decide) (by decide)).mpr ?_
  have hcuts : ∀ c, Cut ([[0, 0, 0, 2, 65], [66, 0, 0, 0, 3, 67], [68, 69]] : List Str) c →
      c = 0 ∨ c = 5 ∨ c = 11 ∨ c = 13 := by
    rintro c ⟨i, rfl⟩
    match i with
    | 0 => exact .inl rfl
    | 1 => exact .inr (.inl rfl)
    | 2 => exact .inr (.inr (.inl rfl))
    | i + 3 => exact .inr (.inr (.inr (by simp)))
  rintro ⟨before, body, after, heq, c, hc, hlo, hhi⟩
  match before with
  | [] =>
    have := hcuts c hc
    simp only [stream, List.map_nil, List.flatten_nil, List.length_nil] at hlo hhi
    omega
  | [first] =>
    have := hcuts c hc
    obtain ⟨rfl, _⟩ := List.cons.inj heq
    have hfirst : (stream [[65, 66]]).length = 6 := by decide
    omega
  | [first, second] => simp at heq
  | first :: second :: third :: before => simp at heq

/-- A header in two pieces: with a zero in the array, the length is read as zero. -/
theorem not_reassembles :
    ¬ ∀ bodies pieces : List Str, (∀ body ∈ bodies, 1 ≤ body.length ∧ body.length ≤ 65536) →
      (∀ piece ∈ pieces, piece ≠ []) → pieces.flatten = stream bodies →
      Reassembles bodies pieces := by
  intro h
  have hall := h [[65]] [[0, 0, 0], [1, 65]] (by decide) (by decide) (by decide)
    fun _ => ⟨0, 0, 0, 0⟩
  exact absurd hall (by decide)

end LiteChat
