import Mathlib.Algebra.Group.Nat.Defs
import LiteChat.Effect.Codes
import LiteChat.Model.Chars
import LiteChat.Proof.Framing

/-!
# Frames decode uniquely

The chars of a frame are its bytes (`map_packageMessage`), and a header of chars is read as that of
its bytes (`parseMessageHeader_cons`). So what is read from the header of a frame is the length of its
body, and the frames of bodies of fewer than 2^32 chars are a code in which no word is the beginning
of another.
-/

namespace LiteChat

namespace Chars

open Effect

/-! ## Chars and bytes -/

theorem toUInt8_toChar (n : UInt32) : (toChar n).toUInt8 = n.toUInt8 := rfl

theorem map_headerOf (length : UInt32) :
    (headerOf length).map Int8.toUInt8 = (LiteChat.headerOf length).toList := by
  unfold headerOf
  simp only [List.map_cons, List.map_nil, toUInt8_toChar]
  rfl

theorem map_packageMessage (body : List Int8) :
    (packageMessage body).map Int8.toUInt8 =
      LiteChat.packageMessage (body.map Int8.toUInt8) := by
  unfold packageMessage LiteChat.packageMessage
  rw [List.map_append, map_headerOf, List.length_map]

/-- A shift of an `int`, made unsigned, is the shift of the unsigned number: no bit of the byte is
lost on the way, and the sign that the shift by 24 may set is one of them. -/
theorem toUInt32_toInt_shiftLeft (c : Int8) :
    (toInt c <<< 24).toUInt32 = c.toUInt8.toUInt32 <<< 24 ∧
      (toInt c <<< 16).toUInt32 = c.toUInt8.toUInt32 <<< 16 ∧
      (toInt c <<< 8).toUInt32 = c.toUInt8.toUInt32 <<< 8 :=
  ⟨rfl, rfl, rfl⟩

theorem parseMessageHeader_cons (c0 c1 c2 c3 : Int8) (rest : List Int8)
    (h : 4 ≤ (c0 :: c1 :: c2 :: c3 :: rest).length) :
    parseMessageHeader (c0 :: c1 :: c2 :: c3 :: rest) h =
      LiteChat.parseMessageHeader ⟨c0.toUInt8, c1.toUInt8, c2.toUInt8, c3.toUInt8⟩ := by
  unfold parseMessageHeader LiteChat.parseMessageHeader
  dsimp only [List.getElem_cons_zero, List.getElem_cons_succ]
  rw [(toUInt32_toInt_shiftLeft c0).1, (toUInt32_toInt_shiftLeft c1).2.1,
    (toUInt32_toInt_shiftLeft c2).2.2]
  rfl

/-! ## One frame -/

theorem length_headerOf (length : UInt32) : (headerOf length).length = 4 := rfl

theorem four_le_length_headerOf (length : UInt32) : 4 ≤ (headerOf length).length :=
  Nat.le_of_eq (length_headerOf length).symm

theorem take_packageMessage (body : List Int8) :
    (packageMessage body).take 4 = headerOf (UInt32.ofNat body.length) :=
  List.take_left' (length_headerOf _)

/-- A length is read as it was written, from chars too. -/
theorem parseMessageHeader_headerOf (length : UInt32) :
    parseMessageHeader (headerOf length) (four_le_length_headerOf length) = length :=
  calc parseMessageHeader (headerOf length) (four_le_length_headerOf length)
      = LiteChat.parseMessageHeader (LiteChat.headerOf length) :=
        parseMessageHeader_cons _ _ _ _ [] (four_le_length_headerOf length)
    _ = length := LiteChat.parseMessageHeader_headerOf length

/-- The number in a header, if it is one. -/
def read (header : List Int8) : Nat :=
  if h : 4 ≤ header.length then (parseMessageHeader header h).toNat else 0

theorem read_headerOf {body : List Int8} (hbody : body.length < 2 ^ 32) :
    read (headerOf (UInt32.ofNat body.length)) = body.length := by
  unfold read
  rw [dif_pos (four_le_length_headerOf _), parseMessageHeader_headerOf]
  exact UInt32.toNat_ofNat_of_lt' hbody

/-! ## Frames one after the other -/

/-- **Frames decode uniquely**, over `char`s that are signed. The header of a packaged body gives the
length of the body back, though its bytes may be negative; and two lists of bodies whose frames make the
same stream are the same list. Bodies are shorter than 2^32, which is what four bytes can tell. -/
theorem frames_unique :
    (∀ body : List Int8, body.length < 2 ^ 32 →
      ∃ h : 4 ≤ ((packageMessage body).take 4).length,
        (parseMessageHeader ((packageMessage body).take 4) h).toNat = body.length) ∧
    ∀ bodies bodies' : List (List Int8), (∀ body ∈ bodies, body.length < 2 ^ 32) →
      (∀ body ∈ bodies', body.length < 2 ^ 32) →
      (bodies.map packageMessage).flatten = (bodies'.map packageMessage).flatten →
      bodies = bodies' := by
  constructor
  · intro body hbody
    have h : 4 ≤ ((packageMessage body).take 4).length := by
      rw [take_packageMessage]
      exact four_le_length_headerOf _
    refine ⟨h, ?_⟩
    have hread : read ((packageMessage body).take 4) = body.length := by
      rw [take_packageMessage]
      exact read_headerOf hbody
    unfold read at hread
    rwa [dif_pos h] at hread
  · intro bodies bodies' hbodies hbodies' heq
    let short : Set (List Int8) := {body | body.length < 2 ^ 32}
    let header (body : List Int8) := headerOf (UInt32.ofNat body.length)
    have hwidth : ∀ body, (header body).length = 4 := fun body => length_headerOf _
    have hread : ∀ body ∈ short, read (header body) = body.length := fun _ => read_headerOf
    have hcode : PrefixFree (packageMessage '' short) :=
      PrefixFree.framed hwidth (by decide) hread
    exact hcode.flatten_map_inj (framed_injOn hwidth hread) hbodies hbodies' heq

/-- A body of 200 chars that are negative, as the last char of its header is; and one behind it. -/
theorem frames_unique_negative :
    (∃ h : 4 ≤ ((packageMessage (List.replicate 200 (-1))).take 4).length,
      (parseMessageHeader ((packageMessage (List.replicate 200 (-1))).take 4) h).toNat = 200) ∧
    ([List.replicate 200 (-1), [65]] : List (List Int8)) =
      [List.replicate 200 (-1)] ++ [[65]] := by
  have hshort : ∀ body ∈ ([List.replicate 200 (-1), [65]] : List (List Int8)),
      body.length < 2 ^ 32 := by
    intro body hbody
    rcases List.mem_cons.mp hbody with rfl | hbody
    · rw [List.length_replicate]
      decide
    · rw [List.mem_singleton.mp hbody]
      decide
  constructor
  · have h := frames_unique.1 (List.replicate 200 (-1)) (hshort _ List.mem_cons_self)
    rwa [List.length_replicate] at h
  · exact frames_unique.2 _ _ hshort hshort rfl

end Chars

end LiteChat
