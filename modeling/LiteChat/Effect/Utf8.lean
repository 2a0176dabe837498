import Mathlib.Data.List.Infix

/-!
# Bytes that are characters

The bytes of a text are those of its characters, one after the other (`utf8`). A byte tells whether it
is the first of its character, so a cut in the bytes is a cut between two characters exactly if the
byte behind it is a first one (`take_utf8_iff`).
-/

namespace Effect

/-- The bytes of a text. -/
def utf8 (chars : List Char) : List UInt8 := chars.flatMap String.utf8EncodeChar

/-- Bytes that are those of a text. -/
def IsUtf8 (bs : List UInt8) : Prop := ∃ chars, utf8 chars = bs

variable {c : Char} {chars chars' : List Char} {n : Nat}

@[simp] theorem utf8_nil : utf8 [] = [] := rfl

theorem utf8_cons : utf8 (c :: chars) = String.utf8EncodeChar c ++ utf8 chars :=
  List.flatMap_cons

@[simp] theorem utf8_append : utf8 (chars ++ chars') = utf8 chars ++ utf8 chars' :=
  List.flatMap_append

theorem IsUtf8.append {bs bs' : List UInt8} (h : IsUtf8 bs) (h' : IsUtf8 bs') :
    IsUtf8 (bs ++ bs') := by
  obtain ⟨chars, rfl⟩ := h
  obtain ⟨chars', rfl⟩ := h'
  exact ⟨chars ++ chars', utf8_append⟩

/-- A text begins with a first byte. -/
theorem isFirst_of_head {b : UInt8} (h : (utf8 chars)[0]? = some b) : b.IsUTF8FirstByte := by
  cases chars with
  | nil => cases h
  | cons c chars =>
    have hpos : 0 < (String.utf8EncodeChar c).length := by
      rw [String.length_utf8EncodeChar]
      exact c.utf8Size_pos
    rw [utf8_cons, List.getElem?_append_left hpos, List.getElem?_eq_getElem hpos] at h
    rw [← Option.some.inj h]
    exact UInt8.isUTF8FirstByte_getElem_utf8EncodeChar.mpr rfl

/-- Before a first byte, a character ends. -/
theorem take_of_isFirst {b : UInt8} (hb : (utf8 chars)[n]? = some b) (h : b.IsUTF8FirstByte) :
    ∃ shown, shown <+: chars ∧ (utf8 chars).take n = utf8 shown := by
  induction chars generalizing n with
  | nil => cases hb
  | cons c chars ih =>
    rw [utf8_cons] at hb ⊢
    by_cases hn : n < (String.utf8EncodeChar c).length
    · -- only the first byte of a character is one
      rw [List.getElem?_append_left hn, List.getElem?_eq_getElem hn] at hb
      rw [← Option.some.inj hb, UInt8.isUTF8FirstByte_getElem_utf8EncodeChar] at h
      subst h
      exact ⟨[], List.nil_prefix, rfl⟩
    · have hle : (String.utf8EncodeChar c).length ≤ n := Nat.le_of_not_lt hn
      rw [List.getElem?_append_right hle] at hb
      obtain ⟨shown, hshown, htake⟩ := ih hb
      refine ⟨c :: shown, List.cons_prefix_cons.mpr ⟨rfl, hshown⟩, ?_⟩
      rw [List.take_append, List.take_of_length_le hle, htake, utf8_cons]

/-- **A cut keeps the characters whole** exactly if the byte behind it, if there is one, is the first of
its character. -/
theorem take_utf8_iff (hn : n ≤ (utf8 chars).length) :
    (∃ shown, shown <+: chars ∧ (utf8 chars).take n = utf8 shown) ↔
      ∀ b, (utf8 chars)[n]? = some b → b.IsUTF8FirstByte := by
  constructor
  · rintro ⟨shown, ⟨rest, rfl⟩, htake⟩ b hb
    have hlength : (utf8 shown).length = n := by
      rw [← htake, List.length_take, Nat.min_eq_left hn]
    rw [utf8_append, List.getElem?_append_right hlength.le, hlength, Nat.sub_self] at hb
    exact isFirst_of_head hb
  · intro h
    cases hb : (utf8 chars)[n]? with
    | some b => exact take_of_isFirst hb (h b hb)
    | none =>
      refine ⟨chars, List.prefix_rfl, List.take_of_length_le ?_⟩
      exact List.getElem?_eq_none_iff.mp hb

end Effect
