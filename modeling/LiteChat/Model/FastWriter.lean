import LiteChat.Model.Json

/-!
# The text of a JSON value

`Json::FastWriter` writes a value on one line, without blanks, and ends the line. JsonCpp is not part
of the repository, and its versions differ in what they make of bytes outside ASCII: `quote` is what
they make of a string. The members of an object are written in the order of their keys, which `Json`
leaves open; no length depends on it.
-/

namespace LiteChat

/-- Texts with commas between them. -/
def commas : List Str → Str
  | [] => []
  | [text] => text
  | text :: texts => text ++ 44 :: commas texts

mutual

/-- `FastWriter::writeValue`. -/
def Json.write (quote : Str → Str) : Json → Str
  | .null => bytes "null"
  | .bool b => bytes (if b then "true" else "false")
  | .int n => bytes (toString n)
  | .real text _ => text
  | .str s => quote s
  | .arr elems => 91 :: commas (writeElems quote elems) ++ [93]
  | .obj members => 123 :: commas (writeMembers quote members) ++ [125]

def writeElems (quote : Str → Str) : List Json → List Str
  | [] => []
  | elem :: elems => elem.write quote :: writeElems quote elems

def writeMembers (quote : Str → Str) : List (Str × Json) → List Str
  | [] => []
  | (key, value) :: members => (quote key ++ 58 :: value.write quote) :: writeMembers quote members

end

/-- What is handed to `SendData`. -/
def Frame.body (quote : Str → Str) : Frame → Str
  | .text s => s
  | .json j => j.write quote ++ [10]

/-- `valueToQuotedString`, as far as lengths go: two quotes, and from every byte at least one and at
most six, which is `\u` and four digits. -/
structure Quotes (quote : Str → Str) : Prop where
  le : ∀ s, (quote s).length ≤ 6 * s.length + 2
  ge : ∀ s, s.length + 2 ≤ (quote s).length

/-- The shortest that a string can become, which is what becomes of letters and digits. -/
def quotePlain (s : Str) : Str := 34 :: s ++ [34]

/-- The longest. -/
def quoteWorst (s : Str) : Str := List.replicate (6 * s.length + 2) 48

theorem quotes_plain : Quotes quotePlain := by
  constructor
  · intro s
    simp [quotePlain]
    omega
  · intro s
    simp [quotePlain]

/-! ## Lengths -/

theorem length_commas_le {texts texts' : List Str}
    (h : List.Forall₂ (fun t t' => t.length ≤ t'.length) texts texts') :
    (commas texts).length ≤ (commas texts').length := by
  induction h with
  | nil => exact Nat.le_refl _
  | cons ht hts ih =>
    cases hts with
    | nil => exact ht
    | cons hu hus =>
      simp only [commas, List.length_append, List.length_cons] at ih ⊢
      omega

section Longer

variable {quote quote' : Str → Str}

mutual

/-- Longer strings make a longer text. -/
theorem Json.length_write_le (h : ∀ s, (quote s).length ≤ (quote' s).length) :
    ∀ j : Json, (j.write quote).length ≤ (j.write quote').length
  | .null => Nat.le_refl _
  | .bool _ => Nat.le_refl _
  | .int _ => Nat.le_refl _
  | .real _ _ => Nat.le_refl _
  | .str s => h s
  | .arr elems => by
    have helems := length_commas_le (forall₂_writeElems h elems)
    simp only [Json.write, List.length_append, List.length_cons] at helems ⊢
    omega
  | .obj members => by
    have hmembers := length_commas_le (forall₂_writeMembers h members)
    simp only [Json.write, List.length_append, List.length_cons] at hmembers ⊢
    omega

theorem forall₂_writeElems (h : ∀ s, (quote s).length ≤ (quote' s).length) : ∀ elems : List Json,
    List.Forall₂ (fun t t' => t.length ≤ t'.length) (writeElems quote elems) (writeElems quote' elems)
  | [] => .nil
  | elem :: elems => .cons (elem.length_write_le h) (forall₂_writeElems h elems)

theorem forall₂_writeMembers (h : ∀ s, (quote s).length ≤ (quote' s).length) :
    ∀ members : List (Str × Json), List.Forall₂ (fun t t' => t.length ≤ t'.length)
      (writeMembers quote members) (writeMembers quote' members)
  | [] => .nil
  | (key, value) :: members => by
    refine .cons ?_ (forall₂_writeMembers h members)
    have hkey := h key
    have hvalue := value.length_write_le h
    simp only [List.length_append, List.length_cons]
    omega

end

theorem Frame.length_body_le (h : ∀ s, (quote s).length ≤ (quote' s).length) (frame : Frame) :
    (frame.body quote).length ≤ (frame.body quote').length := by
  cases frame with
  | text s => exact Nat.le_refl _
  | json j =>
    have hj := j.length_write_le h
    simp only [body, List.length_append]
    omega

end Longer

/-- No body is empty. -/
theorem Frame.length_body_pos (quote : Str → Str) (j : Json) : 0 < ((Frame.json j).body quote).length := by
  unfold body
  simp

end LiteChat
