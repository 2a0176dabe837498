import Mathlib.Tactic.Common

/-!
# Byte strings and JSON values

`std::string` is a sequence of bytes, and everything the server does with one (comparing,
`length()`, `substr`, `isspace`) is done byte by byte, so `Str` is a list of bytes. `bytes` is
the byte string of a literal of the source, which is UTF-8.

`Json` is `Json::Value` as far as the server looks into one. JsonCpp is not part of the
repository: `Reader::parse` enters the model through its result, and the accessors are the
documented ones, with the exceptions they throw. That matters because `DispatchRequest` reads
every field of a request outside its `try` block.
-/

namespace LiteChat

/-- `std::string`. -/
abbrev Str : Type := List UInt8

/-- The bytes of a string literal of the source. -/
def bytes (s : String) : Str := s.toList.flatMap String.utf8EncodeChar

/-- `Json::Value`. The members of an object are in no particular order, and a key occurs once.
A real number is known by what the server can ask of it: the text `asString` gives, and the
number `asInt` gives when it is in range. -/
inductive Json
  | null
  | bool (b : Bool)
  | int (n : Int)
  | real (text : Str) (asInt : Option Int)
  | str (s : Str)
  | arr (elems : List Json)
  | obj (members : List (Str × Json))

/-- `Json::LogicError` and `Json::RuntimeError`; both are `std::exception`s. -/
inductive JsonException
  | typeMismatch
  deriving DecidableEq, Repr

namespace Json

/-- `value[key]` with a string key: `null` counts as an empty object, a value that is neither
object nor null throws. -/
def get (key : Str) : Json → Except JsonException Json
  | .null => .ok .null
  | .obj members => .ok ((members.lookup key).getD .null)
  | _ => .error .typeMismatch

/-- `value.isMember(key)`, which throws where `value[key]` does. -/
def isMember (key : Str) : Json → Except JsonException Bool
  | .null => .ok false
  | .obj members => .ok (members.lookup key).isSome
  | _ => .error .typeMismatch

/-- `value.asString()`: arrays and objects have no text. -/
def asString : Json → Except JsonException Str
  | .null => .ok []
  | .bool b => .ok (bytes (if b then "true" else "false"))
  | .int n => .ok (bytes (toString n))
  | .real text _ => .ok text
  | .str s => .ok s
  | .arr _ => .error .typeMismatch
  | .obj _ => .error .typeMismatch

/-- `value.asInt()`: numbers outside `int`, strings, arrays and objects throw. -/
def asInt : Json → Except JsonException Int
  | .null => .ok 0
  | .bool b => .ok (if b then 1 else 0)
  | .int n => if -2147483648 ≤ n ∧ n ≤ 2147483647 then .ok n else .error .typeMismatch
  | .real _ n => match n with
    | some n => .ok n
    | none => .error .typeMismatch
  | .str _ => .error .typeMismatch
  | .arr _ => .error .typeMismatch
  | .obj _ => .error .typeMismatch

/-- `value.isNull()`. -/
def isNull : Json → Bool
  | .null => true
  | _ => false

/-- The member `key` of an object, when the value is one and has it. -/
def member? (key : Str) : Json → Option Json
  | .obj members => members.lookup key
  | _ => none

/-- The text of a string value. -/
def str? : Json → Option Str
  | .str s => some s
  | _ => none

end Json

/-- What is handed to `SendData`: a literal of the source, or `Json::FastWriter`'s text of a
value, which the model keeps as the value. -/
inductive Frame
  | text (s : Str)
  | json (j : Json)

/-- The member `type` of a frame's object. -/
def Frame.type? : Frame → Option Str
  | .text _ => none
  | .json j => (j.member? (bytes "type")).bind Json.str?

/-- The frame is a response: its type is `ERROR`, or ends in `_RESPONSE`. -/
def Frame.isResponse : Frame → Bool
  | .text s => (bytes "\x7b\"type\":\"ERROR\"").isPrefixOf s
  | .json j =>
    match (Frame.json j).type? with
    | some type => type == bytes "ERROR" || (bytes "_RESPONSE").isSuffixOf type
    | none => false

/-- The content a `FORWARD_MSG` frame carries; `none` for every other frame. -/
def Frame.forwarded? (f : Frame) : Option Str :=
  match f with
  | .text _ => none
  | .json j =>
    if f.type? = some (bytes "FORWARD_MSG") then
      ((j.member? (bytes "data")).bind (Json.member? (bytes "content"))).bind Json.str?
    else none

end LiteChat
