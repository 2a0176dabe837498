import LiteChat.Model.Wire

/-!
# Headers as chars

`LiteChat.Model.Wire` has the bytes of a header. In the code they are `char`s, which are signed here:
a byte from 0x80 on is a negative one. `ParseMessageHeader` casts each to `uint8_t`, which `<<` makes
an `int`, and `|=` an unsigned one again; `PackageMessage` casts what `>>` and `&` leave of the length
to `char`.
-/

namespace LiteChat

namespace Chars

/-- `static_cast<uint8_t>(c)`, as the `int` that an operator makes of it. -/
def toInt (c : Int8) : Int32 := c.toUInt8.toUInt32.toInt32

/-- `ParseMessageHeader`, of a pointer to four `char`s at least. -/
def parseMessageHeader (header : List Int8) (h : 4 ≤ header.length) : UInt32 :=
  let length : UInt32 := 0
  let length := length ||| (toInt header[0] <<< 24).toUInt32
  let length := length ||| (toInt header[1] <<< 16).toUInt32
  let length := length ||| (toInt header[2] <<< 8).toUInt32
  length ||| (toInt header[3]).toUInt32

/-- `static_cast<char>(n)`. -/
def toChar (n : UInt32) : Int8 := n.toUInt8.toInt8

/-- `header`, as `PackageMessage` fills it. -/
def headerOf (length : UInt32) : List Int8 :=
  [toChar (length >>> 24 &&& 0xFF), toChar (length >>> 16 &&& 0xFF), toChar (length >>> 8 &&& 0xFF),
    toChar (length &&& 0xFF)]

def packageMessage (body : List Int8) : List Int8 := headerOf (UInt32.ofNat body.length) ++ body

end Chars

end LiteChat
