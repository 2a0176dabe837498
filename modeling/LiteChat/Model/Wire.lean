import LiteChat.Effect.Pieces
import LiteChat.Model.Json

/-!
# Bytes on a socket

`PackageMessage` puts the length of a body before it, in four bytes and big-endian. `ReceiveData`
reads a header and then as many bytes as it says; `SendData` writes a frame in as many `send` calls
as it takes.

What the transport does with a stream is to cut it: the pieces are what has arrived when a `recv`
is called, and `Effect.recv` takes from the first of them. The array for the header is not
initialised, so what a short `recv` leaves in it is a parameter (`garbage`).

Calls of `SendData` on one socket take turns at `send`. How much one accepts, and whether it fails,
is the event (`Sending.step`).
-/

namespace LiteChat

/-! ## Headers -/

/-- `char header[4]`. -/
structure Header where
  b0 : UInt8
  b1 : UInt8
  b2 : UInt8
  b3 : UInt8
  deriving DecidableEq

def Header.toList (header : Header) : Str := [header.b0, header.b1, header.b2, header.b3]

def parseMessageHeader (header : Header) : UInt32 :=
  (0 : UInt32) ||| header.b0.toUInt32 <<< 24 ||| header.b1.toUInt32 <<< 16 |||
    header.b2.toUInt32 <<< 8 ||| header.b3.toUInt32

def headerOf (length : UInt32) : Header where
  b0 := (length >>> 24 &&& 0xFF).toUInt8
  b1 := (length >>> 16 &&& 0xFF).toUInt8
  b2 := (length >>> 8 &&& 0xFF).toUInt8
  b3 := (length &&& 0xFF).toUInt8

def packageMessage (body : Str) : Str := (headerOf (UInt32.ofNat body.length)).toList ++ body

/-- What is in the array after a `recv` of at most four bytes into it. -/
def Header.fill (garbage : Header) : Str → Header
  | [] => garbage
  | [a] => { garbage with b0 := a }
  | [a, b] => { garbage with b0 := a, b1 := b }
  | [a, b, c] => { garbage with b0 := a, b1 := b, b2 := c }
  | a :: b :: c :: d :: _ => ⟨a, b, c, d⟩

/-! ## Receiving -/

/-- The loop of `ReceiveData`. Every round reads a byte at least, so `messageLength` rounds are
enough. -/
def receiveBody (messageLength : Nat) : Nat → Str → List Str → Str × List Str
  | 0, messageBody, pieces => (messageBody, pieces)
  | rounds + 1, messageBody, pieces =>
    if messageBody.length < messageLength then
      let received := Effect.recv (messageLength - messageBody.length) pieces
      if received.1 = [] then ([], received.2)
      else receiveBody messageLength rounds (messageBody ++ received.1) received.2
    else (messageBody, pieces)

/-- The message, or nothing on failure; and what is left of the stream. -/
def receiveData (garbage : Header) (pieces : List Str) : Str × List Str :=
  let received := Effect.recv 4 pieces
  if received.1 = [] then ([], received.2)
  else
    let messageLength := parseMessageHeader (garbage.fill received.1)
    if messageLength = 0 ∨ 65536 < messageLength then ([], received.2)
    else receiveBody messageLength.toNat messageLength.toNat [] received.2

/-- What that many calls of `ReceiveData` return, one after the other. -/
def receiveMessages (garbage : Nat → Header) : Nat → List Str → List Str
  | 0, _ => []
  | calls + 1, pieces =>
    let received := receiveData (garbage 0) pieces
    received.1 :: receiveMessages (fun i => garbage (i + 1)) calls received.2

/-! ## Sending -/

/-- `int totalLength = packagedData.length()`. -/
def totalLength (data : Str) : Int := (BitVec.ofNat 32 (packageMessage data).length).toInt

/-- Calls of `SendData` on one socket, as far as they have got, and what they have written. -/
structure Sending (ι : Type) where
  totalSent : ι → Nat
  failed : ι → Bool
  written : Str

namespace Sending

variable {ι : Type} [DecidableEq ι]

def start : Sending ι := ⟨fun _ => 0, fun _ => false, []⟩

/-- A `send` of one of the calls: it accepts so many bytes, or fails. -/
inductive Send (ι : Type)
  | accepts (i : ι) (bytesSent : Nat)
  | fails (i : ι)

/-- The call is in its loop. -/
def InLoop (data : ι → Str) (s : Sending ι) (i : ι) : Prop :=
  s.failed i = false ∧ (s.totalSent i : Int) < totalLength (data i)

/-- `send` accepts one byte at least and what it is given at most. -/
def Send.Enabled (data : ι → Str) (s : Sending ι) : Send ι → Prop
  | .accepts i bytesSent => s.InLoop data i ∧ 0 < bytesSent ∧
      (s.totalSent i + bytesSent : Int) ≤ totalLength (data i)
  | .fails i => s.InLoop data i

instance (data : ι → Str) (s : Sending ι) (e : Send ι) : Decidable (e.Enabled data s) := by
  cases e <;> unfold Send.Enabled InLoop <;> infer_instance

/-- What a `send` does to the calls and to the stream. -/
def send (data : ι → Str) (s : Sending ι) : Send ι → Sending ι
  | .accepts i bytesSent =>
    { s with
      totalSent := Function.update s.totalSent i (s.totalSent i + bytesSent)
      written := s.written ++ ((packageMessage (data i)).drop (s.totalSent i)).take bytesSent }
  | .fails i => { s with failed := Function.update s.failed i true }

/-- A `send` that no call can make changes nothing. -/
def step (data : ι → Str) (s : Sending ι) (e : Send ι) : Sending ι :=
  if e.Enabled data s then s.send data e else s

end Sending

end LiteChat
