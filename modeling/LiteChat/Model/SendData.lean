import LiteChat.Effect.Prog
import LiteChat.Model.Wire

/-!
# One call of `SendData`

`SendData` writes a frame from `totalSent` on, in as many `send` calls as it takes. The code is a
program over the one operation it calls, so all it knows of the socket is what `send` returns: how
much of what it was given was accepted, or that nothing was. What has been accepted is the socket's
own record (`Outgoing`), which no line of the code reads or writes.

How much a `send` accepts is the environment's part (`Transport`), and nobody else writes to the
socket. The counters are `int`s, and the loop is unrolled to a number of rounds: that it ends is a
theorem.
-/

namespace LiteChat

open Effect

/-- What `SendData` calls: `send(clientSocket, packagedData.c_str() + totalSent, …, 0)`, by the bytes
it is given. -/
inductive SocketCall
  | send (given : Str)

/-- What a call returns, as the `int` it is assigned to. -/
abbrev SocketCall.Res : SocketCall → Type
  | .send _ => Int32

/-! ## The code -/

namespace SocketCall

/-- A round of the `while` loop: what `SendData` returns, or the next `totalSent`. -/
def sendRound (packagedData : Str) (totalLength totalSent : Int32) :
    Prog SocketCall SocketCall.Res (Bool ⊕ Int32) :=
  if totalSent < totalLength then
    (Prog.op (.send ((packagedData.drop totalSent.toNatClampNeg).take
        (totalLength - totalSent).toNatClampNeg))).bind fun bytesSent =>
      if bytesSent ≤ (0 : Int32) then .pure (.inl false)
      else .pure (.inr (totalSent + bytesSent))
  else .pure (.inl true)

/-- The loop, for so many rounds at most. -/
def sendLoop (packagedData : Str) (totalLength : Int32) :
    Nat → Int32 → Prog SocketCall SocketCall.Res (Option Bool)
  | 0, _ => .pure none
  | rounds + 1, totalSent =>
    (sendRound packagedData totalLength totalSent).bind fun
      | .inl sent => .pure (some sent)
      | .inr totalSent => sendLoop packagedData totalLength rounds totalSent

/-- `Server::SendData`: what it returns, if it does so within the rounds. -/
def sendData (data : Str) (rounds : Nat) : Prog SocketCall SocketCall.Res (Option Bool) :=
  let packagedData := packageMessage data
  sendLoop packagedData (Int32.ofNat packagedData.length) rounds 0

end SocketCall

/-! ## The socket -/

/-- What `send` returns, by how often it was called before and by what it is given: an error or zero,
or how many bytes it accepts. -/
structure Transport where
  send : Nat → Str → Int32
  send_le : ∀ calls given, (send calls given).toInt ≤ given.length

/-- The socket that is written to. -/
structure Outgoing where
  /-- How often `send` was called on it. -/
  calls : Nat
  /-- What it has accepted, in order. -/
  accepted : Str
  deriving DecidableEq

/-- Before the call. -/
def Outgoing.start : Outgoing := ⟨0, []⟩

/-- A `send`: of what it is given, the socket accepts the beginning, as long as `send` returns. -/
def Transport.handler (transport : Transport) : Handler SocketCall SocketCall.Res Unit Outgoing
  | .send given, _, socket =>
    let bytesSent := transport.send socket.calls given
    (bytesSent, {
      calls := socket.calls + 1
      accepted := socket.accepted ++ given.take bytesSent.toNatClampNeg })

end LiteChat
