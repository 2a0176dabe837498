import LiteChat.Model.World

/-!
# The process

`World` is what the server's code knows. The kernel knows more: which connections have broken, and
what becomes of the process when it gets a signal. `main` sets `SignalHandler` for `SIGINT` and
`SIGTERM` and leaves every other signal to its default; and `SendData` passes no flags to `send`, so
that a write to a connection that was shut down, or whose peer has gone, raises `SIGPIPE`.
-/

namespace LiteChat

inductive Signal
  | sigint
  | sigterm
  | sigpipe
  deriving DecidableEq

/-- The signals that `main` sets `SignalHandler` for. -/
def handledSignals : List Signal := [.sigint, .sigterm]

/-- The server and what the kernel knows of it. `gone` are the descriptors whose connection was shut
down or has lost its peer. -/
structure Process (P : Platform) where
  world : World P
  gone : List Socket
  alive : Bool

namespace Process

variable {P : Platform}

/-- The process right after `Start`. -/
def start (db : Database P) : Process P where
  world := World.start db
  gone := []
  alive := true

/-- A signal that nobody handles ends the process. -/
def raise (s : Process P) (signal : Signal) : Process P :=
  if signal ∈ handledSignals then s else { s with alive := false }

/-- Peers go away. -/
def lose (s : Process P) (broken : List Socket) : Process P := { s with gone := broken ++ s.gone }

/-- The descriptor is open, and nothing can be written to it. -/
def Broken (s : Process P) (c : Socket) : Prop := c ∈ s.world.openSockets ∧ c ∈ s.gone

instance (s : Process P) (c : Socket) : Decidable (s.Broken c) := by
  unfold Broken
  infer_instance

/-- The call writes to a connection that is broken. -/
def Pipes (s : Process P) : Op → Prop
  | .sendData c _ => s.Broken c
  | _ => False

instance (s : Process P) (o : Op) : Decidable (s.Pipes o) := by
  unfold Pipes
  split <;> infer_instance

/-- A connection that was just accepted has a peer, and one that is shut down has none. -/
def goneAfter : Op → List Socket → List Socket
  | .accept c, gone => gone.filter (· ≠ c)
  | .shutdown c, gone => c :: gone
  | _, gone => gone

def perform (s : Process P) (o : Op) (ch : Choice) : o.Res × Process P :=
  ((World.handle o ch s.world).1,
    { s with world := (World.handle o ch s.world).2, gone := goneAfter o s.gone })

/-- What each operation answers and does, after some peers have gone. A process that has ended does
nothing any more. -/
def handle : Effect.Handler Op Op.Res (List Socket × Choice) (Process P)
  | o, (broken, ch), s =>
    if s.alive = false then ((World.handle o ch s.world).1, s)
    else if (s.lose broken).Pipes o then
      let failed := (s.lose broken).perform o { ch with sendOk := false }
      (failed.1, failed.2.raise .sigpipe)
    else (s.lose broken).perform o ch

end Process

end LiteChat
