import LiteChat.Effect.Runs
import LiteChat.Model.Server

/-!
# `Server::Start`, `Server::Stop` and `~Server`

The managers and threads that `Start` makes are the world that the rest of the model runs in; what is left
of it are its calls to the system for the socket that the server listens on, whose answers are given here
as `Startup`, and what it leaves in `serverSocket`.

`Stop` is what it does once `running` is false and the monitor and the heartbeat check have been joined: it
signs off the users of all sessions and shuts their sockets down, and then closes the socket that the
server listens on. The sessions themselves are left to the threads that read from the sockets: a `recv` on
a socket that is shut down returns 0, which ends the connection. The destructor calls it again.
-/

namespace LiteChat

namespace Server

open LiteChat.Action

/-- What the system answers to the calls of `Start`: a descriptor, if `socket` gives one, and whether the
others succeed. -/
structure Startup where
  socket : Option Socket
  setsockopt : Bool
  bind : Bool
  listen : Bool

/-- The result is that of `Start`, with what it leaves in `serverSocket`; `none` is -1. -/
def start (dbManager : Bool) (sys : Startup) : Action (Bool × Option Socket) := do
  if ¬ dbManager then
    return (false, none)
  match sys.socket with
  | none => return (false, none)
  | some serverSocket =>
    if ¬ sys.setsockopt then
      close serverSocket
      return (false, some serverSocket)
    if ¬ sys.bind then
      close serverSocket
      return (false, some serverSocket)
    if ¬ sys.listen then
      close serverSocket
      return (false, some serverSocket)
    return (true, some serverSocket)

/-- The loop of `Stop`. -/
def stopEach : List (Socket × SessionPtr) → Action Unit
  | [] => pure ()
  | (_, session) :: sessions => do
    if (← getUsername session) ≠ [] then
      let username ← getUsername session
      let _ ← UserManager.updateUserOnlineStatus username false
      let username ← getUsername session
      FriendManager.removeFriendCache username
    let socket ← getSocket session
    if (socket : Int) ≠ -1 then
      let socket ← getSocket session
      shutdown socket
    stopEach sessions

/-- The result is what becomes of `serverSocket`; `none` is -1. -/
def stop (serverSocket : Option Socket) : Action (Option Socket) := do
  let sessions ← getAllSessions
  stopEach sessions
  match serverSocket with
  | none => return none
  | some serverSocket => do
    shutdown serverSocket
    close serverSocket
    return none

/-- What the destructor does before it deletes the managers. -/
def destroy (serverSocket : Option Socket) : Action Unit := do
  let _ ← stop serverSocket

variable {P : Platform}

/-- `main`, from the initialised pool to its `return`: a server that comes up is used until a signal stops
it, and goes on as long as threads are left, which the destructor waits for only after it has stopped the
server again; one that does not come up is gone at once. -/
def main (sys : Startup) (es : List (Event × List Choice)) (atSignal : List Choice)
    (es' : List (Event × List Choice)) (atExit : List Choice) (es'' : List (Event × List Choice))
    (w : World P) : World P :=
  let started := (start true sys).run [] w
  if started.1.1 then
    let stopped := (stop started.1.2).run atSignal (Effect.runAll next started.2 es)
    let destroyed := (destroy stopped.1).run atExit (Effect.runAll next stopped.2 es')
    Effect.runAll next destroyed.2 es''
  else
    ((destroy started.1.2).run atExit started.2).2

end Server

end LiteChat
