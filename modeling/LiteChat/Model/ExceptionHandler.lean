import LiteChat.Effect.Throwing
import LiteChat.Model.DBManager
import LiteChat.Model.Server

/-!
# `ExceptionHandler`

`DispatchRequest` once more, with the exceptions. `Model/Dao.lean` takes a DAO function for a statement
whose failure is an answer, and `Model/Server.lean` leaves out the `catch` of `DispatchRequest`. Here the
exceptions of the JSON library are thrown where nobody catches them, and the `catch` of `DispatchRequest`
calls `HandleDBException`, which calls `Reconnect`.

A statement throws too (`execute`), and a DAO function is the `try` block around it (`daoMethod`). The
requests themselves are served by the code of `Model/Server.lean`, taken for code that may throw (`server`),
which does not call `daoMethod`: that a DAO function there answers what its `try` block does is a theorem
(`server_caught`).

The operations are those of the server and those of the pool; `dbException` is the line of the log that
`HandleDBException` begins with, by which a run shows that it was called.
-/

namespace LiteChat

/-- `std::exception`, as far as requests are concerned. -/
inductive StdException
  | sql (e : SQLException)
  | json (e : JsonException)

inductive ServerOp
  | op (o : Op)
  | pool (o : PoolOp)
  | dbException (e : StdException)

def ServerOp.Res : ServerOp → Type
  | .op o => o.Res
  | .pool o => o.Res
  | .dbException _ => Unit

/-- Code that may throw. -/
abbrev Code (α : Type) : Type := ExceptT StdException (Effect.Prog ServerOp ServerOp.Res) α

namespace Code

variable {α : Type}

def call (o : ServerOp) : Code o.Res := (Effect.Prog.op o).clear

/-- Code of the server that throws nothing. -/
def server (p : Action α) : Code α := (p.within ServerOp.op fun _ r => r).clear

/-- Code of the pool, which throws nothing. -/
def pooled (p : Pooled α) : Code α := (p.within ServerOp.pool fun _ r => r).clear

/-- Execute a statement, which may throw. -/
def execute (st : Stmt) : Code st.Res := do
  match ← call (.op (.sql st)) with
  | .ok r => return r
  | .error e => throw (.sql e)

/-- The shape of every DAO function: its statement, in a `try` block with a `catch` of
`sql::SQLException`. -/
def daoMethod (st : Stmt) (f : st.Res → α) (failed : α) : Code α :=
  tryCatch (do return f (← execute st)) fun e =>
    match e with
    | .sql _ => return failed
    | e => throw e

end Code

open Code

namespace ExceptionHandler

/-- The loop of `HandleDBException`, with so many attempts to go. -/
def retry : Nat → Code Unit
  | 0 => return
  | attempts + 1 => do
    if ← pooled DBManager.reconnect then
      return
    retry attempts

def handleDBException (e : StdException) : Code Unit := do
  call (.dbException e)
  retry 3

end ExceptionHandler

namespace Server

variable (P : Platform)

/-- The `try` block of `DispatchRequest`. -/
def serveOrHandle (request : Request) : Code Response :=
  tryCatch (server (serve P request)) fun e => do
    ExceptionHandler.handleDBException e
    return ⟨5000, bytes "服务器内部错误", none⟩

/-- `DispatchRequest`. -/
def dispatch (clientSocket : Socket) (parsed : Option Json) : Code (Option (Request × Response)) := do
  match parsed with
  | none => do
    let _ ← server (Action.sendData clientSocket parseError)
    return none
  | some root =>
    match header root with
    | .error e => throw (.json e)
    | .ok (type, node) => do
      server (refresh clientSocket)
      let garbage ← server Action.uninitialised
      match readRequest type clientSocket garbage node with
      | .error e => throw (.json e)
      | .ok request => do
        let request ← server (identify clientSocket request)
        let response ← serveOrHandle P request
        let _ ← server (Action.sendData clientSocket (responseFrame type response))
        return some (request, response)

variable {P}

/-- What the operations do. -/
def handleOp : Effect.Handler ServerOp ServerOp.Res PoolChoice (PoolWorld P)
  | .op o, c, s =>
    ((World.handle o c.choice s.world).1, { s with world := (World.handle o c.choice s.world).2 })
  | .pool o, c, s => DBManager.handle o c s
  | .dbException _, _, s => ((), s)

end Server

end LiteChat
