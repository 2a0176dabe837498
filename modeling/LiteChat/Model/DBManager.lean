import LiteChat.Effect.Monitor
import LiteChat.Model.Dao

/-!
# `DBManager`

The pool of connections, how it is filled, validated and filled again, and how the DAO functions use
it. `Model/Dao.lean` takes a DAO function for the statement it executes; here it is the whole function,
with the connection it takes and returns (`withConnection`).

The code is over operations on the pool (`PoolOp`) and has two readings. `DBManager.handle` is what the
operations do when one thread uses the pool; `poolProgram` is the same code for several threads, where
`GetConnection` and `ReleaseConnection` are what they are in the source: a few instructions under
`poolMutex`, with a wait for `poolCondition` and a notification.

A connection is the number under which it was created. No function destroys one while the server runs.
-/

namespace LiteChat

abbrev Connection : Type := Nat

/-- What the environment decides about one operation on the pool: as for any operation, and whether
the driver is there, whether a connection can be made, and which connections work. -/
structure PoolChoice where
  choice : Choice
  driverOk : Bool
  connectOk : Bool
  alive : Connection → Bool

instance : Inhabited PoolChoice := ⟨⟨default, true, true, fun _ => true⟩⟩

/-- The pool, over the rest of the world. `created` counts the connections there have ever been. -/
structure PoolWorld (P : Platform) where
  world : World P
  connectionPool : List Connection
  poolSize : Int
  created : Nat

/-- The pool as the constructor leaves it. -/
def PoolWorld.start {P : Platform} (w : World P) : PoolWorld P := ⟨w, [], 0, 0⟩

/-- The operations. `selectOne` is the query of `ValidateConnection`, `connect` all that
`CreateConnection` does in its `try` block, and `push` the unlocked `connectionPool.push` of
`InitConnectionPool`. -/
inductive PoolOp
  | getConnection
  | releaseConnection (conn : Connection)
  | execute (conn : Connection) (st : Stmt)
  | selectOne (conn : Connection)
  | setPoolSize (size : Int)
  | loadPoolSize
  | getDriver
  | connect
  | push (conn : Connection)

def PoolOp.Res : PoolOp → Type
  | .getConnection => Option Connection
  | .execute _ st => Except SQLException st.Res
  | .selectOne _ => Except SQLException Bool
  | .loadPoolSize => Int
  | .getDriver => Except SQLException Unit
  | .connect => Except SQLException Connection
  | _ => Unit

/-- Code that works on the pool. -/
abbrev Pooled (α : Type) : Type := Effect.Prog PoolOp PoolOp.Res α

namespace Pooled

def op (o : PoolOp) : Pooled o.Res := Effect.Prog.op o

def getConnection : Pooled (Option Connection) := op .getConnection
def releaseConnection (conn : Connection) : Pooled Unit := op (.releaseConnection conn)
def execute (conn : Connection) (st : Stmt) : Pooled (Except SQLException st.Res) :=
  op (.execute conn st)
def selectOne (conn : Connection) : Pooled (Except SQLException Bool) := op (.selectOne conn)
def setPoolSize (size : Int) : Pooled Unit := op (.setPoolSize size)
def loadPoolSize : Pooled Int := op .loadPoolSize
def getDriver : Pooled (Except SQLException Unit) := op .getDriver
def connect : Pooled (Except SQLException Connection) := op .connect
def push (conn : Connection) : Pooled Unit := op (.push conn)

end Pooled

open Pooled

/-- The shape of every DAO function: take a connection, execute one statement on it, and give it back
whether or not the statement has raised an exception. -/
def withConnection {α : Type} (st : Stmt) (f : st.Res → α) (failed : α) : Pooled α := do
  match ← getConnection with
  | none => return failed
  | some conn => do
    let executed ← execute conn st
    releaseConnection conn
    match executed with
    | .ok r => return f r
    | .error _ => return failed

namespace DBManager

def createConnection : Pooled (Option Connection) := do
  match ← connect with
  | .ok conn => return some conn
  | .error _ => return none

def validateConnection : Pooled Bool := do
  match ← getConnection with
  | none => return false
  | some conn => do
    let selected ← selectOne conn
    releaseConnection conn
    match selected with
    | .ok valid => return valid
    | .error _ => return false

/-- The loop of `InitConnectionPool`, with so many rounds to go. -/
def createConnections : Nat → Pooled Bool
  | 0 => return true
  | rounds + 1 => do
    match ← createConnection with
    | none => return false
    | some conn => do
      push conn
      createConnections rounds

def initConnectionPool (size : Int) : Pooled Bool := do
  setPoolSize size
  match ← getDriver with
  | .error _ => return false
  | .ok _ => do
    if ¬ (← createConnections size.toNat) then
      return false
    validateConnection

/-- The loop of `Reconnect`, with so many attempts to go. -/
def reconnectTimes : Nat → Pooled Bool
  | 0 => return false
  | attempts + 1 => do
    let poolSize ← loadPoolSize
    if ← initConnectionPool poolSize then
      return true
    reconnectTimes attempts

def reconnect : Pooled Bool := reconnectTimes 3

variable {P : Platform}

/-- What the operations do for the only thread there is. On an empty pool `GetConnection` would wait
for ever; the answer there is the one of the line that the source has for this case. -/
def handle : Effect.Handler PoolOp PoolOp.Res PoolChoice (PoolWorld P)
  | .getConnection, _, s =>
    match s.connectionPool with
    | [] => (none, s)
    | conn :: rest => (some conn, { s with connectionPool := rest })
  | .releaseConnection conn, _, s => ((), { s with connectionPool := s.connectionPool ++ [conn] })
  | .execute conn st, c, s =>
    let (r, w) := s.world.execute st { c.choice with dbOk := c.choice.dbOk && c.alive conn }
    (r, { s with world := w })
  | .selectOne conn, c, s => (if c.alive conn then .ok true else .error .raised, s)
  | .setPoolSize size, _, s => ((), { s with poolSize := size })
  | .loadPoolSize, _, s => (s.poolSize, s)
  | .getDriver, c, s => (if c.driverOk then .ok () else .error .raised, s)
  | .connect, c, s =>
    if c.connectOk then (.ok s.created, { s with created := s.created + 1 }) else (.error .raised, s)
  | .push conn, _, s => ((), { s with connectionPool := s.connectionPool ++ [conn] })

end DBManager

/-! ## Several threads -/

/-- Where a thread is: before an operation of its own code, or inside `GetConnection` or
`ReleaseConnection`, with the code that follows. -/
inductive PoolLabel
  | running (p : Pooled Unit)
  | waiting (k : Option Connection → Pooled Unit)
  | taking (k : Option Connection → Pooled Unit)
  | returning (conn : Option Connection) (k : Option Connection → Pooled Unit)
  | pushing (conn : Connection) (k : Unit → Pooled Unit)
  | notifying (k : Unit → Pooled Unit)
  | leaving (k : Unit → Pooled Unit)

/-- What the threads share. `held` is no data of the program: it is the connection that a thread has
taken and not given back. -/
structure PoolShared (ι : Type) (P : Platform) where
  manager : PoolWorld P
  held : ι → Option Connection

variable {P : Platform} {ι : Type} [DecidableEq ι]

/-- The instructions of `GetConnection` and `ReleaseConnection`, and the operations between them. -/
def poolCode (i : ι) : PoolLabel → Effect.Instr ι PoolChoice (PoolShared ι P) PoolLabel
  | .running (.pure _) => .halt
  | .running (.call .getConnection k) => .lock (.waiting k)
  | .waiting k => .wait (.taking k)
  | .taking k => .act fun _ s =>
    match s.manager.connectionPool with
    | [] => (.returning none k, s)
    | conn :: rest => (.returning (some conn) k,
      { manager := { s.manager with connectionPool := rest }
        held := Function.update s.held i (some conn) })
  | .returning conn k => .unlock (.running (k conn))
  | .running (.call (.releaseConnection conn) k) => .lock (.pushing conn k)
  | .pushing conn k => .act fun _ s => (.notifying k,
      { manager := { s.manager with connectionPool := s.manager.connectionPool ++ [conn] }
        held := Function.update s.held i none })
  | .notifying k => .notifyOne (.leaving k)
  | .leaving k => .unlock (.running (k ()))
  | .running (.call o k) => .act fun c s =>
    (.running (k (DBManager.handle o c s.manager).1),
      { s with manager := (DBManager.handle o c s.manager).2 })

/-- Threads that use the pool; `GetConnection` waits for it not to be empty. -/
def poolProgram (ι : Type) [DecidableEq ι] (P : Platform) :
    Effect.Program ι PoolChoice (PoolShared ι P) PoolLabel where
  code := poolCode
  pred s := !s.manager.connectionPool.isEmpty

/-- The threads before their first operation. -/
def poolThreads (threads : ι → Pooled Unit) (s : PoolWorld P) :
    Effect.Monitor ι (PoolShared ι P) PoolLabel where
  status i := .ready (.running (threads i))
  owner := none
  shared := ⟨s, fun _ => none⟩

end LiteChat
