import LiteChat.Model.Server
import LiteChat.Model.ThreadPool

/-!
# The accept loop and the thread pool

`AcceptConnections` with what `Model/Server.lean` leaves out of it: each connection that is admitted is
submitted to the pool as a task, and the task is `HandleClient`, from the connection's first request to
its end. Without the submissions it is the code there (`withoutSubmits_acceptAndSubmit`).

`main` joins the thread of the accept loop, and `Stop` that of the heartbeat check, before the pool is
destroyed.
-/

namespace LiteChat

variable {ω τ α : Type} {Res : ω → Type}

namespace TaskCode

/-- Code that submits no tasks, as the code of a task. -/
def lift : Effect.Prog ω Res α → Effect.Prog (TaskOp ω τ) (TaskOp.Res Res) α
  | .pure a => .pure a
  | .call o k => .call (.perform o) fun r => lift (k r)

def submitTask (task : τ) : Effect.Prog (TaskOp ω τ) (TaskOp.Res Res) Unit :=
  Effect.Prog.op (TaskOp.submitTask task)

/-- The code without the tasks it submits. -/
def withoutSubmits : Effect.Prog (TaskOp ω τ) (TaskOp.Res Res) α → Effect.Prog ω Res α
  | .pure a => .pure a
  | .call (.perform o) k => .call o fun r => withoutSubmits (k r)
  | .call (.submitTask _) k => withoutSubmits (k ())

end TaskCode

open TaskCode

/-- A connection that `accept` returns, with what `ReceiveData` returns on it. -/
structure Incoming where
  clientSocket : Socket
  received : List (Option Json)

/-- The threads beside the pool. -/
inductive Beside
  | accepting
  | checking
  deriving DecidableEq

instance : Fintype Beside := ⟨{.accepting, .checking}, fun b => by cases b <;> decide⟩

/-- The code of the server's tasks, and of the accept loop. -/
abbrev ServerTask (α : Type) : Type := Effect.Prog (TaskOp Op Incoming) (TaskOp.Res Op.Res) α

namespace Server

open LiteChat.Action

variable (P : Platform)

/-- `ThreadPool(10)`. -/
abbrev threadCount : Nat := 10

/-- The tasks of the server's pool. -/
def clientTasks : Tasks Op Op.Res Choice (World P) Incoming where
  handle := World.handle
  body task := lift (handleClient P task.clientSocket task.received)

/-- `AcceptConnections`, with the tasks it submits. -/
def acceptAndSubmit : List Incoming → ServerTask Unit
  | [] => pure ()
  | task :: tasks => do
    lift (accept task.clientSocket)
    if maxConnections ≤ (← lift loadConnections) then
      let _ ← lift (sendData task.clientSocket busy)
      lift (close task.clientSocket)
    else
      lift (addSession task.clientSocket)
      lift (addConnections 1)
      submitTask task
    acceptAndSubmit tasks

/-- The threads beside the pool, for these connections and so many rounds of the heartbeat check. -/
def besides (tasks : List Incoming) (rounds : Nat) : Beside → ServerTask Unit
  | .accepting => acceptAndSubmit tasks
  | .checking => lift (heartbeatCheckThread rounds)

variable {P}

/-- The pool of a server that has just started, and what uses it. -/
def serveAll (w : World P) (tasks : List Incoming) (rounds : Nat)
    (es : List (Effect.Tick (PoolThread threadCount Beside) Choice)) :
    Effect.Monitor (PoolThread threadCount Beside) (TaskPool threadCount Beside (World P) Incoming)
      (TaskLabel Beside Op Op.Res Incoming) :=
  Effect.runAll (Effect.Monitor.next (ThreadPool.program (clientTasks P) threadCount Beside))
    (ThreadPool.threads (besides tasks rounds) [.accepting, .checking]
      (ThreadPool.create [] false w)) es

end Server

end LiteChat
