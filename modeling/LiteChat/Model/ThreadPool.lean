import LiteChat.Effect.Monitor
import LiteChat.Effect.Prog
import Mathlib.Data.Fintype.Sum
import Mathlib.Tactic.DeriveFintype

/-!
# `ThreadPool`

The workers of the pool, the threads that submit tasks, and the thread that destroys the pool, around
`queueMutex` and `condition`. What a task does is a parameter (`Tasks`): code over operations on some
state, which may also submit tasks. The queue, the flag and the counter are the pool's own.

A worker's critical section is three steps, for its three statements: the wait, the check, and the
taking of a task with the count. `stop` is written outside the mutex, as is `activeThreads` when a task
has ended.
-/

namespace LiteChat

/-- What the code of a task calls. -/
inductive TaskOp (ω τ : Type) : Type
  | perform (o : ω)
  | submitTask (task : τ)

def TaskOp.Res {ω τ : Type} (Res : ω → Type) : TaskOp ω τ → Type
  | .perform o => Res o
  | .submitTask _ => Unit

abbrev TaskCode (ω : Type) (Res : ω → Type) (τ : Type) : Type :=
  Effect.Prog (TaskOp ω τ) (TaskOp.Res Res) Unit

/-- The tasks of a pool: what their operations do, and the code of each. -/
structure Tasks (ω : Type) (Res : ω → Type) (χ σ τ : Type) : Type where
  handle : Effect.Handler ω Res χ σ
  body : τ → TaskCode ω Res τ

/-- The workers of a pool, those who submit tasks, and the one who destroys the pool. -/
inductive PoolThread (n : Nat) (κ : Type) : Type
  | worker (i : Fin n)
  | client (k : κ)
  | owner
  deriving DecidableEq, Fintype

/-- Where a thread is. A worker runs its task with the number of the task, in the order in which they
are taken; a client runs its own code with none. -/
inductive TaskLabel (κ ω : Type) (Res : ω → Type) (τ : Type) : Type
  | looping
  | waiting
  | checking
  | taking
  | entering (ticket : Nat) (task : τ)
  | exiting
  | returned
  | running (ticket : Option Nat) (p : TaskCode ω Res τ)
  | pushing (ticket : Option Nat) (task : τ) (k : Unit → TaskCode ω Res τ)
  | pushed (ticket : Option Nat) (k : Unit → TaskCode ω Res τ)
  | notifying (ticket : Option Nat) (k : Unit → TaskCode ω Res τ)
  | awaiting (ks : List κ)
  | waking
  | joining (i : Nat)

/-- The pool, over the state that the tasks work on. The last three are no data of the program: the
tasks that have been submitted, those that have been taken and who took them, and the numbers of those
that have been executed. -/
structure TaskPool (n : Nat) (κ σ τ : Type) : Type where
  taskQueue : List τ
  stop : Bool
  activeThreads : Int
  undefined : Bool
  user : σ
  submitted : List τ
  taken : List (PoolThread n κ × τ)
  executed : List Nat

namespace ThreadPool

variable {n : Nat} {κ ω χ σ τ : Type} {Res : ω → Type}

/-- The pool as the constructor leaves it, but for the queue and the flag. -/
def create (queue : List τ) (stop : Bool) (x : σ) : TaskPool n κ σ τ :=
  ⟨queue, stop, 0, false, x, queue, [], []⟩

/-- The check of a worker that has been let through. -/
def stopped (s : TaskPool n κ σ τ) : Bool := s.stop && s.taskQueue.isEmpty

/-- A task is moved out of the queue and counted. -/
def takeTask (t : PoolThread n κ) (s : TaskPool n κ σ τ) :
    TaskLabel κ ω Res τ × TaskPool n κ σ τ :=
  match s.taskQueue with
  | [] => (.exiting, { s with undefined := true })
  | task :: tasks => (.entering s.taken.length task,
    { s with
      taskQueue := tasks
      activeThreads := s.activeThreads + 1
      taken := s.taken ++ [(t, task)] })

def pushTask (task : τ) (s : TaskPool n κ σ τ) : TaskPool n κ σ τ :=
  { s with taskQueue := s.taskQueue ++ [task], submitted := s.submitted ++ [task] }

/-- A task has ended. -/
def endTask (ticket : Nat) (s : TaskPool n κ σ τ) : TaskPool n κ σ τ :=
  { s with activeThreads := s.activeThreads - 1, executed := s.executed ++ [ticket] }

/-- The loop of the destructor over its workers. -/
def joinWorkers (i : Nat) :
    Effect.Instr (PoolThread n κ) χ (TaskPool n κ σ τ) (TaskLabel κ ω Res τ) :=
  if h : i < n then .join (.worker ⟨i, h⟩) (.joining (i + 1)) else .halt

/-- The instructions of `WorkerThread`, of `SubmitTask` and of the destructor, with those of the tasks
between them. -/
def code (T : Tasks ω Res χ σ τ) (t : PoolThread n κ) : TaskLabel κ ω Res τ →
    Effect.Instr (PoolThread n κ) χ (TaskPool n κ σ τ) (TaskLabel κ ω Res τ)
  | .looping => .lock .waiting
  | .waiting => .wait .checking
  | .checking => .act fun _ s => (if stopped s then .exiting else .taking, s)
  | .exiting => .unlock .returned
  | .returned => .halt
  | .taking => .act fun _ s => takeTask t s
  | .entering ticket task => .unlock (.running (some ticket) (T.body task))
  | .running ticket (.call (.perform o) k) => .act fun c s =>
    (.running ticket (k (T.handle o c s.user).1), { s with user := (T.handle o c s.user).2 })
  | .running (some ticket) (.pure _) => .act fun _ s => (.looping, endTask ticket s)
  | .running none (.pure _) => .halt
  -- `SubmitTask`
  | .running ticket (.call (.submitTask task) k) => .lock (.pushing ticket task k)
  | .pushing ticket task k => .act fun _ s => (.pushed ticket k, pushTask task s)
  | .pushed ticket k => .unlock (.notifying ticket k)
  | .notifying ticket k => .notifyOne (.running ticket (k ()))
  -- the threads that use the pool have ended when it is destroyed
  | .awaiting (k :: ks) => .join (.client k) (.awaiting ks)
  | .awaiting [] => .act fun _ s => (.waking, { s with stop := true })
  | .waking => .notifyAll (.joining 0)
  | .joining i => joinWorkers i

def program (T : Tasks ω Res χ σ τ) (n : Nat) (κ : Type) :
    Effect.Program (PoolThread n κ) χ (TaskPool n κ σ τ) (TaskLabel κ ω Res τ) where
  code := code T
  pred s := s.stop || !s.taskQueue.isEmpty

/-- The threads before their first step; the owner of the pool awaits the clients `ks` before he
destroys it. -/
def threads (clients : κ → TaskCode ω Res τ) (ks : List κ) (s : TaskPool n κ σ τ) :
    Effect.Monitor (PoolThread n κ) (TaskPool n κ σ τ) (TaskLabel κ ω Res τ) where
  status
    | .worker _ => .ready .looping
    | .client k => .ready (.running none (clients k))
    | .owner => .ready (.awaiting ks)
  owner := none
  shared := s

end ThreadPool

end LiteChat
