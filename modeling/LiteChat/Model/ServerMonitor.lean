import LiteChat.Model.Sessions
import LiteChat.Model.ThreadPool
import Mathlib.Algebra.Order.Ring.Rat
import Mathlib.Order.Monotone.Basic

/-!
# `ServerMonitor`

What the monitor reports once a minute: the numbers it asks the session manager, the counter and the
thread pool for, and what `ValidateConnection` says of the database. The report is the record that
`CollectStatus` writes to the log as an object.

A share of threads is a `double`: the quotient of two `int`s, which a `double` holds exactly, rounded to the
nearest one. Of the rounding no more is assumed than is true in every rounding mode (`Rounding`).
-/

namespace LiteChat

/-- `GetOnlineUserCount`. -/
def SessionManager.getOnlineUserCount (m : SessionManager) : Int := m.usernameToSocket.entries.length

/-- How a division of `double`s rounds: the order is kept, and what needs no rounding stays. -/
structure Rounding where
  round : Rat → Rat
  monotone : Monotone round
  zero : round 0 = 0
  one : round 1 = 1

/-- `GetThreadPoolUsage`. -/
def ThreadPool.getThreadPoolUsage {n : Nat} {κ σ τ : Type} (fl : Rounding) (s : TaskPool n κ σ τ) : Rat :=
  if n = 0 then 0 else fl.round (s.activeThreads / n)

namespace ServerMonitor

structure Status where
  onlineUsers : Int
  connections : Int
  threadPoolUsage : Rat
  dbStatus : Str

/-- Each part that the monitor was made without has a value of its own. -/
def collectStatus {n : Nat} {κ σ τ : Type} (fl : Rounding) (sessionManager : Option SessionManager)
    (currentConnections : Option Int) (threadPool : Option (TaskPool n κ σ τ))
    (validateConnection : Option Bool) : Status where
  onlineUsers := (sessionManager.map (·.getOnlineUserCount)).getD 0
  connections := currentConnections.getD 0
  threadPoolUsage := (threadPool.map (ThreadPool.getThreadPoolUsage fl)).getD 0
  dbStatus :=
    match validateConnection with
    | none => bytes "unknown"
    | some true => bytes "normal"
    | some false => bytes "error"

end ServerMonitor

end LiteChat
