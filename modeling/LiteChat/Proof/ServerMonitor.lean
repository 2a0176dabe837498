import LiteChat.Model.ServerMonitor
import LiteChat.Proof.Heartbeat
import LiteChat.Proof.Presence
import LiteChat.Proof.Resources
import LiteChat.Proof.Shutdown
import Mathlib.Algebra.Order.Field.Basic
import Mathlib.Algebra.Order.Field.Rat
import Mathlib.Tactic.Positivity

/-!
# What the monitor reports

`GetOnlineUserCount` counts routes, not sessions and not flags. While routes are sound and complete the
routed names are the names that are logged in, one for each session that somebody is logged in on, and
while the flags agree with the sessions they are the names of the rows that are marked as online. Then the
three numbers are one (`report_run`), and it is at most the number of connections.
-/

namespace LiteChat

open LiteChat.Action Effect Server ServerMonitor

variable {P : Platform} {w : World P}

/-! ## Three lists of names -/

/-- The names that have a route. -/
theorem mem_routed {m : SessionManager} {u : Str} :
    u ∈ m.usernameToSocket.keys ↔ ∃ c, m.route u = some c := by
  refine AList.lookup_isSome.symm.trans ?_
  exact Option.isSome_iff_exists

/-- The descriptors of the sessions that somebody is logged in on. -/
def SessionManager.loggedIn (m : SessionManager) : List Socket := m.those fun s => s.username ≠ []

theorem SessionManager.mem_loggedIn {m : SessionManager} {c : Socket} :
    c ∈ m.loggedIn ↔ ∃ u, m.logins.At c u := by
  unfold SessionManager.loggedIn
  rw [mem_those]
  constructor
  · intro h
    obtain ⟨s, hs, hne⟩ := h
    refine ⟨s.username, SessionManager.at_iff.mpr ⟨?_, of_decide_eq_true hne⟩⟩
    unfold SessionManager.loginAt
    rw [hs]
    rfl
  · intro h
    obtain ⟨u, hu⟩ := h
    obtain ⟨hlogin, hne⟩ := SessionManager.at_iff.mp hu
    obtain ⟨s, hs, rfl⟩ := Option.map_eq_some_iff.mp hlogin
    exact ⟨s, hs, decide_eq_true hne⟩

/-- Lists without repetitions that have the same members are of one length. -/
theorem length_eq_of_mem {α : Type} {l l' : List α} (hl : l.Nodup) (hl' : l'.Nodup)
    (h : ∀ a, a ∈ l ↔ a ∈ l') : l.length = l'.length :=
  ((List.perm_ext_iff_of_nodup hl hl').mpr h).length_eq

theorem Presence.mem_routed (h : Presence w) {u : Str} :
    u ∈ w.sessions.usernameToSocket.keys ↔ ∃ c, w.sessions.logins.At c u := by
  rw [LiteChat.mem_routed]
  constructor
  · intro hu
    obtain ⟨c, hc⟩ := hu
    exact ⟨c, h.routing.sound u c hc⟩
  · intro hu
    obtain ⟨c, hc⟩ := hu
    exact ⟨c, h.complete u c hc⟩

/-- There are as many routes as sessions that somebody is logged in on. -/
theorem Presence.length_loggedIn (h : Presence w) :
    w.sessions.usernameToSocket.keys.length = w.sessions.loggedIn.length := by
  have hname : ∀ {c : Socket} {u : Str}, w.sessions.logins.At c u →
      (w.sessions.loginAt c).getD [] = u := by
    intro c u hat
    rw [(SessionManager.at_iff.mp hat).1]
    rfl
  have hnodup : (w.sessions.loggedIn.map fun c => (w.sessions.loginAt c).getD []).Nodup := by
    refine List.Nodup.map_on (fun c hc d hd hcd => ?_) (w.sessions.cliSessionMap.nodupKeys.filter _)
    obtain ⟨u, hu⟩ := SessionManager.mem_loggedIn.mp hc
    obtain ⟨v, hv⟩ := SessionManager.mem_loggedIn.mp hd
    rw [hname hu, hname hv] at hcd
    exact h.complete.unique hu (hcd ▸ hv)
  have hmem : ∀ u, u ∈ w.sessions.usernameToSocket.keys ↔
      u ∈ w.sessions.loggedIn.map fun c => (w.sessions.loginAt c).getD [] := by
    intro u
    rw [h.mem_routed, List.mem_map]
    constructor
    · intro hu
      obtain ⟨c, hc⟩ := hu
      exact ⟨c, SessionManager.mem_loggedIn.mpr ⟨u, hc⟩, hname hc⟩
    · intro hu
      obtain ⟨c, hc, hcu⟩ := hu
      obtain ⟨v, hv⟩ := SessionManager.mem_loggedIn.mp hc
      rw [hname hv] at hcu
      exact ⟨c, hcu ▸ hv⟩
  rw [length_eq_of_mem (AList.keys_nodup _) hnodup hmem, List.length_map]

/-- There are as many routes as rows that are marked as online. -/
theorem Presence.length_online (h : Presence w) :
    w.sessions.usernameToSocket.keys.length = (w.db.users.filter (·.isOnline)).length := by
  have hnames : (w.db.users.map (·.username)).Nodup := by
    refine List.Nodup.of_map P.weight ?_
    rw [List.map_map]
    exact w.db.users_name
  have hnodup : ((w.db.users.filter (·.isOnline)).map (·.username)).Nodup :=
    hnames.sublist (List.filter_sublist.map _)
  have hmem : ∀ u, u ∈ w.sessions.usernameToSocket.keys ↔
      u ∈ (w.db.users.filter (·.isOnline)).map (·.username) := by
    intro u
    rw [h.mem_routed, List.mem_map]
    constructor
    · intro hu
      obtain ⟨c, hc⟩ := hu
      obtain ⟨r, hr, rfl⟩ := h.stored c u hc
      exact ⟨r, List.mem_filter.mpr ⟨hr, (h.agrees r hr).mpr ⟨c, hc⟩⟩, rfl⟩
    · intro hu
      obtain ⟨r, hr, rfl⟩ := hu
      obtain ⟨hr, honline⟩ := List.mem_filter.mp hr
      exact (h.agrees r hr).mp honline
  rw [length_eq_of_mem (AList.keys_nodup _) hnodup hmem, List.length_map]

/-! ## The report -/

variable {n : Nat} {κ ω χ σ τ : Type} {Res : ω → Type}

/-- The share of the workers that are at a task. -/
def busyShare (s : Monitor (PoolThread n κ) (TaskPool n κ σ τ) (TaskLabel κ ω Res τ)) : Rat :=
  (working s.labels).card / n

/-- The usage is that share, rounded, and rounding does not take it out of its bounds. -/
theorem TasksInOrder.usage {s : Monitor (PoolThread n κ) (TaskPool n κ σ τ) (TaskLabel κ ω Res τ)}
    (h : TasksInOrder s) (fl : Rounding) :
    ThreadPool.getThreadPoolUsage fl s.shared = fl.round (busyShare s) ∧
      0 ≤ ThreadPool.getThreadPoolUsage fl s.shared ∧ ThreadPool.getThreadPoolUsage fl s.shared ≤ 1 := by
  obtain ⟨hlow, hhigh⟩ := h.bounds
  rw [h.active] at hlow hhigh
  have hlower : 0 ≤ busyShare s := by
    unfold busyShare
    positivity
  have hupper : busyShare s ≤ 1 := by
    refine div_le_one_of_le₀ ?_ (Nat.cast_nonneg n)
    exact_mod_cast hhigh
  have husage : ThreadPool.getThreadPoolUsage fl s.shared = fl.round (busyShare s) := by
    unfold ThreadPool.getThreadPoolUsage busyShare
    rw [h.active]
    by_cases hn : n = 0
    · -- the test of the source for a pool without threads is for the sake of the division
      subst hn
      rw [if_pos rfl, Nat.cast_zero, div_zero, fl.zero]
    · rw [if_neg hn, Int.cast_natCast]
  rw [husage]
  refine ⟨rfl, ?_, ?_⟩
  · rw [← fl.zero]
    exact fl.monotone hlower
  · rw [← fl.one]
    exact fl.monotone hupper

/-- The report is what is there: users are online, logged in and routed to alike, connections are
sessions, and a share of the workers is busy. -/
structure Truthful (fl : Rounding) (w : World P)
    (s : Monitor (PoolThread n κ) (TaskPool n κ σ τ) (TaskLabel κ ω Res τ)) (status : Status) : Prop where
  online : status.onlineUsers = (w.db.users.filter (·.isOnline)).length
  loggedIn : status.onlineUsers = w.sessions.loggedIn.length
  connections : status.connections = w.sessions.count
  fits : status.onlineUsers ≤ status.connections ∧ status.connections ≤ maxConnections
  busy : status.threadPoolUsage = fl.round (busyShare s)
  share : 0 ≤ status.threadPoolUsage ∧ status.threadPoolUsage ≤ 1

/-- **The monitor tells the truth** after any run of events that keeps flags and sessions together, and of
a pool at any time: what it calls online users are the users that are marked as online, and the sessions
that somebody is logged in on; there are at most as many as connections, and of these at most
`maxConnections`; and the usage of the pool is the share of its workers that are at a task, as it is
rounded. -/
theorem report_run [Fintype κ] [DecidableEq κ] (fl : Rounding) (db : Database P)
    (hoffline : ∀ r ∈ db.users, r.isOnline = false)
    (es : List (Event × List Choice))
    (h : Meets next (fun w e => NoDbFailure e ∧ KeepsPresence w e.1) (World.start db) es)
    (T : Tasks ω Res χ σ τ) (clients : κ → TaskCode ω Res τ) (ks : List κ) (queue : List τ)
    (stop : Bool) (y : σ) (ticks : List (Tick (PoolThread n κ) χ)) (validateConnection : Option Bool) :
    Truthful fl (runAll next (World.start db) es)
      (runPool T clients ks (ThreadPool.create queue stop y) ticks)
      (collectStatus fl (some (runAll next (World.start db) es).sessions)
        (some (runAll next (World.start db) es).currentConnections)
        (some (runPool T clients ks (ThreadPool.create queue stop y) ticks).shared)
        validateConnection) := by
  have hpresence : Presence (runAll next (World.start db) es) := presence_run hoffline h
  have htidy := tidy_run db es
  have husage := (taskPoolInv_run T clients ks queue stop y ticks).inOrder.usage fl
  -- the manager counts routes, and in these runs there is one for each name that is logged in
  have hroutes : ∀ m : SessionManager, m.getOnlineUserCount = m.usernameToSocket.keys.length := by
    intro m
    unfold SessionManager.getOnlineUserCount
    exact congrArg Nat.cast (List.length_map _).symm
  have hkeys : ∀ m : SessionManager, m.loggedIn.length ≤ m.count := by
    intro m
    refine (List.length_filter_le _ _).trans (le_of_eq ?_)
    exact List.length_map _
  refine ⟨?_, ?_, htidy.counted, ⟨?_, ?_⟩, husage.1, husage.2⟩
  · exact (hroutes _).trans (congrArg Nat.cast hpresence.length_online)
  · exact (hroutes _).trans (congrArg Nat.cast hpresence.length_loggedIn)
  · show SessionManager.getOnlineUserCount _ ≤ (runAll next (World.start db) es).currentConnections
    rw [hroutes, hpresence.length_loggedIn, htidy.counted]
    exact Int.ofNat_le.mpr (hkeys _)
  · show (runAll next (World.start db) es).currentConnections ≤ maxConnections
    rw [htidy.counted]
    exact htidy.bounded

/-- The one worker of a pool takes its one task. -/
def taskTaken : Monitor (PoolThread 1 (Fin 0)) (TaskPool 1 (Fin 0) Unit Unit)
    (TaskLabel (Fin 0) Empty (fun _ => Unit) Unit) :=
  runPool idle Fin.elim0 [] (ThreadPool.create [()] false ())
    (List.replicate 4 (.step (.worker ⟨0, Nat.one_pos⟩) () none))

/-- Nothing is rounded. -/
def exactly : Rounding := ⟨id, monotone_id, rfl, rfl⟩

/-- Alice is logged in, and the pool is busy. -/
theorem report_alice : Truthful exactly (runAll next (World.start (Database.empty : Database asciiCi))
      (aliceRegisters ++ [aliceLogsIn])) taskTaken
    (collectStatus exactly
      (some (runAll next (World.start (Database.empty : Database asciiCi))
        (aliceRegisters ++ [aliceLogsIn])).sessions)
      (some (runAll next (World.start (Database.empty : Database asciiCi))
        (aliceRegisters ++ [aliceLogsIn])).currentConnections)
      (some taskTaken.shared) (some true)) :=
  report_run exactly _ (fun r hr => absurd hr (by simp [Database.empty])) _ meets_aliceLogsIn idle
    Fin.elim0 [] [()] false () _ (some true)

end LiteChat
