import LiteChat.Effect.Journal
import LiteChat.Effect.Runs
import LiteChat.Model.Server
import LiteChat.Proof.DBManager

/-!
# The pool across reconnections

`Reconnect` calls `InitConnectionPool`, which puts new connections into the queue and takes none out.
So there are as many connections, in the queue or checked out, as have ever been made
(`PoolKept.counted`): the pool keeps its size as long as no connection is made after the first
initialisation. One that is made while others are checked out shows as soon as all are back, and the
old ones are handed out again unless all of them were checked out then and none of them is given back
(`KeepsSize`, `keepsPool_run`).
-/

namespace LiteChat

open Pooled DBManager

variable {P : Platform} {α : Type}

/-! ## Connections that are made -/

/-- The call has made a connection. -/
def makes : Effect.Call PoolOp PoolOp.Res → Bool
  | ⟨.connect, .ok _⟩ => true
  | _ => false

/-- Run on these choices, the code makes no connection. -/
def MakesNone (p : Pooled α) (cs : List PoolChoice) (s : PoolWorld P) : Prop :=
  ∀ call ∈ p.calls handle cs s, makes call = false

instance (p : Pooled α) (cs : List PoolChoice) (s : PoolWorld P) : Decidable (MakesNone p cs s) := by
  unfold MakesNone
  infer_instance

theorem created_handle (o : PoolOp) (c : PoolChoice) (s : PoolWorld P)
    (h : makes ⟨o, (handle o c s).1⟩ = false) : (handle o c s).2.created = s.created := by
  cases o with
  | getConnection =>
    simp only [handle]
    split <;> rfl
  | connect =>
    cases hconnect : c.connectOk with
    | false => simp [handle, hconnect]
    | true => simp [handle, hconnect, makes] at h
  | _ => rfl

theorem MakesNone.created {p : Pooled α} {cs : List PoolChoice} {s : PoolWorld P}
    (h : MakesNone p cs s) : (p.run handle cs s).2.created = s.created := by
  induction p generalizing cs s with
  | pure a => rfl
  | call o k ih =>
    have hrest : MakesNone (k (handle o (cs.headD default) s).1) cs.tail
        (handle o (cs.headD default) s).2 := fun call hcall => h call (List.mem_cons_of_mem _ hcall)
    exact (ih _ hrest).trans (created_handle o _ s (h _ List.mem_cons_self))

/-! ## Calls one after the other -/

/-- A call of one of the four functions; `initConnectionPool` is called with the size that the pool
has. -/
inductive PoolCall
  | getConnection
  | releaseConnection (conn : Connection)
  | initConnectionPool
  | reconnect

/-- The pool and the connections that are checked out. `renewed` is no data of the program: it is how
many connections had been made before the last `Reconnect` that returned true. -/
structure PoolUse (P : Platform) where
  manager : PoolWorld P
  out : List Connection
  renewed : Nat

namespace PoolUse

/-- The pool as the first initialisation leaves it. -/
def start (size : Int) (w : World P) (cs : List PoolChoice) : PoolUse P :=
  ⟨((initConnectionPool size).run handle cs (PoolWorld.start w)).2, [], 0⟩

/-- One call. `GetConnection` on an empty queue waits, and nobody gives back what he does not have. -/
def next (s : PoolUse P) : PoolCall × List PoolChoice → PoolUse P
  | (.getConnection, cs) =>
    match getConnection.run handle cs s.manager with
    | (none, _) => s
    | (some conn, t) => { s with manager := t, out := conn :: s.out }
  | (.releaseConnection conn, cs) =>
    if conn ∈ s.out then
      { s with
        manager := ((releaseConnection conn).run handle cs s.manager).2
        out := s.out.erase conn }
    else s
  | (.initConnectionPool, cs) =>
    { s with manager := ((initConnectionPool s.manager.poolSize).run handle cs s.manager).2 }
  | (.reconnect, cs) =>
    { s with
      manager := (reconnect.run handle cs s.manager).2
      renewed := if (reconnect.run handle cs s.manager).1 then s.manager.created else s.renewed }

end PoolUse

/-- With nothing checked out the queue has the size of the pool, and `GetConnection` hands out no
connection from before the last `Reconnect` that returned true. -/
structure KeepsPool (s : PoolUse P) : Prop where
  size : s.out = [] → (s.manager.connectionPool.length : Int) = s.manager.poolSize
  dropped : ∀ cs conn, (getConnection.run handle cs s.manager).1 = some conn → s.renewed ≤ conn

/-- No connection is made by a call that is to fill the pool again, unless others are checked out; for
`Reconnect` those are all others. And of those none from before a `Reconnect` that returned true is
given back, nor the last one of all. -/
def KeepsSize (s : PoolUse P) : PoolCall × List PoolChoice → Prop
  | (.getConnection, _) => True
  | (.releaseConnection conn, _) => conn ∈ s.out → s.renewed ≤ conn ∧
      (s.out = [conn] → (s.manager.created : Int) = s.manager.poolSize)
  | (.initConnectionPool, cs) =>
    MakesNone (initConnectionPool s.manager.poolSize) cs s.manager ∨ s.out ≠ []
  | (.reconnect, cs) =>
    MakesNone reconnect cs s.manager ∨ (s.out ≠ [] ∧ s.manager.connectionPool = [])

instance (s : PoolUse P) (e : PoolCall × List PoolChoice) : Decidable (KeepsSize s e) := by
  unfold KeepsSize
  split <;> infer_instance

/-- Every connection that has been made is in the queue or checked out. -/
structure PoolKept (size : Int) (s : PoolUse P) : Prop where
  counted : s.manager.connectionPool.length + s.out.length = s.manager.created
  poolSize : s.manager.poolSize = size
  first : s.out = [] → (s.manager.created : Int) = size
  renewed : s.renewed ≤ s.manager.created
  fresh : ∀ conn ∈ s.manager.connectionPool, s.renewed ≤ conn

theorem PoolKept.keepsPool {size : Int} {s : PoolUse P} (h : PoolKept size s) : KeepsPool s := by
  constructor
  · intro hout
    have hcounted := h.counted
    rw [hout] at hcounted
    rw [h.poolSize, ← h.first hout]
    exact congrArg Nat.cast hcounted
  · intro cs conn hget
    change (handle .getConnection (cs.headD default) s.manager).1 = some conn at hget
    cases hpool : s.manager.connectionPool with
    | nil => simp [handle, hpool] at hget
    | cons first rest =>
      simp only [handle, hpool] at hget
      obtain rfl := Option.some.inj hget
      exact h.fresh first (hpool ▸ List.mem_cons_self)

/-- What a call that fills the pool again leaves behind, while others are checked out or if it makes
none. -/
theorem PoolKept.refilled {size : Int} {s : PoolUse P} {t : PoolWorld P} {ok : Bool} {renewed : Nat}
    (h : PoolKept size s) (ht : Refilled size s.manager ok t)
    (hfirst : t.created = s.manager.created ∨ s.out ≠ [])
    (hrenewed : renewed ≤ s.manager.created)
    (hfresh : ∀ conn ∈ s.manager.connectionPool, renewed ≤ conn) :
    PoolKept size { s with manager := t, renewed := renewed } := by
  have hcreated := ht.created
  have hcounted := h.counted
  refine ⟨?_, ht.poolSize, fun hout => ?_, hrenewed.trans hcreated, fun conn hconn => ?_⟩
  · show t.connectionPool.length + s.out.length = t.created
    rw [ht.queue.length_eq, List.length_append, List.length_range']
    omega
  · show (t.created : Int) = size
    rw [hfirst.resolve_right (not_not.mpr hout)]
    exact h.first hout
  · rcases List.mem_append.mp (ht.queue.mem_iff.mp hconn) with hconn | hconn
    · exact hfresh conn hconn
    · exact hrenewed.trans (List.mem_range'_1.mp hconn).1

variable {size : Int} {s : PoolUse P}

theorem next_getConnection (s : PoolUse P) (cs : List PoolChoice) :
    s.next (.getConnection, cs) = match handle .getConnection (cs.headD default) s.manager with
      | (none, _) => s
      | (some conn, t) => { s with manager := t, out := conn :: s.out } := rfl

theorem PoolKept.getConnection (h : PoolKept size s) (cs : List PoolChoice) :
    PoolKept size (s.next (.getConnection, cs)) := by
  rw [next_getConnection]
  cases hpool : s.manager.connectionPool with
  | nil => simpa only [handle, hpool] using h
  | cons first rest =>
    simp only [handle, hpool]
    have hcounted := h.counted
    rw [hpool] at hcounted
    refine ⟨?_, h.poolSize, fun hout => absurd hout (List.cons_ne_nil _ _), h.renewed,
      fun conn hconn => ?_⟩
    · show rest.length + (s.out.length + 1) = s.manager.created
      rw [← hcounted, List.length_cons]
      omega
    · exact h.fresh conn (hpool ▸ List.mem_cons_of_mem _ hconn)

theorem PoolKept.releaseConnection (h : PoolKept size s) {conn : Connection} {cs : List PoolChoice}
    (hcond : KeepsSize s (.releaseConnection conn, cs)) :
    PoolKept size (s.next (.releaseConnection conn, cs)) := by
  unfold PoolUse.next
  dsimp only
  split
  · rename_i hout
    obtain ⟨hnew, hlast⟩ := hcond hout
    have hcounted := h.counted
    refine ⟨?_, h.poolSize, fun hempty => ?_, h.renewed, fun other hother => ?_⟩
    · show (s.manager.connectionPool ++ [conn]).length + (s.out.erase conn).length = _
      have hpos := List.length_pos_of_mem hout
      rw [List.length_append, List.length_erase_of_mem hout, List.length_singleton]
      show _ = s.manager.created
      omega
    · -- what is out now is nothing, so it was this one
      have hall : s.out = [conn] := by
        have hperm := List.perm_cons_erase hout
        rw [show s.out.erase conn = [] from hempty] at hperm
        exact List.perm_singleton.mp hperm
      exact (hlast hall).trans h.poolSize
    · rcases List.mem_append.mp hother with hother | hother
      · exact h.fresh other hother
      · exact (List.mem_singleton.mp hother) ▸ hnew
  · exact h

theorem PoolKept.initConnectionPool (h : PoolKept size s) {cs : List PoolChoice}
    (hcond : KeepsSize s (.initConnectionPool, cs)) :
    PoolKept size (s.next (.initConnectionPool, cs)) := by
  have hinit := Effect.Prog.run_of_wp (A := fun _ => True) (Q := fun ok t => Refilled size s.manager ok t)
    trivial (Effect.Prog.wp_mono (wp_initConnectionPool s.manager.poolSize) fun _ _ ht =>
      h.poolSize ▸ ht.1) cs fun _ _ => trivial
  exact h.refilled hinit (hcond.imp MakesNone.created id) h.renewed h.fresh

theorem PoolKept.reconnect (hsize : 1 ≤ size) (h : PoolKept size s) {cs : List PoolChoice}
    (hcond : KeepsSize s (.reconnect, cs)) : PoolKept size (s.next (.reconnect, cs)) := by
  have hreconnect := Effect.Prog.run_of_wp (A := fun _ => True) trivial
    (wp_reconnect (s := s.manager)) cs fun _ _ => trivial
  rw [h.poolSize] at hreconnect
  rcases hcond with hnone | ⟨hout, hempty⟩
  · -- a call that has made no connection has not returned true
    have hcreated := hnone.created
    have hfalse : (DBManager.reconnect.run handle cs s.manager).1 = false := by
      by_contra htrue
      have hfull := (hreconnect.full (by simpa using htrue)).1
      omega
    unfold PoolUse.next
    simp only [hfalse]
    exact h.refilled hreconnect (.inl hcreated) h.renewed h.fresh
  · have hnone : ∀ conn, conn ∉ s.manager.connectionPool := by simp [hempty]
    unfold PoolUse.next
    dsimp only
    refine h.refilled hreconnect (.inr hout) ?_ fun conn hconn => absurd hconn (hnone conn)
    split
    · exact le_rfl
    · exact h.renewed

theorem PoolKept.step (hsize : 1 ≤ size) (h : PoolKept size s) (e : PoolCall × List PoolChoice)
    (hcond : KeepsSize s e) : PoolKept size (s.next e) := by
  obtain ⟨call, cs⟩ := e
  cases call with
  | getConnection => exact h.getConnection cs
  | releaseConnection conn => exact h.releaseConnection hcond
  | initConnectionPool => exact h.initConnectionPool hcond
  | reconnect => exact h.reconnect hsize hcond

theorem poolKept_start {size : Int} {w : World P} {cs : List PoolChoice}
    (hok : ((initConnectionPool size).run handle cs (PoolWorld.start w)).1 = true) :
    1 ≤ size ∧ PoolKept size (PoolUse.start size w cs) := by
  obtain ⟨hfilled, hbound⟩ := Effect.Prog.run_of_wp (A := fun _ => True) trivial
    (wp_initConnectionPool (s := PoolWorld.start w) size) cs fun _ _ => trivial
  obtain ⟨hall, hsome⟩ := hfilled.full hok
  have hlength := hfilled.queue.length_eq
  change _ = ([] ++ List.range' 0 _).length at hlength
  rw [List.nil_append, List.length_range'] at hlength
  have hpos := List.length_pos_of_ne_nil hsome
  change 0 + size.toNat ≤ _ at hall
  change _ ≤ 0 + size.toNat at hbound
  refine ⟨by omega, hlength, hfilled.poolSize, fun _ => ?_, Nat.zero_le _, fun _ _ => Nat.zero_le _⟩
  show (((initConnectionPool size).run handle cs (PoolWorld.start w)).2.created : Int) = size
  omega

/-- **The pool keeps its size and drops old connections**, in any run in which none is made while the
pool has what it needs. The run is any list of calls on a pool that `InitConnectionPool` has filled.
Filling it again takes nothing out, so what the condition excludes is a new connection while the old
ones are still there or will come back. -/
theorem keepsPool_run (size : Int) (w : World P) (cs : List PoolChoice)
    (hok : ((initConnectionPool size).run handle cs (PoolWorld.start w)).1 = true)
    (es : List (PoolCall × List PoolChoice))
    (h : Effect.Meets PoolUse.next KeepsSize (PoolUse.start size w cs) es) :
    KeepsPool (Effect.runAll PoolUse.next (PoolUse.start size w cs) es) := by
  obtain ⟨hsize, hstart⟩ := poolKept_start hok
  exact (Effect.runAll_inv hstart (fun s e hs hcond => hs.step hsize e hcond) h).keepsPool

/-- The only connection is checked out while the pool is filled again, and stays so. -/
def heldForever : List (PoolCall × List PoolChoice) :=
  [(.getConnection, []), (.reconnect, []), (.getConnection, []), (.releaseConnection 1, [])]

theorem keepsPool_heldForever : KeepsPool (Effect.runAll PoolUse.next
    (PoolUse.start 1 (World.start (Database.empty : Database asciiCi)) []) heldForever) :=
  keepsPool_run 1 _ [] rfl heldForever (by decide)

/-- A pool of one connection has two after it has been filled again. -/
theorem not_keepsPool : ¬ ∀ cs es, ((initConnectionPool 1).run handle cs
    (PoolWorld.start (World.start (Database.empty : Database asciiCi)))).1 = true →
    KeepsPool (Effect.runAll PoolUse.next
      (PoolUse.start 1 (World.start (Database.empty : Database asciiCi)) cs) es) := by
  intro h
  exact absurd ((h [] [(.reconnect, [])] rfl).size rfl) (by decide)

end LiteChat
