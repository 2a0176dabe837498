import LiteChat.Effect.Signals
import LiteChat.Model.Server
import LiteChat.Proof.DBManager
import Mathlib.Data.Fintype.Basic

/-!
# Connections are lent to one thread each

`Borrows` says of the code of a thread that it takes a connection only when it has none, works only with
the one it has, and has given it back when it ends. DAO functions and `ValidateConnection` do so, and so
does any sequence of them (`Calls.borrows`).

So in every interleaving each connection is in the queue or with one thread (`LentOnce`). And there is
no deadlock: if nobody can make a step then nobody holds the mutex, every thread that has not ended
waits for a connection and so has none, and the queue is empty, since nobody has been told of anything
in it. Then the connections would be nowhere.
-/

namespace LiteChat

open Pooled DBManager

variable {P : Platform} {ι α β : Type}

/-! ## What a thread borrows -/

/-- The code takes a connection when it has none, works with the one it has, and ends with none;
`held` is the one it has. -/
def Borrows : Pooled α → Option Connection → Prop
  | .pure _, held => held = none
  | .call .getConnection k, held => held = none ∧ ∀ conn, Borrows (k conn) conn
  | .call (.releaseConnection conn) k, held => held = some conn ∧ Borrows (k ()) none
  | .call (.execute conn _) k, held => held = some conn ∧ ∀ r, Borrows (k r) held
  | .call (.selectOne conn) k, held => held = some conn ∧ ∀ r, Borrows (k r) held
  | .call _ _, _ => False

theorem Borrows.bind {p : Pooled α} {f : α → Pooled β} {held : Option Connection}
    (hp : Borrows p held) (hf : ∀ a, Borrows (f a) none) : Borrows (p >>= f) held := by
  show Borrows (p.bind f) held
  induction p generalizing held with
  | pure a =>
    obtain rfl : held = none := hp
    exact hf a
  | call o k ih =>
    cases o with
    | getConnection => exact ⟨hp.1, fun conn => ih conn (hp.2 conn)⟩
    | releaseConnection conn => exact ⟨hp.1, ih () hp.2⟩
    | execute conn st => exact ⟨hp.1, fun r => ih r (hp.2 r)⟩
    | selectOne conn => exact ⟨hp.1, fun r => ih r (hp.2 r)⟩
    | _ => exact hp.elim

/-- **A DAO function borrows**, whatever its statement does: it takes one connection, and returns that
one before it ends, also when the statement throws. -/
theorem borrows_withConnection (st : Stmt) (f : st.Res → α) (failed : α) :
    Borrows (withConnection st f failed) none := by
  refine ⟨rfl, fun conn => ?_⟩
  cases conn with
  | none => exact rfl
  | some conn =>
    refine ⟨rfl, fun r => ⟨rfl, ?_⟩⟩
    cases r <;> exact rfl

theorem borrows_validateConnection : Borrows validateConnection none := by
  refine ⟨rfl, fun conn => ?_⟩
  cases conn with
  | none => exact rfl
  | some conn =>
    refine ⟨rfl, fun r => ⟨rfl, ?_⟩⟩
    cases r <;> exact rfl

/-- A sequence of calls of DAO functions and of `ValidateConnection`; each may depend on what the ones
before it have answered. -/
inductive Calls : Pooled Unit → Prop
  | done : Calls (pure ())
  | dao (α : Type) (st : Stmt) (f : st.Res → α) (failed : α) (k : α → Pooled Unit)
      (h : ∀ a, Calls (k a)) : Calls (withConnection st f failed >>= k)
  | validate (k : Bool → Pooled Unit) (h : ∀ valid, Calls (k valid)) : Calls (validateConnection >>= k)

theorem Calls.borrows {p : Pooled Unit} (h : Calls p) : Borrows p none := by
  induction h with
  | done => exact rfl
  | dao α st f failed k _ ih => exact (borrows_withConnection st f failed).bind ih
  | validate k _ ih => exact borrows_validateConnection.bind ih

/-- At this label a thread that has `held` will borrow. -/
def Lends : PoolLabel → Option Connection → Prop
  | .running p, held => Borrows p held
  | .waiting k, held | .taking k, held => held = none ∧ ∀ conn, Borrows (k conn) conn
  | .returning conn k, held => held = conn ∧ Borrows (k conn) conn
  | .pushing conn k, held => held = some conn ∧ Borrows (k ()) none
  | .notifying k, held | .leaving k, held => held = none ∧ Borrows (k ()) none

/-! ## Where the connections are -/

/-- Each of the `n` connections is in the queue, once, or held by one thread. -/
structure LentOnce (n : Nat) (queue : List Connection) (held : ι → Option Connection) : Prop where
  queued : queue.Nodup
  found : ∀ conn, conn < n ↔ conn ∈ queue ∨ ∃ i, held i = some conn
  apart : ∀ conn i, held i = some conn → conn ∉ queue
  once : ∀ conn i j, held i = some conn → held j = some conn → i = j

variable [DecidableEq ι] {n : Nat} {queue : List Connection} {held : ι → Option Connection}
  {conn : Connection} {i : ι}

/-- A thread that has no connection takes the first of the queue. It was with nobody, since what is
queued is with nobody, and nobody else can get it then. -/
theorem LentOnce.take (h : LentOnce n (conn :: queue) held) (hi : held i = none) :
    LentOnce n queue (Function.update held i (some conn)) := by
  obtain ⟨hnew, hqueued⟩ := List.nodup_cons.mp h.queued
  -- who has which connection now
  have hupdate : ∀ j c, Function.update held i (some conn) j = some c ↔
      (j = i ∧ c = conn) ∨ (held j = some c) := by
    intro j c
    by_cases hj : j = i
    · subst hj
      simp [hi, eq_comm]
    · simp [hj]
  refine ⟨hqueued, fun c => ?_, fun c j hj => ?_, fun c j k hj hk => ?_⟩
  · rw [h.found c, List.mem_cons]
    constructor
    · rintro ((rfl | hc) | ⟨j, hj⟩)
      · exact .inr ⟨i, (hupdate i c).mpr (.inl ⟨rfl, rfl⟩)⟩
      · exact .inl hc
      · exact .inr ⟨j, (hupdate j c).mpr (.inr hj)⟩
    · rintro (hc | ⟨j, hj⟩)
      · exact .inl (.inr hc)
      · rcases (hupdate j c).mp hj with ⟨_, rfl⟩ | hj
        · exact .inl (.inl rfl)
        · exact .inr ⟨j, hj⟩
  · rcases (hupdate j c).mp hj with ⟨_, rfl⟩ | hj
    · exact hnew
    · exact fun hc => h.apart c j hj (List.mem_cons_of_mem _ hc)
  · have hnone : ∀ {j}, held j ≠ some conn := fun hj => h.apart conn _ hj List.mem_cons_self
    rcases (hupdate j c).mp hj with ⟨rfl, rfl⟩ | hj'
    · rcases (hupdate k c).mp hk with ⟨rfl, _⟩ | hk'
      · rfl
      · exact absurd hk' hnone
    · rcases (hupdate k c).mp hk with ⟨_, rfl⟩ | hk'
      · exact absurd hj' hnone
      · exact h.once c j k hj' hk'

theorem LentOnce.giveBack (h : LentOnce n queue held) (hi : held i = some conn) :
    LentOnce n (queue ++ [conn]) (Function.update held i none) := by
  have hupdate : ∀ j c, Function.update held i none j = some c ↔ j ≠ i ∧ held j = some c := by
    intro j c
    by_cases hj : j = i
    · subst hj
      simp
    · simp [hj]
  have hmem : ∀ c, c ∈ queue ++ [conn] ↔ c ∈ queue ∨ c = conn := fun c => by simp
  refine ⟨?_, fun c => ?_, fun c j hj hc => ?_, fun c j k hj hk => ?_⟩
  · exact h.queued.append (List.nodup_singleton conn)
      (List.disjoint_singleton.mpr (h.apart conn i hi))
  · rw [h.found c, hmem]
    constructor
    · rintro (hc | ⟨j, hj⟩)
      · exact .inl (.inl hc)
      · by_cases hji : j = i
        · subst hji
          exact .inl (.inr (Option.some.inj (hj.symm.trans hi)))
        · exact .inr ⟨j, (hupdate j c).mpr ⟨hji, hj⟩⟩
    · rintro ((hc | rfl) | ⟨j, hj⟩)
      · exact .inl hc
      · exact .inr ⟨i, hi⟩
      · exact .inr ⟨j, ((hupdate j c).mp hj).2⟩
  · obtain ⟨hji, hj⟩ := (hupdate j c).mp hj
    rcases (hmem c).mp hc with hc | rfl
    · exact h.apart c j hj hc
    · exact hji (h.once c j i hj hi)
  · exact h.once c j k ((hupdate j c).mp hj).2 ((hupdate k c).mp hk).2

/-! ## The code of the threads -/

/-- The mutex is held inside `GetConnection` and `ReleaseConnection`. -/
def PoolLabel.locked : PoolLabel → Bool
  | .running _ => false
  | _ => true

/-- The thread looks whether there is a connection, or tells somebody of one. -/
def PoolLabel.credit : PoolLabel → Bool
  | .waiting _ | .taking _ | .notifying _ => true
  | _ => false

theorem locks_poolProgram : Effect.Locks (poolProgram ι P) fun _ => PoolLabel.locked := by
  intro i l
  cases l with
  | running p =>
    cases p with
    | pure => exact rfl
    | call o k => cases o <;> first | exact ⟨rfl, rfl⟩ | exact fun _ _ => rfl
  | waiting | returning | leaving => exact ⟨rfl, rfl⟩
  | taking k =>
    intro c x
    dsimp only
    split <;> rfl
  | pushing => exact fun _ _ => rfl
  | notifying => exact rfl

/-- Who returns a connection tells somebody, and who takes one has been told of it or was faster. -/
theorem signals_poolProgram : Effect.Signals (poolProgram ι P) (fun _ l => ∃ held, Lends l held)
    (fun _ => PoolLabel.locked) (fun s => s.manager.connectionPool.length)
    (fun _ => PoolLabel.credit) where
  pred x h := by simpa [poolProgram] using h
  code i l hlends := by
    obtain ⟨held, hlends⟩ := hlends
    cases l with
    | running p =>
      cases p with
      | pure => exact rfl
      | call o k =>
        cases o with
        | getConnection | releaseConnection => exact fun h => nomatch h
        | execute | selectOne => exact fun _ _ => ⟨fun _ => rfl, .inl le_rfl⟩
        | _ => exact hlends.elim
    | waiting => exact ⟨rfl, rfl⟩
    | taking k =>
      intro c x
      refine ⟨nofun, ?_⟩
      dsimp only
      split
      · exact .inr (by simp [*])
      · exact .inl (by simp [PoolLabel.credit, *])
    | returning | leaving => exact fun h => nomatch h
    | pushing =>
      intro c x
      exact ⟨nofun, .inl (by simp [PoolLabel.credit])⟩
    | notifying => exact trivial

theorem Lends.leads {l next : PoolLabel} {held : Option Connection} {pred : PoolShared ι P → Bool}
    {ended : ι → Bool} {x : PoolShared ι P} (h : Lends l held)
    (hleads : Effect.Instr.LeadsTo pred ended x (poolCode i l) next) : Lends next held := by
  cases l with
  | running p =>
    cases p with
    | pure => cases hleads
    | call o k => cases o <;> cases hleads <;> exact h
  | waiting k =>
    cases hleads
    exact h
  | returning conn k =>
    cases hleads
    obtain ⟨rfl, h⟩ := h
    exact h
  | notifying k =>
    cases hleads
    exact h
  | leaving k =>
    cases hleads
    obtain ⟨rfl, h⟩ := h
    exact h
  | taking | pushing => cases hleads

/-- What a thread does under its own label leaves it lent what it has, leaves the other threads what
they have, and leaves the connections accounted for. Only two labels move a connection: out of the
queue, and back into it. -/
theorem Lends.acts {l : PoolLabel} {x : PoolShared ι P}
    {f : PoolChoice → PoolShared ι P → PoolLabel × PoolShared ι P} (h : Lends l (x.held i))
    (hx : LentOnce n x.manager.connectionPool x.held) (hcode : poolCode i l = .act f)
    (c : PoolChoice) : Lends (f c x).1 ((f c x).2.held i) ∧
      (∀ j, j ≠ i → (f c x).2.held j = x.held j) ∧
      LentOnce n (f c x).2.manager.connectionPool (f c x).2.held := by
  cases l with
  | running p =>
    cases p with
    | pure => cases hcode
    | call o k =>
      cases o with
      | execute conn st =>
        cases hcode
        exact ⟨h.2 _, fun _ _ => rfl, hx⟩
      | selectOne conn =>
        cases hcode
        exact ⟨h.2 _, fun _ _ => rfl, hx⟩
      | getConnection | releaseConnection => cases hcode
      | _ => exact h.elim
  | taking k =>
    cases hcode
    obtain ⟨hnone, hk⟩ := h
    dsimp only
    split
    · exact ⟨⟨hnone, hk none⟩, fun _ _ => rfl, hx⟩
    · rename_i conn rest hpool
      rw [hpool] at hx
      refine ⟨⟨by simp, hk (some conn)⟩, fun j hj => by simp [hj], hx.take hnone⟩
  | pushing conn k =>
    cases hcode
    obtain ⟨hheld, hk⟩ := h
    exact ⟨⟨by simp, hk⟩, fun j hj => by simp [hj], hx.giveBack hheld⟩
  | waiting | returning | notifying | leaving => cases hcode

/-- Whoever has ended, or waits for a connection, has none: no DAO function takes a second one. -/
theorem Lends.eq_none {l : PoolLabel} {held : Option Connection} (h : Lends l held)
    (hrest : poolCode (P := P) i l = .halt ∨ ∃ next, poolCode (P := P) i l = .wait next) :
    held = none := by
  cases l with
  | running p =>
    cases p with
    | pure => exact h
    | call o k => cases o <;> rcases hrest with hcode | ⟨_, hcode⟩ <;> cases hcode
  | waiting k => exact h.1
  | _ => rcases hrest with hcode | ⟨_, hcode⟩ <;> cases hcode

/-- Every thread borrows with what it has, and the connections are accounted for. -/
structure Lent (n : Nat) (s : Effect.Monitor ι (PoolShared ι P) PoolLabel) : Prop where
  lends : ∀ i, Lends (s.labels i) (s.shared.held i)
  accounted : LentOnce n s.shared.manager.connectionPool s.shared.held

theorem Lent.step {s s' : Effect.Monitor ι (PoolShared ι P) PoolLabel} (h : Lent n s)
    (hmoves : Effect.Monitor.Moves (poolProgram ι P) s s') : Lent n s' := by
  cases hmoves with
  | stays hlabels hshared => exact ⟨by rw [hlabels, hshared]; exact h.lends, hshared ▸ h.accounted⟩
  | goes i next hleads hlabels hshared =>
    refine ⟨fun j => ?_, hshared ▸ h.accounted⟩
    rw [hlabels, hshared]
    by_cases hj : j = i
    · subst hj
      rw [Function.update_self]
      exact (h.lends j).leads hleads
    · rw [Function.update_of_ne hj]
      exact h.lends j
  | acts i c f hcode hlabels hshared =>
    obtain ⟨hlends, hothers, haccounted⟩ := (h.lends i).acts h.accounted hcode c
    refine ⟨fun j => ?_, hshared ▸ haccounted⟩
    rw [hlabels, hshared]
    by_cases hj : j = i
    · subst hj
      rw [Function.update_self]
      exact hlends
    · rw [Function.update_of_ne hj, hothers j hj]
      exact h.lends j

/-! ## Every run -/

/-- What holds in every state of the threads: each has what it has borrowed, the mutex is held as the
labels say, and those who sleep have been told of what there is. -/
structure PoolInv (n : Nat) (s : Effect.Monitor ι (PoolShared ι P) PoolLabel) : Prop where
  lent : Lent n s
  owned : s.Owned (poolProgram ι P) fun _ => PoolLabel.locked
  signalled : s.Signalled (fun x => x.manager.connectionPool.length) fun _ => PoolLabel.credit

theorem PoolInv.step {s s' : Effect.Monitor ι (PoolShared ι P) PoolLabel}
    {e : Effect.Tick ι PoolChoice} (h : PoolInv n s)
    (hstep : Effect.Monitor.Steps (poolProgram ι P) s e s') : PoolInv n s' where
  lent := h.lent.step hstep.moves
  owned := h.owned.step locks_poolProgram hstep
  signalled := h.signalled.step signals_poolProgram (fun i => ⟨_, h.lent.lends i⟩) h.owned hstep

/-- **There is no deadlock**: a thread that has not ended can make a step, or another can. If all were
asleep, each would have found the queue empty; but nobody who sleeps has a connection, so the queue
would hold all of them. -/
theorem PoolInv.not_stuck [Fintype ι] {s : Effect.Monitor ι (PoolShared ι P) PoolLabel}
    (h : PoolInv n s) (hn : 1 ≤ n) {i : ι} (hi : s.finished (poolProgram ι P) i = false) :
    ¬ s.Stuck (poolProgram ι P) := by
  intro hstuck
  obtain ⟨_, hrest⟩ := h.owned.stuck locks_poolProgram hstuck
  -- nobody joins another thread
  have blocked : ∀ j, s.finished (poolProgram ι P) j = false → (s.status j).isBlocked = true := by
    intro j hj
    cases hrest j with
    | finished h => exact absurd h (by simp [hj])
    | blocked h => exact h
    | joining l k next hst hcode _ =>
      cases l with
      | running p =>
        cases p with
        | pure => cases hcode
        | call o k => cases o <;> cases hcode
      | _ => cases hcode
  have hempty : s.shared.manager.connectionPool = [] := List.length_eq_zero_iff.mp
    (h.signalled.stuck signals_poolProgram (fun i => ⟨_, h.lent.lends i⟩) hrest (blocked i hi))
  rcases (h.lent.accounted.found 0).mp hn with hqueued | ⟨j, hj⟩
  · simp [hempty] at hqueued
  · -- whoever has it is neither at its end nor waiting
    refine Option.some_ne_none _ (hj.symm.trans ((h.lent.lends j).eq_none (P := P) (i := j) ?_))
    cases hf : s.finished (poolProgram ι P) j with
    | true =>
      obtain ⟨l, hl, hcode⟩ := Effect.Monitor.finished_iff.mp hf
      rw [show s.labels j = l from congrArg Effect.Status.label hl]
      exact .inl hcode
    | false =>
      obtain ⟨l, hl⟩ := Effect.Status.isBlocked_iff.mp (blocked j hf)
      rw [show s.labels j = l from congrArg Effect.Status.label hl]
      exact .inr (h.owned.waits j l (.inr (.inl hl)))

theorem poolInv_start {s : PoolWorld P} (hnodup : s.connectionPool.Nodup)
    (hmem : ∀ conn, conn ∈ s.connectionPool ↔ conn < n) {threads : ι → Pooled Unit}
    (hcalls : ∀ i, Calls (threads i)) : PoolInv n (poolThreads threads s) where
  lent := ⟨fun i => (hcalls i).borrows, hnodup,
    fun conn => (hmem conn).symm.trans ⟨.inl, fun h => h.elim id nofun⟩, nofun, nofun⟩
  owned := ⟨fun i => ⟨nofun, nofun⟩, fun i l hl => by rcases hl with hl | hl | hl <;> cases hl⟩
  signalled := ⟨nofun, nofun⟩

variable [Fintype ι]

/-- The pool after `InitConnectionPool(n)`, and threads that use it, after the steps. -/
def usePool (n : Nat) (w : World P) (cs : List PoolChoice) (threads : ι → Pooled Unit)
    (es : List (Effect.Tick ι PoolChoice)) : Effect.Monitor ι (PoolShared ι P) PoolLabel :=
  Effect.runAll (Effect.Monitor.next (poolProgram ι P))
    (poolThreads threads ((initConnectionPool n).run handle cs (PoolWorld.start w)).2) es

/-- **Each connection is in the queue or with one thread, and there is no deadlock**, in whatever
order the threads make their steps and whatever fails, if `InitConnectionPool` has filled the pool. -/
theorem poolSafe_run (n : Nat) (hn : 1 ≤ n) (w : World P) (cs : List PoolChoice)
    (hfilled : ((initConnectionPool n).run handle cs (PoolWorld.start w)).2.connectionPool.length = n)
    (threads : ι → Pooled Unit) (hcalls : ∀ i, Calls (threads i))
    (es : List (Effect.Tick ι PoolChoice)) :
    LentOnce n (usePool n w cs threads es).shared.manager.connectionPool
        (usePool n w cs threads es).shared.held ∧
      ((∃ i, (usePool n w cs threads es).finished (poolProgram ι P) i = false) →
        ∃ i c wakes, ((usePool n w cs threads es).step? (poolProgram ι P) (.step i c wakes)).isSome) := by
  let s := ((initConnectionPool n).run handle cs (PoolWorld.start w)).2
  have hqueue : s.connectionPool.Perm (List.range' 0 s.created) :=
    (Effect.Prog.run_of_wp (A := fun _ => True) trivial (wp_initConnectionPool n) cs
      fun _ _ => trivial).1.queue
  have hcreated : s.created = n := by
    rw [← hfilled, hqueue.length_eq, List.length_range']
  have hmem : ∀ conn, conn ∈ s.connectionPool ↔ conn < n := fun conn => by
    simp [hqueue.mem_iff, hcreated]
  have hinv : PoolInv n (usePool n w cs threads es) :=
    Effect.runAll_inv_always
      (poolInv_start (hqueue.nodup_iff.mpr List.nodup_range') hmem hcalls)
      (Effect.Monitor.next_inv fun _ _ _ h hstep => h.step hstep) es
  refine ⟨hinv.lent.accounted, fun ⟨i, hi⟩ => ?_⟩
  by_contra hnone
  refine hinv.not_stuck hn hi fun i c wakes => ?_
  exact Option.not_isSome_iff_eq_none.mp fun hsome => hnone ⟨i, c, wakes, hsome⟩

/-- Two threads, with one connection: the first has it, the second sleeps. -/
def twoThreads : Fin 2 → Pooled Unit := fun _ => do
  let _ ← withConnection (.countUsers (bytes "alice")) (fun count : Nat => decide (0 < count)) false
  pure ()

def firstTakes : List (Effect.Tick (Fin 2) PoolChoice) :=
  [0, 0, 0, 0, 1, 1, 1].map fun i => .step i default none

theorem calls_twoThreads (i : Fin 2) : Calls (twoThreads i) := .dao _ _ _ _ _ fun _ => .done

theorem poolSafe_twoThreads :
    let s := usePool 1 (World.start (Database.empty : Database asciiCi)) [] twoThreads firstTakes
    LentOnce 1 s.shared.manager.connectionPool s.shared.held ∧
      ((∃ i, s.finished (poolProgram (Fin 2) asciiCi) i = false) →
        ∃ i c wakes, (s.step? (poolProgram (Fin 2) asciiCi) (.step i c wakes)).isSome) :=
  poolSafe_run 1 le_rfl _ [] rfl twoThreads calls_twoThreads firstTakes

end LiteChat
