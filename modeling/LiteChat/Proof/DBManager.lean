import LiteChat.Model.DBManager
import Mathlib.Data.List.Rotate
import Mathlib.Data.List.Range

/-!
# What the pool's functions do alone

A DAO function is `caught` at its statement, as `Model/Dao.lean` has it, with a connection taken before
and given back after (`run_withConnection`). `InitConnectionPool` puts new connections behind those
that are in the queue already, whether or not it makes all of them, and `ValidateConnection` turns the
queue by one (`Refilled`); `Reconnect` is up to three such calls.
-/

namespace LiteChat

open Pooled DBManager

variable {P : Platform} {α : Type} {A : PoolChoice → Prop} {s t u : PoolWorld P}

/-- What the environment decides about a statement on the connection. -/
def PoolChoice.executed (c : PoolChoice) (conn : Connection) : Choice :=
  { c.choice with dbOk := c.choice.dbOk && c.alive conn }

theorem run_caught_eq (st : Stmt) (f : st.Res → α) (failed : α) (ch : Choice) (w : World P) :
    (caught st f failed).run [ch] w = (match (w.execute st ch).1 with
      | .ok r => pure (f r)
      | .error _ => pure failed : Action α).run [] (w.execute st ch).2 := rfl

theorem run_withConnection_eq (st : Stmt) (f : st.Res → α) (failed : α) (conn : Connection)
    (rest : List Connection) (cs : List PoolChoice) (world : World P) (poolSize : Int) (created : Nat) :
    (withConnection st f failed).run handle cs ⟨world, conn :: rest, poolSize, created⟩ =
      (match (world.execute st ((cs.tail.headD default).executed conn)).1 with
        | .ok r => pure (f r)
        | .error _ => pure failed : Pooled α).run handle cs.tail.tail.tail
          ⟨(world.execute st ((cs.tail.headD default).executed conn)).2, rest ++ [conn], poolSize,
            created⟩ := rfl

/-- A DAO function alone is its statement, and the pool is turned by one. -/
theorem run_withConnection (st : Stmt) (f : st.Res → α) (failed : α) {conn : Connection}
    {rest : List Connection} (hs : s.connectionPool = conn :: rest) (cs : List PoolChoice) :
    ∃ ch : Choice, (withConnection st f failed).run handle cs s =
      (((caught st f failed).run [ch] s.world).1,
        { s with
          world := ((caught st f failed).run [ch] s.world).2
          connectionPool := rest ++ [conn] }) := by
  obtain ⟨world, pool, poolSize, created⟩ := s
  subst hs
  refine ⟨(cs.tail.headD default).executed conn, ?_⟩
  rw [run_withConnection_eq, run_caught_eq]
  cases (world.execute st ((cs.tail.headD default).executed conn)).1 <;> rfl

/-- Connections are made and queued one after the other, until one cannot be made. -/
theorem wp_createConnections (rounds : Nat) :
    (createConnections rounds).wp handle A (fun ok t => ∃ k ≤ rounds, (ok = true ↔ k = rounds) ∧
      t = { s with
        connectionPool := s.connectionPool ++ List.range' s.created k
        created := s.created + k }) s := by
  induction rounds generalizing s with
  | zero => exact ⟨0, le_rfl, by simp, by simp⟩
  | succ rounds ih =>
    unfold createConnections createConnection
    simp only [Effect.Prog.bind_eq, Effect.Prog.wp_bind, connect, push, op]
    intro c _
    cases hconnect : c.connectOk with
    | false =>
      simp only [handle, hconnect]
      exact ⟨0, by omega, by simp, by simp⟩
    | true =>
      simp only [handle, hconnect]
      intro _ _
      show (createConnections rounds).wp handle A _ { s with
        connectionPool := s.connectionPool ++ [s.created], created := s.created + 1 }
      refine Effect.Prog.wp_mono ih fun ok t h => ?_
      obtain ⟨k, hk, hok, ht⟩ := h
      refine ⟨k + 1, by omega, ?_, ?_⟩
      · rw [hok]
        omega
      · rw [ht]
        simp [List.range'_succ, Nat.add_assoc, Nat.add_comm 1 k]

/-- The first connection of the queue is asked, and goes to its end. -/
theorem wp_validateConnection :
    validateConnection.wp handle A (fun ok t => (s.connectionPool = [] → ok = false) ∧
      t = { s with connectionPool := s.connectionPool.rotate 1 }) s := by
  obtain ⟨world, pool, poolSize, created⟩ := s
  unfold validateConnection
  intro _ _
  cases pool with
  | nil => exact ⟨fun _ => rfl, rfl⟩
  | cons conn rest =>
    intro c _ _ _
    rw [List.rotate_cons_succ, List.rotate_zero]
    cases halive : c.alive conn <;> simp only [handle, halive] <;> exact ⟨nofun, rfl⟩

/-- `t` is `s` after connections have been made for a pool of the given size, all of them if `ok`. -/
structure Refilled (size : Int) (s : PoolWorld P) (ok : Bool) (t : PoolWorld P) : Prop where
  poolSize : t.poolSize = size
  created : s.created ≤ t.created
  queue : t.connectionPool.Perm
    (s.connectionPool ++ List.range' s.created (t.created - s.created))
  full : ok = true → s.created + size.toNat ≤ t.created ∧ t.connectionPool ≠ []

theorem Refilled.trans {size : Int} {ok ok' : Bool} (h : Refilled size s ok t)
    (h' : Refilled size t ok' u) : Refilled size s ok' u := by
  have hs := h.created
  have ht := h'.created
  refine ⟨h'.poolSize, hs.trans ht, ?_, fun hok => ?_⟩
  · have hrange : List.range' s.created (u.created - s.created) =
        List.range' s.created (t.created - s.created) ++
          List.range' t.created (u.created - t.created) := by
      rw [show u.created - s.created = (t.created - s.created) + (u.created - t.created) by omega,
        ← List.range'_append_1, Nat.add_sub_cancel' hs]
    rw [hrange, ← List.append_assoc]
    exact h'.queue.trans (h.queue.append_right _)
  · obtain ⟨hfull, hsome⟩ := h'.full hok
    exact ⟨by omega, hsome⟩

/-- `InitConnectionPool` fills the pool, and makes no more connections than it is asked for. -/
theorem wp_initConnectionPool (size : Int) : (initConnectionPool size).wp handle A
    (fun ok t => Refilled size s ok t ∧ t.created ≤ s.created + size.toNat) s := by
  unfold initConnectionPool
  intro _ _ c _
  cases hdriver : c.driverOk with
  | false =>
    simp only [handle, hdriver]
    exact ⟨⟨rfl, le_rfl, by simp, nofun⟩, Nat.le_add_right _ _⟩
  | true =>
    simp only [handle, hdriver]
    show ((createConnections size.toNat).bind _).wp handle A _ { s with poolSize := size }
    refine (Effect.Prog.wp_bind _ _).mpr (Effect.Prog.wp_mono (wp_createConnections _) ?_)
    rintro made _ ⟨k, hk, hmade, rfl⟩
    cases made with
    | false => exact ⟨⟨rfl, Nat.le_add_right _ _, by simp, nofun⟩, Nat.add_le_add_left hk _⟩
    | true =>
      obtain rfl := hmade.mp rfl
      refine Effect.Prog.wp_mono wp_validateConnection ?_
      rintro ok _ ⟨hsome, rfl⟩
      refine ⟨⟨rfl, Nat.le_add_right _ _, ?_, fun hok => ⟨le_rfl, fun hnone => ?_⟩⟩, le_rfl⟩
      · simpa using List.rotate_perm _ 1
      · have hnone := List.rotate_eq_nil_iff.mp hnone
        exact absurd (hsome hnone) (by simp [hok])

theorem wp_reconnectTimes (attempts : Nat) :
    (reconnectTimes attempts).wp handle A (Refilled s.poolSize s) s := by
  induction attempts generalizing s with
  | zero => exact ⟨rfl, le_rfl, by simp, nofun⟩
  | succ attempts ih =>
    intro _ _
    show ((initConnectionPool s.poolSize).bind _).wp handle A _ s
    refine (Effect.Prog.wp_bind _ _).mpr (Effect.Prog.wp_mono (wp_initConnectionPool _) ?_)
    intro ok t ⟨ht, _⟩
    cases ok with
    | true => exact ht
    | false =>
      refine Effect.Prog.wp_mono ih fun ok' u hu => ht.trans ?_
      rw [← ht.poolSize]
      exact hu

theorem wp_reconnect : reconnect.wp handle A (Refilled s.poolSize s) s := wp_reconnectTimes 3

end LiteChat
