import LiteChat.Model.Server
import LiteChat.Proof.DBManager

/-!
# When `Reconnect` succeeds

`InitConnectionPool` puts working connections behind the dead ones that are in the queue, and
`ValidateConnection` asks the one in front. Each of the three attempts turns the queue by one, so
`Reconnect` gets to a working connection unless three dead ones come first (`reconnectSucceeds_iff`).
-/

namespace LiteChat

open Pooled DBManager

variable {P : Platform} {driverFails : Prop} {alive : Connection → Bool} {s : PoolWorld P}

/-- The database is back: every connection that is made comes about, and which connections work does
not change. -/
structure Back (driverFails : Prop) (alive : Connection → Bool) (c : PoolChoice) : Prop where
  driver : c.driverOk = false → driverFails
  connects : c.connectOk = true
  alive : c.alive = alive

/-- `Reconnect` returns true, however the database that is back behaves. -/
def ReconnectSucceeds (driverFails : Prop) (alive : Connection → Bool) (s : PoolWorld P) : Prop :=
  reconnect.wp handle (Back driverFails alive) (fun ok _ => ok = true) s

/-! ## One attempt -/

theorem wp_createConnections_back (rounds : Nat) :
    (createConnections rounds).wp handle (Back driverFails alive) (fun ok t => ok = true ∧
      t = { s with
        connectionPool := s.connectionPool ++ List.range' s.created rounds
        created := s.created + rounds }) s := by
  induction rounds generalizing s with
  | zero => exact ⟨rfl, by simp⟩
  | succ rounds ih =>
    unfold createConnections createConnection
    simp only [Effect.Prog.bind_eq, Effect.Prog.wp_bind, connect, push, op]
    intro c hc
    simp only [handle, hc.connects]
    intro _ _
    show (createConnections rounds).wp handle _ _ { s with
      connectionPool := s.connectionPool ++ [s.created], created := s.created + 1 }
    refine Effect.Prog.wp_mono ih fun ok t h => ?_
    obtain ⟨hok, ht⟩ := h
    refine ⟨hok, ?_⟩
    rw [ht]
    simp [List.range'_succ, Nat.add_assoc, Nat.add_comm 1 rounds]

/-- The answer is whether the first connection of the queue works. -/
theorem wp_validateConnection_back {conn : Connection} {rest : List Connection}
    (hs : s.connectionPool = conn :: rest) :
    validateConnection.wp handle (Back driverFails alive) (fun ok t => ok = alive conn ∧
      t = { s with connectionPool := rest ++ [conn] }) s := by
  obtain ⟨world, pool, poolSize, created⟩ := s
  subst hs
  intro _ _ c hc _ _
  cases halive : alive conn with
  | true =>
    simp only [handle, hc.alive, halive]
    exact ⟨rfl, rfl⟩
  | false =>
    simp only [handle, hc.alive, halive]
    exact ⟨rfl, rfl⟩

/-- An attempt whose driver is there asks the first connection of the queue, or the first new one. -/
theorem wp_initConnectionPool_back {size : Int} {conn : Connection} {rest : List Connection}
    (hs : s.connectionPool ++ List.range' s.created size.toNat = conn :: rest) :
    (initConnectionPool size).wp handle (Back False alive) (fun ok t => ok = alive conn ∧
      t.connectionPool = rest ++ [conn] ∧ t.poolSize = size ∧ s.created ≤ t.created) s := by
  unfold initConnectionPool
  intro _ _ c hc
  have hdriver : c.driverOk = true := by
    by_contra hfalse
    exact hc.driver (by simpa using hfalse)
  simp only [handle, hdriver]
  show ((createConnections size.toNat).bind _).wp handle _ _ { s with poolSize := size }
  refine (Effect.Prog.wp_bind _ _).mpr (Effect.Prog.wp_mono (wp_createConnections_back _) ?_)
  rintro made _ ⟨rfl, rfl⟩
  refine Effect.Prog.wp_mono (wp_validateConnection_back hs) ?_
  rintro ok _ ⟨hok, rfl⟩
  exact ⟨hok, rfl, rfl, Nat.le_add_right _ _⟩

/-! ## All attempts -/

/-- After a dead connection the queue begins with what was behind it, and the new connections follow. -/
theorem exists_alive_take {conn first : Connection} {rest new : List Connection} (n : Nat)
    (hfirst : alive first = true) :
    (rest ++ first :: new ++ [conn]).length < n ∨
        (∃ d ∈ (rest ++ first :: new ++ [conn]).take n, alive d = true) ↔
      rest.length < n ∨ ∃ d ∈ rest.take n, alive d = true := by
  by_cases hn : rest.length < n
  · refine iff_of_true (.inr ⟨first, ?_, hfirst⟩) (.inl hn)
    rw [List.append_assoc, List.take_append, List.cons_append]
    refine List.mem_append_right _ ?_
    obtain ⟨k, hk⟩ := Nat.exists_eq_add_of_lt hn
    rw [show n - rest.length = k + 1 by omega]
    exact List.mem_cons_self
  · have hlong : ¬ (rest ++ first :: new ++ [conn]).length < n := by
      simp only [List.length_append, List.length_cons]
      omega
    have htake : (rest ++ first :: new ++ [conn]).take n = rest.take n := by
      rw [List.append_assoc, List.take_append_of_le_length (Nat.le_of_not_lt hn)]
    rw [htake]
    exact ⟨fun h => .inr (h.resolve_left hlong), fun h => .inr (h.resolve_left hn)⟩

/-- With the driver there, so many attempts succeed if they get to a working connection. -/
theorem wp_reconnectTimes_back (attempts : Nat) (hsize : 1 ≤ s.poolSize)
    (hnew : ∀ conn, s.created ≤ conn → alive conn = true) :
    (reconnectTimes attempts).wp handle (Back False alive) (fun ok _ => ok = true ↔
      s.connectionPool.length < attempts ∨
        ∃ conn ∈ s.connectionPool.take attempts, alive conn = true) s := by
  -- each attempt leaves another queue, so the induction is over all of them
  induction attempts generalizing s with
  | zero => exact iff_of_false nofun (by simp)
  | succ attempts ih =>
    obtain ⟨k, hk⟩ : ∃ k, s.poolSize.toNat = k + 1 := ⟨s.poolSize.toNat - 1, by omega⟩
    have hmade : List.range' s.created s.poolSize.toNat =
        s.created :: List.range' (s.created + 1) k := by rw [hk, List.range'_succ]
    intro _ _
    show ((initConnectionPool s.poolSize).bind _).wp handle _ _ s
    refine (Effect.Prog.wp_bind _ _).mpr ?_
    cases hpool : s.connectionPool with
    | nil =>
      -- nothing old is in the way: the first new connection is asked
      have hqueue : s.connectionPool ++ List.range' s.created s.poolSize.toNat =
          s.created :: List.range' (s.created + 1) k := by rw [hpool, hmade, List.nil_append]
      refine Effect.Prog.wp_mono (wp_initConnectionPool_back hqueue) fun ok t ⟨hok, _⟩ => ?_
      rw [hok, hnew s.created le_rfl]
      exact iff_of_true rfl (.inl (Nat.succ_pos _))
    | cons conn rest =>
      have hqueue : s.connectionPool ++ List.range' s.created s.poolSize.toNat =
          conn :: (rest ++ s.created :: List.range' (s.created + 1) k) := by
        rw [hpool, hmade, List.cons_append]
      refine Effect.Prog.wp_mono (wp_initConnectionPool_back hqueue) ?_
      rintro ok t ⟨rfl, hqueue', hsize', hcreated⟩
      cases halive : alive conn with
      | true => exact iff_of_true rfl (.inr ⟨conn, List.mem_cons_self, halive⟩)
      | false =>
        -- the dead connection goes behind the new ones, and the rest of the attempts are left
        refine Effect.Prog.wp_mono (ih (hsize'.symm ▸ hsize) fun d hd =>
          hnew d (hcreated.trans hd)) fun ok' _ hok' => ?_
        rw [hok', hqueue', exists_alive_take attempts (hnew s.created le_rfl)]
        simp [halive]

/-- Without the driver none succeeds. -/
theorem wp_reconnectTimes_driverless {A : PoolChoice → Prop} (hA : ∀ c, A c → c.driverOk = false)
    (attempts : Nat) : (reconnectTimes attempts).wp handle A (fun ok _ => ok = false) s := by
  induction attempts generalizing s with
  | zero => exact rfl
  | succ attempts ih =>
    intro _ _ _ _ c hc
    simp only [handle, hA c hc]
    exact ih

/-- A call that succeeds has got to a working connection. -/
theorem ReconnectSucceeds.queue (h : ReconnectSucceeds driverFails alive s) (hsize : 1 ≤ s.poolSize)
    (hnew : ∀ conn, s.created ≤ conn → alive conn = true) :
    s.connectionPool.length < 3 ∨ ∃ conn ∈ s.connectionPool.take 3, alive conn = true := by
  have hup : reconnect.wp handle (Back False alive) (fun ok _ => ok = true) s :=
    Effect.Prog.wp_restrict (fun c hc => ⟨fun hd => (hc.driver hd).elim, hc.connects, hc.alive⟩) h
  obtain ⟨ok, _, htrue, hiff⟩ := Effect.Prog.exists_of_wp
    ⟨⟨default, true, true, alive⟩, ⟨nofun, rfl, rfl⟩⟩
    (Effect.Prog.wp_and hup (wp_reconnectTimes_back 3 hsize hnew))
  exact hiff.mp htrue

/-- And has had the driver. -/
theorem ReconnectSucceeds.driver (h : ReconnectSucceeds driverFails alive s) : ¬ driverFails := by
  intro hfails
  have hdown : reconnect.wp handle (fun c => Back driverFails alive c ∧ c.driverOk = false)
      (fun ok _ => ok = true) s := Effect.Prog.wp_restrict (fun c hc => hc.1) h
  have hfalse := wp_reconnectTimes_driverless (s := s)
    (A := fun c => Back driverFails alive c ∧ c.driverOk = false) (fun c hc => hc.2) 3
  obtain ⟨ok, _, htrue, hfalse⟩ := Effect.Prog.exists_of_wp
    ⟨⟨default, false, true, alive⟩, ⟨⟨fun _ => hfails, rfl, rfl⟩, rfl⟩⟩
    (Effect.Prog.wp_and hdown hfalse)
  exact absurd (htrue.symm.trans hfalse) (by decide)

/-- **`Reconnect` succeeds when the database is back** exactly if the driver does not fail, and the
queue does not begin with three dead connections. Each of the three attempts puts working connections
behind those in the queue and asks the one in front, which goes to the end afterwards, dead or not. -/
theorem reconnectSucceeds_iff (hsize : 1 ≤ s.poolSize)
    (hnew : ∀ conn, s.created ≤ conn → alive conn = true) :
    ReconnectSucceeds driverFails alive s ↔ ¬ driverFails ∧
      (s.connectionPool.length < 3 ∨ ∃ conn ∈ s.connectionPool.take 3, alive conn = true) := by
  constructor
  · exact fun h => ⟨h.driver, h.queue hsize hnew⟩
  · rintro ⟨hdriver, hqueue⟩
    have hback : ReconnectSucceeds False alive s :=
      Effect.Prog.wp_mono (wp_reconnectTimes_back 3 hsize hnew) fun ok _ hok => hok.mpr hqueue
    exact Effect.Prog.wp_restrict
      (fun c hc => ⟨fun hd => hdriver (hc.driver hd), hc.connects, hc.alive⟩) hback

/-- A pool of `n` connections, none of which works any more. -/
def deadPool (n : Nat) : PoolWorld asciiCi :=
  ⟨World.start Database.empty, List.range n, n, n⟩

/-- Two dead connections: the third attempt gets to a new one. -/
theorem reconnectSucceeds_two : ReconnectSucceeds False (fun conn => decide (2 ≤ conn)) (deadPool 2) :=
  (reconnectSucceeds_iff (s := deadPool 2) (by decide) fun _ hconn => decide_eq_true hconn).mpr
    ⟨id, .inl (by decide)⟩

/-- Three dead connections use up the attempts. -/
theorem not_reconnectSucceeds : ¬ ∀ (alive : Connection → Bool) (s : PoolWorld asciiCi),
    1 ≤ s.poolSize → (∀ conn, s.created ≤ conn → alive conn = true) →
      ReconnectSucceeds False alive s := by
  intro h
  have hnew : ∀ conn, 3 ≤ conn → decide (3 ≤ conn) = true := fun _ hconn => decide_eq_true hconn
  have hqueue := (h (fun conn => decide (3 ≤ conn)) (deadPool 3) (by decide) hnew).queue
    (by decide) hnew
  exact absurd hqueue (by decide)

end LiteChat
