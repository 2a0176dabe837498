import LiteChat.Proof.Hands
import LiteChat.Proof.Harm
import LiteChat.Proof.Receiver

/-!
# One client fails

A client that goes away ends its own connection, and whatever else happens then should be no concern
of the others: the process runs on, and every other connection keeps its session, its login, its
routes and the flag of its user. No part of the server sees to that. `main` leaves `SIGPIPE` to its
default and `SendData` passes no flags, so one frame to a peer that has gone is the end of the
process and of everybody in it (`not_failuresStayLocal`).

What can be said is when connections may break (`WellTimed`). A connection may break, or be shut
down, at any moment at which nobody has still to write to it: no request of it is being answered,
and no other thread has its descriptor in hand. From then on until it is closed nobody may take it
up again, by answering a request that had arrived before, or by reading the descriptor off its
session. A descriptor may be used again when nobody has still to remove the session of the
connection it had belonged to. And whoever is marked offline must not be logged in elsewhere. In
every run that keeps to this failures stay local (`failuresStayLocal_run`), whatever breaks, for any
number of connections and any database.

The condition says nothing of what is sent, or to whom. That no thread writes to any other
descriptor than these is a fact about the code, and so is that a connection removes no session but
its own, once, and that the heartbeat check removes the one it has found idle: it is what the
threads keep to (`workers_keep`). The invariant (`Unharmed`) puts the threads together: who is
broken is unoccupied.
-/

namespace LiteChat

open LiteChat.Action Effect Server

variable {P : Platform} {w w' : World P} {s : Process P}

/-! ## Who is who -/

section Runs

variable {κ : Type}

/-- The server, in the middle of a run. -/
abbrev Running (P : Platform) (κ : Type) : Type := Pool (Worker κ) Op Op.Res Unit (Process P)

def RunsOn (t : Running P κ) : Prop := t.shared.RunsOn

theorem runsOn_start (db : Database P) (work : Work κ) :
    RunsOn (Pool.start (workers P work) (Process.start db)) := ⟨rfl, rfl⟩

/-- The call that closes `c`. -/
def closes (c : Socket) : Op → Bool
  | .close d => d = c
  | _ => false

/-- The call that removes the session of `c`. -/
def removes (c : Socket) : Op → Bool
  | .removeSession d => d = c
  | _ => false

variable [DecidableEq κ]

/-- The descriptor has been given a session since the connection `k` closed it: whoever is there now is
somebody else. -/
def reopened (k : κ) (c : Socket) : List (Worker κ × Op) → Bool
  | [] => false
  | e :: h =>
    if e.1 = .handling k ∧ closes c e.2 = true then h.any fun e => adds c e.2 else reopened k c h

/-- Whom a thread is not about. A connection is about itself, as long as its descriptor is its own, and
the heartbeat check about whom it drops. -/
def Server.Work.Others (work : Work κ) (t : Running P κ) : Worker κ → Socket → Prop
  | .accepting, _ => True
  | .handling k, d => d = work.clientSocket k → reopened k d t.history = true
  | .checking, d => ∀ p ∈ (scan (Pool.own t.calls .checking)).dropping,
      t.shared.world.sessions.getSession d ≠ some p

/-- In this step the process runs on, and everybody else keeps what they had. -/
def StaysLocal (work : Work κ) (t : Running P κ) (e : Worker κ × List Socket × Choice) : Prop :=
  match t.threads e.1 with
  | .pure _ => True
  | .call o _ => HarmsNobody (work.Others t e.1) o t.shared (Pool.step Process.handle t e).shared

/-- The call of the step heeds what it has to. -/
def StepHeeds (work : Work κ) (t : Running P κ) (e : Worker κ × List Socket × Choice) : Prop :=
  match t.threads e.1 with
  | .pure _ => True
  | .call o _ => Heeds (work.Others t e.1) e.2 t.shared o

theorem staysLocal_iff {work : Work κ} {t : Running P κ} (ht : RunsOn t)
    (e : Worker κ × List Socket × Choice) : StaysLocal work t e ↔ StepHeeds work t e := by
  unfold StaysLocal StepHeeds
  cases hcall : t.threads e.1 with
  | pure a => exact Iff.rfl
  | call o k =>
    dsimp only
    rw [Pool.step_call hcall]
    exact harmsNobody_iff ht _ o e.2

theorem StaysLocal.runsOn {work : Work κ} {t : Running P κ} (ht : RunsOn t)
    {e : Worker κ × List Socket × Choice} (h : StaysLocal work t e) :
    RunsOn (Pool.step Process.handle t e) := by
  unfold StaysLocal at h
  cases hcall : t.threads e.1 with
  | pure a =>
    unfold Pool.step
    rw [hcall]
    exact ht
  | call o k =>
    rw [hcall] at h
    exact h.1

/-- Whatever connections break, and whenever they do: in every step of the run the process runs on,
and everybody else keeps what they had. -/
def FailuresStayLocal (db : Database P) (work : Work κ) (es : List (Worker κ × List Socket × Choice)) :
    Prop :=
  Meets (Pool.step Process.handle) (StaysLocal work) (Pool.start (workers P work) (Process.start db)) es

theorem FailuresStayLocal.runsOn {db : Database P} {work : Work κ}
    {es : List (Worker κ × List Socket × Choice)} (h : FailuresStayLocal db work es) :
    RunsOn (runAll (Pool.step Process.handle) (Pool.start (workers P work) (Process.start db)) es) :=
  runAll_inv (runsOn_start db work) (fun _ _ ht he => he.runsOn ht) h

/-! ## When connections may break -/

/-- The next body that the connection receives will be answered. -/
def Due (received : List (Option Json)) (own : List (Call Op Op.Res)) : Prop :=
  ∃ parsed ∈ received[(responsesSent own).length]?, Answerable parsed

instance (received : List (Option Json)) (own : List (Call Op Op.Res)) :
    Decidable (Due received own) := by
  unfold Due
  infer_instance

/-- The connection of which the thread is answering a request. -/
def Server.Work.serves (work : Work κ) (h : List (Worker κ × Call Op Op.Res)) : Worker κ → Option Socket
  | .handling k =>
    if Due (work.received k) (Pool.own h (.handling k)) ∧ midway (Pool.own h (.handling k)) = true then
      some (work.clientSocket k)
    else none
  | _ => none

/-- The connection of which the thread, by its next call, begins to answer a request. -/
def Server.Work.begins (work : Work κ) (h : List (Worker κ × Call Op Op.Res)) : Worker κ → Option Socket
  | .handling k =>
    if Due (work.received k) (Pool.own h (.handling k)) ∧ midway (Pool.own h (.handling k)) = false then
      some (work.clientSocket k)
    else none
  | _ => none

/-- Some thread has still to write to the descriptor: it is answering a request of that connection, or
has the descriptor in hand. -/
def Occupied (work : Work κ) (h : List (Worker κ × Call Op Op.Res)) (c : Socket) : Prop :=
  ∃ k, work.serves h k = some c ∨ InHand (Pool.own h k) c

/-- The thread has still to remove the session of a connection that is over: the connection has failed and
closed its descriptor, or the heartbeat check has found it idle. -/
def StillEnds (work : Work κ) (t : Running P κ) (c : Socket) : Worker κ → Prop
  | .accepting => False
  | .handling k => work.clientSocket k = c ∧
      (Pool.own t.history (.handling k)).any (closes c) = true ∧
      (Pool.own t.history (.handling k)).any (removes c) = false ∧
      (t.threads (.handling k)).isPure = false
  | .checking => ∃ p ∈ (scan (Pool.own t.calls .checking)).dropping,
      (c, p) ∈ (scan (Pool.own t.calls .checking)).sessions

/-- What is to be seen to when a thread makes a call: it gets no broken descriptor into its hand, shuts
down nobody to whom somebody has still to write, opens no session where an old one has still to be
removed, marks nobody offline who is logged in elsewhere, and uses no session that is gone. -/
def Timely (work : Work κ) (t : Running P κ) (k : Worker κ) (e : List Socket × Choice) : Op → Prop
  | .getSocket p => ∃ session ∈ t.shared.world.sessions.heap.lookup p,
      ¬ (t.shared.lose e.1).Broken session.socket
  | .loadConnections => isFull t.shared.world.currentConnections = true →
      ∀ c ∈ (hands (Pool.own t.calls k)).accepted, ¬ (t.shared.lose e.1).Broken c
  | .shutdown c => ¬ Occupied work t.calls c
  | .addSession c => t.shared.world.sessions.getSession c = none ∧ ∀ j, ¬ StillEnds work t c j
  | .sql (.updateOnlineByName u isOnline) => e.2.dbOk = true →
      ∀ d ∈ t.shared.world.sessions.cliSessionMap.keys, work.Others t k d →
        ∀ i ∈ t.shared.world.accountAt d, t.shared.world.db.idOf u = some i →
          t.shared.world.flag i = some isOnline
  | o => o.Live t.shared.world

/-- Connections break while nobody has still to write to them, and no request of a connection that is
broken is begun. -/
def WellTimed (work : Work κ) (t : Running P κ) (e : Worker κ × List Socket × Choice) : Prop :=
  match t.threads e.1 with
  | .pure _ => True
  | .call o _ =>
      (∀ c ∈ e.2.1, c ∈ t.shared.world.openSockets → ¬ Occupied work t.calls c) ∧
      (∀ c ∈ work.begins t.calls e.1, ¬ (t.shared.lose e.2.1).Broken c) ∧
      Timely work t e.1 e.2 o

/-! ## What holds between any two calls -/

/-- What is known of the sessions that the heartbeat check was given: the object at an address is the
session of its descriptor, and what is dropped is still there or gone, but not replaced. -/
structure Scanning (w : World P) (own : List (Call Op Op.Res)) : Prop where
  mapped : ∀ p s, w.sessions.heap.lookup p = some s → w.sessions.getSession s.socket = some p
  scanned : ∀ c p, (c, p) ∈ (scan own).sessions →
    p < w.sessions.nextPtr ∧ ∀ s, w.sessions.heap.lookup p = some s → s.socket = c
  dropped : ∀ c p, (scan own).dropping = some p → (c, p) ∈ (scan own).sessions →
    w.sessions.getSession c = some p ∨ w.sessions.getSession c = none

/-- An object on the heap was there before with the same descriptor, or has just been added. -/
theorem World.heap_handle {o : Op} {ch : Choice} {p : SessionPtr} {s' : ClientSession}
    (h : (World.handle o ch w).2.sessions.heap.lookup p = some s') :
    (o = .addSession s'.socket ∧ p = w.sessions.nextPtr) ∨
      ∃ s, w.sessions.heap.lookup p = some s ∧ s'.socket = s.socket := by
  have hkeeps : o.KeepsSessions → ∃ s, w.sessions.heap.lookup p = some s ∧ s'.socket = s.socket := by
    intro ho
    rw [World.sessions_handle ho] at h
    exact ⟨s', h, rfl⟩
  have hwrite : ∀ (q : SessionPtr) (f : ClientSession → ClientSession)
      (hf : ∀ s, (f s).socket = s.socket), (w.write q (·.modify q f hf)).sessions.heap.lookup p = some s' →
      ∃ s, w.sessions.heap.lookup p = some s ∧ s'.socket = s.socket := by
    intro q f hf hp
    unfold World.write at hp
    split at hp
    · dsimp only at hp
      rw [SessionManager.heap_modify] at hp
      split at hp
      · rename_i hpq
        obtain ⟨s, hs, rfl⟩ := Option.map_eq_some_iff.mp hp
        exact ⟨s, hpq ▸ hs, hf s⟩
      · exact ⟨s', hp, rfl⟩
    · exact ⟨s', hp, rfl⟩
  cases o with
  | addSession c =>
    have hinsert : (AList.insert w.sessions.nextPtr ⟨c, [], ch.now, true⟩ w.sessions.heap).lookup p =
        some s' := h
    rw [Map.lookup_insert] at hinsert
    split at hinsert
    · rename_i hp
      cases Option.some.inj hinsert
      exact .inl ⟨rfl, hp⟩
    · exact .inr ⟨s', hinsert, rfl⟩
  | removeSession c =>
    have hheap := (SessionManager.heap_removeSession w.sessions c p).symm.trans h
    split at hheap
    · cases hheap
    · exact .inr ⟨s', hheap, rfl⟩
  | bindUsername c u => exact .inr ⟨s', h, rfl⟩
  | setUsername q u => exact .inr (hwrite q _ _ h)
  | updateHeartbeat q => exact .inr (hwrite q _ _ h)
  | _ => exact .inr (hkeeps trivial)

section Scanning

variable {own : List (Call Op Op.Res)} {o : Op}

/-- A call of any thread. -/
theorem Scanning.handle (h : Scanning w own) (hnew : ∀ c, o = .addSession c →
      w.sessions.getSession c = none ∧
        ∀ p, (scan own).dropping = some p → (c, p) ∉ (scan own).sessions) (ch : Choice) :
    Scanning (World.handle o ch w).2 own := by
  -- the map finds each object; what was scanned has its descriptor; what is dropped is there, or gone
  refine ⟨fun p s' hs' => ?_, fun c p hmem => ?_, fun c p hdrop hmem => ?_⟩
  · rcases World.heap_handle hs' with ⟨rfl, rfl⟩ | ⟨s, hs, hsocket⟩
    · exact (SessionManager.getSession_addSession _ _ _).trans (if_pos rfl)
    · have hp := h.mapped p s hs
      rw [hsocket]
      refine (World.getSession_handle ?_ ?_ ch w).trans hp
      · rintro rfl
        cases hp.symm.trans (hnew _ rfl).1
      · rintro rfl
        have hgone := SessionManager.heap_removeSession w.sessions s.socket p
        rw [if_pos hp] at hgone
        cases hgone.symm.trans hs'
  · obtain ⟨hlt, hs⟩ := h.scanned c p hmem
    have hkeeps := World.keepsSockets o ch w
    refine ⟨Nat.lt_of_lt_of_le hlt hkeeps.older, fun s' hs' => ?_⟩
    obtain ⟨s, hheap, hsocket⟩ := hkeeps.socket p s' hlt hs'
    exact hsocket.trans (hs s hheap)
  · by_cases hremove : o = .removeSession c
    · subst hremove
      exact .inr ((SessionManager.getSession_removeSession _ _ c).trans (if_pos rfl))
    · have hget := World.getSession_handle (c := c) ?_ hremove ch w
      · rw [hget]
        exact h.dropped c p hdrop hmem
      · -- the accept loop gets no descriptor that the round has still to drop with this session
        rintro rfl
        exact (hnew c rfl).2 p hdrop hmem

/-- A call of the heartbeat check itself, seen from after it. -/
theorem Scanning.call (h : Scanning w own) (hafter : Scanning (World.handle o ch w).2 own)
    (hlive : o.Live w) :
    Scanning (World.handle o ch w).2 (own ++ [⟨o, (World.handle o ch w).1⟩]) := by
  have hsame : ∀ {own' : List (Call Op Op.Res)} {w'' : World P}, Scanning w'' own →
      (scan own').sessions = (scan own).sessions →
      (∀ p, (scan own').dropping = some p → (scan own).dropping = some p) → Scanning w'' own' := by
    intro own' w'' h' hsessions hdropping
    refine ⟨h'.mapped, fun c p hmem => ?_, fun c p hdrop hmem => ?_⟩
    · exact h'.scanned c p (hsessions ▸ hmem)
    · exact h'.dropped c p (hdropping p hdrop) (hsessions ▸ hmem)
  have hunscanned : o.Unscanned →
      Scanning (World.handle o ch w).2 (own ++ [⟨o, (World.handle o ch w).1⟩]) := by
    intro ho
    have hscan : scan (own ++ [⟨o, (World.handle o ch w).1⟩]) = scan own :=
      scan_unscanned ho (World.handle o ch w).1
    exact hsame hafter (by rw [hscan]) fun p hdrop => by rwa [hscan] at hdrop
  cases o with
  | getAllSessions =>
    -- the addresses are those of the sessions that are there
    refine ⟨hafter.mapped, fun c p hmem => ?_, fun c p hdrop => ?_⟩
    · rw [scan_concat] at hmem
      have hlisted : (c, p) ∈ Effect.arrange ch.rank
          (w.sessions.cliSessionMap.entries.map fun e => (e.1, e.2)) := hmem
      obtain ⟨e, he, hcp⟩ := List.mem_map.mp (Effect.mem_arrange.mp hlisted)
      have hp : w.sessions.getSession c = some p := by
        cases hcp
        exact AList.mem_lookup_iff.mpr he
      obtain ⟨s, hs, hsocket, _⟩ := SessionManager.heap_of_getSession hp
      exact ⟨w.sessions.heap_lt p s hs, fun s' hs' => Option.some.inj (hs'.symm.trans hs) ▸ hsocket⟩
    · rw [scan_concat] at hdrop
      cases hdrop
  | getLastHeartbeat p =>
    obtain ⟨s, hs⟩ := Option.isSome_iff_exists.mp hlive
    have hw : (World.handle (.getLastHeartbeat p) ch w).2 = w := by
      show (w.deref p (·.lastHeartbeat) (0 : Nat)).2 = w
      unfold World.deref
      rw [hs]
    rw [hw]
    refine ⟨h.mapped, fun c q hmem => ?_, fun c q hdrop hmem => .inl ?_⟩
    · rw [scan_concat] at hmem
      exact h.scanned c q hmem
    · rw [scan_concat] at hdrop hmem
      obtain ⟨_, hq⟩ := Option.ite_none_right_eq_some.mp hdrop
      cases Option.some.inj hq
      exact (h.scanned c p hmem).2 s hs ▸ h.mapped p s hs
  | removeSession c =>
    refine hsame hafter ?_ fun p hdrop => ?_
    · rw [scan_concat]
      rfl
    · rw [scan_concat] at hdrop
      cases hdrop
  | time =>
    refine hsame hafter ?_ fun p hdrop => ?_
    · rw [scan_concat]
      rfl
    · rw [scan_concat] at hdrop
      exact hdrop
  | _ => exact hunscanned trivial

end Scanning

/-! ### Who is occupied -/

section Occupied

variable {work : Work κ} {h : List (Worker κ × Call Op Op.Res)} {c : Socket} {k : Worker κ} {o : Op}

/-- A thread has still to write to a connection because it had, because it begins to answer a request, or
because it has just been told the descriptor. -/
theorem Occupied.before {r : o.Res} (hocc : Occupied work (h ++ [(k, ⟨o, r⟩)]) c) :
    Occupied work h c ∨ (work.begins h k = some c ∧ responseOf ⟨o, r⟩ = none) ∨
      (∃ p, (⟨o, r⟩ : Call Op Op.Res) = ⟨.getSocket p, c⟩) ∨
      ∃ n : Int, (⟨o, r⟩ : Call Op Op.Res) = ⟨.loadConnections, n⟩ ∧ isFull n = true ∧
        (hands (Pool.own h k)).accepted = some c := by
  obtain ⟨j, hj⟩ := hocc
  by_cases hjk : j = k
  · subst hjk
    rcases hj with hserves | hhand
    · cases j with
      | accepting => cases hserves
      | checking => cases hserves
      | handling j =>
        obtain ⟨⟨hdue, hmidway⟩, hsocket⟩ := Option.ite_none_right_eq_some.mp hserves
        rw [Pool.own_append_self] at hdue hmidway
        -- the call is no response, so the same body is still to be answered
        have hsilent : responseOf ⟨o, r⟩ = none := by
          unfold midway at hmidway
          rw [List.getLast?_concat, Option.any_some] at hmidway
          exact Option.isNone_iff_eq_none.mp hmidway
        have hdue' : Due (work.received j) (Pool.own h (.handling j)) := by
          unfold Due at hdue
          rw [responsesSent_concat, hsilent, Option.toList_none, List.append_nil] at hdue
          exact hdue
        cases hbefore : midway (Pool.own h (.handling j)) with
        | true => exact .inl ⟨.handling j, .inl ((if_pos ⟨hdue', hbefore⟩).trans hsocket)⟩
        | false => exact .inr (.inl ⟨(if_pos ⟨hdue', hbefore⟩).trans hsocket, hsilent⟩)
    · rw [Pool.own_append_self] at hhand
      rcases hhand.before with hhand | hread | hfull
      · exact .inl ⟨j, .inr hhand⟩
      · exact .inr (.inr (.inl hread))
      · exact .inr (.inr (.inr hfull))
  · have hown : Pool.own (h ++ [(k, ⟨o, r⟩)]) j = Pool.own h j := Pool.own_append_ne (Ne.symm hjk) _
    refine .inl ⟨j, hj.imp (fun hserves => ?_) fun hhand => hown ▸ hhand⟩
    cases j with
    | accepting => cases hserves
    | checking => cases hserves
    | handling j =>
      dsimp only [Server.Work.serves] at hserves ⊢
      rwa [hown] at hserves

/-- Who still has an answer to write to its own connection is answering there, or begins to. -/
theorem occupied_of_due {k : κ} (hdue : Due (work.received k) (Pool.own h (.handling k))) :
    Occupied work h (work.clientSocket k) ∨ work.begins h (.handling k) = some (work.clientSocket k) := by
  cases hmidway : midway (Pool.own h (.handling k)) with
  | true => exact .inl ⟨.handling k, .inl (if_pos ⟨hdue, hmidway⟩)⟩
  | false => exact .inr (if_pos ⟨hdue, hmidway⟩)

/-- Nothing but a shutdown breaks a connection from within. -/
theorem Process.broken_perform {s : Process P} {ch : Choice} (h : (s.perform o ch).2.Broken c) :
    s.Broken c ∨ o = .shutdown c := by
  obtain ⟨hopen, hgone⟩ := h
  have hkept : (∀ d, o ≠ .accept d) → c ∈ s.world.openSockets :=
    fun ho => openSockets_handle ho ch s.world hopen
  cases o with
  | accept d =>
    obtain ⟨hc, hcd⟩ := List.mem_filter.mp hgone
    have hne : c ≠ d := of_decide_eq_true hcd
    exact .inl ⟨(List.mem_cons.mp hopen).resolve_left hne, hc⟩
  | shutdown d =>
    rcases List.mem_cons.mp hgone with rfl | hgone
    · exact .inr rfl
    · exact .inl ⟨hkept nofun, hgone⟩
  | _ => exact .inl ⟨hkept nofun, hgone⟩

end Occupied

/-- A descriptor is taken by another when it gets a session after it was closed. -/
theorem reopened_concat {h : List (Worker κ × Op)} {k : κ} {c : Socket} {e : Worker κ × Op}
    (hre : reopened k c (h ++ [e]) = true) : reopened k c h = true ∨
      adds c e.2 = true ∧ (Pool.own h (.handling k)).any (closes c) = true := by
  induction h with
  | nil =>
    rw [List.nil_append, reopened] at hre
    split at hre <;> cases hre
  | cons e' h ih =>
    have hown : ∀ o ∈ Pool.own h (.handling k), o ∈ Pool.own (e' :: h) (.handling k) :=
      fun o ho => Pool.mem_own.mpr (List.mem_cons_of_mem _ (Pool.mem_own.mp ho))
    rw [List.cons_append, reopened] at hre
    rw [reopened]
    split
    · rename_i hcloses
      rw [if_pos hcloses, List.any_append, Bool.or_eq_true] at hre
      refine hre.imp_right fun hadds => ⟨?_, ?_⟩
      · rwa [List.any_cons, List.any_nil, Bool.or_false] at hadds
      · refine List.any_eq_true.mpr ⟨e'.2, Pool.mem_own.mpr ?_, hcloses.2⟩
        rw [← hcloses.1]
        exact List.mem_cons_self
    · rename_i hcloses
      rw [if_neg hcloses] at hre
      refine (ih hre).imp_right fun htaken => ?_
      obtain ⟨hadds, hany⟩ := htaken
      obtain ⟨o, ho, hclosed⟩ := List.any_eq_true.mp hany
      exact ⟨hadds, List.any_eq_true.mpr ⟨o, hown o ho, hclosed⟩⟩

/-! ### The invariant -/

/-- A broken connection is one that nobody has still to write to; a connection whose descriptor has been
taken by another has removed its session; and the heartbeat check knows what it drops. -/
structure Unharmed (work : Work κ) (t : Running P κ) : Prop where
  runsOn : RunsOn t
  keeps : ∀ k, (t.threads k).Obeys (work.Keeps k) (Pool.own t.calls k)
  unoccupied : ∀ c, t.shared.Broken c → ¬ Occupied work t.calls c
  replaced : ∀ k, reopened k (work.clientSocket k) t.history = true →
    (Pool.own t.history (.handling k)).any (removes (work.clientSocket k)) = true ∨
      (t.threads (.handling k)).isPure = true
  scanning : Scanning t.shared.world (Pool.own t.calls .checking)

theorem unharmed_start (db : Database P) (work : Work κ) :
    Unharmed work (Pool.start (workers P work) (Process.start db)) where
  runsOn := runsOn_start db work
  keeps := workers_keep work
  unoccupied c hc := absurd hc.1 nofun
  replaced k hk := by cases hk
  scanning := ⟨nofun, nofun, nofun⟩

section Steps

variable {work : Work κ} {t : Running P κ} {e : Worker κ × List Socket × Choice} {o : Op}
  {f : o.Res → Action Unit}

/-- The connections that are broken by the time of a call are unoccupied. -/
theorem Unharmed.unoccupied_lose (h : Unharmed work t) (hcall : t.threads e.1 = .call o f)
    (he : WellTimed work t e) {c : Socket} (hc : (t.shared.lose e.2.1).Broken c) :
    ¬ Occupied work t.calls c := by
  unfold WellTimed at he
  rw [hcall] at he
  obtain ⟨hopen, hgone⟩ := hc
  rcases List.mem_append.mp hgone with hbreaks | hgone
  · exact he.1 c hbreaks hopen
  · exact h.unoccupied c ⟨hopen, hgone⟩

/-- What the call of a step is known to be: it keeps to the protocol of its thread. -/
theorem Unharmed.keeps_call (h : Unharmed work t) (hcall : t.threads e.1 = .call o f) :
    work.Keeps e.1 (Pool.own t.calls e.1) o := by
  have hok := h.keeps e.1
  rw [hcall] at hok
  exact hok.1

/-- No frame is written to a broken connection: whoever writes to it has its descriptor in hand, or
answers on it, and nobody does who is not already at it. -/
theorem Unharmed.not_broken_of_write (h : Unharmed work t) (he : WellTimed work t e) {c : Socket}
    {frame : Frame} {f : Op.Res (.sendData c frame) → Action Unit}
    (hcall : t.threads e.1 = .call (.sendData c frame) f) : ¬ (t.shared.lose e.2.1).Broken c := by
  intro hbroken
  have hunoccupied := h.unoccupied_lose hcall he hbroken
  have hhand : ¬ InHand (Pool.own t.calls e.1) c := fun hc => hunoccupied ⟨e.1, .inr hc⟩
  have hok := h.keeps_call hcall
  unfold WellTimed at he
  rw [hcall] at he
  obtain ⟨-, hbegins, -⟩ := he
  generalize e.1 = k at hhand hok hbegins
  cases k with
  | accepting => exact hhand hok
  | checking =>
    obtain ⟨⟨hsilent, hwrites⟩, -⟩ := hok
    exact hhand (hwrites.resolve_left (Bool.eq_false_iff.mp hsilent))
  | handling k =>
    obtain ⟨⟨hanswers, hwrites⟩, -⟩ := hok
    have hresponse : frame.isResponse = true := hwrites.resolve_right hhand
    rcases hanswers with hsilent | ⟨rfl, parsed, hnext, hanswerable, -⟩
    · exact absurd hresponse (Bool.eq_false_iff.mp hsilent)
    · have hdue : Due (work.received k) (Pool.own t.calls (.handling k)) :=
        ⟨parsed, hnext, hanswerable⟩
      -- so it would be an answer on its own connection, which somebody is at, or begins just now
      rcases occupied_of_due hdue with hocc | hbegin
      · exact hunoccupied hocc
      · exact hbegins _ hbegin hbroken

/-- Nobody's session is removed but the thread's own: a connection removes one session, and while it has
still to do so its descriptor is not taken by another; and the heartbeat check drops the session that it
has found idle, unless somebody was faster. -/
theorem Unharmed.none_of_remove (h : Unharmed work t) {c : Socket}
    {f : Op.Res (.removeSession c) → Action Unit}
    (hcall : t.threads e.1 = .call (.removeSession c) f) (hothers : work.Others t e.1 c) :
    t.shared.world.sessions.getSession c = none := by
  have hok := h.keeps_call hcall
  generalize e.1 = k at hok hcall hothers
  cases k with
  | accepting => cases hok
  | checking =>
    obtain ⟨p, hdropping, hlisted⟩ := hok.2
    exact (h.scanning.dropped c p hdropping hlisted).resolve_left (hothers p hdropping)
  | handling k =>
    obtain ⟨rfl, hfirst⟩ := hok.2
    rcases h.replaced k (hothers rfl) with hremoved | hpure
    · -- it would be the second time
      obtain ⟨o, ho, hremoves⟩ := List.any_eq_true.mp hremoved
      unfold removes at hremoves
      split at hremoves
      · rw [of_decide_eq_true hremoves, Pool.history, ← Pool.opsOf_own] at ho
        exact absurd ho hfirst
      · cases hremoves
    · rw [hcall] at hpure
      cases hpure

/-- **Every step heeds what it has to.** No frame is written to a broken connection, no session is used
that is gone, nobody's session is removed but the thread's own, and nobody is marked offline who is
logged in elsewhere. The first and the third are facts about the code; the other two are what the
condition says. -/
theorem Unharmed.stepHeeds (h : Unharmed work t) (he : WellTimed work t e) : StepHeeds work t e := by
  unfold StepHeeds
  cases hcall : t.threads e.1 with
  | pure a => trivial
  | call o f =>
    have htimely : Timely work t e.1 e.2 o := by
      unfold WellTimed at he
      rw [hcall] at he
      exact he.2.2
    dsimp only
    cases o with
    | sendData c frame => exact h.not_broken_of_write he hcall
    | removeSession c => exact h.none_of_remove hcall
    | sql st =>
      cases st with
      | updateOnlineByName u isOnline =>
        intro hch d hothers i hi hu
        exact htimely hch d (mem_keys_of_accountAt hi) hothers i hi hu
      | _ => exact htimely
    | getSocket p =>
      obtain ⟨session, hsession, -⟩ := htimely
      exact Option.isSome_iff_exists.mpr ⟨session, hsession⟩
    | loadConnections | shutdown | addSession => trivial
    | _ => exact htimely

/-- Who is broken after a call has nobody who has still to write to it. -/
theorem Unharmed.unoccupied_perform (h : Unharmed work t) (hcall : t.threads e.1 = .call o f)
    (he : WellTimed work t e) {c : Socket}
    (hc : ((t.shared.lose e.2.1).perform o e.2.2).2.Broken c) :
    ¬ Occupied work (t.calls ++ [(e.1, ⟨o, ((t.shared.lose e.2.1).perform o e.2.2).1⟩)]) c := by
  have hunoccupied := fun c => h.unoccupied_lose (c := c) hcall he
  have hok := h.keeps_call hcall
  unfold WellTimed at he
  rw [hcall] at he
  obtain ⟨-, hbegins, htimely⟩ := he
  intro hocc
  rcases Process.broken_perform hc with hbroken | rfl
  · rcases hocc.before with hocc | ⟨hbegin, -⟩ | ⟨p, hread⟩ | ⟨n, hload, hfull, haccepted⟩
    · exact hunoccupied c hbroken hocc
    · exact hbegins c hbegin hbroken
    · cases congrArg Sigma.fst hread
      obtain ⟨session, hsession, hwhole⟩ := htimely
      have hanswer : (t.shared.world.deref p (·.socket) (0 : Nat)).1 = c := eq_of_heq (Sigma.mk.inj hread).2
      unfold World.deref at hanswer
      rw [hsession] at hanswer
      have hsocket : session.socket = c := hanswer
      exact hwhole (hsocket ▸ hbroken)
    · cases congrArg Sigma.fst hload
      have hanswer : t.shared.world.currentConnections = n := eq_of_heq (Sigma.mk.inj hload).2
      exact htimely (hanswer ▸ hfull) c haccepted hbroken
  · -- the thread that shuts it down is in the middle of something else
    rcases hocc.before with hocc | ⟨hbegin, -⟩ | ⟨p, hread⟩ | ⟨n, hload, -⟩
    · exact htimely hocc
    · generalize e.1 = k at *
      cases k with
      | accepting => cases hbegin
      | checking => cases hbegin
      | handling k =>
        obtain ⟨⟨-, hfirst⟩, -⟩ := Option.ite_none_right_eq_some.mp hbegin
        have hmidway : midway (Pool.own t.calls (.handling k)) = true := hok.1.2
        cases hfirst.symm.trans hmidway
    · cases congrArg Sigma.fst hread
    · cases congrArg Sigma.fst hload

/-- Whose descriptor is taken by another is through with its session. -/
theorem Unharmed.over_step (h : Unharmed work t) (hcall : t.threads e.1 = .call o f)
    (he : WellTimed work t e) (r : o.Res) {k : κ}
    (hk : reopened k (work.clientSocket k) (Pool.opsOf (t.calls ++ [(e.1, ⟨o, r⟩)])) = true) :
    (Pool.own (Pool.opsOf (t.calls ++ [(e.1, ⟨o, r⟩)])) (.handling k)).any
        (removes (work.clientSocket k)) = true ∨ (t.threads (.handling k)).isPure = true := by
  have hkept : ∀ o' ∈ Pool.own t.history (.handling k),
      o' ∈ Pool.own (Pool.opsOf (t.calls ++ [(e.1, ⟨o, r⟩)])) (.handling k) := by
    intro o' ho'
    rw [Pool.opsOf_append]
    exact Pool.mem_own.mpr (List.mem_append_left _ (Pool.mem_own.mp ho'))
  have hthrough : (Pool.own t.history (.handling k)).any (removes (work.clientSocket k)) = true ∨
      (t.threads (.handling k)).isPure = true := by
    rw [Pool.opsOf_append] at hk
    rcases reopened_concat hk with hre | ⟨hadds, hclosed⟩
    · exact h.replaced k hre
    · unfold WellTimed at he
      rw [hcall] at he
      obtain ⟨-, -, htimely⟩ := he
      cases o with
      | addSession d =>
        obtain rfl : d = work.clientSocket k := of_decide_eq_true hadds
        by_contra hnot
        rw [not_or, Bool.not_eq_true, Bool.not_eq_true] at hnot
        exact htimely.2 (.handling k) ⟨rfl, hclosed, hnot⟩
      | _ => cases hadds
  refine hthrough.imp_left fun hany => ?_
  obtain ⟨o', ho', hremoves⟩ := List.any_eq_true.mp hany
  exact List.any_eq_true.mpr ⟨o', hkept o' ho', hremoves⟩

/-- The heartbeat check knows what it drops, whoever makes the call. -/
theorem Unharmed.scanning_step (h : Unharmed work t) (hcall : t.threads e.1 = .call o f)
    (he : WellTimed work t e) (hheeds : StepHeeds work t e) :
    Scanning (World.handle o e.2.2 t.shared.world).2
      (Pool.own (t.calls ++ [(e.1, ⟨o, (World.handle o e.2.2 t.shared.world).1⟩)]) .checking) := by
  unfold WellTimed at he
  rw [hcall] at he
  obtain ⟨-, -, htimely⟩ := he
  have hafter : Scanning (World.handle o e.2.2 t.shared.world).2 (Pool.own t.calls .checking) := by
    refine h.scanning.handle ?_ e.2.2
    rintro c rfl
    exact ⟨htimely.1, fun p hdropping hlisted => htimely.2 .checking ⟨p, hdropping, hlisted⟩⟩
  by_cases hk : e.1 = .checking
  · rw [hk, Pool.own_append_self]
    refine h.scanning.call hafter ?_
    unfold StepHeeds at hheeds
    rw [hcall] at hheeds
    cases o with
    | sendData | removeSession => trivial
    | sql st => trivial
    | _ => exact hheeds
  · rw [Pool.own_append_ne hk]
    exact hafter

/-- One step, of any thread, whatever breaks before it: it heeds what its call has to, so nobody is
harmed, and the invariant goes on to hold. -/
theorem Unharmed.step (h : Unharmed work t) (he : WellTimed work t e) :
    Unharmed work (Pool.step Process.handle t e) := by
  have hheeds := h.stepHeeds he
  have hruns : RunsOn (Pool.step Process.handle t e) :=
    ((staysLocal_iff h.runsOn e).mpr hheeds).runsOn h.runsOn
  have hkeeps := Pool.obeys_step (H := Process.handle) h.keeps e
  cases hcall : t.threads e.1 with
  | pure a =>
    have hsame : Pool.step Process.handle t e = t := by
      unfold Pool.step
      rw [hcall]
    rw [hsame]
    exact h
  | call o f =>
    -- nothing is written to a broken connection, so the process carries the call out
    have hpipes : ¬ (t.shared.lose e.2.1).Pipes o := by
      unfold StepHeeds at hheeds
      rw [hcall] at hheeds
      cases o with
      | sendData c frame => exact hheeds
      | _ => exact id
    have hperforms : Process.handle o e.2 t.shared = (t.shared.lose e.2.1).perform o e.2.2 :=
      Process.handle_performs h.runsOn.1 hpipes
    have hpure : ∀ k, (t.threads k).isPure = true →
        ((Pool.step Process.handle t e).threads k).isPure = true := by
      intro k hk
      obtain ⟨a, ha⟩ := Prog.isPure_iff.mp hk
      exact Prog.isPure_iff.mpr ⟨a, Pool.threads_step_pure ha e⟩
    rw [Pool.step_call hcall, hperforms] at hruns hkeeps hpure ⊢
    exact ⟨hruns, hkeeps, fun c hc => h.unoccupied_perform hcall he hc,
      fun k hk => (h.over_step hcall he _ hk).imp_right (hpure _), h.scanning_step hcall he hheeds⟩

end Steps

/-! ## Every interleaving -/

/-- **Failures stay local** in every run in which connections break at the right moments (`WellTimed`).
Whatever clients send and however the threads are interleaved, the process runs on, and no connection
loses its session, its login, its routes or its flag through what a thread does for another. -/
theorem failuresStayLocal_run (db : Database P) (work : Work κ)
    (es : List (Worker κ × List Socket × Choice))
    (hes : Meets (Pool.step Process.handle) (WellTimed work)
      (Pool.start (workers P work) (Process.start db)) es) : FailuresStayLocal db work es :=
  hes.of_inv (unharmed_start db work) (fun _ _ h he => h.step he) fun _ e h he =>
    (staysLocal_iff h.runsOn e).mpr (h.stepHeeds he)

/-! ### Deciding it -/

instance [Fintype κ] : Fintype (Worker κ) where
  elems := insert .accepting (insert .checking (Finset.univ.image .handling))
  complete k := by cases k <;> simp

instance [Fintype κ] (work : Work κ) (h : List (Worker κ × Call Op Op.Res)) (c : Socket) :
    Decidable (Occupied work h c) := by
  unfold Occupied
  infer_instance

instance (work : Work κ) (t : Running P κ) (k : Worker κ) (d : Socket) :
    Decidable (work.Others t k d) := by
  cases k <;> unfold Server.Work.Others <;> infer_instance

instance (work : Work κ) (t : Running P κ) (c : Socket) (k : Worker κ) :
    Decidable (StillEnds work t c k) := by
  cases k <;> unfold StillEnds <;> infer_instance

instance [Fintype κ] (work : Work κ) (t : Running P κ) (k : Worker κ) (e : List Socket × Choice)
    (o : Op) : Decidable (Timely work t k e o) := by
  apply Op.casesOn (motive := fun o => Decidable (Timely work t k e o)) o
  case sql =>
    intro st
    apply Stmt.casesOn (motive := fun st => Decidable (Timely work t k e (.sql st))) st <;> intros <;>
      unfold Timely <;> try unfold Op.Live
    all_goals infer_instance
  all_goals intros; unfold Timely; try unfold Op.Live
  all_goals infer_instance

instance [Fintype κ] (work : Work κ) (t : Running P κ) (e : Worker κ × List Socket × Choice) :
    Decidable (WellTimed work t e) := by
  unfold WellTimed
  cases t.threads e.1 <;> infer_instance

end Runs

/-! ## Bob goes, and Alice is told -/

/-- Alice, who has added Bob, logs in on one connection, and he on another. -/
def friendsWork : Work Bool where
  accepted := [1, 2]
  clientSocket
    | false => 1
    | true => 2
  received
    | false => [flatBody [("type", "LOGIN"), ("username", "alice"), ("password", "secret")]]
    | true => [flatBody [("type", "LOGIN"), ("username", "bob"), ("password", "qwerty")]]
  rounds := 0

def friendsDb : Database asciiCi := (runAll next (World.start Database.empty) aliceAddsBob).db

/-- Nothing breaks. -/
def quietly (schedule : List (Worker Bool × Nat)) : List (Worker Bool × List Socket × Choice) :=
  (turns schedule).map fun e => (e.1, [], e.2)

/-- Both log in, and Bob's connection breaks when all that he sent is answered. Alice is told that he has
come, and that he has gone. -/
theorem failuresStayLocal_afterwards : FailuresStayLocal friendsDb friendsWork
    (quietly [(.accepting, 8), (.handling false, 21), (.handling true, 24)] ++
      [(.handling true, [2], default)] ++ quietly [(.handling true, 14)]) :=
  failuresStayLocal_run friendsDb friendsWork _ (by decide +kernel)

/-! ## Bob is gone when Alice logs in -/

/-- Bob's connection breaks after his login, just before Alice's tells him that she is online. -/
def bobBreaks : List (Worker Bool × List Socket × Choice) :=
  quietly [(.accepting, 8), (.handling true, 21), (.handling false, 17)] ++
    [(.handling false, [2], default)]

def bobBroken : Running asciiCi Bool :=
  runAll (Pool.step Process.handle)
    (Pool.start (workers asciiCi friendsWork) (Process.start friendsDb)) bobBreaks

theorem not_failuresStayLocal : ¬ ∀ (db : Database asciiCi) (work : Work Bool)
    (es : List (Worker Bool × List Socket × Choice)),
    Meets (Pool.step Process.handle)
      (Pool.Allows (fun e => Answers e.2) fun s h => Scheduled work s.world h)
      (Pool.start (workers asciiCi work) (Process.start db)) es →
    FailuresStayLocal db work es := by
  intro h
  have hlocal := h friendsDb friendsWork bobBreaks (by decide +kernel)
  have hruns : bobBroken.shared.alive = true := hlocal.runsOn.1
  have hended : bobBroken.shared.alive = false := by decide +kernel
  exact absurd (hended.symm.trans hruns) (by decide)

end LiteChat
