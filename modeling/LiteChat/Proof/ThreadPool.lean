import LiteChat.Effect.Runs
import LiteChat.Effect.Signals
import LiteChat.Model.ThreadPool
import Mathlib.Data.Finset.Card

/-!
# Tasks are taken in order, once each

The queue, and the list of the tasks that have been taken, in their order, are together what has been
submitted (`TasksKept.order`). A task that has been taken has been executed, or the worker who took it
is at it (`TasksKept.taken`), and `activeThreads` counts those workers. A worker exits when there is
nothing left in the queue, so what was submitted before has been taken then, and when all have exited
it has been executed (`taskPool_run`).

Each of these is a statement about one state, kept by every step of any thread. What a step of a thread
does is first said once and for all (`Acts` for the steps that change the pool, `Goes` for those that
only go on), so that no invariant looks at the code of the pool again. Two of the invariants need more
than the tasks: that no worker takes from an empty queue rests on the mutex (`looks_alone`), and that a
worker who has made its last check has missed nothing is about one number of tasks, fixed beforehand
(`Seen`).

Spurious wakeups are steps like others, and so is a notification that nobody waits for. A task that
throws is left out: the source has no `catch` there, and the process would end.
-/

namespace LiteChat

open ThreadPool

variable {n : Nat} {κ ω χ σ τ : Type} {Res : ω → Type} {T : Tasks ω Res χ σ τ}

/-! ## Labels -/

/-- The three kinds of threads. -/
inductive ThreadKind
  | worker
  | client
  | owner

def PoolThread.kind : PoolThread n κ → ThreadKind
  | .worker _ => .worker
  | .client _ => .client
  | .owner => .owner

namespace TaskLabel

/-- Whose label it is. -/
def kind : TaskLabel κ ω Res τ → ThreadKind
  | .looping | .waiting | .checking | .taking | .entering _ _ | .exiting | .returned => .worker
  | .running ticket _ | .pushing ticket _ _ | .pushed ticket _ | .notifying ticket _ =>
    if ticket.isSome then .worker else .client
  | .awaiting _ | .waking | .joining _ => .owner

/-- The number of the task that is being executed. -/
def ticket : TaskLabel κ ω Res τ → Option Nat
  | .entering ticket _ => some ticket
  | .running ticket _ | .pushing ticket _ _ | .pushed ticket _ | .notifying ticket _ => ticket
  | _ => none

/-- The mutex is held from the lock of a critical section to its end. -/
def locked : TaskLabel κ ω Res τ → Bool
  | .waiting | .checking | .taking | .entering _ _ | .exiting | .pushing _ _ _ | .pushed _ _ => true
  | _ => false

/-- The thread looks for a task, or tells somebody of one. -/
def credit : TaskLabel κ ω Res τ → Bool
  | .waiting | .checking | .taking | .pushed _ _ | .notifying _ _ => true
  | _ => false

/-- The thread is in its critical section, after the wait. -/
def looks : TaskLabel κ ω Res τ → Bool
  | .checking | .taking => true
  | _ => false

/-- The worker has made its last check. -/
def exits : TaskLabel κ ω Res τ → Bool
  | .exiting | .returned => true
  | _ => false

end TaskLabel

/-- A thread stays what it is: no label of a worker leads to one of a client, and none of a client to
one of the thread that owns the pool. -/
theorem leads_kind (t : PoolThread n κ) (l : TaskLabel κ ω Res τ) (h : l.kind = t.kind) :
    (code T t l).Leads fun next => next.kind = t.kind := by
  cases l with
  | running ticket p =>
    cases p with
    | pure => cases ticket with
      | none => exact trivial
      | some => exact fun _ _ => h
    | call o k => cases o with
      | perform => exact fun _ _ => h
      | submitTask => exact h
  | checking =>
    intro c s
    dsimp only
    split <;> exact h
  | taking =>
    intro c s
    show (takeTask t s).1.kind = t.kind
    unfold takeTask
    split <;> exact h
  | pushing => exact fun _ _ => h
  | awaiting ks => cases ks with
    | nil => exact fun _ _ => h
    | cons => exact h
  | joining i =>
    show (joinWorkers i).Leads _
    unfold joinWorkers
    split
    · exact h
    · exact trivial
  | returned => exact trivial
  | _ => exact h

/-- The mutex is taken and given back where the labels say. `submitTask` lets it go before it notifies,
the worker before it runs its task. -/
theorem locks_program : Effect.Locks (program T n κ) fun _ => TaskLabel.locked := by
  intro t l
  cases l with
  | running ticket p =>
    cases p with
    | pure => cases ticket with
      | none => exact rfl
      | some => exact fun _ _ => rfl
    | call o k => cases o with
      | perform => exact fun _ _ => rfl
      | submitTask => exact ⟨rfl, rfl⟩
  | checking =>
    intro c s
    dsimp only
    split <;> rfl
  | taking =>
    intro c s
    show (takeTask t s).1.locked = true
    unfold takeTask
    split <;> rfl
  | pushing => exact fun _ _ => rfl
  | awaiting ks => cases ks with
    | nil => exact fun _ _ => rfl
    | cons => exact ⟨rfl, rfl⟩
  | joining i =>
    show (joinWorkers i).Locks _ _
    unfold joinWorkers
    split
    · exact ⟨rfl, rfl⟩
    · exact rfl
  | returned | notifying | waking => exact rfl
  | looping | waiting | entering | exiting | pushed => exact ⟨rfl, rfl⟩

/-- Whoever submits a task tells somebody, and who takes one has been told of it or was faster. Credit
is what is on its way: a thread that has been woken or that is about to notify. -/
theorem signals_program : Effect.Signals (program T n κ) (fun _ _ => True)
    (fun _ => TaskLabel.locked) (fun s => s.taskQueue.length) (fun _ => TaskLabel.credit) where
  pred s h := by simp_all [program]
  code t l _ := by
    cases l with
    | running ticket p =>
      cases p with
      | pure => cases ticket with
        | none => exact rfl
        | some => exact fun _ _ => ⟨fun _ => rfl, .inl le_rfl⟩
      | call o k => cases o with
        | perform => exact fun _ _ => ⟨fun _ => rfl, .inl le_rfl⟩
        | submitTask => exact nofun
    | checking =>
      intro c s
      refine ⟨nofun, ?_⟩
      cases h : stopped s with
      | true => exact .inr (by simp_all [stopped])
      | false => exact .inl (by simp [h, TaskLabel.credit])
    -- who takes a task uses its credit, unless there is nothing left to take
    | taking =>
      intro c s
      refine ⟨nofun, ?_⟩
      show (takeTask t s).2.taskQueue.length + 1 ≤
        s.taskQueue.length + (takeTask t s).1.credit.toNat ∨ (takeTask t s).2.taskQueue.length = 0
      unfold takeTask
      split
      · exact .inr (by simp [*])
      · exact .inl (by simp [TaskLabel.credit, *])
    | pushing =>
      intro c s
      exact ⟨nofun, .inl (by simp [TaskLabel.credit, pushTask])⟩
    | awaiting ks => cases ks with
      | nil => exact fun _ _ => ⟨fun _ => rfl, .inl le_rfl⟩
      | cons => exact rfl
    | joining i =>
      show (joinWorkers i).Signals _ _ _ _
      unfold joinWorkers
      split <;> exact rfl
    | looping | entering | exiting => exact nofun
    | waiting => exact ⟨rfl, rfl⟩
    | pushed => exact fun _ => rfl
    | notifying | waking => exact trivial
    | returned => exact rfl

/-- Only one thread is in its critical section after the wait, so what it has checked there is still so
when it takes a task. -/
theorem looks_alone
    {s : Effect.Monitor (PoolThread n κ) (TaskPool n κ σ τ) (TaskLabel κ ω Res τ)}
    (h : s.Owned (program T n κ) fun _ => TaskLabel.locked) {t u : PoolThread n κ}
    (ht : (s.labels t).looks = true) (hu : (s.labels u).looks = true) : t = u := by
  have owner : ∀ {v : PoolThread n κ}, (s.labels v).looks = true → s.owner = some v := by
    intro v hv
    refine h.of_label ?_ fun next hcode => ?_
    · cases hl : s.labels v <;> simp_all [TaskLabel.looks, TaskLabel.locked]
    · change code T v (s.labels v) = .wait next at hcode
      cases hl : s.labels v <;> rw [hl] at hv hcode <;> cases hv <;> cases hcode
  exact Option.some.inj ((owner ht).symm.trans (owner hu))

/-! ## What a step does -/

/-- What a thread does under its own label: `l` and `s` before, `l'` and `s'` after. -/
inductive Acts (T : Tasks ω Res χ σ τ) (t : PoolThread n κ) (s : TaskPool n κ σ τ) :
    TaskLabel κ ω Res τ → TaskLabel κ ω Res τ → TaskPool n κ σ τ → Prop
  | performs (ticket : Option Nat) (o : ω) (c : χ)
      (k : Res o → TaskCode ω Res τ) :
      Acts T t s (.running ticket (.call (.perform o) k))
        (.running ticket (k (T.handle o c s.user).1)) { s with user := (T.handle o c s.user).2 }
  | leaves (h : stopped s = true) : Acts T t s .checking .exiting s
  | stays (h : stopped s = false) : Acts T t s .checking .taking s
  | takes (task : τ) (tasks : List τ) (h : s.taskQueue = task :: tasks) :
      Acts T t s .taking (.entering s.taken.length task)
        { s with
          taskQueue := tasks
          activeThreads := s.activeThreads + 1
          taken := s.taken ++ [(t, task)] }
  | misses (h : s.taskQueue = []) : Acts T t s .taking .exiting { s with undefined := true }
  | ends (ticket : Nat) (a : Unit) : Acts T t s (.running (some ticket) (.pure a)) .looping
      (endTask ticket s)
  | pushes (ticket : Option Nat) (task : τ) (k : Unit → TaskCode ω Res τ) :
      Acts T t s (.pushing ticket task k) (.pushed ticket k) (pushTask task s)
  | stops : Acts T t s (.awaiting []) .waking { s with stop := true }

/-- The labels under which the code changes the pool are those of `Acts`, and it changes the pool as
`Acts` says, whatever the environment chooses. -/
theorem acts_of_code {t : PoolThread n κ} {l : TaskLabel κ ω Res τ}
    {f : χ → TaskPool n κ σ τ → TaskLabel κ ω Res τ × TaskPool n κ σ τ} (hcode : code T t l = .act f)
    (c : χ) (s : TaskPool n κ σ τ) : Acts T t s l (f c s).1 (f c s).2 := by
  cases l with
  | running ticket p =>
    cases p with
    | pure a => cases ticket with
      | none => cases hcode
      | some ticket =>
        cases hcode
        exact .ends ticket a
    | call o k => cases o with
      | perform o =>
        cases hcode
        exact .performs ticket o c k
      | submitTask => cases hcode
  | checking =>
    cases hcode
    cases h : stopped s with
    | true => simpa [h] using .leaves h
    | false => simpa [h] using .stays h
  -- a worker takes the first task, or misses, were the queue empty
  | taking =>
    cases hcode
    show Acts T t s .taking (takeTask t s).1 (takeTask t s).2
    unfold takeTask
    split
    · exact .misses ‹_›
    · exact .takes _ _ ‹_›
  | pushing ticket task k =>
    cases hcode
    exact .pushes ticket task k
  | awaiting ks => cases ks with
    | nil =>
      cases hcode
      exact .stops
    | cons => cases hcode
  | joining i =>
    change joinWorkers i = _ at hcode
    unfold joinWorkers at hcode
    split at hcode <;> cases hcode
  | _ => cases hcode

/-- Where a thread goes otherwise. -/
inductive Goes (T : Tasks ω Res χ σ τ) (n : Nat) (ended : PoolThread n κ → Bool)
    (s : TaskPool n κ σ τ) : TaskLabel κ ω Res τ → TaskLabel κ ω Res τ → Prop
  | locks : Goes T n ended s .looping .waiting
  | waits (h : s.stop = true ∨ s.taskQueue ≠ []) : Goes T n ended s .waiting .checking
  | returns : Goes T n ended s .exiting .returned
  | enters (ticket : Nat) (task : τ) :
      Goes T n ended s (.entering ticket task) (.running (some ticket) (T.body task))
  | submits (ticket : Option Nat) (task : τ) (k : Unit → TaskCode ω Res τ) :
      Goes T n ended s (.running ticket (.call (.submitTask task) k)) (.pushing ticket task k)
  | unlocks (ticket : Option Nat) (k : Unit → TaskCode ω Res τ) :
      Goes T n ended s (.pushed ticket k) (.notifying ticket k)
  | notifies (ticket : Option Nat) (k : Unit → TaskCode ω Res τ) :
      Goes T n ended s (.notifying ticket k) (.running ticket (k ()))
  | awaits (k : κ) (ks : List κ) (h : ended (.client k) = true) :
      Goes T n ended s (.awaiting (k :: ks)) (.awaiting ks)
  | wakes : Goes T n ended s .waking (.joining 0)
  | joins (i : Nat) (h : i < n) : Goes T n ended s (.joining i) (.joining (i + 1))

/-- The labels that only lead on are those of `Goes`: a lock, a wait that is over, an unlock, a
notification, a join. -/
theorem goes_of_leads {t : PoolThread n κ} {l next : TaskLabel κ ω Res τ} {s : TaskPool n κ σ τ}
    {ended : PoolThread n κ → Bool} (h : (code T t l).LeadsTo (program T n κ).pred ended s next) :
    Goes T n ended s l next := by
  cases l with
  | looping => cases h; exact .locks
  | waiting =>
    cases h with
    | wait _ hpred => exact .waits (by simpa [program] using hpred)
  | exiting => cases h; exact .returns
  | entering ticket task => cases h; exact .enters ticket task
  | running ticket p =>
    cases p with
    | pure => cases ticket <;> cases h
    | call o k =>
      cases o <;> cases h
      exact .submits ticket _ k
  | pushed ticket k => cases h; exact .unlocks ticket k
  | notifying ticket k => cases h; exact .notifies ticket k
  | awaiting ks =>
    cases ks with
    | nil => cases h
    | cons k ks =>
      cases h with
      | join _ _ hended => exact .awaits k ks hended
  | waking => cases h; exact .wakes
  | joining i =>
    change (joinWorkers i).LeadsTo _ _ s next at h
    unfold joinWorkers at h
    split at h <;> cases h
    exact .joins i ‹_›
  | checking | taking | returned | pushing => cases h

/-- There is one place to wait for a task. -/
theorem code_wait {t : PoolThread n κ} {l next : TaskLabel κ ω Res τ}
    (h : code T t l = .wait next) : l = .waiting := by
  cases l with
  | running ticket p =>
    cases p with
    | pure => cases ticket <;> cases h
    | call o k => cases o <;> cases h
  | awaiting ks => cases ks <;> cases h
  | joining i =>
    change joinWorkers i = _ at h
    unfold joinWorkers at h
    split at h <;> cases h
  | waiting => rfl
  | _ => cases h

/-! ## Where the tasks are -/

variable {labels : PoolThread n κ → TaskLabel κ ω Res τ} {x : TaskPool n κ σ τ}
  {t : PoolThread n κ} {next : TaskLabel κ ω Res τ}
  {s s' : Effect.Monitor (PoolThread n κ) (TaskPool n κ σ τ) (TaskLabel κ ω Res τ)}

/-- The workers that are at a task. -/
def working (labels : PoolThread n κ → TaskLabel κ ω Res τ) : Finset (Fin n) :=
  Finset.univ.filter fun i => (labels (.worker i)).ticket.isSome

/-- Of the labels and the pool: every task is where it should be, and is counted. -/
structure TasksKept (labels : PoolThread n κ → TaskLabel κ ω Res τ) (x : TaskPool n κ σ τ) : Prop where
  kinds : ∀ t, (labels t).kind = t.kind
  order : x.submitted = x.taken.map Prod.snd ++ x.taskQueue
  held : ∀ t ticket, (labels t).ticket = some ticket →
    (∃ task, x.taken[ticket]? = some (t, task)) ∧ ticket ∉ x.executed
  taken : ∀ ticket t task, x.taken[ticket]? = some (t, task) →
    t.kind = .worker ∧ (ticket ∈ x.executed ∨ (labels t).ticket = some ticket)
  ended : ∀ ticket ∈ x.executed, ticket < x.taken.length
  once : x.executed.Nodup
  active : x.activeThreads = (working labels).card
  balance : x.taken.length = x.executed.length + (working labels).card

/-- With an empty queue everything has been taken. -/
theorem TasksKept.length_taken (h : TasksKept labels x) (hempty : x.taskQueue = []) :
    x.submitted.length = x.taken.length := by
  simp [h.order, hempty]

/-- Whoever is about to take a task will find one. -/
structure Found (labels : PoolThread n κ → TaskLabel κ ω Res τ) (x : TaskPool n κ σ τ) : Prop where
  checking : ∀ t, labels t = .checking → x.stop = true ∨ x.taskQueue ≠ []
  taking : ∀ t, labels t = .taking → x.taskQueue ≠ []
  defined : x.undefined = false

/-- What holds in every state of the threads. -/
structure TaskPoolInv (T : Tasks ω Res χ σ τ)
    (s : Effect.Monitor (PoolThread n κ) (TaskPool n κ σ τ) (TaskLabel κ ω Res τ)) : Prop where
  kept : TasksKept s.labels s.shared
  found : Found s.labels s.shared
  owned : s.Owned (program T n κ) fun _ => TaskLabel.locked
  signalled : s.Signalled (fun x => x.taskQueue.length) fun _ => TaskLabel.credit

/-- The tasks are taken in the order in which they are submitted, each by one worker, who executes it
once, and `activeThreads` counts the workers that are at a task. -/
structure TasksInOrder (s : Effect.Monitor (PoolThread n κ) (TaskPool n κ σ τ) (TaskLabel κ ω Res τ)) :
    Prop where
  order : s.shared.submitted = s.shared.taken.map Prod.snd ++ s.shared.taskQueue
  taken : ∀ ticket t task, s.shared.taken[ticket]? = some (t, task) → ∃ i, t = .worker i ∧
    (ticket ∈ s.shared.executed ↔ (s.labels t).ticket ≠ some ticket)
  executed : s.shared.executed.Nodup ∧ ∀ ticket ∈ s.shared.executed, ticket < s.shared.taken.length
  active : s.shared.activeThreads = (working s.labels).card
  bounds : 0 ≤ s.shared.activeThreads ∧ s.shared.activeThreads ≤ n
  defined : s.shared.undefined = false

theorem TaskPoolInv.inOrder (h : TaskPoolInv T s) : TasksInOrder s := by
  obtain ⟨hkept, hfound, _, _⟩ := h
  refine ⟨hkept.order, fun ticket t task ht => ?_, ⟨hkept.once, hkept.ended⟩, hkept.active, ?_,
    hfound.defined⟩
  · -- a ticket is open exactly while the worker who took it is at it
    obtain ⟨hworker, hwhere⟩ := hkept.taken ticket t task ht
    cases t with
    | client | owner => cases hworker
    | worker i =>
      refine ⟨i, rfl, fun hended hat => (hkept.held _ ticket hat).2 hended, fun hnot => ?_⟩
      exact hwhere.resolve_right hnot
  · have hle := Finset.card_le_univ (working s.labels)
    rw [Fintype.card_fin] at hle
    have hactive := hkept.active
    omega

/-- When all workers have exited, what has been taken has been executed: a task that was taken and not
executed is at some worker, and that worker's label would say so. -/
theorem TasksKept.executed_of_returned (h : TasksKept s.labels s.shared)
    (hreturned : ∀ i, s.labels (.worker i) = .returned) {ticket : Nat}
    (hticket : ticket < s.shared.taken.length) : ticket ∈ s.shared.executed := by
  have hentry := List.getElem?_eq_getElem hticket
  generalize s.shared.taken[ticket] = entry at hentry
  obtain ⟨t, task⟩ := entry
  obtain ⟨hworker, hwhere⟩ := h.taken ticket t task hentry
  refine hwhere.resolve_right fun hat => ?_
  cases t with
  | client | owner => cases hworker
  | worker i =>
    rw [hreturned i] at hat
    cases hat

/-- At first nothing is taken, nothing is executed, and the tasks that are submitted are those in the
queue. -/
theorem taskPoolInv_threads (clients : κ → TaskCode ω Res τ) (ks : List κ) (queue : List τ)
    (stop : Bool) (y : σ) :
    TaskPoolInv T (n := n) (threads clients ks (create queue stop y)) where
  kept := by
    refine ⟨fun t => ?_, rfl, fun t ticket ht => ?_, nofun, nofun, List.nodup_nil, ?_, ?_⟩
    · cases t <;> rfl
    · cases t <;> cases ht
    · simp [working, Effect.Monitor.labels, threads, Effect.Status.label, TaskLabel.ticket, create]
    · simp [working, Effect.Monitor.labels, threads, Effect.Status.label, TaskLabel.ticket, create]
  found := by
    refine ⟨fun t ht => ?_, fun t ht => ?_, rfl⟩
    · cases t <;> cases ht
    · cases t <;> cases ht
  owned := by
    refine ⟨fun t => ?_, fun t l hl => ?_⟩
    · cases t <;> exact ⟨nofun, nofun⟩
    · cases t <;> rcases hl with hl | hl | hl <;> cases hl
  signalled := by
    refine ⟨fun t l hl => ?_, fun t ht => ?_⟩
    · cases t <;> cases hl
    · cases t <;> cases ht

/-! ## The steps -/

variable [DecidableEq κ]

/-- A step that begins no task and ends none leaves the same workers at work. -/
theorem working_update_of_ticket (h : next.ticket = (labels t).ticket) :
    working (Function.update labels t next) = working labels := by
  unfold working
  refine Finset.filter_congr fun i _ => ?_
  by_cases hi : PoolThread.worker i = t
  · subst hi
    rw [Function.update_self, h]
  · rw [Function.update_of_ne hi]

theorem mem_working_update {i j : Fin n} :
    j ∈ working (Function.update labels (.worker i) next) ↔
      if j = i then next.ticket.isSome = true else j ∈ working labels := by
  unfold working
  by_cases hij : j = i
  · subst hij
    simp
  · have hne : PoolThread.worker (κ := κ) j ≠ .worker i := fun h => hij (PoolThread.worker.inj h)
    simp [hij]

/-- One worker more is at a task, if it was at none before. -/
theorem card_working_begin {i : Fin n} (hi : (labels (.worker i)).ticket = none)
    (hnext : next.ticket.isSome = true) :
    (working (Function.update labels (.worker i) next)).card = (working labels).card + 1 := by
  have hnew : i ∉ working labels := by simp [working, hi]
  rw [← Finset.card_insert_of_notMem hnew]
  congr 1
  ext j
  rw [mem_working_update, Finset.mem_insert]
  split <;> simp [*]

/-- One worker less is at a task, if it is at none afterwards. -/
theorem card_working_end {i : Fin n} (hi : (labels (.worker i)).ticket.isSome = true)
    (hnext : next.ticket = none) :
    (working (Function.update labels (.worker i) next)).card + 1 = (working labels).card := by
  have hmem : i ∈ working labels := by simp [working, hi]
  rw [← Finset.card_erase_add_one hmem]
  congr 2
  ext j
  rw [mem_working_update, Finset.mem_erase]
  split <;> simp [*]

/-- A step that changes neither the pool nor the number of the task that its thread is at keeps the
tasks where they are. -/
theorem TasksKept.relabel (h : TasksKept labels x) (hkind : next.kind = (labels t).kind)
    (hticket : next.ticket = (labels t).ticket) : TasksKept (Function.update labels t next) x := by
  have htickets : ∀ u, (Function.update labels t next u).ticket = (labels u).ticket := by
    intro u
    by_cases hu : u = t
    · subst hu
      rw [Function.update_self, hticket]
    · rw [Function.update_of_ne hu]
  refine ⟨fun u => ?_, h.order, fun u ticket hu => h.held u ticket (htickets u ▸ hu),
    fun ticket u task hu => ?_, h.ended, h.once, ?_, ?_⟩
  · by_cases hu : u = t
    · subst hu
      rw [Function.update_self, hkind]
      exact h.kinds u
    · rw [Function.update_of_ne hu]
      exact h.kinds u
  · rw [htickets]
    exact h.taken ticket u task hu
  · rw [working_update_of_ticket hticket]
    exact h.active
  · rw [working_update_of_ticket hticket]
    exact h.balance

/-- A worker takes the first task of the queue. Its number is the number of tasks that were taken
before, so it is a new one, and it is executed only later. -/
theorem TasksKept.takes {i : Fin n} {task : τ} {tasks : List τ} (h : TasksKept labels x)
    (hl : labels (.worker i) = .taking) (hqueue : x.taskQueue = task :: tasks) :
    TasksKept (Function.update labels (.worker i) (.entering x.taken.length task))
      { x with
        taskQueue := tasks
        activeThreads := x.activeThreads + 1
        taken := x.taken ++ [(.worker i, task)] } := by
  have hnone : (labels (.worker i)).ticket = none := by rw [hl]; rfl
  have hcard : (working (Function.update labels (.worker i) (.entering x.taken.length task))).card =
      (working labels).card + 1 := card_working_begin hnone rfl
  refine ⟨fun u => ?_, ?_, fun u ticket hu => ?_, fun ticket u task' hu => ?_, fun ticket hticket => ?_,
    h.once, ?_, ?_⟩
  · by_cases hu : u = .worker i
    · subst hu
      rw [Function.update_self]
      rfl
    · rw [Function.update_of_ne hu]
      exact h.kinds u
  · show x.submitted = (x.taken ++ [(PoolThread.worker i, task)]).map Prod.snd ++ tasks
    rw [h.order, hqueue]
    simp
  · -- the number that is new belongs to the worker, and the old ones to whom they did
    by_cases hui : u = .worker i
    · subst hui
      rw [Function.update_self] at hu
      obtain rfl := Option.some.inj hu
      exact ⟨⟨task, by simp⟩, fun hended => absurd (h.ended _ hended) (lt_irrefl _)⟩
    · rw [Function.update_of_ne hui] at hu
      obtain ⟨⟨task', htaken⟩, hopen⟩ := h.held u ticket hu
      exact ⟨⟨task', List.getElem?_append_left (List.getElem?_eq_some_iff.mp htaken).1 ▸ htaken⟩, hopen⟩
  · -- what was taken before, or the one just taken
    change (x.taken ++ [(PoolThread.worker i, task)])[ticket]? = some (u, task') at hu
    rw [List.getElem?_append] at hu
    split at hu
    · obtain ⟨hworker, hwhere⟩ := h.taken ticket u task' hu
      refine ⟨hworker, hwhere.imp_right fun hticket => ?_⟩
      -- another thread: this one had no task until now
      have hui : u ≠ .worker i := by
        rintro rfl
        simp [hnone] at hticket
      rwa [Function.update_of_ne hui]
    · rename_i hlt
      rw [List.getElem?_singleton] at hu
      split at hu
      · obtain ⟨rfl, _⟩ := Prod.mk.inj (Option.some.inj hu)
        refine ⟨rfl, .inr ?_⟩
        rw [Function.update_self]
        exact congrArg some (by omega)
      · cases hu
  · have hlt := h.ended ticket hticket
    show ticket < (x.taken ++ [(PoolThread.worker i, task)]).length
    rw [List.length_append]
    omega
  · show x.activeThreads + 1 = _
    rw [hcard, h.active]
    push_cast
    rfl
  · show (x.taken ++ [(PoolThread.worker i, task)]).length = _
    rw [hcard, List.length_append, h.balance]
    rfl

/-- A worker has executed its task. The number was open until now, so that it is executed once, and all
others stay as they were. -/
theorem TasksKept.ends {i : Fin n} {ticket : Nat} {p : TaskCode ω Res τ} (h : TasksKept labels x)
    (hl : labels (.worker i) = .running (some ticket) p) :
    TasksKept (Function.update labels (.worker i) .looping) (endTask ticket x) := by
  have hsome : (labels (.worker i)).ticket = some ticket := by rw [hl]; rfl
  have hcard : (working (Function.update labels (.worker i) .looping)).card + 1 =
      (working labels).card := card_working_end (by rw [hsome]; rfl) rfl
  obtain ⟨⟨task, htaken⟩, hopen⟩ := h.held _ ticket hsome
  have hmem : ∀ other, other ∈ x.executed ++ [ticket] ↔ other ∈ x.executed ∨ other = ticket :=
    fun other => by simp
  refine ⟨fun u => ?_, h.order, fun u other hu => ?_, fun other u task' hu => ?_, fun other hother => ?_,
    ?_, ?_, ?_⟩
  · by_cases hu : u = .worker i
    · subst hu
      rw [Function.update_self]
      rfl
    · rw [Function.update_of_ne hu]
      exact h.kinds u
  · by_cases hui : u = .worker i
    · subst hui
      rw [Function.update_self] at hu
      cases hu
    · rw [Function.update_of_ne hui] at hu
      obtain ⟨⟨task', htaken'⟩, hopen'⟩ := h.held u other hu
      refine ⟨⟨task', htaken'⟩, fun hended => ?_⟩
      rcases (hmem other).mp hended with hended | rfl
      · exact hopen' hended
      · -- one number is held by one thread: both would have taken it
        rw [htaken] at htaken'
        exact hui (Prod.mk.inj (Option.some.inj htaken')).1.symm
  · obtain ⟨hworker, hwhere⟩ := h.taken other u task' hu
    refine ⟨hworker, ?_⟩
    -- executed before; or the one that has just ended; or still at another worker
    rcases hwhere with hended | hat
    · exact .inl ((hmem other).mpr (.inl hended))
    · by_cases hui : u = .worker i
      · subst hui
        rw [hsome] at hat
        exact .inl ((hmem other).mpr (.inr (Option.some.inj hat).symm))
      · rw [Function.update_of_ne hui]
        exact .inr hat
  · rcases (hmem other).mp hother with hother | rfl
    · exact h.ended other hother
    · exact (List.getElem?_eq_some_iff.mp htaken).1
  · exact List.nodup_append.mpr ⟨h.once, List.nodup_singleton ticket, by
      rintro a ha b hb rfl
      rw [List.mem_singleton.mp hb] at ha
      exact hopen ha⟩
  · have hactive := h.active
    show x.activeThreads - 1 = _
    omega
  · have hbalance := h.balance
    show x.taken.length = (x.executed ++ [ticket]).length + _
    rw [List.length_append, List.length_singleton]
    omega

/-- A submitted task goes to the end of the queue, and is the last of those submitted. -/
theorem TasksKept.pushes {ticket : Option Nat} {task : τ} {k : Unit → TaskCode ω Res τ}
    (h : TasksKept labels x) (hl : labels t = .pushing ticket task k) :
    TasksKept (Function.update labels t (.pushed ticket k)) (pushTask task x) := by
  have h' : TasksKept (Function.update labels t (.pushed ticket k)) x :=
    h.relabel (by rw [hl]; rfl) (by rw [hl]; rfl)
  refine ⟨h'.kinds, ?_, h'.held, h'.taken, h'.ended, h'.once, h'.active, h'.balance⟩
  show x.submitted ++ [task] = x.taken.map Prod.snd ++ (x.taskQueue ++ [task])
  rw [h.order, List.append_assoc]

/-- Whatever a thread does under its own label keeps the tasks where they are. Only `takes`, `ends` and
`pushes` touch them. -/
theorem TasksKept.acts {x' : TaskPool n κ σ τ} (h : TasksKept labels x)
    (hacts : Acts T t x (labels t) next x') (hkind : next.kind = (labels t).kind) :
    TasksKept (Function.update labels t next) x' := by
  have worker : (labels t).kind = .worker → ∃ i, t = .worker i := by
    intro hw
    rw [h.kinds t] at hw
    cases t with
    | worker i => exact ⟨i, rfl⟩
    | client | owner => cases hw
  generalize hl : labels t = l at hacts hkind worker
  cases hacts with
  | performs | stops =>
    have h' := h.relabel (t := t) (hl ▸ hkind) (by rw [hl]; rfl)
    exact ⟨h'.kinds, h'.order, h'.held, h'.taken, h'.ended, h'.once, h'.active, h'.balance⟩
  | leaves | stays => exact h.relabel (hl ▸ hkind) (by rw [hl]; rfl)
  | takes task tasks hqueue =>
    obtain ⟨i, rfl⟩ := worker rfl
    exact h.takes hl hqueue
  -- a worker that finds nothing takes nothing; that it never happens is `Found`
  | misses =>
    have h' := h.relabel (t := t) (hl ▸ hkind) (by rw [hl]; rfl)
    exact ⟨h'.kinds, h'.order, h'.held, h'.taken, h'.ended, h'.once, h'.active, h'.balance⟩
  | ends ticket a =>
    obtain ⟨i, rfl⟩ := worker rfl
    exact h.ends hl
  | pushes ticket task k => exact h.pushes hl

/-- Any step of any thread keeps the tasks where they are. -/
theorem TasksKept.step (h : TasksKept s.labels s.shared)
    (hmoves : Effect.Monitor.Moves (program T n κ) s s') : TasksKept s'.labels s'.shared := by
  have hkinds := hmoves.labels_inv (fun t l => leads_kind t l) h.kinds
  have hkind : ∀ {t : PoolThread n κ} {next : TaskLabel κ ω Res τ},
      s'.labels = Function.update s.labels t next → next.kind = (s.labels t).kind := by
    intro t next hlabels
    rw [h.kinds t, ← hkinds t, hlabels, Function.update_self]
  cases hmoves with
  | stays hlabels hshared => exact hlabels ▸ hshared ▸ h
  | goes t next hleads hlabels hshared =>
    rw [hshared, hlabels]
    refine h.relabel (hkind hlabels) ?_
    generalize s.labels t = l at hleads
    cases goes_of_leads hleads <;> rfl
  | acts t c f hcode hlabels hshared =>
    rw [hshared, hlabels]
    exact h.acts (acts_of_code hcode c s.shared) (hkind hlabels)

/-! ## Nobody takes a task that is not there -/

/-- A step of one thread keeps what the others have found, as long as it takes no task from the queue
while another looks. -/
theorem Found.relabel {x' : TaskPool n κ σ τ} (h : Found labels x)
    (hchecking : next = .checking → x'.stop = true ∨ x'.taskQueue ≠ [])
    (htaking : next = .taking → x'.taskQueue ≠ []) (hundefined : x'.undefined = x.undefined)
    (hstop : x.stop = true → x'.stop = true)
    (hqueue : ∀ u, u ≠ t → (labels u).looks = true → x.taskQueue ≠ [] → x'.taskQueue ≠ []) :
    Found (Function.update labels t next) x' := by
  refine ⟨fun u hu => ?_, fun u hu => ?_, hundefined.trans h.defined⟩
  · by_cases hut : u = t
    · subst hut
      exact hchecking (by rwa [Function.update_self] at hu)
    · rw [Function.update_of_ne hut] at hu
      exact (h.checking u hu).imp hstop (hqueue u hut (by rw [hu]; rfl))
  · by_cases hut : u = t
    · subst hut
      exact htaking (by rwa [Function.update_self] at hu)
    · rw [Function.update_of_ne hut] at hu
      exact hqueue u hut (by rw [hu]; rfl) (h.taking u hu)

/-- Nobody takes a task that is not there: the one who may empty the queue is alone in the critical
section, and for a worker that goes on after its check the queue was not empty. -/
theorem Found.step (h : Found s.labels s.shared)
    (howned : s.Owned (program T n κ) fun _ => TaskLabel.locked)
    (hmoves : Effect.Monitor.Moves (program T n κ) s s') : Found s'.labels s'.shared := by
  cases hmoves with
  | stays hlabels hshared => exact hlabels ▸ hshared ▸ h
  | goes t next hleads hlabels hshared =>
    rw [hshared, hlabels]
    have hgoes := goes_of_leads hleads
    generalize s.labels t = l at hgoes
    cases hgoes with
    | waits hpred => exact h.relabel (fun _ => hpred) nofun rfl id fun _ _ _ => id
    | _ => exact h.relabel nofun nofun rfl id fun _ _ _ => id
  | acts t c f hcode hlabels hshared =>
    have hacts := acts_of_code hcode c s.shared
    rw [hshared, hlabels]
    generalize hl : s.labels t = l at hacts
    generalize (f c s.shared).1 = next at hacts ⊢
    generalize (f c s.shared).2 = x' at hacts ⊢
    cases hacts with
    | performs | ends => exact h.relabel nofun nofun rfl id fun _ _ _ => id
    | leaves => exact h.relabel nofun nofun rfl id fun _ _ _ => id
    -- it went on, so the pool was not stopped with an empty queue
    | stays hrunning =>
      refine h.relabel nofun (fun _ hempty => ?_) rfl id fun _ _ _ => id
      have hstop := (h.checking t hl).resolve_right (not_not.mpr hempty)
      simp [stopped, hstop, hempty] at hrunning
    -- whoever else looks would hold the mutex too
    | takes task tasks hqueue =>
      refine h.relabel nofun nofun rfl id fun u hu hlooks => ?_
      exact absurd (looks_alone howned hlooks (by rw [hl]; rfl)) hu
    | misses hempty => exact absurd hempty (h.taking t hl)
    | pushes =>
      exact h.relabel nofun nofun rfl id fun _ _ _ _ => by simp [pushTask]
    | stops => exact h.relabel nofun nofun rfl (fun _ => rfl) fun _ _ _ => id

/-! ## Nothing is left behind -/

/-- So many tasks have been submitted, and taken if the worker has made its last check. -/
structure Seen (N : Nat) (i : Fin n) (labels : PoolThread n κ → TaskLabel κ ω Res τ)
    (x : TaskPool n κ σ τ) : Prop where
  submitted : N ≤ x.submitted.length
  taken : (labels (.worker i)).exits = true → N ≤ x.taken.length

/-- What counts is that tasks are never submitted or taken back, and that nobody makes its last check
before the first so many are taken. -/
theorem Seen.relabel {x' : TaskPool n κ σ τ} {N : Nat} {i : Fin n} (h : Seen N i labels x)
    (hsubmitted : x.submitted.length ≤ x'.submitted.length)
    (htaken : x.taken.length ≤ x'.taken.length)
    (hexits : next.exits = true → (labels t).exits = true ∨ N ≤ x'.taken.length) :
    Seen N i (Function.update labels t next) x' := by
  refine ⟨h.submitted.trans hsubmitted, fun hexit => ?_⟩
  by_cases ht : PoolThread.worker i = t
  · subst ht
    rw [Function.update_self] at hexit
    rcases hexits hexit with hbefore | hall
    · exact (h.taken hbefore).trans htaken
    · exact hall
  · rw [Function.update_of_ne ht] at hexit
    exact (h.taken hexit).trans htaken

/-- A worker that makes its last check sees an empty queue, and then all that was submitted has been
taken. -/
theorem Seen.step {N : Nat} {i : Fin n} (h : Seen N i s.labels s.shared)
    (hkept : TasksKept s.labels s.shared)
    (hmoves : Effect.Monitor.Moves (program T n κ) s s') : Seen N i s'.labels s'.shared := by
  have all : s.shared.taskQueue = [] → N ≤ s.shared.taken.length := fun hempty =>
    hkept.length_taken hempty ▸ h.submitted
  cases hmoves with
  | stays hlabels hshared => exact hlabels ▸ hshared ▸ h
  | goes t next hleads hlabels hshared =>
    rw [hshared, hlabels]
    refine h.relabel le_rfl le_rfl fun hexits => .inl ?_
    have hgoes := goes_of_leads hleads
    generalize s.labels t = l at hgoes
    cases hgoes with
    | returns => rfl
    | _ => cases hexits
  | acts t c f hcode hlabels hshared =>
    have hacts := acts_of_code hcode c s.shared
    rw [hshared, hlabels]
    generalize s.labels t = l at hacts
    generalize (f c s.shared).1 = next at hacts ⊢
    generalize (f c s.shared).2 = x' at hacts ⊢
    cases hacts with
    -- the last check: the pool is stopped, and the queue is empty
    | leaves hstopped =>
      refine h.relabel le_rfl le_rfl fun _ => .inr (all ?_)
      simpa using (Bool.and_eq_true_iff.mp hstopped).2
    | misses hempty => exact h.relabel le_rfl le_rfl fun _ => .inr (all hempty)
    | takes => exact h.relabel le_rfl (by simp) nofun
    | pushes => exact h.relabel (by simp [pushTask]) le_rfl nofun
    | _ => exact h.relabel le_rfl le_rfl nofun

/-! ## Every run -/

/-- One step of any thread keeps the four parts. The mutex and the signals are the general theorems
about monitors, instantiated by `locks_program` and `signals_program`. -/
theorem TaskPoolInv.step {e : Effect.Tick (PoolThread n κ) χ} (h : TaskPoolInv T s)
    (hstep : Effect.Monitor.Steps (program T n κ) s e s') : TaskPoolInv T s' where
  kept := h.kept.step hstep.moves
  found := h.found.step h.owned hstep.moves
  owned := h.owned.step locks_program hstep
  signalled := h.signalled.step signals_program (fun _ => trivial) h.owned hstep

variable [Fintype κ]

/-- The pool, after steps of the threads. -/
def runPool (T : Tasks ω Res χ σ τ) (clients : κ → TaskCode ω Res τ) (ks : List κ)
    (x : TaskPool n κ σ τ) (es : List (Effect.Tick (PoolThread n κ) χ)) :
    Effect.Monitor (PoolThread n κ) (TaskPool n κ σ τ) (TaskLabel κ ω Res τ) :=
  Effect.runAll (Effect.Monitor.next (program T n κ)) (threads clients ks x) es

/-- The invariant holds in every state of every run, whatever the threads execute and in whatever order. -/
theorem taskPoolInv_run (T : Tasks ω Res χ σ τ) (clients : κ → TaskCode ω Res τ) (ks : List κ)
    (queue : List τ) (stop : Bool) (y : σ) (es : List (Effect.Tick (PoolThread n κ) χ)) :
    TaskPoolInv T (runPool T clients ks (create queue stop y) es) :=
  Effect.runAll_inv_always (taskPoolInv_threads clients ks queue stop y)
    (Effect.Monitor.next_inv fun _ _ _ h hstep => h.step hstep) es

/-- When all workers have exited, what had been submitted while one of them had not made its last check has
been executed. -/
theorem executed_of_exits (T : Tasks ω Res χ σ τ) (clients : κ → TaskCode ω Res τ) (ks : List κ)
    (queue : List τ) (stop : Bool) (y : σ) (before after : List (Effect.Tick (PoolThread n κ) χ))
    (hreturned : ∀ i, (runPool T clients ks (create queue stop y) (before ++ after)).labels (.worker i) =
      .returned) {i : Fin n}
    (hopen : ((runPool T clients ks (create queue stop y) before).labels (.worker i)).exits = false)
    {ticket : Nat}
    (hticket : ticket < (runPool T clients ks (create queue stop y) before).shared.submitted.length) :
    ticket ∈ (runPool T clients ks (create queue stop y) (before ++ after)).shared.executed := by
  have hbefore := taskPoolInv_run T clients ks queue stop y before
  have hstart : Seen (runPool T clients ks (create queue stop y) before).shared.submitted.length i
      (runPool T clients ks (create queue stop y) before).labels
      (runPool T clients ks (create queue stop y) before).shared :=
    ⟨le_rfl, fun hexits => absurd hexits (by simp [hopen])⟩
  generalize (runPool T clients ks (create queue stop y) before).shared.submitted.length = N
    at hstart hticket
  have hrun : runPool T clients ks (create queue stop y) (before ++ after) =
      Effect.runAll (Effect.Monitor.next (program T n κ))
        (runPool T clients ks (create queue stop y) before) after := Effect.runAll_append _ _ _
  rw [hrun] at hreturned ⊢
  let Inv := fun s : Effect.Monitor (PoolThread n κ) (TaskPool n κ σ τ) (TaskLabel κ ω Res τ) =>
    TaskPoolInv T s ∧ Seen N i s.labels s.shared
  have hstep : ∀ s s' e, Inv s → Effect.Monitor.Steps (program T n κ) s e s' → Inv s' :=
    fun _ _ _ h hstep => ⟨h.1.step hstep, h.2.step h.1.kept hstep.moves⟩
  obtain ⟨hinv, hseen⟩ : Inv _ := Effect.runAll_inv_always ⟨hbefore, hstart⟩
    (Effect.Monitor.next_inv hstep) after
  refine hinv.kept.executed_of_returned hreturned (hticket.trans_le (hseen.taken ?_))
  rw [hreturned i]
  rfl

end LiteChat
