import LiteChat.Effect.Journal
import LiteChat.Proof.ThreadPool

/-!
# Every task that is taken is run

`submitted`, `taken` and `executed` are no data of the program, so what they say of it has to be checked
against what its threads do. The journal of a run (`journal`) is that: the calls that the threads make
under their labels, with who made them and for which task. It is read off the labels and the steps alone,
and not off the pool.

`TasksExecuted` says that the two agree. What has been submitted is the first queue and the tasks of the
`SubmitTask` calls in the journal, in their order; the calls of a task that has been taken are what its
code makes (`Effect.Prog.Makes`), all of them by the worker who took it, up to the end of the code if the
task counts as executed; and the state that the tasks work on is what the calls of the journal, one after
the other, have made of it. With `TasksInOrder` and the last checks of the workers this is what
`taskPool_run` says of every run.
-/

namespace LiteChat

open ThreadPool

variable {n : Nat} {κ ω χ σ τ : Type} {Res : ω → Type} {T : Tasks ω Res χ σ τ}

/-! ## The journal -/

/-- A call that the code of a task makes, or that of a client: who runs the code, the number of the task if
it is one, what the environment chose, and the call with its answer. -/
structure TaskEntry (n : Nat) (κ ω χ τ : Type) (Res : ω → Type) : Type where
  thread : PoolThread n κ
  ticket : Option Nat
  choice : χ
  call : Effect.Call (TaskOp ω τ) (TaskOp.Res Res)

namespace TaskEntry

/-- The task that is submitted with the call, if it is one to `SubmitTask`. -/
def submitted (e : TaskEntry n κ ω χ τ Res) : Option τ :=
  match e.call.1 with
  | .submitTask task => some task
  | .perform _ => none

/-- What the call makes of the state that the tasks work on. -/
def change (T : Tasks ω Res χ σ τ) (y : σ) (e : TaskEntry n κ ω χ τ Res) : σ :=
  match e.call.1 with
  | .perform o => (T.handle o e.choice y).2
  | .submitTask _ => y

/-- The calls that were made for a task. -/
def ofTask (ticket : Nat) (h : List (TaskEntry n κ ω χ τ Res)) :
    List (Effect.Call (TaskOp ω τ) (TaskOp.Res Res)) :=
  (h.filter fun e => e.ticket = some ticket).map call

theorem ofTask_concat (ticket : Nat) (h : List (TaskEntry n κ ω χ τ Res))
    (e : TaskEntry n κ ω χ τ Res) : ofTask ticket (h ++ [e]) =
      ofTask ticket h ++ if e.ticket = some ticket then [e.call] else [] := by
  unfold ofTask
  rw [List.filter_append, List.map_append]
  congr 1
  split <;> simp [*]

variable [DecidableEq κ]

/-- The calls that a client has made. -/
def ofClient (k : κ) (h : List (TaskEntry n κ ω χ τ Res)) :
    List (Effect.Call (TaskOp ω τ) (TaskOp.Res Res)) :=
  (h.filter fun e => e.thread = .client k).map call

theorem ofClient_concat (k : κ) (h : List (TaskEntry n κ ω χ τ Res))
    (e : TaskEntry n κ ω χ τ Res) : ofClient k (h ++ [e]) =
      ofClient k h ++ if e.thread = .client k then [e.call] else [] := by
  unfold ofClient
  rw [List.filter_append, List.map_append]
  congr 1
  split <;> simp [*]

end TaskEntry

/-- The call that a thread makes with its next step: an operation of its code, or the one by which its task
comes into the queue. -/
def callAt (T : Tasks ω Res χ σ τ) (t : PoolThread n κ) (c : χ) :
    TaskLabel κ ω Res τ → TaskPool n κ σ τ → Option (TaskEntry n κ ω χ τ Res)
  | .running ticket (.call (.perform o) _), x =>
    some ⟨t, ticket, c, ⟨.perform o, (T.handle o c x.user).1⟩⟩
  | .pushing ticket task _, _ => some ⟨t, ticket, c, ⟨.submitTask task, ()⟩⟩
  | _, _ => none

theorem callAt_silent (t : PoolThread n κ) (c : χ) (l : TaskLabel κ ω Res τ) (x : TaskPool n κ σ τ)
    (h : ∀ f, (program T n κ).code t l ≠ .act f) : callAt T t c l x = none := by
  cases l with
  | running ticket p => cases p with
    | pure => rfl
    | call o k => cases o with
      | perform => exact absurd rfl (h _)
      | submitTask => rfl
  | pushing => exact absurd rfl (h _)
  | _ => rfl

/-- What is left of the code that a thread runs. A worker that has just taken a task has all of it before
it, and whoever is in the middle of `SubmitTask` has made the call when the task is in the queue. -/
def TaskLabel.rest (T : Tasks ω Res χ σ τ) : TaskLabel κ ω Res τ → Option (TaskCode ω Res τ)
  | .entering _ task => some (T.body task)
  | .running _ p => some p
  | .pushing _ task k => some (.call (.submitTask task) k)
  | .pushed _ k | .notifying _ k => some (k ())
  | _ => none

/-- A thread that is at a task has some of its code before it. -/
theorem exists_rest {l : TaskLabel κ ω Res τ} {ticket : Nat} (hl : l.ticket = some ticket) :
    ∃ p, l.rest T = some p := by
  cases l with
  | entering | running | pushing | pushed | notifying => exact ⟨_, rfl⟩
  | _ => cases hl

theorem exists_rest_client {l : TaskLabel κ ω Res τ} (hl : l.kind = .client) :
    ∃ p, l.rest T = some p := by
  cases l with
  | entering | running | pushing | pushed | notifying => exact ⟨_, rfl⟩
  | _ => cases hl

/-- What is no call leaves the code as it is. -/
theorem Goes.rest {ended : PoolThread n κ → Bool} {x : TaskPool n κ σ τ}
    {l next : TaskLabel κ ω Res τ} (hgoes : Goes T n ended x l next) :
    next.ticket = l.ticket ∧ next.rest T = l.rest T := by
  cases hgoes <;> exact ⟨rfl, rfl⟩

/-! ## What the pool says of itself is true -/

variable [DecidableEq κ]

/-- Of the labels, the pool and the journal: the calls of every task and of every client are what their
code makes, and the pool's own records are those of the journal. -/
structure Journaled (T : Tasks ω Res χ σ τ) (clients : κ → TaskCode ω Res τ) (queue : List τ) (y : σ)
    (labels : PoolThread n κ → TaskLabel κ ω Res τ) (x : TaskPool n κ σ τ)
    (h : List (TaskEntry n κ ω χ τ Res)) : Prop where
  submitted : x.submitted = queue ++ h.filterMap TaskEntry.submitted
  user : x.user = h.foldl (TaskEntry.change T) y
  atTask : ∀ t ticket task p, (labels t).ticket = some ticket → (labels t).rest T = some p →
    x.taken[ticket]? = some (t, task) → (T.body task).Makes (TaskEntry.ofTask ticket h) p
  executed : ∀ ticket ∈ x.executed, ∀ t task, x.taken[ticket]? = some (t, task) →
    (T.body task).Makes (TaskEntry.ofTask ticket h) (.pure ())
  untaken : ∀ ticket, x.taken.length ≤ ticket → TaskEntry.ofTask ticket h = []
  atClient : ∀ k p, (labels (.client k)).rest T = some p →
    (clients k).Makes (TaskEntry.ofClient k h) p
  maker : ∀ e ∈ h, ∀ ticket, e.ticket = some ticket → ∃ task, x.taken[ticket]? = some (e.thread, task)

/-- What has been submitted is what the calls of `SubmitTask` have submitted, what has been taken is run by
who took it, once and to its end before it counts as executed, and the clients run their own code. -/
structure TasksExecuted (T : Tasks ω Res χ σ τ) (clients : κ → TaskCode ω Res τ) (queue : List τ) (y : σ)
    (s : Effect.Monitor (PoolThread n κ) (TaskPool n κ σ τ) (TaskLabel κ ω Res τ))
    (h : List (TaskEntry n κ ω χ τ Res)) : Prop where
  submitted : s.shared.submitted = queue ++ h.filterMap TaskEntry.submitted
  user : s.shared.user = h.foldl (TaskEntry.change T) y
  run : ∀ ticket t task, s.shared.taken[ticket]? = some (t, task) →
    ∃ p, (T.body task).Makes (TaskEntry.ofTask ticket h) p ∧
      if ticket ∈ s.shared.executed then p = .pure () else (s.labels t).rest T = some p
  untaken : ∀ ticket, s.shared.taken.length ≤ ticket → TaskEntry.ofTask ticket h = []
  maker : ∀ e ∈ h, ∀ ticket, e.ticket = some ticket →
    ∃ task, s.shared.taken[ticket]? = some (e.thread, task)
  client : ∀ k, ∃ p, (s.labels (.client k)).rest T = some p ∧
    (clients k).Makes (TaskEntry.ofClient k h) p

section Steps

variable {clients : κ → TaskCode ω Res τ} {queue : List τ} {y : σ}
  {labels : PoolThread n κ → TaskLabel κ ω Res τ} {x x' : TaskPool n κ σ τ}
  {t : PoolThread n κ} {next : TaskLabel κ ω Res τ} {h : List (TaskEntry n κ ω χ τ Res)}
  {s s' : Effect.Monitor (PoolThread n κ) (TaskPool n κ σ τ) (TaskLabel κ ω Res τ)}

/-- The journal knows of every task that was taken. -/
theorem Journaled.tasksExecuted (hkept : TasksKept s.labels s.shared)
    (hj : Journaled T clients queue y s.labels s.shared h) : TasksExecuted T clients queue y s h where
  submitted := hj.submitted
  user := hj.user
  run ticket t task htaken := by
    by_cases hended : ticket ∈ s.shared.executed
    · exact ⟨.pure (), hj.executed ticket hended t task htaken, by rw [if_pos hended]⟩
    · have hat := (hkept.taken ticket t task htaken).2.resolve_left hended
      obtain ⟨p, hp⟩ := exists_rest (T := T) hat
      exact ⟨p, hj.atTask t ticket task p hat hp htaken, by rwa [if_neg hended]⟩
  untaken := hj.untaken
  maker := hj.maker
  client k := by
    obtain ⟨p, hp⟩ := exists_rest_client (T := T) (hkept.kinds (.client k))
    exact ⟨p, hp, hj.atClient k p hp⟩

/-- A thread that calls nothing, and stays in the code that it runs. -/
theorem Journaled.relabel (hj : Journaled T clients queue y labels x h)
    (hticket : next.ticket = (labels t).ticket) (hrest : next.rest T = (labels t).rest T)
    (hsubmitted : x'.submitted = x.submitted) (huser : x'.user = x.user) (htaken : x'.taken = x.taken)
    (hexecuted : x'.executed = x.executed) :
    Journaled T clients queue y (Function.update labels t next) x' h := by
  have same : ∀ u, (Function.update labels t next u).ticket = (labels u).ticket ∧
      (Function.update labels t next u).rest T = (labels u).rest T := by
    intro u
    by_cases hu : u = t
    · subst hu
      rw [Function.update_self]
      exact ⟨hticket, hrest⟩
    · rw [Function.update_of_ne hu]
      exact ⟨rfl, rfl⟩
  refine ⟨hsubmitted.trans hj.submitted, huser.trans hj.user, fun u ticket task p hu hp => ?_, ?_, ?_,
    fun k p hp => ?_, ?_⟩
  · rw [htaken]
    exact hj.atTask u ticket task p ((same u).1 ▸ hu) ((same u).2 ▸ hp)
  · rw [htaken, hexecuted]
    exact hj.executed
  · rw [htaken]
    exact hj.untaken
  · exact hj.atClient k p ((same _).2 ▸ hp)
  · rw [htaken]
    exact hj.maker

/-- A thread that makes a call, and goes on with its answer, and the call comes into the journal. No other
task is concerned: a task is in the hands of one worker (`TasksKept.held`), and when it counts as executed
in nobody's. -/
theorem Journaled.calls (hkept : TasksKept labels x) (hj : Journaled T clients queue y labels x h)
    {ticket : Option Nat} {c : χ} {o : TaskOp ω τ} {k : TaskOp.Res Res o → TaskCode ω Res τ}
    {r : TaskOp.Res Res o} (hticket : (labels t).ticket = ticket)
    (hrest : (labels t).rest T = some (.call o k)) (hticket' : next.ticket = ticket)
    (hrest' : next.rest T = some (k r))
    (hsubmitted : x'.submitted = x.submitted ++
      (TaskEntry.submitted (⟨t, ticket, c, ⟨o, r⟩⟩ : TaskEntry n κ ω χ τ Res)).toList)
    (huser : x'.user = TaskEntry.change T x.user (⟨t, ticket, c, ⟨o, r⟩⟩ : TaskEntry n κ ω χ τ Res))
    (htaken : x'.taken = x.taken) (hexecuted : x'.executed = x.executed) :
    Journaled T clients queue y (Function.update labels t next) x' (h ++ [⟨t, ticket, c, ⟨o, r⟩⟩]) where
  submitted := by
    rw [hsubmitted, hj.submitted, List.filterMap_append, List.append_assoc]
    cases o <;> rfl
  user := by
    rw [huser, hj.user, List.foldl_append]
    rfl
  atTask u ticket' task p hu hp ht := by
    rw [htaken] at ht
    rw [TaskEntry.ofTask_concat]
    by_cases hut : u = t
    · subst hut
      rw [Function.update_self] at hu hp
      obtain rfl := hticket'.symm.trans hu
      obtain rfl := Option.some.inj (hrest'.symm.trans hp)
      rw [if_pos rfl]
      exact (hj.atTask u ticket' task _ hticket hrest ht).call r
    · rw [Function.update_of_ne hut] at hu hp
      -- another thread holds another number
      have hne : ticket ≠ some ticket' := by
        rintro rfl
        obtain ⟨⟨task', ht'⟩, _⟩ := hkept.held t ticket' hticket
        exact hut (Prod.mk.inj (Option.some.inj (ht.symm.trans ht'))).1
      rw [if_neg hne, List.append_nil]
      exact hj.atTask u ticket' task p hu hp ht
  executed ticket' hended u task ht := by
    rw [hexecuted] at hended
    rw [htaken] at ht
    have hne : ticket ≠ some ticket' := by
      rintro rfl
      exact (hkept.held t ticket' hticket).2 hended
    rw [TaskEntry.ofTask_concat, if_neg hne, List.append_nil]
    exact hj.executed ticket' hended u task ht
  untaken ticket' hle := by
    rw [htaken] at hle
    have hne : ticket ≠ some ticket' := by
      rintro rfl
      obtain ⟨⟨task, ht⟩, _⟩ := hkept.held t ticket' hticket
      exact absurd (List.getElem?_eq_some_iff.mp ht).1 (not_lt.mpr hle)
    rw [TaskEntry.ofTask_concat, if_neg hne, List.append_nil]
    exact hj.untaken ticket' hle
  atClient k' p hp := by
    rw [TaskEntry.ofClient_concat]
    by_cases hkt : .client k' = t
    · subst hkt
      rw [Function.update_self] at hp
      obtain rfl := Option.some.inj (hrest'.symm.trans hp)
      rw [if_pos rfl]
      exact (hj.atClient k' _ hrest).call r
    · rw [Function.update_of_ne hkt] at hp
      rw [if_neg fun hthread => hkt hthread.symm, List.append_nil]
      exact hj.atClient k' p hp
  maker e he ticket' hticket'' := by
    rw [htaken]
    rcases List.mem_append.mp he with he | he
    · exact hj.maker e he ticket' hticket''
    · obtain rfl := List.mem_singleton.mp he
      exact (hkept.held t ticket' (hticket.trans hticket'')).1

/-- A worker takes a task: of a task with its number nothing has been called yet. -/
theorem Journaled.takes {i : Fin n} {task : τ} {tasks : List τ} (hkept : TasksKept labels x)
    (hj : Journaled T clients queue y labels x h) :
    Journaled T clients queue y
      (Function.update labels (.worker i) (.entering x.taken.length task))
      { x with
        taskQueue := tasks
        activeThreads := x.activeThreads + 1
        taken := x.taken ++ [(.worker i, task)] } h where
  submitted := hj.submitted
  user := hj.user
  atTask u ticket task' p hu hp ht := by
    by_cases hui : u = .worker i
    · subst hui
      rw [Function.update_self] at hu hp
      obtain rfl := Option.some.inj hu
      obtain rfl := Option.some.inj hp
      -- of this number nothing is in the journal yet
      obtain rfl : task = task' := by simpa using ht
      rw [hj.untaken _ le_rfl]
      exact .start
    · rw [Function.update_of_ne hui] at hu hp
      obtain ⟨⟨other, hother⟩, _⟩ := hkept.held u ticket hu
      refine hj.atTask u ticket task' p hu hp ?_
      rwa [List.getElem?_append_left (List.getElem?_eq_some_iff.mp hother).1] at ht
  executed ticket hended u task' ht := by
    rw [List.getElem?_append_left (hkept.ended ticket hended)] at ht
    exact hj.executed ticket hended u task' ht
  untaken ticket hle := hj.untaken ticket (by
    rw [List.length_append] at hle
    omega)
  atClient k p hp := by
    rw [Function.update_of_ne (show PoolThread.client k ≠ .worker i from nofun)] at hp
    exact hj.atClient k p hp
  maker e he ticket hticket := by
    obtain ⟨task', ht⟩ := hj.maker e he ticket hticket
    exact ⟨task', List.getElem?_append_left (List.getElem?_eq_some_iff.mp ht).1 ▸ ht⟩

/-- A worker has come to the end of its task. -/
theorem Journaled.ends {i : Fin n} {ticket : Nat} {a : Unit}
    (hj : Journaled T clients queue y labels x h)
    (hl : labels (.worker i) = .running (some ticket) (.pure a)) (hkept : TasksKept labels x) :
    Journaled T clients queue y (Function.update labels (.worker i) .looping) (endTask ticket x) h where
  submitted := hj.submitted
  user := hj.user
  atTask u other task p hu hp ht := by
    by_cases hui : u = .worker i
    · subst hui
      rw [Function.update_self] at hu
      cases hu
    · rw [Function.update_of_ne hui] at hu hp
      exact hj.atTask u other task p hu hp ht
  executed other hended u task ht := by
    rcases List.mem_append.mp hended with hended | hended
    · exact hj.executed other hended u task ht
    · obtain rfl := List.mem_singleton.mp hended
      have hticket : (labels (.worker i)).ticket = some other := by rw [hl]; rfl
      obtain ⟨⟨task', ht'⟩, _⟩ := hkept.held _ other hticket
      obtain ⟨rfl, rfl⟩ := Prod.mk.inj (Option.some.inj (ht.symm.trans ht'))
      exact hj.atTask _ other task _ hticket (by rw [hl]; rfl) ht
  untaken := hj.untaken
  atClient k p hp := by
    rw [Function.update_of_ne (show PoolThread.client k ≠ .worker i from nofun)] at hp
    exact hj.atClient k p hp
  maker := hj.maker

/-- **What one step does to the journal**: it is kept with the labels and the pool. An operation of a task
and the call by which a task comes into the queue are noted; nothing else changes what the journal is
about, but that a task is taken, and that it has ended. -/
theorem Journaled.step {noted : Option (TaskEntry n κ ω χ τ Res)} (hkept : TasksKept s.labels s.shared)
    (hj : Journaled T clients queue y s.labels s.shared h)
    (hnotes : Effect.Monitor.Notes (program T n κ) (callAt T) s s' noted) :
    Journaled T clients queue y s'.labels s'.shared (h ++ noted.toList) := by
  have silent : ∀ {l : PoolThread n κ → TaskLabel κ ω Res τ} {x : TaskPool n κ σ τ},
      Journaled T clients queue y l x h →
      Journaled T clients queue y l x (h ++ (none : Option (TaskEntry n κ ω χ τ Res)).toList) :=
    fun hj => by rwa [Option.toList_none, List.append_nil]
  cases hnotes with
  | stays hlabels hshared => exact hlabels ▸ hshared ▸ silent hj
  | goes t next hleads hlabels hshared =>
    obtain ⟨hticket, hrest⟩ := (goes_of_leads hleads).rest
    rw [hshared, hlabels]
    exact silent (hj.relabel hticket hrest rfl rfl rfl rfl)
  | acts t c f hcode hlabels hshared =>
    rw [hshared, hlabels]
    by_cases hperforms : ∃ ticket o k, s.labels t = .running ticket (.call (.perform o) k)
    -- the answer in the journal is the one that the code goes on with
    · obtain ⟨ticket, o, k, hl⟩ := hperforms
      rw [hl] at hcode ⊢
      cases hcode
      exact hj.calls hkept (by rw [hl]; rfl) (by rw [hl]; rfl) rfl rfl (List.append_nil _).symm rfl rfl rfl
    · have hacts := acts_of_code hcode c s.shared
      have worker : (s.labels t).kind = .worker → ∃ i, t = .worker i := by
        intro hw
        rw [hkept.kinds t] at hw
        cases t with
        | worker i => exact ⟨i, rfl⟩
        | client | owner => cases hw
      generalize hl : s.labels t = l at hacts worker hperforms
      generalize (f c s.shared).1 = next at hacts
      generalize (f c s.shared).2 = x' at hacts
      cases hacts with
      | performs ticket o c' k => exact absurd ⟨ticket, o, k, rfl⟩ hperforms
      | leaves | stays | misses | stops =>
        exact silent (hj.relabel (by rw [hl]; rfl) (by rw [hl]; rfl) rfl rfl rfl rfl)
      | takes task tasks hqueue =>
        obtain ⟨i, rfl⟩ := worker rfl
        exact silent (hj.takes hkept)
      -- the code of the task is at its end, and the journal has all its calls
      | ends ticket a =>
        obtain ⟨i, rfl⟩ := worker rfl
        exact silent (hj.ends hl hkept)
      | pushes ticket task k =>
        exact hj.calls hkept (by rw [hl]; rfl) (by rw [hl]; rfl) rfl rfl rfl rfl rfl rfl

end Steps

/-! ## Every run -/

variable [Fintype κ]

/-- The journal of a run. -/
def journal (T : Tasks ω Res χ σ τ) (clients : κ → TaskCode ω Res τ) (ks : List κ)
    (x : TaskPool n κ σ τ) (es : List (Effect.Tick (PoolThread n κ) χ)) :
    List (TaskEntry n κ ω χ τ Res) :=
  Effect.noted (Effect.Monitor.next (program T n κ)) (Effect.Monitor.noteOf (callAt T))
    (threads clients ks x) es

theorem journal_append (T : Tasks ω Res χ σ τ) (clients : κ → TaskCode ω Res τ) (ks : List κ)
    (x : TaskPool n κ σ τ) (before after : List (Effect.Tick (PoolThread n κ) χ)) :
    journal T clients ks x before <+: journal T clients ks x (before ++ after) := by
  unfold journal
  rw [Effect.noted_append]
  exact List.prefix_append _ _

omit [Fintype κ] in
theorem journaled_threads (T : Tasks ω Res χ σ τ) (clients : κ → TaskCode ω Res τ) (ks : List κ)
    (queue : List τ) (stop : Bool) (y : σ) :
    Journaled T clients queue y (threads (n := n) clients ks (create queue stop y)).labels
      (create queue stop y) [] where
  submitted := (List.append_nil _).symm
  user := rfl
  atTask t ticket task p ht := by cases t <;> cases ht
  executed := nofun
  untaken _ _ := rfl
  atClient k p hp := by
    obtain rfl := Option.some.inj hp
    exact .start
  maker := nofun

/-- The pool and the journal agree after every run: `Journaled` holds of the threads before their first
step, and every step keeps it. -/
theorem tasksExecuted_run (T : Tasks ω Res χ σ τ) (clients : κ → TaskCode ω Res τ) (ks : List κ)
    (queue : List τ) (stop : Bool) (y : σ) (es : List (Effect.Tick (PoolThread n κ) χ)) :
    TasksExecuted T clients queue y (runPool T clients ks (create queue stop y) es)
      (journal T clients ks (create queue stop y) es) := by
  let Inv := fun (s : Effect.Monitor (PoolThread n κ) (TaskPool n κ σ τ) (TaskLabel κ ω Res τ))
    (h : List (TaskEntry n κ ω χ τ Res)) =>
    TaskPoolInv T s ∧ Journaled T clients queue y s.labels s.shared h
  have hstart : Inv (threads clients ks (create queue stop y)) [] :=
    ⟨taskPoolInv_threads clients ks queue stop y, journaled_threads T clients ks queue stop y⟩
  have hstep : ∀ s h e, Inv s h → Inv (s.next (program T n κ) e)
      (h ++ (s.noteOf (callAt T) e).toList) := fun s h e hinv =>
    ⟨Effect.Monitor.next_inv (fun _ _ _ h hstep => h.step hstep) s e hinv.1,
      hinv.2.step hinv.1.kept (Effect.Monitor.next_notes callAt_silent s e)⟩
  obtain ⟨hinv, hj⟩ := Effect.noted_inv hstep hstart es
  exact hj.tasksExecuted hinv.kept

/-- What has been submitted stays at its place. -/
theorem submitted_append (T : Tasks ω Res χ σ τ) (clients : κ → TaskCode ω Res τ) (ks : List κ)
    (queue : List τ) (stop : Bool) (y : σ) (before after : List (Effect.Tick (PoolThread n κ) χ)) :
    (runPool T clients ks (create queue stop y) before).shared.submitted <+:
      (runPool T clients ks (create queue stop y) (before ++ after)).shared.submitted := by
  rw [(tasksExecuted_run T clients ks queue stop y before).submitted,
    (tasksExecuted_run T clients ks queue stop y (before ++ after)).submitted]
  exact (List.prefix_append_right_inj _).mpr ((journal_append T clients ks _ before after).filterMap _)

/-- **The pool executes what it is given, in order, and nothing is left when its workers exit**, for
any number of workers and clients and in whatever order they make their steps. The tasks of the
`SubmitTask` calls in the journal are taken in their order, each by one worker, who makes the calls of its
code, and no others count as its execution; `activeThreads` counts the workers that are at one. When all
workers have exited, of every task that was submitted while one of them had not made its last check the
journal has the calls up to the end of its code. -/
theorem taskPool_run (T : Tasks ω Res χ σ τ) (clients : κ → TaskCode ω Res τ) (ks : List κ)
    (queue : List τ) (stop : Bool) (y : σ) (es : List (Effect.Tick (PoolThread n κ) χ)) :
    TasksInOrder (runPool T clients ks (create queue stop y) es) ∧
      TasksExecuted T clients queue y (runPool T clients ks (create queue stop y) es)
        (journal T clients ks (create queue stop y) es) ∧
      ((∀ i, (runPool T clients ks (create queue stop y) es).labels (.worker i) = .returned) →
        ∀ before after, es = before ++ after → ∀ i,
          ((runPool T clients ks (create queue stop y) before).labels (.worker i)).exits = false →
          ∀ ticket task,
            (runPool T clients ks (create queue stop y) before).shared.submitted[ticket]? = some task →
            ticket ∈ (runPool T clients ks (create queue stop y) es).shared.executed ∧
              (T.body task).Makes (TaskEntry.ofTask ticket (journal T clients ks (create queue stop y) es))
                (.pure ())) := by
  have horder := (taskPoolInv_run T clients ks queue stop y es).inOrder
  have hexecuted := tasksExecuted_run T clients ks queue stop y es
  refine ⟨horder, hexecuted, ?_⟩
  rintro hreturned before after rfl i hopen ticket task htask
  have hended := executed_of_exits T clients ks queue stop y before after hreturned hopen
    (List.getElem?_eq_some_iff.mp htask).1
  refine ⟨hended, ?_⟩
  obtain ⟨⟨t, task'⟩, htaken⟩ : ∃ entry,
      (runPool T clients ks (create queue stop y) (before ++ after)).shared.taken[ticket]? = some entry :=
    ⟨_, List.getElem?_eq_getElem (horder.executed.2 ticket hended)⟩
  -- the task that was taken with this number is the one that was submitted as the so-manyth
  have hsame : task' = task := by
    obtain ⟨rest, hrest⟩ := submitted_append T clients ks queue stop y before after
    have hsubmitted := htask
    rw [← List.getElem?_append_left (List.getElem?_eq_some_iff.mp htask).1, hrest, horder.order,
      List.getElem?_append_left (by simpa using horder.executed.2 ticket hended),
      List.getElem?_map, htaken] at hsubmitted
    exact Option.some.inj hsubmitted
  obtain ⟨p, hmakes, hp⟩ := hexecuted.run ticket t task' htaken
  rw [if_pos hended] at hp
  rw [← hsame, ← hp]
  exact hmakes

/-- A task notes its number, and the task 0 submits the task 7 after that. -/
def notingTasks : Tasks Nat (fun _ => Unit) Unit (List Nat) Nat where
  handle o _ y := ((), y ++ [o])
  body task := .call (.perform task) fun _ =>
    if task = 0 then .call (.submitTask 7) .pure else .pure ()

/-- The one client submits the task 0. -/
def submitsZero (_ : Unit) : TaskCode Nat (fun _ => Unit) Nat := .call (.submitTask 0) .pure

/-- So many steps of one of two workers, of the client or of the owner. -/
def poolSteps (t : PoolThread 2 Unit) (count : Nat) : List (Effect.Tick (PoolThread 2 Unit) Unit) :=
  List.replicate count (.step t () none)

def firstWorker : PoolThread 2 Unit := .worker ⟨0, Nat.two_pos⟩

def secondWorker : PoolThread 2 Unit := .worker ⟨1, Nat.one_lt_two⟩

/-- A worker goes to sleep, is woken up for the first task, and submits the second while it is at it. -/
def bothSubmitted : List (Effect.Tick (PoolThread 2 Unit) Unit) :=
  poolSteps secondWorker 3 ++ poolSteps (.client ()) 3 ++ [.step (.client ()) () (some secondWorker)] ++
    poolSteps secondWorker 10

/-- The other worker executes the second task before the first has ended, and the pool is destroyed. -/
def bothExecuted : List (Effect.Tick (PoolThread 2 Unit) Unit) :=
  poolSteps firstWorker 7 ++ poolSteps secondWorker 1 ++ poolSteps .owner 3 ++ poolSteps firstWorker 4 ++
    poolSteps secondWorker 4 ++ poolSteps .owner 2

theorem taskPool_bothExecuted :
    (runPool notingTasks submitsZero [()] (create [] false [])
      (bothSubmitted ++ bothExecuted)).shared.executed = [1, 0] ∧
    (runPool notingTasks submitsZero [()] (create [] false [])
      (bothSubmitted ++ bothExecuted)).shared.user = [0, 7] ∧
    (notingTasks.body 0).Makes [⟨.perform 0, ()⟩, ⟨.submitTask 7, ()⟩] (.pure ()) ∧
    (notingTasks.body 7).Makes
      (TaskEntry.ofTask 1 (journal notingTasks submitsZero [()]
        (create [] false [] : TaskPool 2 Unit (List Nat) Nat) (bothSubmitted ++ bothExecuted)))
      (.pure ()) := by
  obtain ⟨_, hexecuted, hends⟩ :=
    taskPool_run notingTasks submitsZero [()] [] false [] (bothSubmitted ++ bothExecuted)
  have hreturned : ∀ i, (runPool notingTasks submitsZero [()] (create [] false [])
      (bothSubmitted ++ bothExecuted)).labels (.worker i) = .returned :=
    Fin.forall_fin_two.mpr ⟨rfl, rfl⟩
  have hall := hends hreturned bothSubmitted bothExecuted rfl 0 rfl
  exact ⟨rfl, hexecuted.user.trans rfl, (hall 0 0 rfl).2, (hall 1 7 rfl).2⟩

end LiteChat
