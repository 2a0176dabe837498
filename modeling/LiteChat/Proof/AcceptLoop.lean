import LiteChat.Effect.Obeys
import LiteChat.Model.AcceptLoop
import LiteChat.Proof.TaskCalls

/-!
# Which connections are served

A task of the server is a connection, from its first request to its end, so a worker is taken for as
long as the connection is open. When every worker is at a task or has found nothing to do, as many
connections are served as are open, up to the number of workers; the others wait in the queue
(`queue_empty_iff`). The pool has ten workers, and 128 connections are admitted (`served_iff`).

That a worker may also have exited asks for the end of the server: it exits when the flag is set and
the queue is empty, and then the accept loop has ended, so that the queue stays empty (`Closing`).
-/

namespace LiteChat

open ThreadPool TaskCode

variable {n : Nat} {κ ω χ σ τ α β : Type} {Res : ω → Type} {T : Tasks ω Res χ σ τ}

/-! ## The accept loop -/

theorem withoutSubmits_lift (p : Effect.Prog ω Res α) :
    withoutSubmits (lift p : Effect.Prog (TaskOp ω τ) (TaskOp.Res Res) α) = p := by
  induction p with
  | pure a => rfl
  | call o k ih => exact congrArg (Effect.Prog.call o) (funext fun r => ih r)

theorem withoutSubmits_bind (p : Effect.Prog (TaskOp ω τ) (TaskOp.Res Res) α)
    (f : α → Effect.Prog (TaskOp ω τ) (TaskOp.Res Res) β) :
    withoutSubmits (p.bind f) = (withoutSubmits p).bind fun a => withoutSubmits (f a) := by
  induction p with
  | pure a => rfl
  | call o k ih =>
    cases o with
    | perform o => exact congrArg (Effect.Prog.call o) (funext fun r => ih r)
    | submitTask task => exact ih ()

/-- The accept loop is the one of `Model/Server.lean`, with the submissions. -/
theorem withoutSubmits_acceptAndSubmit (tasks : List Incoming) :
    withoutSubmits (Server.acceptAndSubmit tasks) =
      Server.acceptConnections (tasks.map Incoming.clientSocket) := by
  induction tasks with
  | nil => rfl
  | cons task tasks ih =>
    rw [List.map_cons]
    unfold Server.acceptAndSubmit Server.acceptConnections Server.acceptConnection
    simp only [Effect.Prog.bind_eq, withoutSubmits_bind, withoutSubmits_lift, Effect.Prog.bind_assoc]
    refine congrArg _ (funext fun _ => congrArg _ (funext fun connections => ?_))
    split
    · simp only [withoutSubmits_bind, withoutSubmits_lift, Effect.Prog.bind_assoc, ih]
    · simp only [withoutSubmits_bind, withoutSubmits_lift, Effect.Prog.bind_assoc, ih]
      rfl

/-! ## What is admitted, and what is submitted -/

/-- The connection that the operation gives a session, if it does. -/
def TaskOp.admits : TaskOp Op Incoming → Option Socket
  | .perform (.addSession c) => some c
  | _ => none

/-- The connection that the operation submits to the pool, if it does. -/
def TaskOp.submits : TaskOp Op Incoming → Option Socket
  | .submitTask task => some task.clientSocket
  | _ => none

/-- A call of the server's tasks, or of its accept loop. -/
abbrev TaskCall : Type := Effect.Call (TaskOp Op Incoming) (TaskOp.Res Op.Res)

/-- The connections that have been admitted with these calls. -/
def admitted (own : List TaskCall) : List Socket := (Effect.Prog.opsOf own).filterMap TaskOp.admits

/-- The connections that have been submitted with them. -/
def submitted (own : List TaskCall) : List Socket := (Effect.Prog.opsOf own).filterMap TaskOp.submits

theorem admitted_concat (own : List TaskCall) (o : TaskOp Op Incoming) (r : TaskOp.Res Op.Res o) :
    admitted (own ++ [⟨o, r⟩]) = admitted own ++ o.admits.toList := by
  unfold admitted
  rw [Effect.Prog.opsOf_append, List.filterMap_append]
  cases h : o.admits <;> simp [h]

theorem submitted_concat (own : List TaskCall) (o : TaskOp Op Incoming) (r : TaskOp.Res Op.Res o) :
    submitted (own ++ [⟨o, r⟩]) = submitted own ++ o.submits.toList := by
  unfold submitted
  rw [Effect.Prog.opsOf_append, List.filterMap_append]
  cases h : o.submits <;> simp [h]

/-- A connection is admitted when all before it have been submitted, and it is what is submitted next. -/
def SubmitsAdmitted (own : List TaskCall) : TaskOp Op Incoming → Prop
  | .perform (.addSession _) => admitted own = submitted own
  | .submitTask task => admitted own = submitted own ++ [task.clientSocket]
  | _ => True

/-- The accept loop gives a connection its session, and then submits its task, before it goes on to the
next one; whoever is refused is neither admitted nor submitted. -/
theorem expecting_acceptAndSubmit (tasks : List Incoming) {own : List TaskCall}
    (hown : admitted own = submitted own) :
    (Server.acceptAndSubmit tasks).Expecting (fun _ => True) SubmitsAdmitted
      (fun _ own' => admitted own' = submitted own') own := by
  induction tasks generalizing own with
  | nil => exact hown
  | cons task tasks ih =>
    refine ⟨trivial, fun accepted _ => ⟨trivial, fun connections _ => ?_⟩⟩
    have hloaded : ∀ own', own' = own ++ [⟨.perform (.accept task.clientSocket), accepted⟩] ++
        [⟨.perform .loadConnections, connections⟩] → admitted own' = submitted own' := by
      rintro _ rfl
      simpa only [admitted_concat, submitted_concat, TaskOp.admits, TaskOp.submits, Option.toList_none,
        List.append_nil] using hown
    generalize own ++ _ ++ _ = own' at hloaded ⊢
    replace hloaded := hloaded own' rfl
    revert connections
    intro (connections : Int) _
    change Effect.Prog.Expecting _ _ (if Server.maxConnections ≤ connections then _ else _) _ _
    split
    · refine ⟨trivial, fun _ _ => ⟨trivial, fun _ _ => ih ?_⟩⟩
      simpa only [admitted_concat, submitted_concat, TaskOp.admits, TaskOp.submits, Option.toList_none,
        List.append_nil] using hloaded
    · refine ⟨hloaded, fun _ _ => ⟨trivial, fun _ _ => ⟨?_, fun _ _ => ih ?_⟩⟩⟩
      all_goals
        simp only [SubmitsAdmitted, admitted_concat, submitted_concat, TaskOp.admits, TaskOp.submits,
          Option.toList_none, Option.toList_some, List.append_nil, hloaded]

/-- Wherever the accept loop is, it has submitted what it has admitted, but for the connection that it is
about to submit. -/
theorem admitted_of_makes {tasks : List Incoming} {own : List TaskCall} {q : ServerTask Unit}
    (h : (Server.acceptAndSubmit tasks).Makes own q) :
    ∃ pending, admitted own = submitted own ++ pending ∧ pending.length ≤ 1 ∧
      ∀ a, q = .pure a → pending = [] := by
  have hkeeps : ∀ (own : List TaskCall) (o : TaskOp Op Incoming) (r : TaskOp.Res Op.Res o),
      (∃ pending, admitted own = submitted own ++ pending ∧ pending.length ≤ 1) → SubmitsAdmitted own o →
      ∃ pending, admitted (own ++ [⟨o, r⟩]) = submitted (own ++ [⟨o, r⟩]) ++ pending ∧
        pending.length ≤ 1 := by
    rintro own o r ⟨pending, hpending, hlength⟩ hok
    rw [admitted_concat, submitted_concat]
    cases o with
    | submitTask task =>
      have hnext : admitted own = submitted own ++ [task.clientSocket] := hok
      exact ⟨[], by simp [TaskOp.admits, TaskOp.submits, hnext], Nat.zero_le 1⟩
    | perform o =>
      cases o with
      | addSession c =>
        have hall : admitted own = submitted own := hok
        exact ⟨[c], by simp [TaskOp.admits, TaskOp.submits, hall], le_rfl⟩
      | _ => exact ⟨pending, by simpa [TaskOp.admits, TaskOp.submits] using hpending, hlength⟩
  obtain ⟨⟨pending, hpending, hlength⟩, hq⟩ :=
    h.keeps (expecting_acceptAndSubmit tasks rfl) ⟨[], rfl, Nat.zero_le 1⟩ hkeeps
  refine ⟨pending, hpending, hlength, ?_⟩
  rintro a rfl
  have hall : admitted own = submitted own := hq
  rw [hall] at hpending
  exact List.self_eq_append_right.mp hpending

/-! ## Tasks that submit none -/

def TaskOp.performs : TaskOp ω τ → Prop
  | .perform _ => True
  | .submitTask _ => False

theorem uses_lift (p : Effect.Prog ω Res α) :
    (lift p : Effect.Prog (TaskOp ω τ) (TaskOp.Res Res) α).Uses TaskOp.performs := by
  induction p with
  | pure a => trivial
  | call o k ih => exact ⟨trivial, ih⟩

namespace TaskLabel

/-- A worker is not submitting a task, and its task will not. -/
def quiet : TaskLabel κ ω Res τ → Prop
  | .running (some _) p => p.Uses TaskOp.performs
  | .pushing (some _) _ _ | .pushed (some _) _ | .notifying (some _) _ => False
  | _ => True

/-- The clients that are still to be awaited. -/
def awaited : TaskLabel κ ω Res τ → List κ
  | .awaiting ks => ks
  | _ => []

/-- A client has come to its end. -/
def done : TaskLabel κ ω Res τ → Bool
  | .running none (.pure _) => true
  | _ => false

/-- In the middle of `SubmitTask`. -/
def submits : TaskLabel κ ω Res τ → Bool
  | .pushing _ _ _ | .pushed _ _ | .notifying _ _ => true
  | _ => false

end TaskLabel

/-- Tasks that submit no tasks: no worker ever gets to a label at which it would. -/
theorem leads_quiet (hT : ∀ task, (T.body task).Uses TaskOp.performs) (t : PoolThread n κ)
    (l : TaskLabel κ ω Res τ) (h : l.quiet) : (code T t l).Leads TaskLabel.quiet := by
  cases l with
  | running ticket p =>
    cases ticket with
    | none => cases p with
      | pure => exact trivial
      | call o k => cases o with
        | perform => exact fun _ _ => trivial
        | submitTask => exact trivial
    | some ticket => cases p with
      | pure => exact fun _ _ => trivial
      | call o k => cases o with
        | perform => exact fun c s => h.2 _
        | submitTask => exact h.1.elim
  | entering ticket task => exact hT task
  | checking =>
    intro c s
    dsimp only
    split <;> exact trivial
  | taking =>
    intro c s
    show (takeTask t s).1.quiet
    unfold takeTask
    split <;> exact trivial
  | pushing ticket => cases ticket with
    | none => exact fun _ _ => trivial
    | some => exact h.elim
  | pushed ticket | notifying ticket => cases ticket with
    | none => exact trivial
    | some => exact h.elim
  | awaiting ks => cases ks with
    | nil => exact fun _ _ => trivial
    | cons => exact trivial
  | joining i =>
    show (joinWorkers i).Leads _
    unfold joinWorkers
    split <;> exact trivial
  | _ => exact trivial

/-- A client that has ended does nothing more. -/
theorem not_goes_of_done {ended : PoolThread n κ → Bool} {s : TaskPool n κ σ τ}
    {l next : TaskLabel κ ω Res τ} (h : l.done = true) : ¬ Goes T n ended s l next := by
  intro hgoes
  cases hgoes with
  | submits ticket => cases ticket <;> cases h
  | _ => cases h

theorem not_acts_of_done {t : PoolThread n κ} {s s' : TaskPool n κ σ τ} {l next : TaskLabel κ ω Res τ}
    (h : l.done = true) : ¬ Acts T t s l next s' := by
  intro hacts
  cases hacts with
  | performs ticket => cases ticket <;> cases h
  | _ => cases h

/-! ## The end of the server -/

variable {labels : PoolThread n κ → TaskLabel κ ω Res τ} {x : TaskPool n κ σ τ} {t : PoolThread n κ}
  {s s' : Effect.Monitor (PoolThread n κ) (TaskPool n κ σ τ) (TaskLabel κ ω Res τ)}

/-- The clients end before the flag is set, and a worker that exits has left nothing in the queue. -/
structure Closing (labels : PoolThread n κ → TaskLabel κ ω Res τ) (x : TaskPool n κ σ τ) : Prop where
  quiet : ∀ t, (labels t).quiet
  awaited : ∀ k, k ∉ (labels .owner).awaited → (labels (.client k)).done = true
  stopped : x.stop = true → ∀ k, (labels (.client k)).done = true
  exited : ∀ t, (labels t).exits = true → x.stop = true ∧ x.taskQueue = []

theorem done_of_finished (hkinds : ∀ t, (s.labels t).kind = t.kind) {k : κ}
    (h : s.finished (program T n κ) (.client k) = true) : (s.labels (.client k)).done = true := by
  obtain ⟨l, hst, hcode⟩ := Effect.Monitor.finished_iff.mp h
  have hl : s.labels (.client k) = l := congrArg Effect.Status.label hst
  have hkind := hkinds (.client k)
  rw [hl] at hkind ⊢
  change code T _ l = .halt at hcode
  cases l with
  | running ticket p => cases ticket with
    | none => cases p with
      | pure => rfl
      | call o => cases o <;> cases hcode
    | some => cases hkind
  | returned => cases hkind
  | joining => cases hkind
  | awaiting ks => cases hkind
  | _ => cases hcode

/-! ## Who is served -/

/-- Whoever could take a task has taken one: every worker is at a task, sleeps or has exited, and
nobody is in the middle of `SubmitTask`. -/
structure TasksSettled (s : Effect.Monitor (PoolThread n κ) (TaskPool n κ σ τ) (TaskLabel κ ω Res τ)) :
    Prop where
  workers : ∀ i, (s.labels (.worker i)).ticket.isSome = true ∨
    (s.status (.worker i)).isBlocked = true ∨ (s.labels (.worker i)).exits = true
  clients : ∀ k, (s.labels (.client k)).submits = false

/-- The tasks that have been submitted and have not been executed. -/
def openTasks (x : TaskPool n κ σ τ) : Nat := x.submitted.length - x.executed.length

/-- Then nobody is about to look for a task, or to tell somebody of one. -/
theorem not_credited (hinv : TaskPoolInv T s) (hclosing : Closing s.labels s.shared)
    (hsettled : TasksSettled s) (t : PoolThread n κ) :
    (s.status t).credited TaskLabel.credit = false := by
  by_contra hcredited
  have hawake : (s.status t).isBlocked = false ∧ (s.labels t).credit = true := by
    cases hst : s.status t with
    | ready l =>
      rw [hst] at hcredited
      exact ⟨rfl, (show s.labels t = l from congrArg Effect.Status.label hst) ▸ by
        simpa [Effect.Status.credited] using hcredited⟩
    | woken l =>
      obtain ⟨next, hcode⟩ := hinv.owned.waits t l (.inr (.inr hst))
      refine ⟨rfl, ?_⟩
      rw [show s.labels t = l from congrArg Effect.Status.label hst,
        show l = .waiting from code_wait hcode]
      rfl
    | parking | blocked =>
      rw [hst] at hcredited
      exact absurd rfl hcredited
  obtain ⟨hblocked, hcredit⟩ := hawake
  have hkind := hinv.kept.kinds t
  have hquiet := hclosing.quiet t
  -- a worker in its critical section is neither at a task nor asleep, nor exits
  have worker : (s.labels t).kind = .worker → (s.labels t).ticket = none →
      (s.labels t).exits = false → False := by
    intro hworker hticket hexits
    cases t with
    | worker i =>
      rcases hsettled.workers i with h | h | h
      · simp [hticket] at h
      · simp [hblocked] at h
      · simp [hexits] at h
    | client | owner =>
      rw [hworker] at hkind
      cases hkind
  have client : (s.labels t).kind = .client → (s.labels t).submits = true → False := by
    intro hclient hsubmits
    cases t with
    | client k => simp [hsettled.clients k] at hsubmits
    | worker | owner =>
      rw [hclient] at hkind
      cases hkind
  generalize s.labels t = l at hcredit hquiet worker client
  cases l with
  | waiting | checking | taking => exact worker rfl rfl rfl
  | pushed ticket | notifying ticket => cases ticket with
    | none => exact client rfl rfl
    | some => exact hquiet
  | _ => cases hcredit

/-- **No task waits exactly if there are no more open tasks than workers.** -/
theorem queue_empty_iff (hinv : TaskPoolInv T s) (hclosing : Closing s.labels s.shared)
    (hsettled : TasksSettled s) : s.shared.taskQueue = [] ↔ openTasks s.shared ≤ n := by
  have hopen : openTasks s.shared = s.shared.taskQueue.length + (working s.labels).card := by
    have hbalance := hinv.kept.balance
    unfold openTasks
    rw [hinv.kept.order, List.length_append, List.length_map]
    omega
  have hle : (working s.labels).card ≤ n := by
    simpa using Finset.card_le_univ (working s.labels)
  constructor
  · intro hempty
    rw [hopen, hempty]
    simpa using hle
  · intro hfew
    by_contra hnonempty
    -- if a worker sleeps, or exits, then nothing is left
    have hall : working s.labels = Finset.univ := by
      refine Finset.eq_univ_of_forall fun i => ?_
      rcases hsettled.workers i with hticket | hblocked | hexits
      · simpa [working] using hticket
      · obtain ⟨is, _, his, hitems⟩ := hinv.signalled.told _ hblocked
        have hnone : is = [] := List.eq_nil_iff_forall_not_mem.mpr fun t ht =>
          absurd (his t ht) (by simp [not_credited hinv hclosing hsettled t])
        rw [hnone] at hitems
        exact absurd (List.length_eq_zero_iff.mp (Nat.le_zero.mp hitems)) hnonempty
      · exact absurd (hclosing.exited _ hexits).2 hnonempty
    rw [hopen, hall, Finset.card_univ, Fintype.card_fin] at hfew
    exact hnonempty (List.length_eq_zero_iff.mp (by omega))

/-! ## Every run -/

theorem closing_threads (clients : κ → TaskCode ω Res τ) {ks : List κ} (hks : ∀ k, k ∈ ks)
    (queue : List τ) (y : σ) : Closing (threads (n := n) clients ks (create queue false y)).labels
      (create (n := n) (κ := κ) queue false y) where
  quiet t := by cases t <;> exact trivial
  awaited k hk := absurd (hks k) hk
  stopped := nofun
  exited t ht := by cases t <;> cases ht

/-- With all clients at their end, and no submissions from workers, nothing is pushed. -/
theorem Closing.pushes (h : Closing labels x) (hkinds : ∀ t, (labels t).kind = t.kind)
    {ticket : Option Nat} {task : τ} {k : Unit → TaskCode ω Res τ}
    (hl : labels t = .pushing ticket task k) : x.stop = false := by
  by_contra hstop
  have hq := h.quiet t
  have hkind := hkinds t
  rw [hl] at hq hkind
  cases ticket with
  | some => exact hq
  | none => cases t with
    | worker | owner => cases hkind
    | client k' =>
      have hdone := h.stopped (by simpa using hstop) k'
      rw [hl] at hdone
      cases hdone

variable [DecidableEq κ] {next : TaskLabel κ ω Res τ} {x' : TaskPool n κ σ τ}

/-- A client that has ended stays where it is. -/
theorem done_update (hmoves : (labels t).done = true → False) {k : κ}
    (hk : (labels (.client k)).done = true) :
    (Function.update labels t next (.client k)).done = true := by
  have hne : PoolThread.client k ≠ t := by
    rintro rfl
    exact hmoves hk
  rwa [Function.update_of_ne hne]

/-- Whoever exits was about to before, or has moved. -/
theorem exits_of_update {u : PoolThread n κ} (hu : (Function.update labels t next u).exits = true)
    (hnext : next.exits = true → (labels t).exits = true) : (labels u).exits = true := by
  by_cases hut : u = t
  · subst hut
    rw [Function.update_self] at hu
    exact hnext hu
  · rwa [Function.update_of_ne hut] at hu

theorem Closing.goes {ended : PoolThread n κ → Bool} (h : Closing labels x)
    (hquiet : ∀ u, (Function.update labels t next u).quiet)
    (hended : ∀ k, ended (.client k) = true → (labels (.client k)).done = true)
    (hgoes : Goes T n ended x (labels t) next) : Closing (Function.update labels t next) x := by
  have kept : ∀ {k}, (labels (.client k)).done = true →
      (Function.update labels t next (.client k)).done = true :=
    done_update fun ht => not_goes_of_done ht hgoes
  refine ⟨hquiet, fun k hk => kept ?_, fun hstop k => kept (h.stopped hstop k), fun u hu => ?_⟩
  · by_cases ht : PoolThread.owner = t
    · subst ht
      rw [Function.update_self] at hk
      generalize hl : labels .owner = l at hgoes
      cases hgoes with
      | awaits k' ks hfinished =>
        by_cases hkk : k = k'
        · subst hkk
          exact hended k hfinished
        · exact h.awaited k (by rw [hl]; exact fun hmem => (List.mem_cons.mp hmem).elim hkk hk)
      | _ => exact h.awaited k (by rw [hl]; exact List.not_mem_nil)
    · rw [Function.update_of_ne ht] at hk
      exact h.awaited k hk
  · refine h.exited u (exits_of_update hu fun hnext => ?_)
    generalize labels t = l at hgoes
    cases hgoes with
    | returns => rfl
    | _ => cases hnext

/-- What a thread does under its own label keeps the order in which the server ends: the owner stops the
pool when the clients have ended, and a worker that exits has seen it stopped and the queue empty. -/
theorem Closing.acts (h : Closing labels x) (hquiet : ∀ u, (Function.update labels t next u).quiet)
    (hkinds : ∀ t, (labels t).kind = t.kind) (hfound : labels t = .taking → x.taskQueue ≠ [])
    (hacts : Acts T t x (labels t) next x') : Closing (Function.update labels t next) x' := by
  have kept : ∀ {k}, (labels (.client k)).done = true →
      (Function.update labels t next (.client k)).done = true :=
    done_update fun ht => not_acts_of_done ht hacts
  have before : ∀ {u}, (Function.update labels t next u).exits = true → next.exits = false →
      x.stop = true ∧ x.taskQueue = [] := by
    intro u hu hnext
    exact h.exited u (exits_of_update hu fun hyes => absurd (hyes.symm.trans hnext) (by decide))
  have pushes : ∀ {ticket task k}, labels t = .pushing ticket task k → x.stop = false :=
    fun hl => h.pushes hkinds hl
  generalize hl : labels t = l at hacts pushes hfound
  have hawaited : (Function.update labels t next .owner).awaited = (labels .owner).awaited := by
    by_cases ht : PoolThread.owner = t
    · subst ht
      rw [Function.update_self, hl]
      cases hacts <;> rfl
    · rw [Function.update_of_ne ht]
  refine ⟨hquiet, fun k hk => kept (h.awaited k (hawaited ▸ hk)), fun hstop k => kept ?_,
    fun u hu => ?_⟩
  · cases hacts with
    -- the owner has waited for every client before it gets here
    | stops =>
      have howner : t = .owner := by
        have hkind := hkinds t
        rw [hl] at hkind
        cases t with
        | owner => rfl
        | worker | client => cases hkind
      exact h.awaited k (by rw [← howner, hl]; exact List.not_mem_nil)
    | _ => exact h.stopped hstop k
  · cases hacts with
    | leaves hstopped =>
      obtain ⟨hstop, hempty⟩ := Bool.and_eq_true_iff.mp hstopped
      exact ⟨hstop, List.isEmpty_iff.mp hempty⟩
    | misses hempty => exact absurd hempty (hfound rfl)
    | takes task tasks hqueue => exact absurd (before hu rfl).2 (by simp [hqueue])
    | pushes => exact absurd (before hu rfl).1 (by simp [pushes rfl])
    | stops => exact ⟨rfl, (before hu rfl).2⟩
    | _ => exact before hu rfl

theorem Closing.step (hT : ∀ task, (T.body task).Uses TaskOp.performs)
    (h : Closing s.labels s.shared) (hinv : TaskPoolInv T s)
    (hmoves : Effect.Monitor.Moves (program T n κ) s s') : Closing s'.labels s'.shared := by
  have hquiet := hmoves.labels_inv (fun t l => leads_quiet hT t l) h.quiet
  cases hmoves with
  | stays hlabels hshared => exact hlabels ▸ hshared ▸ h
  | goes t next hleads hlabels hshared =>
    rw [hlabels] at hquiet ⊢
    rw [hshared]
    exact h.goes hquiet (fun k => done_of_finished hinv.kept.kinds) (goes_of_leads hleads)
  | acts t c f hcode hlabels hshared =>
    rw [hlabels] at hquiet ⊢
    rw [hshared]
    exact h.acts hquiet hinv.kept.kinds (hinv.found.taking t) (acts_of_code hcode c s.shared)

variable {P : Platform}

/-- The journal of the server's pool. -/
def serveJournal (w : World P) (tasks : List Incoming) (rounds : Nat)
    (es : List (Effect.Tick (PoolThread Server.threadCount Beside) Choice)) :
    List (TaskEntry Server.threadCount Beside Op Choice Incoming Op.Res) :=
  journal (Server.clientTasks P) (Server.besides tasks rounds) [.accepting, .checking]
    (create [] false w) es

/-- **The open tasks are the open connections.** What the accept loop has submitted is what it has admitted,
but for a connection that it is about to submit; and a task counts as executed when the journal has its
`HandleClient` up to the end, and as open while a worker is at it or nobody has taken it yet. -/
theorem serveAll_open (w : World P) (tasks : List Incoming) (rounds : Nat)
    (es : List (Effect.Tick (PoolThread Server.threadCount Beside) Choice)) :
    (∃ pending, admitted (TaskEntry.ofClient .accepting (serveJournal w tasks rounds es)) =
        submitted (TaskEntry.ofClient .accepting (serveJournal w tasks rounds es)) ++ pending ∧
      pending.length ≤ 1) ∧
    (Server.serveAll w tasks rounds es).shared.submitted =
      (serveJournal w tasks rounds es).filterMap TaskEntry.submitted ∧
    ∀ ticket task, (Server.serveAll w tasks rounds es).shared.submitted[ticket]? = some task →
      if ticket ∈ (Server.serveAll w tasks rounds es).shared.executed then
        (lift (Server.handleClient P task.clientSocket task.received) : ServerTask Unit).Makes
          (TaskEntry.ofTask ticket (serveJournal w tasks rounds es)) (.pure ())
      else (∃ i, ((Server.serveAll w tasks rounds es).labels (.worker i)).ticket = some ticket) ∨
        (Server.serveAll w tasks rounds es).shared.taskQueue[
          ticket - (Server.serveAll w tasks rounds es).shared.taken.length]? = some task := by
  have hinv : TaskPoolInv (Server.clientTasks P) (Server.serveAll w tasks rounds es) :=
    taskPoolInv_run _ _ _ _ _ _ _
  have hexecuted : TasksExecuted (Server.clientTasks P) (Server.besides tasks rounds) [] w
      (Server.serveAll w tasks rounds es) (serveJournal w tasks rounds es) :=
    tasksExecuted_run _ _ _ _ _ _ _
  generalize Server.serveAll w tasks rounds es = s at hinv hexecuted
  generalize serveJournal w tasks rounds es = h at hexecuted
  refine ⟨?_, hexecuted.submitted, fun ticket task htask => ?_⟩
  · obtain ⟨q, _, hmakes⟩ := hexecuted.client .accepting
    obtain ⟨pending, hpending, hlength, _⟩ := admitted_of_makes hmakes
    exact ⟨pending, hpending, hlength⟩
  · rw [hinv.kept.order] at htask
    -- taken by somebody, or still in the queue
    by_cases htaken : ticket < s.shared.taken.length
    · rw [List.getElem?_append_left (by simpa using htaken), List.getElem?_map,
        Option.map_eq_some_iff] at htask
      obtain ⟨⟨t, _⟩, hentry, rfl⟩ := htask
      obtain ⟨p, hmakes, hp⟩ := hexecuted.run ticket t _ hentry
      split at hp
      · rename_i hended
        rw [if_pos hended, ← hp]
        exact hmakes
      · rename_i hopen
        rw [if_neg hopen]
        obtain ⟨hworker, hwhere⟩ := hinv.kept.taken ticket t _ hentry
        cases t with
        | worker i => exact .inl ⟨i, hwhere.resolve_left hopen⟩
        | client | owner => cases hworker
    · have hopen : ticket ∉ s.shared.executed := fun hended => htaken (hinv.kept.ended ticket hended)
      rw [List.getElem?_append_right (by simpa using htaken), List.length_map] at htask
      rw [if_neg hopen]
      exact .inr htask

/-- **Every open connection is served exactly if there are no more of them than workers**, once nobody
is left who could take a task. -/
theorem served_iff (w : World P) (tasks : List Incoming) (rounds : Nat)
    (es : List (Effect.Tick (PoolThread Server.threadCount Beside) Choice))
    (hsettled : TasksSettled (Server.serveAll w tasks rounds es)) :
    (Server.serveAll w tasks rounds es).shared.taskQueue = [] ↔
      openTasks (Server.serveAll w tasks rounds es).shared ≤ Server.threadCount := by
  have hT : ∀ task, ((Server.clientTasks P).body task).Uses TaskOp.performs := fun task => uses_lift _
  let Inv := fun s : Effect.Monitor (PoolThread Server.threadCount Beside)
      (TaskPool Server.threadCount Beside (World P) Incoming) (TaskLabel Beside Op Op.Res Incoming) =>
    TaskPoolInv (Server.clientTasks P) s ∧ Closing s.labels s.shared
  have hstart : Inv (threads (Server.besides tasks rounds) [.accepting, .checking]
      (create [] false w)) :=
    ⟨taskPoolInv_threads _ _ _ _ _, closing_threads _ (fun k => by cases k <;> decide) _ _⟩
  have hstep : ∀ s s' e,
      Inv s → Effect.Monitor.Steps (program (Server.clientTasks P) _ _) s e s' → Inv s' :=
    fun _ _ _ h hstep => ⟨h.1.step hstep, h.2.step hT h.1 hstep.moves⟩
  obtain ⟨hinv, hclosing⟩ : Inv (Server.serveAll w tasks rounds es) :=
    Effect.runAll_inv_always hstart (Effect.Monitor.next_inv hstep) es
  exact queue_empty_iff hinv hclosing hsettled

instance (s : Effect.Monitor (PoolThread n Beside) (TaskPool n Beside σ τ) (TaskLabel Beside ω Res τ)) :
    Decidable (TasksSettled s) :=
  decidable_of_iff ((∀ i, (s.labels (.worker i)).ticket.isSome = true ∨
    (s.status (.worker i)).isBlocked = true ∨ (s.labels (.worker i)).exits = true) ∧
    ∀ k, (s.labels (.client k)).submits = false) ⟨fun h => ⟨h.1, h.2⟩, fun h => ⟨h.1, h.2⟩⟩

/-- So many steps of a thread, in which nobody is woken up. -/
def steps (t : PoolThread Server.threadCount Beside) (count : Nat) :
    List (Effect.Tick (PoolThread Server.threadCount Beside) Choice) :=
  List.replicate count (.step t default none)

def idleConnections (count : Nat) : List Incoming := (List.range count).map fun c => ⟨c, [none]⟩

/-- Eleven connections are accepted, and every worker takes the first task there is. -/
def elevenAccepted : List (Effect.Tick (PoolThread Server.threadCount Beside) Choice) :=
  steps (.client .accepting) 88 ++ (List.finRange Server.threadCount).flatMap fun i => steps (.worker i) 5

/-- The first of the eleven comes to its end, and its worker takes the one that waits. -/
def oneEnded : List (Effect.Tick (PoolThread Server.threadCount Beside) Choice) :=
  elevenAccepted ++ steps (.worker 0) 12

theorem served_tenOpen :
    ((Server.serveAll (World.start (Database.empty : Database asciiCi)) (idleConnections 11) 0
      oneEnded).shared.taskQueue = [] ↔
    openTasks (Server.serveAll (World.start (Database.empty : Database asciiCi)) (idleConnections 11) 0
      oneEnded).shared ≤ Server.threadCount) ∧
    openTasks (Server.serveAll (World.start (Database.empty : Database asciiCi)) (idleConnections 11) 0
      oneEnded).shared = 10 ∧
    (Server.serveAll (World.start (Database.empty : Database asciiCi)) (idleConnections 11) 0
      oneEnded).shared.executed = [0] :=
  ⟨served_iff _ (idleConnections 11) 0 oneEnded (by decide +kernel), by decide +kernel, by decide +kernel⟩

/-- Eleven connections are admitted, of 128, and the eleventh waits. -/
theorem not_served : ¬ ∀ tasks es,
    TasksSettled (Server.serveAll (World.start (Database.empty : Database asciiCi)) tasks 0 es) →
    (openTasks (Server.serveAll (World.start (Database.empty : Database asciiCi)) tasks 0 es).shared :
      Int) ≤ Server.maxConnections →
    (Server.serveAll (World.start (Database.empty : Database asciiCi)) tasks 0 es).shared.taskQueue.length
      = 0 := by
  intro h
  exact absurd (h (idleConnections 11) elevenAccepted (by decide +kernel) (by decide +kernel))
    (by decide +kernel)

end LiteChat
