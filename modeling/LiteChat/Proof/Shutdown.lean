import LiteChat.Proof.ThreadPool

/-!
# The end of the pool

The destructor sets `stop` without the mutex, so a worker may find `stop` false, and the queue empty,
before, and go to sleep after everybody has been notified; nobody will wake it up, and the destructor
waits for it for ever (`not_neverHangs`). A worker that is between the two when `notify_all` is called
is all that can go wrong: if there is none then no worker sleeps from there on (`Attended`), and
everybody comes to an end.
-/

namespace LiteChat

open ThreadPool

variable {n : Nat} {κ ω χ σ τ : Type} {Res : ω → Type} {T : Tasks ω Res χ σ τ}

namespace TaskLabel

/-- The destructor is about to notify the workers. -/
def wakes : TaskLabel κ ω Res τ → Bool
  | .waking => true
  | _ => false

/-- The destructor waits for a worker, or has waited for all. -/
def joins : TaskLabel κ ω Res τ → Bool
  | .joining _ => true
  | _ => false

end TaskLabel

/-- Only the destructor waits for others: first for the clients, since nobody may submit a task to a
pool that is being destroyed, and then for the workers. -/
theorem code_join {t u : PoolThread n κ} {l next : TaskLabel κ ω Res τ}
    (h : code T t l = .join u next) : l.kind = .owner ∧
      ((∃ k, u = .client k) ∨ l.joins = true ∧ ∃ i, u = .worker i) := by
  cases l with
  | running ticket p =>
    cases p with
    | pure => cases ticket <;> cases h
    | call o k => cases o <;> cases h
  | awaiting ks =>
    cases ks <;> cases h
    exact ⟨rfl, .inl ⟨_, rfl⟩⟩
  | joining i =>
    change joinWorkers i = _ at h
    unfold joinWorkers at h
    split at h <;> cases h
    exact ⟨rfl, .inr ⟨rfl, _, rfl⟩⟩
  | _ => cases h

variable [DecidableEq κ] {s s' : Effect.Monitor (PoolThread n κ) (TaskPool n κ σ τ) (TaskLabel κ ω Res τ)}
  {e : Effect.Tick (PoolThread n κ) χ}

/-! ## The flag -/

/-- Who notifies the workers, or waits for them, has set the flag. -/
def StopSet (labels : PoolThread n κ → TaskLabel κ ω Res τ) (x : TaskPool n κ σ τ) : Prop :=
  (labels .owner).wakes = true ∨ (labels .owner).joins = true → x.stop = true

/-- Once `stop` is set it stays so, and only the destructor gets to where it must be: it comes there by
setting it, or from a label at which it was set already. -/
theorem StopSet.step (h : StopSet s.labels s.shared)
    (hmoves : Effect.Monitor.Moves (program T n κ) s s') : StopSet s'.labels s'.shared := by
  cases hmoves with
  | stays hlabels hshared => exact hlabels ▸ hshared ▸ h
  | goes t next hleads hlabels hshared =>
    intro hnext
    rw [hshared]
    rw [hlabels] at hnext
    -- the destructor goes on from one of the two labels to the next
    by_cases ht : PoolThread.owner = t
    · subst ht
      rw [Function.update_self] at hnext
      refine h ?_
      have hgoes := goes_of_leads hleads
      generalize s.labels .owner = l at hgoes
      cases hgoes with
      | wakes => exact .inl rfl
      | joins => exact .inr rfl
      | _ => rcases hnext with hnext | hnext <;> cases hnext
    · rw [Function.update_of_ne ht] at hnext
      exact h hnext
  | acts t c f hcode hlabels hshared =>
    intro hnext
    have hacts := acts_of_code hcode c s.shared
    rw [hshared]
    rw [hlabels] at hnext
    generalize hl : s.labels t = l at hacts
    generalize (f c s.shared).1 = next at hacts hnext
    generalize (f c s.shared).2 = x' at hacts ⊢
    by_cases ht : PoolThread.owner = t
    · subst ht
      rw [Function.update_self] at hnext
      cases hacts with
      | stops => rfl
      | _ => rcases hnext with hnext | hnext <;> cases hnext
    · rw [Function.update_of_ne ht] at hnext
      have hstop := h hnext
      cases hacts with
      | stops => rfl
      | _ => exact hstop

/-! ## Sleep -/

/-- While the destructor waits for the workers none of them sleeps or is about to. -/
def NoneAsleep (s : Effect.Monitor (PoolThread n κ) (TaskPool n κ σ τ) (TaskLabel κ ω Res τ)) : Prop :=
  (s.labels .owner).joins = true → ∀ i, (s.status (.worker i)).isAsleep = false

/-- No worker has seen the flag unset, and not gone to sleep yet, when the destructor notifies all. -/
def Attended (s : Effect.Monitor (PoolThread n κ) (TaskPool n κ σ τ) (TaskLabel κ ω Res τ)) :
    Effect.Tick (PoolThread n κ) χ → Prop
  | .step .owner _ _ => (s.labels .owner).wakes = true →
      ∀ i, (s.status (.worker i)).isParking = false
  | _ => True

/-- While the destructor joins, no worker falls asleep: `stop` is set, so that none blocks any more, and
those that slept have been notified. -/
theorem NoneAsleep.step (h : NoneAsleep s) (hstop : StopSet s.labels s.shared)
    (hcond : Attended s e) (hstep : Effect.Monitor.Steps (program T n κ) s e s') : NoneAsleep s' := by
  intro hjoins i
  by_contra hasleep
  simp only [Bool.not_eq_false] at hasleep
  -- it was no different before, if the destructor was waiting then
  have before : (s.labels .owner).joins = true → False := by
    intro hbefore
    rcases hstep.isAsleep hasleep with hi | hpred
    · exact absurd hi (by simp [h hbefore i])
    · have hflag := hstop (.inr hbefore)
      simp [program, hflag] at hpred
  by_cases hsame : s'.labels .owner = s.labels .owner
  · exact before (hsame ▸ hjoins)
  -- so it has just notified everybody
  have hwaking : s.labels .owner = .waking := by
    cases hstep.moves with
    | stays hlabels _ => exact absurd (congrFun hlabels _) hsame
    | goes t next hleads hlabels _ =>
      by_cases ht : PoolThread.owner = t
      · subst ht
        rw [hlabels, Function.update_self] at hjoins
        have hgoes := goes_of_leads hleads
        generalize s.labels .owner = l at hgoes before
        cases hgoes with
        | wakes => rfl
        | joins => exact (before rfl).elim
        | _ => cases hjoins
      · rw [hlabels, Function.update_of_ne ht] at hsame
        exact absurd rfl hsame
    | acts t c f hcode hlabels _ =>
      by_cases ht : PoolThread.owner = t
      · subst ht
        rw [hlabels, Function.update_self] at hjoins
        have hacts := acts_of_code hcode c s.shared
        generalize s.labels .owner = l at hacts
        generalize (f c s.shared).1 = next at hacts hjoins
        generalize (f c s.shared).2 = x' at hacts
        cases hacts <;> cases hjoins
      · rw [hlabels, Function.update_of_ne ht] at hsame
        exact absurd rfl hsame
  have hcode : (program T n κ).code .owner (s.labels .owner) = .notifyAll (.joining 0) := by
    rw [hwaking]
    rfl
  obtain ⟨⟨c, wakes, rfl⟩, rfl⟩ := hstep.of_notifyAll hcode hsame
  have hparking := hcond (by rw [hwaking]; rfl) i
  rw [Effect.Monitor.status_setStatus, if_neg (by simp)] at hasleep
  exact absurd (Effect.Status.isParking_of_wake hasleep) (by simp [hparking])

/-! ## Every run -/

variable [Fintype κ]

/-- The destructor waits for a worker that sleeps, and that nothing but a spurious wakeup will wake
up. -/
def Hung (T : Tasks ω Res χ σ τ)
    (s : Effect.Monitor (PoolThread n κ) (TaskPool n κ σ τ) (TaskLabel κ ω Res τ)) : Prop :=
  ∃ i : Fin n, s.labels .owner = .joining i ∧ ∀ es : List (Effect.Tick (PoolThread n κ) χ),
    (∀ e ∈ es, e.asked = true) → ((Effect.runAll (Effect.Monitor.next (program T n κ)) s es).status
      (.worker i)).isBlocked = true

structure Stopping (T : Tasks ω Res χ σ τ)
    (s : Effect.Monitor (PoolThread n κ) (TaskPool n κ σ τ) (TaskLabel κ ω Res τ)) : Prop where
  inv : TaskPoolInv T s
  stopSet : StopSet s.labels s.shared
  noneAsleep : NoneAsleep s

theorem stopping_run (clients : κ → TaskCode ω Res τ) (ks : List κ) (queue : List τ) (stop : Bool)
    (y : σ) (es : List (Effect.Tick (PoolThread n κ) χ))
    (h : Effect.Meets (Effect.Monitor.next (program T n κ)) Attended
      (threads clients ks (create queue stop y)) es) :
    Stopping T (runPool T clients ks (create queue stop y) es) := by
  refine Effect.runAll_inv ⟨taskPoolInv_threads clients ks queue stop y, ?_, nofun⟩
    (fun s e hs hcond => ?_) h
  · rintro (hl | hl) <;> cases hl
  · unfold Effect.Monitor.next
    cases hstep : s.step? (program T n κ) e with
    | none => exact hs
    | some s' =>
      have hstep := Effect.Monitor.steps_of_step? hstep
      exact ⟨hs.inv.step hstep, hs.stopSet.step hstep.moves,
        hs.noneAsleep.step hs.stopSet hcond hstep⟩

/-- **The destructor waits for nobody who sleeps**, in any run in which no worker is about to go to
sleep when everybody is notified. That is the one moment at which a notification is lost: the worker has
looked at `stop`, still holds the mutex, and does not wait yet; and the destructor takes no mutex. -/
theorem neverHangs_run (T : Tasks ω Res χ σ τ) (clients : κ → TaskCode ω Res τ) (ks : List κ)
    (queue : List τ) (stop : Bool) (y : σ) (es : List (Effect.Tick (PoolThread n κ) χ))
    (h : Effect.Meets (Effect.Monitor.next (program T n κ)) Attended
      (threads clients ks (create queue stop y)) es) :
    ¬ Hung T (runPool T clients ks (create queue stop y) es) := by
  rintro ⟨i, howner, hsleeps⟩
  have hawake := (stopping_run clients ks queue stop y es h).noneAsleep (by rw [howner]; rfl) i
  have hblocked := hsleeps [] nofun
  change ((runPool T clients ks (create queue stop y) es).status _).isBlocked = true at hblocked
  obtain ⟨l, hl⟩ := Effect.Status.isBlocked_iff.mp hblocked
  rw [hl] at hawake
  cases hawake

/-- **The destructor comes to its end**: before it has, somebody can make a step. It waits only for
workers, and a worker that is asleep when the pool is stopped has still to be notified. -/
theorem Stopping.not_stuck [Inhabited χ] (h : Stopping T s)
    (hopen : s.finished (program T n κ) .owner = false) : ¬ s.Stuck (program T n κ) := by
  intro hstuck
  obtain ⟨_, hrest⟩ := h.inv.owned.stuck locks_program hstuck
  have label : ∀ {t l}, s.status t = l → s.labels t = l.label := fun hst => congrArg _ hst
  -- only workers sleep, and only the destructor waits for others
  have sleeper : ∀ {t : PoolThread n κ}, (s.status t).isBlocked = true → t.kind = .worker := by
    intro t ht
    obtain ⟨l, hl⟩ := Effect.Status.isBlocked_iff.mp ht
    obtain ⟨next, hcode⟩ := h.inv.owned.waits t l (.inr (.inl hl))
    rw [← h.inv.kept.kinds t, label hl, show l = .waiting from code_wait hcode]
    rfl
  have joiner : ∀ {t u : PoolThread n κ} {l next : TaskLabel κ ω Res τ}, s.status t = .ready l →
      (program T n κ).code t l = .join u next → t.kind = .owner := by
    intro t u l next hst hcode
    rw [← h.inv.kept.kinds t, label hst]
    exact (code_join hcode).1
  cases hrest .owner with
  | finished hend => exact absurd hend (by simp [hopen])
  | blocked hb => exact nomatch sleeper hb
  | joining l u next hst hcode hu =>
    -- it waits for a client, and no client can be stuck; or for a worker, and none is asleep
    rcases (code_join hcode).2 with ⟨k, rfl⟩ | ⟨hjoins, i, rfl⟩
    · cases hrest (.client k) with
      | finished hend => exact absurd hend (by simp [hu])
      | blocked hb => exact nomatch sleeper hb
      | joining _ _ _ hst' hcode' _ => exact nomatch joiner hst' hcode'
    · cases hrest (.worker i) with
      | finished hend => exact absurd hend (by simp [hu])
      | blocked hb =>
        have hawake := h.noneAsleep (by rw [label hst]; exact hjoins) i
        obtain ⟨m, hm⟩ := Effect.Status.isBlocked_iff.mp hb
        rw [hm] at hawake
        cases hawake
      | joining _ _ _ hst' hcode' _ => exact nomatch joiner hst' hcode'

instance (s : Effect.Monitor (PoolThread n κ) (TaskPool n κ σ τ) (TaskLabel κ ω Res τ))
    (e : Effect.Tick (PoolThread n κ) χ) : Decidable (Attended s e) := by
  unfold Attended
  split <;> infer_instance

/-- No operations, and one task that does nothing. -/
def idle : Tasks Empty (fun _ => Unit) Unit Unit Unit where
  handle o := nomatch o
  body _ := .pure ()

/-- A pool of one worker, which nobody submits anything to. -/
def idlePool (es : List (Effect.Tick (PoolThread 1 Empty) Unit)) :
    Effect.Monitor (PoolThread 1 Empty) (TaskPool 1 Empty Unit Unit)
      (TaskLabel Empty Empty (fun _ => Unit) Unit) :=
  runPool idle Empty.elim [] (create [] false ()) es

def turn (t : PoolThread 1 Empty) : Effect.Tick (PoolThread 1 Empty) Unit := .step t () none

/-- The worker sleeps, and is woken up by the destructor. -/
def wokenUp : List (Effect.Tick (PoolThread 1 Empty) Unit) :=
  [.worker 0, .worker 0, .worker 0, .owner, .owner, .worker 0, .worker 0].map turn

theorem neverHangs_wokenUp : ¬ Hung idle (idlePool wokenUp) :=
  neverHangs_run idle Empty.elim [] [] false () wokenUp (by decide)

/-- The worker has found nothing to do when the destructor sets the flag and notifies everybody, and
goes to sleep after. -/
def fallsAsleep : List (Effect.Tick (PoolThread 1 Empty) Unit) :=
  [.worker 0, .worker 0, .owner, .owner, .worker 0].map turn

/-- Then nobody can do anything. -/
theorem next_fallsAsleep {e : Effect.Tick (PoolThread 1 Empty) Unit} (he : e.asked = true) :
    (idlePool fallsAsleep).next (program idle 1 Empty) e = idlePool fallsAsleep := by
  cases e with
  | spurious => cases he
  | step t c wakes => cases t with
    | client k => exact k.elim
    | owner => rfl
    | worker i =>
      obtain rfl := Subsingleton.elim i 0
      rfl

theorem not_neverHangs : ¬ ∀ es, ¬ Hung idle (idlePool es) := by
  intro h
  refine h fallsAsleep ⟨0, rfl, fun es hes => ?_⟩
  have hsame : Effect.runAll (Effect.Monitor.next (program idle 1 Empty)) (idlePool fallsAsleep) es =
      idlePool fallsAsleep := by
    induction es with
    | nil => rfl
    | cons e es ih =>
      rw [Effect.runAll_cons, next_fallsAsleep (hes e List.mem_cons_self)]
      exact ih fun e' he' => hes e' (List.mem_cons_of_mem e he')
  rw [hsame]
  rfl

end LiteChat
