import LiteChat.Effect.Runs
import Mathlib.Data.Fintype.Defs
import Mathlib.Logic.Function.Basic

/-!
# Threads around a mutex and a condition variable

`Program` is the code of a family of threads as instructions with labels, over one shared state, one
mutex and one condition variable, which all threads wait on for the same predicate. `step?` is one
step of one thread, if it can make one; a wakeup that nobody asked for is a step of its own. To wait is
three things: a thread that holds the mutex finds the predicate false (`parking`), lets the mutex go
and sleeps (`blocked`), and once it is woken up takes the mutex again and looks again (`woken`). What
happens between the first and the second is what lost wakeups are made of.

`Steps` lists the steps, for invariants that are about the waiting, and `Moves` is the same for those
that are about the labels and the shared state only.

`Locks` is a discipline of the code alone: the labels say where the mutex is held. Then it is held by
the thread that is at such a label (`Owned`), and if no thread can make a step then nobody holds it,
and every thread has ended, sleeps, or waits for the end of another (`Owned.stuck`).
-/

namespace Effect

/-- What a thread does next, and where it goes on. -/
inductive Instr (ι χ σ L : Type) : Type
  | lock (next : L)
  | unlock (next : L)
  | wait (next : L)
  | act (f : χ → σ → L × σ)
  | notifyOne (next : L)
  | notifyAll (next : L)
  | join (i : ι) (next : L)
  | halt

/-- The instruction leads to `next` and leaves the shared state `x` as it is; `pred` is what is waited
for, and `ended` says which threads have ended. -/
inductive Instr.LeadsTo (pred : σ → Bool) (ended : ι → Bool) (x : σ) : Instr ι χ σ L → L → Prop
  | lock (next : L) : LeadsTo pred ended x (.lock next) next
  | unlock (next : L) : LeadsTo pred ended x (.unlock next) next
  | wait (next : L) (hpred : pred x = true) : LeadsTo pred ended x (.wait next) next
  | notifyOne (next : L) : LeadsTo pred ended x (.notifyOne next) next
  | notifyAll (next : L) : LeadsTo pred ended x (.notifyAll next) next
  | join (i : ι) (next : L) (hended : ended i = true) : LeadsTo pred ended x (.join i next) next

/-- Wherever the instruction leads, the label is as `Q` says. -/
def Instr.Leads (Q : L → Prop) : Instr ι χ σ L → Prop
  | .lock next | .unlock next | .wait next | .notifyOne next | .notifyAll next | .join _ next => Q next
  | .act f => ∀ c x, Q (f c x).1
  | .halt => True

theorem Instr.Leads.of_leadsTo {Q : L → Prop} {pred : σ → Bool} {ended : ι → Bool} {x : σ}
    {instr : Instr ι χ σ L} {next : L} (h : instr.Leads Q) (hleads : instr.LeadsTo pred ended x next) :
    Q next := by
  cases hleads <;> exact h

/-- The code of the threads, and what they wait for. -/
structure Program (ι χ σ L : Type) : Type where
  code : ι → L → Instr ι χ σ L
  pred : σ → Bool

/-- Where a thread is. Whoever waits is at the label of the waiting. -/
inductive Status (L : Type) : Type
  | ready (l : L)
  | parking (l : L)
  | blocked (l : L)
  | woken (l : L)

structure Monitor (ι σ L : Type) : Type where
  status : ι → Status L
  owner : Option ι
  shared : σ

/-- `wakes` is whom a `notifyOne` wakes up. -/
inductive Tick (ι χ : Type) : Type
  | step (i : ι) (c : χ) (wakes : Option ι)
  | spurious (i : ι)

variable {ι χ σ L : Type}

/-- The wakeup was asked for. -/
def Tick.asked : Tick ι χ → Bool
  | .step _ _ _ => true
  | .spurious _ => false

namespace Status

def isBlocked : Status L → Bool
  | .blocked _ => true
  | _ => false

def isParking : Status L → Bool
  | .parking _ => true
  | _ => false

def wake : Status L → Status L
  | .blocked l => .woken l
  | st => st

/-- The thread holds the mutex; `holds` says so for the labels. -/
def holding (holds : L → Bool) : Status L → Bool
  | .ready l => holds l
  | .parking _ => true
  | .blocked _ | .woken _ => false

def label : Status L → L
  | .ready l | .parking l | .blocked l | .woken l => l

/-- The thread waits, in one of the three ways. -/
def waitsAt (l : L) (st : Status L) : Prop := st = .parking l ∨ st = .blocked l ∨ st = .woken l

/-- The thread sleeps, or has let nobody know that it is going to. -/
def isAsleep : Status L → Bool
  | .parking _ | .blocked _ => true
  | .ready _ | .woken _ => false

theorem isParking_of_wake {st : Status L} (h : st.wake.isAsleep = true) : st.isParking = true := by
  cases st <;> simp_all [wake, isAsleep, isParking]

theorem isAsleep_of_isParking {st : Status L} (h : st.isParking = true) : st.isAsleep = true := by
  cases st <;> simp_all [isAsleep, isParking]

theorem isBlocked_iff {st : Status L} : st.isBlocked = true ↔ ∃ l, st = .blocked l := by
  cases st <;> simp [isBlocked]

end Status

namespace Monitor

/-- The thread has come to its end. -/
def finished (p : Program ι χ σ L) (s : Monitor ι σ L) (i : ι) : Bool :=
  match s.status i with
  | .ready l => match p.code i l with
    | .halt => true
    | _ => false
  | _ => false

theorem finished_iff {p : Program ι χ σ L} {s : Monitor ι σ L} {i : ι} :
    s.finished p i = true ↔ ∃ l, s.status i = .ready l ∧ p.code i l = .halt := by
  unfold finished
  cases s.status i with
  | ready l => cases hcode : p.code i l <;> simp [hcode]
  | _ => simp

/-- Those of the threads who sleep are woken up. -/
def wakeUp (s : Monitor ι σ L) (who : ι → Bool) : Monitor ι σ L :=
  { s with status := fun j => if who j then (s.status j).wake else s.status j }

/-- The label of a thread, whether or not it waits there. -/
def labels (s : Monitor ι σ L) (i : ι) : L := (s.status i).label

theorem labels_wakeUp (s : Monitor ι σ L) (who : ι → Bool) : (s.wakeUp who).labels = s.labels := by
  funext j
  unfold labels wakeUp
  dsimp only
  split
  · cases s.status j <;> rfl
  · rfl

variable [DecidableEq ι]

def setStatus (s : Monitor ι σ L) (i : ι) (st : Status L) : Monitor ι σ L :=
  { s with status := Function.update s.status i st }

@[simp] theorem status_setStatus (s : Monitor ι σ L) (i j : ι) (st : Status L) :
    (s.setStatus i st).status j = if j = i then st else s.status j := by
  unfold setStatus
  by_cases h : j = i
  · subst h
    simp
  · simp [h]

@[simp] theorem owner_setStatus (s : Monitor ι σ L) (i : ι) (st : Status L) :
    (s.setStatus i st).owner = s.owner := rfl

@[simp] theorem shared_setStatus (s : Monitor ι σ L) (i : ι) (st : Status L) :
    (s.setStatus i st).shared = s.shared := rfl

theorem labels_setStatus (s : Monitor ι σ L) (i : ι) (st : Status L) :
    (s.setStatus i st).labels = Function.update s.labels i st.label := by
  funext j
  unfold labels
  rw [status_setStatus]
  by_cases h : j = i
  · subst h
    simp
  · simp [h]

section Runs

variable [Fintype ι]

/-- `notifyOne` wakes one of those who sleep, or nobody if nobody does. -/
def notified (s : Monitor ι σ L) : Option ι → Option (Monitor ι σ L)
  | some j => if (s.status j).isBlocked then some (s.wakeUp (· = j)) else none
  | none => if ∀ j, (s.status j).isBlocked = false then some s else none

/-- One step of one thread, or a spurious wakeup, if it is possible. -/
def step? (p : Program ι χ σ L) (s : Monitor ι σ L) : Tick ι χ → Option (Monitor ι σ L)
  | .step i c wakes =>
    match s.status i with
    | .ready l =>
      match p.code i l with
      | .lock next =>
        if s.owner = none then some { s.setStatus i (.ready next) with owner := some i } else none
      | .unlock next => some { s.setStatus i (.ready next) with owner := none }
      | .wait next =>
        some (if p.pred s.shared then s.setStatus i (.ready next) else s.setStatus i (.parking l))
      | .act f =>
        some { s.setStatus i (.ready (f c s.shared).1) with shared := (f c s.shared).2 }
      | .notifyOne next => (s.notified wakes).map fun t => t.setStatus i (.ready next)
      | .notifyAll next => some ((s.wakeUp fun _ => true).setStatus i (.ready next))
      | .join j next => if s.finished p j then some (s.setStatus i (.ready next)) else none
      | .halt => none
    | .parking l => some { s.setStatus i (.blocked l) with owner := none }
    | .blocked _ => none
    | .woken l =>
      if s.owner = none then some { s.setStatus i (.ready l) with owner := some i } else none
  | .spurious i => if (s.status i).isBlocked then some (s.wakeUp (· = i)) else none

/-- What cannot happen changes nothing. -/
def next (p : Program ι χ σ L) (s : Monitor ι σ L) (e : Tick ι χ) : Monitor ι σ L :=
  (s.step? p e).getD s

/-- Nobody can make a step. -/
def Stuck (p : Program ι χ σ L) (s : Monitor ι σ L) : Prop :=
  ∀ i c wakes, s.step? p (.step i c wakes) = none

end Runs

/-- The ways to make a step. -/
inductive Steps (p : Program ι χ σ L) (s : Monitor ι σ L) : Tick ι χ → Monitor ι σ L → Prop
  | locks (i : ι) (c : χ) (wakes : Option ι) (l next : L) (hst : s.status i = .ready l)
      (hcode : p.code i l = .lock next) (hfree : s.owner = none) :
      Steps p s (.step i c wakes) { s.setStatus i (.ready next) with owner := some i }
  | unlocks (i : ι) (c : χ) (wakes : Option ι) (l next : L) (hst : s.status i = .ready l)
      (hcode : p.code i l = .unlock next) :
      Steps p s (.step i c wakes) { s.setStatus i (.ready next) with owner := none }
  | passes (i : ι) (c : χ) (wakes : Option ι) (l next : L) (hst : s.status i = .ready l)
      (hcode : p.code i l = .wait next) (hpred : p.pred s.shared = true) :
      Steps p s (.step i c wakes) (s.setStatus i (.ready next))
  | parks (i : ι) (c : χ) (wakes : Option ι) (l next : L) (hst : s.status i = .ready l)
      (hcode : p.code i l = .wait next) (hpred : p.pred s.shared = false) :
      Steps p s (.step i c wakes) (s.setStatus i (.parking l))
  | blocks (i : ι) (c : χ) (wakes : Option ι) (l : L) (hst : s.status i = .parking l) :
      Steps p s (.step i c wakes) { s.setStatus i (.blocked l) with owner := none }
  | returns (i : ι) (c : χ) (wakes : Option ι) (l : L) (hst : s.status i = .woken l)
      (hfree : s.owner = none) :
      Steps p s (.step i c wakes) { s.setStatus i (.ready l) with owner := some i }
  | acts (i : ι) (c : χ) (wakes : Option ι) (l : L) (f : χ → σ → L × σ)
      (hst : s.status i = .ready l) (hcode : p.code i l = .act f) :
      Steps p s (.step i c wakes)
        { s.setStatus i (.ready (f c s.shared).1) with shared := (f c s.shared).2 }
  | notifies (i : ι) (c : χ) (j : ι) (l next : L) (hst : s.status i = .ready l)
      (hcode : p.code i l = .notifyOne next) (hj : (s.status j).isBlocked = true) :
      Steps p s (.step i c (some j)) ((s.wakeUp (· = j)).setStatus i (.ready next))
  | notifiesNobody (i : ι) (c : χ) (l next : L) (hst : s.status i = .ready l)
      (hcode : p.code i l = .notifyOne next) (hnone : ∀ j, (s.status j).isBlocked = false) :
      Steps p s (.step i c none) (s.setStatus i (.ready next))
  | notifiesAll (i : ι) (c : χ) (wakes : Option ι) (l next : L) (hst : s.status i = .ready l)
      (hcode : p.code i l = .notifyAll next) :
      Steps p s (.step i c wakes) ((s.wakeUp fun _ => true).setStatus i (.ready next))
  | joins (i : ι) (c : χ) (wakes : Option ι) (l : L) (j : ι) (next : L)
      (hst : s.status i = .ready l) (hcode : p.code i l = .join j next)
      (hj : s.finished p j = true) : Steps p s (.step i c wakes) (s.setStatus i (.ready next))
  | wakes (i : ι) (hi : (s.status i).isBlocked = true) :
      Steps p s (.spurious i) (s.wakeUp (· = i))

variable {p : Program ι χ σ L} {s s' : Monitor ι σ L} {e : Tick ι χ}

/-- What the machine computes is one of the steps: by the status of the thread, and for one that is
ready by the instruction at its label. A thread that is blocked, or whose lock or join is not to be had,
makes none. -/
theorem steps_of_step? [Fintype ι] (h : s.step? p e = some s') : Steps p s e s' := by
  cases e with
  | spurious i =>
    unfold step? at h
    dsimp only at h
    split at h
    · rename_i hi
      obtain rfl := Option.some.inj h
      exact .wakes i hi
    · cases h
  | step i c wakes =>
    unfold step? at h
    dsimp only at h
    cases hst : s.status i with
    | parking l =>
      rw [hst] at h
      obtain rfl := Option.some.inj h
      exact .blocks i c wakes l hst
    | blocked l => simp [hst] at h
    | woken l =>
      rw [hst] at h
      dsimp only at h
      split at h
      · rename_i hfree
        obtain rfl := Option.some.inj h
        exact .returns i c wakes l hst hfree
      · cases h
    | ready l =>
      rw [hst] at h
      dsimp only at h
      cases hcode : p.code i l with
      | lock next =>
        rw [hcode] at h
        dsimp only at h
        split at h
        · rename_i hfree
          obtain rfl := Option.some.inj h
          exact .locks i c wakes l next hst hcode hfree
        · cases h
      | unlock next =>
        rw [hcode] at h
        obtain rfl := Option.some.inj h
        exact .unlocks i c wakes l next hst hcode
      | wait next =>
        rw [hcode] at h
        obtain rfl := Option.some.inj h
        cases hpred : p.pred s.shared with
        | true =>
          rw [if_pos rfl]
          exact .passes i c wakes l next hst hcode hpred
        | false =>
          rw [if_neg (by simp)]
          exact .parks i c wakes l next hst hcode hpred
      | act f =>
        rw [hcode] at h
        obtain rfl := Option.some.inj h
        exact .acts i c wakes l f hst hcode
      -- whom it wakes is the environment's choice, and it may wake nobody only if nobody waits
      | notifyOne next =>
        rw [hcode] at h
        obtain ⟨t, ht, rfl⟩ := Option.map_eq_some_iff.mp h
        cases wakes with
        | none =>
          unfold notified at ht
          dsimp only at ht
          split at ht
          · rename_i hnone
            obtain rfl := Option.some.inj ht
            exact .notifiesNobody i c l next hst hcode hnone
          · cases ht
        | some j =>
          unfold notified at ht
          dsimp only at ht
          split at ht
          · rename_i hj
            obtain rfl := Option.some.inj ht
            exact .notifies i c j l next hst hcode hj
          · cases ht
      | notifyAll next =>
        rw [hcode] at h
        obtain rfl := Option.some.inj h
        exact .notifiesAll i c wakes l next hst hcode
      | join j next =>
        rw [hcode] at h
        dsimp only at h
        split at h
        · rename_i hj
          obtain rfl := Option.some.inj h
          exact .joins i c wakes l j next hst hcode hj
        · cases h
      | halt => simp [hcode] at h

/-- Waiting is no matter of labels. -/
theorem labels_setStatus_same {i : ι} {st st' : Status L} (hst : s.status i = st)
    (hsame : st'.label = st.label) : (s.setStatus i st').labels = s.labels := by
  rw [labels_setStatus, hsame, ← show s.labels i = st.label from congrArg Status.label hst,
    Function.update_eq_self]

/-- What a step does to the labels and to the shared state. -/
inductive Moves (p : Program ι χ σ L) (s s' : Monitor ι σ L) : Prop
  | stays (hlabels : s'.labels = s.labels) (hshared : s'.shared = s.shared)
  | goes (i : ι) (next : L) (hleads : (p.code i (s.labels i)).LeadsTo p.pred (s.finished p) s.shared next)
      (hlabels : s'.labels = Function.update s.labels i next) (hshared : s'.shared = s.shared)
  | acts (i : ι) (c : χ) (f : χ → σ → L × σ) (hcode : p.code i (s.labels i) = .act f)
      (hlabels : s'.labels = Function.update s.labels i (f c s.shared).1)
      (hshared : s'.shared = (f c s.shared).2)

section Notes

variable {ω : Type}

/-- What is noted of a step of a thread, which says what it does at a label. -/
def noteOf (note : ι → χ → L → σ → Option ω) (s : Monitor ι σ L) : Tick ι χ → Option ω
  | .step i c _ =>
    match s.status i with
    | .ready l => note i c l s.shared
    | _ => none
  | .spurious _ => none

/-- What a step does to the labels and to the shared state, and what is noted of it. -/
inductive Notes (p : Program ι χ σ L) (note : ι → χ → L → σ → Option ω) (s s' : Monitor ι σ L) :
    Option ω → Prop
  | stays (hlabels : s'.labels = s.labels) (hshared : s'.shared = s.shared) : Notes p note s s' none
  | goes (i : ι) (next : L) (hleads : (p.code i (s.labels i)).LeadsTo p.pred (s.finished p) s.shared next)
      (hlabels : s'.labels = Function.update s.labels i next) (hshared : s'.shared = s.shared) :
      Notes p note s s' none
  | acts (i : ι) (c : χ) (f : χ → σ → L × σ) (hcode : p.code i (s.labels i) = .act f)
      (hlabels : s'.labels = Function.update s.labels i (f c s.shared).1)
      (hshared : s'.shared = (f c s.shared).2) : Notes p note s s' (note i c (s.labels i) s.shared)

variable {note : ι → χ → L → σ → Option ω}

/-- **Every step is one of these, too**, if only acts are noted. -/
theorem Steps.notes (hnote : ∀ i c l x, (∀ f, p.code i l ≠ .act f) → note i c l x = none)
    (h : Steps p s e s') : Notes p note s s' (s.noteOf note e) := by
  have hlabel : ∀ {i : ι} {st : Status L}, s.status i = st → s.labels i = st.label :=
    fun hst => congrArg Status.label hst
  have leads : ∀ {i : ι} {l next : L}, s.status i = .ready l →
      (p.code i l).LeadsTo p.pred (s.finished p) s.shared next →
      (p.code i (s.labels i)).LeadsTo p.pred (s.finished p) s.shared next := by
    intro i l next hst hleads
    rwa [hlabel hst]
  -- a thread that does not act at its label, or waits there
  have silent : ∀ {i : ι} {c : χ} {wakes : Option ι} {st : Status L}, s.status i = st →
      (∀ l, st = .ready l → ∀ f, p.code i l ≠ .act f) → s.noteOf note (.step i c wakes) = none := by
    intro i c wakes st hst hquiet
    unfold noteOf
    dsimp only
    rw [hst]
    cases st with
    | ready l => exact hnote i c l s.shared (hquiet l rfl)
    | parking | blocked | woken => rfl
  have quiet : ∀ {i : ι} {l : L} {instr : Instr ι χ σ L}, p.code i l = instr →
      (∀ f, instr ≠ .act f) → ∀ l', Status.ready l = .ready l' → ∀ f, p.code i l' ≠ .act f := by
    intro i l instr hcode hne l' hl f hf
    cases hl
    exact hne f (hcode.symm.trans hf)
  have notified : ∀ (who : ι → Bool) {i : ι} {next : L},
      ((s.wakeUp who).setStatus i (.ready next)).labels = Function.update s.labels i next := by
    intro who i next
    rw [labels_setStatus, labels_wakeUp]
    rfl
  cases h with
  | locks i _ _ l next hst hcode _ =>
    rw [silent hst (quiet hcode nofun)]
    exact .goes i next (leads hst (hcode ▸ .lock next)) (labels_setStatus s i _) rfl
  | unlocks i _ _ l next hst hcode =>
    rw [silent hst (quiet hcode nofun)]
    exact .goes i next (leads hst (hcode ▸ .unlock next)) (labels_setStatus s i _) rfl
  | passes i _ _ l next hst hcode hpred =>
    rw [silent hst (quiet hcode nofun)]
    exact .goes i next (leads hst (hcode ▸ .wait next hpred)) (labels_setStatus s i _) rfl
  | parks i _ _ l _ hst hcode =>
    rw [silent hst (quiet hcode nofun)]
    exact .stays (labels_setStatus_same hst rfl) rfl
  | blocks i _ _ l hst =>
    rw [silent hst nofun]
    have hlabels : (s.setStatus i (.blocked l)).labels = s.labels := labels_setStatus_same hst rfl
    exact .stays hlabels rfl
  | returns i _ _ l hst =>
    rw [silent hst nofun]
    have hlabels : (s.setStatus i (.ready l)).labels = s.labels := labels_setStatus_same hst rfl
    exact .stays hlabels rfl
  | acts i c wakes l f hst hcode =>
    have hnoted : s.noteOf note (.step i c wakes) = note i c (s.labels i) s.shared := by
      unfold noteOf
      dsimp only
      rw [hlabel hst, hst]
      rfl
    rw [hnoted]
    refine .acts i c f ?_ (labels_setStatus s i _) rfl
    rw [hlabel hst]
    exact hcode
  | notifies i _ j l next hst hcode _ =>
    rw [silent hst (quiet hcode nofun)]
    exact .goes i next (leads hst (hcode ▸ .notifyOne next)) (notified _) rfl
  | notifiesNobody i _ l next hst hcode _ =>
    rw [silent hst (quiet hcode nofun)]
    exact .goes i next (leads hst (hcode ▸ .notifyOne next)) (labels_setStatus s i _) rfl
  | notifiesAll i _ _ l next hst hcode =>
    rw [silent hst (quiet hcode nofun)]
    exact .goes i next (leads hst (hcode ▸ .notifyAll next)) (notified _) rfl
  | joins i _ _ l j next hst hcode hj =>
    rw [silent hst (quiet hcode nofun)]
    exact .goes i next (leads hst (hcode ▸ .join j next hj)) (labels_setStatus s i _) rfl
  | wakes i _ => exact .stays (labels_wakeUp s _) rfl

/-- A step that cannot happen is not noted either. -/
theorem next_notes [Fintype ι] (hnote : ∀ i c l x, (∀ f, p.code i l ≠ .act f) → note i c l x = none)
    (s : Monitor ι σ L) (e : Tick ι χ) : Notes p note s (s.next p e) (s.noteOf note e) := by
  unfold next
  cases h : s.step? p e with
  | some s' => exact (steps_of_step? h).notes hnote
  | none =>
    have hnone : s.noteOf note e = none := by
      cases e with
      | spurious i => rfl
      | step i c wakes =>
        unfold noteOf
        dsimp only
        cases hst : s.status i with
        | parking | blocked | woken => rfl
        | ready l =>
          refine hnote i c l s.shared fun f hf => ?_
          simp [step?, hst, hf] at h
    rw [hnone]
    exact .stays rfl rfl

end Notes

/-- The same without a journal. -/
theorem Steps.moves (h : Steps p s e s') : Moves p s s' := by
  have hnotes : Notes p (fun _ _ _ _ => (none : Option Unit)) s s' _ := h.notes fun _ _ _ _ _ => rfl
  generalize s.noteOf _ e = noted at hnotes
  cases hnotes with
  | stays hlabels hshared => exact .stays hlabels hshared
  | goes i next hleads hlabels hshared => exact .goes i next hleads hlabels hshared
  | acts i c f hcode hlabels hshared => exact .acts i c f hcode hlabels hshared

/-- A thread that is about to notify all, and moves, has notified all. -/
theorem Steps.of_notifyAll (h : Steps p s e s') {i : ι} {next : L}
    (hcode : p.code i (s.labels i) = .notifyAll next) (hmoved : s'.labels i ≠ s.labels i) :
    (∃ c wakes, e = .step i c wakes) ∧ s' = (s.wakeUp fun _ => true).setStatus i (.ready next) := by
  -- it was this thread that moved, and it was at no other instruction
  have mover : ∀ {t : Monitor ι σ L} {j : ι} {st : Status L}, t.labels = s.labels →
      (t.setStatus j st).labels = s'.labels → j = i := by
    intro t j st ht hlabels
    by_contra hj
    refine hmoved ?_
    rw [← hlabels, labels_setStatus, Function.update_of_ne (Ne.symm hj), ht]
  have other : ∀ {t : Monitor ι σ L} {j : ι} {l : L} {st : Status L} {instr : Instr ι χ σ L},
      t.labels = s.labels → (t.setStatus j st).labels = s'.labels → s.status j = .ready l →
      p.code j l = instr → instr = .notifyAll next := by
    intro t j l st instr ht hlabels hst hl
    obtain rfl := mover ht hlabels
    rw [← hl, ← hcode]
    exact congrArg (p.code j) (congrArg Status.label hst).symm
  cases h with
  | locks j _ _ l m hst hl => cases other rfl rfl hst hl
  | unlocks j _ _ l m hst hl => cases other rfl rfl hst hl
  | passes j _ _ l m hst hl _ => cases other rfl rfl hst hl
  | acts j _ _ l f hst hl => cases other rfl rfl hst hl
  | notifies j _ k l m hst hl _ => cases other (labels_wakeUp s _) rfl hst hl
  | notifiesNobody j _ l m hst hl _ => cases other rfl rfl hst hl
  | joins j _ _ l k m hst hl _ => cases other rfl rfl hst hl
  | notifiesAll j c wakes l m hst hl =>
    obtain rfl := mover (labels_wakeUp s _) rfl
    cases other (labels_wakeUp s _) rfl hst hl
    exact ⟨⟨c, wakes, rfl⟩, rfl⟩
  | parks j _ _ l m hst _ _ =>
    have hlabels : (s.setStatus j (.parking l)).labels = s.labels := labels_setStatus_same hst rfl
    exact absurd (congrFun hlabels i) hmoved
  | blocks j _ _ l hst =>
    have hlabels : (s.setStatus j (.blocked l)).labels = s.labels := labels_setStatus_same hst rfl
    exact absurd (congrFun hlabels i) hmoved
  | returns j _ _ l hst _ =>
    have hlabels : (s.setStatus j (.ready l)).labels = s.labels := labels_setStatus_same hst rfl
    exact absurd (congrFun hlabels i) hmoved
  | wakes j _ => exact absurd (congrFun (labels_wakeUp s _) i) hmoved

/-- Nobody goes to sleep who need not wait. -/
theorem Steps.isAsleep (h : Steps p s e s') {i : ι} (hi : (s'.status i).isAsleep = true) :
    (s.status i).isAsleep = true ∨ p.pred s.shared = false := by
  -- the thread that moves is awake after, or was asleep before
  have moved : ∀ {t : Monitor ι σ L} {j : ι} {st : Status L}, (t.setStatus j st).status i = s'.status i →
      (st.isAsleep = true → (s.status j).isAsleep = true ∨ p.pred s.shared = false) →
      ((t.status i).isAsleep = true → (s.status i).isAsleep = true) →
      (s.status i).isAsleep = true ∨ p.pred s.shared = false := by
    intro t j st hstatus hmoved hothers
    rw [← hstatus, status_setStatus] at hi
    split at hi
    · rename_i hij
      exact hij ▸ hmoved hi
    · exact .inl (hothers hi)
  have woken : ∀ {who : ι → Bool}, ((s.wakeUp who).status i).isAsleep = true →
      (s.status i).isAsleep = true := by
    intro who hw
    unfold wakeUp at hw
    dsimp only at hw
    split at hw
    · exact Status.isAsleep_of_isParking (Status.isParking_of_wake hw)
    · exact hw
  cases h with
  | locks | unlocks | returns | acts => exact moved (t := s) rfl nofun id
  | passes | joins | notifiesNobody => exact moved (t := s) rfl nofun id
  | parks _ _ _ _ _ _ _ hpred => exact .inr hpred
  | blocks j _ _ l hst => exact moved (t := s) rfl (fun _ => .inl (by rw [hst]; rfl)) id
  | notifies => exact moved rfl nofun woken
  | notifiesAll => exact moved rfl nofun woken
  | wakes => exact .inl (woken hi)

/-- **An invariant of the labels.** -/
theorem Moves.labels_inv {Inv : ι → L → Prop} (hcode : ∀ i l, Inv i l → (p.code i l).Leads (Inv i))
    (h : ∀ i, Inv i (s.labels i)) (hmoves : Moves p s s') (i : ι) : Inv i (s'.labels i) := by
  have moved : ∀ {j : ι} {next : L}, Inv j next → s'.labels = Function.update s.labels j next →
      Inv i (s'.labels i) := by
    intro j next hnext hlabels
    rw [hlabels]
    by_cases hij : i = j
    · subst hij
      rwa [Function.update_self]
    · rw [Function.update_of_ne hij]
      exact h i
  cases hmoves with
  | stays hlabels _ => exact hlabels ▸ h i
  | goes j next hleads hlabels _ => exact moved ((hcode j _ (h j)).of_leadsTo hleads) hlabels
  | acts j c f hf hlabels _ =>
    have hnext := hcode j _ (h j)
    rw [hf] at hnext
    exact moved (hnext c s.shared) hlabels

/-- What every step keeps, an event keeps. -/
theorem next_inv [Fintype ι] {Inv : Monitor ι σ L → Prop}
    (hstep : ∀ s s' e, Inv s → Steps p s e s' → Inv s') (s : Monitor ι σ L) (e : Tick ι χ)
    (hs : Inv s) : Inv (s.next p e) := by
  unfold next
  cases h : s.step? p e with
  | none => exact hs
  | some s' => exact hstep s s' e hs (steps_of_step? h)

end Monitor

/-! ## Who holds the mutex -/

/-- The instruction takes the mutex and lets it go as the labels say: `here` is whether it is held
before, and `holds` whether it is held at a label. -/
def Instr.Locks (holds : L → Bool) (here : Bool) : Instr ι χ σ L → Prop
  | .lock next => here = false ∧ holds next = true
  | .unlock next => here = true ∧ holds next = false
  | .join _ next => here = false ∧ holds next = false
  | .wait next => here = true ∧ holds next = true
  | .act f => ∀ c x, holds (f c x).1 = here
  | .notifyOne next | .notifyAll next => holds next = here
  | .halt => here = false

/-- The labels say where a thread holds the mutex. -/
def Locks (p : Program ι χ σ L) (holds : ι → L → Bool) : Prop :=
  ∀ i l, (p.code i l).Locks (holds i) (holds i l)

theorem Locks.of_code {p : Program ι χ σ L} {holds : ι → L → Bool} (hp : Locks p holds) {i : ι}
    {l : L} {instr : Instr ι χ σ L} (h : p.code i l = instr) :
    instr.Locks (holds i) (holds i l) := h ▸ hp i l

theorem Status.holding_wake (st : Status L) (holds : L → Bool) :
    st.wake.holding holds = st.holding holds := by
  cases st <;> rfl

theorem Status.waitsAt_wake {st : Status L} {l : L} (h : st.wake.waitsAt l) : st.waitsAt l := by
  cases st with
  | blocked m =>
    rcases h with h | h | h <;> cases h
    exact .inr (.inl rfl)
  | _ => exact h

namespace Monitor

variable {p : Program ι χ σ L} {s s' : Monitor ι σ L} {e : Tick ι χ} {holds : ι → L → Bool}

/-- The mutex is held by the thread whose label says so, and who waits is at a `wait`. -/
structure Owned (p : Program ι χ σ L) (holds : ι → L → Bool) (s : Monitor ι σ L) : Prop where
  owner : ∀ i, s.owner = some i ↔ (s.status i).holding (holds i) = true
  waits : ∀ i l, (s.status i).waitsAt l → ∃ next, p.code i l = .wait next

theorem Owned.wakeUp (h : Owned p holds s) (who : ι → Bool) : Owned p holds (s.wakeUp who) := by
  unfold Monitor.wakeUp
  constructor
  · intro j
    refine (h.owner j).trans ?_
    dsimp only
    split
    · rw [Status.holding_wake]
    · rfl
  · intro j l hl
    dsimp only at hl
    split at hl
    · exact h.waits j l (Status.waitsAt_wake hl)
    · exact h.waits j l hl

/-- Whoever is at a label with the mutex, and not at a `wait`, has it. -/
theorem Owned.of_label (h : Owned p holds s) {i : ι} (hl : holds i (s.labels i) = true)
    (hwait : ∀ next, p.code i (s.labels i) ≠ .wait next) : s.owner = some i := by
  have notWaiting : ∀ l, s.labels i = l → ¬ (s.status i).waitsAt l := by
    rintro l rfl hw
    obtain ⟨next, hcode⟩ := h.waits i _ hw
    exact hwait next hcode
  refine (h.owner i).mpr ?_
  cases hst : s.status i with
  | ready l => exact (show s.labels i = l from congrArg Status.label hst) ▸ hl
  | parking l => rfl
  | blocked l => exact absurd (.inr (.inl hst)) (notWaiting l (congrArg Status.label hst))
  | woken l => exact absurd (.inr (.inr hst)) (notWaiting l (congrArg Status.label hst))

variable [DecidableEq ι]

/-- A thread that was not involved is where it was, and the mutex has changed hands as the thread that
was says. -/
theorem Owned.move {st : Status L} {owner : Option ι} {x : σ} {i : ι} (h : Owned p holds s)
    (howner : owner = some i ↔ st.holding (holds i) = true)
    (hothers : ∀ j, j ≠ i → (owner = some j ↔ s.owner = some j))
    (hwaits : ∀ l, st.waitsAt l → ∃ next, p.code i l = .wait next) :
    Owned p holds { s.setStatus i st with owner := owner, shared := x } := by
  constructor
  · intro j
    show owner = some j ↔ _
    by_cases hj : j = i
    · subst hj
      simpa using howner
    · simpa [hj] using (hothers j hj).trans (h.owner j)
  · intro j l hl
    by_cases hj : j = i
    · subst hj
      exact hwaits l (by simpa using hl)
    · exact h.waits j l (by simpa [hj] using hl)

/-- **The mutex is owned**, through every step. -/
theorem Owned.step (hp : Locks p holds) (h : Owned p holds s) (hstep : Steps p s e s') :
    Owned p holds s' := by
  -- a thread that goes on, and neither takes the mutex nor lets it go
  have goes : ∀ {s : Monitor ι σ L} {i : ι} {l next : L} {x : σ}, Owned p holds s →
      s.status i = .ready l → holds i next = holds i l →
      Owned p holds { s.setStatus i (.ready next) with shared := x } := by
    intro s i l next x h hst hholds
    refine h.move ((h.owner i).trans ?_) (fun _ _ => Iff.rfl) (fun m hm => ?_)
    · rw [hst]
      exact Eq.congr hholds.symm rfl
    · rcases hm with hm | hm | hm <;> cases hm
  have lost : ∀ {i j : ι}, (s.status i).holding (holds i) = true → j ≠ i →
      (none = some j ↔ s.owner = some j) := by
    intro i j hi hj
    rw [(h.owner i).mpr hi]
    simpa using hj.symm
  have taken : ∀ {i j : ι}, s.owner = none → j ≠ i → (some i = some j ↔ s.owner = some j) := by
    intro i j hfree hj
    rw [hfree]
    simpa using hj.symm
  have ready : ∀ {l : L} {m : L}, (Status.ready l).waitsAt m → False := by
    intro l m hm
    rcases hm with hm | hm | hm <;> cases hm
  cases hstep with
  | locks i _ _ l next hst hcode hfree =>
    obtain ⟨_, hnext⟩ := hp.of_code hcode
    exact h.move (by simp [Status.holding, hnext]) (fun j hj => taken hfree hj)
      fun m hm => (ready hm).elim
  | unlocks i _ _ l next hst hcode =>
    obtain ⟨hl, hnext⟩ := hp.of_code hcode
    exact h.move (by simp [Status.holding, hnext]) (fun j hj => lost (by rw [hst]; exact hl) hj)
      fun m hm => (ready hm).elim
  | passes i _ _ l next hst hcode _ =>
    obtain ⟨hl, hnext⟩ := hp.of_code hcode
    exact goes h hst (hnext.trans hl.symm)
  | parks i _ _ l next hst hcode _ =>
    obtain ⟨hl, _⟩ := hp.of_code hcode
    refine h.move ((h.owner i).trans ?_) (fun _ _ => Iff.rfl) (fun m hm => ?_)
    · rw [hst]
      simp [Status.holding, hl]
    · rcases hm with hm | hm | hm <;> cases hm
      exact ⟨next, hcode⟩
  -- the thread goes to sleep, and lets the mutex go
  | blocks i _ _ l hst =>
    refine h.move (by simp [Status.holding]) (fun j hj => lost (by rw [hst]; rfl) hj)
      (fun m hm => ?_)
    rcases hm with hm | hm | hm <;> cases hm
    exact h.waits i l (.inl hst)
  -- it has been woken, and takes the mutex again before it goes on
  | returns i _ _ l hst hfree =>
    obtain ⟨next, hcode⟩ := h.waits i l (.inr (.inr hst))
    exact h.move (by simp [Status.holding, (hp.of_code hcode).1])
      (fun j hj => taken hfree hj) fun m hm => (ready hm).elim
  | acts i c _ l f hst hcode => exact goes h hst (hp.of_code hcode c s.shared)
  | notifies i _ j l next hst hcode _ =>
    refine goes (h.wakeUp _) (l := l) ?_ (hp.of_code hcode)
    unfold Monitor.wakeUp
    dsimp only
    rw [hst]
    split <;> rfl
  | notifiesNobody i _ l next hst hcode _ => exact goes h hst (hp.of_code hcode)
  | notifiesAll i _ _ l next hst hcode =>
    refine goes (h.wakeUp _) (l := l) ?_ (hp.of_code hcode)
    unfold Monitor.wakeUp
    dsimp only
    rw [hst]
    rfl
  | joins i _ _ l j next hst hcode _ =>
    obtain ⟨hl, hnext⟩ := hp.of_code hcode
    exact goes h hst (hnext.trans hl.symm)
  | wakes i _ => exact h.wakeUp _

/-- A sleeping thread can be found, or there is none. -/
theorem exists_notified [Fintype ι] (s : Monitor ι σ L) : ∃ wakes, s.notified wakes ≠ none := by
  by_cases h : ∃ j, (s.status j).isBlocked = true
  · obtain ⟨j, hj⟩ := h
    refine ⟨some j, ?_⟩
    unfold notified
    dsimp only
    rw [if_pos hj]
    exact Option.some_ne_none _
  · refine ⟨none, ?_⟩
    unfold notified
    rw [if_pos fun j => by simpa using fun hj => h ⟨j, hj⟩]
    exact Option.some_ne_none _

/-- Why a thread cannot make a step although the mutex is free. -/
inductive AtRest (p : Program ι χ σ L) (s : Monitor ι σ L) (i : ι) : Prop
  | finished (h : s.finished p i = true)
  | blocked (h : (s.status i).isBlocked = true)
  | joining (l : L) (j : ι) (next : L) (hst : s.status i = .ready l)
      (hcode : p.code i l = .join j next) (hj : s.finished p j = false)

/-- In a state in which nobody can move, nobody holds the mutex: whoever held it would be at a label
where there is something to do. So every thread is at rest. -/
theorem Owned.stuck [Fintype ι] [Inhabited χ] (hp : Locks p holds) (h : Owned p holds s)
    (hstuck : s.Stuck p) : s.owner = none ∧ ∀ i, AtRest p s i := by
  have step : ∀ i wakes, s.step? p (.step i default wakes) = none := fun i => hstuck i default
  -- at a label where the mutex is held there is always something to do
  have free : s.owner = none := by
    by_contra hne
    obtain ⟨i, hi⟩ := Option.ne_none_iff_exists'.mp hne
    have hholds := (h.owner i).mp hi
    have hi := step i
    unfold step? at hi
    dsimp only at hi
    cases hst : s.status i with
    | blocked l => simp [hst, Status.holding] at hholds
    | woken l => simp [hst, Status.holding] at hholds
    | parking l => simp [hst] at hi
    | ready l =>
      have hl : holds i l = true := by simpa [hst, Status.holding] using hholds
      rw [hst] at hi
      dsimp only at hi
      cases hcode : p.code i l with
      | lock next => simp [(hp.of_code hcode).1] at hl
      | join j next => simp [(hp.of_code hcode).1] at hl
      | halt =>
        have hrest : holds i l = false := hp.of_code hcode
        simp [hrest] at hl
      | notifyOne next =>
        obtain ⟨wakes, hw⟩ := s.exists_notified
        simp only [hcode, Option.map_eq_none_iff] at hi
        exact hw (hi wakes)
      | _ => simp [hcode] at hi
  -- with the mutex free a lock succeeds, so what is left is to sleep, to join or to have finished
  refine ⟨free, fun i => ?_⟩
  have hi := step i
  unfold step? at hi
  dsimp only at hi
  cases hst : s.status i with
  | blocked l => exact .blocked (by simp [hst, Status.isBlocked])
  | parking l => simp [hst] at hi
  | woken l => simp [hst, free] at hi
  | ready l =>
    rw [hst] at hi
    dsimp only at hi
    cases hcode : p.code i l with
    | lock next => simp [hcode, free] at hi
    | halt => exact .finished (by simp [finished, hst, hcode])
    | join j next =>
      simp only [hcode, ite_eq_right_iff, reduceCtorEq, imp_false, Bool.not_eq_true,
        forall_const] at hi
      exact .joining l j next hst hcode hi
    | notifyOne next =>
      obtain ⟨wakes, hw⟩ := s.exists_notified
      simp only [hcode, Option.map_eq_none_iff] at hi
      exact absurd (hi wakes) hw
    | _ => simp [hcode] at hi

end Monitor

end Effect
