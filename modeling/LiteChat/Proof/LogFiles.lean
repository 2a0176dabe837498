import LiteChat.Effect.Runs
import LiteChat.Model.ServerLogger

/-!
# Which file an entry goes to

The file is chosen by `RotateLogFile`, which runs at the start and when the size limit is reached.
Between two of its runs entries go to one file, whatever day it is; and when the limit is reached,
the file of that day is the same one for the rest of the day.

`content_writeLog` is what an entry does to the files, the rotation after it included, which changes
no content. Both results follow by an invariant of the open file: it is the one of the day of the
last rotation, and `currentLogSize` is at least its size.
-/

namespace LiteChat

open Effect

variable {L : Calendar}

/-! ## Contents -/

theorem logFileName_inj {now now' : Nat} :
    logFileName L now = logFileName L now' ↔ L.date now = L.date now' := by
  unfold logFileName
  rw [List.append_cancel_right_eq, List.append_cancel_left_eq]

theorem LogCall.entry_ne_nil (call : LogCall) : call.entry L ≠ [] := by
  unfold LogCall.entry
  simp [bytes]

theorem LogCall.written_eq_entry_iff {call : LogCall} :
    call.written L = call.entry L ↔ call.lost = 0 := by
  have hpos : 0 < (call.entry L).length := List.length_pos_iff.mpr call.entry_ne_nil
  rw [written, List.take_eq_self_iff]
  omega

theorem LogCall.length_written_le (call : LogCall) :
    (call.written L).length ≤ (call.entry L).length :=
  List.length_take_le' _ _

theorem LogDisk.content_append (disk : LogDisk) (name written : Str) (now : Nat) (n : Str) :
    (disk.append name written now).content n =
      disk.content n ++ if n = name ∧ (disk name).isSome then written else [] := by
  unfold content append
  by_cases hn : n = name
  · subst hn
    cases disk n with
    | none => simp
    | some file => simp
  · simp [hn]

namespace Logs

/-- Opening a file to append to it changes no content. -/
theorem content_rotateLogFile (s : Logs) (now : Nat) (opens : Bool) (n : Str) :
    (s.rotateLogFile L now opens).disk.content n = s.disk.content n := by
  unfold rotateLogFile
  split
  · unfold LogDisk.content
    dsimp only
    by_cases hn : n = logFileName L now
    · subst hn
      rw [Function.update_self]
      cases s.disk (logFileName L now) with
      | none => rfl
      | some file => rfl
    · rw [Function.update_of_ne hn]
  · rfl

theorem maxLogSize_rotateLogFile (s : Logs) (now : Nat) (opens : Bool) :
    (s.rotateLogFile L now opens).maxLogSize = s.maxLogSize := by
  unfold rotateLogFile
  split <;> rfl

/-- What it opens, and from which size on it counts. -/
theorem logFile_rotateLogFile {s : Logs} {now : Nat} {opens : Bool} {name : Str}
    (h : (s.rotateLogFile L now opens).logFile = some name) :
    opens = true ∧ name = logFileName L now ∧
      (s.rotateLogFile L now opens).currentLogSize = (s.disk.content name).length := by
  unfold rotateLogFile at h ⊢
  split
  · next hopens =>
    rw [if_pos hopens] at h
    cases h
    refine ⟨hopens, rfl, ?_⟩
    unfold LogDisk.content
    cases s.disk (logFileName L now) with
    | none => rfl
    | some file => rfl
  · next hopens =>
    rw [if_neg hopens] at h
    cases h

/-- The call reaches the limit. -/
def ReachesLimit (L : Calendar) (s : Logs) (call : LogCall) : Prop :=
  s.logFile ≠ none ∧ s.maxLogSize ≤ s.currentLogSize + (call.written L).length

instance (s : Logs) (call : LogCall) : Decidable (s.ReachesLimit L call) :=
  inferInstanceAs (Decidable (_ ∧ _))

theorem writeLog_of_none {s : Logs} {call : LogCall} (h : s.logFile = none) :
    s.writeLog L call = s := by
  unfold writeLog
  rw [h]

/-- A call with a file open: what is written, and then perhaps the rotation. -/
theorem writeLog_of_some {s : Logs} {call : LogCall} {name : Str} (h : s.logFile = some name) :
    s.writeLog L call =
      let s' := { s with
        currentLogSize := s.currentLogSize + (call.written L).length
        disk := s.disk.append name (call.written L) call.now }
      if s.ReachesLimit L call then s'.rotateLogFile L call.rotateNow call.opens else s' := by
  have hlimit : s.ReachesLimit L call ↔
      s.maxLogSize ≤ s.currentLogSize + (call.written L).length := by
    unfold ReachesLimit
    simp [h]
  unfold writeLog
  rw [h]
  dsimp only
  simp only [hlimit]

/-- **Where an entry goes.** -/
theorem content_writeLog {s : Logs} {call : LogCall} {name : Str} (h : s.logFile = some name)
    (n : Str) : (s.writeLog L call).disk.content n =
      s.disk.content n ++ if n = name ∧ (s.disk name).isSome then call.written L else [] := by
  rw [writeLog_of_some h, ← LogDisk.content_append s.disk name (call.written L) call.now n]
  dsimp only
  split
  · rw [content_rotateLogFile]
  · rfl

theorem maxLogSize_writeLog (s : Logs) (call : LogCall) :
    (s.writeLog L call).maxLogSize = s.maxLogSize := by
  cases h : s.logFile with
  | none => rw [writeLog_of_none h]
  | some name =>
    rw [writeLog_of_some h]
    dsimp only
    split
    · rw [maxLogSize_rotateLogFile]
    · rfl

/-! ## The day of an entry -/

/-- The logs, and what `time` returned in the last `RotateLogFile`. -/
structure Dated where
  logs : Logs
  openedAt : Nat

namespace Dated

def next (L : Calendar) (s : Dated) (call : LogCall) : Dated where
  logs := s.logs.writeLog L call
  openedAt := if s.logs.ReachesLimit L call then call.rotateNow else s.openedAt

/-- After `InitLogger`. -/
def start (L : Calendar) (c : InitChoice) (s : Logs) : Dated := ⟨s.initLogger L c, c.rotateNow⟩

/-- The open file is the one of the day on which it was opened. -/
def Current (L : Calendar) (s : Dated) : Prop :=
  ∀ name, s.logs.logFile = some name → name = logFileName L s.openedAt

theorem Current.start (c : InitChoice) (s : Logs) : (start L c s).Current L :=
  fun _ hname => (logFile_rotateLogFile hname).2.1

theorem Current.next {s : Dated} (hs : s.Current L) (call : LogCall) :
    (s.next L call).Current L := by
  intro name hname
  unfold Dated.next at hname ⊢
  dsimp only at hname ⊢
  cases hfile : s.logs.logFile with
  | none =>
    rw [writeLog_of_none hfile, hfile] at hname
    cases hname
  | some name' =>
    rw [writeLog_of_some hfile] at hname
    dsimp only at hname
    split
    · next hlimit =>
      rw [if_pos hlimit] at hname
      exact (logFile_rotateLogFile hname).2.1
    · next hlimit =>
      rw [if_neg hlimit] at hname
      exact hs name hname

end Dated

/-- The entry of a call is appended to the file of its date, and nothing to another one. -/
def GoesToItsDay (L : Calendar) (s : Logs) (call : LogCall) : Prop :=
  ∀ name, (s.writeLog L call).disk.content name =
    s.disk.content name ++ if name = logFileName L call.now then call.entry L else []

/-- The day on which the file was opened has not ended. (A file is open and still in the directory,
and `fwrite` does its work.) -/
def Dated.SameDay (L : Calendar) (s : Dated) (call : LogCall) : Prop :=
  (∃ name, s.logs.logFile = some name ∧ (s.logs.disk name).isSome) ∧ call.lost = 0 ∧
    L.date call.now = L.date s.openedAt

theorem goesToItsDay_step {s : Dated} (hs : s.Current L) (call : LogCall) :
    GoesToItsDay L s.logs call ↔ s.SameDay L call := by
  constructor
  · intro h
    have hday := h (logFileName L call.now)
    rw [if_pos rfl] at hday
    cases hfile : s.logs.logFile with
    | none =>
      rw [writeLog_of_none hfile, List.self_eq_append_right] at hday
      exact absurd hday call.entry_ne_nil
    | some name =>
      rw [content_writeLog hfile, List.append_cancel_left_eq] at hday
      split at hday
      · next hname =>
        refine ⟨⟨name, hfile, hname.2⟩, LogCall.written_eq_entry_iff.mp hday, ?_⟩
        rw [← logFileName_inj, hname.1]
        exact hs name hfile
      · exact absurd hday.symm call.entry_ne_nil
  · rintro ⟨⟨name, hfile, hsome⟩, hlost, hdate⟩ n
    have hname : name = logFileName L call.now := by
      rw [hs name hfile, logFileName_inj, hdate]
    rw [content_writeLog hfile, LogCall.written_eq_entry_iff.mpr hlost, hname]
    rw [hname] at hsome
    simp only [hsome, and_true]

/-- **Every entry of a run goes to the file of its day exactly if none comes after midnight to a file
that was opened before.** The name of the file is made when it is opened, and only a full file leads to
a new one; the day is not looked at in between. -/
theorem goesToItsDay_iff (L : Calendar) (c : InitChoice) (s : Logs) (calls : List LogCall) :
    Meets (Dated.next L) (fun s call => GoesToItsDay L s.logs call) (.start L c s) calls ↔
      Meets (Dated.next L) (Dated.SameDay L) (.start L c s) calls := by
  constructor
  · exact Meets.of_inv (Dated.Current.start c s) (fun _ call hs _ => hs.next call)
      fun _ call hs h => (goesToItsDay_step hs call).mp h
  · exact Meets.of_inv (Dated.Current.start c s) (fun _ call hs _ => hs.next call)
      fun _ call hs h => (goesToItsDay_step hs call).mpr h

/-- The last second of a year and the first of the next. -/
def newYear : Calendar where
  date now := if now < 1704067200 then bytes "2023-12-31" else bytes "2024-01-01"
  timeOfDay now := if now < 1704067200 then bytes "23:59:59" else bytes "00:00:00"

/-- `fopen` and `fwrite` succeed, and `RotateLogFile` would run at once. -/
def startedAt (now : Nat) : LogCall :=
  { level := .INFO
    moduleName := bytes "main"
    message := bytes "started"
    clientIP := []
    now := now
    lost := 0
    rotateNow := now
    opens := true }

/-- With an empty directory. -/
def empty (maxLogSize : Nat) : Logs := { maxLogSize := maxLogSize, disk := fun _ => none }

def initAt (now : Nat) : InitChoice := ⟨now, true, now, fun _ => true⟩

/-- The clock of a run never goes back. -/
def Forwards (c : InitChoice) (calls : List LogCall) : Prop :=
  (c.rotateNow :: calls.flatMap fun call => [call.now, call.rotateNow]).Pairwise (· ≤ ·)

theorem not_goesToItsDay : ¬ ∀ (L : Calendar) (c : InitChoice) (s : Logs) (calls : List LogCall),
    Forwards c calls →
      Meets (Dated.next L) (fun s call => GoesToItsDay L s.logs call) (.start L c s) calls := by
  intro h
  have hrun := h newYear (initAt 1704067199) (empty (10 * 1024 * 1024))
    [startedAt 1704067199, startedAt 1704067200] (by unfold Forwards; decide)
  have hday := hrun.2.1 (bytes "server_log_2024-01-01.txt")
  exact absurd hday (by decide +kernel)

/-! ## The size of a file -/

/-- No file is longer than the limit and one of the entries together. -/
def Bounded (entries : List Str) (s : Logs) : Prop :=
  ∀ name, (s.disk.content name).length ≤ s.maxLogSize ∨
    ∃ entry ∈ entries, (s.disk.content name).length ≤ s.maxLogSize + entry.length

/-- When a call reaches the limit, the file that is named after the day on which `RotateLogFile`
runs, with what was written, does not exceed the limit. -/
def FindsRoom (L : Calendar) (s : Logs) (call : LogCall) : Prop :=
  ∀ name ∈ s.logFile, s.ReachesLimit L call → call.opens = true →
    ((s.disk.append name (call.written L) call.now).content
      (logFileName L call.rotateNow)).length ≤ s.maxLogSize

instance (s : Logs) (call : LogCall) : Decidable (s.FindsRoom L call) :=
  inferInstanceAs (Decidable (∀ name ∈ s.logFile, _))

/-- The open file is below the limit when an entry is written to it, and the counter is right, or
too high. -/
structure Sized (entries : List Str) (s : Logs) : Prop where
  bounded : Bounded entries s
  below : s.logFile ≠ none → s.currentLogSize ≤ s.maxLogSize
  counted : ∀ name, s.logFile = some name → (s.disk.content name).length ≤ s.currentLogSize

/-- One call of `WriteLog`. The entry goes to the open file; if that takes the file to the limit, the
file is closed, and the one that is opened instead has room, or else none is open. -/
theorem Sized.writeLog {entries : List Str} {s : Logs} {call : LogCall} (hs : Sized entries s)
    (hentry : call.entry L ∈ entries) (h : s.FindsRoom L call) :
    Sized entries (s.writeLog L call) := by
  cases hfile : s.logFile with
  | none =>
    rw [writeLog_of_none hfile]
    exact hs
  | some name =>
    have hbelow := hs.below (by simp [hfile])
    have hcounted := hs.counted name hfile
    have hwritten := call.length_written_le (L := L)
    have hbounded : Bounded entries (s.writeLog L call) := by
      intro n
      rw [content_writeLog hfile, maxLogSize_writeLog, List.length_append]
      split
      · next hn =>
        refine .inr ⟨call.entry L, hentry, ?_⟩
        rw [hn.1]
        omega
      · simpa using hs.bounded n
    have hroom := h name (by rw [hfile]; rfl)
    refine ⟨hbounded, fun hopen => ?_, fun n hn => ?_⟩
    · rw [maxLogSize_writeLog]
      rw [writeLog_of_some hfile] at hopen ⊢
      dsimp only at hopen ⊢
      split
      · -- the limit is reached: the next file is new, or one that the condition says has room
        next hlimit =>
        rw [if_pos hlimit] at hopen
        obtain ⟨n, hn⟩ := Option.ne_none_iff_exists'.mp hopen
        obtain ⟨hopens, rfl, hsize⟩ := logFile_rotateLogFile hn
        rw [hsize]
        exact hroom hlimit hopens
      · next hlimit =>
        have : ¬ s.maxLogSize ≤ s.currentLogSize + (call.written L).length := fun hle =>
          hlimit ⟨by simp [hfile], hle⟩
        dsimp only
        omega
    · rw [writeLog_of_some hfile] at hn ⊢
      dsimp only at hn ⊢
      split
      · next hlimit =>
        rw [if_pos hlimit] at hn
        obtain ⟨-, -, hsize⟩ := logFile_rotateLogFile hn
        rw [content_rotateLogFile, hsize]
      · next hlimit =>
        rw [if_neg hlimit] at hn
        dsimp only at hn ⊢
        rw [hfile] at hn
        cases hn
        rw [LogDisk.content_append, List.length_append]
        split
        · omega
        · simp
          omega

theorem Sized.runAll {entries : List Str} {s : Logs} {calls : List LogCall} (hs : Sized entries s)
    (hentries : ∀ call ∈ calls, call.entry L ∈ entries)
    (h : Meets (Logs.writeLog L) (FindsRoom L) s calls) :
    Sized entries (runAll (Logs.writeLog L) s calls) := by
  induction calls generalizing s with
  | nil => exact hs
  | cons call calls ih =>
    exact ih (hs.writeLog (hentries call List.mem_cons_self) h.1)
      (fun c hc => hentries c (List.mem_cons_of_mem call hc)) h.2

theorem Sized.start (entries : List Str) (c : InitChoice) (maxLogSize : Nat) :
    Sized entries ((empty maxLogSize).initLogger L c) := by
  have hcontent : ∀ name, ((empty maxLogSize).initLogger L c).disk.content name = [] := by
    intro name
    have hrotate := content_rotateLogFile (L := L) (empty maxLogSize) c.rotateNow c.opens name
    unfold initLogger cleanExpiredLogs
    unfold LogDisk.content at hrotate ⊢
    dsimp only
    generalize (rotateLogFile L c.rotateNow c.opens (empty maxLogSize)).disk name = file at hrotate ⊢
    cases file with
    | none => rfl
    | some file =>
      rw [Option.filter_some]
      split
      · exact hrotate
      · rfl
  refine ⟨fun name => .inl (by rw [hcontent]; exact Nat.zero_le _), fun hopen => ?_,
    fun name _ => by rw [hcontent]; exact Nat.zero_le _⟩
  obtain ⟨name, hname⟩ := Option.ne_none_iff_exists'.mp hopen
  have hsize := (logFile_rotateLogFile (s := empty maxLogSize) hname).2.2
  exact (hsize.trans_le (Nat.zero_le _) : _)

/-- **No file grows past the limit by more than one entry**, in every run of calls, of whatever length,
in which the file that a rotation opens is not over the limit already. On one day the name does not
change, so that the file that was full is opened again; that is what the condition excludes. -/
theorem bounded_run (L : Calendar) (c : InitChoice) (maxLogSize : Nat) (calls : List LogCall)
    (h : Meets (Logs.writeLog L) (FindsRoom L) ((empty maxLogSize).initLogger L c) calls) :
    Bounded (calls.map fun call => call.entry L)
      (Effect.runAll (Logs.writeLog L) ((empty maxLogSize).initLogger L c) calls) := by
  have hs := Sized.start (L := L) (calls.map fun call => call.entry L) c maxLogSize
  exact (hs.runAll (fun call hcall => List.mem_map_of_mem hcall) h).bounded

/-- The limit is reached with the end of the year. -/
def overNewYear : List LogCall :=
  [startedAt 1704067199, { startedAt 1704067199 with rotateNow := 1704067200 },
    startedAt 1704067200]

theorem bounded_newYear : Bounded (overNewYear.map fun call => call.entry newYear)
    (Effect.runAll (Logs.writeLog newYear)
      ((empty 60).initLogger newYear (initAt 1704067199)) overNewYear) :=
  bounded_run newYear (initAt 1704067199) 60 overNewYear (by decide +kernel)

theorem not_bounded : ¬ ∀ (L : Calendar) (c : InitChoice) (maxLogSize : Nat) (calls : List LogCall),
    0 < maxLogSize → Bounded (calls.map fun call => call.entry L)
      (Effect.runAll (Logs.writeLog L) ((empty maxLogSize).initLogger L c) calls) := by
  intro h
  have hrun := h newYear (initAt 1704067200) 1 (List.replicate 3 (startedAt 1704067200)) (by decide)
  have hfile := hrun (bytes "server_log_2024-01-01.txt")
  exact absurd hfile (by decide +kernel)

end Logs

end LiteChat
