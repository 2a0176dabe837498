import LiteChat.Proof.LogFiles

/-!
# How long an entry is kept

Only `CleanExpiredLogs` takes a file out of the directory, and it runs once in the life of a
process, right after `RotateLogFile` has opened the day's file. That file can be there from before:
if it were old enough to be removed, everything the process writes would go to a file that no
directory lists. The invariant `Filed` is that this does not happen: a file of a day was last written
on that day or later, so the day's file is at most a day old.

What is in a file then stays until a start finds that nothing was written to it for ninety days, and
an entry counts from the time it was written (`retained_run`), through any number of restarts.
-/

namespace LiteChat

open Effect

variable {L : Calendar}

namespace Logs

/-! ## Processes over one directory -/

inductive LogEvent
  /-- A new process, and `InitLogger`. -/
  | start (c : InitChoice)
  | write (call : LogCall)

/-- What `time` returns in the event. -/
def LogEvent.times : LogEvent → List Nat
  | .start c => [c.rotateNow, c.cleanNow]
  | .write call => [call.now, call.rotateNow]

/-- A new process finds nothing but the directory. -/
def nextProcess (L : Calendar) (s : Logs) : LogEvent → Logs
  | .start c => initLogger L c { disk := s.disk }
  | .write call => s.writeLog L call

/-- The clock of a run that begins at `now` never goes back. -/
def ForwardsFrom (now : Nat) (events : List LogEvent) : Prop :=
  (now :: events.flatMap LogEvent.times).Pairwise (· ≤ ·)

/-- A day has at most twenty-five hours. -/
def ShortDays (L : Calendar) : Prop := ∀ now now', L.date now = L.date now' → now' ≤ now + 25 * 3600

/-- `InitLogger` takes less than a day. -/
def Prompt : LogEvent → Prop
  | .start c => c.cleanNow ≤ c.rotateNow + 86400
  | .write _ => True

/-- The event, if it is a start, is at most ninety days after a time. -/
def Within (now : Nat) : LogEvent → Prop
  | .start c => c.cleanNow ≤ now + 90 * 86400
  | .write _ => True

/-! ## What the steps do to a file -/

theorem disk_rotateLogFile (s : Logs) (now : Nat) (opens : Bool) (name : Str) :
    (s.rotateLogFile L now opens).disk name =
      if opens = true ∧ name = logFileName L now ∧ s.disk name = none then some ⟨[], now⟩
      else s.disk name := by
  unfold rotateLogFile
  cases opens with
  | false => simp
  | true =>
    simp only [if_true, true_and]
    by_cases hname : name = logFileName L now
    · subst hname
      rw [Function.update_self]
      cases s.disk (logFileName L now) with
      | none => simp
      | some file => simp
    · rw [Function.update_of_ne hname]
      simp [hname]

/-- A file that has been opened is in the directory. -/
theorem isSome_rotateLogFile {s : Logs} {now : Nat} {opens : Bool} {name : Str}
    (h : (s.rotateLogFile L now opens).logFile = some name) :
    ((s.rotateLogFile L now opens).disk name).isSome := by
  obtain ⟨hopens, rfl, -⟩ := logFile_rotateLogFile h
  rw [disk_rotateLogFile]
  split
  · rfl
  · next hcond =>
    rw [Option.isSome_iff_ne_none]
    exact fun hnone => hcond ⟨hopens, rfl, hnone⟩

/-- What is left after `CleanExpiredLogs` was there before. -/
theorem disk_of_cleanExpiredLogs {s : Logs} {retentionDays now : Nat} {removes : Str → Bool}
    {name : Str} {file : LogFile}
    (h : (s.cleanExpiredLogs retentionDays now removes).disk name = some file) :
    s.disk name = some file :=
  (Option.filter_eq_some_iff.mp h).1

/-- A file that is not old enough is left. -/
theorem disk_cleanExpiredLogs {s : Logs} {retentionDays now : Nat} {removes : Str → Bool}
    {name : Str} {file : LogFile} (h : s.disk name = some file)
    (hyoung : now ≤ file.mtime + retentionDays * 86400) :
    (s.cleanExpiredLogs retentionDays now removes).disk name = some file := by
  refine Option.filter_eq_some_iff.mpr ⟨h, ?_⟩
  have hnot : ¬ file.mtime + retentionDays * 86400 < now := Nat.not_lt.mpr hyoung
  simp [hnot]

/-! ## The directory at a time -/

/-- The file was last written on the day that it is named after, or later, and not after now. -/
def Timely (L : Calendar) (now : Nat) (name : Str) (file : LogFile) : Prop :=
  file.mtime ≤ now ∧ ∃ day ≤ file.mtime, name = logFileName L day

structure Filed (L : Calendar) (now : Nat) (s : Logs) : Prop where
  timely : ∀ name file, s.disk name = some file → Timely L now name file
  /-- The stream writes to a file that is in the directory, of a day that has begun. -/
  opened : ∀ name, s.logFile = some name →
    (s.disk name).isSome ∧ ∃ day ≤ now, name = logFileName L day

theorem Timely.mono {now now' : Nat} {name : Str} {file : LogFile} (h : Timely L now name file)
    (hle : now ≤ now') : Timely L now' name file :=
  ⟨h.1.trans hle, h.2⟩

theorem Filed.rotateLogFile {now now' : Nat} {s : Logs}
    (hs : ∀ name file, s.disk name = some file → Timely L now name file) (hle : now ≤ now')
    (opens : Bool) : Filed L now' (s.rotateLogFile L now' opens) := by
  refine ⟨fun name file hfile => ?_, fun name hname => ?_⟩
  · rw [disk_rotateLogFile] at hfile
    split at hfile
    · next hnew =>
      cases hfile
      exact ⟨Nat.le_refl _, now', Nat.le_refl _, hnew.2.1⟩
    · exact (hs name file hfile).mono hle
  · obtain ⟨-, rfl, -⟩ := logFile_rotateLogFile hname
    exact ⟨isSome_rotateLogFile hname, now', Nat.le_refl _, rfl⟩

/-- A file of the day is at most a day old. -/
theorem Timely.recent {now now' : Nat} {name : Str} {file : LogFile} (h : Timely L now name file)
    (hdays : ShortDays L) (hname : name = logFileName L now') : now' ≤ file.mtime + 25 * 3600 := by
  obtain ⟨-, day, hday, hname'⟩ := h
  have hdate : L.date day = L.date now' := logFileName_inj.mp (hname'.symm.trans hname)
  have := hdays day now' hdate
  omega

theorem Filed.initLogger {now : Nat} {s : Logs} (hs : Filed L now s) (hdays : ShortDays L)
    {c : InitChoice} (hrotate : now ≤ c.rotateNow) (hclean : c.rotateNow ≤ c.cleanNow)
    (hprompt : Prompt (.start c)) : Filed L c.cleanNow (nextProcess L s (.start c)) := by
  have hopen : Filed L c.rotateNow (Logs.rotateLogFile L c.rotateNow c.opens { disk := s.disk }) :=
    @Filed.rotateLogFile L now c.rotateNow { disk := s.disk } hs.timely hrotate c.opens
  refine ⟨fun name file hfile => ?_, fun name hname => ?_⟩
  · exact (hopen.timely name file (disk_of_cleanExpiredLogs hfile)).mono hclean
  · obtain ⟨hsome, -⟩ := hopen.opened name hname
    obtain ⟨-, hday, -⟩ := logFile_rotateLogFile hname
    obtain ⟨file, hfile⟩ := Option.isSome_iff_exists.mp hsome
    -- the clean-up does not remove the file that has just been opened
    have hrecent := (hopen.timely name file hfile).recent hdays hday
    unfold Prompt at hprompt
    have hkept : (nextProcess L s (.start c)).disk name = some file := by
      refine disk_cleanExpiredLogs hfile ?_
      dsimp only
      omega
    exact ⟨by rw [hkept]; rfl, c.rotateNow, hclean, hday⟩

/-- Writing to a file makes it younger. -/
theorem Filed.append {now now' : Nat} {s : Logs} (hs : Filed L now s) (hle : now ≤ now')
    {name : Str} (hname : s.logFile = some name) (written : Str) :
    ∀ n file, s.disk.append name written now' n = some file → Timely L now' n file := by
  intro n file hfile
  unfold LogDisk.append at hfile
  by_cases hn : n = name
  · subst hn
    rw [Function.update_self] at hfile
    obtain ⟨-, -, rfl⟩ := Option.map_eq_some_iff.mp hfile
    obtain ⟨-, day, hday, hn⟩ := hs.opened n hname
    exact ⟨Nat.le_refl _, day, hday.trans hle, hn⟩
  · rw [Function.update_of_ne hn] at hfile
    exact (hs.timely n file hfile).mono hle

theorem Filed.writeLog {now : Nat} {s : Logs} (hs : Filed L now s) {call : LogCall}
    (hwrite : now ≤ call.now) (hrotate : call.now ≤ call.rotateNow) :
    Filed L call.rotateNow (s.writeLog L call) := by
  cases hfile : s.logFile with
  | none =>
    rw [writeLog_of_none hfile]
    refine ⟨fun n file hn => (hs.timely n file hn).mono (hwrite.trans hrotate), fun n hn => ?_⟩
    rw [hfile] at hn
    cases hn
  | some name =>
    have happend := hs.append hwrite hfile (call.written L)
    rw [writeLog_of_some hfile]
    dsimp only
    split
    · exact Filed.rotateLogFile happend hrotate call.opens
    · refine ⟨fun n file hn => (happend n file hn).mono hrotate, fun n hn => ?_⟩
      obtain ⟨hsome, day, hday, hn'⟩ := hs.opened n hn
      refine ⟨?_, day, hday.trans (hwrite.trans hrotate), hn'⟩
      dsimp only
      unfold LogDisk.append
      by_cases hn : n = name
      · subst hn
        rw [Function.update_self, Option.isSome_map]
        exact hsome
      · rw [Function.update_of_ne hn]
        exact hsome

/-! ## An entry in a file -/

/-- The text is in a file that was last written then or later. -/
def Recorded (text : Str) (written : Nat) (name : Str) (s : Logs) : Prop :=
  ∃ file, s.disk name = some file ∧ text <:+: file.content ∧ written ≤ file.mtime

theorem Recorded.rotateLogFile {text : Str} {written : Nat} {name : Str} {s : Logs}
    (h : Recorded text written name s) (now : Nat) (opens : Bool) :
    Recorded text written name (s.rotateLogFile L now opens) := by
  obtain ⟨file, hfile, hrest⟩ := h
  refine ⟨file, ?_, hrest⟩
  rw [disk_rotateLogFile, if_neg]
  · exact hfile
  · rintro ⟨-, -, hnone⟩
    rw [hfile] at hnone
    cases hnone

theorem Recorded.append {text : Str} {written : Nat} {name : Str} {s : Logs}
    (h : Recorded text written name s) (n more : Str) {now : Nat} (hnow : written ≤ now)
    (currentLogSize : Nat) : Recorded text written name
      { s with currentLogSize := currentLogSize, disk := s.disk.append n more now } := by
  obtain ⟨file, hfile, htext, hwritten⟩ := h
  unfold Recorded LogDisk.append
  dsimp only
  by_cases hn : name = n
  · subst hn
    refine ⟨⟨file.content ++ more, now⟩, ?_, htext.trans (List.infix_append' [] _ _), hnow⟩
    rw [Function.update_self, hfile]
    rfl
  · exact ⟨file, by rw [Function.update_of_ne hn]; exact hfile, htext, hwritten⟩

theorem Recorded.writeLog {text : Str} {written : Nat} {name : Str} {s : Logs}
    (h : Recorded text written name s) {call : LogCall} (hnow : written ≤ call.now) :
    Recorded text written name (s.writeLog L call) := by
  cases hfile : s.logFile with
  | none =>
    rw [writeLog_of_none hfile]
    exact h
  | some n =>
    have happend := h.append n (call.written L) hnow (s.currentLogSize + (call.written L).length)
    rw [writeLog_of_some hfile]
    dsimp only
    split
    · exact happend.rotateLogFile call.rotateNow call.opens
    · exact happend

/-- What a call has written is in the file. -/
theorem recorded_writeLog {now : Nat} {s : Logs} (hs : Filed L now s) {call : LogCall} {name : Str}
    (hname : s.logFile = some name) :
    Recorded (call.written L) call.now name (s.writeLog L call) := by
  obtain ⟨file, hfile⟩ := Option.isSome_iff_exists.mp (hs.opened name hname).1
  have happend : Recorded (call.written L) call.now name { s with
      currentLogSize := s.currentLogSize + (call.written L).length
      disk := s.disk.append name (call.written L) call.now } := by
    refine ⟨⟨file.content ++ call.written L, call.now⟩, ?_, (List.suffix_append _ _).isInfix,
      Nat.le_refl _⟩
    dsimp only
    unfold LogDisk.append
    rw [Function.update_self, hfile]
    rfl
  rw [writeLog_of_some hname]
  dsimp only
  split
  · exact happend.rotateLogFile _ _
  · exact happend

theorem Recorded.initLogger {text : Str} {written : Nat} {name : Str} {s : Logs}
    (h : Recorded text written name s) {c : InitChoice} (hwithin : Within written (.start c)) :
    Recorded text written name (nextProcess L s (.start c)) := by
  have hopen : Recorded text written name
      (Logs.rotateLogFile L c.rotateNow c.opens { disk := s.disk }) :=
    @Recorded.rotateLogFile L text written name { disk := s.disk } h c.rotateNow c.opens
  obtain ⟨file, hfile, htext, hwritten⟩ := hopen
  unfold Within at hwithin
  refine ⟨file, disk_cleanExpiredLogs hfile ?_, htext, hwritten⟩
  dsimp only
  omega

/-! ## Runs -/

theorem ForwardsFrom.cons {now : Nat} {e : LogEvent} {events : List LogEvent}
    (h : ForwardsFrom now (e :: events)) :
    ∃ first last, e.times = [first, last] ∧ now ≤ first ∧ first ≤ last ∧
      ForwardsFrom last events := by
  obtain ⟨first, last, htimes⟩ : ∃ first last, e.times = [first, last] := by
    cases e with
    | start c => exact ⟨_, _, rfl⟩
    | write call => exact ⟨_, _, rfl⟩
  unfold ForwardsFrom at h ⊢
  rw [List.flatMap_cons, htimes] at h
  obtain ⟨hnow, hfirst, hlast⟩ : _ ∧ _ ∧ _ := by
    simpa only [List.cons_append, List.nil_append, List.pairwise_cons] using h
  exact ⟨first, last, htimes, hnow first List.mem_cons_self, hfirst last List.mem_cons_self,
    List.pairwise_cons.mpr hlast⟩

theorem Filed.nextProcess {now first last : Nat} {s : Logs} (hs : Filed L now s)
    (hdays : ShortDays L) {e : LogEvent} (hprompt : Prompt e) (htimes : e.times = [first, last])
    (hfirst : now ≤ first) (hlast : first ≤ last) : Filed L last (nextProcess L s e) := by
  cases e with
  | start c =>
    cases htimes
    exact hs.initLogger hdays hfirst hlast hprompt
  | write call =>
    cases htimes
    exact hs.writeLog hfirst hlast

theorem Recorded.nextProcess {text : Str} {written now first last : Nat} {name : Str} {s : Logs}
    (h : Recorded text written name s) (hnow : written ≤ now) {e : LogEvent}
    (hwithin : Within written e) (htimes : e.times = [first, last]) (hfirst : now ≤ first) :
    Recorded text written name (nextProcess L s e) := by
  cases e with
  | start c => exact h.initLogger hwithin
  | write call =>
    cases htimes
    exact h.writeLog (hnow.trans hfirst)

theorem Recorded.runAll {text : Str} {written now : Nat} {name : Str} {s : Logs}
    {events : List LogEvent} (h : Recorded text written name s) (hnow : written ≤ now)
    (hforwards : ForwardsFrom now events) (hwithin : ∀ e ∈ events, Within written e) :
    Recorded text written name (Effect.runAll (Logs.nextProcess L) s events) := by
  induction events generalizing s now with
  | nil => exact h
  | cons e events ih =>
    obtain ⟨first, last, htimes, hfirst, hlast, hrest⟩ := hforwards.cons
    refine ih (h.nextProcess hnow (hwithin e List.mem_cons_self) htimes hfirst)
      (hnow.trans (hfirst.trans hlast)) hrest fun e' he' => ?_
    exact hwithin e' (List.mem_cons_of_mem e he')

theorem Filed.recorded_run {now : Nat} {s : Logs} (hs : Filed L now s) (hdays : ShortDays L)
    {before after : List LogEvent} {call : LogCall} {name : Str}
    (hforwards : ForwardsFrom now (before ++ .write call :: after))
    (hprompt : ∀ e ∈ before, Prompt e) (hwithin : ∀ e ∈ after, Within call.now e)
    (hname : (Effect.runAll (Logs.nextProcess L) s before).logFile = some name) :
    Recorded (call.written L) call.now name
      (Effect.runAll (Logs.nextProcess L) s (before ++ .write call :: after)) := by
  induction before generalizing s now with
  | nil =>
    obtain ⟨first, last, htimes, hfirst, hlast, hrest⟩ := hforwards.cons
    cases htimes
    exact (recorded_writeLog hs hname).runAll hlast hrest hwithin
  | cons e before ih =>
    obtain ⟨first, last, htimes, hfirst, hlast, hrest⟩ := hforwards.cons
    refine ih (hs.nextProcess hdays (hprompt e List.mem_cons_self) htimes hfirst hlast) hrest
      (fun e' he' => ?_) hname
    exact hprompt e' (List.mem_cons_of_mem e he')

/-- Before the first process, nothing is open and the directory is empty. -/
def noProcess : Logs := { disk := fun _ => none }

theorem filed_noProcess (now : Nat) : Filed L now noProcess :=
  ⟨fun _ _ h => absurd h (by simp [noProcess]), fun _ h => absurd h (by simp [noProcess])⟩

/-- What a call has written to a file is in that file after every run in which all starts that
follow are at most ninety days later. -/
theorem retained_run (L : Calendar) (hdays : ShortDays L) (before after : List LogEvent)
    (call : LogCall) (name : Str) (hforwards : ForwardsFrom 0 (before ++ .write call :: after))
    (hprompt : ∀ e ∈ before, Prompt e) (hwithin : ∀ e ∈ after, Within call.now e)
    (hname : (Effect.runAll (nextProcess L) noProcess before).logFile = some name) :
    call.written L <:+:
      (Effect.runAll (nextProcess L) noProcess (before ++ .write call :: after)).disk.content
        name := by
  obtain ⟨file, hfile, htext, -⟩ :=
    (filed_noProcess 0).recorded_run hdays hforwards hprompt hwithin hname
  unfold LogDisk.content
  rw [hfile]
  exact htext

/-- Days are counted in strokes, and the hours not at all. -/
def strokes : Calendar where
  date now := List.replicate (now / 86400) 124
  timeOfDay _ := bytes "00:00:00"

theorem shortDays_strokes : ShortDays strokes := by
  intro now now' hdate
  have hlength := congrArg List.length hdate
  unfold strokes at hlength
  simp only [List.length_replicate] at hlength
  omega

/-- The next process starts ninety days later. -/
theorem retained_quarter : (startedAt 5).written strokes <:+:
    (Effect.runAll (nextProcess strokes) noProcess
      ([.start (initAt 0)] ++ .write (startedAt 5) ::
        [.write (startedAt 100), .start (initAt (90 * 86400)), .write (startedAt (90 * 86400))])
    ).disk.content (logFileName strokes 0) :=
  retained_run strokes shortDays_strokes [.start (initAt 0)] _ (startedAt 5) (logFileName strokes 0)
    (by unfold ForwardsFrom; decide) (by simp [Prompt, initAt]) (by simp [Within, initAt, startedAt])
    (by decide +kernel)

end Logs

end LiteChat
