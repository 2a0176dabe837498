import LiteChat.Effect.Search
import LiteChat.Model.Json
import Mathlib.Logic.Function.Basic

/-!
# The log

`FilterSensitiveInfo` edits a message while it scans it, by positions. `WriteLog` appends an entry
to the open file and counts its bytes; at `maxLogSize` it calls `RotateLogFile`, which opens the
file that is named after the day, to append to it. `InitLogger` does so too, and then removes what
is older than the retention.

The clock, the disk and the calendar are the environment's: a call comes with what `time` returns
in it, whether `fopen` succeeds and what `fwrite` does not write. `Calendar` is what `localtime` and
`strftime` make of a time. The disk is the log directory; a stream whose file was removed from it
goes on taking what is written, and none of that is in the directory.
-/

namespace LiteChat

open Effect

/-! ## `FilterSensitiveInfo` -/

/-- `'"'`. -/
def quote : UInt8 := 34

/-- `':'`. -/
def colon : UInt8 := 58

def stars : Str := bytes "***"

/-- `valueStart` and `valueEnd`, when what is found at `pos` is in front of a quoted value. -/
def sensitiveValue (result : Str) (pos : Nat) : Option (Nat × Nat) :=
  match find result [colon] pos with
  | none => none
  | some colonPos =>
    if colonPos + 1 < result.length ∧ result[colonPos + 1]? = some quote then
      (find result [quote] (colonPos + 2)).map fun valueEnd => (colonPos + 2, valueEnd)
    else none

/-- A round of the loop: the text and the position after it, or the end. -/
def filterRound (result : Str) (pos : Nat) : Option (Str × Nat) :=
  match find result (bytes "password") pos with
  | none => none
  | some pos =>
    match sensitiveValue result pos with
    | some (valueStart, valueEnd) =>
      some (replace result valueStart (valueEnd - valueStart) stars, valueEnd + 1)
    | none => some (result, pos + 1)

theorem sensitiveValue_spec {result : Str} {pos valueStart valueEnd : Nat}
    (h : sensitiveValue result pos = some (valueStart, valueEnd)) :
    pos + 2 ≤ valueStart ∧ valueStart ≤ valueEnd ∧ valueEnd ≤ result.length ∧
      [colon] <+: result.drop (valueStart - 2) := by
  unfold sensitiveValue at h
  split at h
  · cases h
  · next colonPos hcolon =>
    split at h
    · obtain ⟨valueEnd', hend, heq⟩ := Option.map_eq_some_iff.mp h
      cases heq
      obtain ⟨hle, -, hpre⟩ := find_spec hcolon
      obtain ⟨hle', hlen, -⟩ := find_spec hend
      exact ⟨by omega, hle', hlen, hpre⟩
    · cases h

/-- Every round leaves less of the text behind its position. -/
theorem filterRound_lt {result result' : Str} {pos pos' : Nat}
    (h : filterRound result pos = some (result', pos')) :
    result'.length - pos' < result.length - pos := by
  unfold filterRound at h
  split at h
  · cases h
  · next found hfound =>
    obtain ⟨hpos, -, hpre⟩ := find_spec hfound
    have hlen := hpre.length_le
    rw [List.length_drop, show (bytes "password").length = 8 from rfl] at hlen
    split at h
    · next valueStart valueEnd hvalue =>
      cases h
      obtain ⟨hstart, hle, hend, hcolon⟩ := sensitiveValue_spec hvalue
      -- the colon is not the first byte of what was found
      have hne : valueStart ≠ found + 2 := by
        rintro rfl
        rw [Nat.add_sub_cancel] at hcolon
        rcases List.prefix_or_prefix_of_prefix hcolon hpre with h | h
        · exact absurd h (by decide)
        · exact absurd h (by decide)
      rw [length_replace (by omega), show stars.length = 3 from rfl]
      omega
    · cases h
      omega

/-- The loop. -/
def filterFrom (result : Str) (pos : Nat) : Str :=
  match _h : filterRound result pos with
  | none => result
  | some (result', pos') => filterFrom result' pos'
termination_by result.length - pos
decreasing_by exact filterRound_lt ‹_›

def filterSensitiveInfo (message : Str) : Str := filterFrom message 0

/-! ## Entries -/

/-- `"%Y-%m-%d"` and `"%H:%M:%S"` of a time, in the local time zone. -/
structure Calendar where
  date : Nat → Str
  timeOfDay : Nat → Str

inductive LogLevel
  | DEBUG
  | INFO
  | WARNING
  | ERROR
  deriving DecidableEq

def LogLevel.levelStr : LogLevel → Str
  | .DEBUG => bytes "DEBUG"
  | .INFO => bytes "INFO"
  | .WARNING => bytes "WARNING"
  | .ERROR => bytes "ERROR"

/-- A call of `WriteLog`, and the environment's part in it. -/
structure LogCall where
  level : LogLevel
  moduleName : Str
  message : Str
  clientIP : Str
  /-- What `time` returns in `GetTimestamp`. -/
  now : Nat
  /-- How many bytes `fwrite` does not write. -/
  lost : Nat
  /-- What `time` returns in `RotateLogFile`. -/
  rotateNow : Nat
  /-- `fopen` succeeds. -/
  opens : Bool

def getTimestamp (L : Calendar) (now : Nat) : Str := L.date now ++ bytes " " ++ L.timeOfDay now

def LogCall.entry (L : Calendar) (call : LogCall) : Str :=
  bytes "[" ++ getTimestamp L call.now ++ bytes "] [" ++ call.level.levelStr ++ bytes "] [" ++
    call.moduleName ++ bytes "]" ++
    (if call.clientIP = [] then [] else bytes " [" ++ call.clientIP ++ bytes "]") ++
    bytes " " ++ filterSensitiveInfo call.message ++ bytes "\n"

/-- What `fwrite` writes of it. -/
def LogCall.written (L : Calendar) (call : LogCall) : Str :=
  (call.entry L).take ((call.entry L).length - call.lost)

/-! ## Files -/

structure LogFile where
  content : Str
  /-- `st_mtime`. -/
  mtime : Nat

/-- The files of the log directory. -/
abbrev LogDisk : Type := Str → Option LogFile

/-- What is in a file, or nothing if there is none of the name. -/
def LogDisk.content (disk : LogDisk) (name : Str) : Str := ((disk name).map LogFile.content).getD []

/-- Appends to a file, if it is still in the directory. -/
def LogDisk.append (disk : LogDisk) (name : Str) (written : Str) (now : Nat) : LogDisk :=
  Function.update disk name ((disk name).map fun file => ⟨file.content ++ written, now⟩)

/-- The logger and its directory. -/
structure Logs where
  /-- The file that `logFile` is a stream of. -/
  logFile : Option Str := none
  maxLogSize : Nat := 10 * 1024 * 1024
  currentLogSize : Nat := 0
  logRetentionDays : Nat := 90
  disk : LogDisk

def logFileName (L : Calendar) (now : Nat) : Str :=
  bytes "server_log_" ++ L.date now ++ bytes ".txt"

namespace Logs

/-- `fopen` of the day's file, with `"a"`. -/
def rotateLogFile (L : Calendar) (now : Nat) (opens : Bool) (s : Logs) : Logs :=
  if opens then
    let file := (s.disk (logFileName L now)).getD ⟨[], now⟩
    { s with
      logFile := some (logFileName L now)
      currentLogSize := file.content.length
      disk := Function.update s.disk (logFileName L now) (some file) }
  else { s with logFile := none, currentLogSize := 0 }

/-- `removes` says of which files `stat` and `unlink` succeed. -/
def cleanExpiredLogs (retentionDays now : Nat) (removes : Str → Bool) (s : Logs) : Logs :=
  { s with
    logRetentionDays := retentionDays
    disk := fun name => (s.disk name).filter fun file =>
      !(find name (bytes "server_log_") 0 = some 0 ∧ find name (bytes ".txt") 0 ≠ none ∧
        removes name ∧ file.mtime + retentionDays * 86400 < now) }

/-- What the environment decides of `InitLogger`. -/
structure InitChoice where
  rotateNow : Nat
  opens : Bool
  cleanNow : Nat
  removes : Str → Bool

def initLogger (L : Calendar) (c : InitChoice) (s : Logs) : Logs :=
  (s.rotateLogFile L c.rotateNow c.opens).cleanExpiredLogs s.logRetentionDays c.cleanNow c.removes

def writeLog (L : Calendar) (s : Logs) (call : LogCall) : Logs :=
  match s.logFile with
  | none => s
  | some name =>
    let written := call.written L
    let s' := { s with
      currentLogSize := s.currentLogSize + written.length
      disk := s.disk.append name written call.now }
    if s.maxLogSize ≤ s'.currentLogSize then s'.rotateLogFile L call.rotateNow call.opens else s'

end Logs

end LiteChat
