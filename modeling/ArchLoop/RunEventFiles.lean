import ArchLoop.Lib.Double
import ArchLoop.Lib.JsonLines
import Mathlib.Order.WithBot
import Mathlib.Logic.Function.Basic

/-!
# `ArchLoop.RunEventFiles`: how processes number the events of a run

The model of `appendHubEvent` and of the functions that append with it (`hubExecution.ts`). The
events of a run stand in three files of JSON lines. A process that appends its first event of a run
reads the three files, one after the other, for a number to count from. From then on it counts by
itself. The events are read line by line, and a line that is no JSON is skipped
(`hubRunEventLog.ts`).

The files are octets, and between two steps of one process the others may take theirs. An append
itself is one step, unless the process dies in it and leaves a part of the line.
-/

set_option autoImplicit false

namespace ArchLoop.RunEventFiles

open ArchLoop.Lib ArchLoop.Lib.JsonText

/-! ### Events -/

/-- The files of `resolveHubRunEventsPaths`. -/
inductive EventFile where
  | run
  | batch
  | task
  deriving DecidableEq, Repr

/-- The files, in the order in which they are read. -/
def EventFile.all : List EventFile := [.run, .batch, .task]

/-- A number in double precision, `⊤` when it is infinite. -/
abbrev Sequence : Type := WithTop ℚ

/-- The sum of a number and one. -/
def Sequence.next : Sequence → Sequence
  | ⊤ => ⊤
  | (q : ℚ) => (Double.ofRat (q + 1)).elim ⊤ (↑)

/-- `String` of a number. -/
def Sequence.text : Sequence → String
  | ⊤ => "Infinity"
  | (q : ℚ) => String.ofList (Double.toText q)

/-- `JSON.stringify` of a number. -/
def Sequence.toJson : Sequence → Value
  | ⊤ => .null
  | (q : ℚ) => .number (Double.toText q)

/-- `HubRunEventData`. The other fields differ from event to event. -/
structure HubRunEventData where
  type : String
  runId : String
  fields : List (String × Value)
  apart : ∀ field ∈ fields, field.1 ∉ ["type", "runId", "eventId", "sequence"]
  printable : PrintableMembers fields

/-- The identifier that an event gets. -/
def eventId (runId : String) (sequence : Sequence) : String := s!"{runId}:{sequence.text}"

/-- The object that is written for an event, `observedEvent`. -/
def observedEvent (event : HubRunEventData) (sequence : Sequence) : Value :=
  .object (("type", .string event.type) :: ("runId", .string event.runId) :: event.fields ++
    [("eventId", .string (eventId event.runId sequence)), ("sequence", sequence.toJson)])

/-! ### Reading -/

/-- `readJsonl`. -/
def readJsonl (octets : List UInt8) : List Value := JsonLines.read some octets

/-- `parsed.sequence`, when it is a number. What is below every number stands for none. -/
def sequenceOf (parsed : Value) : Option Sequence :=
  match parsed.get "sequence" with
  | some (.number written) =>
    match Double.ofRat (Double.decimalValue written) with
    | some q => some q
    | none => if Double.decimalValue written < 0 then none else some ⊤
  | _ => none

/-- The lines of a file that have a character. -/
def filledLines (octets : List UInt8) : List (List Char) :=
  (JsonLines.linesOf octets).filter (· ≠ [])

/-- The larger one of a number and the sequence on a line. -/
def maximum (maximumSequence : Sequence) (line : List Char) : Sequence :=
  match (parse line).bind sequenceOf with
  | some sequence => max maximumSequence sequence
  | none => maximumSequence

/-- How many lines were read, and the largest sequence on one of them. -/
structure Count where
  eventCount : Nat := 0
  maximumSequence : Sequence := (0 : ℚ)

/-- One file of `readPersistedHubRunEventSequence`. A missing file has no lines. -/
def Count.readFile (count : Count) (octets : List UInt8) : Count where
  eventCount := count.eventCount + (filledLines octets).length
  maximumSequence := (filledLines octets).foldl maximum count.maximumSequence

/-- What `readPersistedHubRunEventSequence` returns. -/
def Count.result (count : Count) : Sequence :=
  max ((count.eventCount : ℚ) : Sequence) count.maximumSequence

/-! ### Processes -/

/-- What a process is doing: nothing, reading the files that are left for a number, or about to
write the event with the number that it got. -/
inductive Phase where
  | idle
  | counting (file : EventFile) (event : HubRunEventData) (left : List EventFile) (count : Count)
  | writing (file : EventFile) (event : HubRunEventData) (sequence : Sequence)

/-- An event that a process has written to a file. -/
structure WrittenEvent (ι : Type) where
  process : ι
  file : EventFile
  event : HubRunEventData
  sequence : Sequence

/-- The files of a run, the processes, and the events that they have written so far. -/
structure RunEventLogs (ι : Type) where
  files : EventFile → List UInt8
  hubRunEventSequences : ι → Option Sequence
  phase : ι → Phase
  written : List (WrittenEvent ι) := []

section

variable {ι : Type} [DecidableEq ι]

/-- `readPersistedHubRunEventSequence`, when no process writes meanwhile. -/
def readPersistedHubRunEventSequence (files : EventFile → List UInt8) : Sequence :=
  (EventFile.all.foldl (fun count file => count.readFile (files file)) ({} : Count)).result

/-- The process does something else. -/
def RunEventLogs.withPhase (s : RunEventLogs ι) (process : ι) (phase : Phase) : RunEventLogs ι :=
  { s with phase := Function.update s.phase process phase }

/-- The process takes the next number for an event, `hubRunEventSequences.set`. -/
def RunEventLogs.number (s : RunEventLogs ι) (process : ι) (file : EventFile)
    (event : HubRunEventData) (currentSequence : Sequence) : RunEventLogs ι :=
  { s with
    hubRunEventSequences :=
      Function.update s.hubRunEventSequences process (some currentSequence.next)
    phase := Function.update s.phase process (.writing file event currentSequence.next) }

/-- The octets are appended to a file. -/
def RunEventLogs.appendOctets (s : RunEventLogs ι) (file : EventFile) (octets : List UInt8) :
    RunEventLogs ι :=
  { s with files := Function.update s.files file (s.files file ++ octets) }

/-- `writeJsonl`. -/
def RunEventLogs.write (s : RunEventLogs ι) (process : ι) (file : EventFile)
    (event : HubRunEventData) (sequence : Sequence) : RunEventLogs ι :=
  { (s.appendOctets file (JsonLines.lineOf (observedEvent event sequence))).withPhase
      process .idle with
    written := s.written ++ [{ process, file, event, sequence }] }

/-- The process is replaced by a new one. -/
def RunEventLogs.restart (s : RunEventLogs ι) (process : ι) : RunEventLogs ι :=
  { s with
    hubRunEventSequences := Function.update s.hubRunEventSequences process none
    phase := Function.update s.phase process .idle }

/-- What happens next: a process begins to append an event, goes on with it, or dies. One that dies
while it writes leaves the first octets of the line, but not all. -/
inductive EventStep (ι : Type) where
  | append (process : ι) (file : EventFile) (event : HubRunEventData)
  | proceed (process : ι)
  | crash (process : ι) (octets : Nat)

/-- `appendHubRunEvent`. -/
def appendHubRunEvent (process : ι) (event : HubRunEventData) : EventStep ι :=
  .append process .run event

/-- `appendHubBatchEvent`. -/
def appendHubBatchEvent (process : ι) (event : HubRunEventData) : EventStep ι :=
  .append process .batch event

/-- `appendHubTaskEvent`. -/
def appendHubTaskEvent (process : ι) (event : HubRunEventData) : EventStep ι :=
  .append process .task event

/-- The effect of a step. A process that is busy begins nothing new. -/
def RunEventLogs.step (s : RunEventLogs ι) : EventStep ι → RunEventLogs ι
  | .append process file event =>
    match s.phase process with
    | .idle =>
      match s.hubRunEventSequences process with
      | some currentSequence => s.number process file event currentSequence
      | none => s.withPhase process (.counting file event EventFile.all {})
    | _ => s
  | .proceed process =>
    match s.phase process with
    | .idle => s
    | .counting file event [] count => s.number process file event count.result
    | .counting file event (next :: left) count =>
      s.withPhase process (.counting file event left (count.readFile (s.files next)))
    | .writing file event sequence => s.write process file event sequence
  | .crash process octets =>
    match s.phase process with
    | .writing file event sequence =>
      (s.appendOctets file
        ((JsonLines.lineOf (observedEvent event sequence)).dropLast.take octets)).restart process
    | _ => s.restart process

/-- The effect of the steps. -/
def RunEventLogs.run (s : RunEventLogs ι) (steps : List (EventStep ι)) : RunEventLogs ι :=
  steps.foldl RunEventLogs.step s

end

end ArchLoop.RunEventFiles
