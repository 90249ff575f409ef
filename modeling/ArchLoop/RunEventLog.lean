import Mathlib.Data.String.Basic
import ArchLoop.TaskBoard

/-!
# `ArchLoop.RunEventLog`: the task events of all runs

`hubRunEventLog.ts`, and the selectors of `hubTaskRecoveryRouter.ts` and `hubTaskStateDoctor.ts`.
Each run has a directory with a log of its own, and `readTaskEvents` puts the logs one after the
other, in the order of the directories' names. Recovery and the doctor then take the last event of
a kind for each task.

An event is here what these functions read, with the run that it belongs to and its place in the
log of that run.
-/

set_option autoImplicit false

namespace ArchLoop.RunEvents

open ArchLoop.Lib

/-- The types of task events. Those that no selector asks for are by their names. -/
inductive HubTaskEventType where
  | taskImplementationSucceeded
  | taskReviewSucceeded
  | other (type : String)
  deriving DecidableEq, Repr

/-- A line of a run's `task.jsonl`. -/
structure HubTaskEvent where
  type : HubTaskEventType
  runId : String
  taskId : TaskId
  createdAt : Timestamp
  status : String
  sequence : Nat
  deriving DecidableEq, Repr

/-! ### Runs -/

/-- The characters that a random UUID has at a place of its pattern. -/
def fitsUuidPlace : Char → Char → Bool
  | 'x', c => c.isDigit || ['a', 'b', 'c', 'd', 'e', 'f'].contains c
  | 'y', c => ['8', '9', 'a', 'b'].contains c
  | place, c => place == c

/-- `run-` and a random UUID, as `createHubRunIdentifiers` makes the id of a run. -/
def isHubRunId (runId : String) : Bool :=
  let pattern := "run-xxxxxxxx-xxxx-4xxx-yxxx-xxxxxxxxxxxx".toList
  decide (runId.toList.length = pattern.length) &&
    (pattern.zip runId.toList).all fun entry => fitsUuidPlace entry.1 entry.2

/-- The directory `runs`: the directories in it, as the listing gives them, and the log in each. -/
structure HubRuns where
  runDirs : List String
  taskEvents : String → List HubTaskEvent

namespace HubRuns

/-- Directories without events. -/
def fresh (runDirs : List String) : HubRuns where
  runDirs := runDirs
  taskEvents := fun _ => []

/-- `appendHubTaskEvent`, which makes the directory of the run when it is not there. -/
def appendHubTaskEvent (s : HubRuns) (event : HubTaskEvent) : HubRuns where
  runDirs := if event.runId ∈ s.runDirs then s.runDirs else s.runDirs ++ [event.runId]
  taskEvents :=
    Function.update s.taskEvents event.runId (s.taskEvents event.runId ++ [event])

/-- The directories after a history of events. -/
def after (runDirs : List String) (history : List HubTaskEvent) : HubRuns :=
  history.foldl appendHubTaskEvent (fresh runDirs)

/-- `listRunDirs`. The paths share all but the names, and the names have one-byte characters. -/
def listRunDirs (s : HubRuns) : List String :=
  s.runDirs.insertionSort fun a b => a ≤ b

/-- `readTaskEvents`. -/
def readTaskEvents (s : HubRuns) : List HubTaskEvent :=
  s.listRunDirs.flatMap s.taskEvents

end HubRuns

/-! ### Selectors -/

/-- `resolvePhaseCompletionStatus`. -/
def resolvePhaseCompletionStatus (event : HubTaskEvent) : Option HubTaskStatus :=
  match event.type with
  | .taskReviewSucceeded => some .waitingForMerge
  | .taskImplementationSucceeded =>
    if event.status = "reviewing" then some .reviewing
    else if event.status = "waiting_for_merge" then some .waitingForMerge
    else none
  | .other _ => none

/-- `isPhaseCompletionEvent`. -/
def isPhaseCompletionEvent (event : HubTaskEvent) : Bool :=
  (resolvePhaseCompletionStatus event).isSome

/-- `isMergeReadyEvent`. -/
def isMergeReadyEvent (event : HubTaskEvent) : Bool :=
  event.type == .taskReviewSucceeded ||
    (event.type == .taskImplementationSucceeded && event.status == "waiting_for_merge")

/-- The last of the selected events for each task. -/
def latestEventByTask (selects : HubTaskEvent → Bool) (events : List HubTaskEvent) :
    TaskId → Option HubTaskEvent :=
  events.foldl
    (fun byTask event =>
      if selects event then Function.update byTask event.taskId (some event) else byTask)
    fun _ => none

/-- `latestPhaseCompletionEventByTask`. -/
def latestPhaseCompletionEventByTask : List HubTaskEvent → TaskId → Option HubTaskEvent :=
  latestEventByTask isPhaseCompletionEvent

/-- `latestMergeReadyEventsByTask`. -/
def latestMergeReadyEventsByTask : List HubTaskEvent → TaskId → Option HubTaskEvent :=
  latestEventByTask isMergeReadyEvent

end ArchLoop.RunEvents
