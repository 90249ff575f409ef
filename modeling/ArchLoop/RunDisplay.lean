import ArchLoop.Lib.JsonText
import ArchLoop.Lib.Text

/-!
# `ArchLoop.RunDisplay`: what a run looks like from its events

`reduceHubRunDisplayState` (`hubRunDisplay.ts`) keeps what a display shows of a run: the run itself,
its batches and its tasks. Events may come late or twice. An event that was seen is passed over, and
so is one that is not newer than the last one about the same task, the same batch or the run.

The fields of events that the display does not read are left out. `path.join` of Node is a
parameter, `join`.
-/

set_option autoImplicit false

namespace ArchLoop.RunDisplay

open ArchLoop.Lib

/-! ### Events -/

inductive HubRunStopReason where
  | noReadyTasks
  | maxBatchesReached
  | batchFailed
  | batchPending
  deriving DecidableEq, Repr

inductive HubTaskEventType where
  | taskClaimed
  | taskClaimSkipped
  | taskRetryBlocked
  | taskProviderRetry
  | taskNotesApplied
  | taskNotesRejected
  | taskImplementationStarted
  | taskImplementationSucceeded
  | taskImplementationFailed
  | taskReviewStarted
  | taskReviewSucceeded
  | taskReviewFailed
  | mergeStarted
  | mergeSucceeded
  | mergeFailed
  | mergeConflictResolutionStarted
  | mergeConflictResolutionSucceeded
  | mergeConflictResolutionFailed
  | integrationCandidateCreated
  | verificationStarted
  | verificationPassed
  | candidateVerificationPassed
  | verificationFailed
  | targetLandingSucceeded
  | targetLandingRebuild
  | targetLandingPending
  | targetLandingStaleOwnerRejected
  | targetQuietWait
  | speculativeSuffixInvalidated
  | hostContributionReconciled
  | checkoutSyncPending
  | checkoutSyncSucceeded
  | targetPublishPending
  | targetPublishSucceeded
  | taskCloseStarted
  | taskClosed
  | taskCloseSucceeded
  | taskCloseFailed
  | taskBranchCleanup
  | taskStatusAdvanced
  deriving DecidableEq, Repr

/-- `type.endsWith("_failed")`. -/
def HubTaskEventType.isFailed : HubTaskEventType → Bool
  | .taskImplementationFailed | .taskReviewFailed | .mergeFailed
  | .mergeConflictResolutionFailed | .verificationFailed | .taskCloseFailed => true
  | _ => false

/-- `HubTaskEvent`. Of the diagnostics, the two paths are read, when they are texts. -/
structure HubTaskEvent where
  type : HubTaskEventType
  batchId : String
  taskId : String
  status : String
  reason : Option String := none
  message : Option String := none
  failureReason : Option String := none
  diagnosticSummary : Option String := none
  diagnosticsPath : Option String := none
  diagnosticsLogPath : Option String := none
  deriving DecidableEq, Repr

inductive HubRunDisplayBatchStatus where
  | planning
  | merging
  | done
  | partialFailed
  | pending
  deriving DecidableEq, Repr

/-- The status of a batch that is merged. -/
inductive BatchMergeStatus where
  | done
  | partialFailed
  | pending
  deriving DecidableEq, Repr

def BatchMergeStatus.display : BatchMergeStatus → HubRunDisplayBatchStatus
  | .done => .done
  | .partialFailed => .partialFailed
  | .pending => .pending

/-- The titles of tasks. -/
abbrev TaskTitles : Type := List (String × String)

/-- The events about a batch. -/
inductive HubBatchEvent where
  | batchStarted
  | batchPlanned (taskIds : List String) (tasks : Option TaskTitles)
  | batchMergeSelection (selectedTaskIds : List String)
  | batchMergeStarted (taskIds : List String)
  | batchMergeCompleted (taskIds : List String) (batchStatus : BatchMergeStatus)
  deriving DecidableEq, Repr

inductive HubRunEventData where
  | runStarted (runId hubProjectDir : String)
  | runCompleted (runId : String) (completedBatchCount completedTaskCount : Nat)
    (stopReason : HubRunStopReason)
  | taskStoreMigration
  | landingReconciliation
  | batch (batchId : String) (event : HubBatchEvent)
  | task (event : HubTaskEvent)
  deriving DecidableEq, Repr

structure HubRunEvent where
  eventId : String
  sequence : Nat
  data : HubRunEventData
  deriving DecidableEq, Repr

/-! ### State -/

inductive HubRunDisplayStatus where
  | starting
  | running
  | completed
  | completedWithFailures
  | completedWithPendingDelivery
  | completedWithPendingMerge
  | failed
  | cancelled
  deriving DecidableEq, Repr

structure HubRunTaskDetail where
  taskId : String
  stage : String
  diagnostic : String
  logPath : Option String
  recoveryCommand : String
  deriving DecidableEq, Repr

structure DisplayBatch where
  batchId : String
  selectedTaskIds : List String
  taskTitles : Option TaskTitles
  status : HubRunDisplayBatchStatus
  stage : String
  deriving DecidableEq, Repr

structure DisplayTask where
  taskId : String
  batchId : String
  status : String
  stage : String
  skipped : Bool
  detail : Option HubRunTaskDetail
  deriving DecidableEq, Repr

structure HubRunDisplayState where
  hubProjectName : String
  flowId : String
  runId : Option String := none
  runDir : Option String := none
  status : HubRunDisplayStatus := .starting
  completedBatchCount : Nat := 0
  completedTaskCount : Nat := 0
  stopReason : Option HubRunStopReason := none
  batches : String → Option DisplayBatch := fun _ => none
  tasks : String → Option DisplayTask := fun _ => none
  seenEventIds : List String := []
  runSequence : Option Nat := none
  batchSequences : String → Option Nat := fun _ => none
  taskSequences : String → Option Nat := fun _ => none

def createHubRunDisplayState (hubProjectName flowId : String) : HubRunDisplayState where
  hubProjectName := hubProjectName
  flowId := flowId

/-- The record with another value for a key. -/
def setKey {α : Type} (record : String → Option α) (key : String) (value : α) :
    String → Option α :=
  fun other => if other = key then some value else record other

/-! ### Tasks -/

def TASK_STAGE_BY_STATUS : List (String × String) :=
  [("inbox", "Inbox"), ("needs_info", "Needs info"), ("ready_for_agent", "Ready for agent"),
    ("ready_for_human", "Ready for human"), ("blocked", "Blocked"),
    ("implementing", "Implementing"), ("reviewing", "Reviewing"),
    ("waiting_for_merge", "Waiting for merge"), ("merging", "Merging"), ("done", "Completed"),
    ("wontfix", "Closed"), ("failed", "Failed"), ("sync_conflict", "Sync conflict")]

def resolveTaskStage (event : HubTaskEvent) : String :=
  match event.type with
  | .mergeConflictResolutionStarted => "Resolving merge conflict"
  | .verificationStarted => "Verifying"
  | .integrationCandidateCreated => "Creating landing candidate"
  | .candidateVerificationPassed | .verificationPassed => "Landing"
  | .targetLandingSucceeded | .taskCloseStarted => "Closing"
  | .targetLandingRebuild => "Rebuilding landing candidate"
  | .targetLandingPending => "Landing pending"
  | .targetLandingStaleOwnerRejected => "Stale landing owner rejected"
  | .targetQuietWait => "Target quiet wait"
  | .speculativeSuffixInvalidated => "Speculative suffix invalidated"
  | .hostContributionReconciled => "Host contribution reconciled"
  | .checkoutSyncPending => "Checkout sync pending"
  | .checkoutSyncSucceeded => "Checkout synced"
  | .targetPublishPending => "Code publication pending"
  | .targetPublishSucceeded => "Code published"
  | .taskCloseSucceeded | .taskClosed => "Completed"
  | _ => (TASK_STAGE_BY_STATUS.lookup event.status).getD "In progress"

/-- The characters at the front that have no more code units than this. Where the cut would
divide a character, it is left out here. -/
def takeUnits : Nat → List Char → List Char
  | _, [] => []
  | count, c :: text =>
    let width := (JsonText.units c).length
    if width ≤ count then c :: takeUnits (count - width) text else []

/-- `split(/\r?\n/)`, as far as the lines are trimmed afterwards. -/
def conciseDiagnostic (value : Option String) (fallback : String) : String :=
  match (((value.map splitLines).getD []).map trim).find? (· ≠ "") with
  | none => fallback
  | some firstLine =>
    if (firstLine.toList.flatMap JsonText.units).length ≤ 240 then firstLine
    else String.ofList (takeUnits 237 firstLine.toList) ++ "..."

/-- A text that is not empty. -/
def nonEmpty (text : Option String) : Option String := text.filter (· ≠ "")

section
variable (join : List String → String)

/-- The path of the log, in the directory of the run unless the event names it. -/
def taskLogPath (runDir : Option String) (event : HubTaskEvent) : Option String :=
  let explicitLogPath := event.diagnosticsPath.or event.diagnosticsLogPath
  let fallbackLogPath := (nonEmpty runDir).map fun dir =>
    match event.type with
    | .taskImplementationFailed => join [dir, "logs", event.taskId ++ ".log"]
    | .taskReviewFailed => join [dir, "logs", event.taskId ++ "-review.log"]
    | _ => dir
  nonEmpty (explicitLogPath.or fallbackLogPath)

/-- The task cannot go on. -/
def isBlockedEvent (event : HubTaskEvent) : Bool :=
  event.type = .taskRetryBlocked || event.status = "blocked"

def isFailedEvent (event : HubTaskEvent) : Bool :=
  event.type.isFailed || event.status = "failed"

def projectEventTaskDetail (runDir : Option String) (event : HubTaskEvent) :
    Option HubRunTaskDetail :=
  if !isBlockedEvent event && !isFailedEvent event then none
  else
    some
      { taskId := event.taskId
        stage :=
          match event.type with
          | .taskImplementationFailed => "Implementation failed"
          | .taskReviewFailed => "Review failed"
          | _ => if isBlockedEvent event then "Execution blocked" else resolveTaskStage event
        diagnostic := conciseDiagnostic
          (event.diagnosticSummary.or (event.message.or (event.reason.or event.failureReason)))
          (if isBlockedEvent event then "Task execution is blocked." else "Task failed.")
        logPath := taskLogPath join runDir event
        recoveryCommand := "archloop tasks recover " ++ event.taskId }

/-- The task after an event about it. -/
def displayTask (runDir : Option String) (event : HubTaskEvent) : DisplayTask where
  taskId := event.taskId
  batchId := event.batchId
  status := event.status
  stage := resolveTaskStage event
  skipped := event.type = .taskClaimSkipped
  detail := projectEventTaskDetail join runDir event

/-! ### Batches -/

def resolveBatchMergeCompletedStage : BatchMergeStatus → String
  | .done => "Completed"
  | .pending => "Pending"
  | .partialFailed => "Completed with failures"

/-- `reduceBatchEvent`. -/
def reduceBatchEvent (current : Option DisplayBatch) (batchId : String) :
    HubBatchEvent → DisplayBatch
  | .batchStarted =>
    { batchId := batchId
      selectedTaskIds := (current.map (·.selectedTaskIds)).getD []
      taskTitles := current.bind (·.taskTitles)
      status := .planning
      stage := "Planning" }
  | .batchPlanned taskIds tasks =>
    { batchId := batchId
      selectedTaskIds := taskIds
      taskTitles := tasks.or (current.bind (·.taskTitles))
      status := .planning
      stage := "Planning" }
  | .batchMergeSelection selectedTaskIds =>
    { batchId := batchId
      selectedTaskIds := selectedTaskIds
      taskTitles := current.bind (·.taskTitles)
      status := .merging
      stage := "Preparing to merge" }
  | .batchMergeStarted taskIds =>
    { batchId := batchId
      selectedTaskIds := taskIds
      taskTitles := current.bind (·.taskTitles)
      status := .merging
      stage := "Merging" }
  | .batchMergeCompleted taskIds batchStatus =>
    { batchId := batchId
      selectedTaskIds := taskIds
      taskTitles := current.bind (·.taskTitles)
      status := batchStatus.display
      stage := resolveBatchMergeCompletedStage batchStatus }

/-! ### The run -/

def resolveRunCompletedDisplayStatus : HubRunStopReason → HubRunDisplayStatus
  | .batchFailed => .completedWithFailures
  | .batchPending => .completedWithPendingMerge
  | _ => .completed

/-- The sequence number of the last event about the same thing. -/
def currentSequence (state : HubRunDisplayState) : HubRunEventData → Option Nat
  | .task event => state.taskSequences event.taskId
  | .batch batchId _ => state.batchSequences batchId
  | _ => state.runSequence

/-- What an event changes that is new. -/
def applyEvent (state : HubRunDisplayState) (sequence : Nat) :
    HubRunEventData → HubRunDisplayState
  | .task event =>
    { state with
      tasks := setKey state.tasks event.taskId (displayTask join state.runDir event)
      taskSequences := setKey state.taskSequences event.taskId sequence }
  | .batch batchId event =>
    { state with
      batches := setKey state.batches batchId
        (reduceBatchEvent (state.batches batchId) batchId event)
      batchSequences := setKey state.batchSequences batchId sequence }
  | .runStarted runId hubProjectDir =>
    { state with
      runId := some runId
      runDir := some (join [hubProjectDir, "runs", runId])
      status := .running
      runSequence := some sequence }
  | .runCompleted runId completedBatchCount completedTaskCount stopReason =>
    { state with
      runId := some runId
      status := resolveRunCompletedDisplayStatus stopReason
      completedBatchCount := completedBatchCount
      completedTaskCount := completedTaskCount
      stopReason := some stopReason
      runSequence := some sequence }
  | .taskStoreMigration => state
  | .landingReconciliation => state

def reduceHubRunDisplayState (state : HubRunDisplayState) (event : HubRunEvent) :
    HubRunDisplayState :=
  if event.eventId ∈ state.seenEventIds then state
  else
    let seen := { state with seenEventIds := event.eventId :: state.seenEventIds }
    if (currentSequence state event.data).any (event.sequence ≤ ·) then seen
    else applyEvent join seen event.sequence event.data

end

end ArchLoop.RunDisplay
