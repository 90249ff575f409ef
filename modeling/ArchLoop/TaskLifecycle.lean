import ArchLoop.TaskTransitions

/-!
# `ArchLoop.TaskLifecycle`: the transitions of a run

`hubTaskLifecycle.ts`. A run moves its task through implementation, review, merge and closure, and
recovery moves a task that a run left behind. Each of these functions is one
`updateHubTaskStatus`, and each passes the metadata that its caller has of the task, which was read
when the board was loaded, when the task was claimed or when the batch started to merge.

The events that these functions append to the log of the run are left out.
-/

set_option autoImplicit false

namespace ArchLoop.TaskBoard

open ArchLoop.Lib

/-- `HubTaskLifecycleResult`. -/
structure HubTaskLifecycleResult where
  task : HubTaskProjection
  hubStatus : HubTaskStatus
  failureReason : Option HubFailureReason := none

/-- `toHubTaskLifecycleResult`. -/
def toHubTaskLifecycleResult (task : HubTaskProjection) : HubTaskLifecycleResult where
  task := task
  hubStatus := task.hubStatus

/-- The transition, with what the functions of this module return of it. -/
def updateLifecycle (input : UpdateHubTaskStatusInput) : BoardProg HubTaskLifecycleResult :=
  (transitionHubTaskStatus input).bind fun updatedTask =>
    .ret { toHubTaskLifecycleResult updatedTask with failureReason := input.failureReason }

/-- A field that JSON leaves out when it is not there. -/
def jsonField (key : String) (value : Option String) : Record :=
  (value.map fun text => (key, Json.str text)).toList

/-- `materializeClaimMetadata`. -/
def materializeClaimMetadata (claim : HubTaskClaimMetadata) : Record :=
  if claim.raw.isEmpty then
    jsonField "runId" claim.runId ++ jsonField "batchId" claim.batchId ++
      jsonField "branch" claim.branch ++ jsonField "claimedAt" claim.claimedAt
  else claim.raw

/-! ### Implementation and review -/

/-- `ImplementationFailureReason`. -/
inductive ImplementationFailureReason where
  | agentFailed
  | sandboxFailed
  deriving DecidableEq, Repr

def ImplementationFailureReason.toHubFailureReason :
    ImplementationFailureReason → HubFailureReason
  | .agentFailed => .agentFailed
  | .sandboxFailed => .sandboxFailed

/-- `ImplementationOutcomeEvent`, with the status that it stands for. -/
inductive ImplementationOutcomeEvent where
  | succeeded (hubStatus : HubTaskStatus)
  | failed (failureReason : ImplementationFailureReason)
  deriving DecidableEq, Repr

namespace ImplementationOutcomeEvent

def hubStatus : ImplementationOutcomeEvent → HubTaskStatus
  | succeeded hubStatus => hubStatus
  | failed _ => .failed

def failureReason : ImplementationOutcomeEvent → Option HubFailureReason
  | succeeded _ => none
  | failed failureReason => some failureReason.toHubFailureReason

end ImplementationOutcomeEvent

/-- `resolvePostImplementationStatus`. -/
def resolvePostImplementationStatus (hasReviewer : Bool) : HubTaskStatus :=
  if hasReviewer then .reviewing else .waitingForMerge

/-- `recordImplementationOutcome`. -/
def recordImplementationOutcome (taskId : TaskId) (metadata : Record)
    (claim : HubTaskClaimMetadata) (outcome : ImplementationOutcomeEvent) :
    BoardProg HubTaskLifecycleResult :=
  updateLifecycle
    { taskId := taskId
      hubStatus := outcome.hubStatus
      metadata := metadata.set "claim" (.obj (materializeClaimMetadata claim))
      failureReason := outcome.failureReason }

/-- `recordImplementationSuccess`. -/
def recordImplementationSuccess (taskId : TaskId) (metadata : Record)
    (claim : HubTaskClaimMetadata) (hasReviewer : Bool) : BoardProg HubTaskLifecycleResult :=
  recordImplementationOutcome taskId metadata claim
    (.succeeded (resolvePostImplementationStatus hasReviewer))

/-- `recordImplementationFailure`. -/
def recordImplementationFailure (taskId : TaskId) (metadata : Record)
    (claim : HubTaskClaimMetadata) (failureReason : ImplementationFailureReason) :
    BoardProg HubTaskLifecycleResult :=
  recordImplementationOutcome taskId metadata claim (.failed failureReason)

/-- `recordHubTaskReviewSuccess`. -/
def recordHubTaskReviewSuccess (taskId : TaskId) (taskMetadata : Record)
    (claim : HubTaskClaimMetadata) : BoardProg HubTaskLifecycleResult :=
  updateLifecycle
    { taskId := taskId
      hubStatus := .waitingForMerge
      metadata := taskMetadata.set "claim" (.obj (materializeClaimMetadata claim)) }

/-- `recordHubTaskReviewFailure`. -/
def recordHubTaskReviewFailure (taskId : TaskId) (taskMetadata : Record)
    (failureReason : HubFailureReason) : BoardProg HubTaskLifecycleResult :=
  updateLifecycle
    { taskId := taskId
      hubStatus := .failed
      metadata := taskMetadata
      failureReason := some failureReason }

/-! ### Merge and closure -/

/-- `enterMergePhase`. -/
def enterMergePhase : List HubTaskProjection → BoardProg Unit
  | [] => .ret ()
  | task :: tasks =>
    (updateLifecycle
      { taskId := task.id, hubStatus := .merging, metadata := task.metadata }).bind fun _ =>
    enterMergePhase tasks

/-- `MergePhaseFailureEvent`. -/
inductive MergePhaseFailureEvent where
  | mergeConflict
  | mergeFailed
  | unknown
  | verificationFailed
  | closeFailed
  deriving DecidableEq, Repr

def MergePhaseFailureEvent.failureReason : MergePhaseFailureEvent → HubFailureReason
  | .mergeConflict => .mergeConflict
  | .mergeFailed => .mergeFailed
  | .unknown => .unknown
  | .verificationFailed => .verificationFailure
  | .closeFailed => .closeFailed

/-- `recordMergePhaseFailure`, for `recordMergeFailure`, `recordVerificationFailure` and
`recordCloseFailure`. -/
def recordMergePhaseFailure (taskId : TaskId) (metadata : Record)
    (outcome : MergePhaseFailureEvent) : BoardProg HubTaskLifecycleResult :=
  updateLifecycle
    { taskId := taskId
      hubStatus := .failed
      metadata := metadata
      failureReason := some outcome.failureReason }

/-- `HubLandingRepairExhaustionReason`. -/
inductive HubLandingRepairExhaustionReason where
  | mergeConflictUnresolved
  | verificationFailed
  deriving DecidableEq, Repr

def HubLandingRepairExhaustionReason.text : HubLandingRepairExhaustionReason → String
  | .mergeConflictUnresolved => "merge_conflict_unresolved"
  | .verificationFailed => "verification_failed"

/-- What `recordRepairExhaustion` says of the task that it blocks. -/
def exhaustionMetadata (reason : HubLandingRepairExhaustionReason) : Record :=
  [("blocked", .bool true), ("blocked_reason", .str reason.text),
    ("blockedReason", .str reason.text)]

/-- `recordRepairExhaustion`. -/
def recordRepairExhaustion (taskId : TaskId) (metadata : Record)
    (reason : HubLandingRepairExhaustionReason) : BoardProg HubTaskLifecycleResult :=
  updateLifecycle
    { taskId := taskId
      hubStatus := .blocked
      metadata := metadata.merge (exhaustionMetadata reason) }

/-- The commits of a landing that `closeLandedTask` notes in the task. -/
structure LandingCommits where
  transactionId : String
  candidateOid : Option String
  sourceOid : Option String
  baseOid : Option String

/-- The keys that `closeLandedTask` adds to the metadata. -/
def landingFields : Option LandingCommits → Record
  | none => []
  | some landing =>
    ("landingTransactionId", .str landing.transactionId) ::
      (jsonField "landingCandidateOid" landing.candidateOid ++
        jsonField "landingSourceOid" landing.sourceOid ++
        jsonField "landingBaseOid" landing.baseOid)

/-- `recordTaskClosure`, with the closer that it has by default. -/
def recordTaskClosure (taskId : TaskId) (metadata : Record) : BoardProg HubTaskLifecycleResult :=
  (closeHubTask taskId metadata).bind fun closedTask =>
    .ret (toHubTaskLifecycleResult closedTask)

/-- `revertTaskToWaitingForMerge`. -/
def revertTaskToWaitingForMerge (task : HubTaskProjection) : BoardProg HubTaskProjection :=
  transitionHubTaskStatus
    { taskId := task.id, hubStatus := .waitingForMerge, metadata := task.metadata }

/-! ### Recovery -/

/-- `stripClaimMetadata`. -/
def stripClaimMetadata (metadata : Record) : Record := metadata.erase ["claim"]

/-- `persistHubTaskWithStrippedClaim`, which is `releaseStaleHubTaskClaim` and
`recoverFailedHubTask`. -/
def persistHubTaskWithStrippedClaim (taskId : TaskId) (hubStatus : HubTaskStatus)
    (metadata : Record) : BoardProg HubTaskLifecycleResult :=
  updateLifecycle
    { taskId := taskId, hubStatus := hubStatus, metadata := stripClaimMetadata metadata }

/-- `completeCloseFailedRecovery`. -/
def completeCloseFailedRecovery (taskId : TaskId) (metadata : Record) :
    BoardProg HubTaskLifecycleResult :=
  (closeHubTask taskId metadata).bind fun closedTask =>
    .ret (toHubTaskLifecycleResult closedTask)

/-! ### Sync -/

/-- `setHubTaskSyncMetadata`. -/
def setHubTaskSyncMetadata (task : HubTaskProjection) (metadataPatch : Record) :
    BoardProg Unit :=
  bdUpdate ("tasks sync " ++ task.id) task.id { metadata := task.metadata.merge metadataPatch }

end ArchLoop.TaskBoard
