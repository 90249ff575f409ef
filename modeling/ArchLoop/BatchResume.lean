import ArchLoop.TaskBoard

/-!
# `ArchLoop.BatchResume`: the batches that a later run takes up again

The model of `findResumableHubFlowBatches` of `hubFlowExecution.ts`, and of the writes that it
depends on: the batch events of a run (`batch.jsonl`), and the claims that an implementation
(`implementSelectedTask`) and a resumed review (`rehomeHubTaskClaimOntoCurrentRun`) write.

A run may stop after any of its writes: it takes no further step then. The ids of runs and batches
are random in the source, and counted here, so that a new one differs from all before.

A claim also says which of the two functions wrote it. No function reads that.
-/

set_option autoImplicit false

namespace ArchLoop.BatchResume

open ArchLoop.TaskBoard (isHubTaskClaimActive)

/-! ### Claims, events and runs -/

/-- The two functions that write a claim. -/
inductive ClaimWriter where
  | implementation
  | resumedReview
  deriving DecidableEq, Repr

/-- The fields of `HubTaskClaimMetadata` that the search reads, and the writer. -/
structure BatchClaim where
  runId : Nat
  batchId : Nat
  writer : ClaimWriter
  deriving DecidableEq, Repr

/-- A task of the board. -/
structure ResumeTask where
  taskId : TaskId
  hubStatus : HubTaskStatus
  claim : Option BatchClaim := none
  deriving DecidableEq, Repr

/-- `HubBatchStartedEvent` and `HubBatchPlannedEvent`. -/
inductive HubBatchEvent where
  | batchStarted (batchId : Nat)
  | batchPlanned (batchId : Nat) (flowId : String) (createdAt : Timestamp)
  deriving DecidableEq, Repr

/-- What `runObservedHubFlow` keeps of a run. While it is `resuming`, it works on the batch that it
resumed. After that it works on a new batch, which `executeSelectedBatch` plans first. -/
structure FlowRun where
  flowId : String
  resumedBatchId : Option Nat
  currentBatchId : Nat
  resuming : Bool
  planned : Bool := false
  deriving DecidableEq, Repr

/-- The board, the batch events of each run, and the runs. -/
structure ResumeWorld where
  tasks : List ResumeTask := []
  events : Nat → List HubBatchEvent := fun _ => []
  runs : Nat → Option FlowRun := fun _ => none
  nextRunId : Nat := 0
  nextBatchId : Nat := 0

/-! ### The search -/

/-- `ResumableHubFlowBatch`. -/
structure ResumableHubFlowBatch where
  runId : Nat
  batchId : Nat
  createdAt : Timestamp
  deriving DecidableEq, Repr

/-- `isResumableHubFlowTaskStatus`. -/
def isResumableHubFlowTaskStatus (hubStatus : HubTaskStatus) (includeReviewResume : Bool) : Bool :=
  hubStatus = .waitingForMerge || (includeReviewResume && hubStatus = .reviewing)

/-- The time of the first record that plans the batch for the flow. -/
def plannedAt (batchId : Nat) (flowId : String) : HubBatchEvent → Option Timestamp
  | .batchPlanned planned flow createdAt =>
    if planned = batchId ∧ flow = flowId then some createdAt else none
  | .batchStarted _ => none

namespace ResumeWorld

variable (w : ResumeWorld)

/-- The batch that a task makes resumable. -/
def resumableBatch (flowId : String) (includeReviewResume : Bool) (task : ResumeTask) :
    Option ResumableHubFlowBatch :=
  if isResumableHubFlowTaskStatus task.hubStatus includeReviewResume then
    task.claim.bind fun claim =>
      ((w.events claim.runId).findSome? (plannedAt claim.batchId flowId)).map fun createdAt =>
        { runId := claim.runId, batchId := claim.batchId, createdAt := createdAt }
  else none

/-- `findResumableHubFlowBatches`, in the order of their times. -/
def findResumableHubFlowBatches (flowId : String) (includeReviewResume : Bool) :
    List ResumableHubFlowBatch :=
  (w.tasks.filterMap (w.resumableBatch flowId includeReviewResume)).dedup.mergeSort
    fun left right => left.createdAt ≤ right.createdAt

/-! ### The writes -/

/-- What changes in the record of a task. -/
def modifyTask (taskId : TaskId) (f : ResumeTask → ResumeTask) : ResumeWorld :=
  { w with tasks := w.tasks.map fun task => if task.taskId = taskId then f task else task }

/-- A record is appended to the batch events of a run. -/
def appendHubBatchEvent (runId : Nat) (event : HubBatchEvent) : ResumeWorld :=
  { w with events := Function.update w.events runId (w.events runId ++ [event]) }

/-- The record of a run. -/
def setRun (runId : Nat) (run : FlowRun) : ResumeWorld :=
  { w with runs := Function.update w.runs runId (some run) }

/-- The start of a run: the first resumable batch is taken up (`createHubRunContext`). -/
def startRun (flowId : String) (hasReviewer : Bool) : ResumeWorld :=
  let resumedBatchId :=
    (w.findResumableHubFlowBatches flowId hasReviewer).head?.map (·.batchId)
  let batchId := resumedBatchId.getD w.nextBatchId
  let counted := { w with nextRunId := w.nextRunId + 1, nextBatchId := w.nextBatchId + 1 }
  (counted.setRun w.nextRunId
    { flowId := flowId
      resumedBatchId := resumedBatchId
      currentBatchId := batchId
      resuming := resumedBatchId.isSome }).appendHubBatchEvent w.nextRunId (.batchStarted batchId)

/-- `startNextBatch`. -/
def startNextBatch (runId : Nat) : ResumeWorld :=
  match w.runs runId with
  | none => w
  | some run =>
    let counted := { w with nextBatchId := w.nextBatchId + 1 }
    (counted.setRun runId
      { run with currentBatchId := w.nextBatchId, resuming := false, planned := false
        }).appendHubBatchEvent runId (.batchStarted w.nextBatchId)

/-- The first write of `executeSelectedBatch`. -/
def planBatch (runId : Nat) (createdAt : Timestamp) : ResumeWorld :=
  match w.runs runId with
  | none => w
  | some run =>
    if run.resuming then w
    else
      (w.setRun runId { run with planned := true }).appendHubBatchEvent runId
        (.batchPlanned run.currentBatchId run.flowId createdAt)

/-- `claimHubTask`, for a task of the planned batch. A task with an active claim is skipped. -/
def claimHubTask (runId : Nat) (taskId : TaskId) : ResumeWorld :=
  match w.runs runId with
  | none => w
  | some run =>
    if run.planned then
      w.modifyTask taskId fun task =>
        if isHubTaskClaimActive task.hubStatus then task
        else
          { task with
            hubStatus := .implementing
            claim := some
              { runId := runId, batchId := run.currentBatchId, writer := .implementation } }
    else w

/-- `resumeReviewSelectedTask`, in a flow with a reviewer: the claim of a reviewing task of the
resumed batch is rehomed onto the run. -/
def resumeReviewSelectedTask (hasReviewer : String → Bool) (runId : Nat) (taskId : TaskId) :
    ResumeWorld :=
  match w.runs runId with
  | none => w
  | some run =>
    if run.resuming && hasReviewer run.flowId then
      w.modifyTask taskId fun task =>
        if task.hubStatus = .reviewing ∧ task.claim.map (·.batchId) = run.resumedBatchId then
          { task with
            claim := task.claim.map fun claim =>
              { claim with runId := runId, writer := .resumedReview } }
        else task
    else w

end ResumeWorld

/-- What happens.

- `create`: a task is added to the board.
- `move`: any other change of a status, by the lifecycle of the task, its merge, a recovery or a
  person, with or without the claim. -/
inductive ResumeAction where
  | create (taskId : TaskId) (status : HubTaskStatus)
  | move (taskId : TaskId) (status : HubTaskStatus) (keepClaim : Bool)
  | startRun (flowId : String)
  | startNextBatch (runId : Nat)
  | planBatch (runId : Nat) (createdAt : Timestamp)
  | claimHubTask (runId : Nat) (taskId : TaskId)
  | resumeReview (runId : Nat) (taskId : TaskId)
  deriving DecidableEq, Repr

section
variable (hasReviewer : String → Bool)

/-- One write. -/
def ResumeWorld.step (w : ResumeWorld) : ResumeAction → ResumeWorld
  | .create taskId status =>
    { w with tasks := w.tasks ++ [{ taskId := taskId, hubStatus := status }] }
  | .move taskId status keepClaim =>
    w.modifyTask taskId fun task =>
      { task with hubStatus := status, claim := if keepClaim then task.claim else none }
  | .startRun flowId => w.startRun flowId (hasReviewer flowId)
  | .startNextBatch runId => w.startNextBatch runId
  | .planBatch runId createdAt => w.planBatch runId createdAt
  | .claimHubTask runId taskId => w.claimHubTask runId taskId
  | .resumeReview runId taskId => w.resumeReviewSelectedTask hasReviewer runId taskId

/-- The board and the events after the writes, from an empty board. -/
def afterWrites (actions : List ResumeAction) : ResumeWorld :=
  actions.foldl (ResumeWorld.step hasReviewer) {}

end

end ArchLoop.BatchResume
