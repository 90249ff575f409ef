import ArchLoop.BatchPlanner
import ArchLoop.FlowRun
import ArchLoop.Lib.Parallel
import ArchLoop.TaskClaim

/-!
# `ArchLoop.BatchLoop`: the batches of a run on the task board

The loop of `runObservedHubFlow` (`hubFlowExecution.ts`) with all that it does to the task board. A
round reads the ready queue, has a batch planned, reads the queue again, implements and reviews the
selected tasks side by side, and merges them when all succeeded. It goes on as long as the batch
completes. There is no bound on the rounds unless the caller gives one.

What planner, agents, git and landing do is input, for each round anew. `FlowRun.lean` has the
verdict on a batch with all fields of its results; here the results are those that this loop
computes. `batchLoop` takes the number of rounds that it may run, and has no `stopReason` when it
has not come to an end in these.
-/

set_option autoImplicit false

namespace ArchLoop.TaskBoard.BatchLoop

open Lib BatchPlanner

/-! ### Agents -/

/-- What becomes of the call of an agent: an answer, an error, or an error because the run was
aborted. -/
inductive AgentReply (ρ : Type) where
  | answer (result : ρ)
  | failed
  | aborted

/-- The outcomes of `HubImplementTaskResult` and `HubReviewTaskResult`. -/
inductive AgentOutcome where
  | success
  | agentFailed
  | sandboxFailed
  deriving DecidableEq, Repr

/-- `HubImplementTaskResult`. -/
structure HubImplementTaskResult where
  outcome : AgentOutcome
  commits : Nat := 0
  completionSignal : Bool := false
  branchHasUnmergedWork : Bool := false
  alreadyMerged : Bool := false
  deriving DecidableEq, Repr

/-- `HubReviewTaskResult`. -/
structure HubReviewTaskResult where
  outcome : AgentOutcome
  completionSignal : Bool := false
  deriving DecidableEq, Repr

/-- `isSuccessfulImplementation`. -/
def isSuccessfulImplementation (result : HubImplementTaskResult) : Bool :=
  result.outcome = .success && result.completionSignal &&
    (0 < result.commits || result.branchHasUnmergedWork)

/-- `isSuccessfulReview`. -/
def isSuccessfulReview (result : HubReviewTaskResult) : Bool :=
  result.outcome = .success && result.completionSignal

/-- `resolveFailureReason`. -/
def resolveFailureReason : AgentOutcome → ImplementationFailureReason
  | .sandboxFailed => .sandboxFailed
  | _ => .agentFailed

/-- The outcome that goes with a failure: `reviewFailureOutcome`, and the end of
`implementSelectedTask`. -/
def failureOutcome : ImplementationFailureReason → Flow.HubFlowTaskOutcome
  | .agentFailed => .agentFailed
  | .sandboxFailed => .sandboxFailed

/-- `resolveHubTaskRetryGate`. -/
inductive RetryGate where
  | ready
  | activeExecution
  | leaseMalformed
  deriving DecidableEq, Repr

/-- What happens around a task: its worktree's lease, the ids and times of its claim, and the
agents. -/
structure TaskBehaviour where
  retryGate : RetryGate := .ready
  claim : ClaimHubTaskInput
  implementer : AgentReply HubImplementTaskResult
  reviewer : AgentReply HubReviewTaskResult

/-- `RunHubFlowInput`, with what `bd ready` lists of the store: some of its issues, in an order of
its own. -/
structure RunHubFlowInput where
  hasReviewer : Bool
  runMergePhase : Bool := true
  batchStrategy : HubBatchStrategy := .planned
  maxTasks : Nat := 3
  maxBatches : Option Nat := none
  bdReady : BeadsStore → List BeadsIssue
  listed : ∀ s, ∀ issue ∈ bdReady s, issue ∈ s.issues

/-- `HubFlowTaskResult`. -/
structure HubFlowTaskResult where
  taskId : TaskId
  outcome : Flow.HubFlowTaskOutcome
  hubStatus : HubTaskStatus

/-- `isSuccessfulHubTaskResult`. -/
def isSuccessfulHubTaskResult (result : HubFlowTaskResult) : Bool :=
  result.outcome = .implemented || result.outcome = .reviewed

/-! ### A task -/

/-- `reviewSelectedTask`. -/
def reviewSelectedTask (behaviour : TaskBehaviour) (taskId : TaskId)
    (claim : HubTaskClaimMetadata) (taskMetadata : Record) : BoardProg HubFlowTaskResult :=
  let settle (reviewResult : HubReviewTaskResult) : BoardProg HubFlowTaskResult :=
    if isSuccessfulReview reviewResult then
      (recordHubTaskReviewSuccess taskId taskMetadata claim).bind fun lifecycleResult =>
        .ret { taskId, outcome := .reviewed, hubStatus := lifecycleResult.hubStatus }
    else
      let failureReason := resolveFailureReason reviewResult.outcome
      (recordHubTaskReviewFailure taskId taskMetadata failureReason.toHubFailureReason).bind
        fun lifecycleResult =>
          .ret
            { taskId, outcome := failureOutcome failureReason
              hubStatus := lifecycleResult.hubStatus }
  match behaviour.reviewer with
  | .answer reviewResult => settle reviewResult
  | .failed => settle { outcome := .sandboxFailed }
  | .aborted => .raise "aborted"

/-- The part of `implementSelectedTask` behind the implementer. -/
def settleImplementation (input : RunHubFlowInput) (behaviour : TaskBehaviour) (taskId : TaskId)
    (claim : HubTaskClaimMetadata) (metadata : Record) (result : HubImplementTaskResult) :
    BoardProg HubFlowTaskResult :=
  if result.alreadyMerged then
    -- nothing is left to review or to merge: the task is closed
    (recordImplementationSuccess taskId metadata claim false).bind fun _ =>
    (recordTaskClosure taskId metadata).bind fun closure =>
      .ret { taskId, outcome := .implemented, hubStatus := closure.hubStatus }
  else if isSuccessfulImplementation result then
    (recordImplementationSuccess taskId metadata claim input.hasReviewer).bind fun updated =>
      if input.hasReviewer then reviewSelectedTask behaviour taskId claim metadata
      else .ret { taskId, outcome := .implemented, hubStatus := updated.hubStatus }
  else
    let failureReason := resolveFailureReason result.outcome
    (recordImplementationFailure taskId metadata claim failureReason).bind fun updated =>
      .ret { taskId, outcome := failureOutcome failureReason, hubStatus := updated.hubStatus }

/-- `implementSelectedTask`. -/
def implementSelectedTask (input : RunHubFlowInput) (batchId : String)
    (behaviour : TaskBehaviour) (task : HubTaskProjection) : BoardProg HubFlowTaskResult :=
  match behaviour.retryGate with
  | .activeExecution =>
    .ret { taskId := task.id, outcome := .activeExecution, hubStatus := task.hubStatus }
  | .leaseMalformed =>
    .ret { taskId := task.id, outcome := .sandboxFailed, hubStatus := task.hubStatus }
  | .ready =>
    (claimHubTask { behaviour.claim with taskId := task.id, batchId }).bind fun claimResult =>
      match claimResult.outcome, claimResult.claim with
      | .skipped, _ =>
        .ret
          { taskId := task.id, outcome := .claimSkipped
            hubStatus := claimResult.task.hubStatus }
      | .claimed, none =>
        .raise ("Hub task " ++ task.id ++ " reached implementation without claim metadata")
      | .claimed, some claim =>
        match behaviour.implementer with
        | .answer result =>
          settleImplementation input behaviour task.id claim claimResult.task.metadata result
        | .failed =>
          settleImplementation input behaviour task.id claim claimResult.task.metadata
            { outcome := .sandboxFailed }
        | .aborted => .raise "aborted"

/-- One of `resolveSettledHubTaskResults`, with `toFailedSiblingHubTaskResult` for a task whose
work throws. -/
def resolveSettledHubTaskResult (task : HubTaskProjection) :
    Except String HubFlowTaskResult → HubFlowTaskResult
  | .ok result => result
  | .error _ => { taskId := task.id, outcome := .agentFailed, hubStatus := task.hubStatus }

/-! ### The merge phase -/

/-- What becomes of a task in the merge phase.

- `waits`: it is pending or skipped, and waits for its merge as before.
- `quietWait`: the same, and those behind it wait with it.
- `exhausted`: a conflict, or a verification that no repair helps.
- `failed`: the merge or its verification fails.
- `landed`: it has landed. A required publication is awaited before the task is closed
  (`published`), and all is done or something behind the closure fails (`recorded`).
- `thrown`: an error that ends the phase. -/
inductive MergeFate where
  | waits (outcome : Flow.HubBatchMergeOutcome)
  | quietWait
  | exhausted (reason : HubLandingRepairExhaustionReason)
  | failed (event : MergePhaseFailureEvent)
  | landed (published : Option Bool) (recorded : Bool)
  | thrown
  deriving DecidableEq, Repr

/-- `HubBatchMergeTaskResult`. -/
structure HubBatchMergeTaskResult where
  taskId : TaskId
  outcome : Flow.HubBatchMergeOutcome
  deriving DecidableEq, Repr

/-- What the git repository and the landing queue make of a merge phase.

- `selects`: which of the tasks that wait in the batch are ready for it.
- `order`: `orderTasksByDependencies`.
- `hostPending`: the contribution of the host branch is pending, so that all tasks wait. -/
structure MergeBehaviour where
  selects : HubTaskProjection → Bool
  order : List HubTaskProjection → List HubTaskProjection
  perm : ∀ tasks, (order tasks).Perm tasks
  hostPending : Bool
  fate : TaskId → MergeFate

/-- The outcomes of a task that `landed`, with the changes of `closeLandedTask`. -/
def closeLandedTask (task : HubTaskProjection) (published : Option Bool) (recorded : Bool) :
    BoardProg Flow.HubBatchMergeOutcome :=
  let publishing : BoardProg Unit :=
    (updateLifecycle
      { taskId := task.id, hubStatus := .publishing, metadata := task.metadata }).bind fun _ =>
    .ret ()
  let closing : BoardProg Flow.HubBatchMergeOutcome :=
    (Prog.when published.isSome publishing).bind fun _ =>
      if published = some false then .ret .pendingDelivery
      else
        (recordTaskClosure task.id task.metadata).bind fun _ =>
          if recorded then .ret .merged else .raise "closure"
  closing.tryCatch fun _ =>
    (recordMergePhaseFailure task.id task.metadata .closeFailed).bind fun _ => .ret .closeFailed

/-- `processMergeTask`, and the cases of the loop of `runHubBatchMerge` that do not reach it. -/
def mergeTask (task : HubTaskProjection) : MergeFate → BoardProg Flow.HubBatchMergeOutcome
  | .waits outcome =>
    (revertTaskToWaitingForMerge task).bind fun _ =>
      .ret (if outcome = .skipped then .skipped else .pending)
  | .quietWait => (revertTaskToWaitingForMerge task).bind fun _ => .ret .pending
  | .exhausted reason =>
    (recordRepairExhaustion task.id task.metadata reason).bind fun _ =>
      .ret (match reason with
        | .mergeConflictUnresolved => .mergeConflict
        | .verificationFailed => .verificationFailed)
  | .failed event =>
    (recordMergePhaseFailure task.id task.metadata event).bind fun _ =>
      .ret (if event = .verificationFailed then .verificationFailed else .mergeFailed)
  | .landed published recorded => closeLandedTask task published recorded
  | .thrown => .raise "merge"

/-- The tasks wait for their merge as before. -/
def revertTasks : List HubTaskProjection → BoardProg (List HubBatchMergeTaskResult)
  | [] => .ret []
  | task :: tasks =>
    (revertTaskToWaitingForMerge task).bind fun _ =>
    (revertTasks tasks).bind fun results =>
      .ret ({ taskId := task.id, outcome := .pending } :: results)

/-- The loop of `runHubBatchMerge`. -/
def mergeTasks (behaviour : MergeBehaviour) :
    List HubTaskProjection → BoardProg (List HubBatchMergeTaskResult)
  | [] => .ret []
  | task :: tasks =>
    (mergeTask task (behaviour.fate task.id)).bind fun outcome =>
    (if behaviour.fate task.id = .quietWait then revertTasks tasks
      else mergeTasks behaviour tasks).bind fun results =>
      .ret ({ taskId := task.id, outcome } :: results)

/-- `RunHubBatchMergeResult`. -/
structure RunHubBatchMergeResult where
  selectedTaskIds : List TaskId
  batchStatus : Flow.HubBatchMergeStatus
  results : List HubBatchMergeTaskResult

/-- `resolveBatchMergeStatus`. -/
def resolveBatchMergeStatus (results : List HubBatchMergeTaskResult) : Flow.HubBatchMergeStatus :=
  if results.length = 0 then .done
  else if results.all fun result => result.outcome = .pending then .pending
  else if results.all fun result => result.outcome = .merged then .done
  else .partialFailed

/-- `runHubBatchMerge`. -/
def runHubBatchMerge (batchId : String) (behaviour : MergeBehaviour) :
    BoardProg RunHubBatchMergeResult :=
  loadHubTaskBoard.bind fun tasks =>
    let selectedTasks := tasks.filter fun task =>
      task.hubStatus = .waitingForMerge && (task.claim.bind (·.batchId)) = some batchId &&
        behaviour.selects task
    let selectedTaskIds := selectedTasks.map (·.id)
    if selectedTasks.length = 0 then
      .ret { selectedTaskIds, batchStatus := .skipped, results := [] }
    else
      (enterMergePhase selectedTasks).bind fun _ =>
      let orderedTasks := behaviour.order selectedTasks
      (if behaviour.hostPending then revertTasks orderedTasks
        else mergeTasks behaviour orderedTasks).bind fun results =>
        .ret { selectedTaskIds, batchStatus := resolveBatchMergeStatus results, results }

/-! ### A batch -/

/-- `HubFlowBatchResult`. -/
structure HubFlowBatchResult where
  batchId : String
  selectedTaskIds : List TaskId
  completedTaskCount : Nat
  batchStatus : Flow.HubFlowBatchStatus
  deriving DecidableEq, Repr

/-- `resolveHubFlowCompletedTaskCount`. -/
def resolveHubFlowCompletedTaskCount (taskResults : List HubFlowTaskResult) :
    Option RunHubBatchMergeResult → Nat
  | some mergeResult => (mergeResult.results.filter fun result => result.outcome = .merged).length
  | none => (taskResults.filter isSuccessfulHubTaskResult).length

/-- `resolveHubFlowBatchStatus`. -/
def resolveHubFlowBatchStatus (selectedTaskIds : List TaskId)
    (taskResults : List HubFlowTaskResult) (mergeResult : Option RunHubBatchMergeResult) :
    Flow.HubFlowBatchStatus :=
  if taskResults.any fun result => !isSuccessfulHubTaskResult result then .failed
  else
    match mergeResult with
    | none => .completed
    | some mergeResult =>
      if mergeResult.batchStatus = .pending then .pending
      else if mergeResult.batchStatus ≠ .done then .failed
      else if selectedTaskIds ≠ [] &&
          !Flow.hasSameTaskIds selectedTaskIds mergeResult.selectedTaskIds then .failed
      else .completed

/-- `resolveHubFlowBatchResult`. -/
def resolveHubFlowBatchResult (batchId : String) (selectedTaskIds : List TaskId)
    (taskResults : List HubFlowTaskResult) (mergeResult : Option RunHubBatchMergeResult) :
    Option HubFlowBatchResult :=
  if selectedTaskIds = [] && taskResults.length = 0 && mergeResult.isNone then none
  else
    some
      { batchId
        selectedTaskIds :=
          if selectedTaskIds ≠ [] then selectedTaskIds
          else (mergeResult.map (·.selectedTaskIds)).getD []
        completedTaskCount := resolveHubFlowCompletedTaskCount taskResults mergeResult
        batchStatus := resolveHubFlowBatchStatus selectedTaskIds taskResults mergeResult }

/-- `loadHubReadyQueue`. -/
def loadHubReadyQueue (input : RunHubFlowInput) : BoardProg (List HubTaskProjection) :=
  bdCommand "tasks ready" (fun s => s) fun s => (input.bdReady s).map BeadsIssue.projection

/-- What happens around a batch.

- `planner`: the answer of the planner to the tasks that it is asked about.
- `schedule`: whose step is next while the tasks of the batch run side by side. -/
structure RoundBehaviour where
  batchId : String
  planner : List HubTaskProjection → BatchPlannerReply
  blockers : HubTaskProjection → BlockerResolution
  schedule : List Nat
  task : TaskId → TaskBehaviour
  merge : MergeBehaviour

/-- `HubFlowBatchExecution`. -/
structure HubFlowBatchExecution where
  selectedTaskIds : List TaskId
  results : List HubFlowTaskResult
  mergeResult : Option RunHubBatchMergeResult
  batchResult : Option HubFlowBatchResult

/-- `runBatchMergePhase`. -/
def runBatchMergePhase (input : RunHubFlowInput) (behaviour : RoundBehaviour) :
    BoardProg (Option RunHubBatchMergeResult) :=
  if input.runMergePhase then
    (runHubBatchMerge behaviour.batchId behaviour.merge).bind fun result => .ret (some result)
  else .ret none

/-- The tasks side by side, and their results: `Promise.allSettled`. -/
def settleTasks (behaviour : RoundBehaviour)
    (work : HubTaskProjection → BoardProg HubFlowTaskResult) (tasks : List HubTaskProjection) :
    BoardProg (List HubFlowTaskResult) :=
  (Prog.par behaviour.schedule (tasks.map fun task => (task.id, work task))).bind fun settled =>
    .ret (List.zipWith resolveSettledHubTaskResult tasks (settled.map (·.2)))

/-- The part of `executeSelectedBatch` behind the selection. -/
def executeTasks (input : RunHubFlowInput) (behaviour : RoundBehaviour)
    (selectedTasks : List HubTaskProjection) : BoardProg HubFlowBatchExecution :=
  let selectedTaskIds := selectedTasks.map (·.id)
  (settleTasks behaviour
    (fun task => implementSelectedTask input behaviour.batchId (behaviour.task task.id) task)
    selectedTasks).bind fun results =>
  (if results.all isSuccessfulHubTaskResult then runBatchMergePhase input behaviour
    else .ret none).bind fun mergeResult =>
  .ret
    { selectedTaskIds, results, mergeResult
      batchResult :=
        resolveHubFlowBatchResult behaviour.batchId selectedTaskIds results mergeResult }

/-- `executeSelectedBatch`. -/
def executeSelectedBatch (input : RunHubFlowInput) (behaviour : RoundBehaviour) :
    BoardProg HubFlowBatchExecution :=
  (loadHubReadyQueue input).bind fun candidates =>
    match planHubFlowBatch
      { candidates, batchStrategy := input.batchStrategy, maxTasks := input.maxTasks
        batchPlanner := behaviour.planner candidates, blockers := behaviour.blockers } with
    | none => .raise "aborted"
    | some planned =>
      (loadHubReadyQueue input).bind fun freshCandidates =>
        let selectedTasks := (resolveFreshValidatedHubBatchSelection
          (planned.selectedTasks.map (·.id)) freshCandidates input.maxTasks).1
        if selectedTasks.length = 0 then
          .ret { selectedTaskIds := [], results := [], mergeResult := none, batchResult := none }
        else executeTasks input behaviour selectedTasks

/-! ### The run -/

/-- What the loop of `runObservedHubFlow` collects, with the selection of each of its rounds. There
is no `stopReason` as long as it goes on. -/
structure RunHubFlowResult where
  selections : List (List TaskId) := []
  results : List HubFlowTaskResult := []
  batchResults : List HubFlowBatchResult := []
  mergeResult : Option RunHubBatchMergeResult := none
  stopReason : Option Flow.HubRunStopReason := none

/-- `selectedTaskIds`. -/
def RunHubFlowResult.selectedTaskIds (result : RunHubFlowResult) : List TaskId :=
  result.selections.flatten

/-- Why the loop stops behind a batch, if it does. -/
def stopAfter (input : RunHubFlowInput) (execution : HubFlowBatchExecution)
    (batchCount : Nat) : Option Flow.HubRunStopReason :=
  let batchStatus := execution.batchResult.map (·.batchStatus)
  if batchStatus = some .failed then some .batchFailed
  else if batchStatus = some .pending then some .batchPending
  else if execution.selectedTaskIds = [] then some .noReadyTasks
  else if input.maxBatches.any fun maxBatches => maxBatches ≤ batchCount then
    some .maxBatchesReached
  else none

/-- What the loop has collected behind a batch. -/
def RunHubFlowResult.append (input : RunHubFlowInput) (result : RunHubFlowResult)
    (execution : HubFlowBatchExecution) : RunHubFlowResult :=
  let batchResults := result.batchResults ++ execution.batchResult.toList
  { selections := result.selections ++ [execution.selectedTaskIds]
    results := result.results ++ execution.results
    batchResults
    mergeResult := execution.mergeResult <|> result.mergeResult
    stopReason := stopAfter input execution batchResults.length }

/-- The loop of `runObservedHubFlow`, for as many rounds as there are behaviours. -/
def batchLoop (input : RunHubFlowInput) :
    List RoundBehaviour → RunHubFlowResult → BoardProg RunHubFlowResult
  | [], result => .ret result
  | behaviour :: rounds, result =>
    if result.stopReason.isSome then .ret result
    else
      (executeSelectedBatch input behaviour).bind fun execution =>
        batchLoop input rounds (result.append input execution)

end ArchLoop.TaskBoard.BatchLoop
