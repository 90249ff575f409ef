import ArchLoop.LegacyHistory
import Mathlib.Data.Finset.Card

/-!
# `ArchLoop.FlowRun`: the batches of a run, their verdicts and the outcome of the run

The model of the parts of `hubFlowExecution.ts` that judge a batch and decide whether the run goes
on (`resolveHubFlowBatchStatus`, `resolveResumedHubFlowBatchResult`, the loop of
`runObservedHubFlow`), and of `hubRunDisplay.ts` (`projectHubRunOutcome`).

What the agents and the merge phase do is input. `HubFlowTaskResult`, `HubBatchMergeTaskResult` and
`RunHubBatchMergeResult` carry what the functions that build them promise: which status goes with
which outcome, and that a merge has one result for each task that it selected. A batch
(`HubFlowBatchExecution`) has the results of the tasks that it implements or reviews now, the other
members, which wait for their merge from before, and the merge phase. The phase runs when no task
of the batch failed.

The names are those of the source, in a namespace of their own: the records of `BatchMerge.lean`
have fewer fields and outcomes.
-/

set_option autoImplicit false

namespace ArchLoop.Flow

/-! ### Results -/

/-- The outcomes of `HubFlowTaskResult`. -/
inductive HubFlowTaskOutcome where
  | implemented
  | reviewed
  | claimSkipped
  | activeExecution
  | agentFailed
  | sandboxFailed
  deriving DecidableEq, Repr

/-- The status of a task whose work succeeded. A task that was found already merged is closed. -/
def HubFlowTaskOutcome.Leaves : HubFlowTaskOutcome → HubTaskStatus → Prop
  | .implemented, status => status = .waitingForMerge ∨ status = .done
  | .reviewed, status => status = .waitingForMerge
  | _, _ => True

/-- `HubFlowTaskResult`. -/
structure HubFlowTaskResult where
  taskId : TaskId
  outcome : HubFlowTaskOutcome
  hubStatus : HubTaskStatus
  leaves : outcome.Leaves hubStatus

/-- `isSuccessfulHubTaskResult`. -/
def isSuccessfulHubTaskResult (result : HubFlowTaskResult) : Bool :=
  result.outcome = .implemented || result.outcome = .reviewed

/-- The outcomes of `HubBatchMergeTaskResult`. -/
inductive HubBatchMergeOutcome where
  | merged
  | mergeConflict
  | mergeFailed
  | verificationFailed
  | closeFailed
  | pending
  | pendingDelivery
  | skipped
  deriving DecidableEq, Repr

/-- The reasons of `HubBatchMergeTaskResult`. -/
inductive HubBatchMergeReason where
  | mergeConflictUnresolved
  | verificationFailed
  | unshippedPrerequisite
  | targetQuietWait
  | queueHeadBlocked
  | hostContributionConflict
  | hostContributionPending
  | completedWithPendingDelivery
  deriving DecidableEq, Repr

/-- The status and the reason that go with an outcome: what `closeLandedTask`,
`settleUnsuccessfulMerge`, `exhaustVerificationRepair`, `failLandedCandidate` and the loop of
`runHubBatchMerge` give. A pending task may have a reason. -/
def HubBatchMergeOutcome.Leaves (status : HubTaskStatus) (reason : Option HubBatchMergeReason) :
    HubBatchMergeOutcome → Prop
  | .merged => status = .done ∧ reason = none
  | .mergeConflict => status = .blocked ∧ reason = some .mergeConflictUnresolved
  | .mergeFailed => status = .failed ∧ reason = none
  | .verificationFailed => status = .blocked ∧ reason = some .verificationFailed
  | .closeFailed => status = .failed ∧ reason = none
  | .pending => status = .waitingForMerge
  | .pendingDelivery => status = .publishing ∧ reason = some .completedWithPendingDelivery
  | .skipped => status = .waitingForMerge ∧ reason = some .unshippedPrerequisite

/-- `HubBatchMergeTaskResult`. -/
structure HubBatchMergeTaskResult where
  taskId : TaskId
  outcome : HubBatchMergeOutcome
  hubStatus : HubTaskStatus
  reason : Option HubBatchMergeReason := none
  leaves : outcome.Leaves hubStatus reason

/-- `HubBatchMergeSelectionDecision`. -/
inductive HubBatchMergeSelectionDecision where
  | selected
  | skipped
  | blocked
  deriving DecidableEq, Repr

/-- `HubBatchMergeSelectionDiagnostic`. -/
structure HubBatchMergeSelectionDiagnostic where
  taskId : TaskId
  decision : HubBatchMergeSelectionDecision
  deriving DecidableEq, Repr

/-- `RunHubBatchMergeResult`. There is a result for each selected task, and the selection says
something about a task at most once. -/
structure RunHubBatchMergeResult where
  selectedTaskIds : List TaskId
  selectionDiagnostics : List HubBatchMergeSelectionDiagnostic
  results : List HubBatchMergeTaskResult
  perm : (results.map (·.taskId)).Perm selectedTaskIds
  nodup : selectedTaskIds.Nodup
  diagnosed : (selectionDiagnostics.map (·.taskId)).Nodup
  selected : ∀ diagnostic ∈ selectionDiagnostics,
    diagnostic.decision = .selected ↔ diagnostic.taskId ∈ selectedTaskIds

/-- The `batchStatus` of a merge. -/
inductive HubBatchMergeStatus where
  | done
  | partialFailed
  | pending
  | skipped
  deriving DecidableEq, Repr

/-- `resolveBatchMergeStatus`. -/
def resolveBatchMergeStatus (results : List HubBatchMergeTaskResult) : HubBatchMergeStatus :=
  if results.length = 0 then .done
  else if results.all fun result => result.outcome = .pending then .pending
  else if results.all fun result => result.outcome = .merged then .done
  else .partialFailed

/-- The status of the merge: skipped when nothing is selected. -/
def RunHubBatchMergeResult.batchStatus (result : RunHubBatchMergeResult) : HubBatchMergeStatus :=
  if result.selectedTaskIds.length = 0 then .skipped
  else resolveBatchMergeStatus result.results

/-! ### The verdict on a batch -/

/-- The `batchStatus` of `HubFlowBatchResult`. -/
inductive HubFlowBatchStatus where
  | completed
  | failed
  | pending
  deriving DecidableEq, Repr

/-- `HubFlowBatchResult`. -/
structure HubFlowBatchResult where
  selectedTaskIds : List TaskId
  completedTaskCount : Nat
  batchStatus : HubFlowBatchStatus
  deriving DecidableEq, Repr

/-- `countSuccessfulMergeResults`. -/
def countSuccessfulMergeResults (result : RunHubBatchMergeResult) : Nat :=
  (result.results.filter fun task => task.outcome = .merged).length

/-- `resolveHubFlowCompletedTaskCount`. -/
def resolveHubFlowCompletedTaskCount (taskResults : List HubFlowTaskResult)
    (mergeResult : Option RunHubBatchMergeResult) : Nat :=
  match mergeResult with
  | some result => countSuccessfulMergeResults result
  | none => (taskResults.filter isSuccessfulHubTaskResult).length

/-- `hasSameTaskIds`. -/
def hasSameTaskIds (left right : List TaskId) : Bool :=
  left.length = right.length && left.all fun taskId => taskId ∈ right

/-- `resolveHubFlowBatchStatus`. -/
def resolveHubFlowBatchStatus (selectedTaskIds : List TaskId)
    (taskResults : List HubFlowTaskResult) (mergeResult : Option RunHubBatchMergeResult) :
    HubFlowBatchStatus :=
  if taskResults.any fun result => !isSuccessfulHubTaskResult result then .failed
  else
    match mergeResult with
    | none => .completed
    | some merge =>
      if merge.batchStatus = .pending then .pending
      else if merge.batchStatus ≠ .done then .failed
      else if selectedTaskIds.length > 0 && !hasSameTaskIds selectedTaskIds merge.selectedTaskIds
      then .failed
      else .completed

/-- `resolveHubFlowBatchTaskIds`. -/
def resolveHubFlowBatchTaskIds (selectedTaskIds : List TaskId)
    (mergeResult : Option RunHubBatchMergeResult) : List TaskId :=
  if selectedTaskIds.length > 0 then selectedTaskIds
  else (mergeResult.map (·.selectedTaskIds)).getD []

/-- `resolveHubFlowBatchResult`. -/
def resolveHubFlowBatchResult (selectedTaskIds : List TaskId)
    (taskResults : List HubFlowTaskResult) (mergeResult : Option RunHubBatchMergeResult) :
    Option HubFlowBatchResult :=
  if selectedTaskIds.length = 0 && taskResults.length = 0 && mergeResult.isNone then none
  else
    some {
      selectedTaskIds := resolveHubFlowBatchTaskIds selectedTaskIds mergeResult
      completedTaskCount := resolveHubFlowCompletedTaskCount taskResults mergeResult
      batchStatus := resolveHubFlowBatchStatus selectedTaskIds taskResults mergeResult }

/-- `resolveMergeOnlyHubFlowBatchResult`, as a resumed batch calls it: a merge that selected
nothing is a failure. -/
def resolveMergeOnlyHubFlowBatchResult (mergeResult : Option RunHubBatchMergeResult) :
    Option HubFlowBatchResult :=
  match mergeResult with
  | none => none
  | some merge =>
    if merge.batchStatus = .skipped then
      some {
        selectedTaskIds := merge.selectedTaskIds, completedTaskCount := 0, batchStatus := .failed }
    else resolveHubFlowBatchResult [] [] mergeResult

/-- `resolveResumedHubFlowBatchResult`. -/
def resolveResumedHubFlowBatchResult (taskResults : List HubFlowTaskResult)
    (mergeResult : Option RunHubBatchMergeResult) : Option HubFlowBatchResult :=
  if taskResults.length > 0 then
    resolveHubFlowBatchResult (taskResults.map (·.taskId)) taskResults mergeResult
  else resolveMergeOnlyHubFlowBatchResult mergeResult

/-! ### The batches of a run -/

/-- What happens in a batch of a run.

- `resumed`: an unfinished batch that the run takes up again. Otherwise it is a fresh one.
- `results`: the settled results of the tasks that are implemented, or reviewed again, now.
- `waiting`: the members that wait for their merge from before. A fresh batch has none.
- `mergePhase`: what the merge phase of the batch gives, when it runs. It takes tasks of the batch
  that wait for their merge.

A batch is taken up for a member, or has a selected task. -/
structure HubFlowBatchExecution where
  resumed : Bool
  results : List HubFlowTaskResult
  waiting : List TaskId := []
  mergePhase : RunHubBatchMergeResult
  nodup : (results.map (·.taskId) ++ waiting).Nodup
  occupied : results.map (·.taskId) ++ waiting ≠ []
  fresh : resumed = false → waiting = []
  selection : ∀ taskId ∈ mergePhase.selectedTaskIds, taskId ∈ waiting ∨
    ∃ result ∈ results, result.taskId = taskId ∧ result.hubStatus = .waitingForMerge

namespace HubFlowBatchExecution

variable (runMergePhase : Bool) (batch : HubFlowBatchExecution)

/-- The tasks of the batch that have a result. -/
def selectedTaskIds : List TaskId :=
  batch.results.map (·.taskId)

/-- All members of the batch. -/
def members : List TaskId :=
  batch.selectedTaskIds ++ batch.waiting

/-- `runBatchMergePhase`, which runs when all tasks succeeded. -/
def mergeResult : Option RunHubBatchMergeResult :=
  if runMergePhase && batch.results.all isSuccessfulHubTaskResult then some batch.mergePhase
  else none

/-- The verdict on the batch. -/
def batchResult : Option HubFlowBatchResult :=
  if batch.resumed then
    resolveResumedHubFlowBatchResult batch.results (batch.mergeResult runMergePhase)
  else
    resolveHubFlowBatchResult batch.selectedTaskIds batch.results
      (batch.mergeResult runMergePhase)

end HubFlowBatchExecution

/-- `HubRunStopReason`. -/
inductive HubRunStopReason where
  | noReadyTasks
  | maxBatchesReached
  | batchFailed
  | batchPending
  deriving DecidableEq, Repr

/-- The fields of `RunHubFlowResult` that its projection reads, and what the loop collects. -/
structure RunHubFlowResult where
  stopReason : HubRunStopReason := .noReadyTasks
  batchResults : List HubFlowBatchResult := []
  results : List HubFlowTaskResult := []
  mergeResult : Option RunHubBatchMergeResult := none

/-- `completedBatchCount`. -/
def RunHubFlowResult.completedBatchCount (result : RunHubFlowResult) : Nat :=
  (result.batchResults.filter fun entry => entry.batchStatus = .completed).length

/-- The arguments of `runObservedHubFlow` that its loop reads. No bound on the batches is
infinity. -/
structure RunHubFlowInput where
  runMergePhase : Bool := true
  maxBatches : Option Nat := none

/-- What the loop has collected after a batch. A batch without a merge keeps the merge of the one
before. -/
def RunHubFlowResult.append (input : RunHubFlowInput) (result : RunHubFlowResult)
    (batch : HubFlowBatchExecution) : RunHubFlowResult :=
  { result with
    batchResults := result.batchResults ++ (batch.batchResult input.runMergePhase).toList
    results := result.results ++ batch.results
    mergeResult := batch.mergeResult input.runMergePhase <|> result.mergeResult }

/-- Why the loop stops after a batch, if it does, with the number of batch results so far. -/
def stopAfter (input : RunHubFlowInput) (batchResult : Option HubFlowBatchResult)
    (batchCount : Nat) : Option HubRunStopReason :=
  if batchResult.map (·.batchStatus) = some .failed then some .batchFailed
  else if batchResult.map (·.batchStatus) = some .pending then some .batchPending
  else if input.maxBatches.any fun maxBatches => batchCount ≥ maxBatches then
    some .maxBatchesReached
  else none

/-- The loop of `runObservedHubFlow` over the batches that it finds. It ends with
`no_ready_tasks` when there are no more. -/
def runBatches (input : RunHubFlowInput) :
    RunHubFlowResult → List HubFlowBatchExecution → RunHubFlowResult
  | result, [] => { result with stopReason := .noReadyTasks }
  | result, batch :: batches =>
    let next := result.append input batch
    match stopAfter input (batch.batchResult input.runMergePhase) next.batchResults.length with
    | some stopReason => { next with stopReason := stopReason }
    | none => runBatches input next batches

/-- The part of `runObservedHubFlow` that takes the batches of the run, the resumed one first. -/
def runObservedHubFlow (input : RunHubFlowInput) (batches : List HubFlowBatchExecution) :
    RunHubFlowResult :=
  runBatches input {} batches

/-! ### The outcome of a run -/

/-- `HubRunOutcome`. -/
inductive HubRunOutcome where
  | completed
  | completedWithFailures
  | completedWithPendingDelivery
  | completedWithPendingMerge
  | failed
  | cancelled
  deriving DecidableEq, Repr

/-- `resolveHubRunExitCode`. -/
def resolveHubRunExitCode : HubRunOutcome → Nat
  | .completed => 0
  | .cancelled => 130
  | _ => 1

/-- The five sets of `classifyHubRunTasks`. -/
structure HubRunTaskClasses where
  completed : Finset TaskId := ∅
  failed : Finset TaskId := ∅
  blocked : Finset TaskId := ∅
  skipped : Finset TaskId := ∅
  readyToMerge : Finset TaskId := ∅
  deriving DecidableEq

namespace HubRunTaskClasses

variable (classes : HubRunTaskClasses)

/-- The tasks of the completed batches. -/
def completedTaskIds (batchResults : List HubFlowBatchResult) : List TaskId :=
  batchResults.flatMap fun batch =>
    if batch.batchStatus = .completed then batch.selectedTaskIds else []

/-- The first pass: a task result. -/
def addTask (task : HubFlowTaskResult) : HubRunTaskClasses :=
  if task.taskId ∈ classes.completed then classes
  else if task.outcome = .agentFailed ∨ task.outcome = .sandboxFailed ∨
      task.hubStatus = .failed then
    { classes with failed := insert task.taskId classes.failed }
  else if task.outcome = .activeExecution then
    { classes with blocked := insert task.taskId classes.blocked }
  else if task.outcome = .claimSkipped then
    { classes with skipped := insert task.taskId classes.skipped }
  else if task.hubStatus = .waitingForMerge then
    { classes with readyToMerge := insert task.taskId classes.readyToMerge }
  else classes

/-- The second pass: what the merge selection says of a task. -/
def addDiagnostic (diagnostic : HubBatchMergeSelectionDiagnostic) : HubRunTaskClasses :=
  if diagnostic.taskId ∈ classes.completed ∨ diagnostic.taskId ∈ classes.failed then classes
  else
    match diagnostic.decision with
    | .blocked =>
      { classes with
        blocked := insert diagnostic.taskId classes.blocked
        skipped := classes.skipped.erase diagnostic.taskId
        readyToMerge := classes.readyToMerge.erase diagnostic.taskId }
    | .skipped =>
      { classes with
        skipped := insert diagnostic.taskId classes.skipped
        readyToMerge := classes.readyToMerge.erase diagnostic.taskId }
    | .selected => classes

/-- A merged task is in none of the sets that its result decides. -/
def withdraw (taskId : TaskId) : HubRunTaskClasses :=
  { classes with
    blocked := classes.blocked.erase taskId
    skipped := classes.skipped.erase taskId
    readyToMerge := classes.readyToMerge.erase taskId }

/-- The third pass: the result of a merged task. -/
def addMerge (task : HubBatchMergeTaskResult) : HubRunTaskClasses :=
  let rest := classes.withdraw task.taskId
  if task.outcome = .merged then
    { rest with
      completed := insert task.taskId rest.completed
      failed := rest.failed.erase task.taskId }
  else if task.outcome = .skipped then
    if task.hubStatus = .waitingForMerge then
      { rest with readyToMerge := insert task.taskId rest.readyToMerge }
    else { rest with skipped := insert task.taskId rest.skipped }
  else if task.outcome = .pending then
    { rest with readyToMerge := insert task.taskId rest.readyToMerge }
  else if task.hubStatus = .blocked ∨ task.reason.isSome then
    { rest with blocked := insert task.taskId rest.blocked }
  else { rest with failed := insert task.taskId rest.failed }

end HubRunTaskClasses

/-- `classifyHubRunTasks`. -/
def classifyHubRunTasks (result : RunHubFlowResult) : HubRunTaskClasses :=
  let start : HubRunTaskClasses :=
    { completed := (HubRunTaskClasses.completedTaskIds result.batchResults).toFinset }
  let withTasks := result.results.foldl HubRunTaskClasses.addTask start
  let withSelection := ((result.mergeResult.map (·.selectionDiagnostics)).getD []).foldl
    HubRunTaskClasses.addDiagnostic withTasks
  ((result.mergeResult.map (·.results)).getD []).foldl HubRunTaskClasses.addMerge withSelection

/-- The counts of `HubRunOutcomeProjection`. -/
structure HubRunTaskCounts where
  completed : Nat
  failed : Nat
  blocked : Nat
  skipped : Nat
  readyToMerge : Nat
  deriving DecidableEq, Repr

/-- The sizes of the sets. -/
def HubRunTaskClasses.counts (classes : HubRunTaskClasses) : HubRunTaskCounts where
  completed := classes.completed.card
  failed := classes.failed.card
  blocked := classes.blocked.card
  skipped := classes.skipped.card
  readyToMerge := classes.readyToMerge.card

/-- A merge result has the outcome. -/
def RunHubFlowResult.hasMergeOutcome (result : RunHubFlowResult)
    (outcome : HubBatchMergeOutcome) : Bool :=
  ((result.mergeResult.map (·.results)).getD []).any fun task => task.outcome = outcome

/-- `resolveHubRunOutcomeKind`. -/
def resolveHubRunOutcomeKind (result : RunHubFlowResult)
    (cancelled hasPendingDelivery hasPendingMerge hasPartialProgress : Bool) : HubRunOutcome :=
  if cancelled then .cancelled
  else if hasPendingDelivery && result.stopReason ≠ .batchFailed then
    .completedWithPendingDelivery
  else if hasPendingMerge && result.stopReason ≠ .batchFailed then .completedWithPendingMerge
  else if result.stopReason ≠ .batchFailed then .completed
  else if hasPartialProgress then .completedWithFailures
  else .failed

/-- `HubRunOutcomeProjection`. -/
structure HubRunOutcomeProjection where
  outcome : HubRunOutcome
  counts : HubRunTaskCounts
  exitCode : Nat
  deriving DecidableEq, Repr

/-- `projectHubRunOutcome`. -/
def projectHubRunOutcome (result : RunHubFlowResult) (cancelled : Bool := false) :
    HubRunOutcomeProjection :=
  let counts := (classifyHubRunTasks result).counts
  let hasPendingMerge := result.hasMergeOutcome .pending ||
    (result.batchResults.any fun batch => batch.batchStatus = .pending) ||
    result.stopReason = .batchPending
  let outcome := resolveHubRunOutcomeKind result cancelled
    (result.hasMergeOutcome .pendingDelivery) hasPendingMerge
    (counts.completed > 0 || counts.readyToMerge > 0)
  { outcome := outcome, counts := counts, exitCode := resolveHubRunExitCode outcome }

end ArchLoop.Flow
