import ArchLoop.TaskLifecycle

/-!
# `ArchLoop.TaskClaim`: claiming a task for an implementation

`claimHubTask` of `taskBoard.ts`. A task whose claim is active is skipped. Any other task is moved
to `implementing`, with a new claim in the patch of the transition.

The ids of the run and the batch, the time and what git says of the branch are arguments here, and
the events are left out.
-/

set_option autoImplicit false

namespace ArchLoop.TaskBoard

open ArchLoop.Lib

/-- `ClaimHubTaskInput`, with what `createHubRunContext` and `inspectHubManagedBranchClaimContext`
add to it. -/
structure ClaimHubTaskInput where
  taskId : TaskId
  branch : String
  runId : String
  batchId : String
  claimedAt : String
  baseHead : Option String
  branchExistedBeforeClaim : Option Bool

/-- `createHubTaskClaimMetadata`. -/
def createHubTaskClaimMetadata (input : ClaimHubTaskInput) : HubTaskClaimMetadata where
  runId := some input.runId
  batchId := some input.batchId
  taskId := some input.taskId
  branch := some input.branch
  claimedAt := some input.claimedAt
  baseHead := input.baseHead
  branchExistedBeforeClaim := input.branchExistedBeforeClaim
  raw :=
    [("runId", .str input.runId), ("batchId", .str input.batchId), ("taskId", .str input.taskId),
      ("branch", .str input.branch), ("claimedAt", .str input.claimedAt)] ++
    jsonField "baseHead" input.baseHead ++
    (input.branchExistedBeforeClaim.map fun existed =>
      ("branchExistedBeforeClaim", Json.bool existed)).toList

/-- The outcomes of `claimHubTask`. -/
inductive ClaimOutcome where
  | claimed
  | skipped
  deriving DecidableEq, Repr

/-- `ClaimHubTaskResult`. -/
structure ClaimHubTaskResult where
  outcome : ClaimOutcome
  runId : String
  batchId : String
  task : HubTaskProjection
  claim : Option HubTaskClaimMetadata

/-- The transition that a claim makes. -/
def claimTransition (input : ClaimHubTaskInput) (task : HubTaskProjection) :
    UpdateHubTaskStatusInput where
  taskId := input.taskId
  hubStatus := .implementing
  metadata := task.metadata.set "claim" (.obj (createHubTaskClaimMetadata input).raw)

/-- `claimHubTask`. -/
def claimHubTask (input : ClaimHubTaskInput) : BoardProg ClaimHubTaskResult :=
  (loadHubTask input.taskId).bind fun task =>
    if isHubTaskClaimActive task.hubStatus then
      .ret
        { outcome := .skipped
          runId := input.runId
          batchId := input.batchId
          task := task
          claim := task.claim }
    else
      (transitionHubTaskStatus (claimTransition input task)).bind fun updatedTask =>
        .ret
          { outcome := .claimed
            runId := input.runId
            batchId := input.batchId
            task := updatedTask
            claim := some (createHubTaskClaimMetadata input) }

end ArchLoop.TaskBoard
