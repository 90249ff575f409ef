import ArchLoop.BatchMerge
import ArchLoop.Reconciliation

/-!
# `ArchLoop.FlowExecution`: the landing work of a run

The model of the parts of `runObservedHubFlow` (`hubFlowExecution.ts`) that land, close and
publish. A run reconciles and publishes at its start, merges its batches, and reconciles
again at its end, each time with the task board and the events that it read at the start.

Planning and implementing tasks, and the recovery of stuck task statuses, lie between these
parts and are left out.
-/

set_option autoImplicit false

namespace ArchLoop

open ArchLoop.Lib

/-- The start of a run: the policy, a reconciliation, and one attempt on each publication. -/
def startLandingWork (git : Git) (input : HubLandingReconciliationInput) : Hub Unit := do
  let _policy ← ensureHubLandingPolicy git input.call input.hostTargetBranch
  let _outcome ← reconcileHubLandingTransactions git input
  let _items ← syncHubPublications git
  return ()

/-- The end of a run: a reconciliation. -/
def endLandingWork (git : Git) (input : HubLandingReconciliationInput) : Hub Unit := do
  let _outcome ← reconcileHubLandingTransactions git input
  return ()

/-- The merge phases of a run. -/
def mergeBatches (git : Git) : List RunHubBatchMergeInput → Hub Unit
  | [] => return ()
  | batch :: batches => do
    let _results ← runHubBatchMerge git batch
    mergeBatches git batches

/-- `runObservedHubFlow`. -/
def runObservedHubFlow (git : Git) (input : HubLandingReconciliationInput)
    (batches : List RunHubBatchMergeInput) : Hub Unit := do
  startLandingWork git input
  mergeBatches git batches
  endLandingWork git input

end ArchLoop
