import ArchLoop.HostContribution
import ArchLoop.LandingRepair
import ArchLoop.LegacyHistory

/-!
# `ArchLoop.BatchMerge`: a batch of tasks, merged, verified, landed and closed

The model of `hubBatchMerge.ts`, with the merger that a run uses (`createHubFlowRunMerger`).
Its integration is a closure over the candidate at hand; here the functions take that
candidate and return the one that they leave.

- `verifyWithBoundedRepair` runs the verifier, and repairs the candidate while the budget
  lasts.
- `finalizeLandedCandidate` lands the candidate, one `landingRound` after the other.
- `closeLandedTask` publishes where the policy requires it, and closes the task.
- `runHubBatchMerge` imports the host branch and then takes the tasks in order.

What a flow brings is in `RunHubBatchMergeInput`: the tasks that were selected, the merge,
the verifier, the repair agent and the task closer. These may depend on the world, so they
may answer differently each time. The events that the source appends to the run's log, the
lifecycle statuses other than closed, and the checkout projections do not enter a result
here and are left out.
-/

set_option autoImplicit false

namespace ArchLoop

open ArchLoop.Lib

/-! ### Tasks and results -/

/-- The part of `HubTaskProjection` that a merge reads. `blockers` is what
`readTaskBlockers` finds in the metadata. -/
structure HubTaskProjection where
  id : TaskId
  title : String := ""
  hubStatus : HubTaskStatus := .waitingForMerge
  blockers : List TaskId := []
  claimBranch : Option String := none
  deriving DecidableEq, Repr

/-- `resolveBranch`. -/
def HubTaskProjection.branch (task : HubTaskProjection) : String :=
  task.claimBranch.getD (resolveHubTaskBranch task.id task.title)

/-- The outcomes of a merged task. An unresolved merge conflict is a `mergeFailed`. -/
inductive HubBatchMergeOutcome where
  | merged
  | pending
  | pendingDelivery
  | mergeFailed
  | verificationFailed
  | closeFailed
  | skipped
  deriving DecidableEq, Repr

/-- The reasons that go with an outcome. -/
inductive HubBatchMergeReason where
  | queueHeadBlocked
  | targetQuietWait
  | unshippedPrerequisite
  | verificationFailed
  | completedWithPendingDelivery
  | hostContribution (reason : HubHostContributionPendingReason)
  deriving DecidableEq, Repr

/-- `HubBatchMergeTaskResult`. The oids of its landing identity are those of `landing`. -/
structure HubBatchMergeTaskResult where
  taskId : TaskId
  branch : String
  outcome : HubBatchMergeOutcome
  reason : Option HubBatchMergeReason := none
  diagnosticSummary : Option String := none
  landing : Option HubLandingCandidate := none
  fifoPosition : Option Nat := none
  deriving DecidableEq, Repr

/-- An agent in a worktree, or the verifier: what it leaves there, and the message with which
it fails. It may depend on everything. -/
abbrev HubFlowAgent := HubWorld → HubWorktreeAgent

/-- The arguments of `runHubBatchMerge`.

- `board`: the task board; `selectedTasks`: the tasks of it that the selection took.
- `merge`: the merge of a task's branch in its worktree, with its conflict resolution.
- `closer`: the error with which the task store refuses a close.
- `deletesBranch`: the cleanup of task branches deletes them.
- `polls`: how many more delivery attempts fit before the timeout. -/
structure RunHubBatchMergeInput where
  board : List HubTaskProjection
  selectedTasks : List HubTaskProjection
  merge : HubTaskProjection → HubFlowAgent
  verifier : HubFlowAgent
  candidateRepairer : Option HubFlowAgent := none
  closer : HubWorld → Option String := fun _ => none
  deletesBranch : Bool := false
  polls : Nat := 0
  hostTargetBranch : String := "main"
  call : HubCall := {}

/-- `MergeTaskSession`. `policy` is the one that the batch read or made. -/
structure MergeTaskSession where
  input : RunHubBatchMergeInput
  task : HubTaskProjection
  policy : HubLandingPolicy

namespace MergeTaskSession

variable (session : MergeTaskSession)

/-- The result of the session's task with an outcome. -/
def result (outcome : HubBatchMergeOutcome) (candidate : Option HubLandingCandidate)
    (diagnosticSummary : Option String := none)
    (reason : Option HubBatchMergeReason := none) : HubBatchMergeTaskResult where
  taskId := session.task.id
  branch := session.task.branch
  outcome := outcome
  reason := reason
  diagnosticSummary := diagnosticSummary
  landing := candidate

end MergeTaskSession

/-- `cleanup().catch(() => undefined)`. -/
def cleanupQuietly (candidate : HubLandingCandidate) : Hub Unit :=
  (cleanupHubLandingCandidate candidate).tryCatch fun _ => return ()

/-- `failLandedCandidate`: the worktree goes, and a transient error leaves the task pending. -/
def failLandedCandidate (session : MergeTaskSession) (candidate : HubLandingCandidate)
    (e : HubError) : Hub HubBatchMergeTaskResult := do
  cleanupQuietly candidate
  if isTransientHubLandingError e then
    return session.result .pending (some candidate) (some e.message)
  else
    return session.result .mergeFailed (some candidate) (some e.message)

/-- `settleUnsuccessfulMerge`. -/
def settleUnsuccessfulMerge (session : MergeTaskSession) (e : HubError) :
    HubBatchMergeTaskResult :=
  if isTransientHubLandingError e then session.result .pending none (some e.message)
  else session.result .mergeFailed none (some e.message)

/-! ### Candidates -/

/-- The candidate of the task on a base, or on the publish target. -/
def createTaskCandidate (git : Git) (session : MergeTaskSession) (predecessorOid : Option Oid) :
    Hub HubLandingCandidate := do
  let merge ← Prog.reads fun s => session.input.merge session.task s
  createHubLandingCandidate git
    { taskId := session.task.id, branch := session.task.branch
      hostTargetBranch := session.input.hostTargetBranch, baseOid := predecessorOid
      merge := some merge, call := session.input.call }

/-- The `catch` of `createHubFlowRunMerger`: the worktree of a failed merge is removed. -/
def removeFailedWorktree : HubError → Hub Unit
  | .worktree transactionId _ => removeWorktree transactionId
  | _ => return ()

/-- `createHubFlowRunMerger`: the candidate, or the error that the merge ended with. -/
def mergeTask (git : Git) (session : MergeTaskSession) (predecessorOid : Option Oid) :
    Hub (Except HubError HubLandingCandidate) := do
  match ← (createTaskCandidate git session predecessorOid).attempt with
  | .ok candidate => return .ok candidate
  | .error e =>
    removeFailedWorktree e
    return .error e

/-! ### Verification -/

/-- Runs the flow's verifier in the worktree of the transaction. A missing worktree is an
error of the verifier. -/
def runVerifier (verifier : HubFlowAgent) (transactionId : TransactionId) : Hub (Option String) :=
  .act
    (fun s =>
      match s.worktree transactionId with
      | some w =>
        { s with
          worktree := Function.update s.worktree transactionId (some (verifier s w).1)
          trace := s.trace ++ [.verifierRun transactionId w (verifier s w).2.isNone] }
      | none => s)
    (fun s => .ret <|
      match s.worktree transactionId with
      | some w => (verifier s w).2
      | none => some "spawn ENOENT")

/-- Runs the repair agent in the worktree of the transaction. -/
def runCandidateRepairer (repairer : HubFlowAgent) (transactionId : TransactionId) :
    Hub (Option String) :=
  .act
    (fun s =>
      { s with
        worktree := Function.update s.worktree transactionId
          ((s.worktree transactionId).map fun w => (repairer s w).1) })
    (fun s => .ret ((s.worktree transactionId).bind fun w => (repairer s w).2))

/-- What `verifyWithBoundedRepair` returns. -/
inductive VerifyOutcome where
  | verified (candidate : HubLandingCandidate)
  | failed (result : HubBatchMergeTaskResult)
  deriving DecidableEq, Repr

/-- `exhaustVerificationRepair`. -/
def exhaustVerificationRepair (session : MergeTaskSession) (candidate : HubLandingCandidate)
    (message : String) : Hub VerifyOutcome := do
  cleanupQuietly candidate
  return .failed <|
    session.result .verificationFailed (some candidate) (some message) (some .verificationFailed)

/-- The loop of `verifyWithBoundedRepair` after a verifier run that ended with `failure`. Each
pass uses up one attempt of the ledger, so `HUB_LANDING_REPAIR_BUDGET` passes are all there
are. -/
def repairLoop (git : Git) (session : MergeTaskSession) :
    Nat → HubLandingCandidate → Option String → Hub VerifyOutcome
  | _, candidate, none => return .verified candidate
  | 0, candidate, some message => exhaustVerificationRepair session candidate message
  | passes + 1, candidate, some message => do
    let remaining ← remainingVerificationRepairs session.task.id candidate.sourceOid
    match remaining, session.input.candidateRepairer with
    | _ + 1, some repairer =>
      recordVerificationRepair session.task.id candidate.sourceOid
      match ← runCandidateRepairer repairer candidate.transactionId with
      | some _ => repairLoop git session passes candidate (some message)
      | none =>
        let snapshot ← snapshotHubLandingCandidateGeneration git candidate
        let failure ← runVerifier session.input.verifier snapshot.transactionId
        repairLoop git session passes snapshot failure
    | _, _ => exhaustVerificationRepair session candidate message

/-- `verifyWithBoundedRepair`. -/
def verifyWithBoundedRepair (git : Git) (session : MergeTaskSession)
    (candidate : HubLandingCandidate) : Hub VerifyOutcome := do
  let failure ← runVerifier session.input.verifier candidate.transactionId
  repairLoop git session HUB_LANDING_REPAIR_BUDGET candidate failure

/-- `bindVerification`: the artifact of the candidate at hand, with the exit code that a
missing one stands for. -/
def bindVerification (git : Git) (session : MergeTaskSession) (candidate : HubLandingCandidate)
    (verifierFingerprint : String) : Hub Unit :=
  bindHubLandingVerification git
    { transactionId := candidate.transactionId, taskId := candidate.taskId
      candidateOid := candidate.candidateOid, verifierFingerprint := verifierFingerprint
      call := session.input.call }

/-! ### Landing -/

/-- `landWithLease`. -/
def landWithLease (git : Git) (session : MergeTaskSession) (candidate : HubLandingCandidate) :
    Hub HubLandingAttemptResult := do
  let parts ← computeHubVerifierParts
  landHubCandidateWithLease git session.policy
    { candidate := candidate, verifierFingerprint := parts.verifierFingerprint
      call := session.input.call }

/-- The end of one pass of the landing loop.

- `landed`, `failed`: the loop ends.
- `rebuilt`: the loop goes on with the rebuilt candidate. -/
inductive LandingRound where
  | landed (candidate : HubLandingCandidate)
  | failed (result : HubBatchMergeTaskResult)
  | rebuilt (candidate : HubLandingCandidate)
  deriving DecidableEq, Repr

/-- The message of a candidate that the queue does not let land. -/
def queueHeadBlockedMessage (taskId : TaskId) : String :=
  s!"Task {taskId} cannot overtake the FIFO queue head. {NO_RECOVER_SUFFIX}"

/-- The result of a candidate that the queue does not let land. -/
def queueHeadBlocked (session : MergeTaskSession) (candidate : HubLandingCandidate)
    (message : String) : LandingRound :=
  .failed (session.result .pending (some candidate) (some message) (some .queueHeadBlocked))

/-- The result of a candidate whose ticket waits for the target to be quiet. -/
def targetQuietWait (session : MergeTaskSession) (candidate : HubLandingCandidate)
    (message : String) : LandingRound :=
  .failed (session.result .pending (some candidate) (some message) (some .targetQuietWait))

/-- `rebuildOnTargetDrift` of the integration: the old worktree goes, and the task gets a
candidate on the same base, or on the publish target now. -/
def rebuildCandidate (git : Git) (session : MergeTaskSession) (predecessorOid : Option Oid)
    (candidate : HubLandingCandidate) : Hub HubLandingCandidate := do
  cleanupQuietly candidate
  createTaskCandidate git session predecessorOid

/-- `rebuildAfterTargetDrift`: a new candidate, verified like the first one. -/
def rebuildAfterTargetDrift (git : Git) (session : MergeTaskSession)
    (predecessorOid : Option Oid) (candidate : HubLandingCandidate)
    (verifierFingerprint : String) : Hub LandingRound := do
  invalidateHubLandingCandidate candidate.transactionId
  match ← (rebuildCandidate git session predecessorOid candidate).attempt with
  | .error e =>
    let result ← failLandedCandidate session candidate e
    return .failed result
  | .ok rebuilt =>
    match ← verifyWithBoundedRepair git session rebuilt with
    | .failed result => return .failed result
    | .verified verified =>
      bindVerification git session verified verifierFingerprint
      return .rebuilt verified

/-- The branch of the landing loop for a drifted target: the ticket enters the quiet wait
after enough rebuilds, else the drift is recorded, the speculative suffix withdrawn and the
candidate rebuilt. -/
def settleTargetDrift (git : Git) (session : MergeTaskSession) (predecessorOid : Option Oid)
    (candidate : HubLandingCandidate) (observedTargetOid : Oid) (verifierFingerprint : String) :
    Hub LandingRound := do
  if ← shouldEnterHubLandingQuietWait session.task.id then
    let _ticket ← enterHubLandingQuietWait session.task.id observedTargetOid session.input.call.now
    return targetQuietWait session candidate
      s!"Queue head {session.task.id} entered target_quiet_wait after repeated target drift. Later transactions cannot overtake this ticket. {NO_RECOVER_SUFFIX}"
  else
    let _ticket ← recordHubLandingDriftRebuild session.task.id observedTargetOid
      session.input.call.now
    let _invalidated ← invalidateHubLandingSpeculativeSuffix session.task.id "target_drift"
      session.input.call.now
    rebuildAfterTargetDrift git session predecessorOid candidate verifierFingerprint

/-- What the landing loop does with the result of an attempt. -/
def settleAttempt (git : Git) (session : MergeTaskSession) (predecessorOid : Option Oid)
    (candidate : HubLandingCandidate) (verifierFingerprint : String)
    (attempt : HubLandingAttemptResult) : Hub LandingRound :=
  match attempt.kind with
  | .landed _commit => do
    cleanupQuietly candidate
    let _ticket ← markHubLandingQueueLanded session.task.id
    return .landed candidate
  | .pending .pendingContention message => do
    cleanupQuietly candidate
    return .failed (session.result .pending (some candidate) (some message))
  | .pending .staleOwnerRejected message => do
    cleanupQuietly candidate
    return .failed (session.result .pending (some candidate) (some message))
  | .pending .notQueueHead message =>
    return queueHeadBlocked session candidate
      (if message = "" then queueHeadBlockedMessage session.task.id else message)
  | .pending .targetQuietWait message => return targetQuietWait session candidate message
  | .pending .targetDrift _message =>
    settleTargetDrift git session predecessorOid candidate attempt.oids.observedTargetOid
      verifierFingerprint

/-- The part of a pass behind the gate: one landing attempt. -/
def landingAttempt (git : Git) (session : MergeTaskSession) (predecessorOid : Option Oid)
    (verifierFingerprint : String) (candidate : HubLandingCandidate) : Hub LandingRound := do
  match ← (landWithLease git session candidate).attempt with
  | .error e =>
    let result ← failLandedCandidate session candidate e
    return .failed result
  | .ok attempt =>
    settleAttempt git session predecessorOid candidate verifierFingerprint attempt

/-- One pass of the loop of `finalizeLandedCandidate`. The gate is asked without a shipped
set. -/
def landingRound (git : Git) (session : MergeTaskSession) (predecessorOid : Option Oid)
    (verifierFingerprint : String) (candidate : HubLandingCandidate) : Hub LandingRound := do
  if ← canLandHubLandingTicket session.task.id none then
    landingAttempt git session predecessorOid verifierFingerprint candidate
  else
    return queueHeadBlocked session candidate (queueHeadBlockedMessage session.task.id)

/-- What `finalizeLandedCandidate` returns. -/
inductive FinalizeLandingResult where
  | landed (candidate : HubLandingCandidate)
  | failed (result : HubBatchMergeTaskResult)
  deriving DecidableEq, Repr

/-- The loop of `finalizeLandedCandidate`. Each rebuild counts up the ticket's drifts, and at
`HUB_LANDING_TARGET_DRIFT_REBUILD_LIMIT` a pass no longer rebuilds. -/
def landingLoop (git : Git) (session : MergeTaskSession) (predecessorOid : Option Oid)
    (verifierFingerprint : String) : Nat → HubLandingCandidate → Hub FinalizeLandingResult
  | 0, candidate =>
    throw (.error s!"Unexpected Hub landing attempt kind while finalizing {candidate.taskId}.")
  | rounds + 1, candidate => do
    match ← landingRound git session predecessorOid verifierFingerprint candidate with
    | .landed landed => return .landed landed
    | .failed result => return .failed result
    | .rebuilt rebuilt =>
      landingLoop git session predecessorOid verifierFingerprint rounds rebuilt

/-- Whether the ticket's quiet wait is over, or none was on. -/
def quietWaitOver (taskId : TaskId) (observedTargetOid : Oid) (now : Timestamp) : Hub Bool := do
  let resume ← resumeHubLandingQuietWaitIfStable taskId observedTargetOid now
  return resume ≠ .waiting

/-- `finalizeLandedCandidate`. -/
def finalizeLandedCandidate (git : Git) (session : MergeTaskSession)
    (predecessorOid : Option Oid) (verifierFingerprint : String)
    (candidate : HubLandingCandidate) : Hub FinalizeLandingResult := do
  if ← quietWaitOver session.task.id candidate.baseOid session.input.call.now then
    landingLoop git session predecessorOid verifierFingerprint
      (HUB_LANDING_TARGET_DRIFT_REBUILD_LIMIT + 1) candidate
  else
    return .failed <|
      session.result .pending (some candidate) (some "Retaining FIFO ticket in target_quiet_wait.")

/-! ### Closing -/

/-- `updateHubTaskStatus` to `publishing`, with the landing metadata. -/
def recordTaskPublishing (candidate : HubLandingCandidate) : Hub Unit :=
  .modify fun s =>
    { s with
      tasks := Function.update s.tasks candidate.taskId
        (some {
          closed := false, transactionId := some candidate.transactionId
          candidateOid := some candidate.candidateOid }) }

/-- `awaitRequiredPublicationBeforeClose`: holds the ticket in `publishing` while it publishes.
It returns a result when the delivery timed out. -/
def awaitRequiredPublicationBeforeClose (git : Git) (session : MergeTaskSession)
    (candidate : HubLandingCandidate) (policy : HubLandingPolicy) :
    Hub (Option HubBatchMergeTaskResult) := do
  recordTaskPublishing candidate
  let _ticket ← markHubLandingQueuePublishing session.task.id
  let _item ← enqueueHubPublication git policy candidate.transactionId session.task.id
    candidate.candidateOid session.input.call.now
  let _synced ← syncHubPublications git
  let outcome ← driveHubRequiredPublication git policy session.input.polls
  let _synced ← syncHubPublications git
  if outcome = .completedWithPendingDelivery then
    return some <|
      session.result .pendingDelivery (some candidate) none (some .completedWithPendingDelivery)
  else
    let _ticket ← markHubLandingQueueLanded session.task.id
    return none

/-- The wait for publication, which only the policy `required` asks for. -/
def awaitPublicationOf (git : Git) (session : MergeTaskSession) (candidate : HubLandingCandidate) :
    Option HubLandingPolicy → Hub (Option HubBatchMergeTaskResult)
  | some policy =>
    if policy.publishPolicy = .required then
      awaitRequiredPublicationBeforeClose git session candidate policy
    else return none
  | none => return none

/-- `recordTaskClosure`: the task store closes the task, or refuses. -/
def recordTaskClosure (session : MergeTaskSession) (candidate : HubLandingCandidate) :
    Hub Unit := do
  match ← Prog.reads session.input.closer with
  | some message => throw (.error message)
  | none =>
    closeTask
      { taskId := session.task.id, transactionId := candidate.transactionId
        candidateOid := candidate.candidateOid }

/-- `runTaskBranchCleanup`. -/
def runTaskBranchCleanup (session : MergeTaskSession) : Hub Unit :=
  if session.input.deletesBranch then
    .modify fun s => { s with branches := Function.update s.branches session.task.branch none }
  else return ()

/-- The part of `closeLandedTask` after the wait for publication. -/
def closePublishedTask (git : Git) (session : MergeTaskSession) (candidate : HubLandingCandidate)
    (policy : Option HubLandingPolicy) : Hub HubBatchMergeTaskResult := do
  recordTaskClosure session candidate
  recordHubLandingTaskClosed
    { taskId := session.task.id, transactionId := candidate.transactionId
      candidateOid := candidate.candidateOid }
  Prog.when (policy.map (·.publishPolicy) != some .required) do
    enqueueHubPublicationAfterShipped git candidate.transactionId session.task.id
      candidate.candidateOid session.input.call.now
    let _synced ← syncHubPublications git
  runTaskBranchCleanup session
  return session.result .merged (some candidate)

/-- `closeLandedTask`. -/
def closeLandedTask (git : Git) (session : MergeTaskSession) (candidate : HubLandingCandidate) :
    Hub HubBatchMergeTaskResult := do
  let policy ← readHubLandingPolicy
  (do
    match ← awaitPublicationOf git session candidate policy with
    | some pendingDelivery => return pendingDelivery
    | none => closePublishedTask git session candidate policy).tryCatch fun _ =>
      return session.result .closeFailed (some candidate)

/-! ### One task -/

/-- What a task without a candidate leaves in the queue: its ticket fails, and the
speculative suffix behind it is withdrawn. -/
def failQueueTicket (session : MergeTaskSession) : Hub Unit := do
  let _ticket ← markHubLandingQueueFailed session.task.id
  let _invalidated ← invalidateHubLandingSpeculativeSuffix session.task.id "predecessor_failure"
    session.input.call.now
  return ()

/-- The part of `processMergeTask` after a verified candidate: bind the artifact, land, and
close. -/
def landVerifiedTask (git : Git) (session : MergeTaskSession) (predecessorOid : Option Oid)
    (candidate : HubLandingCandidate) : Hub HubBatchMergeTaskResult := do
  let _ticket ← markHubLandingQueueVerified session.task.id
  let parts ← computeHubVerifierParts
  bindVerification git session candidate parts.verifierFingerprint
  match ← finalizeLandedCandidate git session predecessorOid parts.verifierFingerprint
      candidate with
  | .failed result => return result
  | .landed landed => closeLandedTask git session landed

/-- `processMergeTask`. -/
def processMergeTask (git : Git) (session : MergeTaskSession) (predecessorOid : Option Oid) :
    Hub HubBatchMergeTaskResult := do
  match ← mergeTask git session predecessorOid with
  | .error e =>
    failQueueTicket session
    return settleUnsuccessfulMerge session e
  | .ok candidate =>
    let _ticket ← recordHubLandingQueueCandidate candidate
    match ← verifyWithBoundedRepair git session candidate with
    | .failed result =>
      failQueueTicket session
      return result
    | .verified verified => landVerifiedTask git session predecessorOid verified

/-! ### The batch -/

/-- The tasks of the list, each after its blockers in the list where that is possible. -/
def orderTasks (selectedIds : List TaskId) :
    Nat → List HubTaskProjection → List HubTaskProjection → List HubTaskProjection
  | 0, _, ordered => ordered
  | count + 1, remaining, ordered =>
    let isReady := fun task : HubTaskProjection => task.blockers.all fun blockerId =>
      blockerId ∉ selectedIds || ordered.any (·.id == blockerId)
    match remaining.find? isReady with
    | some next => orderTasks selectedIds count (remaining.eraseP isReady) (ordered ++ [next])
    | none => orderTasks selectedIds count remaining.tail (ordered ++ remaining.head?.toList)

/-- `orderTasksByDependencies`. -/
def orderTasksByDependencies (tasks : List HubTaskProjection) : List HubTaskProjection :=
  orderTasks (tasks.map (·.id)) tasks.length tasks []

/-- `earlierQuietWaitTicket`. A task without a ticket comes behind all. -/
def earlierQuietWaitTicket (queue : Option HubLandingQueueState)
    (ticket : Option HubLandingQueueTicket) : Option HubLandingQueueTicket :=
  queue.bind fun q => q.tickets.find? fun entry =>
    entry.status == .targetQuietWait && ticket.all fun mine => entry.sequence < mine.sequence

/-- The ticket whose quiet wait holds the task's ticket up: the first one that waits, when
the task's own waits or an earlier one does. -/
def quietWaitHead (queue : Option HubLandingQueueState) (ticket : Option HubLandingQueueTicket) :
    Option HubLandingQueueTicket :=
  if ticket.map (·.status) = some .targetQuietWait ∨ (earlierQuietWaitTicket queue ticket).isSome
  then
    (queue.bind fun q => q.tickets.find? (·.status == .targetQuietWait)) <|> ticket
  else none

/-- The task is held up by a quiet wait that is still on. -/
def heldByQuietWait (session : MergeTaskSession) (queue : Option HubLandingQueueState)
    (ticket : Option HubLandingQueueTicket) : Hub (Option TaskId) :=
  match quietWaitHead queue ticket with
  | none => return none
  | some head => do
    let observedTargetOid ← revParse "publish target" fun s => s.publishTarget
    if ← quietWaitOver head.taskId observedTargetOid session.input.call.now then return none
    else return some head.taskId

/-- The result of a task behind a quiet wait (`quietWaitBlockExtras`). -/
def quietWaitBlocked (session : MergeTaskSession) (headTaskId : TaskId) :
    HubBatchMergeTaskResult :=
  if session.task.id = headTaskId then
    session.result .pending none (some "Retaining FIFO ticket in target_quiet_wait.")
      (some .targetQuietWait)
  else
    session.result .pending none
      (some s!"Waiting for FIFO queue head {headTaskId} in target_quiet_wait.")
      (some .queueHeadBlocked)

/-- How the turn of a task ends: whether the batch processed it, or passed over it. -/
inductive TaskTurn where
  | processed (result : HubBatchMergeTaskResult)
  | passed (result : HubBatchMergeTaskResult)
  deriving DecidableEq, Repr

/-- The turn of one task in `runHubBatchMerge`. -/
def taskTurn (git : Git) (session : MergeTaskSession) (shipped : List TaskId)
    (predecessorOid : Option Oid) : Hub TaskTurn := do
  let queue ← readHubLandingQueue
  let ticket := queue.bind (·.findTicket session.task.id)
  let fifoPosition := ticket.map (·.sequence)
  let unshippedBlockers := session.task.blockers.filter (· ∉ shipped)
  let waitingFor := ", ".intercalate unshippedBlockers
  if !unshippedBlockers.isEmpty then
    let _ticket ← markHubLandingQueueBlockedPrerequisite session.task.id
    return .passed {
      session.result .skipped none
        (some s!"Waiting for unshipped prerequisite {waitingFor}.")
        (some .unshippedPrerequisite) with fifoPosition := fifoPosition }
  else
    match ← heldByQuietWait session queue ticket with
    | some headTaskId =>
      return .passed { quietWaitBlocked session headTaskId with fifoPosition := fifoPosition }
    | none =>
      let result ← processMergeTask git session predecessorOid
      return .processed { result with fifoPosition := fifoPosition }

/-- The results of the tasks behind one whose ticket entered the quiet wait. -/
def behindQuietWait (input : RunHubBatchMergeInput) (policy : HubLandingPolicy)
    (headTaskId : TaskId) : List HubTaskProjection → Hub (List HubBatchMergeTaskResult)
  | [] => return []
  | task :: tasks => do
    let ticket ← findHubLandingQueueTicket task.id
    let session : MergeTaskSession := { input := input, task := task, policy := policy }
    let result := session.result .pending none
      (some s!"Waiting for FIFO queue head {headTaskId} in target_quiet_wait.")
      (some .queueHeadBlocked)
    let rest ← behindQuietWait input policy headTaskId tasks
    return { result with fifoPosition := ticket.map (·.sequence) } :: rest

/-- The loop of `runHubBatchMerge` over the ordered tasks. -/
def mergeTasks (git : Git) (input : RunHubBatchMergeInput) (policy : HubLandingPolicy) :
    List HubTaskProjection → List TaskId → Option Oid → Hub (List HubBatchMergeTaskResult)
  | [], _, _ => return []
  | task :: tasks, shipped, predecessorOid => do
    let session : MergeTaskSession := { input := input, task := task, policy := policy }
    match ← taskTurn git session shipped predecessorOid with
    | .passed result =>
      let rest ← mergeTasks git input policy tasks shipped predecessorOid
      return result :: rest
    | .processed result =>
      if result.reason = some .targetQuietWait then
        let rest ← behindQuietWait input policy task.id tasks
        return result :: rest
      else if result.outcome = .merged then
        let rest ← mergeTasks git input policy tasks (task.id :: shipped)
          (result.landing.map (·.candidateOid) <|> predecessorOid)
        return result :: rest
      else
        let rest ← mergeTasks git input policy tasks shipped predecessorOid
        return result :: rest

/-- The landing that a batch gives to the host contribution. -/
def landHostContribution (git : Git) (policy : HubLandingPolicy) (call : HubCall)
    (candidate : HubLandingCandidate) : Hub HubLandingAttemptKind := do
  let parts ← computeHubVerifierParts
  let attempt ← landHubCandidateWithLease git policy
    { candidate := candidate, verifierFingerprint := parts.verifierFingerprint, call := call }
  return attempt.kind

/-- The policy file, or the one that is made now. -/
def policyForMerge (git : Git) (input : RunHubBatchMergeInput) : Hub HubLandingPolicy := do
  match ← readHubLandingPolicy with
  | some policy => return policy
  | none => ensureHubLandingPolicy git input.call input.hostTargetBranch

/-- The tickets of the batch's tasks. -/
def ticketInputs (tasks : List HubTaskProjection) : List HubLandingQueueTaskInput :=
  tasks.map fun task => { taskId := task.id, blockerTaskIds := some task.blockers }

/-- The results of a batch whose host contribution is pending. -/
def hostContributionResults (input : RunHubBatchMergeInput) (policy : HubLandingPolicy)
    (contribution : HubHostContributionResult) (reason : HubHostContributionPendingReason)
    (tasks : List HubTaskProjection) : List HubBatchMergeTaskResult :=
  tasks.map fun task =>
    let session : MergeTaskSession := { input := input, task := task, policy := policy }
    session.result .pending none (some contribution.message) (some (.hostContribution reason))

/-- `runHubBatchMerge`: tickets, the host contribution, and then the tasks in order. -/
def runHubBatchMerge (git : Git) (input : RunHubBatchMergeInput) :
    Hub (List HubBatchMergeTaskResult) :=
  if input.selectedTasks.isEmpty then return []
  else do
    let orderedTasks := orderTasksByDependencies input.selectedTasks
    let policy ← policyForMerge git input
    let _queue ← assignHubLandingQueueTickets (ticketInputs orderedTasks) input.call.now
    let contribution ← reconcileHubHostTargetContribution git
      { policy := policy, call := input.call
        land := some (landHostContribution git policy input.call) }
    match contribution.pendingReason with
    | some reason =>
      return hostContributionResults input policy contribution reason orderedTasks
    | none =>
      let shipped := (input.board.filter fun task => isCompletedHubStatus task.hubStatus).map (·.id)
      mergeTasks git input policy orderedTasks shipped
        (contribution.commit.map (·.candidateOid))

end ArchLoop
