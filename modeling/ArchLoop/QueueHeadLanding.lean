import ArchLoop.Coordinator
import ArchLoop.Queue

/-!
# `ArchLoop.QueueHeadLanding`: landing the queue head

The model of `coordinateHubQueueHeadLanding` (`hubLandingCoordinator.ts`). `prepareQueueHead` is
the part before its loop: the candidate and its ticket, the quiet wait, and the gate.
`queueHeadRound` is one landing attempt with what follows it, and `rebuildAfterDrift` the rest of
a pass whose target has drifted. `landQueueHead` is the loop. It is given the number of rebuilds
that it may make, and ends without a result when it asks for one more.

The policy is the one that the candidate carries. The backoff between two attempts changes nothing.
-/

set_option autoImplicit false

namespace ArchLoop

open ArchLoop.Lib

/-- `markHubLandingQueueAfterLocalLand`. -/
def markHubLandingQueueAfterLocalLand (taskId : TaskId)
    (publishPolicy : HubLandingPublishPolicy) : Hub (Option HubLandingQueueTicket) :=
  if publishPolicy = .required then markHubLandingQueuePublishing taskId
  else markHubLandingQueueLanded taskId

/-- The arguments of `coordinateHubQueueHeadLanding`. -/
structure CoordinateQueueHeadInput where
  taskId : TaskId
  branch : String
  verifierFingerprint : String
  candidate : Option HubLandingCandidate := none
  rebuild : Option (Hub HubLandingCandidate) := none
  verify : Option (HubLandingCandidate → Hub Unit) := none
  merge : Option HubWorktreeAgent := none
  shippedTaskIds : Option (TaskId → Bool) := none
  call : HubCall := {}

/-- `HubLandingCoordinatorResult`. -/
structure HubLandingCoordinatorResult where
  attempt : HubLandingAttemptResult
  ticket : Option HubLandingQueueTicket := none
  deriving DecidableEq, Repr

namespace CoordinateQueueHeadInput

variable (git : Git) (input : CoordinateQueueHeadInput)

/-- The candidate that the function builds by itself. -/
def createCandidate : Hub HubLandingCandidate :=
  createHubLandingCandidate git
    { taskId := input.taskId, branch := input.branch, merge := input.merge, call := input.call }

/-- The `verify` of the caller, or the binding of the candidate's verification. -/
def verifyCandidate (candidate : HubLandingCandidate) : Hub Unit :=
  match input.verify with
  | some verify => verify candidate
  | none =>
    bindHubLandingVerification git
      { transactionId := candidate.transactionId, taskId := candidate.taskId
        candidateOid := candidate.candidateOid
        verifierFingerprint := input.verifierFingerprint, call := input.call }

/-- `syncQueueCandidate`. -/
def syncQueueCandidate (candidate : HubLandingCandidate) : Hub Unit := do
  let _ticket ← updateTicket input.taskId
    (withCandidate candidate.sourceOid candidate.baseOid candidate.candidateOid
      candidate.transactionId)

/-- `rebuildVerifiedCandidate`. -/
def rebuildVerifiedCandidate : Hub HubLandingCandidate := do
  let next ← input.rebuild.getD (input.createCandidate git)
  input.verifyCandidate git next
  input.syncQueueCandidate next
  return next

end CoordinateQueueHeadInput

/-- `withFenceEvidence`. -/
def withFenceEvidence (kind : HubLandingPendingKind) (message : String)
    (candidate : HubLandingCandidate) (expectedOid observedOid : Oid) :
    HubLandingAttemptResult where
  kind := .pending kind message
  candidate := candidate
  oids := ⟨expectedOid, observedOid, expectedOid, observedOid⟩

/-- The message of a ticket that keeps waiting. -/
def retainingMessage (taskId : TaskId) : String :=
  s!"Retaining FIFO ticket for {taskId} in target_quiet_wait until the Hub publish target is stable. {NO_RECOVER_SUFFIX}"

/-- The message of a candidate behind a required delivery. -/
def predecessorMessage (taskId predecessorId : TaskId) : String :=
  s!"Task {taskId} cannot advance the ordered local delivery sequence before required predecessor {predecessorId} has remote ancestry proof. Successors may build and verify. {NO_RECOVER_SUFFIX}"

/-- The message of a candidate behind another queue head. -/
def overtakeMessage (taskId headTaskId : TaskId) : String :=
  s!"Task {taskId} cannot overtake FIFO queue head {headTaskId}. {NO_RECOVER_SUFFIX}"

/-- What the gate says about a candidate that may not land. -/
def notQueueHead (input : CoordinateQueueHeadInput) (candidate : HubLandingCandidate)
    (observedTarget : Oid) : Hub HubLandingCoordinatorResult := do
  match ← resolveRequiredDeliveryPredecessor input.taskId with
  | some predecessor =>
    return {
      attempt := withFenceEvidence .notQueueHead
        (predecessorMessage input.taskId predecessor.taskId) candidate candidate.baseOid
        observedTarget }
  | none =>
    let queue ← readHubLandingQueue
    let head := resolveHubLandingQueueHead queue (input.shippedTaskIds.getD fun _ => false)
    return {
      attempt := withFenceEvidence .notQueueHead
        (overtakeMessage input.taskId ((head.map (·.taskId)).getD "(unknown)")) candidate
        candidate.baseOid observedTarget }

/-- What the part before the loop leads to. -/
inductive QueueHeadStart where
  | returns (result : HubLandingCoordinatorResult)
  | lands (candidate : HubLandingCandidate)
  deriving DecidableEq, Repr

/-- The candidate of the call: the one passed in, or one that is built now. -/
def candidateForLanding (git : Git) (input : CoordinateQueueHeadInput) :
    Hub HubLandingCandidate :=
  match input.candidate with
  | some candidate => return candidate
  | none => input.createCandidate git

/-- The candidate gets its ticket. -/
def enqueueCandidate (git : Git) (input : CoordinateQueueHeadInput) :
    Hub HubLandingCandidate := do
  let candidate ← candidateForLanding git input
  input.verifyCandidate git candidate
  let _queue ← assignHubLandingQueueTickets
    [{ taskId := input.taskId, sourceOid := some candidate.sourceOid }] input.call.now
  input.syncQueueCandidate candidate
  return candidate

/-- The gate before the loop. -/
def gateQueueHead (input : CoordinateQueueHeadInput) (candidate : HubLandingCandidate)
    (observedTarget : Oid) : Hub QueueHeadStart := do
  if ← canLandHubLandingTicket input.taskId input.shippedTaskIds then return .lands candidate
  else
    let result ← notQueueHead input candidate observedTarget
    return .returns result

/-- The part of `coordinateHubQueueHeadLanding` before its loop. -/
def prepareQueueHead (git : Git) (input : CoordinateQueueHeadInput) : Hub QueueHeadStart := do
  let candidate ← enqueueCandidate git input
  let observedTarget ← revParse "publish target" fun s => s.publishTarget
  match ← resumeHubLandingQuietWaitIfStable input.taskId observedTarget input.call.now with
  | .waiting =>
    let ticket ← findHubLandingQueueTicket input.taskId
    return .returns
      { attempt := withFenceEvidence .targetQuietWait (retainingMessage input.taskId) candidate
          candidate.baseOid observedTarget
        ticket := ticket }
  | .resumed =>
    invalidateHubLandingCandidate candidate.transactionId
    let candidate ← input.rebuildVerifiedCandidate git
    gateQueueHead input candidate observedTarget
  | .notWaiting => gateQueueHead input candidate observedTarget

/-- The message of a ticket that begins to wait. -/
def enteredQuietWaitMessage (taskId : TaskId) : String :=
  s!"Queue head {taskId} entered target_quiet_wait after {HUB_LANDING_TARGET_DRIFT_REBUILD_LIMIT} immediate target-drift rebuilds. Later transactions cannot overtake this ticket. {NO_RECOVER_SUFFIX}"

/-- How one pass of the loop ends: with a result, or with a target that has drifted to an oid. -/
inductive QueueHeadRound where
  | returns (result : HubLandingCoordinatorResult)
  | drifted (observedTargetOid : Oid)
  deriving DecidableEq, Repr

/-- A landing attempt, and the quiet wait after enough rebuilds. -/
def queueHeadRound (git : Git) (policy : HubLandingPolicy) (input : CoordinateQueueHeadInput)
    (candidate : HubLandingCandidate) : Hub QueueHeadRound := do
  let outcome ← landHubCandidateWithLease git policy
    { candidate := candidate, verifierFingerprint := input.verifierFingerprint
      call := input.call }
  match outcome.kind with
  | .landed _ =>
    let _ticket ← markHubLandingQueueAfterLocalLand input.taskId policy.publishPolicy
    return .returns { attempt := outcome }
  | .pending .targetDrift _ =>
    if ← shouldEnterHubLandingQuietWait input.taskId then
      let ticket ← enterHubLandingQuietWait input.taskId outcome.oids.observedTargetOid
        input.call.now
      return .returns
        { attempt :=
            { kind := .pending .targetQuietWait (enteredQuietWaitMessage input.taskId)
              candidate := candidate
              oids := outcome.oids }
          ticket := ticket }
    else return .drifted outcome.oids.observedTargetOid
  | .pending _ _ => return .returns { attempt := outcome }

/-- The rest of a pass whose target has drifted. -/
def rebuildAfterDrift (git : Git) (input : CoordinateQueueHeadInput)
    (candidate : HubLandingCandidate) (observedTargetOid : Oid) : Hub HubLandingCandidate := do
  let _ticket ← recordHubLandingDriftRebuild input.taskId observedTargetOid input.call.now
  invalidateHubLandingCandidate candidate.transactionId
  let _invalidated ← invalidateHubLandingSpeculativeSuffix input.taskId "target_drift"
    input.call.now
  input.rebuildVerifiedCandidate git

/-- The loop of `coordinateHubQueueHeadLanding` with a number of rebuilds. -/
def landQueueHead (git : Git) (policy : HubLandingPolicy) (input : CoordinateQueueHeadInput) :
    Nat → HubLandingCandidate → Hub (Option HubLandingCoordinatorResult)
  | rebuilds, candidate => do
    match ← queueHeadRound git policy input candidate with
    | .returns result => return some result
    | .drifted observedTargetOid =>
      match rebuilds with
      | 0 => return none
      | rebuilds + 1 =>
        let next ← rebuildAfterDrift git input candidate observedTargetOid
        landQueueHead git policy input rebuilds next

/-- `coordinateHubQueueHeadLanding`, with the number of rebuilds that its loop may make. -/
def coordinateHubQueueHeadLanding (git : Git) (policy : HubLandingPolicy)
    (input : CoordinateQueueHeadInput) (rebuilds : Nat) :
    Hub (Option HubLandingCoordinatorResult) := do
  match ← prepareQueueHead git input with
  | .returns result => return some result
  | .lands candidate => landQueueHead git policy input rebuilds candidate

end ArchLoop
