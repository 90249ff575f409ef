import ArchLoop.Coordinator
import ArchLoop.Queue

/-!
# `ArchLoop.HostContribution`: commits of the host branch enter the publish target

The model of `reconcileHubHostTargetContribution` (`hubLandingQueue.ts`). A host branch that
is ahead of the publish target, or has diverged from it, is merged into the target like a
task: a candidate under `HUB_HOST_CONTRIBUTION_TASK_ID`, a verification artifact, and a
landing. The caller may pass its own verification and landing.

The snapshots of uncommitted host files that the source takes before and after are only
reported, so they are left out.
-/

set_option autoImplicit false

namespace ArchLoop

open ArchLoop.Lib

/-- How the host branch stands to the publish target. -/
inductive HubHostTargetRelation where
  | equal
  | behind
  | descendant
  | diverged
  deriving DecidableEq, Repr

/-- The text of a relation in messages. -/
def HubHostTargetRelation.text : HubHostTargetRelation → String
  | .equal => "equal"
  | .behind => "behind"
  | .descendant => "descendant"
  | .diverged => "diverged"

/-- `HubHostTargetClassification`. -/
structure HubHostTargetClassification where
  relation : HubHostTargetRelation
  hostOid : Oid
  targetOid : Oid
  deriving DecidableEq, Repr

/-- The relation of two commits, as the local repository sees it. -/
def HubWorld.hostTargetRelation (git : Git) (s : HubWorld) (hostOid targetOid : Oid) :
    HubHostTargetRelation :=
  if hostOid = targetOid then .equal
  else if s.isAncestor git hostOid targetOid then .behind
  else if s.isAncestor git targetOid hostOid then .descendant
  else .diverged

/-- `classifyHubHostTargetRelation`. -/
def classifyHubHostTargetRelation (git : Git) (policy : HubLandingPolicy) :
    Hub HubHostTargetClassification := do
  let hostOid ← revParse policy.hostTargetBranch fun s => s.branches policy.hostTargetBranch
  let targetOid ← revParse "publish target" fun s => s.publishTarget
  let relation ← Prog.reads fun s => s.hostTargetRelation git hostOid targetOid
  return { relation := relation, hostOid := hostOid, targetOid := targetOid }

/-- The pending reasons of a host contribution. -/
inductive HubHostContributionPendingReason where
  | conflict
  | pending
  deriving DecidableEq, Repr

/-- `HubHostContributionResult`. -/
structure HubHostContributionResult extends HubHostTargetClassification where
  imported : Bool
  candidate : Option HubLandingCandidate := none
  commit : Option HubLandingCommitResult := none
  pendingReason : Option HubHostContributionPendingReason := none
  message : String
  deriving DecidableEq, Repr

/-- The result makes the task candidates wait. -/
def HubHostContributionResult.pending (result : HubHostContributionResult) : Bool :=
  result.pendingReason.isSome

/-- `isHostContributionMergeConflict`. -/
def isHostContributionMergeConflict (e : HubError) : Bool :=
  textIncludes e.message.toLower "conflict"

/-- The arguments of `reconcileHubHostTargetContribution`.

- `verify`: the caller's verification; `defaultHostContributionVerify` when it is missing.
- `land`: the caller's landing; `defaultHostContributionLand` when it is missing. -/
structure HubHostContributionInput where
  policy : HubLandingPolicy
  call : HubCall := {}
  verify : Option (HubLandingCandidate → Hub Unit) := none
  land : Option (HubLandingCandidate → Hub HubLandingAttemptKind) := none

/-- `defaultHostContributionVerify`: binds an artifact with the exit code that a missing one
stands for. No verifier runs. -/
def defaultHostContributionVerify (git : Git) (call : HubCall) (fingerprint : String)
    (candidate : HubLandingCandidate) : Hub Unit :=
  bindHubLandingVerification git
    { transactionId := candidate.transactionId, taskId := candidate.taskId
      candidateOid := candidate.candidateOid, verifierFingerprint := fingerprint, call := call }

/-- `defaultHostContributionLand`. -/
def defaultHostContributionLand (git : Git) (policy : HubLandingPolicy) (call : HubCall)
    (fingerprint : String) (candidate : HubLandingCandidate) : Hub HubLandingAttemptKind := do
  let commit ← commitHubLandingTarget git policy
    { candidate := candidate, verifierFingerprint := fingerprint, call := call }
  return .landed commit

/-- The part of `reconcileHubHostTargetContribution` in its `try` block: build the candidate,
verify it, land it. -/
def importHostContribution (git : Git) (input : HubHostContributionInput)
    (classified : HubHostTargetClassification) : Hub HubHostContributionResult := do
  let candidate ← createHubLandingCandidate git
    { taskId := HUB_HOST_CONTRIBUTION_TASK_ID, branch := input.policy.hostTargetBranch
      baseOid := some classified.targetOid, call := input.call }
  let parts ← computeHubVerifierParts
  let fingerprint := parts.verifierFingerprint
  input.verify.getD (defaultHostContributionVerify git input.call fingerprint) candidate
  match ← input.land.getD
      (defaultHostContributionLand git input.policy input.call fingerprint) candidate with
  | .pending kind _message =>
    return {
      classified with
      imported := false, candidate := some candidate, pendingReason := some .pending
      message := s!"Host contribution for {input.policy.hostTargetBranch} is pending ({kind.text}). Task candidates wait until committed host work is in the canonical chain. {NO_RECOVER_SUFFIX}" }
  | .landed commit =>
    return {
      classified with
      imported := true, candidate := some candidate, commit := some commit
      message := s!"Imported committed host-target {classified.relation.text} tip {classified.hostOid} into the Hub publish target as {commit.candidateOid}." }

/-- The result of an import that threw. -/
def failedHostContribution (policy : HubLandingPolicy)
    (classified : HubHostTargetClassification) (e : HubError) : HubHostContributionResult :=
  if isHostContributionMergeConflict e then
    { classified with
      imported := false, pendingReason := some .conflict
      message := s!"Host contribution for {policy.hostTargetBranch} has a deterministic merge conflict into the Hub publish target: {e.message}. Resolve the conflict on the host target or publish target, then rerun the same flow (archloop run). Uncommitted host state was not imported. {NO_RECOVER_SUFFIX}" }
  else
    { classified with
      imported := false, pendingReason := some .pending
      message := s!"Host contribution for {policy.hostTargetBranch} could not be merged into the canonical chain: {e.message}. Uncommitted host state was not imported. {NO_RECOVER_SUFFIX}" }

/-- `reconcileHubHostTargetContribution` with a policy. -/
def reconcileHubHostTargetContribution (git : Git) (input : HubHostContributionInput) :
    Hub HubHostContributionResult := do
  let classified ← classifyHubHostTargetRelation git input.policy
  if classified.relation = .equal ∨ classified.relation = .behind then
    return {
      classified with
      imported := false
      message := s!"Host target {input.policy.hostTargetBranch} is {classified.relation.text} the Hub publish target; no committed host contribution to import." }
  else
    (importHostContribution git input classified).tryCatch fun e =>
      return failedHostContribution input.policy classified e

end ArchLoop
