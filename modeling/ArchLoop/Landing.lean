import ArchLoop.Publication

/-!
# `ArchLoop.Landing`: one candidate, from its worktree to the publish target

The model of `hubLanding.ts`. Each `Hub` program takes one atomic step for each file or ref that
the source reads or writes, in the order of the source.

- `createHubLandingCandidate` builds a candidate commit, or restores the one that a crashed
  run left behind.
- `snapshotHubLandingCandidateGeneration` records a new candidate when the worktree moved.
- `bindHubLandingVerification` writes the verification artifact of a candidate, and
  `assertVerifiedCandidate` checks it.
- `commitHubLandingTarget` moves the publish target in one fenced ref transaction.
- `cleanupHubLandingCandidate` and `closeHubLandingTask` finish the transaction.

The fault injection of the source stops a function before or after a side effect. The model
needs no such points, because a program can stop after any of its steps.
-/

set_option autoImplicit false

namespace ArchLoop

open ArchLoop.Lib

/-- `HUB_HOST_CONTRIBUTION_TASK_ID`: the task id under which commits of the host branch
land. It is not a Beads task. -/
def HUB_HOST_CONTRIBUTION_TASK_ID : TaskId := "hub-host-contribution"

/-- Whether a transaction belongs to a real Beads task. A missing task id counts as one. -/
def isHubLandingTaskBacked (taskId : Option TaskId) : Bool :=
  taskId != some HUB_HOST_CONTRIBUTION_TASK_ID

/-- `HUB_LANDING_INTEGRITY_INCIDENT`: the prefix of integrity messages. -/
def HUB_LANDING_INTEGRITY_INCIDENT : String := "landing_integrity_incident"

/-- `NO_RECOVER_SUFFIX`. -/
def NO_RECOVER_SUFFIX : String :=
  "This is not a task failure and does not require a recovery command."

/-- The close evidence names exactly this transaction and candidate. -/
def isMatchingHubLandingBeadsClose (evidence : Option HubLandingBeadsCloseEvidence)
    (transactionId : TransactionId) (candidateOid : Option Oid) : Bool :=
  match evidence, candidateOid with
  | some e, some oid => e.closed && e.transactionId == some transactionId && e.candidateOid == some oid
  | _, _ => false

/-! ### Candidates -/

/-- `git worktree remove --force`. -/
def removeWorktree (transactionId : TransactionId) : Hub Unit :=
  .modify fun s => { s with worktree := Function.update s.worktree transactionId none }

/-- `git worktree add --detach`, at the commit. -/
def addWorktree (transactionId : TransactionId) (oid : Oid) : Hub Unit :=
  .modify fun s =>
    { s with worktree := Function.update s.worktree transactionId (some { head := oid }) }

/-- Adds the candidate's worktree. One that is already there is used as it stands. -/
def ensureCandidateWorktree (transactionId : TransactionId) (candidateOid : Oid) : Hub Unit := do
  let existing ← Prog.reads fun s => s.worktree transactionId
  Prog.when existing.isNone (addWorktree transactionId candidateOid)

/-- `git update-ref` on the candidate ref. -/
def updateCandidateRef (transactionId : TransactionId) (oid : Oid) : Hub Unit :=
  .modify fun s =>
    { s with
      candidateRef := Function.update s.candidateRef transactionId (some oid)
      transactionIds := s.withTransaction transactionId }

/-- `readHubLandingCandidateManifest`. -/
def readHubLandingCandidateManifest (transactionId : TransactionId) :
    Hub (Option HubLandingCandidateManifest) :=
  .reads fun s => s.manifest transactionId

/-- The candidate that the ref or else the manifest records, unless the two or the journal
disagree. A missing ref is put back from the manifest. -/
def restoreCandidateFromEvidence (transactionId : TransactionId)
    (expectedCandidateOid : Option Oid) : Hub (Option Oid) := do
  let manifest ← readHubLandingCandidateManifest transactionId
  let refOid ← Prog.reads fun s => s.candidateRef transactionId
  match refOid <|> manifest.map (·.candidateOid) with
  | none => return none
  | some candidateOid =>
    if expectedCandidateOid.any (· != candidateOid) then
      return none
    else if (manifest.map (·.candidateOid)).any (· != candidateOid) then
      return none
    else if refOid.isNone then
      if ← Prog.reads fun s => s.hasObject candidateOid then
        updateCandidateRef transactionId candidateOid
        return some candidateOid
      else
        return none
    else
      return some candidateOid

/-- Writes the manifest, then the candidate ref. -/
def writeCandidateManifestAndRef (manifest : HubLandingCandidateManifest) : Hub Unit := do
  Prog.modify fun s =>
    { s with manifest := Function.update s.manifest manifest.transactionId (some manifest) }
  updateCandidateRef manifest.transactionId manifest.candidateOid

/-- Appends the `candidate_created` checkpoint of the manifest. -/
def recordCandidateCreatedCheckpoint (manifest : HubLandingCandidateManifest) : Hub Unit :=
  appendHubLandingCheckpoint
    { checkpoint := .candidateCreated
      transactionId := manifest.transactionId
      taskId := manifest.taskId
      sourceOid := some manifest.sourceOid
      baseOid := some manifest.baseOid
      candidateOid := some manifest.candidateOid }

/-- What an agent or a merge command does to a worktree. It may fail after changing it. -/
abbrev HubWorktreeAgent := HubWorktree → HubWorktree × Option String

/-- Runs an agent in the transaction's worktree, and throws the error that it ends with. -/
def runInWorktree (transactionId : TransactionId) (agent : HubWorktreeAgent) : Hub Unit :=
  .act
    (fun s =>
      { s with
        worktree := Function.update s.worktree transactionId
          ((s.worktree transactionId).map fun w => (agent w).1) })
    (fun s =>
      match (s.worktree transactionId).bind fun w => (agent w).2 with
      | some message => .raise (.error message)
      | none => .ret ())

/-- `stripAllowlistedBeadsRuntimeFromCandidate` in the transaction's worktree. -/
def stripAllowlistedBeadsRuntimeFromCandidate (git : Git) (transactionId : TransactionId)
    (baseOid : Oid) : Hub Unit :=
  .modify fun s =>
    { s with
      worktree := Function.update s.worktree transactionId
        ((s.worktree transactionId).map (git.stripBeadsRuntime baseOid)) }

/-- `git merge --no-ff` of a source commit, as an agent. -/
def mergeNoFf (git : Git) (branch : String) (sourceOid : Oid) : HubWorktreeAgent := fun w =>
  match git.merge w.head sourceOid with
  | some oid => ({ w with head := oid }, none)
  | none => ({ w with dirty := true }, some s!"git merge --no-ff {branch}: CONFLICT")

/-- The arguments of `createHubLandingCandidate`.

- `baseOid`: the commit to build on; the publish target when it is missing.
- `merge`: the merge to run in the worktree; `git merge --no-ff` when it is missing. -/
structure CreateHubLandingCandidateInput where
  taskId : TaskId
  branch : String
  hostTargetBranch : String := "main"
  baseOid : Option Oid := none
  merge : Option HubWorktreeAgent := none
  call : HubCall := {}

/-- The base of the candidate: the one passed in, or the publish target now. -/
def pinnedBaseOid (input : CreateHubLandingCandidateInput) : Hub Oid :=
  match input.baseOid with
  | some oid => return oid
  | none => revParse "publish target" fun s => s.publishTarget

/-- The merge of the source commit in the worktree. A failed merge of the caller keeps the
worktree and names it in the error; the default merge removes it. -/
def mergeInWorktree (git : Git) (input : CreateHubLandingCandidateInput)
    (transactionId : TransactionId) (sourceOid : Oid) : Hub Unit :=
  match input.merge with
  | some merge =>
    (runInWorktree transactionId merge).tryCatch fun e =>
      throw (.worktree transactionId e.message)
  | none =>
    (runInWorktree transactionId (mergeNoFf git input.branch sourceOid)).tryCatch fun e => do
      removeWorktree transactionId
      throw e

/-- Builds the candidate in a fresh worktree: `opened`, `base_pinned`, merge, strip,
manifest, ref and `candidate_created`. -/
def buildHubLandingCandidate (git : Git) (input : CreateHubLandingCandidateInput)
    (transactionId : TransactionId) (sourceOid baseOid : Oid) : Hub HubLandingCandidate := do
  appendHubLandingCheckpoint
    { checkpoint := .opened, transactionId := transactionId, taskId := input.taskId
      sourceOid := some sourceOid, baseOid := some baseOid }
  appendHubLandingCheckpoint
    { checkpoint := .basePinned, transactionId := transactionId, taskId := input.taskId
      sourceOid := some sourceOid, baseOid := some baseOid }
  let existing ← Prog.reads fun s => s.worktree transactionId
  Prog.when existing.isSome (removeWorktree transactionId)
  addWorktree transactionId baseOid
  mergeInWorktree git input transactionId sourceOid
  stripAllowlistedBeadsRuntimeFromCandidate git transactionId baseOid
  let candidateOid ← revParse "HEAD" fun s => (s.worktree transactionId).map (·.head)
  let manifest : HubLandingCandidateManifest :=
    { transactionId := transactionId, taskId := input.taskId, sourceOid := sourceOid
      baseOid := baseOid, candidateOid := candidateOid }
  writeCandidateManifestAndRef manifest
  recordCandidateCreatedCheckpoint manifest
  return {
    transactionId := transactionId, taskId := input.taskId, branch := input.branch
    sourceOid := sourceOid, baseOid := baseOid, candidateOid := candidateOid }

/-- Throws when the journal and the candidate ref name different candidates. -/
def throwIfJournalMismatch : Option Oid → Option Oid → Hub Unit
  | some oid, some ref => do
    if oid ≠ ref then
      throw (.error s!"{HUB_LANDING_INTEGRITY_INCIDENT}: journal candidate {oid} does not match ref {ref}.")
  | _, _ => return ()

/-- Restores the candidate of the source and base commit when a ref or a manifest records
one, else builds it. -/
def createHubLandingCandidate (git : Git) (input : CreateHubLandingCandidateInput) :
    Hub HubLandingCandidate := do
  let _policy ← ensureHubLandingPolicy git input.call input.hostTargetBranch
  let sourceOid ← revParse input.branch fun s => s.branches input.branch
  let baseOid ← pinnedBaseOid input
  let transactionId := resolveHubLandingTransactionId git input.taskId sourceOid baseOid
  let existing ← loadHubLandingTransaction transactionId
  let existingOid := existing.bind (·.candidateOid)
  let currentRefOid ← Prog.reads fun s => s.candidateRef transactionId
  throwIfJournalMismatch existingOid currentRefOid
  match ← restoreCandidateFromEvidence transactionId existingOid with
  | some candidateOid =>
    ensureCandidateWorktree transactionId candidateOid
    Prog.when (existingOid != some candidateOid) <|
      appendHubLandingCheckpoint
        { checkpoint := .candidateCreated, transactionId := transactionId
          taskId := input.taskId, sourceOid := some sourceOid, baseOid := some baseOid
          candidateOid := some candidateOid }
    return {
      transactionId := transactionId, taskId := input.taskId, branch := input.branch
      sourceOid := sourceOid, baseOid := baseOid, candidateOid := candidateOid }
  | none => buildHubLandingCandidate git input transactionId sourceOid baseOid

/-- Strips the worktree, and records its `HEAD` as the candidate when it has moved. -/
def snapshotHubLandingCandidateGeneration (git : Git) (candidate : HubLandingCandidate) :
    Hub HubLandingCandidate := do
  stripAllowlistedBeadsRuntimeFromCandidate git candidate.transactionId candidate.baseOid
  let candidateOid ← revParse "HEAD" fun s =>
    (s.worktree candidate.transactionId).map (·.head)
  if candidateOid = candidate.candidateOid then
    return candidate
  let manifest : HubLandingCandidateManifest :=
    { transactionId := candidate.transactionId, taskId := candidate.taskId
      sourceOid := candidate.sourceOid, baseOid := candidate.baseOid
      candidateOid := candidateOid }
  writeCandidateManifestAndRef manifest
  recordCandidateCreatedCheckpoint manifest
  return { candidate with candidateOid := candidateOid }

/-! ### Verification artifacts -/

/-- `computeHubVerifierParts`. -/
def computeHubVerifierParts : Hub HubVerifierFingerprintParts :=
  .reads fun s => s.verifier

/-- `hashVerificationArtifact`: the digest of the artifact without its own hash. -/
def hashVerificationArtifact (git : Git) (a : HubLandingVerificationArtifact) : String :=
  git.hashArtifact { a with artifactHash := none }

/-- The artifact is a successful one for the candidate and the verifier at hand. -/
def isReusableHubLandingVerificationArtifact (git : Git) (a : HubLandingVerificationArtifact)
    (candidateOid : Oid) (verifierFingerprint : String)
    (parts : HubVerifierFingerprintParts) : Bool :=
  a.candidateOid == candidateOid && a.verifierFingerprint == verifierFingerprint &&
    a.verifierConfigHash == some parts.verifierConfigHash &&
    a.runtimeFingerprint == some parts.runtimeFingerprint && a.exitCode == 0 &&
    a.artifactHash == some (hashVerificationArtifact git a)

/-- `recordCandidateVerifiedCheckpoint`. -/
def recordCandidateVerifiedCheckpoint (transactionId : TransactionId) (taskId : TaskId)
    (candidateOid : Oid) (verifierFingerprint : String) : Hub Unit :=
  appendHubLandingCheckpoint
    { checkpoint := .candidateVerified, transactionId := transactionId, taskId := taskId
      candidateOid := some candidateOid, verifierFingerprint := some verifierFingerprint }

/-- The arguments of `bindHubLandingVerification`. The callers pass the repository, so the
parts of the verifier are computed from it. -/
structure BindHubLandingVerificationInput where
  transactionId : TransactionId
  taskId : TaskId
  candidateOid : Oid
  verifierFingerprint : String
  exitCode : Option Int := none
  output : String := ""
  call : HubCall := {}

/-- The artifact that a binding writes. A missing exit code is written as `0`. -/
def newVerificationArtifact (git : Git) (input : BindHubLandingVerificationInput)
    (parts : HubVerifierFingerprintParts) : HubLandingVerificationArtifact :=
  let base : HubLandingVerificationArtifact :=
    { candidateOid := input.candidateOid
      verifierFingerprint := input.verifierFingerprint
      verifierConfigHash := some parts.verifierConfigHash
      runtimeFingerprint := some parts.runtimeFingerprint
      exitCode := input.exitCode.getD 0
      outputHash := git.sha256 input.output
      createdAt := input.call.now
      artifactHash := none }
  { base with artifactHash := some (hashVerificationArtifact git base) }

/-- Binds a verification result to the candidate. A successful artifact of the same
candidate and verifier is kept. -/
def bindHubLandingVerification (git : Git) (input : BindHubLandingVerificationInput) :
    Hub Unit := do
  let parts ← computeHubVerifierParts
  let existing ← Prog.reads fun s => s.artifact input.transactionId
  let reusable := existing.any fun a =>
    isReusableHubLandingVerificationArtifact git a input.candidateOid input.verifierFingerprint
      parts
  Prog.when (!reusable) <|
    Prog.modify fun s =>
      { s with
        artifact := Function.update s.artifact input.transactionId
          (some (newVerificationArtifact git input parts)) }
  recordCandidateVerifiedCheckpoint input.transactionId input.taskId input.candidateOid
    input.verifierFingerprint

/-- `invalidateHubLandingCandidate`: removes the artifact of the transaction. -/
def invalidateHubLandingCandidate (transactionId : TransactionId) : Hub Unit :=
  .modify fun s => { s with artifact := Function.update s.artifact transactionId none }

/-- The candidate has a successful artifact of the verifier with the fingerprint. -/
def HubWorld.VerifiedBy (s : HubWorld) (candidate : HubLandingCandidate)
    (verifierFingerprint : String) : Prop :=
  ∃ a, s.artifact candidate.transactionId = some a ∧ a.candidateOid = candidate.candidateOid ∧
    a.verifierFingerprint = verifierFingerprint ∧ a.exitCode = 0

/-- Throws unless the artifact on disk is a successful one of exactly this candidate and
this verifier. -/
def assertVerifiedCandidate (candidate : HubLandingCandidate) (verifierFingerprint : String) :
    Hub Unit := do
  match ← Prog.reads fun s => s.artifact candidate.transactionId with
  | none =>
    throw (.error s!"Unverified landing candidate {candidate.candidateOid} cannot advance the Hub publish target.")
  | some artifact =>
    if artifact.candidateOid ≠ candidate.candidateOid then
      throw (.error s!"Stale verification artifact for {candidate.transactionId}: artifact {artifact.candidateOid} does not match candidate {candidate.candidateOid}.")
    if artifact.verifierFingerprint ≠ verifierFingerprint then
      throw (.error s!"Stale verifier fingerprint for {candidate.transactionId}.")
    if artifact.exitCode ≠ 0 then
      throw (.error s!"Verification artifact for {candidate.transactionId} did not succeed.")

/-! ### The fenced commit -/

/-- The arguments of `commitHubLandingTarget`. -/
structure CommitHubLandingTargetInput where
  candidate : HubLandingCandidate
  verifierFingerprint : String
  expectedFenceOid : Option Oid := none
  ownerNonce : Option String := none
  call : HubCall := {}

/-- `HubLandingCommitResult`. -/
structure HubLandingCommitResult where
  transactionId : TransactionId
  candidateOid : Oid
  publishTargetOid : Oid
  fenceOid : Oid
  receiptOid : Oid
  deriving DecidableEq, Repr

/-- `readHubLandingReceipt`. -/
def readHubLandingReceipt (transactionId : TransactionId) : Hub (Option HubStoredReceipt) :=
  .reads fun s => s.receipt transactionId

/-- `toTargetLandedCommit`: appends `target_landed`, asks for the checkout to follow, and
returns the commit. -/
def toTargetLandedCommit (policy : HubLandingPolicy) (input : CommitHubLandingTargetInput)
    (fenceOid receiptOid publishTargetOid : Oid) : Hub HubLandingCommitResult := do
  let candidate := input.candidate
  appendHubLandingCheckpoint
    { checkpoint := .targetLanded
      transactionId := candidate.transactionId
      taskId := candidate.taskId
      sourceOid := some candidate.sourceOid
      baseOid := some candidate.baseOid
      candidateOid := some candidate.candidateOid
      verifierFingerprint := some input.verifierFingerprint
      publishTargetOid := some candidate.candidateOid
      fenceOid := some fenceOid
      receiptOid := some receiptOid }
  enqueueHubCheckoutProjection policy candidate.transactionId candidate.taskId
    candidate.candidateOid
  return {
    transactionId := candidate.transactionId, candidateOid := candidate.candidateOid
    publishTargetOid := publishTargetOid, fenceOid := fenceOid, receiptOid := receiptOid }

/-- The error of a target that is not at the candidate's base. -/
def targetDriftError (candidate : HubLandingCandidate) (oids : HubLandingOidEvidence) :
    HubError :=
  .pending .targetDrift
    s!"Hub publish target drifted before landing {candidate.transactionId}: expected {oids.expectedTargetOid}, found {oids.observedTargetOid}."
    oids

/-- The error of a fence that is not the expected one. -/
def staleOwnerError (candidate : HubLandingCandidate) (oids : HubLandingOidEvidence) :
    HubError :=
  .pending .staleOwnerRejected
    s!"Stale Hub landing owner rejected for {candidate.transactionId}: expected fence {oids.expectedFenceOid}, found {oids.observedFenceOid}."
    oids

/-- `throwIfPinnedLandingOidsMismatch`. -/
def throwIfPinnedLandingOidsMismatch (candidate : HubLandingCandidate)
    (oids : HubLandingOidEvidence) : Hub Unit := do
  if oids.observedTargetOid ≠ oids.expectedTargetOid then
    throw (targetDriftError candidate oids)
  if oids.observedFenceOid ≠ oids.expectedFenceOid then
    throw (staleOwnerError candidate oids)

/-- The error of `throwFromFailedLandingCas`: the fence is looked at first. -/
def failedLandingCasError (candidate : HubLandingCandidate) (oids : HubLandingOidEvidence) :
    HubError :=
  if oids.observedFenceOid ≠ oids.expectedFenceOid then staleOwnerError candidate oids
  else if oids.observedTargetOid ≠ oids.expectedTargetOid then targetDriftError candidate oids
  else .pending .pendingContention
    s!"Fenced Hub landing CAS failed for {candidate.transactionId}: update-ref --stdin" oids

/-- `update-ref --stdin` can take the three updates of a landing. -/
def HubWorld.refTransactionPasses (s : HubWorld) (candidate : HubLandingCandidate)
    (expectedTargetOid expectedFenceOid : Oid) : Bool :=
  !s.refsLocked && s.publishTarget == some expectedTargetOid &&
    s.fence == some expectedFenceOid && (s.receipt candidate.transactionId).isNone

/-- The world after the three updates: target, fence and receipt. -/
def HubWorld.landed (s : HubWorld) (candidate : HubLandingCandidate) (fenceOid : Oid)
    (receipt : HubStoredReceipt) : HubWorld :=
  { s with
    publishTarget := some candidate.candidateOid
    fence := some fenceOid
    receipt := Function.update s.receipt candidate.transactionId (some receipt)
    transactionIds := s.withTransaction candidate.transactionId
    trace := s.trace ++ [.refTransaction candidate] }

/-- `git update-ref --stdin` on the target, the fence and the receipt of the candidate: all
three updates or none. It returns whether they went through. -/
def updateRefs (candidate : HubLandingCandidate) (expectedTargetOid expectedFenceOid : Oid)
    (fenceOid : Oid) (receipt : HubStoredReceipt) : Hub Bool :=
  .act
    (fun s =>
      if s.refTransactionPasses candidate expectedTargetOid expectedFenceOid then
        s.landed candidate fenceOid receipt
      else s)
    (fun s => .ret (s.refTransactionPasses candidate expectedTargetOid expectedFenceOid))

/-- The receipt of a landing. -/
def landingReceipt (git : Git) (input : CommitHubLandingTargetInput) : HubStoredReceipt :=
  let receipt : HubLandingReceipt :=
    { transactionId := input.candidate.transactionId
      taskId := input.candidate.taskId
      candidateOid := input.candidate.candidateOid
      sourceOid := input.candidate.sourceOid
      baseOid := input.candidate.baseOid
      verifierFingerprint := input.verifierFingerprint
      landedAt := input.call.now }
  { receipt := receipt, oid := git.hashReceipt receipt }

/-- The branch of `commitHubLandingTarget` that finds a receipt: the transaction has landed
before, and the publish target still has to contain the candidate. -/
def commitExistingReceipt (git : Git) (policy : HubLandingPolicy)
    (input : CommitHubLandingTargetInput) (existing : HubStoredReceipt) :
    Hub HubLandingCommitResult := do
  let candidate := input.candidate
  if existing.receipt.candidateOid ≠ candidate.candidateOid then
    throw (.error s!"{HUB_LANDING_INTEGRITY_INCIDENT}: receipt {existing.receipt.candidateOid} does not match candidate {candidate.candidateOid}.")
  let fenceOid ← Prog.reads fun s => s.fence.getD existing.oid
  let publishTargetOid ← revParse "publish target" fun s => s.publishTarget
  let inAncestry ← Prog.reads fun s => s.isAncestor git candidate.candidateOid publishTargetOid
  if !inAncestry then
    throw (.error s!"{HUB_LANDING_INTEGRITY_INCIDENT}: landing receipt exists for {candidate.transactionId} but the Hub publish target no longer contains candidate {candidate.candidateOid}.")
  toTargetLandedCommit policy input fenceOid existing.oid publishTargetOid

/-- The branch of `commitHubLandingTarget` after a ref transaction that did not go through:
another call may have landed the same candidate meanwhile. -/
def recoverFailedLandingCas (policy : HubLandingPolicy) (input : CommitHubLandingTargetInput)
    (oids : HubLandingOidEvidence) : Hub HubLandingCommitResult := do
  let candidate := input.candidate
  let raced ← readHubLandingReceipt candidate.transactionId
  match raced.filter fun r => r.receipt.candidateOid == candidate.candidateOid with
  | some racedReceipt =>
    let publishTargetOid ← revParse "publish target" fun s => s.publishTarget
    let fenceAfter ← Prog.reads fun s => s.fence.getD racedReceipt.oid
    toTargetLandedCommit policy input fenceAfter racedReceipt.oid publishTargetOid
  | none =>
    let observedTargetOid ← Prog.reads fun s => s.publishTarget.getD oids.observedTargetOid
    let observedFenceOid ← Prog.reads fun s => s.fence.getD oids.observedFenceOid
    throw (failedLandingCasError candidate
      { oids with observedTargetOid := observedTargetOid, observedFenceOid := observedFenceOid })

/-- Lands the candidate: the publish target moves from the candidate's base to the
candidate, the fence is replaced and the receipt is created, in one ref transaction. -/
def commitHubLandingTarget (git : Git) (policy : HubLandingPolicy)
    (input : CommitHubLandingTargetInput) : Hub HubLandingCommitResult := do
  let candidate := input.candidate
  assertVerifiedCandidate candidate input.verifierFingerprint
  match ← readHubLandingReceipt candidate.transactionId with
  | some existing => commitExistingReceipt git policy input existing
  | none =>
    let observedTargetOid ← revParse "publish target" fun s => s.publishTarget
    let observedFenceOid ← revParse "fence" fun s => s.fence
    let oids : HubLandingOidEvidence :=
      { expectedTargetOid := candidate.baseOid
        observedTargetOid := observedTargetOid
        expectedFenceOid := input.expectedFenceOid.getD observedFenceOid
        observedFenceOid := observedFenceOid }
    throwIfPinnedLandingOidsMismatch candidate oids
    let receipt := landingReceipt git input
    let bootId ← Prog.reads fun s => s.processes.bootIdentity
    let fenceOid := git.hashFence
      { ownerNonce := input.ownerNonce.getD input.call.uuid
        pid := input.call.pid, bootId := bootId, createdAt := input.call.now }
    if ← updateRefs candidate oids.expectedTargetOid oids.expectedFenceOid fenceOid receipt then
      toTargetLandedCommit policy input fenceOid receipt.oid candidate.candidateOid
    else
      recoverFailedLandingCas policy input oids

/-- Only journals, the list of transactions and the checkout outbox differ. -/
def LandedWrite (s t : HubWorld) : Prop :=
  ∃ ids journal items,
    t = { s with transactionIds := ids, journal := journal, checkoutOutbox := items }

/-- Recording a landing changes only journals, the list of transactions and the checkout
outbox. -/
theorem toTargetLandedCommit_writes (policy : HubLandingPolicy)
    (input : CommitHubLandingTargetInput) (fenceOid receiptOid publishTargetOid : Oid) :
    (toTargetLandedCommit policy input fenceOid receiptOid publishTargetOid).Always
      LandedWrite := by
  refine Prog.always_bind ?_ fun _ => Prog.always_bind ?_ fun _ => Prog.always_ret _
  · refine (appendHubLandingCheckpoint_writes _).always.mono ?_
    rintro s _ ⟨ids, journal, rfl⟩
    exact ⟨ids, journal, s.checkoutOutbox, rfl⟩
  · refine (enqueueHubCheckoutProjection_writes _ _ _ _).always.mono ?_
    rintro s _ ⟨items, rfl⟩
    exact ⟨s.transactionIds, s.journal, items, rfl⟩

/-! ### Finishing a transaction -/

/-- `cleanupHubLandingCandidate`: removes the worktree and appends `cleaned`. -/
def cleanupHubLandingCandidate (candidate : HubLandingCandidate) : Hub Unit := do
  let existing ← Prog.reads fun s => s.worktree candidate.transactionId
  Prog.when existing.isSome (removeWorktree candidate.transactionId)
  appendHubLandingCheckpoint
    { checkpoint := .cleaned, transactionId := candidate.transactionId
      taskId := candidate.taskId, candidateOid := some candidate.candidateOid }

/-- `recordHubLandingTaskClosed`. -/
def recordHubLandingTaskClosed (input : HubLandingTaskCloseInput) : Hub Unit :=
  appendHubLandingCheckpoint
    { checkpoint := .taskClosed, transactionId := input.transactionId
      taskId := input.taskId, candidateOid := some input.candidateOid }

/-- The `HubLandingTaskCloser` of a run (`createHubLandingTaskCloser`): the task is closed
with the transaction and the candidate in its metadata. -/
def closeTask (input : HubLandingTaskCloseInput) : Hub Unit :=
  .modify fun s =>
    { s with
      tasks := Function.update s.tasks input.taskId
        (some {
          closed := true, transactionId := some input.transactionId
          candidateOid := some input.candidateOid })
      trace := s.trace ++ [.taskClose input] }

/-- `createHubLandingTaskCloseReader`. -/
def readTaskClose (taskId : TaskId) : Hub (Option HubLandingBeadsCloseEvidence) :=
  .reads fun s => s.tasks taskId

/-- The call of the task store, unless the task is closed with exactly this transaction and
candidate. -/
def closeTaskOnce (input : HubLandingTaskCloseInput) : Hub Unit := do
  let existing ← readTaskClose input.taskId
  Prog.when
    (!isMatchingHubLandingBeadsClose existing input.transactionId (some input.candidateOid))
    (closeTask input)

/-- Closes the task of a landed transaction, unless it is closed with exactly this
transaction and candidate, then appends `task_closed` and enqueues the publication. -/
def closeHubLandingTask (git : Git) (input : HubLandingTaskCloseInput) (now : Timestamp) :
    Hub Unit := do
  Prog.when (isHubLandingTaskBacked input.taskId) (closeTaskOnce input)
  recordHubLandingTaskClosed input
  enqueueHubPublicationAfterShipped git input.transactionId input.taskId input.candidateOid now

end ArchLoop
