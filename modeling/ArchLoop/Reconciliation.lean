import ArchLoop.LegacyHistory

/-!
# `ArchLoop.Reconciliation`: finishing landings from what they left behind

The model of `hubLandingReconciliation.ts`. `collectEvidence` puts together what the journal,
the manifest, the candidate ref, the artifact, the receipt, the publish target, the task
store and the worktree say about a transaction. `reconcileHubLandingTransactions` adopts the
legacy history, and then takes each transaction in turn: it writes the checkpoints that the
evidence proves, closes the task of a landed transaction, removes its worktree and asks for
checkout and publication.

The evidence of a transaction is one read here. The runs of this development reconcile in
one process, so nothing moves between the reads of the source. The callers pass the task
store's close reader and closer, so evidence never falls back to the journal's `task_closed`.
-/

set_option autoImplicit false

namespace ArchLoop

open ArchLoop.Lib

/-! ### Evidence -/

/-- `HubLandingTransactionEvidence`. -/
structure HubLandingTransactionEvidence where
  transactionId : TransactionId
  taskId : Option TaskId
  taskBacked : Bool
  journalCheckpoint : Option HubLandingCheckpoint
  evidenceCheckpoint : Option HubLandingCheckpoint
  sourceOid : Option Oid
  baseOid : Option Oid
  candidateOid : Option Oid
  verifierFingerprint : Option String
  verificationReusable : Bool
  landed : Bool
  closed : Bool
  cleaned : Bool
  worktreePresent : Bool
  receiptOid : Option Oid
  publishTargetOid : Option Oid
  integrityIncident : Option String
  pending : Bool
  nextAction : String
  deriving DecidableEq, Repr

/-- `pendingAction`. -/
def pendingAction : String :=
  "Wait for the automatic retry; Hub will resume from durable landing evidence."

/-- `integrityAction`. -/
def integrityAction : String :=
  "Inspect the candidate ref, landing receipt, verification artifact, and journal. Do not land or close the task again automatically."

/-- `maxCheckpoint`: the first checkpoint of highest rank. -/
def maxCheckpoint (checkpoints : List (Option HubLandingCheckpoint)) :
    Option HubLandingCheckpoint :=
  checkpoints.foldl
    (fun highest next => if rankOf next > rankOf highest then next else highest) none

/-- `candidateOidMismatchIncident`. -/
def candidateOidMismatchIncident (source : String) (recordedOid refOid : Option Oid) :
    Option String :=
  match recordedOid, refOid with
  | some recorded, some ref =>
    if recorded = ref then none
    else some s!"{HUB_LANDING_INTEGRITY_INCIDENT}: {source} candidate {recorded} does not match ref {ref}"
  | _, _ => none

/-- `isPendingReconciliation`. -/
def isPendingReconciliation (integrityIncident : Option String)
    (evidenceCheckpoint : Option HubLandingCheckpoint) (landed closed worktreePresent : Bool) :
    Bool :=
  if integrityIncident.isSome then false
  else if rankOf evidenceCheckpoint < rankOf (some .cleaned) then true
  else if landed && !closed then true
  else worktreePresent && (landed || closed)

namespace HubWorld

variable (git : Git) (s : HubWorld) (policy : Option HubLandingPolicy)
  (transactionId : TransactionId)

/-- The candidate that the ref, or else the manifest, or else the journal names. -/
def evidenceCandidateOid : Option Oid :=
  s.candidateRef transactionId <|> (s.manifest transactionId).map (·.candidateOid) <|>
    (s.transactionState transactionId).bind (·.candidateOid)

/-- The task that the journal, or else the manifest, or else the receipt names. -/
def evidenceTaskId : Option TaskId :=
  (s.transactionState transactionId).map (·.taskId) <|>
    (s.manifest transactionId).map (·.taskId) <|>
    (s.receipt transactionId).map (·.receipt.taskId)

/-- The publish target, as far as a policy names it. -/
def evidenceTargetOid : Option Oid :=
  policy.bind fun _ => s.publishTarget

/-- The publish target contains the candidate. -/
def candidateInTarget : Bool :=
  match s.evidenceCandidateOid transactionId, s.evidenceTargetOid policy with
  | some candidateOid, some targetOid => s.isAncestor git candidateOid targetOid
  | _, _ => false

/-- The incident of a receipt that names another candidate. -/
def receiptMismatchIncident : Option String :=
  match s.receipt transactionId, s.evidenceCandidateOid transactionId with
  | some stored, some candidateOid =>
    if stored.receipt.candidateOid = candidateOid then none
    else some s!"{HUB_LANDING_INTEGRITY_INCIDENT}: receipt candidate {stored.receipt.candidateOid} does not match {candidateOid}"
  | _, _ => none

/-- The incident of a receipt whose candidate has left the publish target. -/
def receiptLostIncident : Option String :=
  match s.receipt transactionId with
  | some stored =>
    if s.candidateInTarget git policy transactionId then none
    else some s!"{HUB_LANDING_INTEGRITY_INCIDENT}: landing receipt exists but the Hub publish target no longer contains candidate {stored.receipt.candidateOid}"
  | none => none

/-- The incident that the evidence shows. A later check of the source wins over an earlier
one. -/
def integrityIncident : Option String :=
  let refOid := s.candidateRef transactionId
  s.receiptLostIncident git policy transactionId <|>
    s.receiptMismatchIncident transactionId <|>
    candidateOidMismatchIncident "journal"
      ((s.transactionState transactionId).bind (·.candidateOid)) refOid <|>
    candidateOidMismatchIncident "manifest"
      ((s.manifest transactionId).map (·.candidateOid)) refOid

/-- The artifact is a successful one for the candidate and the verifier now. -/
def verificationReusable : Bool :=
  match s.evidenceCandidateOid transactionId, s.artifact transactionId with
  | some candidateOid, some artifact =>
    isReusableHubLandingVerificationArtifact git artifact candidateOid
      s.verifier.verifierFingerprint s.verifier
  | _, _ => false

/-- The transaction landed: a receipt, in the target, without an incident. -/
def landedEvidence : Bool :=
  (s.receipt transactionId).isSome && s.candidateInTarget git policy transactionId &&
    (s.integrityIncident git policy transactionId).isNone

/-- `isMatchingHubLandingBeadsClose` for the task of the evidence. -/
def closedFromBeads : Bool :=
  match s.evidenceTaskId transactionId with
  | some taskId =>
    isHubLandingTaskBacked (some taskId) &&
      isMatchingHubLandingBeadsClose (s.tasks taskId) transactionId
        (s.evidenceCandidateOid transactionId <|>
          (s.receipt transactionId).map (·.receipt.candidateOid))
  | none => false

/-- The rank of the journal's checkpoint. -/
def journalRank : Nat :=
  rankOf ((s.transactionState transactionId).map (·.checkpoint))

/-- `isInternallyClosedHostContribution`. -/
def closedFromHostContribution : Bool :=
  !isHubLandingTaskBacked (s.evidenceTaskId transactionId) &&
    (s.landedEvidence git policy transactionId ||
      decide (s.journalRank transactionId ≥ rankOf (some .taskClosed)))

/-- The task of the transaction is closed. -/
def closedEvidence : Bool :=
  s.closedFromBeads transactionId || s.closedFromHostContribution git policy transactionId

/-- The transaction is cleaned up. -/
def cleanedEvidence : Bool :=
  (s.worktree transactionId).isNone &&
    (s.landedEvidence git policy transactionId || s.closedEvidence git policy transactionId ||
      (s.transactionState transactionId).map (·.checkpoint) == some .cleaned)

/-- The highest checkpoint that the evidence proves. -/
def evidenceCheckpoint : Option HubLandingCheckpoint :=
  maxCheckpoint [
    (s.transactionState transactionId).map (·.checkpoint),
    if (s.evidenceCandidateOid transactionId).isSome then some .candidateCreated else none,
    if s.verificationReusable git transactionId then some .candidateVerified else none,
    if s.landedEvidence git policy transactionId then some .targetLanded else none,
    if s.closedEvidence git policy transactionId then some .taskClosed else none,
    if s.cleanedEvidence git policy transactionId then some .cleaned else none]

/-- `collectEvidence`. -/
def collectEvidence : HubLandingTransactionEvidence :=
  let journal := s.transactionState transactionId
  let manifest := s.manifest transactionId
  let incident := s.integrityIncident git policy transactionId
  let landed := s.landedEvidence git policy transactionId
  let closed := s.closedEvidence git policy transactionId
  let worktreePresent := (s.worktree transactionId).isSome
  let checkpoint := s.evidenceCheckpoint git policy transactionId
  { transactionId := transactionId
    taskId := s.evidenceTaskId transactionId
    taskBacked := isHubLandingTaskBacked (s.evidenceTaskId transactionId)
    journalCheckpoint := journal.map (·.checkpoint)
    evidenceCheckpoint := checkpoint
    sourceOid := journal.bind (·.sourceOid) <|> manifest.map (·.sourceOid)
    baseOid := journal.bind (·.baseOid) <|> manifest.map (·.baseOid)
    candidateOid := s.evidenceCandidateOid transactionId
    verifierFingerprint :=
      if s.verificationReusable git transactionId then some s.verifier.verifierFingerprint
      else journal.bind (·.verifierFingerprint)
    verificationReusable := s.verificationReusable git transactionId
    landed := landed
    closed := closed
    cleaned := s.cleanedEvidence git policy transactionId
    worktreePresent := worktreePresent
    receiptOid := (s.receipt transactionId).map (·.oid)
    publishTargetOid := s.evidenceTargetOid policy
    integrityIncident := incident
    pending := isPendingReconciliation incident checkpoint landed closed worktreePresent
    nextAction := if incident.isSome then integrityAction else pendingAction }

/-- `listHubLandingTransactionIds`. -/
def listHubLandingTransactionIds : List TransactionId :=
  s.transactionIds.insertionSort (· ≤ ·)

/-- The evidence of all transactions. -/
def collectAllEvidence : List HubLandingTransactionEvidence :=
  s.listHubLandingTransactionIds.map fun id => s.collectEvidence git policy id

end HubWorld

/-- `taskIdsFromTransactions`. -/
def taskIdsFromTransactions (transactions : List HubLandingTransactionEvidence) : List TaskId :=
  transactions.filterMap (·.taskId)

/-! ### Outcomes -/

/-- `HubLandingReconciliationKind`. -/
inductive HubLandingReconciliationKind where
  | clean
  | pending
  | reconciled
  | integrityIncident
  deriving DecidableEq, Repr

/-- `HubLandingReconciliationOutcome`. -/
structure HubLandingReconciliationOutcome where
  kind : HubLandingReconciliationKind
  transactions : List HubLandingTransactionEvidence
  pendingCount : Nat
  reconstructedCount : Nat
  integrityIncident : Option String := none
  message : String
  nextAction : String
  legacyHistory : List HubLegacyLandingEvidence
  deriving DecidableEq, Repr

/-- `transactionMessage`. -/
def transactionMessage (e : HubLandingTransactionEvidence) : String :=
  match e.integrityIncident with
  | some incident =>
    s!"Hub landing integrity incident for {e.transactionId}: {incident} {NO_RECOVER_SUFFIX}"
  | none =>
    if e.pending then
      let checkpoint := (e.evidenceCheckpoint <|> e.journalCheckpoint).getD .opened
      s!"Hub landing transaction {e.transactionId} is pending reconciliation at {checkpoint.text}. Automatic retry will resume from durable evidence. {NO_RECOVER_SUFFIX}"
    else s!"Hub landing transaction {e.transactionId} is complete."

/-- `summarize`: an incident of a transaction comes first, then one of the legacy history,
then pending transactions, then reconstructed checkpoints. -/
def summarize (transactions : List HubLandingTransactionEvidence) (reconstructedCount : Nat)
    (legacyHistory : List HubLegacyLandingEvidence) : HubLandingReconciliationOutcome :=
  let pendingCount := transactions.countP (·.pending)
  match transactions.find? (·.integrityIncident.isSome),
      legacyHistory.find? (·.integrityIncident.isSome), transactions.find? (·.pending) with
  | some incident, _, _ =>
    { kind := .integrityIncident, transactions, pendingCount, reconstructedCount
      integrityIncident := incident.integrityIncident
      message := transactionMessage incident, nextAction := integrityAction, legacyHistory }
  | none, some legacyIncident, _ =>
    { kind := .integrityIncident, transactions, pendingCount, reconstructedCount
      integrityIncident := legacyIncident.integrityIncident
      message := legacyIncident.message, nextAction := legacyIncident.nextAction, legacyHistory }
  | none, none, some pending =>
    { kind := .pending, transactions, pendingCount, reconstructedCount
      message := transactionMessage pending, nextAction := pendingAction, legacyHistory }
  | none, none, none =>
    if reconstructedCount > 0 then
      { kind := .reconciled, transactions, pendingCount, reconstructedCount
        message := s!"Reconstructed {reconstructedCount} Hub landing checkpoint(s) from durable evidence. {NO_RECOVER_SUFFIX}"
        nextAction := pendingAction, legacyHistory }
    else
      { kind := .clean, transactions, pendingCount, reconstructedCount
        message := ((legacyHistory.find? (·.accepted)).map (·.message)).getD
          s!"No incomplete Hub landing transactions. {NO_RECOVER_SUFFIX}"
        nextAction := pendingAction, legacyHistory }

/-! ### Reconciling -/

/-- The arguments of a reconciliation. -/
structure HubLandingReconciliationInput extends HubLegacyLandingInput where
  hostTargetBranch : String := "main"
  call : HubCall := {}

/-- The checkpoints that the evidence proves one by one. -/
def provenCheckpoints (evidence : HubLandingTransactionEvidence) : List HubLandingCheckpoint :=
  [.opened, .basePinned] ++
    (if evidence.candidateOid.isSome then [.candidateCreated] else []) ++
    (if evidence.verificationReusable then [.candidateVerified] else []) ++
    (if evidence.landed then [.targetLanded] else []) ++
    (if evidence.closed then [.taskClosed] else []) ++
    (if evidence.cleaned then [.cleaned] else [])

/-- The proven checkpoints that the journal does not reach yet. -/
def checkpointWrites (evidence : HubLandingTransactionEvidence)
    (journal : Option HubLandingTransactionState) : List HubLandingCheckpoint :=
  (provenCheckpoints evidence).filter fun checkpoint =>
    rankOf (journal.map (·.checkpoint)) < rankOf (some checkpoint) &&
      rankOf (some checkpoint) ≤ rankOf evidence.evidenceCheckpoint

/-- The record of a reconstructed checkpoint. -/
def reconstructedRecord (evidence : HubLandingTransactionEvidence) (taskId : TaskId)
    (checkpoint : HubLandingCheckpoint) : HubLandingTransactionRecord where
  checkpoint := checkpoint
  transactionId := evidence.transactionId
  taskId := taskId
  sourceOid := evidence.sourceOid
  baseOid := evidence.baseOid
  candidateOid := evidence.candidateOid
  verifierFingerprint := evidence.verifierFingerprint
  publishTargetOid :=
    if evidence.landed then evidence.candidateOid else evidence.publishTargetOid
  receiptOid := evidence.receiptOid

/-- Appends the records one after the other. -/
def appendRecords : List HubLandingTransactionRecord → Hub Unit
  | [] => return ()
  | record :: records => do
    appendHubLandingCheckpoint record
    appendRecords records

/-- `reconstructCheckpoints`: appends what the journal lacks, and returns how much that was. -/
def reconstructCheckpoints (evidence : HubLandingTransactionEvidence)
    (journal : Option HubLandingTransactionState) : Hub Nat :=
  match evidence.integrityIncident, evidence.taskId, evidence.evidenceCheckpoint with
  | none, some taskId, some _ => do
    let writes := checkpointWrites evidence journal
    appendRecords (writes.map (reconstructedRecord evidence taskId))
    return writes.length
  | _, _, _ => return 0

/-- `toCandidate`, when the evidence names a task and a candidate. -/
def toCandidate (evidence : HubLandingTransactionEvidence) : Option HubLandingCandidate :=
  match evidence.taskId, evidence.candidateOid with
  | some taskId, some candidateOid =>
    some {
      transactionId := evidence.transactionId, taskId := taskId, branch := ""
      sourceOid := evidence.sourceOid.getD "", baseOid := evidence.baseOid.getD ""
      candidateOid := candidateOid }
  | _, _ => none

/-- Closes the task of a landed transaction that is not closed. -/
def closeLanded (git : Git) (call : HubCall) (evidence : HubLandingTransactionEvidence)
    (candidate : HubLandingCandidate) : Hub Unit :=
  if evidence.landed && !evidence.closed then
    closeHubLandingTask git
      { taskId := candidate.taskId, transactionId := candidate.transactionId
        candidateOid := candidate.candidateOid } call.now
  else return ()

/-- Removes the worktree of a landed or closed transaction. -/
def cleanupFinished (evidence : HubLandingTransactionEvidence) (candidate : HubLandingCandidate) :
    Hub Unit :=
  if evidence.worktreePresent && (evidence.landed || evidence.closed) then
    cleanupHubLandingCandidate candidate
  else return ()

/-- Asks for checkout and publication of a landed candidate. -/
def projectLanded (git : Git) (policy : HubLandingPolicy) (call : HubCall)
    (evidence : HubLandingTransactionEvidence) (candidate : HubLandingCandidate) : Hub Unit :=
  if evidence.landed then do
    enqueueHubCheckoutProjection policy candidate.transactionId candidate.taskId
      candidate.candidateOid
    let _item ← enqueueHubPublication git policy candidate.transactionId candidate.taskId
      candidate.candidateOid call.now
    return ()
  else return ()

/-- What a reconciliation does for a transaction after its checkpoints: close, cleanup, and
the two outboxes. Each needs the task and the candidate. -/
def finishTransaction (git : Git) (policy : HubLandingPolicy) (call : HubCall)
    (evidence : HubLandingTransactionEvidence) : Hub Unit :=
  match toCandidate evidence with
  | none => return ()
  | some candidate => do
    closeLanded git call evidence candidate
    cleanupFinished evidence candidate
    projectLanded git policy call evidence candidate

/-- The end of one pass of the loop: an incident, or the number of records written. -/
inductive ReconciledTransaction where
  | incident (evidence : HubLandingTransactionEvidence)
  | reconstructed (count : Nat)
  deriving DecidableEq, Repr

/-- One pass of the loop of `reconcileHubLandingTransactions`. -/
def reconcileTransaction (git : Git) (policy : HubLandingPolicy) (call : HubCall)
    (transactionId : TransactionId) : Hub ReconciledTransaction := do
  let before ← Prog.reads fun s => s.collectEvidence git (some policy) transactionId
  if before.integrityIncident.isSome then
    return .incident before
  else
    let journal ← loadHubLandingTransaction transactionId
    let count ← reconstructCheckpoints before journal
    finishTransaction git policy call before
    return .reconstructed count

/-- The loop of `reconcileHubLandingTransactions`. It ends at the first incident. -/
def reconcileTransactions (git : Git) (policy : HubLandingPolicy) (call : HubCall) :
    List TransactionId → Nat → Hub ReconciledTransaction
  | [], count => return .reconstructed count
  | id :: ids, count => do
    match ← reconcileTransaction git policy call id with
    | .incident evidence => return .incident evidence
    | .reconstructed written => reconcileTransactions git policy call ids (count + written)

/-- The legacy history before the loop. An empty task board adopts nothing. -/
def adoptBeforeReconciling (git : Git) (policy : HubLandingPolicy)
    (input : HubLandingReconciliationInput) : Hub (List HubLegacyLandingEvidence) :=
  if input.tasks.isEmpty then return []
  else do
    let existingTaskIds ← Prog.reads fun s =>
      taskIdsFromTransactions (s.collectAllEvidence git (some policy))
    adoptHubLegacyLandingHistory git input.call input.toHubLegacyLandingInput policy
      existingTaskIds

/-- `collectLegacyHistory`. -/
def HubWorld.collectLegacyHistory (git : Git) (s : HubWorld) (input : HubLegacyLandingInput)
    (transactions : List HubLandingTransactionEvidence) : List HubLegacyLandingEvidence :=
  if input.tasks.isEmpty then []
  else
    s.classifyHubLegacyLandingHistory git input.tasks input.events s.policy
      (taskIdsFromTransactions transactions)

/-- `inspectHubLandingTransactions`, before its summary: the evidence of all transactions
and the legacy history. -/
def inspectHubLandingTransactions (git : Git) (input : HubLandingReconciliationInput) :
    Hub (List HubLandingTransactionEvidence × List HubLegacyLandingEvidence) :=
  .reads fun s =>
    let transactions := s.collectAllEvidence git s.policy
    (transactions, s.collectLegacyHistory git input.toHubLegacyLandingInput transactions)

/-- `reconcileHubLandingTransactions`. -/
def reconcileHubLandingTransactions (git : Git) (input : HubLandingReconciliationInput) :
    Hub HubLandingReconciliationOutcome := do
  let policy ← ensureHubLandingPolicy git input.call input.hostTargetBranch
  let legacyHistory ← adoptBeforeReconciling git policy input
  let ids ← Prog.reads fun s => s.listHubLandingTransactionIds
  match ← reconcileTransactions git policy input.call ids 0 with
  | .incident before => return summarize [before] 0 legacyHistory
  | .reconstructed count =>
    let (transactions, legacyAfter) ← inspectHubLandingTransactions git input
    return summarize transactions count
      (if legacyAfter.isEmpty then legacyHistory else legacyAfter)

end ArchLoop
