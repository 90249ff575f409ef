import Mathlib.Data.String.Defs
import Mathlib.Data.List.Sort

/-!
# `ArchLoop.Records`: the durable records of the Hub

The JSON records that Hub landing keeps in a project directory, and the payloads that it
stores in Git. A record here has the fields that some modelled function reads or a result
mentions. Timestamps that are only displayed, and paths that follow from a transaction id,
are left out.

- Journal: `HubLandingCheckpoint` and `HubLandingTransactionRecord`
  (`hubLandingTransaction.ts`).
- Landing: `HubLandingCandidateManifest`, `HubLandingVerificationArtifact`,
  `HubLandingReceipt`, `HubFencePayload` (`hubLanding.ts`).
- Lease: `HubLandingLease` (`hubLandingCoordinator.ts`).
- Queue: `HubLandingQueueTicket` and `HubLandingQueueState` (`hubLandingQueue.ts`).
- Publication: `HubPublicationOutboxItem` (`hubPublication.ts`).
- Policy: `HubLandingPolicy` (`hubLandingPolicy.ts`).
-/

set_option autoImplicit false

namespace ArchLoop

/-- A Git object id. -/
abbrev Oid := String

/-- A Beads task id. -/
abbrev TaskId := String

/-- A landing transaction id. -/
abbrev TransactionId := String

/-- An ISO timestamp. Timestamps are only compared, so a number stands for one. -/
abbrev Timestamp := Nat

/-! ### Journal -/

/-- The checkpoints of a landing transaction, in the order of `HUB_LANDING_CHECKPOINTS`. -/
inductive HubLandingCheckpoint where
  | opened
  | basePinned
  | candidateCreated
  | candidateVerified
  | targetLanded
  | taskClosed
  | cleaned
  deriving DecidableEq, Repr

/-- `CHECKPOINT_RANK`: the position of the checkpoint in `HUB_LANDING_CHECKPOINTS`. -/
def HubLandingCheckpoint.rank : HubLandingCheckpoint → Nat
  | .opened => 0
  | .basePinned => 1
  | .candidateCreated => 2
  | .candidateVerified => 3
  | .targetLanded => 4
  | .taskClosed => 5
  | .cleaned => 6

/-- The name of the checkpoint in records and messages. -/
def HubLandingCheckpoint.text : HubLandingCheckpoint → String
  | .opened => "opened"
  | .basePinned => "base_pinned"
  | .candidateCreated => "candidate_created"
  | .candidateVerified => "candidate_verified"
  | .targetLanded => "target_landed"
  | .taskClosed => "task_closed"
  | .cleaned => "cleaned"

/-- One line of a transaction's `journal.jsonl`. -/
structure HubLandingTransactionRecord where
  checkpoint : HubLandingCheckpoint
  transactionId : TransactionId
  taskId : TaskId
  sourceOid : Option Oid := none
  baseOid : Option Oid := none
  candidateOid : Option Oid := none
  verifierFingerprint : Option String := none
  publishTargetOid : Option Oid := none
  fenceOid : Option Oid := none
  receiptOid : Option Oid := none
  deriving DecidableEq, Repr

/-! ### Landing -/

/-- `candidate.json` of a transaction. -/
structure HubLandingCandidateManifest where
  transactionId : TransactionId
  taskId : TaskId
  sourceOid : Oid
  baseOid : Oid
  candidateOid : Oid
  deriving DecidableEq, Repr

/-- `verification.json` of a transaction. -/
structure HubLandingVerificationArtifact where
  candidateOid : Oid
  verifierFingerprint : String
  verifierConfigHash : Option String
  runtimeFingerprint : Option String
  exitCode : Int
  outputHash : String
  createdAt : Timestamp
  artifactHash : Option String
  deriving DecidableEq, Repr

/-- The result of `computeHubVerifierParts`. -/
structure HubVerifierFingerprintParts where
  verifierConfigHash : String
  runtimeFingerprint : String
  verifierFingerprint : String
  deriving DecidableEq, Repr

/-- The landing receipt, a blob that the receipt ref of the transaction names. -/
structure HubLandingReceipt where
  transactionId : TransactionId
  taskId : TaskId
  candidateOid : Oid
  sourceOid : Oid
  baseOid : Oid
  verifierFingerprint : String
  landedAt : Timestamp
  deriving DecidableEq, Repr

/-- What `readHubLandingReceipt` returns: the receipt and the oid of its blob. -/
structure HubStoredReceipt where
  receipt : HubLandingReceipt
  oid : Oid
  deriving DecidableEq, Repr

/-- The payload of a fence blob (`createFencePayload`). -/
structure HubFencePayload where
  ownerNonce : String
  pid : Nat
  bootId : Option String
  createdAt : Timestamp
  deriving DecidableEq, Repr

/-- A landing candidate as the functions pass it around. The publish target and the fence
are refs of the Hub project, so they live in the world and not here. -/
structure HubLandingCandidate where
  transactionId : TransactionId
  taskId : TaskId
  branch : String
  sourceOid : Oid
  baseOid : Oid
  candidateOid : Oid
  deriving DecidableEq, Repr

/-- What the task store says about a task's close (`HubLandingBeadsCloseEvidence`). -/
structure HubLandingBeadsCloseEvidence where
  closed : Bool
  transactionId : Option TransactionId := none
  candidateOid : Option Oid := none
  deriving DecidableEq, Repr

/-- The argument of a `HubLandingTaskCloser`. -/
structure HubLandingTaskCloseInput where
  taskId : TaskId
  transactionId : TransactionId
  candidateOid : Oid
  deriving DecidableEq, Repr

/-! ### Lease -/

/-- What identifies a running process: its pid, the start time that `/proc` gives for it and
the boot it runs in. -/
structure HubLandingProcessIdentity where
  pid : Nat
  processStartIdentity : String
  bootIdentity : String
  deriving DecidableEq, Repr

/-- `lease.json` of the project. `expiresAt` is written and never compared. -/
structure HubLandingLease extends HubLandingProcessIdentity where
  ownerNonce : String
  expectedFenceOid : Oid
  expectedTargetOid : Oid
  deriving DecidableEq, Repr

/-! ### Queue -/

/-- The statuses of a landing ticket. -/
inductive HubLandingTicketStatus where
  | queued
  | speculating
  | verified
  | landed
  | publishing
  | invalidated
  | blockedUnshippedPrerequisite
  | failed
  | targetQuietWait
  deriving DecidableEq, Repr

/-- One ticket of the landing queue. -/
structure HubLandingQueueTicket where
  ticketId : String
  sequence : Nat
  taskId : TaskId
  assignedAt : Timestamp
  status : HubLandingTicketStatus
  blockerTaskIds : List TaskId := []
  sourceOid : Option Oid := none
  predecessorOid : Option Oid := none
  candidateOid : Option Oid := none
  transactionId : Option TransactionId := none
  activationId : Option String := none
  activationDriftRebuilds : Nat := 0
  lastObservedTargetOid : Option Oid := none
  quietWaitEnteredAt : Option Timestamp := none
  suffixInvalidatedAt : Option Timestamp := none
  suffixInvalidationReason : Option String := none
  deriving DecidableEq, Repr

/-- `queue.json` of the project. -/
structure HubLandingQueueState where
  nextSequence : Nat
  tickets : List HubLandingQueueTicket
  deriving DecidableEq, Repr

/-! ### Publication and policy -/

/-- When a landed candidate is published, and whether the close waits for it. -/
inductive HubLandingPublishPolicy where
  | off
  | bestEffort
  | required
  deriving DecidableEq, Repr

/-- `landing-policy.json` of the project. -/
structure HubLandingPolicy where
  hostTargetBranch : String
  publishPolicy : HubLandingPublishPolicy
  remoteTarget : Option String := none
  deliveryTimeoutMs : Option Nat := none
  deriving DecidableEq, Repr

/-- `HUB_PUBLICATION_PENDING_REASONS`. -/
inductive HubPublicationPendingReason where
  | networkError
  | credentialRejected
  | protectedBranch
  | remoteDiverged
  | noRemoteConfigured
  | transientRemoteError
  | observeFailed
  | remoteForceRewriteIntegrity
  deriving DecidableEq, Repr

/-- The status of a publication outbox item. -/
inductive HubPublicationStatus where
  | pending
  | succeeded
  deriving DecidableEq, Repr

/-- One item of the publication outbox, a file named by its `id`. -/
structure HubPublicationOutboxItem where
  id : String
  transactionId : TransactionId
  taskId : TaskId
  remoteName : String
  remoteRef : String
  remoteTarget : String
  candidateOid : Oid
  expectedRemoteOid : Oid
  status : HubPublicationStatus
  createdAt : Timestamp
  pendingReason : Option HubPublicationPendingReason := none
  publishedOid : Option Oid := none
  ambiguousPushAcknowledged : Bool := false
  deriving DecidableEq, Repr

/-- One item of the checkout outbox, which asks for the host branch to follow the candidate. -/
structure HubCheckoutOutboxItem where
  transactionId : TransactionId
  taskId : TaskId
  hostTargetBranch : String
  candidateOid : Oid
  expectedBranchOid : Oid
  deriving DecidableEq, Repr

end ArchLoop
