import ArchLoop.Landing

/-!
# `ArchLoop.Coordinator`: the landing lease, and landing under it

The model of `hubLandingCoordinator.ts`. `acquireHubLandingLease` reads the lease file,
writes its own lease when the one it read has no live owner in another process, and reads
the file back. `releaseHubLandingLease` reads the file and removes it. The read and the
write are separate steps, so two processes can interleave between them.

`landHubCandidateWithLease` commits a candidate under the lease that it was given or that it
acquires, and turns a pending error of the commit into a result.
-/

set_option autoImplicit false

namespace ArchLoop

open ArchLoop.Lib

/-- `readHubLandingProcessIdentity`: an identity that `/proc` does not give is written as
`unknown`. -/
def HubWorld.processIdentity (s : HubWorld) (pid : Nat) : HubLandingProcessIdentity where
  pid := pid
  processStartIdentity := (s.processes.startIdentity pid).getD s!"{pid}:unknown"
  bootIdentity := s.processes.bootIdentity.getD "unknown"

/-- `isLiveHubLandingLeaseOwner`: the boot is the lease's boot, the pid still has the
lease's start identity, and the pid is alive. -/
def HubWorld.isLiveHubLandingLeaseOwner (s : HubWorld) (lease : HubLandingLease) : Bool :=
  s.processes.bootIdentity.getD "unknown" == lease.bootIdentity &&
    s.processes.startIdentity lease.pid == some lease.processStartIdentity &&
    s.processes.alive lease.pid

/-- `isSameProcessOwner`. -/
def isSameProcessOwner (lease : HubLandingLease) (identity : HubLandingProcessIdentity) : Bool :=
  lease.toHubLandingProcessIdentity == identity

/-- `HubLandingLeaseAcquireResult`. -/
inductive HubLandingLeaseAcquireResult where
  | acquired (lease : HubLandingLease)
  | pendingContention (owner : HubLandingLease) (oids : HubLandingOidEvidence) (message : String)
  deriving DecidableEq, Repr

/-- `readHubLandingLease`. -/
def readHubLandingLease : Hub (Option HubLandingLease) :=
  .reads fun s => s.lease

/-- Writes `lease.json` by an atomic rename. -/
def writeHubLandingLease (lease : HubLandingLease) : Hub Unit :=
  .modify fun s => { s with lease := some lease }

/-- The lease that a process writes. -/
def newLease (identity : HubLandingProcessIdentity) (ownerNonce : String)
    (observedTargetOid observedFenceOid : Oid) : HubLandingLease :=
  { identity with
    ownerNonce := ownerNonce, expectedFenceOid := observedFenceOid
    expectedTargetOid := observedTargetOid }

/-- Takes the lease, unless a live owner in another process has it, and confirms by reading
the file back. The nonce is the call's fresh UUID. -/
def acquireHubLandingLease (call : HubCall) : Hub HubLandingLeaseAcquireResult := do
  let identity ← Prog.reads fun s => s.processIdentity call.pid
  let observedTargetOid ← revParse "publish target" fun s => s.publishTarget
  let observedFenceOid ← revParse "fence" fun s => s.fence
  -- The owner of the lease is probed right after the file is read: one step.
  let holder ← Prog.reads fun s => s.lease.filter fun lease =>
    s.isLiveHubLandingLeaseOwner lease && !isSameProcessOwner lease identity
  match holder with
  | some owner =>
    return .pendingContention owner
      { expectedTargetOid := owner.expectedTargetOid
        observedTargetOid := observedTargetOid
        expectedFenceOid := owner.expectedFenceOid
        observedFenceOid := observedFenceOid }
      s!"Hub landing lease is held by a live owner (pid {owner.pid}, nonce {owner.ownerNonce}). Transient contention remains pending and does not require a recovery command."
  | none =>
    let lease := newLease identity call.uuid observedTargetOid observedFenceOid
    writeHubLandingLease lease
    let confirmed ← readHubLandingLease
    match confirmed.filter fun c => c.ownerNonce == lease.ownerNonce with
    | some own => return .acquired own
    | none =>
      return .pendingContention (confirmed.getD lease)
        { expectedTargetOid := lease.expectedTargetOid
          observedTargetOid := observedTargetOid
          expectedFenceOid := lease.expectedFenceOid
          observedFenceOid := observedFenceOid }
        "Hub landing lease contention prevented exclusive ownership. Automatic retry will continue without a recovery command."

/-- Removes the lease file, unless the lease that it reads has another nonce. An empty nonce
counts as none. -/
def releaseHubLandingLease (ownerNonce : Option String) : Hub Unit := do
  match ← readHubLandingLease with
  | none => return ()
  | some current =>
    if ownerNonce.any fun nonce => nonce != "" && nonce != current.ownerNonce then return ()
    else Prog.modify fun s => { s with lease := none }

/-- The kinds of `HubLandingAttemptResult`: landed, or one of the pending kinds with its
message. -/
inductive HubLandingAttemptKind where
  | landed (commit : HubLandingCommitResult)
  | pending (kind : HubLandingPendingKind) (message : String)
  deriving DecidableEq, Repr

/-- `HubLandingAttemptResult`. -/
structure HubLandingAttemptResult where
  kind : HubLandingAttemptKind
  candidate : HubLandingCandidate
  oids : HubLandingOidEvidence
  deriving DecidableEq, Repr

/-- The arguments of `landHubCandidateWithLease`. -/
structure LandHubCandidateInput where
  candidate : HubLandingCandidate
  verifierFingerprint : String
  lease : Option HubLandingLease := none
  call : HubCall := {}

/-- `commitCandidateWithLease`. -/
def commitCandidateWithLease (git : Git) (policy : HubLandingPolicy)
    (input : LandHubCandidateInput) (lease : Option HubLandingLease) :
    Hub HubLandingAttemptResult := do
  let commit ← commitHubLandingTarget git policy
    { candidate := input.candidate
      verifierFingerprint := input.verifierFingerprint
      expectedFenceOid := lease.map (·.expectedFenceOid)
      ownerNonce := lease.map (·.ownerNonce)
      call := input.call }
  return {
    kind := .landed commit
    candidate := input.candidate
    oids :=
      { expectedTargetOid := input.candidate.baseOid
        observedTargetOid := commit.publishTargetOid
        expectedFenceOid := (lease.map (·.expectedFenceOid)).getD commit.fenceOid
        observedFenceOid := commit.fenceOid } }

/-- The part of `landHubCandidateWithLease` under an acquired lease. -/
def landUnderLease (git : Git) (policy : HubLandingPolicy) (input : LandHubCandidateInput)
    (lease : HubLandingLease) : Hub HubLandingAttemptResult := do
  let candidate := input.candidate
  let currentLease ← readHubLandingLease
  if input.lease.any fun passed => currentLease.map (·.ownerNonce) != some passed.ownerNonce then
    return {
      kind := .pending .staleOwnerRejected
        s!"Stale Hub landing owner rejected for {candidate.transactionId}: lease nonce {lease.ownerNonce} is no longer the owner."
      candidate := candidate
      oids :=
        { expectedTargetOid := lease.expectedTargetOid
          observedTargetOid := (currentLease.map (·.expectedTargetOid)).getD lease.expectedTargetOid
          expectedFenceOid := lease.expectedFenceOid
          observedFenceOid := (currentLease.map (·.expectedFenceOid)).getD lease.expectedFenceOid } }
  else if lease.expectedTargetOid ≠ candidate.baseOid then
    return {
      kind := .pending .targetDrift
        s!"Hub publish target drifted before landing {candidate.transactionId}: expected {candidate.baseOid}, found {lease.expectedTargetOid}."
      candidate := candidate
      oids :=
        { expectedTargetOid := candidate.baseOid
          observedTargetOid := lease.expectedTargetOid
          expectedFenceOid := lease.expectedFenceOid
          observedFenceOid := lease.expectedFenceOid } }
  else
    (commitCandidateWithLease git policy input (some lease)).tryCatch fun e =>
      match e with
      | .pending kind message oids =>
        return { kind := .pending kind message, candidate := candidate, oids := oids }
      | other => throw other

/-- The lease of a landing: the one passed in, or one that is acquired now. -/
def leaseForLanding (input : LandHubCandidateInput) : Hub HubLandingLeaseAcquireResult :=
  match input.lease with
  | some lease => return .acquired lease
  | none => acquireHubLandingLease input.call

/-- Lands the candidate under the given lease, or under one that it acquires and releases.
A transaction that has its receipt needs no lease. -/
def landHubCandidateWithLease (git : Git) (policy : HubLandingPolicy)
    (input : LandHubCandidateInput) : Hub HubLandingAttemptResult := do
  let candidate := input.candidate
  let existing ← readHubLandingReceipt candidate.transactionId
  if existing.any fun r => r.receipt.candidateOid == candidate.candidateOid then
    commitCandidateWithLease git policy input input.lease
  else
    match ← leaseForLanding input with
    | .pendingContention _owner oids message =>
      return { kind := .pending .pendingContention message, candidate := candidate, oids := oids }
    | .acquired lease =>
      (landUnderLease git policy input lease).finallyDo
        (releaseHubLandingLease (some lease.ownerNonce))

/-! ### What the lease functions change -/

/-- Only the lease file differs. -/
def LeaseWrite (s t : HubWorld) : Prop :=
  ∃ lease, t = { s with lease := lease }

theorem LeaseWrite.refl (s : HubWorld) : LeaseWrite s s := ⟨s.lease, rfl⟩

theorem acquireHubLandingLease_writes (call : HubCall) :
    (acquireHubLandingLease call).Always LeaseWrite := by
  have hread : ∀ {α : Type} (f : HubWorld → α),
      (Prog.reads f : Hub α).Always LeaseWrite := fun f =>
    Prog.always_reads.mpr LeaseWrite.refl
  refine Prog.always_bind (hread _) fun identity => ?_
  refine Prog.always_bind (revParse_always LeaseWrite.refl _ _) fun target => ?_
  refine Prog.always_bind (revParse_always LeaseWrite.refl _ _) fun fence => ?_
  refine Prog.always_bind (hread _) fun holder => ?_
  cases holder with
  | some owner => exact Prog.always_ret _
  | none =>
    refine Prog.always_bind (Prog.always_modify.mpr fun s => ⟨_, rfl⟩) fun _ => ?_
    refine Prog.always_bind (hread _) fun confirmed => ?_
    split <;> exact Prog.always_ret _

theorem releaseHubLandingLease_writes (ownerNonce : Option String) :
    (releaseHubLandingLease ownerNonce).Always LeaseWrite := by
  refine Prog.always_bind (Prog.always_reads.mpr LeaseWrite.refl) fun current => ?_
  cases current with
  | none => exact Prog.always_ret _
  | some lease =>
    dsimp only
    split
    · exact Prog.always_ret _
    · exact Prog.always_modify.mpr fun s => ⟨_, rfl⟩

end ArchLoop
