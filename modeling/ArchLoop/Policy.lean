import ArchLoop.Transaction

/-!
# `ArchLoop.Policy`: the policy file, the two refs it pins, and the checkout outbox

The model of `ensureHubLandingPolicy` and `readHubLandingPolicy` (`hubLandingPolicy.ts`) and
of `enqueueHubCheckoutProjection` (`hubCheckoutProjection.ts`). A new policy has publication
off, and the publish target and the fence are created only when they are missing.
-/

set_option autoImplicit false

namespace ArchLoop

open ArchLoop.Lib

/-- What a process brings to a call: the clock, its pid and a fresh UUID. -/
structure HubCall where
  now : Timestamp := 0
  pid : Nat := 1
  uuid : String := "uuid"
  deriving DecidableEq, Repr

/-! ### The policy -/

/-- `readHubLandingPolicy`. -/
def readHubLandingPolicy : Hub (Option HubLandingPolicy) :=
  .reads fun s => s.policy

/-- `ensureGitRef` on the publish target: the ref is created only when it is missing. -/
def ensurePublishTarget (headOid : Oid) : Hub Unit :=
  .modify fun s => { s with publishTarget := s.publishTarget <|> some headOid }

/-- `ensureGitRef` on the fence, with the blob of `writeInitialFenceBlob`. -/
def ensureFence (git : Git) (call : HubCall) : Hub Unit :=
  .modify fun s =>
    { s with fence := s.fence <|> some (git.hashFence ⟨call.uuid, call.pid, none, call.now⟩) }

/-- Reads the policy, or pins a new one with publication off, and makes sure that the
publish target and the fence exist. -/
def ensureHubLandingPolicy (git : Git) (call : HubCall) (hostTargetBranch : String) :
    Hub HubLandingPolicy := do
  match ← readHubLandingPolicy with
  | some existing =>
    let headOid ← revParse "HEAD" fun s => s.head
    ensurePublishTarget headOid
    ensureFence git call
    return existing
  | none =>
    let policy : HubLandingPolicy :=
      { hostTargetBranch := hostTargetBranch, publishPolicy := .off }
    let headOid ← revParse "HEAD" fun s => s.head
    ensurePublishTarget headOid
    ensureFence git call
    Prog.modify fun s => { s with policy := some policy }
    return policy

/-! ### The checkout outbox -/

/-- Asks for the host branch to follow the candidate, once for each transaction, branch and
candidate. -/
def enqueueHubCheckoutProjection (policy : HubLandingPolicy) (transactionId : TransactionId)
    (taskId : TaskId) (candidateOid : Oid) : Hub Unit := do
  let known ← Prog.reads fun s => s.checkoutOutbox.any fun item =>
    item.transactionId == transactionId && item.hostTargetBranch == policy.hostTargetBranch &&
      item.candidateOid == candidateOid
  if !known then
    let expectedBranchOid ← Prog.reads fun s =>
      (s.branches policy.hostTargetBranch).getD candidateOid
    Prog.modify fun s =>
      { s with
        checkoutOutbox := s.checkoutOutbox ++ [{
          transactionId := transactionId, taskId := taskId
          hostTargetBranch := policy.hostTargetBranch, candidateOid := candidateOid
          expectedBranchOid := expectedBranchOid }] }

/-- Only the checkout outbox differs. -/
def CheckoutWrite (s t : HubWorld) : Prop :=
  ∃ items, t = { s with checkoutOutbox := items }

theorem enqueueHubCheckoutProjection_writes (policy : HubLandingPolicy)
    (transactionId : TransactionId) (taskId : TaskId) (candidateOid : Oid) :
    (enqueueHubCheckoutProjection policy transactionId taskId candidateOid).Makes
      CheckoutWrite := by
  have hread : ∀ s : HubWorld, CheckoutWrite s s := fun s => ⟨_, rfl⟩
  refine Prog.makes_bind (Prog.makes_reads.mpr hread) fun known => ?_
  split
  · refine Prog.makes_bind (Prog.makes_reads.mpr hread) fun oid => ?_
    exact Prog.makes_modify.mpr fun s => ⟨_, rfl⟩
  · exact Prog.makes_ret _

end ArchLoop
