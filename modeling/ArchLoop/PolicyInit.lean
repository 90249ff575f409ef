import ArchLoop.Records
import ArchLoop.Lib.Text
import Mathlib.Logic.Function.Basic

/-!
# `ArchLoop.PolicyInit`: the steps of the policy calls

The model of `ensureHubLandingPolicy` and `configureHubLandingPolicy` (`hubLandingPolicy.ts`), one
read or write at a time. Any number of calls of different processes take their steps in any order,
between landings (`commitHubLandingTarget`) and a user who checks out and commits. A process may
stop anywhere: its call takes no further step.

`Policy.lean` has the same call as one atomic step for each ref, for the properties of landings.
Here the policy has all its fields, and the refs go by their names.
-/

set_option autoImplicit false

namespace ArchLoop.PolicyInit

open ArchLoop.Lib

/-! ### The policy and the repository -/

/-- The fields of `HubLandingPolicy` that a call decides about. -/
structure HubLandingPolicy where
  hostTargetBranch : String
  publishTargetRef : String
  fenceRef : String
  publishPolicy : HubLandingPublishPolicy
  remoteTarget : Option String := none
  deliveryTimeoutMs : Option Nat := none
  deriving DecidableEq, Repr

/-- The policy file. It may exist and be no policy of this version. -/
inductive PolicyFile where
  | absent
  | unreadable
  | policy (policy : HubLandingPolicy)
  deriving DecidableEq, Repr

/-- What the calls share. The host branch is what `resolveHostTargetBranch` finds. -/
structure PolicyWorld where
  file : PolicyFile
  refs : String → Option Oid
  head : Oid
  hostBranch : Option String

/-- `ConfigureHubLandingPolicyInput`. A field that is given may clear its setting. -/
structure ConfigureHubLandingPolicyInput where
  publishPolicy : Option HubLandingPublishPolicy := none
  remoteTarget : Option (Option String) := none
  deliveryTimeoutMs : Option (Option Int) := none
  deriving DecidableEq, Repr

/-- A call: of `configureHubLandingPolicy` with its input, or of `ensureHubLandingPolicy` alone. The
fence blob of a call has a random nonce. -/
structure PolicyCall where
  configure : Option ConfigureHubLandingPolicyInput := none
  fenceOid : Oid
  deriving DecidableEq, Repr

/-- `resolveConfiguredRemoteTarget`. -/
def resolveConfiguredRemoteTarget (input : Option (Option String)) (current : Option String) :
    Option String :=
  match input with
  | none => current
  | some none => none
  | some (some remoteTarget) => if trim remoteTarget = "" then none else some (trim remoteTarget)

/-- `resolveConfiguredDeliveryTimeoutMs`. -/
def resolveConfiguredDeliveryTimeoutMs (input : Option (Option Int)) (current : Option Nat) :
    Option Nat :=
  match input with
  | none => current
  | some none => none
  | some (some timeout) => if timeout ≤ 0 then none else some timeout.toNat

/-- The policy that a configuration writes. -/
def ConfigureHubLandingPolicyInput.apply (input : ConfigureHubLandingPolicyInput)
    (policy : HubLandingPolicy) : HubLandingPolicy :=
  { policy with
    publishPolicy := input.publishPolicy.getD policy.publishPolicy
    remoteTarget := resolveConfiguredRemoteTarget input.remoteTarget policy.remoteTarget
    deliveryTimeoutMs :=
      resolveConfiguredDeliveryTimeoutMs input.deliveryTimeoutMs policy.deliveryTimeoutMs }

/-- No field is given. -/
def ConfigureHubLandingPolicyInput.isEmpty (input : ConfigureHubLandingPolicyInput) : Bool :=
  input.publishPolicy.isNone && input.remoteTarget.isNone && input.deliveryTimeoutMs.isNone

/-- The policy that a call pins when it reads none: publication is off. -/
def initialPolicy (targetIdentity hostTargetBranch : String) : HubLandingPolicy where
  hostTargetBranch := hostTargetBranch
  publishTargetRef := "refs/archloop/publish/" ++ targetIdentity
  fenceRef := "refs/archloop/fence/" ++ targetIdentity
  publishPolicy := .off

/-! ### The steps of a call -/

/-- What a call read: a policy, no file, or a file that it could not read. -/
inductive PolicyOrigin where
  | existing
  | missing
  | unread
  deriving DecidableEq, Repr

/-- Where a call is.

- `readPolicy`, `resolveBranch`, `readHead`: it reads the policy, without one the host branch, and
  the commit of the checkout.
- `checkPublish`, `writePublish`: `ensureGitRef` on the publish target.
- `checkFence`: the check of an existing policy's fence, before that of `ensureGitRef`.
- `ensureFence`, `writeFence`: `ensureGitRef` on the fence.
- `writePolicy`, `configure`: a new policy is written, or the configured one.
- `done`: the call has returned the policy. -/
inductive CallPhase where
  | readPolicy
  | resolveBranch (fileExists : Bool)
  | readHead (origin : PolicyOrigin) (policy : HubLandingPolicy)
  | checkPublish (origin : PolicyOrigin) (policy : HubLandingPolicy) (headOid : Oid)
  | writePublish (origin : PolicyOrigin) (policy : HubLandingPolicy) (headOid : Oid)
  | checkFence (origin : PolicyOrigin) (policy : HubLandingPolicy)
  | ensureFence (origin : PolicyOrigin) (policy : HubLandingPolicy)
  | writeFence (origin : PolicyOrigin) (policy : HubLandingPolicy)
  | writePolicy (origin : PolicyOrigin) (policy : HubLandingPolicy)
  | configure (origin : PolicyOrigin) (policy : HubLandingPolicy)
  | done (origin : PolicyOrigin) (policy : HubLandingPolicy)
  deriving DecidableEq, Repr

/-- `readHubLandingPolicy`: an existing file that cannot be read counts as no policy. -/
def readHubLandingPolicy (readFails : Bool) : PolicyFile → Option HubLandingPolicy
  | .absent => none
  | .unreadable => none
  | .policy policy => if readFails then none else some policy

/-- Behind `ensureHubLandingPolicy`: a configuration with a field goes on. -/
def afterEnsure (call : PolicyCall) (origin : PolicyOrigin) (policy : HubLandingPolicy) :
    CallPhase :=
  match call.configure with
  | none => .done origin policy
  | some input => if input.isEmpty then .done origin policy else .configure origin policy

/-- Behind the publish target. A new policy needs no first check of the fence. -/
def afterPublish (origin : PolicyOrigin) (policy : HubLandingPolicy) : CallPhase :=
  if origin = .existing then .checkFence origin policy else .ensureFence origin policy

/-- Behind the fence. -/
def afterFence (call : PolicyCall) (origin : PolicyOrigin) (policy : HubLandingPolicy) :
    CallPhase :=
  if origin = .existing then afterEnsure call origin policy else .writePolicy origin policy

/-- `update-ref` without an expected value. -/
def PolicyWorld.updateRef (w : PolicyWorld) (ref : String) (oid : Oid) : PolicyWorld :=
  { w with refs := Function.update w.refs ref (some oid) }

/-- The next step of a call. Without a host branch to pin, the call throws. -/
def CallPhase.step (targetIdentity : String) (call : PolicyCall) (readFails : Bool)
    (w : PolicyWorld) : CallPhase → CallPhase × PolicyWorld
  | .readPolicy =>
    match readHubLandingPolicy readFails w.file with
    | some policy => (.readHead .existing policy, w)
    | none => (.resolveBranch (w.file ≠ .absent), w)
  | .resolveBranch fileExists =>
    match w.hostBranch with
    | some branch =>
      (.readHead (if fileExists then .unread else .missing) (initialPolicy targetIdentity branch), w)
    | none => (.resolveBranch fileExists, w)
  | .readHead origin policy => (.checkPublish origin policy w.head, w)
  | .checkPublish origin policy headOid =>
    if (w.refs policy.publishTargetRef).isSome then (afterPublish origin policy, w)
    else (.writePublish origin policy headOid, w)
  | .writePublish origin policy headOid =>
    (afterPublish origin policy, w.updateRef policy.publishTargetRef headOid)
  | .checkFence origin policy =>
    if (w.refs policy.fenceRef).isSome then (afterFence call origin policy, w)
    else (.ensureFence origin policy, w)
  | .ensureFence origin policy =>
    if (w.refs policy.fenceRef).isSome then (afterFence call origin policy, w)
    else (.writeFence origin policy, w)
  | .writeFence origin policy =>
    (afterFence call origin policy, w.updateRef policy.fenceRef call.fenceOid)
  | .writePolicy origin policy =>
    (afterEnsure call origin policy, { w with file := .policy policy })
  | .configure origin policy =>
    match call.configure with
    | none => (.done origin policy, w)
    | some input =>
      (.done origin (input.apply policy), { w with file := .policy (input.apply policy) })
  | .done origin policy => (.done origin policy, w)

/-! ### Interleavings -/

/-- A step of a run.

- `call`: a call takes its next step. A read of the policy may fail.
- `checkout`: the user checks out a branch, or commits.
- `land`: a landing under the policy that a call has returned moves the publish target and the
  fence, which it has compared with what it expected. -/
inductive PolicyStep (ι : Type) where
  | call (caller : ι) (readFails : Bool)
  | checkout (head : Oid) (hostBranch : Option String)
  | land (caller : ι) (candidateOid fenceOid : Oid)
  deriving DecidableEq, Repr

/-- The calls of a run, where they are, and what they share. -/
structure PolicyState (ι : Type) where
  world : PolicyWorld
  phases : ι → CallPhase := fun _ => .readPolicy

section
variable {ι : Type} [DecidableEq ι] (targetIdentity : String) (calls : ι → PolicyCall)

/-- `commitHubLandingTarget`: both refs exist, and move together. -/
def PolicyWorld.land (w : PolicyWorld) (policy : HubLandingPolicy) (candidateOid fenceOid : Oid) :
    PolicyWorld :=
  if (w.refs policy.publishTargetRef).isSome && (w.refs policy.fenceRef).isSome then
    (w.updateRef policy.publishTargetRef candidateOid).updateRef policy.fenceRef fenceOid
  else w

/-- One step. -/
def PolicyState.step (s : PolicyState ι) : PolicyStep ι → PolicyState ι
  | .call caller readFails =>
    let next := (s.phases caller).step targetIdentity (calls caller) readFails s.world
    { world := next.2, phases := Function.update s.phases caller next.1 }
  | .checkout head hostBranch =>
    { s with world := { s.world with head := head, hostBranch := hostBranch } }
  | .land caller candidateOid fenceOid =>
    match s.phases caller with
    | .done _ policy => { s with world := s.world.land policy candidateOid fenceOid }
    | _ => s

/-- The state after the steps. -/
def afterSteps (start : PolicyState ι) (steps : List (PolicyStep ι)) : PolicyState ι :=
  steps.foldl (PolicyState.step targetIdentity calls) start

end

end ArchLoop.PolicyInit
