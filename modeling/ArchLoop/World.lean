import ArchLoop.Lib.Alone
import ArchLoop.Records
import Mathlib.Logic.Function.Basic

/-!
# `ArchLoop.World`: the state that Hub landing runs on

`HubWorld` is everything that the modelled functions read and write: the refs of the Git
repository, the worktrees, the files of the Hub project directory, the task store, the
remotes and the process table. Each field is one file or one ref, and a step of a program
reads or replaces whole fields, as the source reads a file or renames a new one into place.

`Git` is what the model takes from Git and from hashing: the ancestry relation and the ids
of new blobs. An oid names its whole history, so ancestry does not change over time, while
`hasObject` says which commits the local repository can resolve.

`trace` records the effects that leave the project, in order. No modelled function reads it.
-/

set_option autoImplicit false

namespace ArchLoop

open ArchLoop.Lib

/-- A Git worktree: the commit that `HEAD` names, and whether files differ from it. -/
structure HubWorktree where
  head : Oid
  dirty : Bool := false
  deriving DecidableEq, Repr

/-- What the code takes from Git and from `node:crypto`.

- `isAncestor a b`: the commit `a` is `b` or an ancestor of `b`.
- `isAncestor_refl`, `isAncestor_trans`, `isAncestor_antisymm`: history is a partial order.
- `hashReceipt`, `hashFence`: `git hash-object` on the two blobs that landing writes.
- `sha256`, `hashArtifact`: the hex digest of a string, and of an artifact's JSON.
- `merge head source`: the commit that `git merge --no-ff` makes, unless the merge conflicts.
- `stripBeadsRuntime base w`: the worktree after the commit that puts allowlisted Beads
  runtime files back to their state at `base`; `w` itself when none of them differs.
- `stripBeadsRuntime_clean`: that commit leaves a clean worktree clean. -/
structure Git where
  isAncestor : Oid → Oid → Bool
  isAncestor_refl : ∀ a, isAncestor a a
  isAncestor_trans : ∀ a b c, isAncestor a b → isAncestor b c → isAncestor a c
  isAncestor_antisymm : ∀ a b, isAncestor a b → isAncestor b a → a = b
  hashReceipt : HubLandingReceipt → Oid
  hashFence : HubFencePayload → Oid
  hashArtifact : HubLandingVerificationArtifact → String
  sha256 : String → String
  merge : Oid → Oid → Option Oid
  stripBeadsRuntime : Oid → HubWorktree → HubWorktree
  stripBeadsRuntime_clean : ∀ base w, w.dirty = false → (stripBeadsRuntime base w).dirty = false

/-- The effects that leave the Hub project.

- `refTransaction`: an `update-ref --stdin` transaction went through for the candidate.
- `verifierRun`: the flow's verifier ran in the worktree of the transaction, and whether it
  passed.
- `taskClose`: the task store was told to close a task.
- `remotePush`: a push of the item's candidate replaced the tip of its remote branch. -/
inductive HubEffect where
  | refTransaction (candidate : HubLandingCandidate)
  | verifierRun (transactionId : TransactionId) (worktree : HubWorktree) (passed : Bool)
  | taskClose (input : HubLandingTaskCloseInput)
  | remotePush (item : HubPublicationOutboxItem) (replaced : Option Oid)
  deriving DecidableEq, Repr

/-- A remote as `git ls-remote`, `git fetch` and `git push` meet it.

- `tip`: the branch tips.
- `unreachable`: the error of a remote that does not answer.
- `rejects`: the error of a remote that refuses every push.
- `drops`: the connection is lost after a push was applied, with this error.
- `garbled`: the answer to `ls-remote` does not start with an oid. -/
structure HubRemote where
  tip : String → Option Oid := fun _ => none
  unreachable : Option String := none
  rejects : Option String := none
  drops : Option String := none
  garbled : Bool := false

/-- The process table as the liveness probes read it.

- `bootIdentity`: the boot id, when `/proc` gives one.
- `startIdentity`: the start identity of a pid, when `/proc/<pid>/stat` can be read.
- `alive`: a signal can be sent to the pid. -/
structure HubProcessTable where
  bootIdentity : Option String := none
  startIdentity : Nat → Option String := fun _ => none
  alive : Nat → Bool := fun _ => false

/-- The state of one Hub project and of what it works on.

- `head`, `branches`: `HEAD` and the local branches.
- `publishTarget`, `fence`: the publish target ref and the fence ref of the project.
- `candidateRef`, `receipt`: the candidate ref and the receipt ref of each transaction.
- `refsLocked`: another Git process holds a ref lock, so a ref transaction fails.
- `hasObject`: the commits that the local repository holds.
- `worktree`: the landing worktree of each transaction.
- `transactionIds`: the transactions that a directory, a candidate ref or a receipt ref names.
- `journal`, `manifest`, `artifact`: the files of each transaction's directory.
- `policy`, `lease`, `queue`, `publicationOutbox`, `checkoutOutbox`: files of the project.
- `verificationRepairs`: the verification repairs recorded for a task and a source commit.
- `verifier`: the parts that `computeHubVerifierParts` computes from the repository.
- `tasks`: the task store, as `beadsCloseEvidenceFromHubTask` reads it.
- `remotes`, `processes`: the world outside.
- `trace`: the effects so far. -/
structure HubWorld where
  head : Option Oid := none
  branches : String → Option Oid := fun _ => none
  publishTarget : Option Oid := none
  fence : Option Oid := none
  candidateRef : TransactionId → Option Oid := fun _ => none
  receipt : TransactionId → Option HubStoredReceipt := fun _ => none
  refsLocked : Bool := false
  hasObject : Oid → Bool := fun _ => true
  worktree : TransactionId → Option HubWorktree := fun _ => none
  transactionIds : List TransactionId := []
  journal : TransactionId → List HubLandingTransactionRecord := fun _ => []
  manifest : TransactionId → Option HubLandingCandidateManifest := fun _ => none
  artifact : TransactionId → Option HubLandingVerificationArtifact := fun _ => none
  policy : Option HubLandingPolicy := none
  lease : Option HubLandingLease := none
  queue : Option HubLandingQueueState := none
  publicationOutbox : List HubPublicationOutboxItem := []
  checkoutOutbox : List HubCheckoutOutboxItem := []
  verificationRepairs : TaskId → Oid → Nat := fun _ _ => 0
  verifier : HubVerifierFingerprintParts := ⟨"", "", ""⟩
  tasks : TaskId → Option HubLandingBeadsCloseEvidence := fun _ => none
  remotes : String → HubRemote := fun _ => {}
  processes : HubProcessTable := {}
  trace : List HubEffect := []

/-- The kinds of a pending landing (`HubLandingPendingKind`). -/
inductive HubLandingPendingKind where
  | pendingContention
  | targetDrift
  | staleOwnerRejected
  | targetQuietWait
  | notQueueHead
  deriving DecidableEq, Repr

/-- The name of the kind in messages. -/
def HubLandingPendingKind.text : HubLandingPendingKind → String
  | .pendingContention => "pending_contention"
  | .targetDrift => "target_drift"
  | .staleOwnerRejected => "stale_owner_rejected"
  | .targetQuietWait => "target_quiet_wait"
  | .notQueueHead => "not_queue_head"

/-- The observed and expected oids of a landing attempt (`HubLandingOidEvidence`). -/
structure HubLandingOidEvidence where
  expectedTargetOid : Oid
  observedTargetOid : Oid
  expectedFenceOid : Oid
  observedFenceOid : Oid
  deriving DecidableEq, Repr

/-- What the functions throw.

- `error`: an `Error` with its message.
- `git`: a Git command that failed.
- `worktree`: a `HubLandingWorktreeError` about the worktree of a transaction.
- `pending`: a `HubLandingPendingError`. -/
inductive HubError where
  | error (message : String)
  | git (command : String)
  | worktree (transactionId : TransactionId) (message : String)
  | pending (kind : HubLandingPendingKind) (message : String) (oids : HubLandingOidEvidence)
  deriving DecidableEq, Repr

/-- The message of an error. -/
def HubError.message : HubError → String
  | .error message => message
  | .git command => s!"Command failed: git {command}"
  | .worktree _ message => message
  | .pending _ message _ => message

/-- A Hub function: a program of atomic steps on the world. -/
abbrev Hub (α : Type) : Type := Prog HubWorld HubError α

/-- `gitText rev-parse`: the oid that a ref names, or the error of the command. -/
def revParse (ref : String) (read : HubWorld → Option Oid) : Hub Oid :=
  .act id fun s =>
    match read s with
    | some oid => .ret oid
    | none => .raise (.git s!"rev-parse {ref}")

theorem revParse_always {P : HubWorld → HubWorld → Prop} (h : ∀ s, P s s) (ref : String)
    (read : HubWorld → Option Oid) : (revParse ref read).Always P := by
  intro s
  refine ⟨h s, ?_⟩
  dsimp only
  split <;> trivial

/-- `git merge-base --is-ancestor` in the local repository, with the shortcut for equal
oids that each caller makes. The command fails for a commit that is not there. -/
def HubWorld.isAncestor (git : Git) (s : HubWorld) (ancestor descendant : Oid) : Bool :=
  ancestor == descendant ||
    (s.hasObject ancestor && s.hasObject descendant && git.isAncestor ancestor descendant)

theorem HubWorld.isAncestor_sound {git : Git} {s : HubWorld} {a b : Oid}
    (h : s.isAncestor git a b = true) : git.isAncestor a b = true := by
  simp only [HubWorld.isAncestor, Bool.or_eq_true, Bool.and_eq_true, beq_iff_eq] at h
  rcases h with rfl | ⟨-, h⟩
  · exact git.isAncestor_refl a
  · exact h

/-- The transactions on disk and in refs once `transactionId` has a directory or a ref. -/
def HubWorld.withTransaction (s : HubWorld) (transactionId : TransactionId) :
    List TransactionId :=
  if transactionId ∈ s.transactionIds then s.transactionIds
  else s.transactionIds ++ [transactionId]

theorem HubWorld.mem_withTransaction {s : HubWorld} {t u : TransactionId} :
    u ∈ s.withTransaction t ↔ u ∈ s.transactionIds ∨ u = t := by
  unfold HubWorld.withTransaction
  split
  · constructor
    · exact Or.inl
    · rintro (h | rfl)
      · exact h
      · assumption
  · simp

end ArchLoop
