import ArchLoop.Lib.Double
import ArchLoop.LegacyHistory
import ArchLoop.WorktreeLease

/-!
# `ArchLoop.LeaseFile`: the text of a lock file, and its two readers

`WorktreeLease` has a lock file as the keys that are read from it. Here it is a text.
`WorktreeLease.ts` writes it as one line of JSON and reads it again. The diagnostics and the
detection of interrupted executions read the same file through `worktreeLeaseStore.ts`, which has
a reader of its own: it trims, takes other spellings of the keys, and looks for the owner in an
object of its own.
-/

set_option autoImplicit false

namespace ArchLoop.LeaseFile

open ArchLoop.Lib ArchLoop.Lib.JsonText

/-! ### The writer -/

/-- The object of a lease: `HUB_LEASE_METADATA_KEYS` or `DIRECT_LEASE_METADATA_KEYS`. -/
def leaseMembers (metadata : WorktreeLeaseMetadata) : List (String × Value) :=
  match metadata.owner with
  | .hub taskId flowId batchId => [
      ("owner", .string "hub"),
      ("taskId", .string taskId),
      ("flowId", .string flowId),
      ("batchId", .string batchId),
      ("branch", .string metadata.branch),
      ("pid", .ofInt metadata.pid),
      ("acquiredAt", .string metadata.acquiredAt)]
  | .direct => [
      ("owner", .string "direct"),
      ("pid", .ofInt metadata.pid),
      ("branch", .string metadata.branch),
      ("acquiredAt", .string metadata.acquiredAt)]

/-- What `createLeaseFileAtomic` writes. -/
def leaseContent (metadata : WorktreeLeaseMetadata) : List Char :=
  print (.object (leaseMembers metadata)) ++ ['\n']

/-! ### The reader of `WorktreeLease.ts` -/

/-- The keys that are read from a value. -/
def leaseRecordOf (value : Value) : LeaseRecord where
  owner := (value.get "owner").bind Value.text?
  taskId := (value.get "taskId").bind Value.text?
  flowId := (value.get "flowId").bind Value.text?
  batchId := (value.get "batchId").bind Value.text?
  branch := (value.get "branch").bind Value.text?
  pid := (value.get "pid").bind Double.integer?
  acquiredAt := (value.get "acquiredAt").bind Value.text?

/-- `parseLeaseMetadata`, of a text. -/
def parseLeaseText (raw : List Char) (repoDir branch : String) (requireBranchMatch : Bool) :
    Except WorktreeLeaseError WorktreeLeaseMetadata :=
  parseLeaseMetadata ((parse raw).map leaseRecordOf) repoDir branch requireBranchMatch

/-! ### The reader of `worktreeLeaseStore.ts` -/

inductive WorktreeLeaseOwnerKind where
  | direct
  | hub
  deriving DecidableEq, Repr

/-- `WorktreeLeaseOwner`. -/
structure WorktreeLeaseOwner where
  kind : WorktreeLeaseOwnerKind
  taskId : Option String := none
  flowId : Option String := none
  batchId : Option String := none
  runId : Option String := none
  deriving DecidableEq, Repr

inductive WorktreeLeaseState where
  | active
  | stale
  deriving DecidableEq, Repr

/-- `WorktreeLeaseRecord`. -/
structure WorktreeLeaseRecord where
  lockFileName : String
  worktreeName : String
  branch : String
  pid : ℚ
  acquiredAt : String
  owner : Option WorktreeLeaseOwner
  state : WorktreeLeaseState
  malformed : Bool
  deriving DecidableEq

/-- `readString`. -/
def readString (value : Option Value) : Option String :=
  (value.bind Value.text?).bind fun text => if trim text = "" then none else some (trim text)

/-- The kind that a text names. -/
def ownerKindOf (kind : String) : Option WorktreeLeaseOwnerKind :=
  if kind = "direct" then some .direct else if kind = "hub" then some .hub else none

/-- `parseWorktreeLeaseOwner`. -/
def parseWorktreeLeaseOwner (value : Option Value) : Option WorktreeLeaseOwner :=
  let record := value.getD .null
  (readString (record.get "kind")).bind fun kind => (ownerKindOf kind).map fun kind => {
    kind
    taskId := readString (record.first ["taskId", "task_id"])
    flowId := readString (record.first ["flowId", "flow_id"])
    batchId := readString (record.first ["batchId", "batch_id"])
    runId := readString (record.first ["runId", "run_id"]) }

/-- The fields that make a lease of a value: its branch, its process and its time. -/
def storeFields (value : Value) : Option (String × ℚ × String) := do
  let branch ← readString (value.get "branch")
  let pid ← (value.get "pid").bind Double.double?
  let acquiredAt ← readString (value.first ["acquiredAt", "acquired_at"])
  return (branch, pid, acquiredAt)

/-- `parseWorktreeLeaseFile`. -/
def parseWorktreeLeaseFile (lockFileName : String) (raw : List Char)
    (checkProcessAlive : ℚ → Bool) : WorktreeLeaseRecord :=
  let worktreeName := (lockFileNameToLeaseName lockFileName).getD lockFileName
  match parse raw with
  | none =>
    { lockFileName, worktreeName, branch := worktreeName, pid := -1, acquiredAt := "unknown"
      owner := none, state := .stale, malformed := true }
  | some record =>
    let owner := parseWorktreeLeaseOwner (record.get "owner")
    match storeFields record with
    | some (branch, pid, acquiredAt) =>
      { lockFileName, worktreeName, branch, pid, acquiredAt, owner
        state := if checkProcessAlive pid then .active else .stale
        malformed := false }
    | none =>
      { lockFileName, worktreeName
        branch := (readString (record.get "branch")).getD worktreeName
        pid := ((record.get "pid").bind Double.double?).getD (-1)
        acquiredAt := (readString (record.first ["acquiredAt", "acquired_at"])).getD "unknown"
        owner, state := .stale, malformed := true }

/-! ### The lease of a task -/

/-- The branch that a task is matched by: `resolveTaskBranch`. -/
def resolveTaskBranch (taskId : TaskId) (title : String) (claimBranch : Option String) : String :=
  claimBranch.getD (resolveHubTaskBranch taskId title)

/-- `findWorktreeLeaseForTask`. -/
def findWorktreeLeaseForTask (taskId : TaskId) (title : String) (claimBranch : Option String)
    (leases : List WorktreeLeaseRecord) : Option WorktreeLeaseRecord :=
  let branch := resolveTaskBranch taskId title claimBranch
  leases.find? fun lease =>
    (lease.owner.bind (·.taskId)) == some taskId || lease.branch == branch ||
      lease.worktreeName == branchToWorktreeName branch

end ArchLoop.LeaseFile
