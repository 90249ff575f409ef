import ArchLoop.Lib.Prog
import Mathlib.Data.List.AList
import Mathlib.Data.String.Defs

/-!
# `ArchLoop.WorktreeLease`: the lock file of a worktree

A process that works in the worktree of a branch holds its lease: the file
`.archloop/locks/<name>.lock`, where `<name>` is the branch with its slashes replaced
(`WorktreeLease.ts`).

`LeaseWorld` is what the processes share: the lock files, the worktree directories and the
process table. Each file operation is one atomic step. `open(path, "wx")` and the write that
follows it are two steps, so a lock file can be seen while it is empty. A lock file has an
inode, because the write goes to the file that the call opened, whatever the path names then.

The operations do not fail, except where the file that they ask for is not there.

Two components are auxiliary, and no program reads them: `holding` has the lock files that a
fiber created and has not released, and `lastOp` the operation that was done last.
-/

set_option autoImplicit false

namespace ArchLoop

open ArchLoop.Lib

/-! ### Names and paths -/

/-- The file name segment of a branch. -/
def branchToWorktreeName (branch : String) : String :=
  String.ofList (branch.toList.map fun c => if c = '/' then '-' else c)

abbrev leaseNameFromBranch := branchToWorktreeName

def LOCK_FILE_SUFFIX : String := ".lock"

/-- The lock file of a lease name, in the locks directory. -/
def lockFileName (leaseName : String) : String := leaseName ++ LOCK_FILE_SUFFIX

/-- The lease name of an entry of the locks directory, if it is a lock file. -/
def lockFileNameToLeaseName (fileName : String) : Option String :=
  if LOCK_FILE_SUFFIX.toList.isSuffixOf fileName.toList then
    some (String.ofList
      (fileName.toList.take (fileName.toList.length - LOCK_FILE_SUFFIX.toList.length)))
  else none

/-- The lock file of a branch, in the locks directory. -/
def branchLock (branch : String) : String := lockFileName (leaseNameFromBranch branch)

def worktreePathForLeaseName (repoDir leaseName : String) : String :=
  repoDir ++ "/.archloop/worktrees/" ++ leaseName

def worktreePathForBranch (repoDir branch : String) : String :=
  worktreePathForLeaseName repoDir (leaseNameFromBranch branch)

def leaseLockPath (repoDir leaseName : String) : String :=
  repoDir ++ "/.archloop/locks/" ++ lockFileName leaseName

theorem lockFileName_of_lockFileNameToLeaseName {fileName leaseName : String}
    (h : lockFileNameToLeaseName fileName = some leaseName) :
    lockFileName leaseName = fileName := by
  unfold lockFileNameToLeaseName at h
  split at h
  · rename_i hsuffix
    obtain ⟨start, hstart⟩ := List.isSuffixOf_iff_suffix.mp hsuffix
    rw [← Option.some.inj h, lockFileName, ← hstart, List.length_append, Nat.add_sub_cancel,
      List.take_left, ← String.toList_inj, String.toList_append, String.toList_ofList, hstart]
  · cases h

/-! ### Metadata -/

inductive WorktreeLeaseOwnerInput where
  | direct
  | hub (taskId flowId batchId : String)
  deriving DecidableEq, Repr

/-- What a lock file says about its owner: `DirectWorktreeLeaseMetadata` or
`HubWorktreeLeaseMetadata`, by its owner. -/
structure WorktreeLeaseMetadata where
  owner : WorktreeLeaseOwnerInput
  pid : Nat
  branch : String
  acquiredAt : String
  deriving DecidableEq, Repr

/-- A JSON object, by the keys that are read from it. A key that is absent or of another type
is `none`. -/
structure LeaseRecord where
  owner : Option String := none
  taskId : Option String := none
  flowId : Option String := none
  batchId : Option String := none
  branch : Option String := none
  pid : Option Int := none
  acquiredAt : Option String := none
  deriving DecidableEq, Repr

def isNonEmptyString (value : Option String) : Option String :=
  value.filter (· ≠ "")

def isPositiveInteger (value : Option Int) : Option Nat :=
  (value.filter (0 < ·)).map Int.toNat

/-- `isDirectWorktreeLeaseMetadata`, with the metadata. -/
def LeaseRecord.directMetadata (record : LeaseRecord) : Option WorktreeLeaseMetadata :=
  if record.owner = some "direct" then
    (isPositiveInteger record.pid).bind fun pid =>
    (isNonEmptyString record.branch).bind fun branch =>
    (isNonEmptyString record.acquiredAt).map fun acquiredAt =>
      { owner := .direct, pid := pid, branch := branch, acquiredAt := acquiredAt }
  else none

/-- `isHubWorktreeLeaseMetadata`, with the metadata. -/
def LeaseRecord.hubMetadata (record : LeaseRecord) : Option WorktreeLeaseMetadata :=
  if record.owner = some "hub" then
    (isNonEmptyString record.taskId).bind fun taskId =>
    (isNonEmptyString record.flowId).bind fun flowId =>
    (isNonEmptyString record.batchId).bind fun batchId =>
    (isNonEmptyString record.branch).bind fun branch =>
    (isPositiveInteger record.pid).bind fun pid =>
    (isNonEmptyString record.acquiredAt).map fun acquiredAt =>
      { owner := .hub taskId flowId batchId, pid := pid, branch := branch
        acquiredAt := acquiredAt }
  else none

/-- `isWorktreeLeaseMetadata`, with the metadata. -/
def LeaseRecord.metadata (record : LeaseRecord) : Option WorktreeLeaseMetadata :=
  record.directMetadata.or record.hubMetadata

def serializeWorktreeLeaseMetadata (metadata : WorktreeLeaseMetadata) : LeaseRecord :=
  match metadata.owner with
  | .direct =>
    { owner := some "direct", pid := some metadata.pid, branch := some metadata.branch
      acquiredAt := some metadata.acquiredAt }
  | .hub taskId flowId batchId =>
    { owner := some "hub", taskId := some taskId, flowId := some flowId, batchId := some batchId
      branch := some metadata.branch, pid := some metadata.pid
      acquiredAt := some metadata.acquiredAt }

theorem pid_of_metadata_serialize {written read : WorktreeLeaseMetadata}
    (h : (serializeWorktreeLeaseMetadata written).metadata = some read) :
    read.pid = written.pid := by
  obtain ⟨owner, pid, branch, acquiredAt⟩ := written
  have hpid : ∀ n, isPositiveInteger (some (pid : Int)) = some n → n = pid := by
    intro n hn
    obtain ⟨z, hz, rfl⟩ := Option.map_eq_some_iff.mp hn
    obtain ⟨hz, -⟩ := Option.filter_eq_some_iff.mp hz
    rw [← Option.some.inj hz, Int.toNat_natCast]
  cases owner with
  | direct =>
    simp only [serializeWorktreeLeaseMetadata, LeaseRecord.metadata, LeaseRecord.directMetadata,
      LeaseRecord.hubMetadata, if_pos, Option.some.injEq, String.reduceEq, if_false,
      Option.or_none, Option.bind_eq_some_iff, Option.map_eq_some_iff] at h
    obtain ⟨n, hn, -, -, -, -, rfl⟩ := h
    exact hpid n hn
  | hub taskId flowId batchId =>
    simp only [serializeWorktreeLeaseMetadata, LeaseRecord.metadata, LeaseRecord.directMetadata,
      LeaseRecord.hubMetadata, if_pos, Option.some.injEq, String.reduceEq, if_false,
      Option.none_or, Option.bind_eq_some_iff, Option.map_eq_some_iff] at h
    obtain ⟨-, -, -, -, -, -, -, -, n, hn, -, -, rfl⟩ := h
    exact hpid n hn

/-! ### Errors -/

inductive WorktreeLeaseErrorReason where
  | active
  | malformed
  | recovery
  deriving DecidableEq, Repr

/-- A `WorktreeLeaseError`. It is the only error here: the file operations do not fail. -/
structure WorktreeLeaseError where
  reason : WorktreeLeaseErrorReason
  branch : String
  leasePath : String
  worktreePath : String
  pid : Option Nat := none
  acquiredAt : Option String := none
  owner : WorktreeLeaseOwnerInput := .direct
  message : String
  deriving DecidableEq, Repr

def malformedLeaseError (repoDir branch detail : String) : WorktreeLeaseError where
  reason := .malformed
  branch := branch
  leasePath := leaseLockPath repoDir (leaseNameFromBranch branch)
  worktreePath := worktreePathForBranch repoDir branch
  message :=
    "Worktree lease at " ++ leaseLockPath repoDir (leaseNameFromBranch branch) ++
    " has invalid metadata (" ++ detail ++ "). " ++
    "Recovery: repair or remove the lease file before reusing worktree at " ++
    worktreePathForBranch repoDir branch ++ "."

def activeLeaseError (metadata : WorktreeLeaseMetadata) (repoDir branch : String) :
    WorktreeLeaseError where
  reason := .active
  branch := branch
  leasePath := leaseLockPath repoDir (leaseNameFromBranch branch)
  worktreePath := worktreePathForBranch repoDir branch
  pid := some metadata.pid
  acquiredAt := some metadata.acquiredAt
  owner := metadata.owner
  message :=
    match metadata.owner with
    | .hub taskId flowId batchId =>
      "Task '" ++ taskId ++ "' already has active execution (flow " ++ flowId ++ ", batch " ++
      batchId ++ ", branch '" ++ metadata.branch ++ "', process " ++ toString metadata.pid ++
      ", acquired at " ++ metadata.acquiredAt ++ "). " ++
      "Wait for that execution to finish, or recover the task if it failed."
    | .direct =>
      "Worktree for branch '" ++ branch ++ "' at " ++ worktreePathForBranch repoDir branch ++
      " is in use by process " ++ toString metadata.pid ++ " (acquired at " ++
      metadata.acquiredAt ++ "). " ++
      "Next action: wait for that run to finish, or recover the task if it failed."

def leaseExistsError (repoDir branch : String) : WorktreeLeaseError where
  reason := .recovery
  branch := branch
  leasePath := leaseLockPath repoDir (leaseNameFromBranch branch)
  worktreePath := worktreePathForBranch repoDir branch
  message := "Worktree lease at " ++ leaseLockPath repoDir (leaseNameFromBranch branch) ++
    " already exists."

/-! ### The shared state -/

/-- A lock file.

- `inode`: which file it is, whatever its name.
- `text`: its JSON object, or `none` if the text is no JSON. A new file is empty. -/
structure LockFile where
  inode : Nat
  text : Option LeaseRecord
  deriving DecidableEq, Repr

/-- An operation on the file system or the process table. -/
inductive LeaseOp where
  | readDirectory
  | access (fileName : String)
  | stat (leaseName : String)
  | readFile (fileName : String)
  | kill (pid : Nat)
  | openExclusive (fileName : String)
  | writeFile (fileName : String)
  | unlink (fileName : String)
  | release (fileName : String)
  deriving DecidableEq, Repr

/-- What the processes share.

- `locks`: the files in the locks directory, by name.
- `worktrees`: whether `.archloop/worktrees/<name>` is a directory.
- `alive`: whether signal 0 reaches the process with this pid.
- `nextInode`: the inode of the next new file.
- `holding`: the inode of the lock file that a fiber created under a name and has not
  released (auxiliary).
- `lastOp`: the operation that was done last (auxiliary). -/
structure LeaseWorld (ι : Type) where
  locks : AList fun _ : String => LockFile
  worktrees : String → Bool
  alive : Nat → Bool
  nextInode : Nat
  holding : ι → String → Option Nat
  lastOp : Option LeaseOp

/-- A fiber that makes a call.

- `pid`: the process that it runs in.
- `now`: the time that the call writes. -/
structure LeaseCaller (ι : Type) where
  fiber : ι
  pid : Nat
  now : String
  deriving DecidableEq

section
variable {ι : Type}

namespace LeaseWorld

/-- The lock file under a name. -/
def lock (s : LeaseWorld ι) (fileName : String) : Option LockFile := s.locks.lookup fileName

variable [DecidableEq ι]

/-- Which lock file a fiber holds under a name, replaced. -/
def hold (s : LeaseWorld ι) (fiber : ι) (fileName : String) (inode : Option Nat) :
    LeaseWorld ι :=
  let files := Function.update (s.holding fiber) fileName inode
  { s with holding := Function.update s.holding fiber files }

/-- `open(path, "wx")`: a new empty file, unless there is one. -/
def openExclusive (s : LeaseWorld ι) (fiber : ι) (fileName : String) : LeaseWorld ι :=
  if (s.lock fileName).isSome then s
  else
    { s.hold fiber fileName (some s.nextInode) with
      locks := s.locks.insert fileName { inode := s.nextInode, text := none }
      nextInode := s.nextInode + 1 }

/-- The write to the opened file. If the path names another file by now, none that has a name
changes. -/
def writeFile (s : LeaseWorld ι) (fileName : String) (inode : Nat) (text : LeaseRecord) :
    LeaseWorld ι :=
  match s.lock fileName with
  | some file =>
    if file.inode = inode then
      { s with locks := s.locks.insert fileName { file with text := some text } }
    else s
  | none => s

/-- `fs.remove` of a lock file. A missing file is not an error. -/
def unlink (s : LeaseWorld ι) (fileName : String) : LeaseWorld ι :=
  { s with locks := s.locks.erase fileName }

end LeaseWorld

variable [DecidableEq ι]

/-- A program on the lock files. -/
abbrev LeaseProg (ι : Type) : Type → Type := Prog (LeaseWorld ι) WorktreeLeaseError

/-- One atomic operation. -/
def leaseStep {α : Type} (op : LeaseOp) (upd : LeaseWorld ι → LeaseWorld ι)
    (answer : LeaseWorld ι → α) : LeaseProg ι α :=
  .act (fun s => { upd s with lastOp := some op }) fun s => .ret (answer s)

/-! ### The functions -/

/-- `isProcessAlive`. The pid of a parsed metadata is positive. -/
def isProcessAlive (pid : Nat) : LeaseProg ι Bool :=
  leaseStep (.kill pid) id fun s => s.alive pid

def fsExists (fileName : String) : LeaseProg ι Bool :=
  leaseStep (.access fileName) id fun s => (s.lock fileName).isSome

/-- `fs.readFileString`: the JSON of the file, or `none` when there is no file. -/
def readFileString (fileName : String) : LeaseProg ι (Option (Option LeaseRecord)) :=
  leaseStep (.readFile fileName) id fun s => (s.lock fileName).map LockFile.text

def worktreeExists (leaseName : String) : LeaseProg ι Bool :=
  leaseStep (.stat leaseName) id fun s => s.worktrees leaseName

def readLocksDirectory : LeaseProg ι (List String) :=
  leaseStep .readDirectory id fun s => s.locks.keys

def removeLeaseFileByPath (fileName : String) : LeaseProg ι Unit :=
  leaseStep (.unlink fileName) (LeaseWorld.unlink · fileName) fun _ => ()

def removeLeaseFile (branch : String) : LeaseProg ι Unit :=
  removeLeaseFileByPath (branchLock branch)

def parseLeaseMetadata (text : Option LeaseRecord) (repoDir branch : String)
    (requireBranchMatch : Bool) : Except WorktreeLeaseError WorktreeLeaseMetadata :=
  match text with
  | none => .error (malformedLeaseError repoDir branch "invalid JSON")
  | some record =>
    match record.metadata with
    | none => .error (malformedLeaseError repoDir branch "missing required fields")
    | some metadata =>
      if requireBranchMatch && metadata.branch ≠ branch then
        .error (malformedLeaseError repoDir branch
          ("branch '" ++ metadata.branch ++ "' does not match '" ++ branch ++ "'"))
      else .ok metadata

/-- The program that returns or throws what was computed. -/
def ofExcept {α : Type} : Except WorktreeLeaseError α → LeaseProg ι α
  | .ok a => .ret a
  | .error e => .raise e

def readLeaseMetadata (repoDir branch : String) : LeaseProg ι WorktreeLeaseMetadata :=
  (readFileString (branchLock branch)).bind fun raw =>
    match raw with
    | none => .raise (malformedLeaseError repoDir branch "lease file unreadable")
    | some text => ofExcept (parseLeaseMetadata text repoDir branch true)

def buildWorktreeLeaseMetadata (caller : LeaseCaller ι) (branch : String)
    (owner : WorktreeLeaseOwnerInput) : WorktreeLeaseMetadata where
  owner := owner
  pid := caller.pid
  branch := branch
  acquiredAt := caller.now

/-- The locks directory is there, so `makeDirectory` does nothing. -/
def createLeaseFileAtomic (caller : LeaseCaller ι) (repoDir branch : String)
    (metadata : WorktreeLeaseMetadata) : LeaseProg ι Unit :=
  (leaseStep (.openExclusive (branchLock branch))
    (LeaseWorld.openExclusive · caller.fiber (branchLock branch))
    fun s => if (s.lock (branchLock branch)).isSome then none else some s.nextInode).bind
  fun created =>
    match created with
    | none => .raise (leaseExistsError repoDir branch)
    | some inode =>
      leaseStep (.writeFile (branchLock branch))
        (LeaseWorld.writeFile · (branchLock branch) inode
          (serializeWorktreeLeaseMetadata metadata)) fun _ => ()

inductive LeaseRecovery where
  | removed
  | active
  | absent
  deriving DecidableEq, Repr

/-- Removes a lock file whose owner is gone or whose worktree is missing. -/
def recoverStaleWorktreeLeaseIfNeeded (repoDir branch : String) : LeaseProg ι LeaseRecovery :=
  (fsExists (branchLock branch)).bind fun found =>
  if !found then .ret .absent
  else
    (worktreeExists (leaseNameFromBranch branch)).bind fun worktree =>
    if !worktree then (removeLeaseFile branch).bind fun _ => .ret .removed
    else
      (readLeaseMetadata repoDir branch).bind fun metadata =>
      (isProcessAlive metadata.pid).bind fun alive =>
      if alive then .ret .active
      else (removeLeaseFile branch).bind fun _ => .ret .removed

/-- Its value is `staleLeaseCleared`. -/
def checkWorktreeLeaseBeforeHubRetry (repoDir branch : String) : LeaseProg ι Bool :=
  (recoverStaleWorktreeLeaseIfNeeded repoDir branch).bind fun recovery =>
    match recovery with
    | .active =>
      (readLeaseMetadata repoDir branch).bind fun existing =>
        .raise (activeLeaseError existing repoDir branch)
    | .removed => .ret true
    | .absent => .ret false

def ensureLeaseAvailableForAcquisition (repoDir branch : String) : LeaseProg ι Unit :=
  (checkWorktreeLeaseBeforeHubRetry repoDir branch).bind fun _ => .ret ()

/-- The lease that was acquired. Its name and paths follow from the branch. -/
structure AcquiredWorktreeLease where
  branch : String
  pid : Nat
  acquiredAt : String
  owner : WorktreeLeaseOwnerInput
  deriving DecidableEq, Repr

def toAcquiredWorktreeLease (branch : String) (metadata : WorktreeLeaseMetadata) :
    AcquiredWorktreeLease where
  branch := branch
  pid := metadata.pid
  acquiredAt := metadata.acquiredAt
  owner := metadata.owner

def acquireWorktreeLease (caller : LeaseCaller ι) (repoDir branch : String)
    (owner : WorktreeLeaseOwnerInput) : LeaseProg ι AcquiredWorktreeLease :=
  let metadata := buildWorktreeLeaseMetadata caller branch owner
  let tryAcquire := createLeaseFileAtomic caller repoDir branch metadata
  (ensureLeaseAvailableForAcquisition repoDir branch).bind fun _ =>
  (tryAcquire.tryCatch fun error =>
    if error.reason = .recovery then
      (ensureLeaseAvailableForAcquisition repoDir branch).bind fun _ => tryAcquire
    else .raise error).bind fun _ =>
  .ret (toAcquiredWorktreeLease branch metadata)

/-- `releaseWorktreeLease`. The fiber no longer holds the lease. -/
def releaseWorktreeLease (caller : LeaseCaller ι) (branch : String) : LeaseProg ι Unit :=
  leaseStep (.release (branchLock branch))
    (fun s => (s.unlink (branchLock branch)).hold caller.fiber (branchLock branch) none)
    fun _ => ()

/-- One turn of the loop of `pruneOrphanWorktreeLeases`. -/
def pruneOrphanEntry (entry : String) : LeaseProg ι Unit :=
  match lockFileNameToLeaseName entry with
  | none => .ret ()
  | some leaseName =>
    (worktreeExists leaseName).bind fun worktree =>
      if !worktree then removeLeaseFileByPath entry else .ret ()

/-- One turn of the loop of `pruneStaleWorktreeLeases`. -/
def pruneStaleEntry (repoDir entry : String) : LeaseProg ι Unit :=
  match lockFileNameToLeaseName entry with
  | none => .ret ()
  | some leaseName =>
    (readFileString entry).bind fun raw =>
      match raw with
      | none => .ret ()
      | some text =>
        match parseLeaseMetadata text repoDir leaseName false with
        | .error _ => .ret ()
        | .ok metadata =>
          ((recoverStaleWorktreeLeaseIfNeeded repoDir metadata.branch).bind fun _ =>
            .ret ()).tryCatch fun error =>
              if error.reason = .malformed then .ret () else .raise error

/-- A loop over the entries of the locks directory. -/
def forEntries (body : String → LeaseProg ι Unit) : List String → LeaseProg ι Unit
  | [] => .ret ()
  | entry :: entries => (body entry).bind fun _ => forEntries body entries

def pruneOrphanWorktreeLeases : LeaseProg ι Unit :=
  readLocksDirectory.bind fun entries => forEntries pruneOrphanEntry entries

def pruneStaleWorktreeLeases (repoDir : String) : LeaseProg ι Unit :=
  pruneOrphanWorktreeLeases.bind fun _ =>
  readLocksDirectory.bind fun entries => forEntries (pruneStaleEntry repoDir) entries

end

end ArchLoop
