import ArchLoop.Lib.Prog
import ArchLoop.Lib.Text
import ArchLoop.World
import Mathlib.Data.List.Sort

/-!
# `ArchLoop.Checkout`: the host branch follows the publish target

The model of `projectHubCheckoutOutbox` (`hubCheckoutProjection.ts`). For each item of the
checkout outbox it moves the host branch forward to the landed candidate: with `git
update-ref` when no user worktree has the branch checked out, and with `git merge --ff-only`
in the owning worktree when exactly one has it and Git shows nothing in it that could be lost.

Each Git command is one step on the `HostRepository`, and so is each write of an outbox file.
Between the steps users commit. The outputs that the code parses are texts here as well, read
through `tryGitTextSync`, with the limit that Node puts on the output of a child process.
The fault injection of the tests is left out: a run may end after any step.
-/

set_option autoImplicit false

namespace ArchLoop

open ArchLoop.Lib

/-! ### The outbox -/

/-- `HubCheckoutPendingReason`. -/
inductive HubCheckoutPendingReason where
  | stagedChanges
  | unstagedChanges
  | untrackedPaths
  | renameOrDelete
  | operationInProgress
  | sparseCheckout
  | submodule
  | multipleWorktrees
  | branchDiverged
  deriving DecidableEq, Repr

/-- The text of a reason (`HUB_CHECKOUT_PENDING_REASONS`). -/
def HubCheckoutPendingReason.text : HubCheckoutPendingReason → String
  | .stagedChanges => "staged_changes"
  | .unstagedChanges => "unstaged_changes"
  | .untrackedPaths => "untracked_paths"
  | .renameOrDelete => "rename_or_delete"
  | .operationInProgress => "operation_in_progress"
  | .sparseCheckout => "sparse_checkout"
  | .submodule => "submodule"
  | .multipleWorktrees => "multiple_worktrees"
  | .branchDiverged => "branch_diverged"

/-- `HubCheckoutProjectionStatus`. -/
inductive HubCheckoutProjectionStatus where
  | pending
  | succeeded
  deriving DecidableEq, Repr

/-- The file of an outbox item, with what the projection adds to it. -/
structure HubCheckoutOutboxFile extends HubCheckoutOutboxItem where
  id : String
  branchRef : String
  publishTargetRef : String
  status : HubCheckoutProjectionStatus := .pending
  createdAt : Timestamp := 0
  updatedAt : Timestamp := 0
  pendingReason : Option HubCheckoutPendingReason := none
  message : Option String := none
  projectedOid : Option Oid := none
  worktreePath : Option String := none
  deriving DecidableEq, Repr

/-- `branchRefFor`. -/
def branchRefFor (hostTargetBranch : String) : String :=
  if (sliceAfter "refs/" hostTargetBranch).isSome then hostTargetBranch
  else "refs/heads/" ++ hostTargetBranch

/-! ### The host repository -/

/-- What is checked out in a worktree. -/
inductive WorktreeHead where
  | bare
  | branch (name : String)
  | detached (oid : Oid)
  deriving DecidableEq, Repr

/-- A worktree of the host repository.

- `status`: what `git status --porcelain=v1 --untracked-files=all` prints.
- `pseudoRefs`: the refs such as `MERGE_HEAD` that resolve there.
- `gitPaths`: the paths such as `rebase-merge` that exist in its Git directory.
- `sparse`: `core.sparseCheckout` is true.
- `index`: what `git ls-files -s` prints. -/
structure HostWorktree where
  path : String
  head : WorktreeHead
  status : String := ""
  pseudoRefs : List String := []
  gitPaths : List String := []
  sparse : Bool := false
  index : String := ""
  deriving DecidableEq, Repr

/-- The branch that is checked out. -/
def HostWorktree.branch (w : HostWorktree) : Option String :=
  match w.head with
  | .branch name => some name
  | _ => none

/-- What Git computes from commits and worktrees.

- `lsTree oid`: what `git ls-tree -r` prints for a commit.
- `statusBehind w oid`: the status of a worktree whose branch was moved to `oid` from
  elsewhere.
- `overwrites w oid`: a merge of `oid` would overwrite local changes, so Git refuses it. -/
structure HostGit where
  lsTree : Oid → String
  statusBehind : HostWorktree → Oid → String
  overwrites : HostWorktree → Oid → Bool

/-- The repository that users work in.

- `refs`: the refs of the repository.
- `refsLocked`: another Git process holds a ref lock, so no ref can be moved.
- `worktrees`: the worktrees, in the order in which Git lists them.
- `outbox`: the files of the checkout outbox. -/
structure HostRepository where
  refs : String → Option Oid := fun _ => none
  refsLocked : Bool := false
  worktrees : List HostWorktree := []
  outbox : List HubCheckoutOutboxFile := []

/-- Where the repository and the Hub project are. -/
structure HostProject where
  repoRoot : String
  hubProjectDir : String

/-- A program on the host repository. Its errors are failed Git commands. -/
abbrev HostProg (α : Type) : Type := Prog HostRepository String α

namespace HostRepository

/-- The worktree that a command with this working directory runs in. -/
def worktreeAt (s : HostRepository) (cwd : String) : Option HostWorktree :=
  s.worktrees.find? fun w => w.path == cwd

/-- The commit that `HEAD` names in the worktree. -/
def headOid (s : HostRepository) (w : HostWorktree) : Option Oid :=
  match w.head with
  | .bare => none
  | .branch name => s.refs ("refs/heads/" ++ name)
  | .detached oid => some oid

/-- The lines of one worktree in `git worktree list --porcelain`. -/
def porcelainLines (s : HostRepository) (w : HostWorktree) : List String :=
  let first := "worktree " ++ w.path
  let head := "HEAD " ++ (s.headOid w).getD "0000000000000000000000000000000000000000"
  match w.head with
  | .bare => [first, "bare"]
  | .branch name => [first, head, "branch refs/heads/" ++ name]
  | .detached _ => [first, head, "detached"]

/-- What `git worktree list --porcelain` prints. -/
def worktreeList (s : HostRepository) : String :=
  unlines (s.worktrees.flatMap fun w => s.porcelainLines w ++ [""])

/-- The branch `refs/heads/<name>` is moved to `oid`. The worktree `cwd` follows, and the
others that have it checked out are left behind. -/
def moveBranch (host : HostGit) (s : HostRepository) (ref : String) (oid : Oid)
    (cwd : Option String) : HostRepository :=
  { s with
    refs := Function.update s.refs ref (some oid)
    worktrees := s.worktrees.map fun w =>
      if w.branch.map ("refs/heads/" ++ ·) = some ref ∧ some w.path ≠ cwd then
        { w with status := host.statusBehind w oid }
      else w }

/-- `git update-ref <ref> <new> <old>`: it compares and swaps. -/
def updateRef (host : HostGit) (s : HostRepository) (ref : String) (new old : Oid) :
    Option HostRepository :=
  if s.refs ref = some old ∧ s.refsLocked = false then some (s.moveBranch host ref new none)
  else none

/-- `git merge --ff-only <candidate>` in the worktree at `cwd`. Git does not start it while
another merge or a cherry-pick is to be concluded. -/
def mergeFfOnly (git : Git) (host : HostGit) (s : HostRepository) (cwd : String)
    (candidateOid : Oid) : Option HostRepository :=
  (s.worktreeAt cwd).bind fun w =>
    let refuses := host.overwrites w candidateOid || s.refsLocked
    if w.pseudoRefs.contains "MERGE_HEAD" || w.pseudoRefs.contains "CHERRY_PICK_HEAD" then none
    else match w.head, s.headOid w with
    | .bare, _ => none
    | .branch name, some oid =>
      if git.isAncestor candidateOid oid then some s
      else if git.isAncestor oid candidateOid && !refuses then
        some (s.moveBranch host ("refs/heads/" ++ name) candidateOid (some cwd))
      else none
    | .branch name, none =>
      if refuses then none
      else some (s.moveBranch host ("refs/heads/" ++ name) candidateOid (some cwd))
    | .detached oid, _ =>
      if git.isAncestor candidateOid oid then some s
      else if git.isAncestor oid candidateOid && !refuses then
        some { s with
          worktrees := s.worktrees.map fun v =>
            if v.path = cwd then { v with head := .detached candidateOid } else v }
      else none

end HostRepository

/-! ### Git commands -/

/-- The limit of `execFileSync` on what a child process prints. A longer output is an error. -/
def MAX_BUFFER : Nat := 1024 * 1024

/-- `tryGitTextSync`: the trimmed output of a command, unless the command fails. -/
def tryGitTextSync (output : Option String) : Option String :=
  output.bind fun text => if text.utf8ByteSize ≤ MAX_BUFFER then some (trim text) else none

/-- `currentBranchOid`. -/
def currentBranchOid (branchRef : String) : HostProg (Option Oid) :=
  .reads fun s => s.refs branchRef

/-! ### Worktrees -/

/-- An entry of the worktree list. -/
structure GitWorktree where
  path : String
  branch : Option String
  deriving DecidableEq, Repr

/-- The state of the loop of `parseWorktreeList`. -/
structure WorktreeListParse where
  entries : List GitWorktree := []
  currentPath : Option String := none
  currentBranch : Option String := none
  deriving DecidableEq, Repr

/-- `flush`: the entry that was read is complete. An empty path counts as none. -/
def WorktreeListParse.flush (p : WorktreeListParse) : WorktreeListParse where
  entries :=
    match p.currentPath with
    | some path => if path = "" then p.entries else p.entries ++ [⟨path, p.currentBranch⟩]
    | none => p.entries

/-- One line of the list. -/
def WorktreeListParse.line (p : WorktreeListParse) (line : String) : WorktreeListParse :=
  match sliceAfter "worktree " line with
  | some path => { p.flush with currentPath := some (trim path) }
  | none =>
    match sliceAfter "branch refs/heads/" line with
    | some branch => { p with currentBranch := some (trim branch) }
    | none => p

/-- `parseWorktreeList`. -/
def parseWorktreeList (output : String) : List GitWorktree :=
  ((splitLines output).foldl WorktreeListParse.line {}).flush.entries

/-- `resolve` of an absolute path, as the list of its names. -/
def resolvePath (path : String) : List String :=
  ((path.toList.splitOn '/').map String.ofList).foldl
    (fun names name =>
      if name = "" ∨ name = "." then names
      else if name = ".." then names.dropLast
      else names ++ [name])
    []

/-- `isHubOwnedPath`: the relative path from the Hub project does not start with `..`. -/
def isHubOwnedPath (hubProjectDir worktreePath : String) : Bool :=
  let hub := resolvePath hubProjectDir
  let names := resolvePath worktreePath
  if hub.isPrefixOf names then
    match names.drop hub.length with
    | [] => true
    | name :: _ => (sliceAfter ".." name).isNone
  else false

/-- `listUserWorktrees`. Without a list from Git, the repository root is the only one. -/
def listUserWorktrees (project : HostProject) : HostProg (List GitWorktree) :=
  (Prog.reads fun s => tryGitTextSync (some s.worktreeList)).bind fun output =>
    match output with
    | some text =>
      if text = "" then showCurrent
      else return (parseWorktreeList text).filter fun entry =>
        !isHubOwnedPath project.hubProjectDir entry.path
    | none => showCurrent
where
  showCurrent : HostProg (List GitWorktree) :=
    (Prog.reads fun s => (s.worktreeAt project.repoRoot).map fun w => w.branch.getD "").bind
      fun branch => return [⟨project.repoRoot, branch⟩]

/-- `owningWorktrees`. -/
def owningWorktrees (worktrees : List GitWorktree) (hostTargetBranch : String) :
    List GitWorktree :=
  worktrees.filter fun entry => entry.branch == some hostTargetBranch

/-! ### Safety -/

/-- `OPERATION_HEAD_REFS`. -/
def OPERATION_HEAD_REFS : List String :=
  ["MERGE_HEAD", "REBASE_HEAD", "CHERRY_PICK_HEAD", "REVERT_HEAD"]

/-- `OPERATION_GIT_PATHS`. -/
def OPERATION_GIT_PATHS : List String :=
  ["rebase-merge", "rebase-apply", "BISECT_LOG", "BISECT_START"]

/-- One question after the other about the worktree at `cwd`, until one is answered with yes.
Where there is no worktree, every command fails. -/
def askSome (cwd : String) (question : HostWorktree → String → Bool) :
    List String → HostProg Bool
  | [] => return false
  | name :: names =>
    (Prog.reads fun s => (s.worktreeAt cwd).any (question · name)).bind fun yes =>
      if yes then return true else askSome cwd question names

/-- `hasOperationInProgress`. -/
def hasOperationInProgress (cwd : String) : HostProg Bool :=
  (askSome cwd (fun w ref => w.pseudoRefs.contains ref) OPERATION_HEAD_REFS).bind fun found =>
    if found then return true
    else askSome cwd (fun w path => w.gitPaths.contains path) OPERATION_GIT_PATHS

/-- `hasSparseCheckout`. -/
def hasSparseCheckout (cwd : String) : HostProg Bool :=
  .reads fun s => (s.worktreeAt cwd).any (·.sparse)

/-- A line for a gitlink. -/
def hasGitlinkLine (output : Option String) : Bool :=
  (splitLines (output.getD "")).any fun line => (sliceAfter "160000 " line).isSome

/-- `treeHasGitlink`. -/
def treeHasGitlink (host : HostGit) (cwd : String) (candidateOid : Oid) : HostProg Bool :=
  (Prog.reads fun s => tryGitTextSync ((s.worktreeAt cwd).map (·.index))).bind fun staged =>
    if hasGitlinkLine staged then return true
    else (Prog.reads fun s =>
      tryGitTextSync ((s.worktreeAt cwd).map fun _ => host.lsTree candidateOid)).bind fun tree =>
        return hasGitlinkLine tree

/-- `isRenameCopyOrDeleteCode`. -/
def isRenameCopyOrDeleteCode (code : Char) : Bool :=
  code == 'R' || code == 'C' || code == 'D'

/-- The character at the position of a line. A short line has a space there. -/
def statusCode (line : String) (position : Nat) : Char :=
  (line.toList[position]?).getD ' '

/-- `classifyPorcelain`. -/
def classifyPorcelain (status : String) : Option HubCheckoutPendingReason :=
  let lines := (splitLines status).filter fun line => line ≠ ""
  if lines.isEmpty then none
  else if lines.any fun line =>
      isRenameCopyOrDeleteCode (statusCode line 0) ||
        isRenameCopyOrDeleteCode (statusCode line 1) then some .renameOrDelete
  else if lines.any fun line => (sliceAfter "??" line).isSome || (sliceAfter "!!" line).isSome then
    some .untrackedPaths
  else if lines.any fun line => statusCode line 0 != ' ' && statusCode line 0 != '?' then
    some .stagedChanges
  else some .unstagedChanges

/-- `inspectOwningWorktreeSafety`. A status that cannot be read counts as an empty one. -/
def inspectOwningWorktreeSafety (host : HostGit) (cwd : String) (candidateOid : Oid) :
    HostProg (Option HubCheckoutPendingReason) :=
  (hasOperationInProgress cwd).bind fun operation =>
    if operation then return some .operationInProgress
    else (hasSparseCheckout cwd).bind fun sparse =>
      if sparse then return some .sparseCheckout
      else (treeHasGitlink host cwd candidateOid).bind fun gitlink =>
        if gitlink then return some .submodule
        else (Prog.reads fun s => tryGitTextSync ((s.worktreeAt cwd).map (·.status))).bind
          fun status => return classifyPorcelain (status.getD "")

/-! ### Outbox files -/

/-- `writeOutboxItem`. -/
def writeCheckoutItem (item : HubCheckoutOutboxFile) : HostProg HubCheckoutOutboxFile :=
  (Prog.modify fun s =>
    { s with
      outbox :=
        if s.outbox.any fun other => other.id == item.id then
          s.outbox.map fun other => if other.id = item.id then item else other
        else s.outbox ++ [item] }).bind fun _ => return item

/-- `pendingMessage`. -/
def pendingCheckoutMessage (item : HubCheckoutOutboxFile) : String :=
  let reason := (item.pendingReason.map (·.text)).getD "unsafe_checkout"
  s!"Checkout sync pending for {item.taskId} ({reason}): host branch {item.hostTargetBranch} was not updated. Landed candidate {item.candidateOid} remains on the Hub publish target and the task can stay shipped. This is not a task failure and does not require a recovery command."

/-- `succeededMessage`. -/
def succeededCheckoutMessage (item : HubCheckoutOutboxFile) : String :=
  let oid := item.projectedOid.getD item.candidateOid
  s!"Checkout synced {item.hostTargetBranch} to {oid}."

/-- The item of `markSucceeded`. -/
def HubCheckoutOutboxFile.succeeded (item : HubCheckoutOutboxFile) (projectedOid : Oid)
    (worktreePath : Option String) (now : Timestamp) : HubCheckoutOutboxFile :=
  { item with
    status := .succeeded, updatedAt := now, projectedOid := some projectedOid
    pendingReason := none, message := none
    worktreePath := worktreePath <|> item.worktreePath }

/-- The item of `markPending`. -/
def HubCheckoutOutboxFile.pending (item : HubCheckoutOutboxFile)
    (reason : HubCheckoutPendingReason) (now : Timestamp) : HubCheckoutOutboxFile :=
  let next := { item with status := .pending, pendingReason := some reason, updatedAt := now }
  { next with message := some (pendingCheckoutMessage next) }

/-! ### Projecting -/

section
variable (git : Git) (host : HostGit) (project : HostProject)

/-- `hostBranchAlreadyContainsCandidate`. -/
def hostBranchAlreadyContainsCandidate (candidateOid : Oid) (currentOid : Option Oid) : Bool :=
  currentOid.any fun oid => git.isAncestor candidateOid oid

/-- `candidateIsFastForwardOf`. -/
def candidateIsFastForwardOf (candidateOid : Oid) (currentOid : Option Oid) : Bool :=
  currentOid.any fun oid => git.isAncestor oid candidateOid

/-- `casFailureReason`. -/
def casFailureReason (candidateOid : Oid) (observedOid : Option Oid) : HubCheckoutPendingReason :=
  if observedOid.any fun oid => !git.isAncestor oid candidateOid then .branchDiverged
  else .operationInProgress

/-- A Git command that moves a branch, or fails and leaves all as it is. -/
def mutateHost (command : HostRepository → Option HostRepository) : HostProg Unit :=
  .act (fun s => (command s).getD s) fun s =>
    if (command s).isSome then .ret () else .raise "git failed"

/-- `attemptCas`. -/
def attemptCas (item : HubCheckoutOutboxFile) (currentOid : Oid) : HostProg Unit :=
  mutateHost fun s => s.updateRef host item.branchRef item.candidateOid currentOid

/-- `attemptFastForward`. -/
def attemptFastForward (worktreePath : String) (candidateOid : Oid) : HostProg Unit :=
  mutateHost fun s => s.mergeFfOnly git host worktreePath candidateOid

/-- `advanceHostBranchWithCrashWindows`. After a failed command the branch is read again,
because someone else may have moved it. -/
def advanceHostBranchWithCrashWindows (item : HubCheckoutOutboxFile) (now : Timestamp)
    (mutate : HostProg Unit)
    (pendingReasonAfterFailure : Option Oid → HostProg HubCheckoutPendingReason)
    (worktreePath : Option String) : HostProg HubCheckoutOutboxFile :=
  (Prog.attempt mutate).bind fun moved =>
    match moved with
    | .ok _ => writeCheckoutItem (item.succeeded item.candidateOid worktreePath now)
    | .error _ =>
      (currentBranchOid item.branchRef).bind fun observedOid =>
        if hostBranchAlreadyContainsCandidate git item.candidateOid observedOid then
          writeCheckoutItem (item.succeeded (observedOid.getD "") worktreePath now)
        else (pendingReasonAfterFailure observedOid).bind fun reason =>
          writeCheckoutItem (item.pending reason now)

/-- The part of `projectOneItem` for a branch that no user worktree has checked out. -/
def projectUnowned (item : HubCheckoutOutboxFile) (currentOid : Oid) (now : Timestamp) :
    HostProg HubCheckoutOutboxFile :=
  advanceHostBranchWithCrashWindows git item now (attemptCas host item currentOid)
    (fun observedOid => return casFailureReason git item.candidateOid observedOid) none

/-- The part of `projectOneItem` for a branch that one user worktree has checked out. -/
def projectOwned (item : HubCheckoutOutboxFile) (owner : GitWorktree) (now : Timestamp) :
    HostProg HubCheckoutOutboxFile :=
  (inspectOwningWorktreeSafety host owner.path item.candidateOid).bind fun unsafety =>
    match unsafety with
    | some reason => writeCheckoutItem (item.pending reason now)
    | none =>
      advanceHostBranchWithCrashWindows git item now
        (attemptFastForward git host owner.path item.candidateOid)
        (fun _ => (inspectOwningWorktreeSafety host owner.path item.candidateOid).bind fun reason =>
          return reason.getD .operationInProgress)
        (some owner.path)

/-- `projectOneItem`. -/
def projectOneCheckout (item : HubCheckoutOutboxFile) (now : Timestamp) :
    HostProg HubCheckoutOutboxFile :=
  if item.status = .succeeded then return item
  else (currentBranchOid item.branchRef).bind fun currentOid =>
    if hostBranchAlreadyContainsCandidate git item.candidateOid currentOid then
      writeCheckoutItem (item.succeeded (currentOid.getD "") none now)
    else if !candidateIsFastForwardOf git item.candidateOid currentOid then
      writeCheckoutItem (item.pending .branchDiverged now)
    else (listUserWorktrees project).bind fun worktrees =>
      match owningWorktrees worktrees item.hostTargetBranch with
      | [] => projectUnowned git host item (currentOid.getD "") now
      | [owner] => projectOwned git host item owner now
      | _ => writeCheckoutItem (item.pending .multipleWorktrees now)

/-- The loop of `projectHubCheckoutOutbox`. -/
def projectCheckouts (now : Timestamp) :
    List HubCheckoutOutboxFile → HostProg (List HubCheckoutOutboxFile)
  | [] => return []
  | item :: items =>
    (projectOneCheckout git host project item now).bind fun projected =>
      (projectCheckouts now items).bind fun rest => return projected :: rest

end

/-- `listHubCheckoutOutboxItems`. -/
def HostRepository.checkoutItems (s : HostRepository) : List HubCheckoutOutboxFile :=
  s.outbox.insertionSort fun a b => a.createdAt ≤ b.createdAt

/-- `HubCheckoutProjectionOutcome`, with its attempts as the items that they left. -/
structure HubCheckoutProjectionOutcome where
  attempts : List HubCheckoutOutboxFile
  pendingCount : Nat
  succeededCount : Nat
  message : String
  deriving DecidableEq, Repr

/-- `formatHubCheckoutSyncMessage`. -/
def formatHubCheckoutSyncMessage (items : List HubCheckoutOutboxFile) : String :=
  match items.find? fun item => item.status = .pending with
  | some item => pendingCheckoutMessage item
  | none => ""

/-- `projectHubCheckoutOutbox`. -/
def projectHubCheckoutOutbox (git : Git) (host : HostGit) (project : HostProject)
    (now : Timestamp) : HostProg HubCheckoutProjectionOutcome :=
  (Prog.reads fun s => s.checkoutItems).bind fun items =>
    (projectCheckouts git host project now items).bind fun attempts =>
      return {
        attempts := attempts
        pendingCount := attempts.countP fun item => item.status = .pending
        succeededCount := attempts.countP fun item => item.status = .succeeded
        message := formatHubCheckoutSyncMessage attempts }

end ArchLoop
