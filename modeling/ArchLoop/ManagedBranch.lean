import ArchLoop.Lib.JsonText
import ArchLoop.Records

/-!
# `ArchLoop.ManagedBranch`: which task branches the Hub may delete

The model of `hubManagedBranchCleanup.ts`, with the part of `claimHubTask` that it rests on. Each
claim of a task looks whether the branch of the task is there, and the event that it writes into
the log of its run says so. The cleanup reads the logs of all runs and keeps one claim for each
branch, the latest. A branch is safe to delete if that claim did not find it.

`BranchHistory` has what happens to the branches of a repository: claims, and branches that are
made or deleted. The candidates are listed here without their order. A claim event has the fields
of its claim, which are texts and not blank.
-/

set_option autoImplicit false

namespace ArchLoop.ManagedBranch

open ArchLoop.Lib

def MANAGED_BRANCH_PREFIX : String := "archloop/"

/-- `HubManagedBranchOwnershipRecord`. -/
structure HubManagedBranchOwnershipRecord where
  taskId : TaskId
  runId : String
  batchId : String
  branch : String
  claimedAt : Timestamp
  baseHead : Oid
  branchExistedBeforeClaim : Bool
  deriving DecidableEq, Repr

/-- A line of a run's `task.jsonl`: a claim, or another event. -/
inductive HubTaskEvent where
  | taskClaimed (claim : HubManagedBranchOwnershipRecord)
  | other (type : String)
  deriving DecidableEq, Repr

/-- A directory of `runs`, with the task events in it. -/
structure RunDir where
  name : String
  taskEvents : List HubTaskEvent
  deriving DecidableEq, Repr

/-! ### Ownership -/

/-- The order of UTF-16 units in which texts are sorted. -/
def unitsLe : List Nat → List Nat → Bool
  | [], _ => true
  | _ :: _, [] => false
  | a :: rest, b :: other => if a = b then unitsLe rest other else decide (a < b)

/-- The order of run directories. Their paths share all but the names. -/
def RunDir.le (a b : RunDir) : Prop :=
  unitsLe (a.name.toList.flatMap JsonText.units) (b.name.toList.flatMap JsonText.units) = true

instance : DecidableRel RunDir.le := fun _ _ => inferInstanceAs (Decidable (_ = _))

/-- `listRunDirs`. -/
def listRunDirs (runs : List RunDir) : List RunDir := runs.insertionSort RunDir.le

/-- The record that an event gives. -/
def ownershipOf : HubTaskEvent → Option HubManagedBranchOwnershipRecord
  | .taskClaimed claim => some claim
  | .other _ => none

/-- One event of the loop of `collectOwnershipRecords`: the claim replaces an earlier one of its
branch. -/
def takeOwnership (records : List HubManagedBranchOwnershipRecord)
    (ownership : HubManagedBranchOwnershipRecord) : List HubManagedBranchOwnershipRecord :=
  match records.find? fun record => record.branch == ownership.branch with
  | none => records ++ [ownership]
  | some current =>
    if current.claimedAt ≤ ownership.claimedAt then
      records.map fun record => if record.branch = ownership.branch then ownership else record
    else records

/-- The claims of all runs, in the order in which they are read. -/
def readClaims (runs : List RunDir) : List HubManagedBranchOwnershipRecord :=
  (listRunDirs runs).flatMap fun runDir => runDir.taskEvents.filterMap ownershipOf

/-- `collectOwnershipRecords`. -/
def collectOwnershipRecords (runs : List RunDir) : List HubManagedBranchOwnershipRecord :=
  (readClaims runs).foldl takeOwnership []

/-! ### Candidates -/

inductive HubManagedBranchCleanupSkipReason where
  | missingOwnership
  | missingBranch
  | branchExistedBeforeClaim
  | unmergedWork
  | activeWorktreeLease
  | checkedOutWorktree
  | dirtyPreservedWorktree
  deriving DecidableEq, Repr

/-- `HubManagedBranchCleanupSkipDetail`. -/
structure HubManagedBranchCleanupSkipDetail where
  reason : HubManagedBranchCleanupSkipReason
  message : String
  deriving DecidableEq, Repr

/-- An entry of `git worktree list`. -/
structure GitWorktreeEntry where
  path : String
  branch : Option String
  deriving DecidableEq, Repr

/-- A worktree lease, as far as the cleanup asks for it. -/
structure BranchLease where
  branch : String
  isActive : Bool
  deriving DecidableEq, Repr

/-- What the cleanup sees of a repository beside the run logs.

- `branches`: the local branches; `mergedIntoTarget`: those that HEAD contains.
- `dirtyPaths`: the worktrees with changes. -/
structure BranchRepository where
  repoRoot : String
  branches : List String
  mergedIntoTarget : List String
  worktreeEntries : List GitWorktreeEntry
  dirtyPaths : List String
  leases : List BranchLease

/-- `HubManagedBranchCleanupCandidate`. -/
structure HubManagedBranchCleanupCandidate where
  branch : String
  ownership : Option HubManagedBranchOwnershipRecord
  branchExists : Bool
  mergedIntoTarget : Bool
  worktreePaths : List String
  activeLeases : List BranchLease
  skipReasons : List HubManagedBranchCleanupSkipDetail
  deriving DecidableEq, Repr

/-- `isManagedBranch`. -/
def isManagedBranch (branch : String) : Bool :=
  MANAGED_BRANCH_PREFIX.toList.isPrefixOf branch.toList

/-- `collectCandidateBranches`. -/
def collectCandidateBranches (records : List HubManagedBranchOwnershipRecord)
    (repository : BranchRepository) : List String :=
  (repository.branches.filter isManagedBranch ++ records.map (·.branch) ++
    (repository.worktreeEntries.filterMap (·.branch)).filter isManagedBranch).eraseDups

section Candidate

variable (repository : BranchRepository) (branch : String)

/-- The paths of `collectBranchWorktreeState`, which is asked only for a branch that exists. -/
def worktreePaths : List String :=
  if branch ∈ repository.branches then
    (repository.worktreeEntries.filter fun entry => entry.branch == some branch).map (·.path)
  else []

/-- `dirtyManagedPaths` of `collectBranchWorktreeState`. -/
def dirtyManagedPaths : List String :=
  (worktreePaths repository branch).filter fun path =>
    (repository.repoRoot ++ "/.archloop/worktrees").toList.isPrefixOf path.toList &&
      decide (path ∈ repository.dirtyPaths)

/-- `activeLeasesForBranch`. -/
def activeLeasesForBranch : List BranchLease :=
  repository.leases.filter fun lease => lease.branch == branch && lease.isActive

/-- The reason that the ownership of a branch gives against deleting it. -/
def ownershipSkip : Option HubManagedBranchOwnershipRecord →
    List HubManagedBranchCleanupSkipDetail
  | none => [⟨.missingOwnership,
      "Branch " ++ branch ++ " has no Hub-managed ownership record."⟩]
  | some ownership =>
    if ownership.branchExistedBeforeClaim then
      [⟨.branchExistedBeforeClaim,
        "Branch " ++ branch ++ " existed before Hub claimed task " ++ ownership.taskId ++
          "; keep it out of automatic cleanup."⟩]
    else []

/-- The reasons that the state of the repository gives against deleting a branch. -/
def repositorySkips : List HubManagedBranchCleanupSkipDetail :=
  let branchExists := decide (branch ∈ repository.branches)
  (if branchExists then [] else
    [⟨.missingBranch, "Branch " ++ branch ++ " does not exist."⟩]) ++
  (if branchExists && decide (branch ∉ repository.mergedIntoTarget) then
    [⟨.unmergedWork, "Branch " ++ branch ++ " still has commits not reachable from HEAD."⟩]
    else []) ++
  (if activeLeasesForBranch repository branch = [] then [] else
    [⟨.activeWorktreeLease, "Branch " ++ branch ++ " still has an active worktree lease."⟩]) ++
  (if worktreePaths repository branch = [] then [] else
    [⟨.checkedOutWorktree, "Branch " ++ branch ++ " is checked out in " ++
      String.intercalate ", " (worktreePaths repository branch) ++ "."⟩]) ++
  (if dirtyManagedPaths repository branch = [] then [] else
    [⟨.dirtyPreservedWorktree, "Branch " ++ branch ++
      " has dirty preserved worktree content in " ++
      String.intercalate ", " (dirtyManagedPaths repository branch) ++ "."⟩])

/-- `evaluateCandidate`. -/
def evaluateCandidate (ownership : Option HubManagedBranchOwnershipRecord) :
    HubManagedBranchCleanupCandidate where
  branch := branch
  ownership := ownership
  branchExists := decide (branch ∈ repository.branches)
  mergedIntoTarget :=
    decide (branch ∈ repository.branches) && decide (branch ∈ repository.mergedIntoTarget)
  worktreePaths := worktreePaths repository branch
  activeLeases := activeLeasesForBranch repository branch
  skipReasons := ownershipSkip branch ownership ++ repositorySkips repository branch

end Candidate

/-- `HubManagedBranchCleanupEvaluation`, with its lists of candidates. -/
structure HubManagedBranchCleanupEvaluation where
  managedSafeCandidates : List HubManagedBranchCleanupCandidate
  managedBlockedBranches : List HubManagedBranchCleanupCandidate
  unownedCandidates : List HubManagedBranchCleanupCandidate

/-- The candidates of `evaluateHubManagedBranchCleanup`. The map of the ownership records has the
last one of a branch. -/
def cleanupCandidates (runs : List RunDir) (repository : BranchRepository) :
    List HubManagedBranchCleanupCandidate :=
  let records := collectOwnershipRecords runs
  (collectCandidateBranches records repository).map fun branch =>
    evaluateCandidate repository branch (records.reverse.find? (·.branch == branch))

/-- `evaluateHubManagedBranchCleanup`. -/
def evaluateHubManagedBranchCleanup (runs : List RunDir) (repository : BranchRepository) :
    HubManagedBranchCleanupEvaluation :=
  let candidates := cleanupCandidates runs repository
  { managedSafeCandidates :=
      candidates.filter fun candidate =>
        candidate.ownership.isSome && candidate.skipReasons.isEmpty
    managedBlockedBranches :=
      candidates.filter fun candidate =>
        candidate.ownership.isSome && !candidate.skipReasons.isEmpty
    unownedCandidates := candidates.filter fun candidate => candidate.ownership.isNone }

/-! ### Histories -/

/-- The arguments of a claim of a task that is not claimed. -/
structure ClaimHubTaskInput where
  taskId : TaskId
  branch : String
  runId : String
  batchId : String
  startedAt : Timestamp
  deriving DecidableEq, Repr

/-- What can happen to the branches: a claim, a branch that is made, one that is deleted, and any
other event in the log of a run. -/
inductive BranchStep where
  | claim (input : ClaimHubTaskInput)
  | createBranch (branch : String)
  | deleteBranch (branch : String)
  | event (runId type : String)
  deriving DecidableEq, Repr

/-- The branches of a repository and the logs of its runs. -/
structure BranchHistory where
  head : Oid
  branches : List String
  runs : List RunDir
  deriving DecidableEq, Repr

/-- `appendHubTaskEvent`, which makes the directory of the run when it is not there. -/
def appendHubTaskEvent (runs : List RunDir) (runId : String) (event : HubTaskEvent) :
    List RunDir :=
  if runId ∈ runs.map (·.name) then
    runs.map fun runDir =>
      if runDir.name = runId then { runDir with taskEvents := runDir.taskEvents ++ [event] }
      else runDir
  else runs ++ [{ name := runId, taskEvents := [event] }]

/-- The claim that `claimHubTask` records, with what `inspectHubManagedBranchClaimContext` finds.
-/
def claimOf (s : BranchHistory) (input : ClaimHubTaskInput) : HubManagedBranchOwnershipRecord where
  taskId := input.taskId
  runId := input.runId
  batchId := input.batchId
  branch := input.branch
  claimedAt := input.startedAt
  baseHead := s.head
  branchExistedBeforeClaim := decide (input.branch ∈ s.branches)

/-- What a step makes of the branches and the logs. -/
def BranchHistory.step (s : BranchHistory) : BranchStep → BranchHistory
  | .claim input =>
    { s with runs := appendHubTaskEvent s.runs input.runId (.taskClaimed (claimOf s input)) }
  | .createBranch branch => { s with branches := branch :: s.branches }
  | .deleteBranch branch => { s with branches := s.branches.filter (· ≠ branch) }
  | .event runId type => { s with runs := appendHubTaskEvent s.runs runId (.other type) }

/-- The branches and the logs after a history. -/
def BranchHistory.run (s : BranchHistory) (steps : List BranchStep) : BranchHistory :=
  steps.foldl BranchHistory.step s

/-- A project without runs. -/
def BranchHistory.start (head : Oid) (branches : List String) : BranchHistory where
  head := head
  branches := branches
  runs := []

/-- The claims that a history makes, with what each of them finds. -/
def BranchHistory.claims (s : BranchHistory) : List BranchStep →
    List HubManagedBranchOwnershipRecord
  | [] => []
  | .claim input :: steps => claimOf s input :: (s.step (.claim input)).claims steps
  | step :: steps => (s.step step).claims steps

end ArchLoop.ManagedBranch
