import ArchLoop.Lib.Text
import ArchLoop.WorktreeLease

/-!
# `ArchLoop.SandboxFactory`: a run in the worktree of a branch

`withSandbox` with an explicit branch (`SandboxFactory.ts`): take the lease of the branch,
prune, create the worktree, set the sandbox up, run the agent, clean up and give the lease
back. The worktrees themselves are handled by `WorktreeManager.ts`.

Git, the hooks, the sandbox provider and the agent are outside. `WorktreeGit` and
`SandboxRun` have their answers, and what they do to the worktree directories. They do not
touch the lock files. Timeouts are left out.
-/

set_option autoImplicit false

namespace ArchLoop

open ArchLoop.Lib

/-! ### Errors and answers -/

/-- What `withSandbox` fails with.

- `worktree`: a `WorktreeError`.
- `outside`: an error of a hook, of the provider or of a copy.
- `agent`: an `AgentError` or an `AgentIdleTimeoutError`. -/
inductive SandboxError where
  | worktree (message : String)
  | outside (message : String)
  | agent (message : String) (preservedWorktreePath : Option String)
  deriving DecidableEq, Repr

/-- A program in `SandboxFactory.ts`. -/
abbrev SandboxProg (ι : Type) : Type → Type := Prog (LeaseWorld ι) SandboxError

/-- A step outside of archloop: its answer, and what becomes of the worktree directories. -/
structure OutsideStep where
  answer : Except SandboxError Unit := .ok ()
  worktrees : (String → Bool) → String → Bool := id

/-- Git's answers to `WorktreeManager`, each an error message or the output.

- `entries`: the entries of `.archloop/worktrees`, if the directory is there.
- `removeDirectory`: the answer to the removal of an entry.
- `realWorktreesDir`: the real path of `.archloop/worktrees`.
- `realPath`: the real path of a new worktree. -/
structure WorktreeGit where
  prune : Except String Unit := .ok ()
  entries : Except String (Option (List String)) := .ok none
  pruneList : Except String String := .ok ""
  removeDirectory : String → Except String Unit := fun _ => .ok ()
  verifyHead : Except String Unit := .ok ()
  makeDirectory : Except String Unit := .ok ()
  list : Except String String := .ok ""
  status : String → Except String String := fun _ => .ok ""
  add : Except String Unit := .ok ()
  addNew : Except String Unit := .ok ()
  realWorktreesDir : String
  realPath : String → String := id
  statusAfter : Except String String := .ok ""
  remove : OutsideStep := {}

/-! ### `WorktreeManager.ts` -/

structure WorktreeEntry where
  path : String
  branch : Option String
  deriving DecidableEq, Repr

structure WorktreeInfo where
  path : String
  branch : String
  deriving DecidableEq, Repr

/-- Where the parser of `git worktree list --porcelain` is. -/
structure WorktreeListState where
  entries : List WorktreeEntry := []
  currentPath : Option String := none
  currentBranch : Option String := none

/-- The entries, with the one that is being read. -/
def WorktreeListState.finish (state : WorktreeListState) : List WorktreeEntry :=
  match state.currentPath with
  | some path => state.entries ++ [{ path := path, branch := state.currentBranch }]
  | none => state.entries

def WorktreeListState.line (state : WorktreeListState) (line : String) : WorktreeListState :=
  match sliceAfter "worktree " line with
  | some path =>
    { entries := state.finish, currentPath := some (trim path), currentBranch := none }
  | none =>
    if "branch ".toList.isPrefixOf line.toList then
      let name := String.ofList (line.toList.drop "branch refs/heads/".toList.length)
      { state with currentBranch := some (trim name) }
    else state

def listWorktrees (output : String) : List WorktreeEntry :=
  ((splitLines output).foldl WorktreeListState.line {}).finish

/-- `includes` of a string. -/
def messageIncludes (text part : String) : Bool :=
  text.toList.tails.any part.toList.isPrefixOf

def EMPTY_REPO_ERROR_MESSAGE : String :=
  "This directory is a Git repository but has no commits yet. archLoop needs at least one " ++
  "commit on the current branch before it can create worktrees or resolve HEAD.\n\n" ++
  "Fix: stage your files and run `git commit` (e.g. `git add . && git commit -m " ++
  "\"Initial commit\"`), then retry."

def assertRepoHasCommits (git : WorktreeGit) : Except String Unit :=
  git.verifyHead.mapError fun message =>
    if messageIncludes message "Needed a single revision" then EMPTY_REPO_ERROR_MESSAGE else message

/-- `create` is under the worktrees directory, by its name or by its real path. -/
def isUnderManagedWorktrees (git : WorktreeGit) (worktreesDir candidatePath : String) : Bool :=
  worktreesDir.toList.isPrefixOf candidatePath.toList ||
    git.realWorktreesDir.toList.isPrefixOf candidatePath.toList

def findCollision (git : WorktreeGit) (worktreesDir branch : String)
    (existing : List WorktreeEntry) : Option WorktreeEntry :=
  let worktreeName := leaseNameFromBranch branch
  ((existing.find? fun wt => wt.branch == some branch).or
    (existing.find? fun wt => wt.path == worktreesDir ++ "/" ++ worktreeName)).or
    (existing.find? fun wt => isUnderManagedWorktrees git worktreesDir wt.path &&
      ("/" ++ worktreeName).toList.isSuffixOf wt.path.toList)

def hasUncommittedChanges (status : Except String String) : Except String Bool :=
  status.map fun output => trim output ≠ ""

/-- `create` for an explicit branch: the worktree, and whether it is a new one. -/
def createResult (git : WorktreeGit) (repoDir branch : String) :
    Except String (WorktreeInfo × Bool) := do
  assertRepoHasCommits git
  git.makeDirectory
  let worktreesDir := repoDir ++ "/.archloop/worktrees"
  let output ← git.list
  match findCollision git worktreesDir branch (listWorktrees output) with
  | some collision =>
    if isUnderManagedWorktrees git worktreesDir collision.path then
      -- A dirty worktree is reused with a warning.
      let _ ← hasUncommittedChanges (git.status collision.path)
      return ({ path := collision.path, branch := branch }, false)
    else
      throw ("Branch '" ++ branch ++ "' is already checked out in worktree at '" ++
        collision.path ++
        "'. Use a different branch name, or wait for the other run to finish.")
  | none =>
    let added : Except String Unit :=
      match git.add with
      | .ok _ => .ok ()
      | .error message =>
        if messageIncludes message "invalid reference" then git.addNew else .error message
    added
    let path := worktreesDir ++ "/" ++ leaseNameFromBranch branch
    return ({ path := git.realPath path, branch := branch }, true)

section
variable {ι : Type} [DecidableEq ι]

/-- `WorktreeManager.create`. Git's commands touch no lock file, so they are one step. -/
def createWorktree (git : WorktreeGit) (repoDir branch : String) : SandboxProg ι WorktreeInfo :=
  match createResult git repoDir branch with
  | .error message => .act id fun _ => .raise (.worktree message)
  | .ok (info, new) =>
    .act (fun s => if new then
        { s with worktrees := Function.update s.worktrees (leaseNameFromBranch branch) true }
      else s) fun _ => .ret info

/-- The paths in a worktree list. -/
def activeWorktreePaths (output : String) : List String :=
  (splitLines output).filterMap fun line => (sliceAfter "worktree " line).map trim

/-- The loop of `pruneStale` over the directories: each that is no active worktree is removed,
up to the first that cannot be. -/
def removeOrphans (git : WorktreeGit) (active : List String) :
    List String → (String → Bool) → Except String Unit × (String → Bool)
  | [], worktrees => (.ok (), worktrees)
  | entry :: entries, worktrees =>
    let entryPath := git.realWorktreesDir ++ "/" ++ entry
    if worktrees entry && !active.contains entryPath then
      match git.removeDirectory entryPath with
      | .ok _ => removeOrphans git active entries (Function.update worktrees entry false)
      | .error message =>
        (.error ("Failed to remove " ++ entryPath ++ ": " ++ message), worktrees)
    else removeOrphans git active entries worktrees

/-- What `pruneStale` does after the lock files. -/
def pruneDirectories (git : WorktreeGit) (worktrees : String → Bool) :
    Except String Unit × (String → Bool) :=
  match git.prune, git.entries with
  | .error message, _ => (.error message, worktrees)
  | .ok _, .error message => (.error message, worktrees)
  | .ok _, .ok none => (.ok (), worktrees)
  | .ok _, .ok (some entries) =>
    match git.pruneList with
    | .error message => (.error message, worktrees)
    | .ok output => removeOrphans git (activeWorktreePaths output) entries worktrees

def mapWorktreeLeaseError (error : WorktreeLeaseError) : SandboxError :=
  .worktree error.message

/-- `WorktreeManager.pruneStale`. Git's commands touch no lock file, so they are one step. -/
def pruneStale (git : WorktreeGit) (repoDir : String) : SandboxProg ι Unit :=
  ((pruneStaleWorktreeLeases repoDir).mapError mapWorktreeLeaseError).bind fun _ =>
  .act (fun s => { s with worktrees := (pruneDirectories git s.worktrees).2 }) fun s =>
    match (pruneDirectories git s.worktrees).1 with
    | .ok _ => .ret ()
    | .error message => .raise (.worktree message)

/-! ### `SandboxFactory.ts` -/

inductive SandboxProviderTag where
  | none
  | isolated
  | bindMount
  deriving DecidableEq, Repr

/-- The `SandboxConfig` of a run on an explicit branch. -/
structure SandboxConfig where
  hostRepoDir : String
  branch : String
  sandboxProvider : SandboxProviderTag
  copyToWorktree : List String := []
  onWorktreeReady : List String := []
  worktreeLeaseOwner : WorktreeLeaseOwnerInput := .direct

/-- What is outside of archloop in one run.

- `makeEffect`: the agent.
- `close`: the provider takes its sandbox down. -/
structure SandboxRun where
  git : WorktreeGit
  copy : OutsideStep := {}
  hooks : OutsideStep := {}
  resolveGitMounts : OutsideStep := {}
  patchGitMounts : OutsideStep := {}
  startSandbox : OutsideStep := {}
  makeEffect : OutsideStep := {}
  close : OutsideStep := {}

def outsideStep (step : OutsideStep) : SandboxProg ι Unit :=
  .act (fun s => { s with worktrees := step.worktrees s.worktrees }) fun _ =>
    match step.answer with
    | .ok _ => .ret ()
    | .error e => .raise e

/-- The steps of the setup after the worktree is there, in order. -/
def setupSteps (config : SandboxConfig) (run : SandboxRun) : List OutsideStep :=
  let copy := if config.copyToWorktree.isEmpty then [] else [run.copy]
  let hooks := if config.onWorktreeReady.isEmpty then [] else [run.hooks]
  match config.sandboxProvider with
  | .none => copy ++ hooks ++ [run.startSandbox]
  | .isolated => hooks ++ [run.startSandbox]
  | .bindMount =>
    copy ++ hooks ++ [run.resolveGitMounts, run.patchGitMounts, run.startSandbox]

def setup : List OutsideStep → SandboxProg ι Unit
  | [] => .ret ()
  | step :: steps => (outsideStep step).bind fun _ => setup steps

def acquireLeaseForBranch (caller : LeaseCaller ι) (config : SandboxConfig) :
    SandboxProg ι AcquiredWorktreeLease :=
  (acquireWorktreeLease caller config.hostRepoDir config.branch
    config.worktreeLeaseOwner).mapError mapWorktreeLeaseError

/-- `releaseLeaseForBranch`. Removing a lock file does not fail here. -/
def releaseLeaseForBranch (caller : LeaseCaller ι) (config : SandboxConfig) :
    SandboxProg ι Unit :=
  (releaseWorktreeLease caller config.branch).mapError mapWorktreeLeaseError

/-- Prune, as far as possible, then create. -/
def pruneAndCreate (config : SandboxConfig) (run : SandboxRun) : SandboxProg ι WorktreeInfo :=
  ((pruneStale run.git config.hostRepoDir).tryCatch fun _ => .ret ()).bind fun _ =>
    createWorktree run.git config.hostRepoDir config.branch

/-- The path of a worktree that is kept because it has changes. -/
def cleanupWorktree (run : SandboxRun) (worktreePath : String) :
    SandboxProg ι (Option String) :=
  match hasUncommittedChanges run.git.statusAfter with
  | .ok true => .act id fun _ => .ret (some worktreePath)
  | _ => (outsideStep run.git.remove).bind fun _ => .ret none

/-- What `withSandbox` does between taking the lease and giving it back: how the agent ended,
and the path of a worktree that is kept. -/
def leasedRun (config : SandboxConfig) (run : SandboxRun) :
    SandboxProg ι (Except SandboxError Unit × Option String) :=
  (pruneAndCreate config run).bind fun info =>
  (setup (setupSteps config run)).bind fun _ =>
  (outsideStep run.makeEffect).attempt.bind fun exit =>
  (outsideStep run.close).bind fun _ =>
  (cleanupWorktree run info.path).bind fun preserved =>
  .ret (exit, preserved)

def attachPreservedPath : Option String → SandboxError → SandboxError
  | some path, .agent message _ => .agent message (some path)
  | _, e => e

/-- `withSandbox` on an explicit branch: the path of a worktree that is kept. -/
def withSandbox (caller : LeaseCaller ι) (config : SandboxConfig) (run : SandboxRun) :
    SandboxProg ι (Option String) :=
  (acquireLeaseForBranch caller config).bind fun _ =>
  (leasedRun config run).bind fun result =>
  (releaseLeaseForBranch caller config).bind fun _ =>
  match result.1 with
  | .ok _ => .ret result.2
  | .error e => .raise (attachPreservedPath result.2 e)

end

end ArchLoop
