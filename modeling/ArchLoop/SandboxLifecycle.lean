import ArchLoop.Lib.CommitGraph
import ArchLoop.Lib.Prog
import Mathlib.Logic.Function.Basic

/-!
# `ArchLoop.SandboxLifecycle`: from the agent's commits to the host branch

`withSandboxLifecycle` (`SandboxLifecycle.ts`) records where the host and the worktree are, lets
the agent work, and then takes the commits over. Without an explicit branch the worktree is on a
temp branch, which is merged into the host's branch and deleted.

Each Git command is one atomic step on the repository, which the host checkout and the worktree
share. `outages` says what becomes of the next commands. What the agent, the user and the sync of
an isolated sandbox do to the repository is a matter of the others, who move it between two
commands; `work` and `applyToHost` are only how these parts end.

The hooks and the settings of Git at the start, and the display, are left out.
-/

set_option autoImplicit false

namespace ArchLoop.Lifecycle

open ArchLoop.Lib

/-! ### The repository -/

/-- Who made a commit: the agent of this call, the merge of this call, or anyone else. -/
inductive CommitAuthor where
  | agent
  | merge
  | other
  deriving DecidableEq, Repr

/-- What a commit has besides its parents. -/
structure CommitInfo where
  author : CommitAuthor
  message : String := ""
  deriving DecidableEq, Repr

/-- What `HEAD` of a checkout is. -/
inductive Head where
  | branch (name : String)
  | detached (commit : Commit CommitInfo)

/-- What becomes of a Git command: it is done, it fails, or it is done and fails all the same. -/
inductive GitOutcome where
  | done
  | refused
  | lost
  deriving DecidableEq, Repr

/-- The repository with its two checkouts.

- `hostHead`: of the checkout in `hostRepoDir`.
- `worktreeHead`: of the worktree.
- `isolatedHead`: what `git rev-parse --abbrev-ref HEAD` prints in a sandbox that has a repository
  of its own. Other sandboxes have the worktree mounted.
- `outages`: what becomes of the next commands. After that, all are done. -/
structure GitRepo where
  branches : String → Option (Commit CommitInfo)
  hostHead : Head
  worktreeHead : Head
  isolatedHead : Option String := none
  outages : List GitOutcome := []

namespace GitRepo

variable (s : GitRepo)

/-- The commit of a `HEAD`. A branch without commits has none. -/
def commitOf : Head → Option (Commit CommitInfo)
  | .branch name => s.branches name
  | .detached commit => some commit

/-- `git rev-parse --abbrev-ref HEAD`. It fails on a branch without commits. -/
def abbrevRef (head : Head) : Option String :=
  (s.commitOf head).map fun _ =>
    match head with
    | .branch name => name
    | .detached _ => "HEAD"

/-- The branch that the sandbox prints. -/
def sandboxAbbrevRef : Option String :=
  s.isolatedHead.or (s.abbrevRef s.worktreeHead)

/-- `git checkout --detach` in the sandbox. -/
def detachSandbox : Option GitRepo :=
  match s.isolatedHead with
  | some _ => some { s with isolatedHead := some "HEAD" }
  | none => (s.commitOf s.worktreeHead).map fun commit =>
    { s with worktreeHead := .detached commit }

/-- The commit that a name stands for in the host checkout. -/
def resolve (name : String) : Option (Commit CommitInfo) :=
  if name = "HEAD" then s.commitOf s.hostHead else s.branches name

/-- The host checkout moves to the commit, with the branch that it is on. -/
def moveHost (commit : Commit CommitInfo) : GitRepo :=
  match s.hostHead with
  | .branch name => { s with branches := Function.update s.branches name (some commit) }
  | .detached _ => { s with hostHead := .detached commit }

/-- What `git merge` makes of two commits: nothing new, a fast-forward, or a merge commit. -/
def mergeOf (ours theirs : Commit CommitInfo) : Commit CommitInfo :=
  if theirs ∈ ours.ancestors then ours
  else if ours ∈ theirs.ancestors then theirs
  else .mk { author := .merge } [ours, theirs]

/-- `git merge` in the host checkout. -/
def mergeHost (name : String) : Option GitRepo :=
  match s.commitOf s.hostHead, s.resolve name with
  | some ours, some theirs => some (s.moveHost (mergeOf ours theirs))
  | _, _ => none

/-- The branch is checked out somewhere. -/
def isCheckedOut (name : String) : Bool :=
  [s.hostHead, s.worktreeHead].any fun head =>
    match head with
    | .branch other => other = name
    | .detached _ => false

/-- `git branch -D`. It fails on a branch that is checked out. -/
def deleteBranch (name : String) : Option GitRepo :=
  if (s.branches name).isNone || s.isCheckedOut name then none
  else some { s with branches := Function.update s.branches name none }

/-- `git rev-list --reverse base..head`. -/
def revList (base head : Option (Commit CommitInfo)) : Option (List (Commit CommitInfo)) :=
  match base, head with
  | some base, some head => some (Commit.revList base head)
  | _, _ => none

/-- What becomes of the next command. -/
def outcome : GitOutcome := s.outages.head?.getD .done

end GitRepo

/-- A program on the repository. It throws with a message. -/
abbrev LifecycleProg : Type → Type := Prog GitRepo String

/-- A Git command that changes the repository. The answer says whether it succeeded. -/
def gitChange (change : GitRepo → Option GitRepo) : LifecycleProg Bool :=
  .act (fun s =>
      let t := if s.outcome = .refused then s else (change s).getD s
      { t with outages := s.outages.tail }) fun s =>
    .ret ((change s).isSome && s.outcome = .done)

/-- A Git command that only answers. A failing command has no answer. -/
def gitAsk {α : Type} (answer : GitRepo → Option α) : LifecycleProg (Option α) :=
  .act (fun s => { s with outages := s.outages.tail }) fun s =>
    .ret (if s.outcome = .done then answer s else none)

/-- A failing command is an error. -/
def orRaise {α : Type} (message : String) : Option α → LifecycleProg α
  | some a => .ret a
  | none => .raise message

/-! ### `withSandboxLifecycle` -/

/-- `SandboxLifecycleOptions`, as far as Git is concerned. -/
structure SandboxLifecycleOptions where
  branch : Option String := none
  applyToHost : Option (Except String Unit) := none

structure SandboxLifecycleResult (α : Type) where
  result : α
  branch : String
  commits : List (Commit CommitInfo)

/-- The branch that the host is on, without an explicit branch. -/
def recordHostBranch (options : SandboxLifecycleOptions) : LifecycleProg (Option String) :=
  if options.branch.getD "" = "" then
    (gitAsk fun s => s.abbrevRef s.hostHead).bind fun name =>
      (orRaise "git rev-parse --abbrev-ref HEAD failed" name).bind fun name => .ret (some name)
  else .ret none

/-- The branch of the sandbox. -/
def resolveBranch : LifecycleProg String :=
  (gitAsk GitRepo.sandboxAbbrevRef).bind
    (orRaise "Command failed: git rev-parse --abbrev-ref HEAD")

/-- The commit that the worktree starts from. -/
def recordBaseHead : LifecycleProg (Commit CommitInfo) :=
  (gitAsk fun s => s.commitOf s.worktreeHead).bind (orRaise "git rev-parse HEAD failed")

/-- What another part returns or throws. -/
def partEnds {α : Type} : Except String α → LifecycleProg α
  | .ok a => .ret a
  | .error message => .raise message

/-- The sync of an isolated sandbox, after a count that is only displayed. -/
def applyToHost : Option (Except String Unit) → LifecycleProg Unit
  | none => .ret ()
  | some ending => (gitAsk fun _ => some ()).bind fun _ => partEnds ending

/-- `hasNewCommits`. A failing count stands for none. -/
def hasNewCommits (baseHead : Commit CommitInfo) : LifecycleProg Bool :=
  (gitAsk fun s => GitRepo.revList (some baseHead) (s.commitOf s.worktreeHead)).bind
    fun commits => .ret (commits.any (!·.isEmpty))

/-- The error of a failing merge. -/
def mergeError (resolvedBranch hostCurrentBranch : String) : String :=
  "Merge of '" ++ resolvedBranch ++ "' onto '" ++ hostCurrentBranch ++ "' failed. " ++
    "The temporary branch '" ++ resolvedBranch ++ "' has been preserved. " ++
    "To retry: git merge " ++ resolvedBranch ++ ", then clean up: git branch -D " ++
    resolvedBranch

/-- The merge of the temp branch. -/
def mergeToHost (resolvedBranch hostCurrentBranch : String) : LifecycleProg Unit :=
  (gitChange (GitRepo.mergeHost · resolvedBranch)).bind fun merged =>
    if merged then .ret () else .raise (mergeError resolvedBranch hostCurrentBranch)

/-- The commits since the base. A failing list stands for none. -/
def collectCommits (baseHead : Commit CommitInfo)
    (head : GitRepo → Option (Commit CommitInfo)) : LifecycleProg (List (Commit CommitInfo)) :=
  (gitAsk fun s => GitRepo.revList (some baseHead) (head s)).bind fun commits =>
    .ret (commits.getD [])

/-- The end of the call in temp-branch mode: merge, delete, collect. -/
def finishTempBranch (baseHead : Commit CommitInfo) (resolvedBranch hostCurrentBranch : String) :
    LifecycleProg (List (Commit CommitInfo)) :=
  (hasNewCommits baseHead).bind fun hasNew =>
  (gitChange GitRepo.detachSandbox).bind fun detached =>
  if !detached then .raise "Command failed: git checkout --detach"
  else
    (Prog.when hasNew (mergeToHost resolvedBranch hostCurrentBranch)).bind fun _ =>
    (gitChange (GitRepo.deleteBranch · resolvedBranch)).bind fun _ =>
    collectCommits baseHead fun s => s.commitOf s.hostHead

/-- `withSandboxLifecycle`. -/
def withSandboxLifecycle {α : Type} (options : SandboxLifecycleOptions)
    (work : Except String α) : LifecycleProg (SandboxLifecycleResult α) :=
  (recordHostBranch options).bind fun hostCurrentBranch =>
  resolveBranch.bind fun resolvedBranch =>
  recordBaseHead.bind fun baseHead =>
  (partEnds work).bind fun result =>
  (applyToHost options.applyToHost).bind fun _ =>
  match hostCurrentBranch with
  | some hostBranch =>
    (finishTempBranch baseHead resolvedBranch hostBranch).bind fun commits =>
      .ret ⟨result, hostBranch, commits⟩
  | none =>
    let targetBranch := options.branch.getD resolvedBranch
    (collectCommits baseHead fun s => s.branches targetBranch).bind fun commits =>
      .ret ⟨result, targetBranch, commits⟩

end ArchLoop.Lifecycle
