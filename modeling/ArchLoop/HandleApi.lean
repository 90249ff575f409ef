import ArchLoop.Lib.History
import ArchLoop.SandboxFactory

/-!
# `ArchLoop.HandleApi`: handles on a sandbox and on a worktree

`createSandbox` (`createSandbox.ts`) and `createWorktree` (`createWorktree.ts`) return a handle
that keeps the lease of its branch until `close`. The lease is a `HeldWorktreeLease`, which
remembers whether it is held; the handle remembers whether it was closed. `HandleFlags` has
both, next to the lock files of `LeaseWorld`.

Each step outside of archloop may fail, as the `HandleRun` says. Creating the lock file may fail
as well, before the file is there or in the write to it. `asyncDispose` is `close`. The
functions run alone: the calls on one handle follow each other. The sandbox layer of the tests
and the signal handlers, which end the process, are left out.
-/

set_option autoImplicit false

namespace ArchLoop

open ArchLoop.Lib

/-! ### Options and answers -/

/-- How creating the lock file fails: before the file is there, or in the write to it. -/
inductive LeaseFileFault where
  | noFile (message : String)
  | write (message : String)
  deriving DecidableEq, Repr

/-- `CreateSandboxOptions` and `CreateWorktreeOptions`. Without a branch, which only
`createWorktree` allows, the worktree gets the branch `tempBranch`, made from the time. -/
structure HandleOptions where
  hostRepoDir : String
  branch : Option String
  tempBranch : String := ""
  sandbox : SandboxProviderTag := .none
  copyToWorktree : List String := []
  onWorktreeReady : List String := []

namespace HandleOptions

variable (options : HandleOptions)

/-- The branch of the worktree. -/
def worktreeBranch : String := options.branch.getD options.tempBranch

/-- What a lease and a worktree are asked for. A handle owns its lease as `direct`. -/
def toConfig : SandboxConfig where
  hostRepoDir := options.hostRepoDir
  branch := options.worktreeBranch
  sandboxProvider := options.sandbox
  copyToWorktree := options.copyToWorktree
  onWorktreeReady := options.onWorktreeReady

end HandleOptions

/-- What is outside of archloop while a handle lives.

- `cwd`: the answer of `resolveCwd`.
- `leaseFile`: the failure of the creation of the lock file.
- `ready`: the `onSandboxReady` hooks.
- `closeProvider`: the provider takes its sandbox down. -/
structure HandleRun where
  git : WorktreeGit
  cwd : OutsideStep := {}
  leaseFile : Option LeaseFileFault := none
  copy : OutsideStep := {}
  hooks : OutsideStep := {}
  resolveEnv : OutsideStep := {}
  patchGitMounts : OutsideStep := {}
  startSandbox : OutsideStep := {}
  ready : OutsideStep := {}
  closeProvider : OutsideStep := {}

/-- `held` of the lease, and `closed` of the handle. -/
structure HandleFlags where
  held : Bool := false
  closed : Bool := false
  deriving DecidableEq, Repr

section
variable {ι : Type} [DecidableEq ι]

/-- A program of a handle. -/
abbrev HandleProg (ι : Type) : Type → Type := Prog (LeaseWorld ι × HandleFlags) SandboxError

/-- A program that does not know the handle. -/
def onRepository {α : Type} (p : SandboxProg ι α) : HandleProg ι α :=
  p.tracked fun _ _ flags => flags

def setFlags (f : HandleFlags → HandleFlags) : HandleProg ι Unit :=
  .modify fun s => (s.1, f s.2)

/-! ### `createHeldWorktreeLease` -/

/-- `createLeaseFileAtomic`, where it fails. The file is not there before: the functions run
alone. -/
def failLeaseFile (caller : LeaseCaller ι) (config : SandboxConfig) :
    LeaseFileFault → SandboxProg ι Unit
  | .noFile message => .raise (.worktree message)
  | .write message =>
    ((leaseStep (.openExclusive (branchLock config.branch))
      (LeaseWorld.openExclusive · caller.fiber (branchLock config.branch))
      fun _ => ()).mapError mapWorktreeLeaseError).bind fun _ => .raise (.worktree message)

/-- `acquireWorktreeLease`, with the failure of the creation of the file. -/
def acquireLease (caller : LeaseCaller ι) (config : SandboxConfig) :
    Option LeaseFileFault → SandboxProg ι Unit
  | none => (acquireLeaseForBranch caller config).bind fun _ => .ret ()
  | some fault =>
    ((ensureLeaseAvailableForAcquisition config.hostRepoDir config.branch).mapError
      mapWorktreeLeaseError).bind fun _ => failLeaseFile caller config fault

/-- `acquire` of a held lease. -/
def acquireHeldLease (caller : LeaseCaller ι) (config : SandboxConfig)
    (fault : Option LeaseFileFault) : HandleProg ι Unit :=
  (onRepository (acquireLease caller config fault)).bind fun _ =>
    setFlags fun flags => { flags with held := true }

/-- `releaseHeldLease`. -/
def releaseHeldLease (caller : LeaseCaller ι) (config : SandboxConfig) : HandleProg ι Unit :=
  (Prog.reads fun s : LeaseWorld ι × HandleFlags => s.2.held).bind fun held =>
    if held then
      (setFlags fun flags => { flags with held := false }).bind fun _ =>
        onRepository (releaseLeaseForBranch caller config)
    else .ret ()

/-- The set-up of a handle in a `try`, whose `catch` releases the lease. -/
def releasingOnError {α : Type} (caller : LeaseCaller ι) (config : SandboxConfig)
    (p : HandleProg ι α) : HandleProg ι α :=
  p.tryCatch fun e => (releaseHeldLease caller config).bind fun _ => .raise e

/-- `resolveCwd`, and the prune as far as it comes. -/
def enterRepository (options : HandleOptions) (run : HandleRun) : SandboxProg ι Unit :=
  (outsideStep run.cwd).bind fun _ =>
    (pruneStale run.git options.hostRepoDir).tryCatch fun _ => .ret ()

/-! ### `createSandbox` -/

/-- The steps of `createSandbox` after the worktree is there, in order. -/
def sandboxSteps (options : HandleOptions) (run : HandleRun) : List OutsideStep :=
  let copy := if options.copyToWorktree.isEmpty || options.sandbox = .isolated then []
    else [run.copy]
  let hooks := if options.onWorktreeReady.isEmpty then [] else [run.hooks]
  let mounts := if options.sandbox = .bindMount then [run.patchGitMounts] else []
  copy ++ hooks ++ [run.resolveEnv] ++ mounts ++ [run.startSandbox, run.ready]

/-- `createSandbox`, with the path of the worktree of its handle. -/
def createSandbox (caller : LeaseCaller ι) (options : HandleOptions) (run : HandleRun) :
    HandleProg ι String :=
  (releasingOnError caller options.toConfig <|
    (onRepository (enterRepository options run)).bind fun _ =>
    (acquireHeldLease caller options.toConfig run.leaseFile).bind fun _ =>
    onRepository (createWorktree run.git options.hostRepoDir options.worktreeBranch)).bind
  fun info =>
  (onRepository (setup (sandboxSteps options run))).bind fun _ => .ret info.path

/-- The end of `close`: the worktree is kept when it is dirty, and removed otherwise. A check
that fails counts as clean, and a removal that fails is ignored. -/
def closeWorktreeOf (caller : LeaseCaller ι) (options : HandleOptions) (run : HandleRun)
    (worktreePath : String) : HandleProg ι (Option String) :=
  match hasUncommittedChanges run.git.statusAfter with
  | .ok true => (releaseHeldLease caller options.toConfig).bind fun _ => .ret (some worktreePath)
  | _ =>
    ((onRepository (outsideStep run.git.remove)).tryCatch fun _ => .ret ()).bind fun _ =>
      (releaseHeldLease caller options.toConfig).bind fun _ => .ret none

/-- The guard of a `close`: the second one does nothing. -/
def closingOnce (body : HandleProg ι (Option String)) : HandleProg ι (Option String) :=
  (Prog.reads fun s : LeaseWorld ι × HandleFlags => s.2.closed).bind fun closed =>
    if closed then .ret none
    else (setFlags fun flags => { flags with closed := true }).bind fun _ => body

/-- `doClose` of `createSandbox`. -/
def doClose (caller : LeaseCaller ι) (options : HandleOptions) (run : HandleRun)
    (worktreePath : String) : HandleProg ι (Option String) :=
  closingOnce <|
    (onRepository (outsideStep run.closeProvider)).bind fun _ =>
      closeWorktreeOf caller options run worktreePath

/-! ### `createWorktree` -/

/-- Git's answers to `WorktreeManager.create` without a branch. -/
def createTempResult (git : WorktreeGit) : Except String Unit := do
  assertRepoHasCommits git
  git.makeDirectory
  git.addNew

/-- `WorktreeManager.create` without a branch. -/
def createTempWorktree (git : WorktreeGit) (repoDir branch : String) :
    SandboxProg ι WorktreeInfo :=
  match createTempResult git with
  | .error message => .act id fun _ => .raise (.worktree message)
  | .ok _ =>
    .act (fun s =>
      { s with worktrees := Function.update s.worktrees (leaseNameFromBranch branch) true })
      fun _ => .ret { path := worktreePathForBranch repoDir branch, branch := branch }

/-- The worktree and its lease. The lease comes first when the branch is known. -/
def createLeasedWorktree (caller : LeaseCaller ι) (options : HandleOptions) (run : HandleRun) :
    HandleProg ι WorktreeInfo :=
  if options.branch.isSome then
    (acquireHeldLease caller options.toConfig run.leaseFile).bind fun _ =>
      onRepository (createWorktree run.git options.hostRepoDir options.worktreeBranch)
  else
    (onRepository (createTempWorktree run.git options.hostRepoDir options.worktreeBranch)).bind
      fun info =>
        (acquireHeldLease caller options.toConfig run.leaseFile).bind fun _ => .ret info

/-- The steps of `createWorktree` after the worktree is there, in order. -/
def worktreeSteps (options : HandleOptions) (run : HandleRun) : List OutsideStep :=
  let copy := if options.copyToWorktree.isEmpty then [] else [run.copy]
  let hooks := if options.onWorktreeReady.isEmpty then [] else [run.hooks]
  copy ++ hooks

/-- `createWorktree`, with the path of the worktree of its handle. -/
def createWorktreeHandle (caller : LeaseCaller ι) (options : HandleOptions) (run : HandleRun) :
    HandleProg ι String :=
  releasingOnError caller options.toConfig <|
    (onRepository (enterRepository options run)).bind fun _ =>
    (createLeasedWorktree caller options run).bind fun info =>
    (onRepository (setup (worktreeSteps options run))).bind fun _ => .ret info.path

/-- `close` of `createWorktree`. -/
def closeWorktree (caller : LeaseCaller ι) (options : HandleOptions) (run : HandleRun)
    (worktreePath : String) : HandleProg ι (Option String) :=
  closingOnce (closeWorktreeOf caller options run worktreePath)

/-! ### Calls on a handle -/

/-- The two kinds of handles. -/
inductive HandleKind where
  | sandbox
  | worktree
  deriving DecidableEq, Repr

/-- The call that makes a handle. -/
def createHandle (kind : HandleKind) (caller : LeaseCaller ι) (options : HandleOptions)
    (run : HandleRun) : HandleProg ι String :=
  match kind with
  | .sandbox => createSandbox caller options run
  | .worktree => createWorktreeHandle caller options run

/-- `close`, or `asyncDispose`, of a handle. -/
def closeHandle (kind : HandleKind) (caller : LeaseCaller ι) (options : HandleOptions)
    (run : HandleRun) (worktreePath : String) : HandleProg ι (Option String) :=
  match kind with
  | .sandbox => doClose caller options run worktreePath
  | .worktree => closeWorktree caller options run worktreePath

/-- Calls of `close` one after the other, whatever each of them ends with. -/
def closeCalls (close : HandleProg ι (Option String)) : Nat → HandleProg ι Unit
  | 0 => .ret ()
  | n + 1 => close.attempt.bind fun _ => closeCalls close n

end

end ArchLoop
