import ArchLoop.Lib.Prog
import ArchLoop.SandboxFactory

/-!
# `ArchLoop.SandboxOwner`: who closes a sandbox

`provider.create` starts a sandbox and hands out its handle. Five entry points call it, all by
`startSandbox` (`startSandbox.ts`): `withSandbox` (`SandboxFactory.ts`), `createSandbox` and the
`createSandbox` of a worktree (`createSandbox.ts`), and `run` and `interactive` of a worktree
(`createWorktree.ts`). Each makes at most one sandbox in a call.

`OwnerRun` says how the steps of one call end. A step may call the handle; one that times out or
is aborted is interrupted, so it makes no further call. `SandboxState` has what became of the
sandbox. Which commands run in it is left out, and so are the texts of the errors.
-/

set_option autoImplicit false

namespace ArchLoop.SandboxOwner

open ArchLoop.Lib

/-! ### Steps -/

/-- How a step ends. -/
inductive StepEnd where
  | done
  | failed
  | timedOut
  | aborted
  deriving DecidableEq, Repr

/-- What became of a sandbox.

- `started`: the provider runs it.
- `handedOut`: `create` returned its handle.
- `closed`: `close()` was called on the handle.
- `usedClosed`: another function was called on the handle after that. -/
structure SandboxState where
  started : Bool := false
  handedOut : Bool := false
  closed : Bool := false
  usedClosed : Bool := false
  deriving DecidableEq, Repr

abbrev OwnerProg : Type → Type := Prog SandboxState StepEnd

/-- A step, and whether it calls the handle (`exec`, `interactiveExec`, `copyIn`, ...). -/
structure Step where
  onHandle : Bool := false
  stepEnd : StepEnd := .done
  deriving DecidableEq, Repr

def ending : StepEnd → OwnerProg Unit
  | .done => .ret ()
  | stepEnd => .raise stepEnd

/-- Steps outside of the sandbox, up to the first that is not done. -/
def endings : List StepEnd → OwnerProg Unit
  | [] => .ret ()
  | stepEnd :: ends => (ending stepEnd).bind fun _ => endings ends

def SandboxState.use (s : SandboxState) : SandboxState :=
  { s with usedClosed := s.usedClosed || s.closed }

def Step.perform (step : Step) : OwnerProg Unit :=
  (Prog.when step.onHandle (.modify SandboxState.use)).bind fun _ => ending step.stepEnd

/-- Steps one after the other, up to the first that is not done. For hooks that run side by side
these are the ones that were begun, and the one that fails is the last. -/
def performAll : List Step → OwnerProg Unit
  | [] => .ret ()
  | step :: steps => step.perform.bind fun _ => performAll steps

/-! ### `provider.create` -/

/-- `create` of a provider, in the words of `docker.ts`.

- `startContainer`: from here on there is a sandbox.
- `parentDirs`: what `create` still does in it, before there is a handle. For docker and podman
  these are the parents of the mounted files.
- `overdue`: the deadline of archloop passes before `create` ends. -/
structure ProviderCreate where
  checkImageUid : StepEnd := .done
  startContainer : StepEnd := .done
  parentDirs : List StepEnd := []
  overdue : Bool := false

def ProviderCreate.perform (create : ProviderCreate) : OwnerProg Unit :=
  (ending create.checkImageUid).bind fun _ =>
  (ending create.startContainer).bind fun _ =>
  (Prog.modify fun s => { s with started := true }).bind fun _ =>
  (endings create.parentDirs).bind fun _ =>
  .modify fun s => { s with handedOut := true }

/-- `create` with `withTimeout`. A promise cannot be taken back: `create` goes on after the
deadline, and what it hands out then is dropped. -/
def ProviderCreate.performInTime (create : ProviderCreate) : OwnerProg Unit :=
  if create.overdue then create.perform.attempt.bind fun _ => .raise .timedOut
  else create.perform

/-- How the steps of one call end.

- `before`: the worktree and its lease, `copyToWorktree`, the host hooks, the prompt, the
  environment and the git mounts, as far as the entry point has them.
- `ready`: the `onSandboxReady` hooks.
- `startup`: the first lines on the display.
- `work`: the set-up in the sandbox, the agent, sync-out.
- `cleanup`: removing the worktree, giving the lease back. -/
structure OwnerRun where
  before : List StepEnd := []
  create : ProviderCreate := {}
  syncIn : List Step := []
  copyPaths : List Step := []
  ready : List Step := []
  startup : StepEnd := .done
  work : List Step := []
  close : StepEnd := .done
  cleanup : List StepEnd := []

/-! ### `startSandbox.ts` -/

def startNoSandbox (run : OwnerRun) : OwnerProg Unit :=
  run.create.perform

def startBindMountSandbox (run : OwnerRun) : OwnerProg Unit :=
  run.create.performInTime

/-- `copyPaths` is what the caller passes on. -/
def startIsolatedSandbox (run : OwnerRun) (copyPaths : List Step) : OwnerProg Unit :=
  run.create.performInTime.bind fun _ =>
  (performAll run.syncIn).bind fun _ =>
  performAll copyPaths

def startSandbox (tag : SandboxProviderTag) (run : OwnerRun) (copyPaths : List Step) :
    OwnerProg Unit :=
  match tag with
  | .bindMount => startBindMountSandbox run
  | .none => startNoSandbox run
  | .isolated => startIsolatedSandbox run copyPaths

/-! ### The entry points -/

def SandboxState.close (s : SandboxState) : SandboxState :=
  { s with closed := true }

/-- `handle.close()`. -/
def closeHandle (run : OwnerRun) : OwnerProg Unit :=
  (Prog.modify SandboxState.close).bind fun _ => ending run.close

/-- `Effect.acquireUseRelease`: the release only runs for what was acquired. -/
def acquireUseRelease (acquire use release : OwnerProg Unit) : OwnerProg Unit :=
  acquire.bind fun _ => use.attempt.bind fun exit => release.bind fun _ =>
    match exit with
    | .ok _ => .ret ()
    | .error e => .raise e

/-- `withSandbox`: starting the sandbox, with all its steps, is what is acquired. -/
def withSandbox (tag : SandboxProviderTag) (run : OwnerRun) : OwnerProg Unit :=
  (endings run.before).bind fun _ =>
  acquireUseRelease (startSandbox tag run run.copyPaths) (performAll run.work)
    ((closeHandle run).bind fun _ => endings run.cleanup)

/-- `createSandbox`, up to its handle. No step after `startSandbox` closes what it returned. -/
def createSandbox (tag : SandboxProviderTag) (run : OwnerRun) : OwnerProg Unit :=
  (endings run.before).bind fun _ =>
  (startSandbox tag run run.copyPaths).bind fun _ =>
  performAll run.ready

/-- `createSandboxFromWorktree`, which differs in the steps before and in the clean-up. -/
def createSandboxFromWorktree (tag : SandboxProviderTag) (run : OwnerRun) : OwnerProg Unit :=
  createSandbox tag run

/-- `Effect.ensuring` with a `close` whose failure is caught. -/
def ensuringClose (run : OwnerRun) (p : OwnerProg Unit) : OwnerProg Unit :=
  p.finallyDo ((closeHandle run).tryCatch fun _ => .ret ())

/-- `run` of a worktree. The display is set up before `ensuring` begins. -/
def worktreeRun (tag : SandboxProviderTag) (run : OwnerRun) : OwnerProg Unit :=
  (endings run.before).bind fun _ =>
  (startSandbox tag run []).bind fun _ =>
  (ending run.startup).bind fun _ =>
  ensuringClose run (performAll run.work)

/-- `interactive` of a worktree. -/
def worktreeInteractive (tag : SandboxProviderTag) (run : OwnerRun) : OwnerProg Unit :=
  (endings run.before).bind fun _ =>
  (startSandbox tag run []).bind fun _ =>
  ensuringClose run (performAll run.work)

inductive EntryPoint where
  | withSandbox
  | createSandbox
  | worktreeRun
  | worktreeInteractive
  | worktreeCreateSandbox
  deriving DecidableEq, Repr

def EntryPoint.call : EntryPoint → SandboxProviderTag → OwnerRun → OwnerProg Unit
  | .withSandbox => SandboxOwner.withSandbox
  | .createSandbox => SandboxOwner.createSandbox
  | .worktreeRun => SandboxOwner.worktreeRun
  | .worktreeInteractive => SandboxOwner.worktreeInteractive
  | .worktreeCreateSandbox => createSandboxFromWorktree

/-- The entry points that leave the sandbox to their caller, as a handle. -/
def EntryPoint.returnsHandle : EntryPoint → Bool
  | .createSandbox | .worktreeCreateSandbox => true
  | _ => false

/-! ### The handle that `createSandbox` returns -/

/-- What happens on a returned handle: a step of one of its `run` and `interactive` calls, of
which any number may be under way, or a call of `close`. -/
inductive HandleInput where
  | work (step : Step)
  | close
  deriving DecidableEq, Repr

/-- The sandbox, and `closed` of the handle. -/
structure SandboxHandle where
  sandbox : SandboxState
  closed : Bool := false
  deriving DecidableEq, Repr

/-- `buildSandboxHandle`: only `close` reads `closed`. -/
def SandboxHandle.input (handle : SandboxHandle) : HandleInput → SandboxHandle
  | .work step =>
    if step.onHandle then { handle with sandbox := handle.sandbox.use } else handle
  | .close =>
    if handle.closed then handle
    else { handle with closed := true, sandbox := handle.sandbox.close }

/-- A sandbox at the end, and whether its owner is done with it: the call ended without a handle
for the caller, or the handle was closed. -/
structure Life where
  sandbox : SandboxState
  ended : Bool

/-- A call of an entry point, and then what happens on the handle if it returned one. -/
def life (entry : EntryPoint) (tag : SandboxProviderTag) (run : OwnerRun)
    (inputs : List HandleInput) : Life :=
  match (entry.call tag run).run {} with
  | (.error _, sandbox) => { sandbox := sandbox, ended := true }
  | (.ok _, sandbox) =>
    if entry.returnsHandle then
      let handle := inputs.foldl SandboxHandle.input { sandbox := sandbox }
      { sandbox := handle.sandbox, ended := handle.closed }
    else { sandbox := sandbox, ended := true }

end ArchLoop.SandboxOwner
