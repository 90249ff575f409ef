import ArchLoop.SandboxOwner

/-!
# `ArchLoop.Proofs.SandboxOwner`: which sandboxes outlive their owner

A handle is closed when its owner has it: `withSandbox`, `run` and `interactive` close it in a
release, `createSandbox` leaves it to its caller. So what is left open comes from the steps
between `create` and the owner: the deadline of `create`, sync-in, the copies, the hooks, the
first lines on the display. `Acquired` says that these go through.

`createSandbox`'s handle does not look whether it was closed, so the other half is about what is
called on it. `tidy_iff` has both, and adds the sandboxes that have no handle yet.
-/

set_option autoImplicit false

namespace ArchLoop.SandboxOwner

open ArchLoop.Lib

/-! ### When steps are done -/

def Step.ok (step : Step) : Bool :=
  step.stepEnd = .done

def allOk (steps : List Step) : Bool :=
  steps.all Step.ok

def allDone (ends : List StepEnd) : Bool :=
  ends.all (· = .done)

/-- The program ends in the state `t`, and returns if and only if the test says so. -/
def Ends (p : OwnerProg Unit) (s t : SandboxState) (returns : Bool) : Prop :=
  ∃ result : Except StepEnd Unit, p.run s = (result, t) ∧ (result = .ok () ↔ returns = true)

namespace Ends

variable {p q : OwnerProg Unit} {s t u : SandboxState} {b c : Bool}

theorem ret (s : SandboxState) : Ends (.ret ()) s s true :=
  ⟨.ok (), rfl, by simp⟩

theorem raise (e : StepEnd) (s : SandboxState) : Ends (.raise e) s s false :=
  ⟨.error e, rfl, by simp⟩

theorem modify (f : SandboxState → SandboxState) (s : SandboxState) :
    Ends (.modify f) s (f s) true :=
  ⟨.ok (), rfl, by simp⟩

theorem bind (hp : Ends p s t b) (hq : Ends q t u c) :
    Ends (p.bind fun _ => q) s (if b then u else t) (b && c) := by
  obtain ⟨result, hrun, hresult⟩ := hp
  cases result with
  | ok a =>
    have hb : b = true := hresult.mp rfl
    obtain ⟨result', hrun', hresult'⟩ := hq
    refine ⟨result', ?_, ?_⟩
    · rw [Prog.run_bind_ok hrun, hrun', hb]
      rfl
    · rw [hresult', hb, Bool.true_and]
  | error e =>
    have hb : b = false := by simpa using hresult
    refine ⟨.error e, ?_, ?_⟩
    · rw [Prog.run_bind_error hrun, hb]
      rfl
    · simp [hb]

theorem attempt_bind {f : Except StepEnd Unit → OwnerProg Unit} (hp : Ends p s t b)
    (hf : ∀ result, (result = .ok () ↔ b = true) → Ends (f result) t u c) :
    Ends (p.attempt.bind f) s u c := by
  obtain ⟨result, hrun, hresult⟩ := hp
  obtain ⟨result', hrun', hresult'⟩ := hf result hresult
  refine ⟨result', ?_, hresult'⟩
  rw [Prog.run_bind, Prog.run_attempt, hrun]
  exact hrun'

theorem congr {t' : SandboxState} {b' : Bool} (h : Ends p s t b) (ht : t = t') (hb : b = b') :
    Ends p s t' b' := by
  rw [← ht, ← hb]
  exact h

end Ends

theorem ends_ending (stepEnd : StepEnd) (s : SandboxState) :
    Ends (ending stepEnd) s s (stepEnd = .done) := by
  cases stepEnd with
  | done => exact Ends.ret s
  | failed => exact Ends.raise _ s
  | timedOut => exact Ends.raise _ s
  | aborted => exact Ends.raise _ s

theorem ends_endings (ends : List StepEnd) (s : SandboxState) :
    Ends (endings ends) s s (allDone ends) := by
  induction ends with
  | nil => exact Ends.ret s
  | cons stepEnd ends ih =>
    exact ((ends_ending stepEnd s).bind ih).congr (by simp) rfl

/-! ### Steps on an open handle -/

theorem use_open {s : SandboxState} (h : s.closed = false) (hused : s.usedClosed = false) :
    s.use = s := by
  cases s
  simp_all [SandboxState.use]

theorem ends_perform (step : Step) {s : SandboxState} (h : s.closed = false)
    (hused : s.usedClosed = false) : Ends step.perform s s step.ok := by
  have huse : Ends (Prog.when step.onHandle (.modify SandboxState.use)) s s true := by
    cases step.onHandle with
    | true => exact (Ends.modify _ s).congr (use_open h hused) rfl
    | false => exact Ends.ret s
  exact (huse.bind (ends_ending step.stepEnd s)).congr (by simp) (by simp [Step.ok])

theorem ends_performAll (steps : List Step) {s : SandboxState} (h : s.closed = false)
    (hused : s.usedClosed = false) : Ends (performAll steps) s s (allOk steps) := by
  induction steps with
  | nil => exact Ends.ret s
  | cons step steps ih =>
    exact ((ends_perform step h hused).bind ih).congr (by simp) rfl

/-! ### Starting a sandbox -/

def ProviderCreate.starts (create : ProviderCreate) : Bool :=
  create.checkImageUid = .done && create.startContainer = .done

/-- `create` returns a handle, in time or not. -/
def ProviderCreate.handsOut (create : ProviderCreate) : Bool :=
  create.starts && allDone create.parentDirs

/-- The sandbox after `create`. -/
def ProviderCreate.made (create : ProviderCreate) : SandboxState :=
  { started := create.starts, handedOut := create.handsOut }

theorem ends_create (create : ProviderCreate) :
    Ends create.perform {} create.made create.handsOut := by
  have hprepare := (ends_endings create.parentDirs { started := true }).bind
    (Ends.modify (fun s => { s with handedOut := true }) _)
  have hstart := ((ends_ending create.startContainer {}).bind
    ((Ends.modify (fun s => { s with started := true }) {}).bind hprepare))
  refine ((ends_ending create.checkImageUid {}).bind hstart).congr ?_ ?_
  · cases hcheck : decide (create.checkImageUid = .done) <;>
    cases hrun : decide (create.startContainer = .done) <;>
    cases hdirs : allDone create.parentDirs <;>
    simp_all [ProviderCreate.made, ProviderCreate.starts, ProviderCreate.handsOut]
  · simp [ProviderCreate.handsOut, ProviderCreate.starts, Bool.and_assoc]

theorem ends_createInTime (create : ProviderCreate) :
    Ends create.performInTime {} create.made (create.handsOut && !create.overdue) := by
  rw [ProviderCreate.performInTime]
  cases create.overdue with
  | true =>
    exact (Ends.attempt_bind (ends_create create)
      fun _ _ => Ends.raise .timedOut create.made).congr rfl (by simp)
  | false => exact (ends_create create).congr rfl (by simp)

/-- What is between `create` and a started sandbox goes through. -/
def startsUp (tag : SandboxProviderTag) (run : OwnerRun) (copyPaths : List Step) : Bool :=
  match tag with
  | .none => true
  | .bindMount => !run.create.overdue
  | .isolated => !run.create.overdue && allOk run.syncIn && allOk copyPaths

theorem ends_startSandbox (tag : SandboxProviderTag) (run : OwnerRun) (copyPaths : List Step) :
    Ends (startSandbox tag run copyPaths) {} run.create.made
      (run.create.handsOut && startsUp tag run copyPaths) := by
  cases tag with
  | none => exact (ends_create run.create).congr rfl (by simp [startsUp])
  | bindMount => exact ends_createInTime run.create
  | isolated =>
    have hsync : Ends (performAll run.syncIn) run.create.made run.create.made (allOk run.syncIn) :=
      ends_performAll run.syncIn rfl rfl
    have hcopy : Ends (performAll copyPaths) run.create.made run.create.made (allOk copyPaths) :=
      ends_performAll copyPaths rfl rfl
    refine ((ends_createInTime run.create).bind (hsync.bind hcopy)).congr (by simp) ?_
    simp [startsUp, Bool.and_assoc]

/-! ### The calls -/

/-- What the entry point lets `startSandbox` copy. -/
def EntryPoint.copyPaths (entry : EntryPoint) (run : OwnerRun) : List Step :=
  match entry with
  | .worktreeRun | .worktreeInteractive => []
  | _ => run.copyPaths

/-- What is between a started sandbox and its owner goes through. -/
def EntryPoint.handsOver (entry : EntryPoint) (run : OwnerRun) : Bool :=
  match entry with
  | .createSandbox | .worktreeCreateSandbox => allOk run.ready
  | .worktreeRun => run.startup = .done
  | _ => true

/-- A sandbox that `create` hands out reaches its owner. -/
def reachesOwner (entry : EntryPoint) (tag : SandboxProviderTag) (run : OwnerRun) : Bool :=
  startsUp tag run (entry.copyPaths run) && entry.handsOver run

/-- `create` is called, and hands a sandbox out. -/
def OwnerRun.handsOut (run : OwnerRun) : Bool :=
  allDone run.before && run.create.handsOut

/-- The sandbox that the steps up to `create` leave. -/
def OwnerRun.made (run : OwnerRun) : SandboxState :=
  if allDone run.before then run.create.made else {}

theorem made_closed (run : OwnerRun) : run.made.closed = false ∧ run.made.usedClosed = false := by
  rw [OwnerRun.made]
  split
  · exact ⟨rfl, rfl⟩
  · exact ⟨rfl, rfl⟩

theorem made_handedOut (run : OwnerRun) : run.made.handedOut = run.handsOut := by
  rw [OwnerRun.made, OwnerRun.handsOut]
  cases allDone run.before with
  | true => rfl
  | false => rfl

theorem made_started (run : OwnerRun) :
    run.made.started = (allDone run.before && run.create.starts) := by
  rw [OwnerRun.made]
  cases allDone run.before with
  | true => rfl
  | false => rfl

theorem ends_started (tag : SandboxProviderTag) (run : OwnerRun) (copyPaths : List Step) :
    Ends ((endings run.before).bind fun _ => startSandbox tag run copyPaths) {} run.made
      (run.handsOut && startsUp tag run copyPaths) :=
  ((ends_endings run.before {}).bind (ends_startSandbox tag run copyPaths)).congr rfl
    (by simp [OwnerRun.handsOut, Bool.and_assoc])

theorem ends_createSandbox (tag : SandboxProviderTag) (run : OwnerRun) :
    Ends (createSandbox tag run) {} run.made
      (run.handsOut && (startsUp tag run run.copyPaths && allOk run.ready)) := by
  have hready := ends_performAll run.ready (made_closed run).1 (made_closed run).2
  have hcall := (ends_started tag run run.copyPaths).bind hready
  rw [Prog.bind_assoc] at hcall
  exact hcall.congr (by simp) (by simp [Bool.and_assoc])

theorem ends_closeHandle (run : OwnerRun) (s : SandboxState) :
    Ends (closeHandle run) s s.close (run.close = .done) :=
  ((Ends.modify SandboxState.close s).bind (ends_ending run.close s.close)).congr (by simp)
    (by simp)

theorem ends_acquireUseRelease {acquire work release : OwnerProg Unit} {s t u : SandboxState}
    {b c d : Bool} (hacquire : Ends acquire s t b) (hwork : Ends work t t c)
    (hrelease : Ends release t u d) :
    Ends (acquireUseRelease acquire work release) s (if b then u else t) (b && (d && c)) := by
  refine hacquire.bind (Ends.attempt_bind hwork fun result hresult => ?_)
  cases result with
  | ok a =>
    have hc : c = true := hresult.mp rfl
    exact (hrelease.bind (Ends.ret u)).congr (by simp) (by rw [hc])
  | error e =>
    have hc : c = false := by simpa using hresult
    exact (hrelease.bind (Ends.raise e u)).congr (by simp) (by rw [hc])

theorem run_finallyDo {p cleanup : OwnerProg Unit} {s t u : SandboxState}
    {result : Except StepEnd Unit} (hrun : p.run s = (result, t))
    (hclean : cleanup.run t = (.ok (), u)) : (p.finallyDo cleanup).run s = (result, u) := by
  cases result with
  | ok a =>
    have htry : (p.tryCatch fun e => cleanup.bind fun _ => .raise e).run s = (.ok a, t) := by
      rw [Prog.run_tryCatch, hrun]
    rw [Prog.finallyDo, Prog.run_bind_ok htry, Prog.run_bind_ok hclean]
    rfl
  | error e =>
    have htry : (p.tryCatch fun e => cleanup.bind fun _ => .raise e).run s = (.error e, u) := by
      rw [Prog.run_tryCatch, hrun]
      exact Prog.run_bind_ok hclean _
    rw [Prog.finallyDo, Prog.run_bind_error htry]

theorem ends_ensuringClose (run : OwnerRun) {s : SandboxState} (h : s.closed = false)
    (hused : s.usedClosed = false) :
    Ends (ensuringClose run (performAll run.work)) s s.close (allOk run.work) := by
  obtain ⟨result, hrun, hresult⟩ := ends_performAll run.work h hused
  obtain ⟨closing, hclose, -⟩ := ends_closeHandle run s
  have hcaught : ((closeHandle run).tryCatch fun _ => .ret ()).run s = (.ok (), s.close) := by
    rw [Prog.run_tryCatch, hclose]
    cases closing with
    | ok a => rfl
    | error e => rfl
  exact ⟨result, run_finallyDo hrun hcaught, hresult⟩

/-- Whether the call of an entry point returns, next to what the sandbox needs for it. -/
def EntryPoint.finishes (entry : EntryPoint) (run : OwnerRun) : Bool :=
  match entry with
  | .createSandbox | .worktreeCreateSandbox => true
  | .withSandbox => (run.close = .done && allDone run.cleanup) && allOk run.work
  | .worktreeRun | .worktreeInteractive => allOk run.work

/-- The sandbox at the end of a call. Where it reached an owner that keeps it to itself, it is
closed. -/
theorem ends_call (entry : EntryPoint) (tag : SandboxProviderTag) (run : OwnerRun) :
    Ends (entry.call tag run) {}
      (if !entry.returnsHandle && (run.handsOut && reachesOwner entry tag run) then
        run.made.close else run.made)
      ((run.handsOut && reachesOwner entry tag run) && entry.finishes run) := by
  obtain ⟨hopen, hunused⟩ := made_closed run
  cases entry with
  | createSandbox =>
    refine (ends_createSandbox tag run).congr rfl ?_
    simp [reachesOwner, EntryPoint.finishes, EntryPoint.copyPaths, EntryPoint.handsOver]
  | worktreeCreateSandbox =>
    refine (ends_createSandbox tag run).congr rfl ?_
    simp [reachesOwner, EntryPoint.finishes, EntryPoint.copyPaths, EntryPoint.handsOver]
  | withSandbox =>
    have hclose := (ends_closeHandle run run.made).bind (ends_endings run.cleanup run.made.close)
    have hcall := ends_acquireUseRelease (ends_started tag run run.copyPaths)
      (ends_performAll run.work hopen hunused) hclose
    rw [acquireUseRelease, Prog.bind_assoc] at hcall
    refine Ends.congr hcall ?_ ?_
    · simp [reachesOwner, EntryPoint.copyPaths, EntryPoint.handsOver, EntryPoint.returnsHandle]
    · simp [reachesOwner, EntryPoint.copyPaths, EntryPoint.handsOver, EntryPoint.finishes]
  | worktreeRun =>
    have hwork := (ends_ending run.startup run.made).bind
      (ends_ensuringClose run hopen hunused)
    have hcall := (ends_started tag run []).bind hwork
    rw [Prog.bind_assoc] at hcall
    refine hcall.congr ?_ ?_
    · cases hstart : run.handsOut && startsUp tag run [] <;>
      cases hstartup : decide (run.startup = .done) <;>
      simp_all [reachesOwner, EntryPoint.copyPaths, EntryPoint.handsOver,
        EntryPoint.returnsHandle]
    · simp [reachesOwner, EntryPoint.copyPaths, EntryPoint.handsOver, EntryPoint.finishes,
        Bool.and_assoc]
  | worktreeInteractive =>
    have hcall := (ends_started tag run []).bind (ends_ensuringClose run hopen hunused)
    rw [Prog.bind_assoc] at hcall
    refine hcall.congr ?_ ?_
    · simp [reachesOwner, EntryPoint.copyPaths, EntryPoint.handsOver, EntryPoint.returnsHandle]
    · simp [reachesOwner, EntryPoint.copyPaths, EntryPoint.handsOver, EntryPoint.finishes]

/-! ### The returned handle -/

def HandleInput.onHandle : HandleInput → Bool
  | .work step => step.onHandle
  | .close => false

/-- A call works in the sandbox after the first `close`: one that was under way, or one that was
begun on the closed handle. -/
def worksAfterClose : List HandleInput → Bool
  | [] => false
  | .work _ :: inputs => worksAfterClose inputs
  | .close :: inputs => inputs.any HandleInput.onHandle

theorem input_closed {handle : SandboxHandle} (h : handle.closed = true)
    (hclosed : handle.sandbox.closed = true) (input : HandleInput) :
    handle.input input = { handle with
      sandbox := { handle.sandbox with
        usedClosed := handle.sandbox.usedClosed || input.onHandle } } := by
  cases input with
  | work step =>
    cases hstep : step.onHandle with
    | true => simp [SandboxHandle.input, SandboxState.use, HandleInput.onHandle, hstep, hclosed]
    | false => simp [SandboxHandle.input, HandleInput.onHandle, hstep]
  | close =>
    cases handle with
    | mk sandbox closed =>
      cases sandbox
      simp_all [SandboxHandle.input, HandleInput.onHandle]

theorem inputs_closed (inputs : List HandleInput) {handle : SandboxHandle}
    (h : handle.closed = true) (hclosed : handle.sandbox.closed = true) :
    inputs.foldl SandboxHandle.input handle = { handle with
      sandbox := { handle.sandbox with
        usedClosed := handle.sandbox.usedClosed || inputs.any HandleInput.onHandle } } := by
  induction inputs generalizing handle with
  | nil => simp
  | cons input inputs ih =>
    rw [List.foldl_cons, input_closed h hclosed]
    have hrest := @ih { handle with
      sandbox := { handle.sandbox with
        usedClosed := handle.sandbox.usedClosed || input.onHandle } } h hclosed
    rw [hrest]
    simp [Bool.or_assoc]

/-- A run on an open handle. Up to `close` nothing changes, and from there on the handle is
closed and so is the sandbox. -/
theorem inputs_open (inputs : List HandleInput) {s : SandboxState} (h : s.closed = false)
    (hused : s.usedClosed = false) :
    inputs.foldl SandboxHandle.input { sandbox := s } =
      { sandbox := { s with
          closed := inputs.contains .close, usedClosed := worksAfterClose inputs },
        closed := inputs.contains .close } := by
  induction inputs with
  | nil =>
    cases s
    simp_all [worksAfterClose]
  | cons input inputs ih =>
    cases input with
    | work step =>
      have hstill : SandboxHandle.input { sandbox := s } (.work step) = { sandbox := s } := by
        rw [SandboxHandle.input, use_open h hused]
        split
        · rfl
        · rfl
      rw [List.foldl_cons, hstill, ih]
      simp [worksAfterClose]
    | close =>
      have hclose : SandboxHandle.input { sandbox := s } .close =
          { sandbox := s.close, closed := true } := rfl
      rw [List.foldl_cons, hclose, inputs_closed inputs rfl rfl]
      simp [SandboxState.close, worksAfterClose, hused]

/-! ### Sandboxes and their owners -/

/-- Once its owner is done with it, a handle that `create` produced is closed, and no handle is
used after it was closed. -/
structure Tidy (l : Life) : Prop where
  closed : l.ended = true → l.sandbox.handedOut = true → l.sandbox.closed = true
  unused : l.sandbox.usedClosed = false

/-- The same for sandboxes that have no handle yet: none that was started is left. -/
def Gone (l : Life) : Prop :=
  l.ended = true → l.sandbox.started = true → l.sandbox.closed = true

/-- A handle that `create` produces reaches its owner. -/
def Acquired (entry : EntryPoint) (tag : SandboxProviderTag) (run : OwnerRun) : Prop :=
  run.handsOut = true → reachesOwner entry tag run = true

/-- No call works in the sandbox of a returned handle after its `close`. -/
def LeftAlone (entry : EntryPoint) (run : OwnerRun) (inputs : List HandleInput) : Prop :=
  entry.returnsHandle = true → run.handsOut = true → worksAfterClose inputs = false

def Prepared (run : OwnerRun) : Prop :=
  allDone run.before = true → run.create.starts = true → allDone run.create.parentDirs = true

/-- The life of a sandbox: either a handle is returned and its inputs decide, or the call ends with
the sandbox closed where it reached its owner. -/
theorem life_eq (entry : EntryPoint) (tag : SandboxProviderTag) (run : OwnerRun)
    (inputs : List HandleInput) :
    life entry tag run inputs =
      if entry.returnsHandle && (run.handsOut && reachesOwner entry tag run) then
        { sandbox := { run.made with
            closed := inputs.contains .close, usedClosed := worksAfterClose inputs },
          ended := inputs.contains .close }
      else
        { sandbox := if run.handsOut && reachesOwner entry tag run then run.made.close
            else run.made,
          ended := true } := by
  obtain ⟨result, hrun, hresult⟩ := ends_call entry tag run
  rw [life, hrun]
  cases hreturns : entry.returnsHandle with
  | true =>
    have hfinishes : entry.finishes run = true := by
      cases entry <;> first | rfl | cases hreturns
    rw [hfinishes, Bool.and_true] at hresult
    cases hreached : run.handsOut && reachesOwner entry tag run with
    | true =>
      have hok : result = .ok () := hresult.mpr hreached
      rw [hok]
      simp [inputs_open inputs (made_closed run).1 (made_closed run).2]
    | false =>
      cases result with
      | ok a => exact absurd (hresult.mp rfl) (by simp [hreached])
      | error e => simp
  | false =>
    cases result with
    | ok a => simp
    | error e => simp

/-! ### The three ends of a life -/

theorem tidy_left (run : OwnerRun) :
    Tidy { sandbox := run.made, ended := true } ↔ run.handsOut = false := by
  obtain ⟨hopen, hunused⟩ := made_closed run
  constructor
  · intro h
    have hclosed := h.closed rfl
    rw [hopen, made_handedOut] at hclosed
    simpa using hclosed
  · intro h
    constructor
    · intro _ hout
      rw [made_handedOut, h] at hout
      cases hout
    · exact hunused

theorem gone_left (run : OwnerRun) :
    Gone { sandbox := run.made, ended := true } ↔
      (allDone run.before && run.create.starts) = false := by
  obtain ⟨hopen, -⟩ := made_closed run
  rw [Gone, hopen, made_started]
  simp

theorem tidy_closed (run : OwnerRun) : Tidy { sandbox := run.made.close, ended := true } :=
  ⟨fun _ _ => rfl, (made_closed run).2⟩

theorem tidy_returned (run : OwnerRun) (closed used : Bool) :
    Tidy { sandbox := { run.made with closed := closed, usedClosed := used }, ended := closed } ↔
      used = false :=
  ⟨fun h => h.unused, fun h => ⟨fun hended _ => hended, h⟩⟩

theorem handsOut_eq (run : OwnerRun) : run.handsOut =
    (allDone run.before && run.create.starts && allDone run.create.parentDirs) := by
  simp [OwnerRun.handsOut, ProviderCreate.handsOut, Bool.and_assoc]

theorem tidy_life (entry : EntryPoint) (tag : SandboxProviderTag) (run : OwnerRun)
    (inputs : List HandleInput) :
    Tidy (life entry tag run inputs) ↔ Acquired entry tag run ∧ LeftAlone entry run inputs := by
  rw [life_eq, Acquired, LeftAlone]
  cases hout : run.handsOut with
  | false =>
    -- No handle was produced, so there is nothing to close.
    simp [(tidy_left run).mpr hout]
  | true =>
    cases hreach : reachesOwner entry tag run with
    | false =>
      have hleft : ¬Tidy { sandbox := run.made, ended := true } := by
        rw [tidy_left, hout]
        simp
      simpa using hleft
    | true =>
      cases hreturns : entry.returnsHandle with
      | true => simpa using tidy_returned run (inputs.contains .close) (worksAfterClose inputs)
      | false => simp [tidy_closed run]

theorem gone_life (entry : EntryPoint) (tag : SandboxProviderTag) (run : OwnerRun)
    (inputs : List HandleInput) (h : Acquired entry tag run) :
    Gone (life entry tag run inputs) ↔ Prepared run := by
  rw [life_eq, Prepared]
  cases hout : run.handsOut with
  | false =>
    rw [handsOut_eq] at hout
    have hleft := gone_left run
    cases hbefore : allDone run.before <;> cases hstarts : run.create.starts <;>
      simp_all
  | true =>
    have hreach : reachesOwner entry tag run = true := h hout
    rw [handsOut_eq] at hout
    simp only [Bool.and_eq_true] at hout
    cases hreturns : entry.returnsHandle with
    | true =>
      have hreturned : ∀ c s : Prop, c → s → c := fun _ _ hclose _ => hclose
      simpa [Gone, hreach, hout.2] using hreturned _ _
    | false => simp [Gone, hreach, hout.2, SandboxState.close]

/-- Which handles are closed when their owner is done and not used after that, and when no sandbox
is left at all. -/
theorem tidy_iff (entry : EntryPoint) (tag : SandboxProviderTag) (run : OwnerRun)
    (inputs : List HandleInput) :
    (Tidy (life entry tag run inputs) ↔ Acquired entry tag run ∧ LeftAlone entry run inputs) ∧
    (Tidy (life entry tag run inputs) ∧ Gone (life entry tag run inputs) ↔
      Acquired entry tag run ∧ LeftAlone entry run inputs ∧ Prepared run) := by
  have htidy := tidy_life entry tag run inputs
  constructor
  · exact htidy
  · constructor
    · intro h
      have hacquired := (htidy.mp h.1).1
      exact ⟨hacquired, (htidy.mp h.1).2, (gone_life entry tag run inputs hacquired).mp h.2⟩
    · intro h
      exact ⟨htidy.mpr ⟨h.1, h.2.1⟩, (gone_life entry tag run inputs h.1).mpr h.2.2⟩

/-- An isolated sandbox whose sync-in fails: `withSandbox` fails, and its handle stays open. -/
theorem failedSyncIn_left :
    ¬Tidy (life .withSandbox .isolated
      { syncIn := [{ onHandle := true, stepEnd := .failed }] } []) := by
  intro h
  exact absurd (h.closed (by decide) (by decide)) (by decide)

end ArchLoop.SandboxOwner
