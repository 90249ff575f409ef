import ArchLoop.AgentProvider

/-!
# `ArchLoop.Orchestrator`: one agent after the other

`invokeAgent` (`Orchestrator.ts`) runs the program of an agent and follows what it prints. An exit
that is no success may be accepted all the same, when the provider has a result already. Otherwise
it is an error, and the error says whether the agent had printed anything (`transientStartupAbort`).

`orchestrate` runs an agent several times in sandboxes. What becomes of a sandbox is given with each
iteration: the commits that the agent makes in it, the commits that `withSandboxLifecycle` collects
from it at the end, and a failure before or after the agent. The idle timer, signals, sessions and
the texts of errors are left out.
-/

set_option autoImplicit false

namespace ArchLoop.Orchestrator

open ArchLoop.Lib ArchLoop.AgentProvider

/-! ### `invokeAgent` -/

/-- What the program of an agent printed, and its exit code. -/
structure AgentExec where
  lines : List (List Char)
  stderr : List Char
  exitCode : Int

def AgentExec.stdout (exec : AgentExec) : List Char := ['\n'].intercalate exec.lines

/-- What is known from the lines so far. -/
structure StreamState where
  resultText : String := ""
  producedAgentOutput : Bool := false
  sessionId : Option String := none

/-- `noteAgentOutput`. -/
def StreamState.noteAgentOutput (state : StreamState) (text : String) : StreamState :=
  if trim text ≠ "" then { state with producedAgentOutput := true } else state

/-- One event of a line. -/
def readEvent (state : StreamState) : ParsedStreamEvent → StreamState
  | .text text => state.noteAgentOutput text
  | .result result => { state with resultText := result }.noteAgentOutput result
  | .toolCall _ _ => { state with producedAgentOutput := true }
  | .sessionId sessionId => { state with sessionId := some sessionId }

/-- All lines. -/
def readStream (provider : AgentName) (lines : List (List Char)) : StreamState :=
  (lines.flatMap (parseStreamLine provider)).foldl readEvent {}

/-- How a call of the agent ends.

- `returned`: with success.
- `recovered`: without success, but with a result.
- `failed`: with an `AgentError`. -/
inductive InvokeOutcome where
  | returned (result : String) (sessionId : Option String)
  | recovered (result : String) (sessionId : Option String)
  | failed (transientStartupAbort : Bool)
  deriving DecidableEq, Repr

def toAgentExecFailure (exec : AgentExec) (resultText : String) : AgentExecFailure where
  exitCode := exec.exitCode
  stderr := exec.stderr
  stdout := exec.stdout
  resultText := resultText

def invokeAgent (provider : AgentName) (exec : AgentExec) : InvokeOutcome :=
  let state := readStream provider exec.lines
  if exec.exitCode ≠ 0 then
    if acceptRecoverableExit provider (toAgentExecFailure exec state.resultText) then
      .recovered state.resultText state.sessionId
    else .failed (!state.producedAgentOutput)
  else
    .returned (if state.resultText = "" then String.ofList exec.stdout else state.resultText)
      state.sessionId

/-! ### `orchestrate` -/

/-- One iteration.

- `setupFailure`: an error before the agent is called.
- `exec`: what the agent printed.
- `made`: the commits that the agent made.
- `finishFailure`: an error after the agent has ended.
- `reported`: the commits that the lifecycle collects at the end. -/
structure IterationRun where
  setupFailure : Option String := none
  exec : AgentExec
  made : List String := []
  finishFailure : Option String := none
  reported : List String := []
  branch : String := ""

inductive OrchestrateError where
  | agent (transientStartupAbort : Bool)
  | other (message : String)
  deriving DecidableEq, Repr

structure OrchestrateResult where
  /-- The session of each iteration. -/
  iterations : List (Option String) := []
  completionSignal : Option String := none
  stdout : String := ""
  commits : List String := []
  branch : String := ""
  deriving DecidableEq, Repr

/-- How an iteration ends: with the output of the agent and its session, or with an error. -/
def runIteration (provider : AgentName) (run : IterationRun) :
    Except OrchestrateError (String × Option String) :=
  match run.setupFailure with
  | some message => .error (.other message)
  | none =>
    match invokeAgent provider run.exec with
    | .failed transientStartupAbort => .error (.agent transientStartupAbort)
    | .returned result sessionId | .recovered result sessionId =>
      match run.finishFailure with
      | some message => .error (.other message)
      | none => .ok (result, sessionId)

/-- The result with what an iteration adds. -/
def OrchestrateResult.add (result : OrchestrateResult) (run : IterationRun) (output : String)
    (sessionId : Option String) : OrchestrateResult :=
  { result with
    iterations := result.iterations ++ [sessionId]
    stdout := result.stdout ++ output
    commits := result.commits ++ run.reported
    branch := run.branch }

/-- The loop over the iterations. -/
def orchestrateFrom (provider : AgentName) (completionSignals : List String) :
    OrchestrateResult → List IterationRun → Except OrchestrateError OrchestrateResult
  | result, [] => .ok result
  | result, run :: runs =>
    match runIteration provider run with
    | .error error =>
      if error = .agent true && !runs.isEmpty then
        orchestrateFrom provider completionSignals
          { result with iterations := result.iterations ++ [none] } runs
      else .error error
    | .ok (output, sessionId) =>
      let added := result.add run output sessionId
      match completionSignals.find? fun signal =>
          decide (signal.toList <:+: output.toList) with
      | some signal => .ok { added with completionSignal := some signal }
      | none => orchestrateFrom provider completionSignals added runs

def orchestrate (provider : AgentName) (completionSignals : List String)
    (runs : List IterationRun) : Except OrchestrateError OrchestrateResult :=
  orchestrateFrom provider completionSignals {} runs

end ArchLoop.Orchestrator
