import ArchLoop.Orchestrator

/-!
# `ArchLoop.Proofs.RecoverableExit`: when a failed process counts as done

A provider may accept an exit that is no success "because the provider already captured a valid
result from the stream" (`acceptRecoverableExit`). Only Cursor does. But the messages of errors are
captured in the place of results (`parseCursorStreamLine`), and the signs of a broken connection
are looked for in all that was printed.

`resultText_readStream`: what is captured is the last result or message of an error.
`resultText_behind` says the same by the lines behind the last real result. With it
`recovers_properly_iff` says when an exit is accepted as it should be.
-/

set_option autoImplicit false

namespace ArchLoop.Orchestrator

open ArchLoop.Lib ArchLoop.Lib.JsonText ArchLoop.AgentProvider

/-! ### What is captured -/

def resultOf : ParsedStreamEvent → Option String
  | .result result => some result
  | _ => none

/-- The results in a line, with the messages of errors among them. -/
def lineResults (provider : AgentName) (line : List Char) : List String :=
  (parseStreamLine provider line).filterMap resultOf

def captured (provider : AgentName) (lines : List (List Char)) : List String :=
  lines.flatMap (lineResults provider)

def isErrorLine (line : List Char) : Bool :=
  (readObject line).any fun obj =>
    textMember obj "type" = some "error" || textMember obj "type" = some "agent_error"

def realResult (provider : AgentName) (line : List Char) : Option String :=
  if isErrorLine line then none else (lineResults provider line).getLast?

def errorMessages (provider : AgentName) (line : List Char) : List String :=
  if isErrorLine line then lineResults provider line else []

def endsInError (lines : List (List Char)) : Bool :=
  (lines.filter fun line => (readObject line).isSome).getLast?.any isErrorLine

/-- The last real result, with the lines behind it. -/
def lastRealResult (provider : AgentName) :
    List (List Char) → Option (String × List (List Char))
  | [] => none
  | line :: lines =>
    (lastRealResult provider lines).or ((realResult provider line).map (·, lines))

@[simp] theorem StreamState.noteAgentOutput_resultText (state : StreamState) (text : String) :
    (state.noteAgentOutput text).resultText = state.resultText := by
  unfold StreamState.noteAgentOutput
  split <;> rfl

theorem resultText_foldl (events : List ParsedStreamEvent) (state : StreamState) :
    (events.foldl readEvent state).resultText =
      (events.filterMap resultOf).getLast?.getD state.resultText := by
  induction events generalizing state with
  | nil => rfl
  | cons event events ih =>
    rw [List.foldl_cons, ih]
    cases event with
    | result result =>
      -- The last result so far counts, unless another one follows.
      simp [resultOf, readEvent, List.getLast?_cons]
    | text text => simp [resultOf, readEvent]
    | toolCall name args => simp [resultOf, readEvent]
    | sessionId sessionId => simp [resultOf, readEvent]

theorem resultText_readStream (provider : AgentName) (lines : List (List Char)) :
    (readStream provider lines).resultText = (captured provider lines).getLast?.getD "" := by
  unfold readStream
  rw [resultText_foldl, List.filterMap_flatMap]
  rfl

/-! ### Behind the last real result -/

theorem lastRealResult_eq_none {provider : AgentName} {lines : List (List Char)} :
    lastRealResult provider lines = none ↔ ∀ line ∈ lines, realResult provider line = none := by
  induction lines with
  | nil => simp [lastRealResult]
  | cons line lines ih => simp [lastRealResult, ih, and_comm]

theorem lastRealResult_eq_some {provider : AgentName} {lines back : List (List Char)}
    {text : String} :
    lastRealResult provider lines = some (text, back) ↔
      ∃ front line, lines = front ++ line :: back ∧ realResult provider line = some text ∧
        ∀ later ∈ back, realResult provider later = none := by
  induction lines with
  | nil => simp [lastRealResult]
  | cons first lines ih =>
    have hunfold : lastRealResult provider (first :: lines) =
        (lastRealResult provider lines).or ((realResult provider first).map (·, lines)) := rfl
    rw [hunfold, Option.or_eq_some_iff, ih, lastRealResult_eq_none]
    constructor
    · rintro (⟨front, line, hlines, hresult, hback⟩ | ⟨hnone, hfirst⟩)
      · exact ⟨first :: front, line, by rw [hlines, List.cons_append], hresult, hback⟩
      · -- The first line has the last result.
        obtain ⟨result, hresult, hpair⟩ := Option.map_eq_some_iff.mp hfirst
        cases hpair
        exact ⟨[], first, rfl, hresult, hnone⟩
    · rintro ⟨front, line, hlines, hresult, hback⟩
      cases front with
      | nil =>
        cases hlines
        right
        exact ⟨hback, by rw [hresult, Option.map_some]⟩
      | cons _ front =>
        cases hlines
        left
        exact ⟨front, line, rfl, hresult, hback⟩

theorem lineResults_of_realResult_eq_none {provider : AgentName} {line : List Char}
    (h : realResult provider line = none) :
    lineResults provider line = errorMessages provider line := by
  unfold realResult at h
  unfold errorMessages
  split at h
  · rw [if_pos ‹_›]
  · rw [if_neg ‹_›]
    exact List.getLast?_eq_none_iff.mp h

theorem lineResults_of_realResult_eq_some {provider : AgentName} {line : List Char} {text : String}
    (h : realResult provider line = some text) :
    (lineResults provider line).getLast? = some text := by
  unfold realResult at h
  split at h
  · cases h
  · exact h

theorem resultText_behind {provider : AgentName} {lines back : List (List Char)} {text : String}
    (h : lastRealResult provider lines = some (text, back)) :
    (readStream provider lines).resultText =
      (back.flatMap (errorMessages provider)).getLast?.getD text := by
  obtain ⟨front, line, hlines, hresult, hback⟩ := lastRealResult_eq_some.mp h
  have hbehind : back.flatMap (lineResults provider) = back.flatMap (errorMessages provider) :=
    List.flatMap_congr fun later hlater => lineResults_of_realResult_eq_none (hback later hlater)
  rw [resultText_readStream]
  unfold captured
  rw [hlines, List.flatMap_append, List.flatMap_cons, hbehind, List.getLast?_append,
    List.getLast?_append, lineResults_of_realResult_eq_some hresult]
  cases (back.flatMap (errorMessages provider)).getLast? with
  | none => rfl
  | some message => rfl

/-! ### Exits that are accepted -/

/-- The exit is accepted, and what the process printed tells of a broken connection: the
condition of `cursorAcceptRecoverableExit`. -/
def LosesConnection (provider : AgentName) (exec : AgentExec) : Prop :=
  provider = .cursor ∧ exec.exitCode ≠ 0 ∧
    trim ((captured provider exec.lines).getLast?.getD "") ≠ "" ∧
    isTeardownText (exec.stderr ++ '\n' :: exec.stdout)

/-- A broken connection is told of on the error stream, which has no place among the lines, or in
one of the given lines. -/
def brokeIn (exec : AgentExec) (lines : List (List Char)) : Bool :=
  isTeardownText (exec.stderr ++ '\n' :: ['\n'].intercalate lines)

theorem hasCapturedAgentResult_iff {failure : AgentExecFailure} :
    hasCapturedAgentResult failure = true ↔ trim failure.resultText ≠ "" := decide_eq_true_iff

theorem accepts_iff {provider : AgentName} {exec : AgentExec} :
    (exec.exitCode ≠ 0 ∧ acceptRecoverableExit provider
        (toAgentExecFailure exec (readStream provider exec.lines).resultText) = true) ↔
      LosesConnection provider exec := by
  unfold LosesConnection
  rw [← resultText_readStream]
  cases provider with
  | cursor =>
    simp only [acceptRecoverableExit, cursorAcceptRecoverableExit, hasCapturedAgentResult_iff,
      isCursorConnectionTeardown, agentExecIoDetail, toAgentExecFailure, Bool.and_eq_true,
      true_and]
  -- The other providers accept no such exit.
  | claudeCode | pi | codex | opencode => simp [acceptRecoverableExit]

theorem recovered_iff {provider : AgentName} {exec : AgentExec} {result : String}
    {sessionId : Option String} :
    invokeAgent provider exec = .recovered result sessionId ↔
      LosesConnection provider exec ∧ result = (readStream provider exec.lines).resultText ∧
        sessionId = (readStream provider exec.lines).sessionId := by
  rw [← accepts_iff]
  unfold invokeAgent
  dsimp only
  by_cases hcode : exec.exitCode ≠ 0
  · rw [if_pos hcode]
    by_cases haccept : acceptRecoverableExit provider
        (toAgentExecFailure exec (readStream provider exec.lines).resultText) = true
    · rw [if_pos haccept]
      simp [hcode, haccept, eq_comm]
    · rw [if_neg haccept]
      simp [haccept]
  · rw [if_neg hcode]
    simp [hcode]

/-- The agent had given `result`, its last one, before the connection broke, and no error came at
the end. -/
def AcceptedProperly (provider : AgentName) (exec : AgentExec) (result : String) : Prop :=
  ∃ front line back, exec.lines = front ++ line :: back ∧
    realResult provider line = some result ∧
    (∀ later ∈ back, realResult provider later = none) ∧
    brokeIn exec back ∧ endsInError exec.lines = false

/-- A real result, behind which no error tells anything else, with the broken connection behind
it. -/
def ResultStands (provider : AgentName) (exec : AgentExec) : Prop :=
  ∃ text back, lastRealResult provider exec.lines = some (text, back) ∧
    (back.flatMap (errorMessages provider)).getLast?.getD text = text ∧
    brokeIn exec back ∧ endsInError exec.lines = false

theorem acceptedProperly_iff {provider : AgentName} {exec : AgentExec} :
    AcceptedProperly provider exec (readStream provider exec.lines).resultText ↔
      ResultStands provider exec := by
  constructor
  · rintro ⟨front, line, back, hlines, hresult, hback, hbroke, hend⟩
    have hlast := lastRealResult_eq_some.mpr ⟨front, line, hlines, hresult, hback⟩
    exact ⟨_, back, hlast, (resultText_behind hlast).symm, hbroke, hend⟩
  · rintro ⟨text, back, hlast, htext, hbroke, hend⟩
    obtain ⟨front, line, hlines, hresult, hback⟩ := lastRealResult_eq_some.mp hlast
    rw [resultText_behind hlast, htext]
    exact ⟨front, line, back, hlines, hresult, hback, hbroke, hend⟩

/-- A failed process is accepted as it should be if and only if its result stands, whenever
something is captured and a broken connection is told of anywhere. -/
theorem recovers_properly_iff (provider : AgentName) (exec : AgentExec) :
    (∀ result sessionId, invokeAgent provider exec = .recovered result sessionId →
        AcceptedProperly provider exec result) ↔
      (LosesConnection provider exec → ResultStands provider exec) := by
  constructor
  · intro h hloses
    have hrecovered := recovered_iff.mpr ⟨hloses, rfl, rfl⟩
    exact acceptedProperly_iff.mp (h _ _ hrecovered)
  · intro h result sessionId hrecovered
    obtain ⟨hloses, rfl, -⟩ := recovered_iff.mp hrecovered
    exact acceptedProperly_iff.mpr (h hloses)

/-- An error as the only output of a process that has failed. -/
def refusedExec : AgentExec where
  lines := ["\x7b\"type\":\"error\",\"message\":\"read ECONNRESET\"\x7d".toList]
  stderr := []
  exitCode := 1

/-- The message of the error becomes the result of the agent. -/
theorem refusedExec_is_recovered :
    ¬ ∀ provider exec result sessionId, invokeAgent provider exec = .recovered result sessionId →
      AcceptedProperly provider exec result := by
  intro h
  have hrecovered : invokeAgent .cursor refusedExec = .recovered "read ECONNRESET" none := by
    decide +kernel
  obtain ⟨front, line, back, hlines, hresult, -⟩ := h .cursor refusedExec _ _ hrecovered
  -- The only line is an error.
  have hline : line ∈ refusedExec.lines := by simp [hlines]
  have herror : ∀ line ∈ refusedExec.lines, realResult .cursor line = none := by decide +kernel
  rw [herror line hline] at hresult
  cases hresult

end ArchLoop.Orchestrator
