import ArchLoop.Proofs.RecoverableExit

/-!
# `ArchLoop.Proofs.StartupAbort`: runs of an agent that count for nothing

An `AgentError` says that it is a `transientStartupAbort` "when the provider exited before producing
agent output (text, tool calls, or a captured result)", and `orchestrate` goes on with the next
iteration then. But only what is shown of the output is noted: a call of a tool without a known
argument has no event, and nothing of what OpenCode prints has one.

`failed_abort_iff` says when the flag is right. An iteration that is passed over adds nothing to
the commits, and an error has none at all: `commitsKept_iff`.
-/

set_option autoImplicit false

namespace ArchLoop.Orchestrator

open ArchLoop.Lib ArchLoop.Lib.JsonText ArchLoop.AgentProvider

/-! ### What is noted -/

def notedEvent : ParsedStreamEvent → Bool
  | .text text => trim text ≠ ""
  | .result result => trim result ≠ ""
  | .toolCall _ _ => true
  | .sessionId _ => false

def noted (provider : AgentName) (line : List Char) : Bool :=
  (parseStreamLine provider line).any notedEvent

theorem StreamState.noteAgentOutput_producedAgentOutput (state : StreamState) (text : String) :
    (state.noteAgentOutput text).producedAgentOutput =
      (state.producedAgentOutput || decide (trim text ≠ "")) := by
  unfold StreamState.noteAgentOutput
  by_cases h : trim text ≠ ""
  · rw [if_pos h, decide_eq_true h, Bool.or_true]
  · rw [if_neg h, decide_eq_false h, Bool.or_false]

theorem producedAgentOutput_foldl (events : List ParsedStreamEvent) (state : StreamState) :
    (events.foldl readEvent state).producedAgentOutput =
      (state.producedAgentOutput || events.any notedEvent) := by
  induction events generalizing state with
  | nil => simp
  | cons event events ih =>
    rw [List.foldl_cons, ih, List.any_cons, ← Bool.or_assoc]
    congr 1
    cases event with
    | text text => exact state.noteAgentOutput_producedAgentOutput text
    | result result =>
      exact StreamState.noteAgentOutput_producedAgentOutput { state with resultText := result } _
    | toolCall name args => simp [readEvent, notedEvent]
    | sessionId sessionId => simp [readEvent, notedEvent]

theorem producedAgentOutput_readStream (provider : AgentName) (lines : List (List Char)) :
    (readStream provider lines).producedAgentOutput = lines.any (noted provider) := by
  unfold readStream
  rw [producedAgentOutput_foldl, List.any_flatMap]
  rfl

/-- What is captured is noted, unless it is blank. -/
theorem noted_of_losesConnection {provider : AgentName} {exec : AgentExec}
    (h : LosesConnection provider exec) : ∃ line ∈ exec.lines, noted provider line = true := by
  have hcaptured := h.2.2.1
  cases hlast : (captured provider exec.lines).getLast? with
  | none =>
    rw [hlast] at hcaptured
    exact absurd rfl hcaptured
  | some text =>
    rw [hlast] at hcaptured
    obtain ⟨line, hline, htext⟩ := List.mem_flatMap.mp (List.mem_of_getLast? hlast)
    obtain ⟨event, hevent, hresult⟩ := List.mem_filterMap.mp htext
    cases event with
    | result result =>
      cases hresult
      exact ⟨line, hline, List.any_eq_true.mpr ⟨_, hevent, decide_eq_true hcaptured⟩⟩
    | text text => cases hresult
    | toolCall name args => cases hresult
    | sessionId sessionId => cases hresult

theorem failed_true_iff {provider : AgentName} {exec : AgentExec} :
    invokeAgent provider exec = .failed true ↔
      exec.exitCode ≠ 0 ∧ ∀ line ∈ exec.lines, noted provider line = false := by
  have hflag : (readStream provider exec.lines).producedAgentOutput = false ↔
      ∀ line ∈ exec.lines, noted provider line = false := by
    rw [producedAgentOutput_readStream, List.any_eq_false]
    simp only [Bool.not_eq_true]
  rw [← hflag]
  by_cases hcode : exec.exitCode ≠ 0
  · by_cases hloses : LosesConnection provider exec
    · -- The exit is accepted, with a result that is noted.
      have hrecovered := recovered_iff.mpr ⟨hloses, rfl, rfl⟩
      obtain ⟨line, hline, hnoted⟩ := noted_of_losesConnection hloses
      have hproduced : (readStream provider exec.lines).producedAgentOutput = true := by
        rw [producedAgentOutput_readStream]
        exact List.any_eq_true.mpr ⟨line, hline, hnoted⟩
      simp [hrecovered, hproduced]
    · have hrefused : acceptRecoverableExit provider
          (toAgentExecFailure exec (readStream provider exec.lines).resultText) = false := by
        rw [← Bool.not_eq_true]
        intro haccept
        exact hloses (accepts_iff.mp ⟨hcode, haccept⟩)
      unfold invokeAgent
      simp [hcode, hrefused]
  · unfold invokeAgent
    simp [hcode]

/-! ### What the agent did -/

/-- What this repository does not say: which items of Codex are calls of tools, and which lines of
OpenCode are texts, results or calls of the agent. -/
structure Formats where
  isTool : String → Bool
  isAgentLine : List Char → Bool

def saysText (text : Option String) : Bool := text.any (· ≠ "")

def contentBlocks (obj : Value) : List Value :=
  ((innerMember obj "message" "content").bind Value.items?).getD []

/-- A message of Claude Code with a text or a call of any tool, or its result. -/
def activeClaudeCode (obj : Value) : Bool :=
  match textMember obj "type" with
  | some "assistant" => (contentBlocks obj).any fun block =>
      textMember block "type" = some "tool_use" ||
        (textMember block "type" = some "text" && saysText (textMember block "text"))
  | some "result" => saysText (textMember obj "result")
  | _ => false

def activeCursor (obj : Value) : Bool :=
  match textMember obj "type" with
  | some "assistant" => (contentBlocks obj).any fun block => saysText (textMember block "text")
  | some "tool_call" => true
  | some "result" => saysText (textMember obj "result")
  | _ => false

def activePi (obj : Value) : Bool :=
  match textMember obj "type" with
  | some "message_update" =>
    (innerMember obj "assistantMessageEvent" "type").bind Value.text? = some "text_delta" &&
      saysText ((innerMember obj "assistantMessageEvent" "delta").bind Value.text?)
  | some "tool_execution_start" => true
  | some "agent_end" => (((obj.get "messages").bind Value.items?).getD []).any fun message =>
      textMember message "role" = some "assistant" &&
        (((message.get "content").bind Value.items?).getD []).any fun block =>
          textMember block "type" = some "text" && saysText (textMember block "text")
  | _ => false

def activeCodex (formats : Formats) (obj : Value) : Bool :=
  let itemType := (innerMember obj "item" "type").bind Value.text?
  match textMember obj "type" with
  | some "item.started" => itemType.any formats.isTool
  | some "item.completed" => itemType.any formats.isTool ||
      (itemType = some "agent_message" &&
        saysText ((innerMember obj "item" "text").bind Value.text?))
  | _ => false

/-- The line shows that the agent did something: a text, a result or a call of a tool, whether it
is displayed or not. -/
def active (formats : Formats) (provider : AgentName) (line : List Char) : Bool :=
  match provider with
  | .claudeCode => (readObject line).any activeClaudeCode
  | .cursor => (readObject line).any activeCursor
  | .pi => (readObject line).any activePi
  | .codex => (readObject line).any (activeCodex formats)
  | .opencode => formats.isAgentLine line

/-- Something is done in the line, and nothing of it is noted: a tool that is not displayed, a
blank text, or a line that is not read. -/
def hidden (formats : Formats) (provider : AgentName) (line : List Char) : Bool :=
  active formats provider line && !noted provider line

/-- The flag is right if and only if nothing is hidden in the output of a process that has failed,
or something else in it is noted. -/
theorem failed_abort_iff (formats : Formats) (provider : AgentName) (exec : AgentExec) :
    (invokeAgent provider exec = .failed true →
        ∀ line ∈ exec.lines, active formats provider line = false) ↔
      (exec.exitCode = 0 ∨ (∃ line ∈ exec.lines, noted provider line = true) ∨
        ∀ line ∈ exec.lines, hidden formats provider line = false) := by
  rw [failed_true_iff]
  constructor
  · intro h
    by_cases hcode : exec.exitCode = 0
    · exact .inl hcode
    · by_cases hnoted : ∃ line ∈ exec.lines, noted provider line = true
      · exact .inr (.inl hnoted)
      · have hunnoted : ∀ line ∈ exec.lines, noted provider line = false := by
          intro line hline
          rw [← Bool.not_eq_true]
          exact fun hline' => hnoted ⟨line, hline, hline'⟩
        have hidle := h ⟨hcode, hunnoted⟩
        right; right
        intro line hline
        rw [hidden, hidle line hline, Bool.false_and]
  · rintro h ⟨hcode, hunnoted⟩ line hline
    rcases h with hzero | ⟨other, hother, hnoted⟩ | hopen
    · exact absurd hzero hcode
    · rw [hunnoted other hother] at hnoted
      cases hnoted
    · -- What is done in the line would be noted.
      have hline' := hopen line hline
      rw [hidden, hunnoted line hline, Bool.not_false, Bool.and_true] at hline'
      exact hline'

/-! ### Iterations -/

/-- The iteration ends with an output of the agent. -/
def settles (provider : AgentName) (run : IterationRun) : Bool :=
  (runIteration provider run).toOption.isSome

def goesOn (provider : AgentName) (completionSignals : List String) (run : IterationRun) : Bool :=
  match runIteration provider run with
  | .error error => error = .agent true
  | .ok (output, _) =>
    (completionSignals.find? fun signal => decide (signal.toList <:+: output.toList)).isNone

def executed (provider : AgentName) (completionSignals : List String) :
    List IterationRun → List IterationRun
  | [] => []
  | run :: runs =>
    run :: if goesOn provider completionSignals run then executed provider completionSignals runs
      else []

/-- The last iteration that is run ends with an error. -/
def raises (provider : AgentName) (completionSignals : List String) (runs : List IterationRun) :
    Bool :=
  (executed provider completionSignals runs).getLast?.any fun run => !settles provider run

/-- What is collected from the iterations that end with an output. -/
def collected (provider : AgentName) (runs : List IterationRun) : List String :=
  (runs.filter (settles provider)).flatMap (·.reported)

def madeIn (run : IterationRun) : List String :=
  if run.setupFailure.isSome then [] else run.made

section Runs

variable {provider : AgentName} {completionSignals : List String} {run : IterationRun}
  {runs : List IterationRun}

theorem raises_cons_of_goesOn (h : goesOn provider completionSignals run = true)
    (hruns : runs ≠ []) :
    raises provider completionSignals (run :: runs) = raises provider completionSignals runs := by
  cases runs with
  | nil => exact absurd rfl hruns
  | cons next runs => simp [raises, executed, h]

theorem executed_cons_of_goesOn (h : goesOn provider completionSignals run = true) :
    executed provider completionSignals (run :: runs) =
      run :: executed provider completionSignals runs := by
  simp [executed, h]

theorem executed_cons_of_not_goesOn (h : goesOn provider completionSignals run = false) :
    executed provider completionSignals (run :: runs) = [run] := by
  simp [executed, h]

variable (provider completionSignals runs) in
theorem orchestrateFrom_spec (result : OrchestrateResult) :
    (raises provider completionSignals runs = false ∧
      ∃ final, orchestrateFrom provider completionSignals result runs = .ok final ∧
        final.commits = result.commits ++
          collected provider (executed provider completionSignals runs)) ∨
    (raises provider completionSignals runs = true ∧
      ∃ error, orchestrateFrom provider completionSignals result runs = .error error) := by
  induction runs generalizing result with
  | nil => exact .inl ⟨rfl, result, rfl, by simp [collected, executed]⟩
  | cons run runs ih =>
    cases hrun : runIteration provider run with
    | error error =>
      have hsettles : settles provider run = false := by simp [settles, hrun, Except.toOption]
      by_cases hnext : error = .agent true ∧ runs ≠ []
      · -- The abort is passed over.
        have hgoes : goesOn provider completionSignals run = true := by
          simp [goesOn, hrun, hnext.1]
        have hfrom : orchestrateFrom provider completionSignals result (run :: runs) =
            orchestrateFrom provider completionSignals
              { result with iterations := result.iterations ++ [none] } runs := by
          simp [orchestrateFrom, hrun, hnext.1, hnext.2]
        have hcollected : collected provider
            (executed provider completionSignals (run :: runs)) =
              collected provider (executed provider completionSignals runs) := by
          simp [collected, executed_cons_of_goesOn hgoes, hsettles]
        rw [raises_cons_of_goesOn hgoes hnext.2, hfrom, hcollected]
        exact ih _
      · right
        have hfrom : orchestrateFrom provider completionSignals result (run :: runs) =
            .error error := by
          by_cases hagent : error = .agent true
          · have hruns : runs = [] := by_contra fun hruns => hnext ⟨hagent, hruns⟩
            simp [orchestrateFrom, hrun, hruns]
          · simp [orchestrateFrom, hrun, hagent]
        have hexecuted : executed provider completionSignals (run :: runs) = [run] := by
          by_cases hagent : error = .agent true
          · have hruns : runs = [] := by_contra fun hruns => hnext ⟨hagent, hruns⟩
            rw [hruns]
            simp [executed]
          · exact executed_cons_of_not_goesOn (by simp [goesOn, hrun, hagent])
        exact ⟨by simp [raises, hexecuted, hsettles], error, hfrom⟩
    | ok output =>
      obtain ⟨text, sessionId⟩ := output
      have hsettles : settles provider run = true := by simp [settles, hrun, Except.toOption]
      cases hsignal : completionSignals.find? fun signal =>
          decide (signal.toList <:+: text.toList) with
      | some signal =>
        left
        have hexecuted : executed provider completionSignals (run :: runs) = [run] :=
          executed_cons_of_not_goesOn (by simp [goesOn, hrun, hsignal])
        refine ⟨by simp [raises, hexecuted, hsettles],
          { result.add run text sessionId with completionSignal := some signal }, ?_, ?_⟩
        · simp [orchestrateFrom, hrun, hsignal]
        · simp [hexecuted, collected, hsettles, OrchestrateResult.add]
      | none =>
        have hgoes : goesOn provider completionSignals run = true := by
          simp [goesOn, hrun, hsignal]
        have hfrom : orchestrateFrom provider completionSignals result (run :: runs) =
            orchestrateFrom provider completionSignals (result.add run text sessionId) runs := by
          simp [orchestrateFrom, hrun, hsignal]
        have hraises : raises provider completionSignals (run :: runs) =
            raises provider completionSignals runs := by
          by_cases hruns : runs = []
          · rw [hruns]
            simp [raises, executed, hsettles]
          · exact raises_cons_of_goesOn hgoes hruns
        have hcollected : result.commits ++ collected provider
            (executed provider completionSignals (run :: runs)) =
              (result.add run text sessionId).commits ++
                collected provider (executed provider completionSignals runs) := by
          simp [collected, executed_cons_of_goesOn hgoes, hsettles, OrchestrateResult.add]
        rw [hraises, hfrom, hcollected]
        exact ih _

end Runs

/-- Every commit of the agent is in the commits of the result. An error has none. -/
def CommitsKept (provider : AgentName) (completionSignals : List String)
    (runs : List IterationRun) : Prop :=
  ∀ run ∈ executed provider completionSignals runs,
    match orchestrate provider completionSignals runs with
    | .ok result => ∀ commit ∈ madeIn run, commit ∈ result.commits
    | .error _ => madeIn run = []

/-- The commits are kept if and only if an iteration that settled has collected each of them, or
no commit was made at all when the last iteration ends with an error. -/
theorem commitsKept_iff (provider : AgentName) (completionSignals : List String)
    (runs : List IterationRun) :
    CommitsKept provider completionSignals runs ↔
      ∀ run ∈ executed provider completionSignals runs, ∀ commit ∈ madeIn run,
        raises provider completionSignals runs = false ∧
          ∃ other ∈ executed provider completionSignals runs,
            settles provider other = true ∧ commit ∈ other.reported := by
  have hmem : ∀ commit, commit ∈ collected provider (executed provider completionSignals runs) ↔
      ∃ other ∈ executed provider completionSignals runs,
        settles provider other = true ∧ commit ∈ other.reported := by
    intro commit
    simp [collected, and_assoc]
  unfold CommitsKept orchestrate
  rcases orchestrateFrom_spec provider completionSignals runs {} with
    ⟨hraises, final, hfrom, hcommits⟩ | ⟨hraises, error, hfrom⟩
  · rw [hfrom, hraises]
    simp [hcommits, hmem]
  · rw [hfrom, hraises]
    simp [List.eq_nil_iff_forall_not_mem]

/-- The agent edits a file, commits it, and its process fails. -/
def abortedRun : IterationRun where
  exec :=
    { lines := ["\x7b\"type\":\"assistant\",\"message\":\x7b\"content\":[\x7b\"type\":" ++
        "\"tool_use\",\"name\":\"Edit\",\"input\":\x7b\"file_path\":\"a.ts\"\x7d\x7d]\x7d\x7d"].map
          String.toList
      stderr := "overloaded".toList
      exitCode := 1 }
  made := ["c1"]

def finishedRun : IterationRun where
  exec :=
    { lines := ["\x7b\"type\":\"result\",\"result\":\"<promise>COMPLETE</promise>\"\x7d".toList]
      stderr := []
      exitCode := 0 }

def plainFormats : Formats where
  isTool := fun itemType => itemType = "command_execution" || itemType = "file_change"
  isAgentLine := fun line => !line.isEmpty

theorem commit_of_abortedRun_is_lost :
    ¬ CommitsKept .claudeCode ["<promise>COMPLETE</promise>"] [abortedRun, finishedRun] := by
  rw [commitsKept_iff]
  intro h
  -- Only the second iteration settles.
  have hlost : ¬ ∃ other ∈ executed .claudeCode ["<promise>COMPLETE</promise>"]
      [abortedRun, finishedRun],
        settles .claudeCode other = true ∧ "c1" ∈ other.reported := by decide +kernel
  have hrun : abortedRun ∈ executed .claudeCode ["<promise>COMPLETE</promise>"]
      [abortedRun, finishedRun] := by
    unfold executed
    exact List.mem_cons_self
  have hmade : "c1" ∈ madeIn abortedRun := by decide
  exact hlost (h abortedRun hrun "c1" hmade).2

end ArchLoop.Orchestrator
