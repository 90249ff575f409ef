import ArchLoop.Lib.JsonText
import ArchLoop.Lib.Text
import Mathlib.Data.List.Infix

/-!
# `ArchLoop.AgentProvider`: what an agent prints

Each provider (`AgentProvider.ts`) starts the program of an agent and reads the lines that it
prints: texts, results, calls of tools and the id of the session. Lines that a provider does not
know have no events.

A line is an object in JSON. Asking `null` for a member is an error, on which the whole line is
passed over. The names that every object of JavaScript has (`toString`) are not names of tools here.
-/

set_option autoImplicit false

namespace ArchLoop.AgentProvider

open ArchLoop.Lib ArchLoop.Lib.JsonText

inductive AgentName where
  | claudeCode
  | cursor
  | pi
  | codex
  | opencode
  deriving DecidableEq, Repr

inductive ParsedStreamEvent where
  | text (text : String)
  | result (result : String)
  | toolCall (name args : String)
  | sessionId (sessionId : String)
  deriving DecidableEq, Repr

/-! ### Reading lines -/

def TOOL_ARG_FIELDS : List (String × String) :=
  [("Bash", "command"), ("WebSearch", "query"), ("WebFetch", "url"), ("Agent", "description")]

/-- The object of a line. -/
def readObject (line : List Char) : Option Value :=
  if line.head? = some '{' then parse line else none

/-- A member that is a text. -/
def textMember (value : Value) (name : String) : Option String :=
  (value.get name).bind Value.text?

/-- A member of a member. -/
def innerMember (value : Value) (outer inner : String) : Option Value :=
  (value.get outer).bind (·.get inner)

/-- The items of a list in which no item is `null`. -/
def solidItems (value : Value) : Option (List Value) :=
  match value with
  | .array items => if items.any (fun item => item matches .null) then none else some items
  | _ => none

def extractErrorMessage (obj : Value) : Option String :=
  match textMember obj "error" with
  | some error => some error
  | none => ((innerMember obj "error" "message").bind Value.text?).or (textMember obj "message")

/-- The event of an error: a result. -/
def errorEvents (obj : Value) : List ParsedStreamEvent :=
  match extractErrorMessage obj with
  | some message => if message = "" then [] else [.result message]
  | none => []

/-- One event with all the texts, if there are any. -/
def textEvent (texts : List String) : List ParsedStreamEvent :=
  if texts.isEmpty then [] else [.text (String.join texts)]

/-! ### Claude Code -/

/-- Where the loop over the content is: the events so far, and the texts behind the last one. -/
structure ContentState where
  events : List ParsedStreamEvent := []
  texts : List String := []

/-- One block of the content. -/
def readContentBlock (state : ContentState) (block : Value) : Option ContentState :=
  match block with
  | .null => none
  | _ =>
    match textMember block "type", textMember block "text", textMember block "name",
        block.get "input" with
    | some "text", some text, _, _ => some { state with texts := state.texts ++ [text] }
    | some "tool_use", _, some name, some input =>
      match TOOL_ARG_FIELDS.lookup name, input with
      | none, _ => some state
      | some _, .null => none
      | some argField, _ =>
        match textMember input argField with
        | none => some state
        | some args =>
          some
            { events := state.events ++ textEvent state.texts ++ [.toolCall name args]
              texts := [] }
    | _, _, _, _ => some state

def readContent (blocks : List Value) : List ParsedStreamEvent :=
  match blocks.foldlM readContentBlock {} with
  | some state => state.events ++ textEvent state.texts
  | none => []

def parseStreamJsonLine (line : List Char) : List ParsedStreamEvent :=
  match readObject line with
  | none => []
  | some obj =>
    match textMember obj "type", (innerMember obj "message" "content").bind Value.items?,
        textMember obj "result" with
    | some "assistant", some blocks, _ => readContent blocks
    | some "result", _, some result => [.result result]
    | some "system", _, _ =>
      match textMember obj "subtype", textMember obj "session_id" with
      | some "init", some sessionId => [.sessionId sessionId]
      | _, _ => []
    | _, _, _ => []

/-! ### Cursor -/

/-- `Object.entries`. A name that occurs again keeps its place. -/
def entriesOf (value : Value) : List (String × Value) :=
  match value with
  | .object members =>
    (members.map (·.1)).eraseDups.filterMap fun name => (value.get name).map (name, ·)
  | _ => []

def parseCursorToolCall (toolCall : Value) : List ParsedStreamEvent :=
  ((entriesOf toolCall).findSome? fun (key, value) =>
    if "ToolCall".toList.isSuffixOf key.toList then
      match ((value.get "args").bind
          (·.first ["command", "path", "query", "pattern", "url"])).bind Value.text? with
      | some displayArg =>
        some (.toolCall (String.ofList (key.toList.take (key.toList.length - 8)))
            displayArg)
      | none => none
    else none).toList

def parseCursorStreamLine (line : List Char) : List ParsedStreamEvent :=
  match readObject line with
  | none => []
  | some obj =>
    match textMember obj "type", (innerMember obj "message" "content").bind Value.items?,
        textMember obj "result" with
    | some "assistant", some blocks, _ =>
      match solidItems (.array blocks) with
      | some solid => textEvent (solid.filterMap (textMember · "text"))
      | none => []
    | some "tool_call", _, _ =>
      if textMember obj "subtype" = some "started" then
        ((obj.get "tool_call").map parseCursorToolCall).getD []
      else []
    | some "result", _, some result => [.result result]
    | some "error", _, _ => errorEvents obj
    | _, _, _ => []

/-! ### Pi -/

/-- The result in the messages at the end: the texts of the last message of the assistant. -/
def readAgentEnd (messages : List Value) : List ParsedStreamEvent :=
  match messages.reverse.find? fun message => textMember message "role" = some "assistant" with
  | none => []
  | some message =>
    let texts := ((message.get "content").bind solidItems).map fun blocks =>
      blocks.filterMap fun block =>
        if textMember block "type" = some "text" then textMember block "text" else none
    match texts with
    | none | some [] => []
    | some texts => [.result (String.join texts)]

def parsePiStreamLine (line : List Char) : List ParsedStreamEvent :=
  match readObject line with
  | none => []
  | some obj =>
    match textMember obj "type" with
    | some "message_update" =>
      match (innerMember obj "assistantMessageEvent" "type").bind Value.text?,
          (innerMember obj "assistantMessageEvent" "delta").bind Value.text? with
      | some "text_delta", some delta => [.text delta]
      | _, _ => []
    | some "tool_execution_start" =>
      match textMember obj "toolName" with
      | none => []
      | some toolName =>
        match (TOOL_ARG_FIELDS.lookup toolName).bind fun argField =>
            (innerMember obj "args" argField).bind Value.text? with
        | none => []
        | some args => [.toolCall toolName args]
    | some "agent_error" | some "error" => errorEvents obj
    | some "agent_end" =>
      match (obj.get "messages").bind Value.items? with
      | none => []
      | some messages => readAgentEnd messages
    | _ => []

/-! ### Codex and OpenCode -/

def parseCodexStreamLine (line : List Char) : List ParsedStreamEvent :=
  match readObject line with
  | none => []
  | some obj =>
    match textMember obj "type", (innerMember obj "item" "type").bind Value.text?,
        (innerMember obj "item" "text").bind Value.text?,
        (innerMember obj "item" "command").bind Value.text? with
    | some "item.completed", some "agent_message", some text, _ => [.text text, .result text]
    | some "item.started", some "command_execution", _, some command => [.toolCall "Bash" command]
    | some "error", _, _, _ => errorEvents obj
    | _, _, _, _ => []

/-- `parseStreamLine` of a provider. What OpenCode prints is not read. -/
def parseStreamLine : AgentName → List Char → List ParsedStreamEvent
  | .claudeCode => parseStreamJsonLine
  | .cursor => parseCursorStreamLine
  | .pi => parsePiStreamLine
  | .codex => parseCodexStreamLine
  | .opencode => fun _ => []

/-! ### Exits that are not a success -/

structure AgentExecFailure where
  exitCode : Int
  stderr : List Char
  stdout : List Char
  resultText : String

def agentExecIoDetail (failure : AgentExecFailure) : List Char :=
  failure.stderr ++ '\n' :: failure.stdout

/-- `cursorConnectionTeardownPatterns`, which are searched without regard to case. -/
def cursorConnectionTeardownPatterns : List String :=
  ["econnreset", "secure tls connection was established", "http/2 keepalive ping timed out"]

/-- A text that tells of a connection that broke. -/
def isTeardownText (text : List Char) : Bool :=
  cursorConnectionTeardownPatterns.any fun pattern =>
    decide (pattern.toList <:+: text.map Char.toLower)

def isCursorConnectionTeardown (failure : AgentExecFailure) : Bool :=
  isTeardownText (agentExecIoDetail failure)

def hasCapturedAgentResult (failure : AgentExecFailure) : Bool := trim failure.resultText ≠ ""

def cursorAcceptRecoverableExit (failure : AgentExecFailure) : Bool :=
  hasCapturedAgentResult failure && isCursorConnectionTeardown failure

/-- `acceptRecoverableExit`, of the provider that has it. -/
def acceptRecoverableExit : AgentName → AgentExecFailure → Bool
  | .cursor => cursorAcceptRecoverableExit
  | _ => fun _ => false

/-! ### Commands that start an agent -/

/-- The value as one word of a shell, whatever it holds. -/
def shellEscape (s : String) : String :=
  "'" ++ String.ofList (s.toList.flatMap fun c => if c = '\x27' then "'\\''".toList else [c]) ++ "'"

structure AgentCommandOptions where
  prompt : String
  dangerouslySkipPermissions : Bool
  cwd : Option String := none
  resumeSession : Option String := none

/-- The command, and what is piped into it. -/
structure PrintCommand where
  command : String
  stdin : Option String := none

inductive ClaudeCodeEffort where
  | low
  | medium
  | high
  | max

inductive CodexEffort where
  | low
  | medium
  | high
  | xhigh

inductive CursorMode where
  | plan
  | ask

def ClaudeCodeEffort.text : ClaudeCodeEffort → String
  | low => "low"
  | medium => "medium"
  | high => "high"
  | max => "max"

def CodexEffort.text : CodexEffort → String
  | low => "low"
  | medium => "medium"
  | high => "high"
  | xhigh => "xhigh"

def CursorMode.text : CursorMode → String
  | plan => "plan"
  | ask => "ask"

/-- A provider with its model and its options. -/
inductive ProviderConfig where
  | claudeCode (model : String) (effort : Option ClaudeCodeEffort)
  | cursor (model : String) (mode : Option CursorMode)
  | pi (model : String)
  | codex (model : String) (effort : Option CodexEffort)
  | opencode (model : String) (variant : Option String)

/-- A flag for a value that is there. An empty text counts as none. -/
def flagFor (value : Option String) (flag : String → String) : String :=
  match value with
  | none => ""
  | some text => if text = "" then "" else flag text

def buildPrintCommand (provider : ProviderConfig) (options : AgentCommandOptions) : PrintCommand :=
  match provider with
  | .claudeCode model effort =>
    let skipPerms :=
      if options.dangerouslySkipPermissions then " --dangerously-skip-permissions" else ""
    let effortFlag := flagFor (effort.map (·.text)) (" --effort " ++ ·)
    let resumeFlag := flagFor options.resumeSession (" --resume " ++ shellEscape ·)
    { command := "claude --print --verbose" ++ skipPerms ++ " --output-format stream-json --model " ++
        shellEscape model ++ effortFlag ++ resumeFlag ++ " -p -"
      stdin := some options.prompt }
  | .cursor model mode =>
    let modeFlag := flagFor (mode.map (·.text)) (" --mode " ++ shellEscape ·)
    let forceFlags := if options.dangerouslySkipPermissions then " --force --sandbox disabled" else ""
    { command := "agent --print --output-format stream-json --stream-partial-output --trust " ++
        "--model " ++ shellEscape model ++ modeFlag ++ forceFlags ++ " \"$(cat)\""
      stdin := some options.prompt }
  | .pi model =>
    { command := "pi -p --mode json --no-session --model " ++ shellEscape model
      stdin := some options.prompt }
  | .codex model effort =>
    let effortFlag := flagFor (effort.map (·.text)) fun effort =>
      " -c " ++ shellEscape ("model_reasoning_effort=\"" ++ effort ++ "\"")
    let cdFlag := flagFor options.cwd (" --cd " ++ shellEscape ·)
    { command := "codex exec --json --dangerously-bypass-approvals-and-sandbox -m " ++
        shellEscape model ++ effortFlag ++ cdFlag
      stdin := some options.prompt }
  | .opencode model variant =>
    let variantFlag := flagFor variant (" --variant " ++ shellEscape ·)
    { command := "opencode run --model " ++ shellEscape model ++ variantFlag ++ " " ++
        shellEscape options.prompt }

end ArchLoop.AgentProvider
