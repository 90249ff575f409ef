import ArchLoop.AgentProvider

/-!
# `ArchLoop.AgentStream`: what is shown of an agent while it runs

`orchestrate` (`Orchestrator.ts`) hands the text of an agent to a `TextDeltaBuffer`, since some
providers print one token after the other. The buffer gives it to the display and to the stream
emitter in larger chunks: at a line break, at the end of a sentence, when it gets long, or when
nothing came for a while. A tool call flushes the buffer first.

The events of one line are handled in one go. So the timer can only fire between two lines, and
then whenever it runs. The numbers of the iterations, the times and the other messages of the
display are left out.
-/

set_option autoImplicit false

namespace ArchLoop.AgentStream

open ArchLoop.Lib ArchLoop.AgentProvider

/-- `AgentStreamEvent`. The display gets the same events as the emitter. -/
inductive AgentStreamEvent where
  | text (message : List Char)
  | toolCall (name formattedArgs : String)
  deriving DecidableEq, Repr

/-! ### `TextDeltaBuffer.ts` -/

def LENGTH_THRESHOLD : Nat := 80

/-- `SENTENCE_BOUNDARY_RE`. -/
def endsSentence (buffer : List Char) : Bool :=
  match buffer.reverse with
  | ' ' :: c :: _ => c = '.' || c = '!' || c = '?'
  | _ => false

/-- `shouldFlush`. -/
def shouldFlush (buffer : List Char) : Bool :=
  '\n' ∈ buffer || endsSentence buffer ||
    LENGTH_THRESHOLD ≤ (buffer.flatMap JsonText.units).length

/-- A `TextDeltaBuffer` with what it has flushed, among the tool calls.

- `timer`: a timer runs. -/
structure TextDeltaBuffer where
  buffer : List Char := []
  timer : Bool := false
  events : List AgentStreamEvent := []
  deriving DecidableEq, Repr

namespace TextDeltaBuffer

/-- `doFlush`. -/
def doFlush (b : TextDeltaBuffer) : TextDeltaBuffer :=
  if b.buffer = [] then b
  else { b with buffer := [], events := b.events ++ [.text b.buffer] }

/-- `write`. -/
def write (b : TextDeltaBuffer) (text : List Char) : TextDeltaBuffer :=
  if text = [] then b
  else
    let b := { b with buffer := b.buffer ++ text, timer := false }
    if shouldFlush b.buffer then b.doFlush else { b with timer := true }

/-- `flush`. -/
def flush (b : TextDeltaBuffer) : TextDeltaBuffer := { b with timer := false }.doFlush

/-- `dispose`. -/
def dispose (b : TextDeltaBuffer) : TextDeltaBuffer := b.flush

/-- The timer fires, if it runs. -/
def timerFires (b : TextDeltaBuffer) : TextDeltaBuffer :=
  if b.timer then { b with timer := false }.doFlush else b

end TextDeltaBuffer

/-! ### `Orchestrator.ts` -/

/-- `onToolCall`. -/
def onToolCall (b : TextDeltaBuffer) (name formattedArgs : String) : TextDeltaBuffer :=
  { b.flush with events := b.flush.events ++ [.toolCall name formattedArgs] }

/-- One event of a line, as far as it is shown. -/
def onEvent (b : TextDeltaBuffer) : ParsedStreamEvent → TextDeltaBuffer
  | .text text => b.write text.toList
  | .toolCall name args => onToolCall b name args
  | .result _ | .sessionId _ => b

/-- What happens next: the agent prints a line, or time goes by. -/
inductive StreamStep where
  | line (line : List Char)
  | pause

def step (provider : AgentName) (b : TextDeltaBuffer) : StreamStep → TextDeltaBuffer
  | .line line => (parseStreamLine provider line).foldl onEvent b
  | .pause => b.timerFires

/-- The buffer of an iteration. -/
def stream (provider : AgentName) (steps : List StreamStep) : TextDeltaBuffer :=
  steps.foldl (step provider) {}

/-- The events of the agent that are to be shown. -/
def shown : ParsedStreamEvent → Option AgentStreamEvent
  | .text text => some (.text text.toList)
  | .toolCall name args => some (.toolCall name args)
  | .result _ | .sessionId _ => none

/-- All of them. -/
def agentEvents (provider : AgentName) (steps : List StreamStep) : List AgentStreamEvent :=
  steps.flatMap fun
    | .line line => (parseStreamLine provider line).filterMap shown
    | .pause => []

end ArchLoop.AgentStream
