import ArchLoop.AgentStream

/-!
# `ArchLoop.Proofs.AgentStream`: the chunks are what the agent printed

Chunks are compared by their characters: `letters` has a text as its characters, among the tool
calls. So it says what was shown in which order, but not where the text was cut.

`stream_keeps` is about all lines of an agent and all pauses between them. Nothing is lost or comes
twice, no text passes a tool call, and what waits in the buffer is shown when the timer fires: it
runs exactly while something waits.
-/

set_option autoImplicit false

namespace ArchLoop.AgentStream

/-- The characters and the tool calls of events, in order. -/
def letters (events : List AgentStreamEvent) : List (Char ⊕ String × String) :=
  events.flatMap fun
    | .text message => message.map .inl
    | .toolCall name formattedArgs => [.inr (name, formattedArgs)]

theorem letters_append (a b : List AgentStreamEvent) :
    letters (a ++ b) = letters a ++ letters b := List.flatMap_append

theorem letters_text (message : List Char) : letters [.text message] = message.map .inl :=
  List.append_nil _

/-- What was shown and what waits, in order. -/
def TextDeltaBuffer.all (b : TextDeltaBuffer) : List (Char ⊕ String × String) :=
  letters b.events ++ b.buffer.map .inl

/-- What holds of a buffer between two events.

- `timer`: the timer runs while text waits.
- `waits`: text waits only as long as it need not be flushed.
- `chunks`: no chunk is empty. -/
structure Waiting (b : TextDeltaBuffer) : Prop where
  timer : b.timer = true ↔ b.buffer ≠ []
  waits : shouldFlush b.buffer = false
  chunks : AgentStreamEvent.text [] ∉ b.events

section Steps

variable {b : TextDeltaBuffer}

theorem buffer_doFlush (b : TextDeltaBuffer) : b.doFlush.buffer = [] := by
  unfold TextDeltaBuffer.doFlush
  split
  · assumption
  · rfl

theorem all_doFlush (b : TextDeltaBuffer) : b.doFlush.all = b.all := by
  unfold TextDeltaBuffer.doFlush TextDeltaBuffer.all
  split
  · rfl
  · rw [letters_append, letters_text, List.map_nil, List.append_nil]

theorem waiting_doFlush (htimer : b.timer = false) (h : AgentStreamEvent.text [] ∉ b.events) :
    Waiting b.doFlush := by
  have hbuffer := buffer_doFlush b
  refine ⟨?_, by rw [hbuffer]; rfl, ?_⟩
  · rw [hbuffer]
    unfold TextDeltaBuffer.doFlush
    split <;> simp [htimer]
  · unfold TextDeltaBuffer.doFlush
    split
    · exact h
    · rename_i hne
      -- the new chunk is what waited
      show _ ∉ b.events ++ [.text b.buffer]
      rw [List.mem_append, not_or]
      refine ⟨h, fun hmem => hne ?_⟩
      simpa using (List.mem_singleton.mp hmem).symm

theorem all_write (b : TextDeltaBuffer) (text : List Char) :
    (b.write text).all = b.all ++ text.map .inl := by
  have hall : TextDeltaBuffer.all { b with buffer := b.buffer ++ text, timer := false } =
      b.all ++ text.map .inl := by
    simp [TextDeltaBuffer.all]
  unfold TextDeltaBuffer.write
  split
  · rename_i hnil
    simp [hnil]
  · dsimp only
    split
    · rw [all_doFlush, hall]
    · exact hall

theorem Waiting.write (h : Waiting b) (text : List Char) : Waiting (b.write text) := by
  unfold TextDeltaBuffer.write
  split
  · exact h
  · rename_i hne
    dsimp only
    split
    · exact waiting_doFlush rfl h.chunks
    · rename_i hwaits
      exact ⟨by simp [hne], by simpa using hwaits, h.chunks⟩

theorem all_onEvent (b : TextDeltaBuffer) (parsed : AgentProvider.ParsedStreamEvent) :
    (onEvent b parsed).all = b.all ++ letters (shown parsed).toList := by
  cases parsed with
  | text text =>
    rw [onEvent, all_write]
    exact congrArg _ (letters_text _).symm
  | toolCall name args =>
    -- the buffer is flushed first, so the text stays before the call
    have hflush : letters b.flush.events = b.all := by
      have hall : b.flush.all = b.all := all_doFlush _
      rw [TextDeltaBuffer.all, TextDeltaBuffer.flush, buffer_doFlush, List.map_nil,
        List.append_nil] at hall
      exact hall
    show letters (b.flush.events ++ _) ++ b.flush.buffer.map .inl = _
    rw [TextDeltaBuffer.flush, buffer_doFlush, letters_append, List.map_nil, List.append_nil]
    exact congrArg (· ++ _) hflush
  | result result => exact (List.append_nil _).symm
  | sessionId sessionId => exact (List.append_nil _).symm

theorem Waiting.onEvent (h : Waiting b) (parsed : AgentProvider.ParsedStreamEvent) :
    Waiting (onEvent b parsed) := by
  cases parsed with
  | text text => exact h.write _
  | toolCall name args =>
    obtain ⟨htimer, hwaits, hchunks⟩ :=
      waiting_doFlush (b := { b with timer := false }) rfl h.chunks
    refine ⟨htimer, hwaits, ?_⟩
    show _ ∉ b.flush.events ++ [.toolCall name args]
    rw [List.mem_append, not_or]
    exact ⟨hchunks, by simp⟩
  | result result => exact h
  | sessionId sessionId => exact h

/-- Step lemma: what is shown or waits grows by the events of the line, and by nothing in a
pause. -/
theorem all_step (provider : AgentProvider.AgentName) (b : TextDeltaBuffer) (next : StreamStep) :
    (step provider b next).all = b.all ++ letters (agentEvents provider [next]) := by
  cases next with
  | line line =>
    have hline : agentEvents provider [.line line] =
        (AgentProvider.parseStreamLine provider line).filterMap shown := List.append_nil _
    rw [hline, step]
    induction AgentProvider.parseStreamLine provider line generalizing b with
    | nil => exact (List.append_nil _).symm
    | cons parsed rest ih =>
      rw [List.foldl_cons, ih, all_onEvent, List.filterMap_cons,
        List.append_assoc, ← letters_append]
      cases shown parsed <;> rfl
  | pause =>
    show b.timerFires.all = b.all ++ []
    rw [List.append_nil, TextDeltaBuffer.timerFires]
    split
    · exact all_doFlush _
    · rfl

/-- Step lemma: the timer still runs while something waits. -/
theorem Waiting.step (h : Waiting b) (provider : AgentProvider.AgentName) (next : StreamStep) :
    Waiting (step provider b next) := by
  cases next with
  | line line =>
    rw [AgentStream.step]
    induction AgentProvider.parseStreamLine provider line generalizing b with
    | nil => exact h
    | cons parsed rest ih => exact ih (h.onEvent parsed)
  | pause =>
    show Waiting b.timerFires
    unfold TextDeltaBuffer.timerFires
    split
    · exact waiting_doFlush rfl h.chunks
    · exact h

end Steps

/-- What the display and the emitter get of an agent, whatever it prints and whenever the timer
fires: between two lines, all that it has said in the order in which it said it, but for a last
piece of text that waits with the timer running; at the end, everything. -/
theorem stream_keeps (provider : AgentProvider.AgentName) (steps : List StreamStep) :
    Waiting (stream provider steps) ∧
    letters (stream provider steps).events ++ (stream provider steps).buffer.map .inl =
      letters (agentEvents provider steps) ∧
    letters (stream provider steps).dispose.events = letters (agentEvents provider steps) := by
  have hrun : ∀ b : TextDeltaBuffer, Waiting b →
      Waiting (steps.foldl (step provider) b) ∧
      (steps.foldl (step provider) b).all = b.all ++ letters (agentEvents provider steps) := by
    induction steps with
    | nil => exact fun b h => ⟨h, (List.append_nil _).symm⟩
    | cons next steps ih =>
      intro b h
      obtain ⟨hwaiting, hall⟩ := ih (step provider b next) (h.step provider next)
      refine ⟨hwaiting, ?_⟩
      have hsplit : agentEvents provider (next :: steps) =
          agentEvents provider [next] ++ agentEvents provider steps := by
        simp [agentEvents]
      rw [List.foldl_cons, hall, all_step, hsplit, letters_append, List.append_assoc]
  obtain ⟨hwaiting, hall⟩ := hrun {} ⟨by simp, by decide, by simp⟩
  refine ⟨hwaiting, hall, ?_⟩
  have hdispose : (stream provider steps).dispose.all = (stream provider steps).all :=
    all_doFlush _
  rw [TextDeltaBuffer.all, TextDeltaBuffer.dispose, TextDeltaBuffer.flush, buffer_doFlush,
    List.map_nil, List.append_nil] at hdispose
  exact hdispose.trans hall

end ArchLoop.AgentStream
