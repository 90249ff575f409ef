import ArchLoop.Lib.Double
import ArchLoop.Lib.JsonRecord
import ArchLoop.Lib.Prog

/-!
# `ArchLoop.TaskNotes`: the comments that an agent leaves on its task

The model of `applyHubTaskNotes` (`hubTaskSnapshot.ts`). The output of an agent may end with a block
of notes, a JSON object with a few comments for the task. The comments are added one after the
other, each by a command of its own, and then a fingerprint of the notes is added to a list in the
metadata of the task, so that the same notes are not applied again.

A call may end between two of its commands, with its process or by a command that fails, and between
two commands others may write the metadata of the task. The task is in the store, and its lookup is
one command.
-/

set_option autoImplicit false

namespace ArchLoop.TaskNotes

open ArchLoop.Lib ArchLoop.Lib.JsonText

/-! ### The block of notes -/

def HUB_TASK_NOTES_TAG : String := "task-notes"

def HUB_TASK_NOTES_SCHEMA_VERSION : Nat := 1

def HUB_APPLIED_NOTE_FINGERPRINTS_KEY : String := "hubAppliedNoteFingerprints"

def MAX_NOTES_BYTES : Nat := 32768

def MAX_NOTE_COMMENTS : Nat := 8

def MAX_COMMENT_BYTES : Nat := 8192

/-- What stands before the first occurrence of a pattern, and what stands behind it. -/
def cutAt (pattern : List Char) : List Char → Option (List Char × List Char)
  | [] => none
  | c :: text =>
    if pattern.isPrefixOf (c :: text) then some ([], (c :: text).drop pattern.length)
    else (cutAt pattern text).map fun found => (c :: found.1, found.2)

/-- The loop of `findLastTagContent`. Each turn takes a tag off the text, so the text is long enough
for a bound on the turns. -/
def lastContentFrom (openTag closeTag : List Char) :
    Nat → List Char → Option (List Char) → Option (List Char)
  | 0, _, lastContent => lastContent
  | turns + 1, text, lastContent =>
    match cutAt openTag text with
    | none => lastContent
    | some (_, behindOpen) =>
      match cutAt closeTag behindOpen with
      | none => lastContent
      | some (content, behindClose) =>
        lastContentFrom openTag closeTag turns behindClose (some content)

/-- `findLastTagContent`. -/
def findLastTagContent (text tag : String) : Option String :=
  (lastContentFrom ("<" ++ tag ++ ">").toList ("</" ++ tag ++ ">").toList (text.toList.length + 1)
    text.toList none).map String.ofList

/-- Three backquotes. -/
def FENCE : List Char := ['`', '`', '`']

/-- `unwrapFences`: the text between two fences, the first of which may name the language. -/
def unwrapFences (value : String) : String :=
  let trimmed := (trim value).toList
  if FENCE.isPrefixOf trimmed && FENCE.isSuffixOf trimmed && 6 ≤ trimmed.length then
    let inner := (trimmed.drop 3).rdrop 3
    let language := inner.take 4
    trim (String.ofList
      (if String.ofList (language.map Char.toLower) = "json" then inner.drop 4 else inner))
  else trim value

structure HubTaskNotes where
  taskId : String
  comments : List String
  deriving DecidableEq, Repr

/-- One of the comments of `parseNotesObject`. -/
def parseNoteComment (comment : Value) (index : Nat) : Except String String :=
  match comment.text? with
  | none => .error s!"task notes comments[{index}] must be a non-empty string"
  | some text =>
    if trim text = "" then .error s!"task notes comments[{index}] must be a non-empty string"
    else if MAX_COMMENT_BYTES < (trim text).utf8ByteSize then
      .error s!"task notes comments[{index}] exceeds {MAX_COMMENT_BYTES} bytes"
    else .ok (trim text)

/-- The comments of `parseNotesObject`: none, when there is no list of them. -/
def parseNoteComments (commentsValue : Value) : Except String (List String) :=
  match commentsValue.items? with
  | none => .error "task notes comments must be an array"
  | some comments =>
    if MAX_NOTE_COMMENTS < comments.length then
      .error (s!"task notes include {comments.length} comments; at most {MAX_NOTE_COMMENTS} " ++
        "are allowed")
    else comments.zipIdx.mapM fun comment => parseNoteComment comment.1 comment.2

/-- `parseNotesObject`. -/
def parseNotesObject (value : Value) : Except String HubTaskNotes :=
  match value with
  | .object _ => do
    if (value.get "schemaVersion").bind Double.double? ≠ some (HUB_TASK_NOTES_SCHEMA_VERSION : ℚ)
      then throw s!"task notes schemaVersion must be {HUB_TASK_NOTES_SCHEMA_VERSION}"
    let taskId := (((value.get "taskId").bind Value.text?).map trim).getD ""
    if taskId = "" then throw "task notes taskId must be a non-empty string"
    let comments ← parseNoteComments ((value.first ["comments"]).getD (.array []))
    pure { taskId, comments }
  | _ => .error "task notes must be a JSON object"

inductive ParseHubTaskNotesResult where
  | absent
  | invalid (diagnostic : String)
  | valid (notes : HubTaskNotes)
  deriving DecidableEq, Repr

/-- `parseHubTaskNotesFromText`. The message of a syntax error is that of the engine. -/
def parseHubTaskNotesFromText (text : String) : ParseHubTaskNotesResult :=
  match findLastTagContent text HUB_TASK_NOTES_TAG with
  | none => .absent
  | some raw =>
    if MAX_NOTES_BYTES < raw.utf8ByteSize then
      .invalid s!"task notes exceed {MAX_NOTES_BYTES} bytes"
    else
      match parse (unwrapFences raw).toList with
      | none => .invalid "task notes contain invalid JSON"
      | some parsed =>
        match parseNotesObject parsed with
        | .ok notes => .valid notes
        | .error diagnostic => .invalid diagnostic

/-! ### Applying the notes -/

/-- What the store has of the task. -/
structure NotedTask where
  metadata : Record := []
  comments : List String := []

/-- The text that is hashed. -/
def notesText (notes : HubTaskNotes) : String :=
  String.ofList (print (.object
    [("schemaVersion", .ofInt HUB_TASK_NOTES_SCHEMA_VERSION), ("taskId", .string notes.taskId),
      ("comments", .array (notes.comments.map .string))]))

/-- `fingerprintNotes`. -/
def fingerprintNotes (sha256 : String → String) (notes : HubTaskNotes) : String :=
  sha256 (notesText notes)

/-- `readAppliedFingerprints`. -/
def readAppliedFingerprints (metadata : Record) : List String :=
  match metadata.get HUB_APPLIED_NOTE_FINGERPRINTS_KEY with
  | some (.arr values) => values.filterMap Json.text?
  | _ => []

inductive ApplyHubTaskNotesResult where
  | absent
  | rejected (diagnostic : String)
  | applied (fingerprint : String) (commentCount : Nat)
  | replayed (fingerprint : String)
  deriving DecidableEq, Repr

abbrev NotesProg : Type → Type := Prog NotedTask String

/-- `appendHubTaskComment`. -/
def appendHubTaskComment (comment : String) : NotesProg Unit :=
  Prog.modify fun task => { task with comments := task.comments ++ [comment] }

/-- The loop over the comments. -/
def appendComments : List String → NotesProg Unit
  | [] => .ret ()
  | comment :: comments => (appendHubTaskComment comment).bind fun _ => appendComments comments

/-- The `bd update` that writes the list of fingerprints. -/
def writeFingerprints (fingerprints : List String) : NotesProg Unit :=
  Prog.modify fun task => { task with
    metadata := task.metadata.merge
      [(HUB_APPLIED_NOTE_FINGERPRINTS_KEY, .arr (fingerprints.map .str))] }

/-- The part of `applyHubTaskNotes` that adds the comments and the fingerprint. -/
def postNotes (applied : List String) (fingerprint : String) (count : Nat)
    (comments : List String) : NotesProg ApplyHubTaskNotesResult :=
  (appendComments comments).bind fun _ =>
    (writeFingerprints (applied ++ [fingerprint])).bind fun _ => .ret (.applied fingerprint count)

/-- `applyHubTaskNotes`. -/
def applyHubTaskNotes (sha256 : String → String) (taskId text : String) :
    NotesProg ApplyHubTaskNotesResult :=
  match parseHubTaskNotesFromText text with
  | .absent => .ret .absent
  | .invalid diagnostic => .ret (.rejected diagnostic)
  | .valid notes =>
    if notes.taskId ≠ taskId then
      .ret (.rejected ("task notes taskId \"" ++ notes.taskId ++
        "\" does not match selected task \"" ++ taskId ++ "\""))
    else
      let fingerprint := fingerprintNotes sha256 notes
      (Prog.reads NotedTask.metadata).bind fun metadata =>
      let applied := readAppliedFingerprints metadata
      if fingerprint ∈ applied then .ret (.replayed fingerprint)
      else postNotes applied fingerprint notes.comments.length notes.comments

/-! ### The life of a task -/

/-- A call that is under way: its text, what is left of it, and the comments when it began. -/
structure NotesCall where
  text : String
  rest : NotesProg ApplyHubTaskNotesResult
  before : List String

/-- The task with the call for it that is under way.

- `begun`: the texts that calls were made with.
- `finished`: the calls that returned, with their results. -/
structure NotesWorld where
  task : NotedTask
  call : Option NotesCall := none
  begun : List String := []
  finished : List (String × ApplyHubTaskNotesResult) := []

/-- What happens to the task.

- `begin`: a call of `applyHubTaskNotes` begins, when no other one is under way.
- `go`: the call makes its next command, or returns.
- `crash`: the call ends where it is.
- `write`: someone else writes the metadata. -/
inductive NotesEvent where
  | begin (text : String)
  | go
  | crash
  | write (metadata : Record)

/-- A call goes on by one command, or returns. -/
def NotesWorld.go (w : NotesWorld) (call : NotesCall) : NotesWorld :=
  match call.rest with
  | .ret result => { w with call := none, finished := w.finished ++ [(call.text, result)] }
  | .raise _ => { w with call := none }
  | .act upd next =>
    { w with task := upd w.task, call := some { call with rest := next w.task } }

/-- The world after an event, if the event can happen. -/
def NotesWorld.step (sha256 : String → String) (taskId : String) (w : NotesWorld) :
    NotesEvent → Option NotesWorld
  | .begin text =>
    if w.call.isSome then none
    else some { w with
      call := some { text, rest := applyHubTaskNotes sha256 taskId text, before := w.task.comments }
      begun := w.begun ++ [text] }
  | .go => w.call.map w.go
  | .crash => w.call.map fun _ => { w with call := none }
  | .write metadata => some { w with task := { w.task with metadata } }

/-- A world that is reached from the first one by events that are allowed where they happen. -/
inductive NotesReached (sha256 : String → String) (taskId : String)
    (allowed : NotesWorld → NotesEvent → Prop) (first : NotesWorld) : NotesWorld → Prop where
  | first : NotesReached sha256 taskId allowed first first
  | step {w t : NotesWorld} {event : NotesEvent} : NotesReached sha256 taskId allowed first w →
      allowed w event → w.step sha256 taskId event = some t →
      NotesReached sha256 taskId allowed first t

end ArchLoop.TaskNotes
