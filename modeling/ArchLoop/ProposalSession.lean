import ArchLoop.Lib.JsonRecord
import ArchLoop.Lib.Quoting
import Mathlib.Data.List.Sort
import Mathlib.Data.String.Basic

/-!
# `ArchLoop.ProposalSession`: a session in which an agent may only talk

`runProposalSession` (`hubProposalSession.ts`) lets an agent draft, refine and finalize a proposal.
The agent works in the repository, and it must not change it: `captureProposalFlowStateSnapshot`
(`hubProposalMutation.ts`) looks at the repository and at the task store before the first turn and
after the last one, and `detectProposalFlowMutations` compares.

A `ProposalWorld` has what the commands of a snapshot read. A turn of the agent is any change of
the world. How `git status` prints a path is a parameter, a `Quoting`, and so is the hash of a
file. Texts that are parsed are lists of characters. A line has no line break and a record of
`-z` no null character, so an output is the list of its lines or records. `JSON.stringify` with sorted keys
is `canonical`: two texts are the same when the canonical values are.

The events and files of a session, and the prompts, are left out.
-/

set_option autoImplicit false

namespace ArchLoop.Proposal

open ArchLoop.Lib

/-! ### What Git and the file system show -/

abbrev GitPath : Type := List Char

/-- The code of a rename or a copy. -/
def isRenameCode (code : List Char) : Bool := 'R' ∈ code || 'C' ∈ code

/-- An entry of `git status`: its two status letters, its path, and where the path comes from
in a rename or a copy. -/
structure StatusEntry where
  index : Char
  worktree : Char
  path : GitPath
  renamedFrom : Option GitPath := none
  path_ne : path ≠ [] := by decide
  renamedFrom_ne : ∀ old ∈ renamedFrom, old ≠ [] := by decide
  renamed_iff : renamedFrom.isSome = isRenameCode [index, worktree] := by decide

namespace StatusEntry

def code (entry : StatusEntry) : List Char := [entry.index, entry.worktree]

/-- The entry is of a tracked file. -/
def isTracked (entry : StatusEntry) : Bool :=
  decide (entry.code ≠ ['?', '?'] ∧ entry.code ≠ ['!', '!'])

/-- What `git status --porcelain=v1` prints behind the code. -/
def printed (Q : Quoting) (entry : StatusEntry) : List Char :=
  match entry.renamedFrom with
  | none => Q.print entry.path
  | some old => Q.printTwo old entry.path

/-- The line of `git status --porcelain=v1`. -/
def line (Q : Quoting) (entry : StatusEntry) : List Char :=
  entry.index :: entry.worktree :: ' ' :: entry.printed Q

/-- The records of `git status --porcelain=v1 -z`. -/
def records (entry : StatusEntry) : List (List Char) :=
  (entry.index :: entry.worktree :: ' ' :: entry.path) :: entry.renamedFrom.toList

end StatusEntry

/-- An entry of `git ls-files --stage`. -/
structure IndexEntryFingerprint where
  mode : String
  objectId : String
  stage : Nat
  deriving DecidableEq, Repr

/-- What is at a path of the worktree. -/
inductive WorktreeFile where
  | file (executable : Bool) (content : List UInt8)
  | symlink (target : List UInt8)
  | directory
  | missing
  | other
  | unreadable
  deriving DecidableEq, Repr

/-- The world that a session works in.

- `head`: what `git rev-parse HEAD` prints.
- `entries`: what `git status` reports.
- `index`, `files`: the index entries and what is in the worktree, for each path.
- `tasks`: the records of the task store.
- `bdOutput`: the value that `bd list --json` prints. A failing command and an output that is no
  JSON have none.
- `statusError`, `lsFilesError`: the error of a failing `git status` or `git ls-files`. -/
structure ProposalWorld where
  head : Option String
  entries : List StatusEntry := []
  index : GitPath → List IndexEntryFingerprint := fun _ => []
  files : GitPath → WorktreeFile := fun _ => .missing
  tasks : List Record := []
  bdOutput : Option Json := none
  statusError : Option String := none
  lsFilesError : Option String := none

/-! ### Maps -/

section Maps

variable {K V : Type} [DecidableEq K]

/-- The value of a key in the map that is built from the entries: a later one counts. -/
def mapGet (entries : List (K × V)) (key : K) : Option V := entries.reverse.lookup key

def mapKeys (entries : List (K × V)) : List K := (entries.map Prod.fst).eraseDups

/-- The result of `diffStringKeyedMaps`. -/
structure KeyedDiff (K : Type) where
  added : List K
  removed : List K
  changed : List K
  deriving DecidableEq

/-- `diffStringKeyedMaps`, without the sorting of the keys. -/
def diffStringKeyedMaps [DecidableEq V] (before after : List (K × V)) : KeyedDiff K where
  added := (mapKeys after).filter fun key => (mapGet before key).isNone
  removed := (mapKeys before).filter fun key => (mapGet after key).isNone
  changed := (mapKeys after).filter fun key =>
    (mapGet before key).isSome && mapGet before key ≠ mapGet after key

/-- `hasKeyedDiff`. -/
def hasKeyedDiff (diff : KeyedDiff K) : Bool :=
  !diff.added.isEmpty || !diff.removed.isEmpty || !diff.changed.isEmpty

end Maps

/-! ### Parsing `git status` -/

def trimEnd (text : List Char) : List Char := text.rdropWhile isBlank

def trimText (text : List Char) : List Char := (text.dropWhile isBlank).rdropWhile isBlank

/-- `parseGitStatusLine`: the path and the code. -/
def parseGitStatusLine (line : List Char) : Option (GitPath × List Char) :=
  match trimEnd line with
  | x :: y :: ' ' :: rest =>
    let rawPath := trimText rest
    if rest = [] || rawPath = [] then none else some (Quoting.unquote rawPath, [x, y])
  | _ => none

/-- `statusLinesToPathMap`. -/
def statusLinesToPathMap (lines : List (List Char)) : List (GitPath × List Char) :=
  lines.filterMap parseGitStatusLine

/-- The loop of `parseTrackedPathsFromNullStatus`. The record behind a rename is skipped. -/
def trackedPaths : Bool → List (List Char) → List GitPath
  | _, [] => []
  | true, _ :: records => trackedPaths false records
  | false, record :: records =>
    if record.length < 4 then trackedPaths false records
    else
      let code := record.take 2
      let rest := trackedPaths (isRenameCode code) records
      if code ≠ ['?', '?'] && code ≠ ['!', '!'] then record.drop 3 :: rest else rest

/-- `parseTrackedPathsFromNullStatus`. -/
def parseTrackedPathsFromNullStatus (records : List (List Char)) : List GitPath :=
  (trackedPaths false records).eraseDups

/-! ### The task store -/

mutual

/-- The value with the keys of its objects in order. -/
def canonical : Json → Json
  | .arr items => .arr (canonicalItems items)
  | .obj entries =>
    let entries := canonicalEntries entries
    .obj (((entries.map Prod.fst).eraseDups.insertionSort (· ≤ ·)).filterMap fun key =>
      (entries.lookup key).map (key, ·))
  | value => value

def canonicalItems : List Json → List Json
  | [] => []
  | item :: items => canonical item :: canonicalItems items

def canonicalEntries : List (String × Json) → List (String × Json)
  | [] => []
  | (key, value) :: entries => (key, canonical value) :: canonicalEntries entries

end

def TASK_STORE_JSON_KEYS : List String := ["tasks", "issues", "items", "results", "data", "beads"]

/-- `parseBdJsonOutput`. -/
def parseBdJsonOutput : Json → List Json
  | .arr items => items
  | .obj entries =>
    (TASK_STORE_JSON_KEYS.findSome? fun key =>
      match Record.get entries key with
      | some (.arr items) => some items
      | _ => none).getD [.obj entries]
  | _ => []

/-- `tryRunBdJson`: a failing listing counts as empty. -/
def tryRunBdJson (w : ProposalWorld) : List Json :=
  (w.bdOutput.map parseBdJsonOutput).getD []

/-- `normalizeTaskRecord`. An array counts as a record without keys of its own. -/
def normalizeTaskRecord : Json → Option Record
  | .obj entries => some entries
  | .arr _ => some []
  | _ => none

/-- `readTaskId`. -/
def readTaskId (task : Record) : Option String :=
  match task.get "id" with
  | some (.str id) => if trim id = "" then none else some (trim id)
  | some (.num n) => some (toString n)
  | _ => none

/-- `buildTaskIdSnapshotMap`. -/
def buildTaskIdSnapshotMap (tasks : List Record) : List (String × Json) :=
  tasks.filterMap fun task => (readTaskId task).map (·, canonical (.obj task))

/-! ### Snapshots -/

/-- `ProposalFlowWorktreeFingerprint`. -/
inductive WorktreeFingerprint where
  | file (executable : Bool) (hash : String)
  | symlink (hash : String)
  | directory
  | missing
  | other
  | unreadable
  deriving DecidableEq, Repr

/-- `ProposalFlowTrackedContentFingerprint` without its path. -/
structure ContentFingerprint where
  indexEntries : List IndexEntryFingerprint
  worktree : WorktreeFingerprint
  deriving DecidableEq, Repr

/-- `ProposalFlowStateSnapshot`. -/
structure ProposalFlowStateSnapshot where
  head : String
  statusLines : List (List Char)
  trackedContentFingerprints : List (GitPath × ContentFingerprint)
  tasks : List Record

/-- What the snapshots take from outside: how `git status` prints a path, and the hash of a
content. -/
structure SnapshotTools where
  quoting : Quoting
  hash : List UInt8 → String

/-- The output of a Git command, or its error. -/
def gitText {α : Type} (error : Option String) (output : α) : Except String α :=
  match error with
  | some message => .error message
  | none => .ok output

/-- `captureWorktreeFingerprint`. -/
def captureWorktreeFingerprint (tools : SnapshotTools) : WorktreeFile → WorktreeFingerprint
  | .file executable content => .file executable (tools.hash content)
  | .symlink target => .symlink (tools.hash target)
  | .directory => .directory
  | .missing => .missing
  | .other => .other
  | .unreadable => .unreadable

/-- `captureTrackedContentFingerprints`. -/
def captureTrackedContentFingerprints (tools : SnapshotTools) (w : ProposalWorld) :
    Except String (List (GitPath × ContentFingerprint)) := do
  let records ← gitText w.statusError (w.entries.flatMap StatusEntry.records)
  let paths := parseTrackedPathsFromNullStatus records
  let index ← if paths.isEmpty then pure fun _ => [] else gitText w.lsFilesError w.index
  return paths.map fun path =>
    (path, ⟨index path, captureWorktreeFingerprint tools (w.files path)⟩)

/-- `captureProposalFlowStateSnapshot`. -/
def captureProposalFlowStateSnapshot (tools : SnapshotTools) (w : ProposalWorld) :
    Except String ProposalFlowStateSnapshot := do
  let output ← gitText w.statusError (w.entries.map (StatusEntry.line tools.quoting))
  let statusLines := ((output.map trimEnd).filter (· ≠ [])).insertionSort (· ≤ ·)
  let fingerprints ← captureTrackedContentFingerprints tools w
  return {
    head := w.head.getD ""
    statusLines := statusLines
    trackedContentFingerprints := fingerprints
    tasks := (tryRunBdJson w).filterMap normalizeTaskRecord }

/-! ### Mutations -/

inductive RepoMutation where
  | headChanged (before after : String)
  | workingTreeChanged (addedPaths removedPaths changedPaths : List GitPath)
  deriving DecidableEq

/-- `ProposalFlowMutationReport`. -/
structure ProposalFlowMutationReport where
  repoMutations : List RepoMutation
  taskStoreMutations : List (KeyedDiff String)

def ProposalFlowMutationReport.hasMutations (report : ProposalFlowMutationReport) : Bool :=
  !report.repoMutations.isEmpty || !report.taskStoreMutations.isEmpty

/-- `detectProposalFlowMutations`. -/
def detectProposalFlowMutations (before after : ProposalFlowStateSnapshot) :
    ProposalFlowMutationReport :=
  let workingTreeDiff := diffStringKeyedMaps (statusLinesToPathMap before.statusLines)
    (statusLinesToPathMap after.statusLines)
  let trackedContentDiff := diffStringKeyedMaps before.trackedContentFingerprints
    after.trackedContentFingerprints
  let changedPaths := (workingTreeDiff.changed ++ trackedContentDiff.changed).eraseDups
  let taskDiff := diffStringKeyedMaps (buildTaskIdSnapshotMap before.tasks)
    (buildTaskIdSnapshotMap after.tasks)
  { repoMutations :=
      (if before.head ≠ after.head then [.headChanged before.head after.head] else []) ++
      (if !workingTreeDiff.added.isEmpty || !workingTreeDiff.removed.isEmpty ||
          !changedPaths.isEmpty then
        [.workingTreeChanged workingTreeDiff.added workingTreeDiff.removed changedPaths]
      else [])
    taskStoreMutations := if hasKeyedDiff taskDiff then [taskDiff] else [] }

/-- `formatLabeledItemList`. -/
def formatLabeledItemList (label : String) (items : List String) : List String :=
  if items.isEmpty then [] else ["  " ++ label ++ ": " ++ ", ".intercalate items]

/-- The lines about one change of the repository. -/
def repoMutationLines : RepoMutation → List String
  | .headChanged before after =>
    ["Repository commit changed (" ++ String.ofList (before.toList.take 7) ++ " -> " ++
      String.ofList (after.toList.take 7) ++ ")."]
  | .workingTreeChanged addedPaths removedPaths changedPaths =>
    "Repository working tree changed:" ::
      formatLabeledItemList "added" (addedPaths.map String.ofList) ++
      formatLabeledItemList "removed" (removedPaths.map String.ofList) ++
      formatLabeledItemList "modified" (changedPaths.map String.ofList)

/-- `formatProposalFlowMutationReason`. -/
def formatProposalFlowMutationReason (report : ProposalFlowMutationReport) : String :=
  if !report.hasMutations then ""
  else
    "\n".intercalate <|
      ("Proposal flow detected forbidden mutations. The proposal was not applied and archLoop " ++
        "did not revert the changes.") ::
      report.repoMutations.flatMap repoMutationLines ++
      report.taskStoreMutations.flatMap fun diff =>
        "Local task store changed:" ::
          formatLabeledItemList "added tasks" diff.added ++
          formatLabeledItemList "removed tasks" diff.removed ++
          formatLabeledItemList "changed tasks" diff.changed

/-! ### `runProposalSession` -/

inductive ProposalSessionPhase where
  | draft
  | refinement
  | finalization
  | approval
  deriving DecidableEq, Repr

/-- What the user says when asked for a refinement. -/
inductive RefinementAnswer where
  | message (text : String)
  | cancelled
  | failed (error : String)
  deriving DecidableEq, Repr

/-- What the user says when asked for an approval. -/
inductive ApprovalAnswer where
  | approved
  | declined
  | cancelled
  | failed (error : String)
  deriving DecidableEq, Repr

/-- What comes from outside in one session.

- `agentInvoker`: a turn of the agent, given the messages so far: it changes the world, and it
  answers or fails.
- `refinements`: the answers of the user until there is none.
- `extract`: reads the proposal from the last message. -/
structure ProposalSessionInput (T : Type) where
  agentInvoker : ProposalSessionPhase → List String → ProposalWorld →
    Except String String × ProposalWorld
  oneShot : Bool := false
  refinements : List RefinementAnswer := []
  extract : String → Except String T
  approve : ApprovalAnswer := .declined

/-- `RunProposalSessionResult`. -/
inductive RunProposalSessionResult (T : Type) where
  | completed (finalProposal : T)
  | failed (phase : ProposalSessionPhase) (reason : String)
  | cancelled (phase : ProposalSessionPhase)

variable {T : Type}

/-- The loop of refinements: the transcript that it ends with, or the result that ends the
session. -/
def refine (input : ProposalSessionInput T) :
    List RefinementAnswer → List String → ProposalWorld →
      Except (Except String (RunProposalSessionResult T)) (List String) × ProposalWorld
  | [], transcript, w => (.ok transcript, w)
  | .cancelled :: _, _, w => (.error (.ok (.cancelled .refinement)), w)
  | .failed error :: _, _, w => (.error (.error error), w)
  | .message text :: answers, transcript, w =>
    if text = "" then (.ok transcript, w)
    else
      match input.agentInvoker .refinement (transcript ++ [text]) w with
      | (.ok message, w) => refine input answers (transcript ++ [text, message]) w
      | (.error reason, w) => (.error (.ok (.failed .refinement reason)), w)

/-- `failOnProposalFlowMutations`: the reason, when something has changed. -/
def failOnProposalFlowMutations (tools : SnapshotTools)
    (beforeSnapshot : ProposalFlowStateSnapshot) (w : ProposalWorld) :
    Except String (Option String) := do
  let afterSnapshot ← captureProposalFlowStateSnapshot tools w
  let report := detectProposalFlowMutations beforeSnapshot afterSnapshot
  return if report.hasMutations then some (formatProposalFlowMutationReason report) else none

/-- What a session does with the last message of the agent. -/
def concludeSession (tools : SnapshotTools) (input : ProposalSessionInput T)
    (beforeSnapshot : ProposalFlowStateSnapshot) (message : String) (w : ProposalWorld) :
    Except String (RunProposalSessionResult T) :=
  match input.extract message with
  | .error reason => .ok (.failed .finalization reason)
  | .ok finalProposal =>
    match failOnProposalFlowMutations tools beforeSnapshot w with
    | .error error => .error error
    | .ok (some reason) => .ok (.failed .finalization reason)
    | .ok none =>
      match input.approve with
      | .approved => .ok (.completed finalProposal)
      | .declined => .ok (.cancelled .approval)
      | .cancelled => .ok (.cancelled .approval)
      | .failed error => .error error

/-- `runProposalSession`: its result or what it throws, and the world that it leaves. -/
def runProposalSession (tools : SnapshotTools) (input : ProposalSessionInput T)
    (w : ProposalWorld) : Except String (RunProposalSessionResult T) × ProposalWorld :=
  match captureProposalFlowStateSnapshot tools w with
  | .error error => (.error error, w)
  | .ok beforeSnapshot =>
    match input.agentInvoker .draft [] w with
    | (.error reason, w) => (.ok (.failed .draft reason), w)
    | (.ok message, w) =>
      match refine input (if input.oneShot then [] else input.refinements) [message] w with
      | (.error result, w) => (result, w)
      | (.ok transcript, w) =>
        match input.agentInvoker .finalization transcript w with
        | (.error reason, w) => (.ok (.failed .finalization reason), w)
        | (.ok message, w) => (concludeSession tools input beforeSnapshot message w, w)

end ArchLoop.Proposal
