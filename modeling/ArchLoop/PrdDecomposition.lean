import ArchLoop.BeadsStore

/-!
# `ArchLoop.PrdDecomposition`: tasks from a product requirements document

An agent proposes slices of a document and the dependencies between them, and
`applyPrdDecompositionProposal` (`hubPrdDecomposition.ts`) makes a task of each slice and an edge
of each dependency. The tasks come first, one command for each, in the status that they are to
have; then the edges, one command for each.

`createHubTask` (`taskBoard.ts`) takes the id of a new task from the output of `bd create`. The
ids that `bd` gives are a parameter, `newId`.
-/

set_option autoImplicit false

namespace ArchLoop.TaskBoard

open ArchLoop.Lib

/-! ### `createHubTask` -/

inductive PrdSliceType where
  | afk
  | hitl
  deriving DecidableEq, Repr

inductive PrdWarningSeverity where
  | low
  | medium
  | high
  deriving DecidableEq, Repr

def PrdSliceType.text : PrdSliceType → String
  | .afk => "AFK"
  | .hitl => "HITL"

def PrdWarningSeverity.text : PrdWarningSeverity → String
  | .low => "low"
  | .medium => "medium"
  | .high => "high"

/-- `SEVERITY_RANK`. -/
def SEVERITY_RANK : PrdWarningSeverity → Nat
  | .low => 1
  | .medium => 2
  | .high => 3

/-- `IndexedPrdWarning`, which is also the warning of a new task. -/
structure IndexedPrdWarning where
  severity : PrdWarningSeverity
  message : String
  deriving DecidableEq, Repr

/-- The statuses of a new task. -/
inductive CreateHubStatus where
  | inbox
  | readyForAgent
  | readyForHuman
  deriving DecidableEq, Repr

/-- The status on the board. -/
def CreateHubStatus.hubStatus : CreateHubStatus → HubTaskStatus
  | .inbox => .inbox
  | .readyForAgent => .readyForAgent
  | .readyForHuman => .readyForHuman

/-- `CREATE_HUB_STATUS_LABELS`. -/
def CREATE_HUB_STATUS_LABELS : CreateHubStatus → String
  | .inbox => "needs-triage"
  | .readyForAgent => "ready-for-agent"
  | .readyForHuman => "ready-for-human"

/-- `CreateHubTaskInput`. -/
structure CreateHubTaskInput where
  title : String
  description : String := ""
  origin : String := "manual"
  kind : Option String := none
  sliceType : Option PrdSliceType := none
  prdRef : Option String := none
  proposalRunId : Option String := none
  hubStatus : CreateHubStatus := .inbox
  sliceTempId : Option String := none
  prdWarning : Option IndexedPrdWarning := none
  extraLabels : List String := []

/-- The record with the key set, when there is a text that is not empty. -/
def setText (record : Record) (key : String) : Option String → Record
  | some text => if text = "" then record else record.set key (.str text)
  | none => record

/-- The metadata of a new task. -/
def createMetadata (input : CreateHubTaskInput) : Record :=
  let start := Record.set [] "origin" (.str input.origin)
  let kind := setText start "kind" input.kind
  let sliceType := setText kind "slice_type" (input.sliceType.map PrdSliceType.text)
  let prdRef := setText sliceType "prd_ref" input.prdRef
  let runId := setText prdRef "proposal_run_id" input.proposalRunId
  let tempId := setText runId "slice_temp_id" input.sliceTempId
  let severity := setText tempId "warning_severity" (input.prdWarning.map (·.severity.text))
  setText severity "warning_message" (input.prdWarning.map (·.message))

/-- The issue that `bd create` makes. -/
def createdIssue (input : CreateHubTaskInput) (id : TaskId) : BeadsIssue where
  id := id
  title := input.title
  description := input.description
  labels := CREATE_HUB_STATUS_LABELS input.hubStatus :: input.extraLabels
  metadata := createMetadata input

/-- `CreateHubTaskResult`. -/
structure CreateHubTaskResult where
  id : TaskId
  title : String
  prdWarning : Option IndexedPrdWarning
  deriving DecidableEq, Repr

/-- The result, from the object that `bd create` prints. -/
def readCreated (input : CreateHubTaskInput) (record : Record) : CreateHubTaskResult where
  id := ((coalesce record ["id", "issue_id", "key"]).map showId).getD "unknown"
  title := ((coalesce record ["title"]).map showId).getD input.title
  prdWarning := if input.sliceTempId.any (· ≠ "") then input.prdWarning else none

variable (newId : BeadsStore → TaskId)

/-- `createHubTask`. -/
def createHubTask (input : CreateHubTaskInput) : BoardProg CreateHubTaskResult :=
  bdCommand "tasks create" (fun s => s.addIssue (createdIssue input (newId s)))
    fun s => readCreated input (createdIssue input (newId s)).record

/-- `addHubTaskDependency`. -/
def addHubTaskDependency (dependentId blockerId : TaskId) : BoardProg Unit :=
  bdCommand ("tasks dependency " ++ dependentId ++ " -> " ++ blockerId)
    (fun s => s.addEdge dependentId blockerId) fun _ => ()

/-! ### Proposals -/

inductive PrdHubStatusMode where
  | inbox
  | classifiedReady
  deriving DecidableEq, Repr

structure PrdProposalWarning where
  tempId : String
  severity : PrdWarningSeverity
  message : String

structure PrdProposalSlice where
  tempId : String
  title : String
  description : String
  sliceType : PrdSliceType
  acceptanceCriteria : List String
  userStoriesCovered : List String := []
  rationale : String

structure PrdProposalDependency where
  dependentTempId : String
  blockerTempId : String
  deriving DecidableEq, Repr

structure PrdDecompositionProposal where
  prdRef : String
  prdTitle : String
  slices : List PrdProposalSlice
  dependencies : List PrdProposalDependency
  warnings : List PrdProposalWarning := []

/-! ### `validatePrdDecompositionProposal` -/

/-- The temp ids that occur again, in their order. -/
def repeatedTempIds : List String → List String → List String
  | _, [] => []
  | seen, tempId :: rest =>
    if tempId ∈ seen then tempId :: repeatedTempIds seen rest
    else repeatedTempIds (tempId :: seen) rest

def collectDuplicateTempIds (slices : List PrdProposalSlice) : List String :=
  (repeatedTempIds [] (slices.map (·.tempId))).eraseDups

def collectUnknownTempIds (proposal : PrdDecompositionProposal) : List String :=
  let knownTempIds := proposal.slices.map (·.tempId)
  let referenced :=
    (proposal.dependencies.flatMap fun dependency =>
      [dependency.dependentTempId, dependency.blockerTempId]) ++
    proposal.warnings.map (·.tempId)
  (referenced.filter (· ∉ knownTempIds)).eraseDups

/-- Where the search for cycles is. -/
structure CycleSearch where
  visiting : List String := []
  visited : List String := []
  cycles : List String := []

/-- `visit`. Each nested call has one more node that is being visited, so that the number of
nodes and one more bounds the depth. -/
def visitNode (graph : String → List String) : Nat → CycleSearch → String → CycleSearch
  | 0, search, _ => search
  | depth + 1, search, node =>
    if node ∈ search.visited then search
    else if node ∈ search.visiting then { search with cycles := search.cycles ++ [node] }
    else
      let inside := (graph node).foldl (fun inner next => visitNode graph depth inner next)
        { search with visiting := node :: search.visiting }
      { inside with
        visiting := inside.visiting.filter (· ≠ node)
        visited := node :: inside.visited }

def detectDependencyCycles (slices : List PrdProposalSlice)
    (dependencies : List PrdProposalDependency) : List String :=
  match dependencies.find? fun dependency =>
      dependency.dependentTempId = dependency.blockerTempId with
  | some dependency => [dependency.dependentTempId]
  | none =>
    let nodes := slices.map (·.tempId)
    -- a dependent that no slice has is no key of the graph
    let graph := fun node =>
      if node ∈ nodes then
        (dependencies.filter (·.dependentTempId = node)).map (·.blockerTempId)
      else []
    (nodes.foldl (visitNode graph (nodes.length + 1)) {}).cycles

def joinWith (separator : String) (parts : List String) : String :=
  separator.intercalate parts

def formatHighSeverityValidationMessage (warnings : List PrdProposalWarning) : String :=
  let high := warnings.filter (·.severity = .high)
  joinWith "\n" <|
    ["High-severity warnings block unattended ready-state creation:", ""] ++
    (high.map fun warning => "  [high] " ++ warning.tempId ++ ": " ++ warning.message) ++
    ["", "Try:", "  · archloop tasks from-prd <prd> --status inbox",
      "  · or refine the decomposition to resolve these warnings"]

/-- `validatePrdDecompositionProposal`. The type of a slice is right by its type here. -/
def validatePrdDecompositionProposal (proposal : PrdDecompositionProposal)
    (unattendedReadyStates : Bool) : Except String Unit := do
  if proposal.slices.isEmpty then
    throw "PRD decomposition proposal must include at least one slice."
  match proposal.slices.findIdx? (·.acceptanceCriteria.isEmpty) with
  | some index =>
    throw ("slices[" ++ toString index ++ "].acceptanceCriteria must be a non-empty array.")
  | none => pure ()
  let duplicateTempIds := collectDuplicateTempIds proposal.slices
  if !duplicateTempIds.isEmpty then
    throw ("Duplicate slice temp ids: " ++ joinWith ", " duplicateTempIds ++ ".")
  let unknownTempIds := collectUnknownTempIds proposal
  if !unknownTempIds.isEmpty then
    throw ("PRD decomposition proposal references unknown temp ids: " ++
      joinWith ", " unknownTempIds ++ ".")
  let cycles := detectDependencyCycles proposal.slices proposal.dependencies
  if !cycles.isEmpty then
    throw ("PRD decomposition proposal contains dependency cycles involving: " ++
      joinWith ", " cycles ++ ".")
  if unattendedReadyStates && proposal.warnings.any (·.severity = .high) then
    throw (formatHighSeverityValidationMessage proposal.warnings)

/-! ### `applyPrdDecompositionProposal` -/

structure ApplyPrdDecompositionProposalInput where
  proposal : PrdDecompositionProposal
  hubStatusMode : PrdHubStatusMode
  proposalRunId : String

/-- The warning of a slice: the first one of the highest severity. -/
def indexWarningsByTempId (warnings : List PrdProposalWarning) (tempId : String) :
    Option IndexedPrdWarning :=
  warnings.foldl (fun indexed warning =>
    if warning.tempId = tempId &&
        indexed.all (SEVERITY_RANK ·.severity < SEVERITY_RANK warning.severity) then
      some { severity := warning.severity, message := warning.message }
    else indexed) none

def prdWarningLabelForSeverity (severity : PrdWarningSeverity) : String :=
  "prd-warning-" ++ severity.text

def formatPrdWarningDescriptionSection (warning : IndexedPrdWarning) : String :=
  "## PRD warning\n- **[" ++ warning.severity.text ++ "]** " ++ warning.message

def formatPrdSliceDescription (input : ApplyPrdDecompositionProposalInput)
    (slice : PrdProposalSlice) : String :=
  let stories := if slice.userStoriesCovered.isEmpty then []
    else ["- User stories: " ++ joinWith ", " slice.userStoriesCovered]
  joinWith "\n" <|
    [slice.description, "", "## Acceptance criteria"] ++
    slice.acceptanceCriteria.map ("- " ++ ·) ++
    ["", "## PRD origin", "- PRD: " ++ input.proposal.prdTitle,
      "- Reference: " ++ input.proposal.prdRef, "- Proposal run: " ++ input.proposalRunId] ++
    stories ++ ["", "## Slice rationale", slice.rationale]

def mapSliceTypeToReadyHubStatus : PrdSliceType → CreateHubStatus
  | .afk => .readyForAgent
  | .hitl => .readyForHuman

def resolveSliceHubStatus (slice : PrdProposalSlice) : PrdHubStatusMode → CreateHubStatus
  | .inbox => .inbox
  | .classifiedReady => mapSliceTypeToReadyHubStatus slice.sliceType

/-- The new task of a slice. -/
def sliceTask (input : ApplyPrdDecompositionProposalInput) (slice : PrdProposalSlice) :
    CreateHubTaskInput :=
  let warning := indexWarningsByTempId input.proposal.warnings slice.tempId
  let description := formatPrdSliceDescription input slice
  { title := slice.title
    description := match warning with
      | some warning => description ++ "\n\n" ++ formatPrdWarningDescriptionSection warning
      | none => description
    origin := "prd-decomposition"
    sliceType := some slice.sliceType
    prdRef := some input.proposal.prdRef
    proposalRunId := some input.proposalRunId
    hubStatus := resolveSliceHubStatus slice input.hubStatusMode
    sliceTempId := some slice.tempId
    prdWarning := warning
    extraLabels := (warning.map (prdWarningLabelForSeverity ·.severity)).toList }

/-- The loop over the slices. -/
def createSliceTasks (input : ApplyPrdDecompositionProposalInput) :
    List PrdProposalSlice → BoardProg (List CreateHubTaskResult)
  | [] => .ret []
  | slice :: slices =>
    (createHubTask newId (sliceTask input slice)).bind fun task =>
      (createSliceTasks input slices).bind fun tasks => .ret (task :: tasks)

/-- `tempIdToTaskId`. The last slice with a temp id counts. -/
def tempIdToTaskId (slices : List PrdProposalSlice) (tasks : List CreateHubTaskResult)
    (tempId : String) : Option TaskId :=
  (((slices.zip tasks).reverse.find? (·.1.tempId = tempId)).map (·.2.id)).filter (· ≠ "")

/-- The loop over the dependencies. -/
def addDependencies (taskIdOf : String → Option TaskId) :
    List PrdProposalDependency → BoardProg (List (TaskId × TaskId))
  | [] => .ret []
  | dependency :: dependencies =>
    match taskIdOf dependency.dependentTempId, taskIdOf dependency.blockerTempId with
    | some dependentId, some blockerId =>
      (addHubTaskDependency dependentId blockerId).bind fun _ =>
        (addDependencies taskIdOf dependencies).bind fun added =>
          .ret ((dependentId, blockerId) :: added)
    | _, _ => addDependencies taskIdOf dependencies

/-- `applyPrdDecompositionProposal`: the tasks, and the edges. -/
def applyPrdDecompositionProposal (input : ApplyPrdDecompositionProposalInput) :
    BoardProg (List CreateHubTaskResult × List (TaskId × TaskId)) :=
  match validatePrdDecompositionProposal input.proposal
      (input.hubStatusMode = .classifiedReady) with
  | .error message => .raise message
  | .ok _ =>
    (createSliceTasks newId input input.proposal.slices).bind fun tasks =>
      (addDependencies (tempIdToTaskId input.proposal.slices tasks)
        input.proposal.dependencies).bind fun added => .ret (tasks, added)

end ArchLoop.TaskBoard
