import ArchLoop.PrdDecomposition
import ArchLoop.TaskTransitions

/-!
# `ArchLoop.Triage`: moving tasks out of the inbox

`runTriageProposalFlow` (`hubTriageProposal.ts`) looks up the tasks to triage, lets an agent
propose an outcome for each, has the decisions confirmed, and applies them one after the other.
The agent, the approvals and the confirmations take their time, and others change the store
meanwhile.

What the agent proposes for the tasks that it is given, and which decisions are confirmed, are
parameters: the `TriageSession`. Comments are a command without an effect here, and the texts that
only go into them are left out.
-/

set_option autoImplicit false

namespace ArchLoop.TaskBoard

open ArchLoop.Lib

/-! ### Proposals -/

inductive TriageConfidence where
  | low
  | medium
  | high
  deriving DecidableEq, Repr

inductive HubTriageOutcome where
  | needsInfo
  | readyForAgent
  | readyForHuman
  | wontfix
  deriving DecidableEq, Repr

/-- The status of an outcome. -/
def HubTriageOutcome.hubStatus : HubTriageOutcome → HubTaskStatus
  | .needsInfo => .needsInfo
  | .readyForAgent => .readyForAgent
  | .readyForHuman => .readyForHuman
  | .wontfix => .wontfix

structure TriageDependencySuggestion where
  dependentTaskId : TaskId
  blockerTaskId : TaskId
  deriving DecidableEq, Repr

structure TriageProposalDecision where
  taskId : TaskId
  outcome : HubTriageOutcome
  confidence : TriageConfidence := .high
  labels : List String := []
  dependencySuggestions : List TriageDependencySuggestion := []
  deriving DecidableEq, Repr

structure TriageProposal where
  decisions : List TriageProposalDecision

/-- What comes from outside in one run of the flow.

- `propose`: what the agent proposes for the tasks, or nothing when the session ends otherwise.
- `confirm`: the answers to the questions before the decisions are applied. -/
structure TriageSession where
  propose : List HubTaskProjection → Option TriageProposal
  confirm : TriageProposalDecision → Bool

/-! ### The tasks under triage -/

/-- `HUB_TRIAGE_SOURCE_STATUSES`. -/
def HUB_TRIAGE_SOURCE_STATUSES : List HubTaskStatus := [.inbox, .needsInfo]

def isHubTriageSourceStatus (status : HubTaskStatus) : Bool :=
  decide (status ∈ HUB_TRIAGE_SOURCE_STATUSES)

/-- Which tasks are asked for: those with the ids, or those in one of the statuses of the
query. -/
structure TriageSelection where
  taskIds : List TaskId := []
  query : Option String := none

/-- The statuses of a query. -/
def queryStatuses (selection : TriageSelection) : List String :=
  ((splitAt ',' (selection.query.getD
    (",".intercalate (HUB_TRIAGE_SOURCE_STATUSES.map statusText)))).map trim).filter (· ≠ "")

/-- `loadHubTask` for each of the ids. -/
def loadHubTasks : List TaskId → BoardProg (List HubTaskProjection)
  | [] => .ret []
  | taskId :: taskIds =>
    (loadHubTask taskId).bind fun task =>
      (loadHubTasks taskIds).bind fun tasks => .ret (task :: tasks)

/-- `resolveTasksUnderTriage`. -/
def resolveTasksUnderTriage (selection : TriageSelection) :
    BoardProg (List HubTaskProjection) :=
  loadHubTaskBoard.bind fun board =>
    if selection.taskIds.isEmpty then
      loadHubTasks ((board.filter fun task =>
        statusText task.hubStatus ∈ queryStatuses selection).map (·.id))
    else
      (loadHubTasks selection.taskIds).bind fun tasks =>
        match tasks.find? fun task => !isHubTriageSourceStatus task.hubStatus with
        | some task =>
          .raise ("Task " ++ task.id ++ " has status \"" ++ statusText task.hubStatus ++
            "\" and is outside triage scope. Triage only covers inbox and needs_info tasks.")
        | none => .ret tasks

/-- `prepareTriageContext`, as far as the tasks go. -/
def prepareTriageContext (selection : TriageSelection) : BoardProg (List HubTaskProjection) :=
  loadHubTaskBoard.bind fun _ => resolveTasksUnderTriage selection

/-! ### Validation -/

/-- `sanitizeTriageProposalDependencies`: without the edges that the board cannot have. -/
def sanitizeTriageProposalDependencies (proposal : TriageProposal) (boardTaskIds : List TaskId) :
    TriageProposal where
  decisions := proposal.decisions.map fun decision =>
    { decision with
      dependencySuggestions := decision.dependencySuggestions.filter fun edge =>
        edge.dependentTaskId ≠ edge.blockerTaskId && edge.dependentTaskId ∈ boardTaskIds &&
          edge.blockerTaskId ∈ boardTaskIds }

/-- `collectProposalDependencyEdges`. -/
def collectProposalDependencyEdges (proposal : TriageProposal) : List TriageDependencySuggestion :=
  proposal.decisions.flatMap (·.dependencySuggestions)

/-- `detectDependencyCycles` of `hubTriageProposal.ts`. -/
def detectTriageCycles (edges : List TriageDependencySuggestion) : List TaskId :=
  match edges.find? fun edge => edge.dependentTaskId = edge.blockerTaskId with
  | some edge => [edge.dependentTaskId]
  | none =>
    let nodes := (edges.flatMap fun edge => [edge.dependentTaskId, edge.blockerTaskId]).eraseDups
    let graph := fun node => (edges.filter (·.dependentTaskId = node)).map (·.blockerTaskId)
    (nodes.foldl (visitNode graph (nodes.length + 1)) {}).cycles

/-- `validateTriageProposal`. The flow requires a decision for each of the known tasks. -/
def validateTriageProposal (proposal : TriageProposal) (knownTaskIds : List TaskId)
    (requiredTaskIds : Option (List TaskId) := some knownTaskIds.eraseDups) :
    Except String Unit := do
  if proposal.decisions.isEmpty then
    throw "Triage proposal must include at least one decision."
  let duplicateTaskIds := (repeatedTempIds [] (proposal.decisions.map (·.taskId))).eraseDups
  if !duplicateTaskIds.isEmpty then
    throw ("Duplicate decision task ids: " ++ joinWith ", " duplicateTaskIds ++ ".")
  match proposal.decisions.find? (·.taskId ∉ knownTaskIds) with
  | some decision =>
    throw ("Triage proposal references unknown task id \"" ++ decision.taskId ++ "\".")
  | none => pure ()
  let cycles := detectTriageCycles (collectProposalDependencyEdges proposal)
  if !cycles.isEmpty then
    throw ("Triage proposal contains dependency cycles involving: " ++ joinWith ", " cycles ++ ".")
  let missingTaskIds :=
    (requiredTaskIds.getD []).filter (· ∉ proposal.decisions.map (·.taskId))
  if !missingTaskIds.isEmpty then
    throw ("Triage proposal is missing decisions for: " ++ joinWith ", " missingTaskIds ++ ".")

/-! ### `applyTriageProposal` -/

def TRIAGE_LABELS_TO_CLEAR : List String :=
  ["needs-triage", "needs-info", "ready-for-agent", "ready-for-human"]

/-- A `bd update` of labels. -/
def updateTriageLabels (taskId : TaskId) (update : BdUpdate) : BoardProg Unit :=
  bdUpdate ("tasks triage " ++ taskId) taskId update

/-- `addHubTaskLabels`. -/
def addHubTaskLabels (taskId : TaskId) (labels : List String) : BoardProg Unit :=
  let normalized := (labels.map trim).filter (· ≠ "")
  Prog.when (!normalized.isEmpty)
    (updateTriageLabels taskId { addLabels := normalizeBdLabels normalized })

/-- `applyWontfixOutcome`. -/
def applyWontfixOutcome (task : HubTaskProjection) : BoardProg Unit :=
  (transitionHubTaskStatus
    { taskId := task.id
      hubStatus := .wontfix
      metadata := (task.metadata.set "hub_status" (.str "wontfix")).set "wontfix"
        (.bool true) }).bind fun _ =>
  updateTriageLabels task.id
    { removeLabels := TRIAGE_LABELS_TO_CLEAR, addLabels := ["wontfix"] }

/-- `applyNonWontfixOutcome`. The label of the outcome stays. -/
def applyNonWontfixOutcome (task : HubTaskProjection) (outcome : HubTriageOutcome) :
    BoardProg Unit :=
  let metadata := task.metadata.set "hub_status" (.str (statusText outcome.hubStatus))
  (transitionHubTaskStatus
    { taskId := task.id
      hubStatus := outcome.hubStatus
      metadata := metadata.erase ["wontfix"] }).bind fun _ =>
  updateTriageLabels task.id
    { removeLabels := TRIAGE_LABELS_TO_CLEAR.filter (· ≠ HUB_STATUS_LABELS outcome.hubStatus) }

/-- `appendHubTaskComment`. -/
def appendHubTaskComment (taskId : TaskId) : BoardProg Unit :=
  (bdCommand ("tasks comment " ++ taskId) (fun s => s) fun s => (s.issue taskId).isSome).bind
    fun found =>
      if found then .ret () else .raise ("archloop tasks comment " ++ taskId ++ " failed")

/-- What `applyTriageProposal` does about one decision. -/
def applyDecision (decision : TriageProposalDecision) : BoardProg Unit :=
  (loadHubTask decision.taskId).bind fun task =>
  (if decision.outcome = .wontfix then applyWontfixOutcome task
    else applyNonWontfixOutcome task decision.outcome).bind fun _ =>
  (Prog.when (!decision.labels.isEmpty) (addHubTaskLabels decision.taskId decision.labels)).bind
  fun _ => appendHubTaskComment decision.taskId

/-- The loop over the decisions. -/
def applyDecisions : List TriageProposalDecision → BoardProg Unit
  | [] => .ret ()
  | decision :: decisions => (applyDecision decision).bind fun _ => applyDecisions decisions

/-- The loop over the edges. -/
def addTriageEdges : List TriageDependencySuggestion → BoardProg Unit
  | [] => .ret ()
  | edge :: edges =>
    (addHubTaskDependency edge.dependentTaskId edge.blockerTaskId).bind fun _ =>
      addTriageEdges edges

/-- `applyTriageProposal`. -/
def applyTriageProposal (proposal : TriageProposal) (decisionsToApply : List TaskId) :
    BoardProg Unit :=
  loadHubTaskBoard.bind fun board =>
  let approved := fun taskId => taskId ∈ decisionsToApply || taskId ∈ board.map (·.id)
  let decisions := proposal.decisions.filter (·.taskId ∈ decisionsToApply)
  (applyDecisions decisions).bind fun _ =>
  addTriageEdges <| ((decisions.flatMap (·.dependencySuggestions)).filter fun edge =>
    approved edge.dependentTaskId && approved edge.blockerTaskId).eraseDups

/-! ### `runTriageProposalFlow` -/

/-- `classifyTriageDecisionAutoApply`: the decision needs no confirmation. -/
def isAutoApplied (decision : TriageProposalDecision) : Bool :=
  decision.confidence = .high && decision.outcome ≠ .wontfix &&
    decision.dependencySuggestions.isEmpty

/-- `resolveDecisionsToApply`. -/
def resolveDecisionsToApply (session : TriageSession) (proposal : TriageProposal) : List TaskId :=
  (proposal.decisions.filter fun decision =>
    isAutoApplied decision || session.confirm decision).map (·.taskId)

/-- `runTriageProposalFlow`. -/
def runTriageProposalFlow (session : TriageSession) (selection : TriageSelection) :
    BoardProg Unit :=
  (prepareTriageContext selection).bind fun tasks =>
  if tasks.isEmpty then .raise "No tasks matched triage selection."
  else
    match session.propose tasks with
    | none => .ret ()
    | some proposal =>
      loadHubTaskBoard.bind fun board =>
      let sanitized := sanitizeTriageProposalDependencies proposal (board.map (·.id))
      (returning (validateTriageProposal sanitized (tasks.map (·.id)))).bind fun _ =>
      applyTriageProposal sanitized (resolveDecisionsToApply session sanitized)

end ArchLoop.TaskBoard
