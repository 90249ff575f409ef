import ArchLoop.Lib.JsonText
import ArchLoop.TaskBoard

/-!
# `ArchLoop.BatchPlanner`: which tasks a flow takes into its next batch

The model of `hubBatchPlanner.ts`. With the planned strategy an agent reads the candidates and
answers with a text, in which a tag holds a JSON object. Nothing about that text is promised: the
reader is lenient, the selected ids are checked, and the deferred ones are not. A task that the
agent defers for a blocker it does not have is taken back into the batch.

The blockers of a candidate are looked up in the task store and in its description. Here they are
whatever `HubBatchPlannerInput.blockers` says.
-/

set_option autoImplicit false

namespace ArchLoop.BatchPlanner

open ArchLoop.Lib ArchLoop.Lib.JsonText ArchLoop.TaskBoard

/-! ### Data -/

/-- `HUB_BATCH_STRATEGIES`. -/
inductive HubBatchStrategy where
  | planned
  | limited
  | conservative
  deriving DecidableEq, Repr

/-- `HubBatchDeferredReason`. -/
inductive HubBatchDeferredReason where
  | explicitBlocker
  | selectedApiShapeDependency
  | sameCoreModule
  | docsOrQaForSelectedBehavior
  | designDecisionDependency
  | overMaxTasks
  | lowerPriority
  deriving DecidableEq, Repr

/-- `HUB_BATCH_DEFERRED_REASONS`. -/
def HUB_BATCH_DEFERRED_REASONS : List HubBatchDeferredReason :=
  [.explicitBlocker, .selectedApiShapeDependency, .sameCoreModule, .docsOrQaForSelectedBehavior,
    .designDecisionDependency, .overMaxTasks, .lowerPriority]

/-- The text of a reason. -/
def HubBatchDeferredReason.text : HubBatchDeferredReason → String
  | explicitBlocker => "explicit_blocker"
  | selectedApiShapeDependency => "selected_api_shape_dependency"
  | sameCoreModule => "same_core_module"
  | docsOrQaForSelectedBehavior => "docs_or_qa_for_selected_behavior"
  | designDecisionDependency => "design_decision_dependency"
  | overMaxTasks => "over_max_tasks"
  | lowerPriority => "lower_priority"

/-- `HubBatchFallbackReason`. -/
inductive HubBatchFallbackReason where
  | plannerUnavailable
  | plannerFailed
  | malformedOutput
  | invalidTaskIds
  | duplicateTaskIds
  | overMaxTasks
  deriving DecidableEq, Repr

/-- `HubBatchDiagnosticReason`. -/
inductive HubBatchDiagnosticReason where
  | invalidExplicitBlockerDeferral
  deriving DecidableEq, Repr

/-- `HubBatchDeferredTask`. -/
structure HubBatchDeferredTask where
  taskId : TaskId
  reason : HubBatchDeferredReason
  deriving DecidableEq, Repr

/-- `HubBatchPlannerCandidate`, with the fields that the plan is resolved with. -/
structure HubBatchPlannerCandidate where
  id : TaskId
  blockersResolved : List TaskId
  openBlockers : List String
  unknownBlockers : List String
  deriving DecidableEq, Repr

/-- What the lookups say of the blockers of a task. -/
structure BlockerResolution where
  blockersResolved : List TaskId := []
  openBlockers : List String := []
  unknownBlockers : List String := []
  deriving DecidableEq, Repr

/-- What becomes of the call of the planner.

- `unavailable`: there is no planner, or no flow, directory or run to call it for.
- `failed`: the call throws, and the flow goes on.
- `aborted`: the call throws because the flow was aborted. -/
inductive BatchPlannerReply where
  | unavailable
  | failed
  | aborted
  | stdout (text : List Char)

/-- `HubBatchPlannerInput`. -/
structure HubBatchPlannerInput where
  candidates : List TaskBoard.HubTaskProjection
  batchStrategy : HubBatchStrategy
  maxTasks : Nat
  batchPlanner : BatchPlannerReply
  blockers : TaskBoard.HubTaskProjection → BlockerResolution

/-- `HubBatchPlannerResult`. -/
structure HubBatchPlannerResult where
  selectedTasks : List TaskBoard.HubTaskProjection
  deferredTasks : List HubBatchDeferredTask
  batchStrategyRequested : HubBatchStrategy
  batchStrategyUsed : HubBatchStrategy
  maxTasks : Nat
  fallbackReason : Option HubBatchFallbackReason := none
  diagnosticReason : Option HubBatchDiagnosticReason := none
  rationale : Option String := none

/-- `HubBatchPlannerAgentOutput`. -/
structure HubBatchPlannerAgentOutput where
  selectedTaskIds : List TaskId
  deferred : List HubBatchDeferredTask
  rationale : Option String
  deriving DecidableEq, Repr

/-- `isHubFlowEligibleTask`. -/
def isHubFlowEligibleTask (task : TaskBoard.HubTaskProjection) : Bool :=
  task.hubStatus == .readyForAgent && task.claimState != some .active

/-! ### The tag -/

/-- The text behind a tag that it starts with, in either case of the letters. -/
def stripTag : List Char → List Char → Option (List Char)
  | [], text => some text
  | _ :: _, [] => none
  | t :: tag, c :: text => if c.toLower = t then stripTag tag text else none

/-- The text behind the first place where a tag stands. -/
def afterTag (tag : List Char) : List Char → Option (List Char)
  | [] => stripTag tag []
  | c :: text => (stripTag tag (c :: text)).or (afterTag tag text)

/-- The text up to the first place where a tag stands. -/
def beforeTag (tag : List Char) : List Char → Option (List Char)
  | [] => (stripTag tag []).map fun _ => []
  | c :: text =>
    if (stripTag tag (c :: text)).isSome then some []
    else (beforeTag tag text).map (c :: ·)

/-- The text between the tags: the group of `/<batch-plan>([\s\S]*?)<\/batch-plan>/i`. -/
def batchPlanText (stdout : List Char) : Option (List Char) :=
  (afterTag "<batch-plan>".toList stdout).bind (beforeTag "</batch-plan>".toList)

/-! ### The output of the planner -/

/-- `readStringArray`. -/
def readStringArray (value : Option Value) : List String :=
  ((value.bind Value.items?).getD []).filterMap fun entry =>
    entry.text?.bind fun text => if trim text = "" then none else some (trim text)

/-- `readDeferredTaskId`. -/
def readDeferredTaskId (record : Value) : String :=
  match (record.get "taskId").bind Value.text?, (record.get "task_id").bind Value.text? with
  | some taskId, _ => trim taskId
  | none, some taskId => trim taskId
  | none, none => ""

/-- `normalizeHubBatchDeferredReason`. -/
def normalizeHubBatchDeferredReason (raw : Option Value) : Option HubBatchDeferredReason :=
  (raw.bind Value.text?).bind fun text =>
    let normalized := (trim text).toList.map lowerChar
    HUB_BATCH_DEFERRED_REASONS.find? fun reason => reason.text.toList == normalized

/-- One entry of the deferred tasks: none unless it names a task and a known reason. -/
def readDeferredTask (entry : Value) : Option HubBatchDeferredTask :=
  let taskId := readDeferredTaskId entry
  (normalizeHubBatchDeferredReason (entry.first ["reason", "deferredReason"])).bind
    fun reason => if taskId = "" then none else some { taskId, reason }

/-- `parseHubBatchPlannerOutput`. -/
def parseHubBatchPlannerOutput (stdout : List Char) : Option HubBatchPlannerAgentOutput := do
  let text ← batchPlanText stdout
  guard (text ≠ [])
  let record ← parse text
  return {
    selectedTaskIds := readStringArray
      (record.first ["selectedTaskIds", "selected_task_ids", "selected"])
    deferred := (((record.get "deferred").bind Value.items?).getD []).filterMap readDeferredTask
    rationale := ((record.get "rationale").bind Value.text?).bind fun text =>
      if trim text = "" then none else some (trim text) }

/-- The loop of `validateHubBatchPlannerOutput` over the selected ids. -/
def checkSelectedIds (eligibleTaskIds : List TaskId) :
    List TaskId → List TaskId → Option HubBatchFallbackReason
  | _, [] => none
  | uniqueSelected, taskId :: rest =>
    if taskId ∉ eligibleTaskIds then some .invalidTaskIds
    else if taskId ∈ uniqueSelected then some .duplicateTaskIds
    else checkSelectedIds eligibleTaskIds (uniqueSelected ++ [taskId]) rest

/-- `validateHubBatchPlannerOutput`. -/
def validateHubBatchPlannerOutput (output : HubBatchPlannerAgentOutput)
    (eligibleTaskIds : List TaskId) (maxTasks : Nat) : Option HubBatchFallbackReason :=
  (checkSelectedIds eligibleTaskIds [] output.selectedTaskIds).or
    (if maxTasks < output.selectedTaskIds.length then some .overMaxTasks else none)

/-! ### The selections -/

/-- `partitionEligibleCandidates`. -/
def partitionEligibleCandidates (candidates : List TaskBoard.HubTaskProjection)
    (selectionLimit : Nat) : List TaskBoard.HubTaskProjection × List HubBatchDeferredTask :=
  let eligible := candidates.filter isHubFlowEligibleTask
  (eligible.take selectionLimit,
    (eligible.drop selectionLimit).map fun task => { taskId := task.id, reason := .overMaxTasks })

/-- `buildConservativeBatchResult`. -/
def buildConservativeBatchResult (candidates : List TaskBoard.HubTaskProjection)
    (batchStrategyRequested : HubBatchStrategy) (maxTasks : Nat)
    (fallbackReason : Option HubBatchFallbackReason) (rationale : Option String)
    (deferredFromPlanner : List HubBatchDeferredTask) : HubBatchPlannerResult :=
  let eligible := candidates.filter isHubFlowEligibleTask
  let selectedTasks := eligible.take 1
  let selectedIds := selectedTasks.map (·.id)
  { selectedTasks
    deferredTasks :=
      (deferredFromPlanner.filter fun entry => entry.taskId ∉ selectedIds) ++
      (eligible.filter fun task => task.id ∉ selectedIds).map fun task =>
        { taskId := task.id, reason := .overMaxTasks }
    batchStrategyRequested, batchStrategyUsed := .conservative, maxTasks, fallbackReason
    rationale }

/-- `mapSelectedTasks`. Of several candidates with one id the map holds the last one. -/
def mapSelectedTasks (candidates : List TaskBoard.HubTaskProjection)
    (selectedTaskIds : List TaskId) : List TaskBoard.HubTaskProjection :=
  selectedTaskIds.filterMap fun taskId => candidates.reverse.find? (·.id == taskId)

/-- `enrichHubBatchPlannerCandidate`. -/
def enrichHubBatchPlannerCandidate (blockers : TaskBoard.HubTaskProjection → BlockerResolution)
    (task : TaskBoard.HubTaskProjection) : HubBatchPlannerCandidate where
  id := task.id
  blockersResolved := (blockers task).blockersResolved
  openBlockers := (blockers task).openBlockers
  unknownBlockers := (blockers task).unknownBlockers

/-- `shouldRecoverExplicitBlockerDeferral`. -/
def shouldRecoverExplicitBlockerDeferral (deferred : HubBatchDeferredTask)
    (candidate : Option HubBatchPlannerCandidate)
    (selectedDependencyBlockerIds : List TaskId) : Bool :=
  deferred.reason == .explicitBlocker && candidate.any fun candidate =>
    candidate.openBlockers.isEmpty && candidate.unknownBlockers.isEmpty &&
      !decide (candidate.id ∈ selectedDependencyBlockerIds)

/-- Whether the plan takes a deferred task back: the agent defers it for a blocker, and it has
none. -/
def takesBack (enrichedCandidates : List HubBatchPlannerCandidate) (selectedTaskIds : List TaskId)
    (deferred : HubBatchDeferredTask) : Bool :=
  -- `collectSelectedTaskBlockerIds`
  let selectedDependencyBlockerIds :=
    (enrichedCandidates.filter fun task => task.id ∈ selectedTaskIds).flatMap (·.blockersResolved)
  shouldRecoverExplicitBlockerDeferral deferred
    (enrichedCandidates.reverse.find? (·.id == deferred.taskId)) selectedDependencyBlockerIds

/-- `resolvePlannedBatchSelection`: the selected tasks, the deferred ones, and whether a deferral
was invalid. -/
def resolvePlannedBatchSelection (eligible : List TaskBoard.HubTaskProjection)
    (enrichedCandidates : List HubBatchPlannerCandidate) (parsed : HubBatchPlannerAgentOutput)
    (maxTasks : Nat) : List TaskBoard.HubTaskProjection × List HubBatchDeferredTask ×
      Option HubBatchDiagnosticReason :=
  let selectedTasks := mapSelectedTasks eligible parsed.selectedTaskIds
  let recovers := takesBack enrichedCandidates parsed.selectedTaskIds
  let deferredTasks := parsed.deferred.filter fun deferred => !recovers deferred
  let invalidExplicitBlockerTaskIds :=
    uniqueStrings ((parsed.deferred.filter recovers).map (·.taskId))
  let capacity := maxTasks - selectedTasks.length
  let recoveredTasks :=
    (eligible.filter fun task => task.id ∈ invalidExplicitBlockerTaskIds).take capacity
  let recoveredTaskIds := recoveredTasks.map (·.id)
  let remainingInvalidTaskIds :=
    invalidExplicitBlockerTaskIds.filter fun taskId => taskId ∉ recoveredTaskIds
  (selectedTasks ++ recoveredTasks,
    deferredTasks ++
      remainingInvalidTaskIds.map fun taskId => { taskId, reason := .overMaxTasks },
    if invalidExplicitBlockerTaskIds = [] then none else some .invalidExplicitBlockerDeferral)

/-! ### The strategies -/

/-- `planConservativeHubFlowBatch`. -/
def planConservativeHubFlowBatch (input : HubBatchPlannerInput) : HubBatchPlannerResult :=
  buildConservativeBatchResult input.candidates input.batchStrategy input.maxTasks none none []

/-- `planLimitedBatch`. -/
def planLimitedBatch (input : HubBatchPlannerInput) : HubBatchPlannerResult :=
  let (selectedTasks, deferredTasks) :=
    partitionEligibleCandidates input.candidates input.maxTasks
  { selectedTasks, deferredTasks, batchStrategyRequested := .limited
    batchStrategyUsed := .limited, maxTasks := input.maxTasks }

/-- `fallbackPlannedHubFlowBatch`. -/
def fallbackPlannedHubFlowBatch (input : HubBatchPlannerInput)
    (fallbackReason : HubBatchFallbackReason) (rationale : Option String := none)
    (deferredTasks : List HubBatchDeferredTask := []) : HubBatchPlannerResult :=
  buildConservativeBatchResult input.candidates .planned input.maxTasks (some fallbackReason)
    rationale deferredTasks

/-- The eligible tasks among the candidates. -/
def HubBatchPlannerInput.eligible (input : HubBatchPlannerInput) :
    List TaskBoard.HubTaskProjection :=
  input.candidates.filter isHubFlowEligibleTask

/-- The eligible tasks as the planner sees them: `enrichHubBatchPlannerCandidates`. -/
def HubBatchPlannerInput.enrichedCandidates (input : HubBatchPlannerInput) :
    List HubBatchPlannerCandidate :=
  input.eligible.map (enrichHubBatchPlannerCandidate input.blockers)

/-- The part of `planPlannedHubFlowBatch` behind the parser. -/
def planParsedOutput (input : HubBatchPlannerInput) (parsed : HubBatchPlannerAgentOutput) :
    HubBatchPlannerResult :=
  match validateHubBatchPlannerOutput parsed (input.eligible.map (·.id)) input.maxTasks with
  | some validationIssue =>
    fallbackPlannedHubFlowBatch input validationIssue parsed.rationale parsed.deferred
  | none =>
    if parsed.selectedTaskIds = [] then
      { selectedTasks := []
        deferredTasks := parsed.deferred
        batchStrategyRequested := .planned
        batchStrategyUsed := .planned
        maxTasks := input.maxTasks
        rationale := parsed.rationale }
    else
      let (selectedTasks, deferredTasks, diagnosticReason) :=
        resolvePlannedBatchSelection input.eligible input.enrichedCandidates parsed input.maxTasks
      { selectedTasks, deferredTasks
        batchStrategyRequested := .planned
        batchStrategyUsed := .planned
        maxTasks := input.maxTasks
        rationale := parsed.rationale
        diagnosticReason }

/-- `planPlannedHubFlowBatch`. It throws when the flow was aborted. -/
def planPlannedHubFlowBatch (input : HubBatchPlannerInput) : Option HubBatchPlannerResult :=
  match input.batchPlanner with
  | .unavailable => some (fallbackPlannedHubFlowBatch input .plannerUnavailable)
  | .failed => some (fallbackPlannedHubFlowBatch input .plannerFailed)
  | .aborted => none
  | .stdout text =>
    match parseHubBatchPlannerOutput text with
    | none => some (fallbackPlannedHubFlowBatch input .malformedOutput)
    | some parsed => some (planParsedOutput input parsed)

/-- `planHubFlowBatch`. -/
def planHubFlowBatch (input : HubBatchPlannerInput) : Option HubBatchPlannerResult :=
  match input.batchStrategy with
  | .conservative => some (planConservativeHubFlowBatch input)
  | .limited => some (planLimitedBatch input)
  | .planned => planPlannedHubFlowBatch input

/-! ### The board again -/

/-- `HubBatchSelectionInvalidReason`. -/
inductive HubBatchSelectionInvalidReason where
  | duplicateSelection
  | overMaxTasks
  | notInCandidateSet
  | activeClaim
  | notReadyForAgent
  deriving DecidableEq, Repr

/-- The reason against one task of a selection. Of several candidates with one id the map holds the
last one. -/
def invalidTaskReason (freshCandidates : List TaskBoard.HubTaskProjection) (taskId : TaskId) :
    Option HubBatchSelectionInvalidReason :=
  match freshCandidates.reverse.find? (·.id == taskId) with
  | none => some .notInCandidateSet
  | some task =>
    if task.claimState = some .active then some .activeClaim
    else if task.hubStatus ≠ .readyForAgent then some .notReadyForAgent
    else if isHubFlowEligibleTask task then none
    else some .notInCandidateSet

/-- The `invalidReasons` of `validateHubBatchSelectionFreshness`. -/
def validateHubBatchSelectionFreshness (selectedTaskIds : List TaskId)
    (freshCandidates : List TaskBoard.HubTaskProjection) (maxTasks : Nat) :
    List HubBatchSelectionInvalidReason :=
  let duplicates : List HubBatchSelectionInvalidReason :=
    if selectedTaskIds.Nodup then [] else [.duplicateSelection]
  let tooMany : List HubBatchSelectionInvalidReason :=
    if maxTasks < selectedTaskIds.length then [.overMaxTasks] else []
  (duplicates ++ tooMany ++
    selectedTaskIds.filterMap (invalidTaskReason freshCandidates)).eraseDups

/-- The `selectedTasks` of `resolveFreshValidatedHubBatchSelection`, and why they are not those
that were planned. -/
def resolveFreshValidatedHubBatchSelection (initialSelectedTaskIds : List TaskId)
    (freshCandidates : List TaskBoard.HubTaskProjection) (maxTasks : Nat) :
    List TaskBoard.HubTaskProjection × List HubBatchSelectionInvalidReason :=
  match validateHubBatchSelectionFreshness initialSelectedTaskIds freshCandidates maxTasks with
  | [] => (mapSelectedTasks freshCandidates initialSelectedTaskIds, [])
  | invalidReasons =>
    ((buildConservativeBatchResult freshCandidates .conservative maxTasks none none
      []).selectedTasks, invalidReasons)

end ArchLoop.BatchPlanner
