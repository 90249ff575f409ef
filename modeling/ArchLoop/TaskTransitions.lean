import ArchLoop.BeadsStore

/-!
# `ArchLoop.TaskTransitions`: loading a task, and moving it to a status

The second half of `taskBoard.ts`. `loadHubTask` finds a task by its id or title, and
`transitionHubTaskStatus` moves a task to a status: it loads the task, writes the status with the
whole metadata that it computed, removes the keys that went away, loads the task again and checks
what the board shows now. Each of these is a command of its own, so others may come in between.

The reads of comment threads and references, which may fail unnoticed, are left out, and a board
has the tasks in the order of the store.
-/

set_option autoImplicit false

namespace ArchLoop.TaskBoard

open ArchLoop.Lib

/-! ### Arguments of `bd update` -/

/-- `split` at a character. -/
def splitAt (separator : Char) (text : String) : List String :=
  (text.toList.splitOn separator).map String.ofList

/-- `normalizeBdLabels`. -/
def normalizeBdLabels (labels : List String) : List String :=
  ((labels.flatMap (splitAt ',')).map trim).filter (· ≠ "")

/-- The arguments of one `bd update`. -/
structure BdUpdate where
  title : Option String := none
  description : Option String := none
  status : Option String := none
  setLabels : List String := []
  addLabels : List String := []
  removeLabels : List String := []
  metadata : Record := []
  unsetMetadata : List String := []

/-- What `bd update` does to an issue. Without a `--set-labels` the labels stay. -/
def BdUpdate.apply (update : BdUpdate) (issue : BeadsIssue) : BeadsIssue :=
  let labels := if update.setLabels.isEmpty then issue.labels else update.setLabels
  { issue with
    title := update.title.getD issue.title
    description := update.description.getD issue.description
    status := update.status.getD issue.status
    labels := (labels ++ update.addLabels.filter (· ∉ labels)).filter (· ∉ update.removeLabels)
    metadata := (issue.metadata.merge update.metadata).erase update.unsetMetadata }

/-- `bd update`. An issue that is not there is an error. -/
def bdUpdate (failureLabel : String) (taskId : TaskId) (update : BdUpdate) : BoardProg Unit :=
  (bdCommand failureLabel (fun s => s.changeIssue taskId update.apply) fun s =>
    (s.issue taskId).isSome).bind fun found =>
      if found then .ret () else .raise ("archloop " ++ failureLabel ++ " failed")

/-- The keys that `--unset-metadata` gets. -/
def unsetMetadataArgs (keys : List String) : List String :=
  uniqueStrings ((keys.map trim).filter (· ≠ ""))

/-! ### Loading -/

/-- `bd show`. An issue that is not there is an error. -/
def showTask (failureLabel : String) (id : TaskId) : BoardProg BeadsIssue :=
  (bdCommand failureLabel (fun s => s) fun s => s.issue id).bind fun found =>
    match found with
    | some issue => .ret issue
    | none => .raise ("archloop " ++ failureLabel ++ " failed")

/-- The tasks of `loadHubTaskBoard`. -/
def loadHubTaskBoard : BoardProg (List HubTaskProjection) :=
  bdCommand "tasks list" (fun s => s) fun s => s.issues.map BeadsIssue.projection

/-- The task that the board has for a selector. -/
def selectFromBoard (selector trimmedSelector : String) (tasks : List HubTaskProjection) :
    BoardProg HubTaskProjection :=
  match tasks.find? (·.id = trimmedSelector) with
  | some task => .ret task
  | none =>
    match tasks.filter (·.title = trimmedSelector) with
    | [task] => .ret task
    | [] =>
      .raise ("archloop tasks selector \"" ++ selector ++
        "\" did not match a Beads id or an exact task title.")
    | matched =>
      .raise ("archloop tasks selector \"" ++ selector ++
        "\" matched multiple tasks with the same exact title: " ++
        ", ".intercalate (matched.map (·.id)) ++ ". Use a Beads id instead.")

/-- `resolveHubTaskSelector`. A failing `bd show` counts as no answer. -/
def resolveHubTaskSelector (selector : String) : BoardProg HubTaskProjection :=
  if trim selector = "" then .raise "archloop tasks require a Beads id or exact task title."
  else
    (showTask ("tasks show " ++ trim selector) (trim selector)).attempt.bind fun shown =>
      match shown with
      | .ok issue => .ret issue.projection
      | .error _ => loadHubTaskBoard.bind (selectFromBoard selector (trim selector))

/-- `loadHubTask`. -/
def loadHubTask (selector : String) : BoardProg HubTaskProjection :=
  (resolveHubTaskSelector selector).bind fun resolvedTask =>
    (showTask ("tasks show " ++ resolvedTask.id) resolvedTask.id).bind fun issue =>
      .ret issue.projection

/-! ### Status tables -/

/-- `HUB_STATUS_LABELS`. -/
def HUB_STATUS_LABELS : HubTaskStatus → String
  | .inbox => "needs-triage"
  | .needsInfo => "needs-info"
  | .readyForAgent => "ready-for-agent"
  | .readyForHuman => "ready-for-human"
  | .blocked => "blocked"
  | .implementing => "implementing"
  | .reviewing => "reviewing"
  | .waitingForMerge => "waiting-for-merge"
  | .merging => "merging"
  | .publishing => "publishing"
  | .failed => "failed"
  | .done => "done"
  | .wontfix => "wontfix"
  | .syncConflict => "sync-conflict"

/-- `ARCHLOOP_MANAGED_STATUS_LABELS`. -/
def ARCHLOOP_MANAGED_STATUS_LABELS : List String :=
  HUB_TASK_STATUSES.map fun status => normalizeKey (HUB_STATUS_LABELS status)

/-- `HUB_STATUS_BEADS_LIFECYCLE`. -/
def HUB_STATUS_BEADS_LIFECYCLE : HubTaskStatus → String
  | .implementing | .reviewing | .waitingForMerge | .merging | .publishing => "in_progress"
  | .failed | .readyForAgent | .readyForHuman | .needsInfo | .inbox => "open"
  | .blocked | .syncConflict => "blocked"
  | .done | .wontfix => "closed"

def FAILURE_METADATA_KEYS : List String := ["failureReason", "failure_reason", "failed"]

def BLOCKED_METADATA_KEYS : List String :=
  ["blocked_reason", "blockedReason", "blocked_reason_kind", "blockedReasonKind", "blocked"]

def NEEDS_INFO_METADATA_KEYS : List String :=
  ["needs_info", "needsInfo", "needs_info_reason", "needsInfoReason"]

def SYNC_CONFLICT_METADATA_KEYS : List String :=
  ["sync_conflict", "syncConflict", "sync_conflict_reason", "syncConflictReason"]

def WONTFIX_METADATA_KEYS : List String := ["wontfix", "wontFix", "rejected"]

def DONE_METADATA_KEYS : List String := ["done"]

/-- `STRUCTURED_METADATA_PATCH_KEYS`. -/
def STRUCTURED_METADATA_PATCH_KEYS : List String :=
  ["claim", "hubClaim", "hub_claim", "taskClaim", "remoteRefs", "remote_refs",
    "remoteReferences", "runRefs", "run_refs", "runReferences"]

/-- `CLAIM_REQUIRED_STATUSES`. -/
def CLAIM_REQUIRED_STATUSES : List HubTaskStatus :=
  [.implementing, .reviewing, .waitingForMerge, .merging, .publishing]

/-- `CLAIM_PRESERVING_STATUSES`. -/
def CLAIM_PRESERVING_STATUSES : List HubTaskStatus :=
  CLAIM_REQUIRED_STATUSES ++ [.failed]

/-- `shouldClearClaimForStatus`. -/
def shouldClearClaimForStatus (status : HubTaskStatus) : Bool :=
  decide (status ∉ CLAIM_PRESERVING_STATUSES)

/-- `HubFailureReason`. -/
inductive HubFailureReason where
  | agentFailed
  | sandboxFailed
  | mergeConflict
  | mergeFailed
  | verificationFailure
  | closeFailed
  | unknown
  deriving DecidableEq, Repr

/-- The text of a failure reason. -/
def HubFailureReason.text : HubFailureReason → String
  | .agentFailed => "agent_failed"
  | .sandboxFailed => "sandbox_failed"
  | .mergeConflict => "merge_conflict"
  | .mergeFailed => "merge_failed"
  | .verificationFailure => "verification_failure"
  | .closeFailed => "close_failed"
  | .unknown => "unknown"

/-! ### `transitionHubTaskStatus` -/

/-- `labelsToSetForHubStatus`. -/
def labelsToSetForHubStatus (labels : List String) (hubStatus : HubTaskStatus)
    (labelsToRemove : List String) : List String :=
  let userLabels := labels.filter fun label =>
    normalizeKey label ∉ ARCHLOOP_MANAGED_STATUS_LABELS && label ∉ labelsToRemove
  uniqueStrings (userLabels ++ [HUB_STATUS_LABELS hubStatus])

/-- The value is a given text. -/
def isText (value : Option Json) (text : String) : Bool :=
  (value.bind Json.text?) == some text

/-- `clearStaleHubStatusMetadata`. -/
def clearStaleHubStatusMetadata (metadata : Record) (hubStatus : HubTaskStatus) : Record :=
  metadata.erase <|
    (if hubStatus = .failed then [] else FAILURE_METADATA_KEYS) ++
    (if hubStatus = .blocked then [] else BLOCKED_METADATA_KEYS) ++
    (if hubStatus = .needsInfo then [] else NEEDS_INFO_METADATA_KEYS) ++
    (if hubStatus = .syncConflict || isText (metadata.get "sync_state") "conflict" then []
      else SYNC_CONFLICT_METADATA_KEYS) ++
    (if hubStatus = .wontfix then [] else WONTFIX_METADATA_KEYS) ++
    (if hubStatus = .done then [] else DONE_METADATA_KEYS)

/-- `UpdateHubTaskStatusInput`. -/
structure UpdateHubTaskStatusInput where
  taskId : TaskId
  hubStatus : HubTaskStatus
  metadata : Record := []
  failureReason : Option HubFailureReason := none
  labelsToRemove : List String := []
  replaceClaimMetadata : Bool := false

/-- `readPatchClaimRecord`. -/
def readPatchClaimRecord (metadata : Record) : Option Record :=
  match metadata.get "claim" with
  | some (.obj claim) => some claim
  | _ => none

/-- `resolveTransitionClaim`. -/
def resolveTransitionClaim (task : HubTaskProjection) (input : UpdateHubTaskStatusInput) :
    Option Record :=
  if shouldClearClaimForStatus input.hubStatus then none
  else
    let patchClaim := readPatchClaimRecord input.metadata
    let existingClaim := (task.claim.map (·.raw)).filter (!·.isEmpty)
    if input.replaceClaimMetadata then patchClaim.or existingClaim
    else existingClaim.or patchClaim

/-- The metadata with the claim set, or without one. -/
def setClaim (metadata : Record) : Option Record → Record
  | some claim => metadata.set "claim" (.obj claim)
  | none => metadata.erase ["claim"]

/-- The metadata with the failure set, or without one. -/
def setFailure (metadata : Record) : Option HubFailureReason → Record
  | some reason => (metadata.set "failureReason" (.str reason.text)).set "failed" (.bool true)
  | none => metadata.erase ["failureReason", "failed"]

/-- The metadata that a transition writes. -/
def transitionMetadata (task : HubTaskProjection) (input : UpdateHubTaskStatusInput) : Record :=
  let metadataPatch :=
    (input.metadata.erase TASK_STATUS_KEYS).erase STRUCTURED_METADATA_PATCH_KEYS
  let merged := (task.metadata.merge metadataPatch).set "hubStatus"
    (.str (statusText input.hubStatus))
  let cleared := clearStaleHubStatusMetadata merged input.hubStatus
  setFailure (setClaim cleared (resolveTransitionClaim task input)) input.failureReason

/-- `removedMetadataKeys`. -/
def removedMetadataKeys (previous next : Record) : List String :=
  previous.keys.filter fun key => (next.get key).isNone

/-- The update that a transition writes. -/
def transitionUpdate (task : HubTaskProjection) (input : UpdateHubTaskStatusInput) : BdUpdate where
  status := some (HUB_STATUS_BEADS_LIFECYCLE input.hubStatus)
  setLabels := normalizeBdLabels
    (labelsToSetForHubStatus task.labels input.hubStatus input.labelsToRemove)
  metadata := transitionMetadata task input

/-- The labels of a task that stand for a status. -/
def managedLabels (task : HubTaskProjection) : List String :=
  task.labels.filter fun label => normalizeKey label ∈ ARCHLOOP_MANAGED_STATUS_LABELS

/-- `assertHubTaskClaimPolicy`. -/
def assertHubTaskClaimPolicy (task : HubTaskProjection) (expectedStatus : HubTaskStatus) :
    Except String Unit :=
  let claimed := task.claim.any fun claim =>
    claim.runId.isSome && claim.batchId.isSome && claim.branch.isSome
  if shouldClearClaimForStatus expectedStatus && task.claim.isSome then
    .error ("Hub task transition for " ++ task.id ++ " wrote " ++ statusText expectedStatus ++
      ", but claim metadata was not cleared. Run archloop tasks repair-state " ++ task.id ++
      " to realign claim metadata.")
  else if expectedStatus ∈ CLAIM_REQUIRED_STATUSES && !claimed then
    .error ("Hub task transition for " ++ task.id ++ " wrote " ++ statusText expectedStatus ++
      ", but claim metadata is missing runId, batchId, or branch. Run archloop tasks recover " ++
      task.id ++ " to re-establish the claim, or archloop tasks repair-state " ++ task.id ++
      " to realign state.")
  else .ok ()

/-- `assertHubFailureMetadataPolicy`. -/
def assertHubFailureMetadataPolicy (task : HubTaskProjection) (expectedStatus : HubTaskStatus) :
    Except String Unit :=
  let metadata := task.metadata
  if expectedStatus = .failed then
    if ((metadata.get "failed").any Json.truthy &&
        ((metadata.get "failureReason").bind Json.text?).isSome) then .ok ()
    else
      .error ("Hub task transition for " ++ task.id ++
        " wrote failed, but failure metadata is incomplete. Run archloop tasks recover " ++
        task.id ++ " to retry, or archloop tasks repair-state " ++ task.id ++
        " to realign state.")
  else if ["failed", "failureReason", "failure_reason"].any fun key =>
      (metadata.get key).isSome then
    .error ("Hub task transition for " ++ task.id ++ " wrote " ++ statusText expectedStatus ++
      ", but stale failure metadata remains. Run archloop tasks repair-state " ++ task.id ++
      " to clear stale metadata.")
  else .ok ()

/-- `assertHubTaskTransition`, with the assertions about the status and its label. -/
def assertHubTaskTransition (task : HubTaskProjection) (expectedStatus : HubTaskStatus) :
    Except String Unit := do
  if task.hubStatus ≠ expectedStatus then
    throw ("Hub task transition for " ++ task.id ++ " wrote " ++ statusText expectedStatus ++
      ", but the projected Hub task board status is " ++ statusText task.hubStatus ++
      ". Run archloop tasks doctor to diagnose, or archloop tasks repair-state " ++ task.id ++
      " to realign state.")
  let expectedLabel := HUB_STATUS_LABELS expectedStatus
  if (managedLabels task).map normalizeKey ≠ [normalizeKey expectedLabel] then
    throw ("Hub task transition for " ++ task.id ++ " wrote " ++ statusText expectedStatus ++
      ", but Beads labels contain " ++ toString (managedLabels task).length ++
      " archLoop status labels (" ++ ", ".intercalate (managedLabels task) ++
      "). Expected exactly " ++ expectedLabel ++ ". Run archloop tasks repair-state " ++ task.id ++
      " to realign labels.")
  assertHubTaskClaimPolicy task expectedStatus
  assertHubFailureMetadataPolicy task expectedStatus

/-- The program that returns or throws what was computed. -/
def returning {α : Type} : Except String α → BoardProg α
  | .ok a => .ret a
  | .error message => .raise message

/-- What a transition does with the task that it loaded. -/
def writeTransition (task : HubTaskProjection) (input : UpdateHubTaskStatusInput) :
    BoardProg HubTaskProjection :=
  let failureLabel := "tasks transition " ++ input.taskId
  let removed := removedMetadataKeys task.metadata (transitionMetadata task input)
  (bdUpdate failureLabel input.taskId (transitionUpdate task input)).bind fun _ =>
  (Prog.when (!removed.isEmpty)
    (bdUpdate failureLabel input.taskId { unsetMetadata := unsetMetadataArgs removed })).bind
  fun _ =>
  (loadHubTask input.taskId).bind fun updatedTask =>
  (returning (assertHubTaskTransition updatedTask input.hubStatus)).bind fun _ =>
  .ret updatedTask

/-- `transitionHubTaskStatus`, which `updateHubTaskStatus` calls. -/
def transitionHubTaskStatus (input : UpdateHubTaskStatusInput) : BoardProg HubTaskProjection :=
  (loadHubTask input.taskId).bind fun task => writeTransition task input

/-- `closeHubTask`. -/
def closeHubTask (taskId : TaskId) (metadata : Record) : BoardProg HubTaskProjection :=
  transitionHubTaskStatus
    { taskId := taskId, hubStatus := .done, metadata := metadata.set "done" (.bool true) }

end ArchLoop.TaskBoard
