import ArchLoop.TaskSync
import ArchLoop.TaskTransitions

/-!
# `ArchLoop.TaskPull`: pulling issues into the store

The model of `pullGithubIssues` in `hubTaskSync.ts`, with the commands of `bd` that it makes. A pull
loads the board once. Each listed issue is looked up among the tasks of that board by its number:
a linked task is refreshed, an issue without one is imported, unless a task has the same title.

The ids of new tasks are a parameter. A title or a description goes to `bd` as it is. Dry runs and
the ids of duplicate candidates are left out.
-/

set_option autoImplicit false

namespace ArchLoop.TaskSync

open ArchLoop.Lib ArchLoop.TaskBoard
open ArchLoop.TaskAttempts hiding refreshLinkedGithubIssue recordHubTaskSyncConflict

/-! ### Issues and tasks -/

/-- An issue of `listIssues`, a `GithubIssueRecord` with its number. -/
structure ListedIssue extends GithubIssueRecord where
  number : Nat
  deriving DecidableEq, Repr

/-- The text of a sync state. -/
def syncStateText : HubSyncState → String
  | .localOnly => "local_only"
  | .synced => "synced"
  | .pullPending => "pull_pending"
  | .pushPending => "push_pending"
  | .conflict => "conflict"

/-- `readSyncState`. -/
def readSyncState (metadata : Record) : Option HubSyncState :=
  ((coalesce metadata ["sync_state", "syncState"]).bind Json.text?).bind fun text =>
    [.localOnly, .synced, .pullPending, .pushPending, .conflict].find? (syncStateText · = text)

/-- `readRemoteUpdatedAt`. -/
def readRemoteUpdatedAt (metadata : Record) : Option String :=
  ((coalesce metadata ["remote_updated_at", "remoteUpdatedAt"]).bind Json.text?).bind nonBlank

/-- The task is linked to the issue. -/
def isLinkedTo (task : TaskBoard.HubTaskProjection) (number : Nat) : Bool :=
  task.remoteRefs.any fun ref => parseGithubRemoteRef ref = some number

/-- A lookup in `buildGithubIssueIndex`: of several linked tasks the last one counts. -/
def indexedTask (tasks : List TaskBoard.HubTaskProjection) (number : Nat) :
    Option TaskBoard.HubTaskProjection :=
  tasks.reverse.find? (isLinkedTo · number)

/-- `findTitleDuplicateCandidates`. -/
def findTitleDuplicateCandidates (tasks : List TaskBoard.HubTaskProjection) (issueTitle : String) :
    List TaskBoard.HubTaskProjection :=
  tasks.filter fun task => normalizeKey task.title = normalizeKey issueTitle

/-! ### Importing -/

/-- The issue that `bd create` makes for `importGithubIssueToBeads`. -/
def importedIssue (issue : ListedIssue) (id : TaskId) : BeadsIssue where
  id := id
  title := issue.title
  description := issue.body.getD ""
  labels := [(resolveRemoteCollaborationLabel
    (resolveRemoteCollaborationStatus issue.toGithubIssueRecord)).getD "needs-triage"]
  metadata :=
    [("origin", .str "github-issues"), ("github_issue", .num issue.number),
      ("remote_refs", .arr [.str (formatGithubRemoteRef issue.number)]),
      ("sync_state", .str (syncStateText .synced)),
      ("hubStatus", .str (statusText
        (resolveRemoteCollaborationStatus issue.toGithubIssueRecord)))] ++
    match issue.updatedAt with
    | some time => if time = "" then [] else [("remote_updated_at", .str time)]
    | none => []

/-- `importGithubIssueToBeads`, with the id of the task. -/
def importGithubIssueToBeads (newId : BeadsStore → TaskId) (issue : ListedIssue) :
    BoardProg TaskId :=
  bdCommand "tasks sync pull" (fun s => s.addIssue (importedIssue issue (newId s))) newId

/-! ### Refreshing -/

/-- `setHubTaskSyncMetadata`. -/
def setHubTaskSyncMetadata (task : TaskBoard.HubTaskProjection) (metadataPatch : Record) :
    BoardProg Unit :=
  bdUpdate ("tasks sync " ++ task.id) task.id { metadata := task.metadata.merge metadataPatch }

/-- The transition of `recordHubTaskSyncConflict` (`hubTaskLifecycle.ts`). A completed task keeps
its status. -/
def conflictInput (task : TaskBoard.HubTaskProjection) (reason : String) :
    UpdateHubTaskStatusInput where
  taskId := task.id
  hubStatus := if isCompletedHubStatus task.hubStatus then task.hubStatus else .syncConflict
  metadata :=
    [("sync_state", .str (syncStateText .conflict)), ("sync_conflict_reason", .str reason)]
  labelsToRemove :=
    if isCompletedHubStatus task.hubStatus then []
    else HUB_COLLABORATION_LABELS_TO_CLEAR.filter (· ∈ task.labels)

/-- `recordHubTaskSyncConflict`. -/
def recordHubTaskSyncConflict (taskId : TaskId) (reason : String) : BoardProg Unit :=
  (loadHubTask taskId).bind fun task =>
    (transitionHubTaskStatus { conflictInput task reason with taskId := taskId }).bind fun _ =>
      .ret ()

/-- The reason of `detectSemanticSyncConflict`. -/
def conflictReason (localStatus remoteStatus : HubTaskStatus) : String :=
  "local " ++ statusText localStatus ++ " disagrees with remote " ++ statusText remoteStatus

inductive RefreshOutcome where
  | updated
  | conflict
  | unchanged
  deriving DecidableEq, Repr

/-- The time of the issue, as `metadataPatch` has it. -/
def timePatch (issue : ListedIssue) : Record :=
  match issue.updatedAt with
  | some time => [("remote_updated_at", .str time)]
  | none => []

/-- The metadata that a refresh leaves on a task that agrees with its issue. -/
def syncedPatch (issue : ListedIssue) : Record :=
  timePatch issue ++ [("sync_state", .str (syncStateText .synced))]

/-- The pull leaves the fields of the task alone: its push is pending, or it is being worked on. -/
def keepsLocal (task : TaskBoard.HubTaskProjection) : Bool :=
  readSyncState task.metadata = some .pushPending ||
    readSyncState task.metadata = some .localOnly || isHubExecutionStatus task.hubStatus

/-- `remoteChanged`. -/
def remoteChanged (task : TaskBoard.HubTaskProjection) (issue : ListedIssue) : Bool :=
  issue.updatedAt.isSome && issue.updatedAt ≠ readRemoteUpdatedAt task.metadata

/-- `conflict`: the statuses disagree. -/
def disagrees (task : TaskBoard.HubTaskProjection) (issue : ListedIssue) : Bool :=
  detectSemanticSyncConflict task.hubStatus
    (resolveRemoteCollaborationStatus issue.toGithubIssueRecord)

def descriptionChanged (task : TaskBoard.HubTaskProjection) (issue : ListedIssue) : Bool :=
  issue.body.any fun body => task.description.getD "" ≠ body

/-- The update of a task whose title or description differs. An empty body is not written. -/
def fieldsUpdate (task : TaskBoard.HubTaskProjection) (issue : ListedIssue) : BdUpdate where
  title := if task.title ≠ issue.title then some issue.title else none
  description := if descriptionChanged task issue then issue.body.filter (· ≠ "") else none
  metadata := task.metadata.merge (syncedPatch issue)

/-- A task that is left alone otherwise gets the time of the issue. -/
def takesTime (task : TaskBoard.HubTaskProjection) (issue : ListedIssue) : Bool :=
  remoteChanged task issue && readSyncState task.metadata ≠ some .localOnly

/-- A conflict is recorded. -/
def reportsConflict (task : TaskBoard.HubTaskProjection) (issue : ListedIssue) : Bool :=
  disagrees task issue &&
    (remoteChanged task issue || readSyncState task.metadata = some .synced)

/-- The title or the description is written. -/
def fieldsDiffer (task : TaskBoard.HubTaskProjection) (issue : ListedIssue) : Bool :=
  task.title ≠ issue.title || descriptionChanged task issue

/-- The time or the sync state is written. -/
def syncDiffers (task : TaskBoard.HubTaskProjection) (issue : ListedIssue) : Bool :=
  readRemoteUpdatedAt task.metadata ≠ issue.updatedAt || readSyncState task.metadata ≠ some .synced

/-- `refreshLinkedGithubIssue`. -/
def refreshLinkedGithubIssue (task : TaskBoard.HubTaskProjection) (issue : ListedIssue) :
    BoardProg RefreshOutcome :=
  if keepsLocal task then
    if takesTime task issue then
      (setHubTaskSyncMetadata task (timePatch issue)).bind fun _ => .ret .updated
    else .ret .unchanged
  else if reportsConflict task issue then
    (recordHubTaskSyncConflict task.id (conflictReason task.hubStatus
      (resolveRemoteCollaborationStatus issue.toGithubIssueRecord))).bind fun _ => .ret .conflict
  else if fieldsDiffer task issue then
    (bdUpdate ("tasks sync pull " ++ task.id) task.id (fieldsUpdate task issue)).bind fun _ =>
      .ret .updated
  else if syncDiffers task issue then
    (setHubTaskSyncMetadata task (syncedPatch issue)).bind fun _ => .ret .updated
  else .ret .unchanged

/-! ### `pullGithubIssues` -/

/-- What a pull reports. -/
structure PulledResult where
  created : List TaskId := []
  updated : List TaskId := []
  conflicts : List TaskId := []
  duplicates : List Nat := []
  deriving DecidableEq, Repr

/-- One turn of the loop. -/
def pullIssue (newId : BeadsStore → TaskId) (includeClosed : Bool)
    (board : List TaskBoard.HubTaskProjection) (pulled : PulledResult) (issue : ListedIssue) :
    BoardProg PulledResult :=
  if !includeClosed && !issue.isOpen then .ret pulled
  else
    match indexedTask board issue.number with
    | none =>
      if (findTitleDuplicateCandidates board issue.title).isEmpty then
        (importGithubIssueToBeads newId issue).bind fun taskId =>
          .ret { pulled with created := pulled.created ++ [taskId] }
      else .ret { pulled with duplicates := pulled.duplicates ++ [issue.number] }
    | some linked =>
      (refreshLinkedGithubIssue linked issue).bind fun outcome =>
        .ret <| match outcome with
          | .conflict => { pulled with conflicts := pulled.conflicts ++ [linked.id] }
          | .updated => { pulled with updated := pulled.updated ++ [linked.id] }
          | .unchanged => pulled

/-- The loop over the issues. -/
def pullIssues (newId : BeadsStore → TaskId) (includeClosed : Bool)
    (board : List TaskBoard.HubTaskProjection) :
    PulledResult → List ListedIssue → BoardProg PulledResult
  | pulled, [] => .ret pulled
  | pulled, issue :: issues =>
    (pullIssue newId includeClosed board pulled issue).bind fun pulled =>
      pullIssues newId includeClosed board pulled issues

/-- `pullGithubIssues`. -/
def pullGithubIssues (newId : BeadsStore → TaskId) (issues : List ListedIssue)
    (includeClosed : Bool) : BoardProg PulledResult :=
  loadHubTaskBoard.bind fun board => pullIssues newId includeClosed board {} issues

end ArchLoop.TaskSync
