import ArchLoop.TaskBoard

/-!
# `ArchLoop.TaskAttempts`: the attempts at a task, and the branch that each one works on

The model of the start of an attempt in `hubFlowExecution.ts` (`implementSelectedTask` up to the
implementer, `resumeReviewSelectedTask` up to the reviewer, `resolveHubTaskRetryGate`), of
`hubTaskRetry.ts`, and of what can happen to a task and its branch between two attempts: its title
is edited, or pulled from its issue (`refreshLinkedGithubIssue` of `hubTaskSync.ts`), and a recovery
or a person changes its status.

An implementation works on the branch that `resolveHubTaskBranch` makes from the id and the title
that the task has now. The claim keeps that name, and a review goes on with it.

A claim and an attempt also have the title that the task had when it was claimed. No
function reads it: it says where the name of the branch comes from.
-/

set_option autoImplicit false

namespace ArchLoop.TaskAttempts

open ArchLoop.TaskBoard

/-! ### Tasks and their issues -/

/-- `HubSyncState`. -/
inductive HubSyncState where
  | localOnly
  | synced
  | pullPending
  | pushPending
  | conflict
  deriving DecidableEq, Repr

/-- The branch of `HubTaskClaimMetadata`, with the title that it was made from. -/
structure BranchClaim where
  branch : String
  title : String
  deriving DecidableEq, Repr

/-- The fields of a task that its attempts and its issue read and write. -/
structure AttemptTask where
  title : String
  description : Option String := none
  hubStatus : HubTaskStatus
  syncState : Option HubSyncState := none
  remoteUpdatedAt : Option String := none
  claim : Option BranchClaim := none
  deriving DecidableEq, Repr

/-- `GithubIssueRecord`. -/
structure GithubIssueRecord where
  title : String
  body : Option String := none
  isOpen : Bool
  labels : List String := []
  updatedAt : Option String := none
  deriving DecidableEq, Repr

/-- `HUB_EXECUTION_STATUSES`. -/
def HUB_EXECUTION_STATUSES : List HubTaskStatus :=
  [.implementing, .reviewing, .waitingForMerge, .merging, .publishing, .failed]

/-- `isHubExecutionStatus`. -/
def isHubExecutionStatus (status : HubTaskStatus) : Bool :=
  status ∈ HUB_EXECUTION_STATUSES

/-- `REMOTE_COLLABORATION_LABELS`. -/
def REMOTE_COLLABORATION_LABELS : List (String × HubTaskStatus) :=
  [("needs_triage", .inbox), ("inbox", .inbox), ("needs_info", .needsInfo),
    ("ready_for_agent", .readyForAgent), ("ready_for_human", .readyForHuman),
    ("blocked", .blocked), ("wontfix", .wontfix), ("sync_conflict", .syncConflict)]

/-- `resolveRemoteCollaborationStatus`. -/
def resolveRemoteCollaborationStatus (issue : GithubIssueRecord) : HubTaskStatus :=
  if issue.isOpen then
    (issue.labels.findSome? fun label =>
      REMOTE_COLLABORATION_LABELS.lookup (normalizeKey label)).getD .inbox
  else if issue.labels.any fun label => normalizeKey label = "wontfix" then .wontfix
  else .done

/-- `detectSemanticSyncConflict`: there is a conflict. -/
def detectSemanticSyncConflict (localStatus remoteStatus : HubTaskStatus) : Bool :=
  if localStatus = remoteStatus then false
  else if isHubExecutionStatus localStatus then false
  else !(isCompletedHubStatus localStatus && !isCompletedHubStatus remoteStatus)

/-- `recordHubTaskSyncConflict`. -/
def recordHubTaskSyncConflict (task : AttemptTask) : AttemptTask :=
  { task with
    hubStatus := if isCompletedHubStatus task.hubStatus then task.hubStatus else .syncConflict
    syncState := some .conflict }

/-- The new time of the issue, as `metadataPatch` has it. -/
def AttemptTask.noteUpdate (task : AttemptTask) (issue : GithubIssueRecord) : AttemptTask :=
  { task with remoteUpdatedAt := issue.updatedAt.or task.remoteUpdatedAt }

/-- `refreshLinkedGithubIssue`. -/
def refreshLinkedGithubIssue (task : AttemptTask) (issue : GithubIssueRecord) : AttemptTask :=
  let remoteChanged := issue.updatedAt.isSome && issue.updatedAt ≠ task.remoteUpdatedAt
  if task.syncState = some .pushPending || task.syncState = some .localOnly ||
      isHubExecutionStatus task.hubStatus then
    if remoteChanged && task.syncState ≠ some .localOnly then task.noteUpdate issue else task
  else if detectSemanticSyncConflict task.hubStatus (resolveRemoteCollaborationStatus issue) &&
      (remoteChanged || task.syncState = some .synced) then recordHubTaskSyncConflict task
  else
    let descriptionChanged := issue.body.any fun body => task.description.getD "" ≠ body
    if task.title ≠ issue.title || descriptionChanged then
      { task.noteUpdate issue with
        title := issue.title
        -- An empty body does not clear the description.
        description := if descriptionChanged && issue.body ≠ some "" then issue.body
          else task.description
        syncState := some .synced }
    else { task.noteUpdate issue with syncState := some .synced }

/-! ### Branches and worktrees -/

/-- An attempt at a task, with the title that its claim was made from. -/
structure Attempt where
  taskId : TaskId
  title : String
  deriving DecidableEq, Repr

/-- The tasks, the branches and their worktrees.

- `commits`: the attempts that have left unmerged commits on a branch.
- `worktrees`: those that have left uncommitted work in the worktree of a branch, if there is one.
- `leases`: the attempt that is running in the worktree of a branch. -/
structure AttemptWorld where
  tasks : TaskId → Option AttemptTask := fun _ => none
  commits : String → List Attempt := fun _ => []
  worktrees : String → Option (List Attempt) := fun _ => none
  leases : String → Option Attempt := fun _ => none

namespace AttemptWorld

variable (w : AttemptWorld)

/-- The branch or its worktree has work of the attempt that no target has. -/
def Holds (branch : String) (attempt : Attempt) : Prop :=
  attempt ∈ w.commits branch ∨ attempt ∈ (w.worktrees branch).getD []

/-- The record of a task is written. -/
def setTask (taskId : TaskId) (task : AttemptTask) : AttemptWorld :=
  { w with tasks := Function.update w.tasks taskId (some task) }

/-- What changes in the record of a task, if there is one. -/
def modifyTask (taskId : TaskId) (f : AttemptTask → AttemptTask) : AttemptWorld :=
  match w.tasks taskId with
  | some task => w.setTask taskId (f task)
  | none => w

end AttemptWorld

/-! ### The start of an attempt -/

/-- `HubTaskRetryPreparation`. -/
inductive HubTaskRetryPreparation where
  | ready (isRetry hasDirtyWork : Bool)
  | activeExecution
  deriving DecidableEq, Repr

/-- `prepareHubTaskRetry`. A lease of an attempt that has ended is stale, and cleared. -/
def prepareHubTaskRetry (w : AttemptWorld) (branch : String) : HubTaskRetryPreparation :=
  match w.leases branch with
  | some _ => .activeExecution
  | none => .ready (w.worktrees branch).isSome ((w.worktrees branch).any fun left => left ≠ [])

/-- `implementSelectedTask` up to the implementer: the claim that it writes, if the attempt starts.
A task that another run has claimed is skipped. -/
def implementSelectedTask (w : AttemptWorld) (taskId : TaskId) : Option BranchClaim :=
  match w.tasks taskId with
  | none => none
  | some task =>
    if task.hubStatus = .readyForAgent then
      let branch := resolveHubTaskBranch taskId task.title
      match prepareHubTaskRetry w branch with
      | .ready _ _ => some { branch := branch, title := task.title }
      | .activeExecution => none
    else none

/-- `resumeReviewSelectedTask` up to the reviewer: the claim that it goes on with. A task without
one is refused. -/
def resumeReviewSelectedTask (w : AttemptWorld) (taskId : TaskId) : Option BranchClaim :=
  match w.tasks taskId with
  | none => none
  | some task =>
    if task.hubStatus = .reviewing then
      task.claim.filter fun claim => prepareHubTaskRetry w claim.branch ≠ .activeExecution
    else none

namespace AttemptWorld

variable (w : AttemptWorld)

/-- The task is claimed, and its agent gets the worktree of the branch. -/
def begin (taskId : TaskId) (claim : BranchClaim) (status : HubTaskStatus) : AttemptWorld :=
  let claimed := w.modifyTask taskId fun task =>
    { task with hubStatus := status, claim := some claim }
  { claimed with
    worktrees := Function.update claimed.worktrees claim.branch
      (some ((claimed.worktrees claim.branch).getD []))
    leases := Function.update claimed.leases claim.branch
      (some { taskId := taskId, title := claim.title }) }

/-- The attempt that is running in the worktree of the branch leaves work. -/
def progress (branch : String) (committed : Bool) : AttemptWorld :=
  match w.leases branch with
  | none => w
  | some attempt =>
    if committed then
      { w with commits := Function.update w.commits branch (attempt :: w.commits branch) }
    else
      { w with
        worktrees := Function.update w.worktrees branch
          (some (attempt :: (w.worktrees branch).getD [])) }

/-- The attempt that is running in the worktree of the branch ends, or its process dies. -/
def stop (branch : String) : AttemptWorld :=
  { w with leases := Function.update w.leases branch none }

/-- The branch of a task that waits for its merge lands. -/
def merge (taskId : TaskId) : AttemptWorld :=
  match w.tasks taskId with
  | none => w
  | some task =>
    if task.hubStatus = .waitingForMerge then
      let branch := (task.claim.map (·.branch)).getD (resolveHubTaskBranch taskId task.title)
      { w.setTask taskId { task with hubStatus := .done } with
        commits := Function.update w.commits branch [] }
    else w

/-- A branch and its worktree are deleted. -/
def discard (branch : String) : AttemptWorld :=
  { w with
    commits := Function.update w.commits branch []
    worktrees := Function.update w.worktrees branch none }

end AttemptWorld

/-! ### What happens -/

/-- What happens to the tasks and their branches.

- `create`, `edit`: a task is created or imported, or its title is edited.
- `pull`, `sync`: the task is refreshed from its issue, or a push records its state.
- `move`: a recovery, a triage or a person gives the task a status, with or without its claim. -/
inductive TaskAction where
  | create (taskId : TaskId) (task : AttemptTask)
  | edit (taskId : TaskId) (title : String)
  | pull (taskId : TaskId) (issue : GithubIssueRecord)
  | sync (taskId : TaskId) (state : HubSyncState)
  | move (taskId : TaskId) (status : HubTaskStatus) (keepClaim : Bool)
  | implement (taskId : TaskId)
  | resumeReview (taskId : TaskId)
  | progress (branch : String) (committed : Bool)
  | stop (branch : String)
  | merge (taskId : TaskId)
  | discard (branch : String)
  deriving DecidableEq, Repr

/-- One step. A new task has no claim. -/
def AttemptWorld.step (w : AttemptWorld) : TaskAction → AttemptWorld
  | .create taskId task =>
    if (w.tasks taskId).isSome then w else w.setTask taskId { task with claim := none }
  | .edit taskId title => w.modifyTask taskId fun task => { task with title := title }
  | .pull taskId issue => w.modifyTask taskId fun task => refreshLinkedGithubIssue task issue
  | .sync taskId state => w.modifyTask taskId fun task => { task with syncState := some state }
  | .move taskId status keepClaim =>
    w.modifyTask taskId fun task =>
      { task with hubStatus := status, claim := if keepClaim then task.claim else none }
  | .implement taskId =>
    match implementSelectedTask w taskId with
    | some claim => w.begin taskId claim .implementing
    | none => w
  | .resumeReview taskId =>
    match resumeReviewSelectedTask w taskId with
    | some claim => w.begin taskId claim .reviewing
    | none => w
  | .progress branch committed => w.progress branch committed
  | .stop branch => w.stop branch
  | .merge taskId => w.merge taskId
  | .discard branch => w.discard branch

/-- The tasks and the branches after the actions, from an empty board. -/
def afterActions (actions : List TaskAction) : AttemptWorld :=
  actions.foldl AttemptWorld.step {}

end ArchLoop.TaskAttempts
