import ArchLoop.TaskAttempts

/-!
# `ArchLoop.TaskSync`: pushing a task to its issue

The model of `pushHubTaskToGithub` in `hubTaskSync.ts`. A task in a collaboration status gets the
label of the status, and the labels of the other statuses are removed as far as they are among the
labels that are known: those of the fetched issue, or of the task where the issue is missing from
the list. A completed task closes its issue.

GitHub may refuse each request, and then the push is pending. `ServesAll` is what accepted requests
make of an issue: the labels are a set, so they may come back in any order. A dry run asks for
nothing and is left out. Labels that name a member of every JavaScript object are outside, as they
are on the board.
-/

set_option autoImplicit false

namespace ArchLoop.TaskSync

open ArchLoop.Lib ArchLoop.TaskBoard ArchLoop.TaskAttempts

/-! ### Labels and references -/

/-- `HUB_TO_REMOTE_COLLABORATION_LABEL`. -/
def HUB_TO_REMOTE_COLLABORATION_LABEL : HubTaskStatus → Option String
  | .inbox => some "needs-triage"
  | .needsInfo => some "needs-info"
  | .readyForAgent => some "ready-for-agent"
  | .readyForHuman => some "ready-for-human"
  | .blocked => some "blocked"
  | .wontfix => some "wontfix"
  | .syncConflict => some "sync-conflict"
  | _ => none

/-- `resolveRemoteCollaborationLabel`. -/
def resolveRemoteCollaborationLabel (status : HubTaskStatus) : Option String :=
  if isHubExecutionStatus status || status = .done then none
  else HUB_TO_REMOTE_COLLABORATION_LABEL status

/-- `parseGithubRemoteRef`. -/
def parseGithubRemoteRef (ref : String) : Option Nat :=
  let chars := (trim ref).toList
  if (chars.take 7).map Char.toLower = "github#".toList then readDigits (chars.drop 7) else none

/-- `readGithubIssueNumber`. -/
def readGithubIssueNumber (task : TaskBoard.HubTaskProjection) : Option Nat :=
  task.remoteRefs.findSome? parseGithubRemoteRef

/-! ### Requests -/

/-- `GithubIssueEditInput`. -/
structure GithubIssueEditInput where
  addLabels : List String := []
  removeLabels : List String := []
  deriving DecidableEq, Repr

/-- `editIssue` and `closeIssue` of a `GithubIssueClient`. -/
inductive GithubRequest where
  | editIssue (issueNumber : Nat) (input : GithubIssueEditInput)
  | closeIssue (issueNumber : Nat)
  deriving DecidableEq, Repr

inductive PushOutcome where
  | synced
  | pushPending
  | closed
  | skipped
  deriving DecidableEq, Repr

/-- Requests up to the first that is refused: the accepted ones, and whether these are all. -/
def sendRequests (accepts : GithubRequest → Bool) :
    List GithubRequest → List GithubRequest × Bool
  | [] => ([], true)
  | request :: requests =>
    if accepts request then
      let sent := sendRequests accepts requests
      (request :: sent.1, sent.2)
    else ([], false)

/-- The `try` of a push: a refused request makes it pending. -/
def pushing (accepts : GithubRequest → Bool) (requests : List GithubRequest)
    (outcome : PushOutcome) : PushOutcome × List GithubRequest :=
  let sent := sendRequests accepts requests
  (if sent.2 then outcome else .pushPending, sent.1)

/-- The labels that the push knows of. -/
def knownLabels (task : TaskBoard.HubTaskProjection) (issue : Option GithubIssueRecord) :
    List String :=
  (issue.map (·.labels)).getD task.labels

/-- `removeLabels` of a push. -/
def labelsToRemove (task : TaskBoard.HubTaskProjection) (issue : Option GithubIssueRecord)
    (remoteLabel : String) : List String :=
  (HUB_COLLABORATION_LABELS_TO_CLEAR.filter (· ∈ knownLabels task issue)).filter (· ≠ remoteLabel)

/-- `pushHubTaskToGithub`, with the requests that GitHub accepts. -/
def pushHubTaskToGithub (task : TaskBoard.HubTaskProjection) (issue : Option GithubIssueRecord)
    (accepts : GithubRequest → Bool) : PushOutcome × List GithubRequest :=
  match readGithubIssueNumber task with
  | none => (.skipped, [])
  | some issueNumber =>
    if isHubExecutionStatus task.hubStatus then (.skipped, [])
    else if isCompletedHubStatus task.hubStatus then
      let label :=
        if task.hubStatus = .wontfix && "wontfix" ∉ knownLabels task issue then
          [.editIssue issueNumber { addLabels := ["wontfix"] }]
        else []
      if issue.any fun issue => !issue.isOpen then pushing accepts label .synced
      else pushing accepts (label ++ [.closeIssue issueNumber]) .closed
    else
      match resolveRemoteCollaborationLabel task.hubStatus with
      | none => (.skipped, [])
      | some remoteLabel =>
        pushing accepts
          [.editIssue issueNumber
            { addLabels := [remoteLabel], removeLabels := labelsToRemove task issue remoteLabel }]
          .synced

/-! ### GitHub -/

/-- What a request that is accepted makes of the issue. -/
def Serves (before : GithubIssueRecord) : GithubRequest → GithubIssueRecord → Prop
  | .editIssue _ input, after =>
    after.isOpen = before.isOpen ∧
      ∀ label, label ∈ after.labels ↔
        label ∈ input.addLabels ∨ (label ∈ before.labels ∧ label ∉ input.removeLabels)
  | .closeIssue _, after =>
    after.isOpen = false ∧ ∀ label, label ∈ after.labels ↔ label ∈ before.labels

/-- What accepted requests make of the issue, one after the other. -/
def ServesAll : GithubIssueRecord → List GithubRequest → GithubIssueRecord → Prop
  | before, [], after =>
    after.isOpen = before.isOpen ∧ ∀ label, label ∈ after.labels ↔ label ∈ before.labels
  | before, request :: requests, after =>
    ∃ middle, Serves before request middle ∧ ServesAll middle requests after

end ArchLoop.TaskSync
