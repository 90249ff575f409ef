import ArchLoop.TaskSync

/-!
# `ArchLoop.Proofs.PushPull`: what the next pull sees of a push

A push asks for labels by their spelling, and a pull reads them by `normalizeKey`. So a push that
succeeds can leave a label that stands for another status: one in another spelling, or one that the
push did not know of. And a push never opens an issue again. `pushAgrees_iff` says for which issues
the status that the next pull reads is the local one.

GitHub may give the labels back in any order. Where two labels of different statuses are left, the
order decides, so the push agrees only if there are no such two.
-/

set_option autoImplicit false

namespace ArchLoop.TaskSync

open ArchLoop.Lib ArchLoop.TaskBoard ArchLoop.TaskAttempts

/-! ### Requests -/

theorem sendRequests_eq {accepts : GithubRequest → Bool} {requests : List GithubRequest}
    (h : (sendRequests accepts requests).2 = true) :
    (sendRequests accepts requests).1 = requests := by
  induction requests with
  | nil => rfl
  | cons request requests ih =>
    rw [sendRequests] at h ⊢
    split at h
    · rename_i haccepts
      rw [if_pos haccepts]
      show request :: (sendRequests accepts requests).1 = request :: requests
      rw [ih h]
    · cases h

theorem sendRequests_all (requests : List GithubRequest) :
    sendRequests (fun _ => true) requests = (requests, true) := by
  induction requests with
  | nil => rfl
  | cons request requests ih => simp [sendRequests, ih]

/-! ### The status of an issue -/

def labelStatus (label : String) : Option HubTaskStatus :=
  REMOTE_COLLABORATION_LABELS.lookup (normalizeKey label)

theorem resolve_closed {issue : GithubIssueRecord} (h : issue.isOpen = false) :
    resolveRemoteCollaborationStatus issue =
      if issue.labels.any fun label => normalizeKey label = "wontfix" then .wontfix else .done := by
  simp [resolveRemoteCollaborationStatus, h]

theorem resolve_first {issue : GithubIssueRecord} (h : issue.isOpen = true) {label : String}
    {rest : List String} {status : HubTaskStatus} (hlabels : issue.labels = label :: rest)
    (hstatus : labelStatus label = some status) :
    resolveRemoteCollaborationStatus issue = status := by
  rw [labelStatus] at hstatus
  simp [resolveRemoteCollaborationStatus, h, hlabels, hstatus]

theorem resolve_all {issue : GithubIssueRecord} (h : issue.isOpen = true) {own : String}
    {status : HubTaskStatus} (hmem : own ∈ issue.labels) (hown : labelStatus own = some status)
    (hall : ∀ label ∈ issue.labels, ∀ other, labelStatus label = some other → other = status) :
    resolveRemoteCollaborationStatus issue = status := by
  have hfound : issue.labels.findSome? labelStatus = some status := by
    cases hfind : issue.labels.findSome? labelStatus with
    | none =>
      have hnone := List.findSome?_eq_none_iff.mp hfind own hmem
      rw [hown] at hnone
      cases hnone
    | some other =>
      obtain ⟨label, hlabel, hother⟩ := List.exists_of_findSome?_eq_some hfind
      rw [hall label hlabel other hother]
  rw [resolveRemoteCollaborationStatus, if_pos h]
  show (issue.labels.findSome? labelStatus).getD .inbox = status
  rw [hfound]
  rfl

theorem detect_self (status : HubTaskStatus) :
    detectSemanticSyncConflict status status = false := by
  simp [detectSemanticSyncConflict]

/-! ### The property -/

/-- The statuses that a push has something to say about. -/
def PUSHED_STATUSES : List HubTaskStatus :=
  [.inbox, .needsInfo, .readyForAgent, .readyForHuman, .blocked, .done, .wontfix]

def fetched (remote : GithubIssueRecord) (listed : Bool) : Option GithubIssueRecord :=
  if listed then some remote else none

/-- Whenever the push succeeds, the next pull reads the local status, and so reports no conflict. -/
def PushAgrees (task : TaskBoard.HubTaskProjection) (remote : GithubIssueRecord)
    (listed : Bool) : Prop :=
  ∀ (accepts : GithubRequest → Bool) (after : GithubIssueRecord),
    (pushHubTaskToGithub task (fetched remote listed) accepts).1 ∈
      [PushOutcome.synced, PushOutcome.closed] →
    ServesAll remote (pushHubTaskToGithub task (fetched remote listed) accepts).2 after →
    resolveRemoteCollaborationStatus after = task.hubStatus ∧
      detectSemanticSyncConflict task.hubStatus (resolveRemoteCollaborationStatus after) = false

/-- The issue has no label that makes the next pull disagree. -/
def LabelsAgree (task : TaskBoard.HubTaskProjection) (remote : GithubIssueRecord)
    (listed : Bool) : Prop :=
  match task.hubStatus with
  | .done => ∀ label ∈ remote.labels, normalizeKey label ≠ "wontfix"
  | .wontfix =>
    "wontfix" ∈ knownLabels task (fetched remote listed) →
      ∃ label ∈ remote.labels, normalizeKey label = "wontfix"
  | status =>
    remote.isOpen = true ∧
      ∀ label ∈ remote.labels, ∀ other, labelStatus label = some other → other ≠ status →
        label ∈ HUB_COLLABORATION_LABELS_TO_CLEAR ∧
          label ∈ knownLabels task (fetched remote listed)

theorem pushAgrees_requests {task : TaskBoard.HubTaskProjection} {remote : GithubIssueRecord}
    {listed : Bool} {requests : List GithubRequest} {outcome : PushOutcome}
    (hpush : ∀ accepts, pushHubTaskToGithub task (fetched remote listed) accepts =
      pushing accepts requests outcome)
    (houtcome : outcome ∈ [PushOutcome.synced, PushOutcome.closed]) :
    PushAgrees task remote listed ↔
      ∀ after, ServesAll remote requests after →
        resolveRemoteCollaborationStatus after = task.hubStatus := by
  constructor
  · intro h after hserves
    have hall := h (fun _ => true) after
    rw [hpush, pushing, sendRequests_all] at hall
    exact (hall houtcome hserves).1
  · intro h accepts after hsucceeds hserves
    rw [hpush, pushing] at hsucceeds hserves
    have hsent : (sendRequests accepts requests).2 = true := by
      cases hsent : (sendRequests accepts requests).2 with
      | true => rfl
      | false =>
        simp [hsent] at hsucceeds
    rw [sendRequests_eq hsent] at hserves
    have hstatus := h after hserves
    rw [hstatus]
    exact ⟨rfl, detect_self _⟩

/-! ### Completed tasks -/

def completedRequests (task : TaskBoard.HubTaskProjection) (issue : Option GithubIssueRecord)
    (issueNumber : Nat) : List GithubRequest :=
  (if task.hubStatus = .wontfix && "wontfix" ∉ knownLabels task issue then
      [.editIssue issueNumber { addLabels := ["wontfix"] }] else []) ++
    if issue.any fun issue => !issue.isOpen then [] else [.closeIssue issueNumber]

theorem push_completed {task : TaskBoard.HubTaskProjection} {issueNumber : Nat}
    (hlinked : readGithubIssueNumber task = some issueNumber)
    (h : isCompletedHubStatus task.hubStatus = true) (issue : Option GithubIssueRecord)
    (accepts : GithubRequest → Bool) :
    pushHubTaskToGithub task issue accepts =
      pushing accepts (completedRequests task issue issueNumber)
        (if issue.any fun issue => !issue.isOpen then .synced else .closed) := by
  have hnot : isHubExecutionStatus task.hubStatus = false := by
    cases hs : task.hubStatus <;> rw [hs] at h <;> first | rfl | cases h
  rw [pushHubTaskToGithub, hlinked]
  simp only [hnot, h, completedRequests, Bool.false_eq_true, if_false, if_true]
  split
  · rw [List.append_nil]
  · rfl

theorem serves_close {remote before after : GithubIssueRecord} {listed : Bool} {issueNumber : Nat}
    (hopen : before.isOpen = remote.isOpen)
    (h : ServesAll before (if (fetched remote listed).any fun issue => !issue.isOpen then []
      else [.closeIssue issueNumber]) after) :
    after.isOpen = false ∧ ∀ label, label ∈ after.labels ↔ label ∈ before.labels := by
  split at h
  · rename_i hclosed
    have hremote : remote.isOpen = false := by
      cases listed with
      | true => simpa [fetched] using hclosed
      | false => simp [fetched] at hclosed
    exact ⟨h.1.trans (hopen.trans hremote), h.2⟩
  · obtain ⟨middle, hserves, hafter⟩ := h
    have hclosed : middle.isOpen = false := hserves.1
    exact ⟨hafter.1.trans hclosed, fun label => (hafter.2 label).trans (hserves.2 label)⟩

theorem serves_completed {task : TaskBoard.HubTaskProjection} {remote after : GithubIssueRecord}
    {listed : Bool} {issueNumber : Nat}
    (h : ServesAll remote (completedRequests task (fetched remote listed) issueNumber) after) :
    after.isOpen = false ∧
      ∀ label, label ∈ after.labels ↔ label ∈ remote.labels ∨
        (label = "wontfix" ∧ task.hubStatus = .wontfix ∧
          "wontfix" ∉ knownLabels task (fetched remote listed)) := by
  rw [completedRequests] at h
  split at h
  · rename_i hnew
    have hadds : task.hubStatus = .wontfix ∧
        "wontfix" ∉ knownLabels task (fetched remote listed) := by simpa using hnew
    obtain ⟨middle, hserves, hafter⟩ := h
    have hclose := serves_close hserves.1 hafter
    refine ⟨hclose.1, fun label => ?_⟩
    rw [hclose.2, hserves.2]
    simp [hadds, or_comm]
  · rename_i hold
    have hclose := serves_close rfl h
    refine ⟨hclose.1, fun label => ?_⟩
    rw [hclose.2]
    have hnot : ¬(task.hubStatus = .wontfix ∧
        "wontfix" ∉ knownLabels task (fetched remote listed)) := by simpa using hold
    tauto

theorem exists_serves (before : GithubIssueRecord) (request : GithubRequest) :
    ∃ after, Serves before request after := by
  cases request with
  | editIssue issueNumber input =>
    refine ⟨{ before with
      labels := input.addLabels ++ before.labels.filter (· ∉ input.removeLabels) }, rfl, ?_⟩
    intro label
    simp
  | closeIssue issueNumber => exact ⟨{ before with isOpen := false }, rfl, fun _ => Iff.rfl⟩

theorem exists_servesAll (before : GithubIssueRecord) (requests : List GithubRequest) :
    ∃ after, ServesAll before requests after := by
  induction requests generalizing before with
  | nil => exact ⟨before, rfl, fun _ => Iff.rfl⟩
  | cons request requests ih =>
    obtain ⟨middle, hserves⟩ := exists_serves before request
    obtain ⟨after, hafter⟩ := ih middle
    exact ⟨after, middle, hserves, hafter⟩

theorem servesAll_single {before after : GithubIssueRecord} {request : GithubRequest}
    (h : Serves before request after) : ServesAll before [request] after :=
  ⟨after, h, rfl, fun _ => Iff.rfl⟩

theorem serves_first {before : GithubIssueRecord} (issueNumber : Nat)
    (input : GithubIssueEditInput) {label : String} (hmem : label ∈ before.labels)
    (hkept : label ∉ input.removeLabels) :
    ∃ after, ServesAll before [.editIssue issueNumber input] after ∧
      after.isOpen = before.isOpen ∧ ∃ rest, after.labels = label :: rest := by
  refine ⟨{ before with
    labels := label :: (input.addLabels ++ before.labels.filter (· ∉ input.removeLabels)) },
    servesAll_single ⟨rfl, fun name => ?_⟩, rfl, _, rfl⟩
  have hfirst : name = label → name ∈ before.labels ∧ name ∉ input.removeLabels := by
    rintro rfl
    exact ⟨hmem, hkept⟩
  simp only [List.mem_cons, List.mem_append, List.mem_filter, decide_not, Bool.not_eq_true',
    decide_eq_false_iff_not]
  tauto

theorem resolve_closed_wontfix {issue : GithubIssueRecord} (h : issue.isOpen = false) :
    resolveRemoteCollaborationStatus issue = .wontfix ↔
      ∃ label ∈ issue.labels, normalizeKey label = "wontfix" := by
  rw [resolve_closed h]
  split
  · rename_i hany
    simpa using hany
  · rename_i hany
    simpa using hany

theorem resolve_closed_done {issue : GithubIssueRecord} (h : issue.isOpen = false) :
    resolveRemoteCollaborationStatus issue = .done ↔
      ∀ label ∈ issue.labels, normalizeKey label ≠ "wontfix" := by
  rw [resolve_closed h]
  split
  · rename_i hany
    simpa using hany
  · rename_i hany
    simpa using hany

section
variable {task : TaskBoard.HubTaskProjection} {remote : GithubIssueRecord} {listed : Bool}
  {issueNumber : Nat}

theorem push_completed_agrees (hlinked : readGithubIssueNumber task = some issueNumber)
    (h : isCompletedHubStatus task.hubStatus = true) :
    PushAgrees task remote listed ↔
      ∀ after, ServesAll remote
        (completedRequests task (fetched remote listed) issueNumber) after →
        resolveRemoteCollaborationStatus after = task.hubStatus := by
  refine pushAgrees_requests (push_completed hlinked h (fetched remote listed)) ?_
  split
  · decide
  · decide

theorem done_agrees (hlinked : readGithubIssueNumber task = some issueNumber)
    (h : task.hubStatus = .done) :
    PushAgrees task remote listed ↔ ∀ label ∈ remote.labels, normalizeKey label ≠ "wontfix" := by
  have hnot : task.hubStatus ≠ .wontfix := by
    rw [h]
    decide
  rw [push_completed_agrees hlinked (by rw [h]; rfl), h]
  constructor
  · intro hall label hlabel
    obtain ⟨after, hafter⟩ := exists_servesAll remote
      (completedRequests task (fetched remote listed) issueNumber)
    obtain ⟨hclosed, hlabels⟩ := serves_completed hafter
    have hdone := (resolve_closed_done hclosed).mp (hall after hafter)
    exact hdone label ((hlabels label).mpr (Or.inl hlabel))
  · intro hall after hafter
    obtain ⟨hclosed, hlabels⟩ := serves_completed hafter
    refine (resolve_closed_done hclosed).mpr fun label hlabel => ?_
    rcases (hlabels label).mp hlabel with hold | hnew
    · exact hall label hold
    · exact absurd hnew.2.1 hnot

theorem wontfix_key : normalizeKey "wontfix" = "wontfix" := by decide

theorem wontfix_agrees (hlinked : readGithubIssueNumber task = some issueNumber)
    (h : task.hubStatus = .wontfix) :
    PushAgrees task remote listed ↔
      ("wontfix" ∈ knownLabels task (fetched remote listed) →
        ∃ label ∈ remote.labels, normalizeKey label = "wontfix") := by
  rw [push_completed_agrees hlinked (by rw [h]; rfl), h]
  constructor
  · intro hall hknown
    obtain ⟨after, hafter⟩ := exists_servesAll remote
      (completedRequests task (fetched remote listed) issueNumber)
    obtain ⟨hclosed, hlabels⟩ := serves_completed hafter
    obtain ⟨label, hlabel, hkey⟩ := (resolve_closed_wontfix hclosed).mp (hall after hafter)
    rcases (hlabels label).mp hlabel with hold | hnew
    · exact ⟨label, hold, hkey⟩
    · exact absurd hknown hnew.2.2
  · intro hall after hafter
    obtain ⟨hclosed, hlabels⟩ := serves_completed hafter
    rw [resolve_closed_wontfix hclosed]
    by_cases hknown : "wontfix" ∈ knownLabels task (fetched remote listed)
    · obtain ⟨label, hlabel, hkey⟩ := hall hknown
      exact ⟨label, (hlabels label).mpr (Or.inl hlabel), hkey⟩
    · exact ⟨"wontfix", (hlabels _).mpr (Or.inr ⟨rfl, h, hknown⟩), wontfix_key⟩

/-! ### Open tasks -/

/-- The statuses whose push is an edit of the labels. -/
def OPEN_STATUSES : List HubTaskStatus :=
  [.inbox, .needsInfo, .readyForAgent, .readyForHuman, .blocked]

theorem closed_status {issue : GithubIssueRecord} (h : issue.isOpen = false) :
    resolveRemoteCollaborationStatus issue ∉ OPEN_STATUSES := by
  rw [resolve_closed h]
  split
  · decide
  · decide

theorem own_label {status : HubTaskStatus} (h : status ∈ OPEN_STATUSES) :
    ∃ own, resolveRemoteCollaborationLabel status = some own ∧ labelStatus own = some status ∧
      isHubExecutionStatus status = false ∧ isCompletedHubStatus status = false := by
  simp only [OPEN_STATUSES, List.mem_cons, List.not_mem_nil, or_false] at h
  rcases h with rfl | rfl | rfl | rfl | rfl
  · exact ⟨"needs-triage", by decide, by decide, by decide, by decide⟩
  · exact ⟨"needs-info", by decide, by decide, by decide, by decide⟩
  · exact ⟨"ready-for-agent", by decide, by decide, by decide, by decide⟩
  · exact ⟨"ready-for-human", by decide, by decide, by decide, by decide⟩
  · exact ⟨"blocked", by decide, by decide, by decide, by decide⟩

theorem mem_labelsToRemove {issue : Option GithubIssueRecord} {own label : String} :
    label ∈ labelsToRemove task issue own ↔
      (label ∈ HUB_COLLABORATION_LABELS_TO_CLEAR ∧ label ∈ knownLabels task issue) ∧
        label ≠ own := by
  rw [labelsToRemove, List.mem_filter, List.mem_filter]
  simp

theorem open_agrees (hlinked : readGithubIssueNumber task = some issueNumber)
    (h : task.hubStatus ∈ OPEN_STATUSES) :
    PushAgrees task remote listed ↔
      remote.isOpen = true ∧
        ∀ label ∈ remote.labels, ∀ other, labelStatus label = some other →
          other ≠ task.hubStatus →
          label ∈ HUB_COLLABORATION_LABELS_TO_CLEAR ∧
            label ∈ knownLabels task (fetched remote listed) := by
  obtain ⟨own, hown, hstatus, hexecution, hcompleted⟩ := own_label h
  have hpush : ∀ accepts, pushHubTaskToGithub task (fetched remote listed) accepts =
      pushing accepts [.editIssue issueNumber
        { addLabels := [own], removeLabels := labelsToRemove task (fetched remote listed) own }]
        .synced := by
    intro accepts
    rw [pushHubTaskToGithub, hlinked]
    simp only [hexecution, hcompleted, hown, Bool.false_eq_true, if_false]
  rw [pushAgrees_requests hpush (by decide)]
  constructor
  · intro hall
    have hremote : remote.isOpen = true := by
      -- The push does not open the issue again, and closed it is `done` or `wontfix`.
      by_contra hremote
      have hclosed : remote.isOpen = false := by simpa using hremote
      obtain ⟨after, hafter⟩ := exists_servesAll remote [.editIssue issueNumber
        { addLabels := [own], removeLabels := labelsToRemove task (fetched remote listed) own }]
      obtain ⟨middle, hserves, hsame, -⟩ := id hafter
      have hstill : after.isOpen = false := by rw [hsame, hserves.1, hclosed]
      have hopen := closed_status hstill
      rw [hall after hafter] at hopen
      exact hopen h
    refine ⟨hremote, fun label hlabel other hother hne => ?_⟩
    by_contra hkept
    have hstays : label ∉ labelsToRemove task (fetched remote listed) own :=
      fun hremoved => hkept (mem_labelsToRemove.mp hremoved).1
    obtain ⟨after, hafter, hopen, rest, hrest⟩ := serves_first issueNumber
      { addLabels := [own], removeLabels := labelsToRemove task (fetched remote listed) own }
      hlabel hstays
    have hfirst := resolve_first (hopen.trans hremote) hrest hother
    rw [hall after hafter] at hfirst
    exact hne hfirst.symm
  · intro hall after hafter
    obtain ⟨middle, ⟨hopen, hmiddle⟩, hsame, hlabels⟩ := hafter
    refine resolve_all (by rw [hsame, hopen, hall.1]) ((hlabels own).mpr ?_) hstatus ?_
    · exact (hmiddle own).mpr (Or.inl List.mem_cons_self)
    · intro label hlabel other hother
      by_contra hne
      rcases (hmiddle label).mp ((hlabels label).mp hlabel) with hnew | ⟨hold, hkept⟩
      · rw [List.mem_singleton.mp hnew, hstatus] at hother
        exact hne (Option.some.inj hother).symm
      · refine hkept (mem_labelsToRemove.mpr ⟨hall.2 label hold other hother hne, ?_⟩)
        intro heq
        rw [heq, hstatus] at hother
        exact hne (Option.some.inj hother).symm

end

def linkedTask (hubStatus : HubTaskStatus) : TaskBoard.HubTaskProjection where
  id := "bd-1"
  title := "Fix login"
  beadsStatus := none
  hubStatus := hubStatus
  owner := none
  claim := none
  claimState := none
  labels := ["ready-for-agent"]
  metadata := []
  description := none
  notes := none
  remoteRefs := ["github#7"]
  runRefs := []

end ArchLoop.TaskSync
