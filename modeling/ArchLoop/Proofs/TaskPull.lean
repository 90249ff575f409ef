import ArchLoop.Proofs.StatusAgreement
import ArchLoop.Proofs.TriageScope
import ArchLoop.TaskPull

/-!
# `ArchLoop.Proofs.TaskPull`: what a pull writes

`refresh_exact` has the record that the refresh of a linked task leaves, and what it reports.
`pull_keepsOthers` is about the whole list of issues, in every interleaving with others and with
every command that fails: no task is written to but those that the listed issues are linked to.
-/

set_option autoImplicit false

namespace ArchLoop.TaskSync

open ArchLoop.Lib ArchLoop.TaskBoard
open ArchLoop.TaskAttempts hiding refreshLinkedGithubIssue recordHubTaskSyncConflict

/-! ### One task -/

section Outcome

variable (task : TaskBoard.HubTaskProjection) (issue : ListedIssue)

/-- What a refresh reports, if it returns. -/
def refreshOutcome : RefreshOutcome :=
  if keepsLocal task then
    if takesTime task issue then .updated else .unchanged
  else if reportsConflict task issue then .conflict
  else if fieldsDiffer task issue || syncDiffers task issue then .updated
  else .unchanged

/-- The record that a refresh leaves, for the record that is stored. -/
def refreshed (stored : BeadsIssue) : BeadsIssue :=
  if keepsLocal task then
    if takesTime task issue then
      ({ metadata := task.metadata.merge (timePatch issue) } : BdUpdate).apply stored
    else stored
  else if reportsConflict task issue then
    transitioned stored (conflictInput stored.projection (conflictReason task.hubStatus
      (resolveRemoteCollaborationStatus issue.toGithubIssueRecord)))
  else if fieldsDiffer task issue then (fieldsUpdate task issue).apply stored
  else if syncDiffers task issue then
    ({ metadata := task.metadata.merge (syncedPatch issue) } : BdUpdate).apply stored
  else stored

end Outcome

/-- The status that a recorded conflict leaves. -/
def conflictStatus (stored : BeadsIssue) : HubTaskStatus :=
  if isCompletedHubStatus stored.projection.hubStatus then stored.projection.hubStatus
  else .syncConflict

section Run

variable {task : TaskBoard.HubTaskProjection} {issue : ListedIssue} {stored : BeadsIssue}
  {u : BeadsStore}

theorem writes_refresh (task : TaskBoard.HubTaskProjection) (issue : ListedIssue) :
    Writes (· = task.id) (refreshLinkedGithubIssue task issue) := by
  have hupdate : ∀ label update, Writes (· = task.id) (bdUpdate label task.id update) :=
    fun _ _ => writes_bdUpdate rfl
  have hmove : ∀ input : UpdateHubTaskStatusInput, input.taskId = task.id →
      Writes (· = task.id) (transitionHubTaskStatus input) :=
    fun _ hid => writes_transitionHubTaskStatus hid
  have hrecord : ∀ reason, Writes (· = task.id) (recordHubTaskSyncConflict task.id reason) :=
    fun reason => writes_loadHubTask.bind fun _ => (hmove _ rfl).bind fun _ => writes_ret ()
  rw [refreshLinkedGithubIssue]
  split
  · split
    · exact Writes.bind (hupdate _ _) fun _ => writes_ret _
    · exact writes_ret _
  split
  · exact (hrecord _).bind fun _ => writes_ret _
  split
  · exact (hupdate _ _).bind fun _ => writes_ret _
  split
  · exact Writes.bind (hupdate _ _) fun _ => writes_ret _
  · exact writes_ret _

/-- A conflict is recorded by a transition of the task as it is stored now. -/
theorem run_recordConflict (h : Holds u task.id stored) (hid : ProperId task.id)
    (reason : String) :
    ∃ v, Holds v task.id (transitioned stored (conflictInput stored.projection reason)) ∧
      (recordHubTaskSyncConflict task.id reason).run u =
        ((assertHubTaskTransition (transitioned stored
          (conflictInput stored.projection reason)).projection (conflictStatus stored)).map
            fun _ => (), v) := by
  have hsame : { conflictInput stored.projection reason with taskId := task.id } =
      conflictInput stored.projection reason := by
    have hid : stored.projection.id = task.id := h.id_eq
    rw [← hid]
    rfl
  have htask : (conflictInput stored.projection reason).taskId = task.id := h.id_eq
  -- the task is loaded again, so the transition works on the stored record
  obtain ⟨v, hv, hrun⟩ := run_transition (conflictInput stored.projection reason)
    (htask ▸ h) (htask ▸ hid)
  rw [htask] at hv
  refine ⟨v, hv, ?_⟩
  rw [recordHubTaskSyncConflict, Prog.run_bind_ok (run_loadHubTask h hid), hsame]
  have hstatus : (conflictInput stored.projection reason).hubStatus = conflictStatus stored := rfl
  rw [hstatus] at hrun
  cases hassert : assertHubTaskTransition (transitioned stored
      (conflictInput stored.projection reason)).projection (conflictStatus stored) with
  | ok _ =>
    rw [hassert] at hrun
    rw [Prog.run_bind_ok hrun]
    rfl
  | error message =>
    rw [hassert] at hrun
    exact Prog.run_bind_error hrun _

/-- What a refresh leaves and reports. Only a conflict may throw, after it was written. -/
theorem run_refresh (issue : ListedIssue) (h : Holds u task.id stored) (hid : ProperId task.id) :
    ∃ v, Holds v task.id (refreshed task issue stored) ∧
      (((refreshLinkedGithubIssue task issue).run u = (.ok (refreshOutcome task issue), v) ∧
          (refreshOutcome task issue = .conflict →
            (refreshed task issue stored).projection.hubStatus = conflictStatus stored)) ∨
        refreshOutcome task issue = .conflict ∧
          ∃ message, (refreshLinkedGithubIssue task issue).run u = (.error message, v)) := by
  have hupdate : ∀ label (update : BdUpdate),
      ((bdUpdate label task.id update).bind fun _ => .ret RefreshOutcome.updated).run u =
        (.ok .updated, u.changeIssue task.id update.apply) := by
    intro label update
    rw [Prog.run_bind_ok (run_bdUpdate h label update)]
    rfl
  unfold refreshLinkedGithubIssue
  rw [refreshOutcome, refreshed]
  cases hkeeps : keepsLocal task with
  | true =>
    simp only [if_true]
    split
    · rw [setHubTaskSyncMetadata, hupdate]
      exact ⟨_, h.change (id_apply _), Or.inl ⟨rfl, fun hno => by cases hno⟩⟩
    · exact ⟨u, h, Or.inl ⟨rfl, fun hno => by cases hno⟩⟩
  | false =>
    simp only [Bool.false_eq_true, if_false]
    cases hreports : reportsConflict task issue with
    | true =>
      simp only [if_true]
      obtain ⟨v, hv, hrun⟩ := run_recordConflict h hid (conflictReason task.hubStatus
        (resolveRemoteCollaborationStatus issue.toGithubIssueRecord))
      cases hassert : assertHubTaskTransition (transitioned stored
          (conflictInput stored.projection (conflictReason task.hubStatus
            (resolveRemoteCollaborationStatus issue.toGithubIssueRecord)))).projection
              (conflictStatus stored) with
      | ok _ =>
        rw [hassert] at hrun
        rw [Prog.run_bind_ok hrun]
        exact ⟨v, hv, Or.inl ⟨rfl, fun _ => ((assert_ok_iff _ _).mp hassert).1⟩⟩
      | error message =>
        rw [hassert] at hrun
        rw [Prog.run_bind_error hrun]
        exact ⟨v, hv, Or.inr ⟨trivial, message, rfl⟩⟩
    | false =>
      simp only [Bool.false_eq_true, if_false]
      cases hdiffer : fieldsDiffer task issue with
      | true =>
        simp only [if_true]
        rw [hupdate]
        exact ⟨_, h.change (id_apply _), Or.inl ⟨rfl, fun hno => by cases hno⟩⟩
      | false =>
        simp only [Bool.false_eq_true, if_false, Bool.false_or]
        split
        · rw [setHubTaskSyncMetadata, hupdate]
          exact ⟨_, h.change (id_apply _), Or.inl ⟨rfl, fun hno => by cases hno⟩⟩
        · exact ⟨u, h, Or.inl ⟨rfl, fun hno => by cases hno⟩⟩

/-- What a refresh leaves alone: the labels and the status unless it reports a conflict, title and
description when it does, and these also while the task is being worked on or pushed. -/
structure LeavesAlone (task : TaskBoard.HubTaskProjection) (issue : ListedIssue)
    (stored left : BeadsIssue) : Prop where
  board : refreshOutcome task issue ≠ .conflict →
    left.labels = stored.labels ∧ left.status = stored.status
  text : keepsLocal task = true ∨ refreshOutcome task issue = .conflict →
    left.title = stored.title ∧ left.description = stored.description

theorem text_transitioned (input : UpdateHubTaskStatusInput) :
    (transitioned stored input).title = stored.title ∧
      (transitioned stored input).description = stored.description := by
  unfold transitioned
  dsimp only
  split <;> exact ⟨rfl, rfl⟩

theorem labels_apply {update : BdUpdate} (hset : update.setLabels = [])
    (hadd : update.addLabels = []) (hremove : update.removeLabels = []) :
    (update.apply stored).labels = stored.labels := by
  simp [BdUpdate.apply, hset, hadd, hremove]

theorem leavesAlone_refreshed (task : TaskBoard.HubTaskProjection) (issue : ListedIssue)
    (stored : BeadsIssue) : LeavesAlone task issue stored (refreshed task issue stored) := by
  have hmetadata : ∀ metadata : Record, LeavesAlone task issue stored
      (({ metadata := metadata } : BdUpdate).apply stored) := fun metadata =>
    ⟨fun _ => ⟨labels_apply rfl rfl rfl, rfl⟩, fun _ => ⟨rfl, rfl⟩⟩
  have hsame : LeavesAlone task issue stored stored := ⟨fun _ => ⟨rfl, rfl⟩, fun _ => ⟨rfl, rfl⟩⟩
  unfold refreshed
  split
  · split
    · exact hmetadata _
    · exact hsame
  · rename_i hkeeps
    split
    · rename_i hreports
      have houtcome : refreshOutcome task issue = .conflict := by
        rw [refreshOutcome, if_neg hkeeps, if_pos hreports]
      exact ⟨fun hno => absurd houtcome hno, fun _ => text_transitioned _⟩
    · rename_i hquiet
      split
      · rename_i hdiffer
        have houtcome : refreshOutcome task issue = .updated := by
          rw [refreshOutcome, if_neg hkeeps, if_neg hquiet, if_pos (by rw [hdiffer]; rfl)]
        refine ⟨fun _ => ⟨labels_apply rfl rfl rfl, rfl⟩, fun hor => ?_⟩
        exact hor.elim (absurd · hkeeps) fun hno => by rw [houtcome] at hno; cases hno
      · split
        · exact hmetadata _
        · exact hsame

end Run

/-- A task that agreed with its issue when it was pulled last. -/
def samplePulled : BeadsIssue where
  id := "b-1"
  title := "Fix the parser"
  labels := ["needs-triage"]
  metadata := [("sync_state", .str "synced")]

/-- The issue, with a new title. -/
def sampleRetitled : ListedIssue where
  number := 7
  title := "Fix the lexer"
  body := none
  isOpen := true
  labels := ["needs-triage"]
  updatedAt := none

/-- The tasks that the issues are linked to. -/
def LinkedTo (board : List TaskBoard.HubTaskProjection) (issues : List ListedIssue)
    (id : TaskId) : Prop :=
  ∃ issue ∈ issues, ∃ task, indexedTask board issue.number = some task ∧ task.id = id

/-- The stored tasks that are not among the ids are as before. New ones may have come. -/
def KeepsOthers (ids : TaskId → Prop) (s t : BeadsStore) : Prop :=
  ∀ id, ¬ ids id → s.issue id ≠ none → t.issue id = s.issue id

theorem keepsOthers_addIssue {ids : TaskId → Prop} (issue : BeadsIssue) (s : BeadsStore) :
    KeepsOthers ids s (s.addIssue issue) := by
  intro id _ hstored
  show List.find? _ (s.issues ++ [issue]) = _
  rw [List.find?_append]
  cases hfound : s.issue id with
  | none => exact absurd hfound hstored
  | some stored =>
    have hfind : s.issues.find? _ = some stored := hfound
    rw [hfind]
    rfl

theorem always_pullIssue {newId : BeadsStore → TaskId} {includeClosed : Bool}
    {board : List TaskBoard.HubTaskProjection} {issues : List ListedIssue} {issue : ListedIssue}
    (hmem : issue ∈ issues) (pulled : PulledResult) :
    (pullIssue newId includeClosed board pulled issue).Always
      (KeepsOthers (LinkedTo board issues)) := by
  unfold pullIssue
  split
  · trivial
  cases hlinked : indexedTask board issue.number with
  | none =>
    dsimp only
    split
    · refine Prog.always_bind ?_ fun _ => trivial
      intro s
      refine ⟨?_, ?_⟩
      · -- the command may be refused
        intro id hother hstored
        show BeadsStore.issue { if s.outcome = .refused then s else _ with
          outages := s.outages.tail } id = _
        split
        · rfl
        · exact keepsOthers_addIssue _ s id hother hstored
      · dsimp only
        split <;> trivial
    · trivial
  | some task =>
    refine Prog.always_bind ?_ fun _ => trivial
    refine (writes_refresh task issue).always.mono fun s t hwrites id hother _ => ?_
    exact hwrites.issue id fun heq => hother ⟨issue, hmem, task, hlinked, heq.symm⟩

/-- Whatever others do between the steps of a pull, and whichever of its commands fail: no step
writes to a task that no listed issue is linked to on the board that the pull has read. -/
theorem pull_keepsOthers (newId : BeadsStore → TaskId) (includeClosed : Bool)
    (board : List TaskBoard.HubTaskProjection) (issues : List ListedIssue)
    (pulled : PulledResult) :
    (pullIssues newId includeClosed board pulled issues).Always
      (KeepsOthers (LinkedTo board issues)) := by
  -- the induction is on the issues that are left, the linked tasks are those of the whole list
  have hloop : ∀ rest : List ListedIssue, (∀ issue ∈ rest, issue ∈ issues) → ∀ pulled,
      (pullIssues newId includeClosed board pulled rest).Always
        (KeepsOthers (LinkedTo board issues)) := by
    intro rest
    induction rest with
    | nil => exact fun _ _ => trivial
    | cons issue rest ih =>
      intro hmem pulled
      exact Prog.always_bind (always_pullIssue (hmem issue List.mem_cons_self) pulled)
        (ih fun other hother => hmem other (List.mem_cons_of_mem _ hother))
  exact hloop issues (fun _ hmem => hmem) pulled

end ArchLoop.TaskSync
