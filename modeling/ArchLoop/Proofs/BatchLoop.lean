import ArchLoop.BatchLoop
import ArchLoop.Lib.Stable
import ArchLoop.Proofs.BatchPlanner
import ArchLoop.Proofs.TriageScope
import Mathlib.Data.Finset.SDiff
import Mathlib.Data.Finset.Card

/-!
# `ArchLoop.Proofs.BatchLoop`: the batches of a run come to an end

The loop goes on behind each batch that completes, with no bound of its own. What bounds it is the
task board. Every transition loads its task again and throws unless the status is the one that it
was to write. So a task that is implemented, reviewed or merged with success is not ready at the
return of its transition, and nobody makes it ready again (`NoneReadied`).

`TaskRules` are the rules of the work on one task, `BoardRules` those of the run. A batch runs its
tasks side by side (`yields_settleTasks`), and then merges them. `yields_batchLoop` is the
induction over the rounds: the tasks that are ready are among those of a finite set, and each round
behind which the loop goes on takes at least one task out of it.

`batchLoop_ends` is the result for every interleaving with others.
-/

set_option autoImplicit false

namespace ArchLoop.TaskBoard.BatchLoop

open Lib BatchPlanner

/-! ### Ready tasks -/

/-- The store has the task as one that is ready for an agent. -/
def Ready (id : TaskId) (s : BeadsStore) : Prop :=
  ∃ issue ∈ s.issues, issue.id = id ∧ issue.projection.hubStatus = .readyForAgent

/-- Only tasks with `P` are ready. -/
def Within (P : TaskId → Prop) (s : BeadsStore) : Prop :=
  ∀ id, Ready id s → P id

def NoneReadied (s t : BeadsStore) : Prop :=
  ∀ id, Ready id t → Ready id s

theorem Within.mono {P P' : TaskId → Prop} {s : BeadsStore} (h : Within P s)
    (himp : ∀ id, P id → P' id) : Within P' s :=
  fun id hid => himp id (h id hid)

theorem NoneReadied.within {P : TaskId → Prop} {s t : BeadsStore} (h : NoneReadied s t)
    (hs : Within P s) : Within P t :=
  fun id hid => hs id (h id hid)

theorem ready_iff {s : BeadsStore} (hproper : ProperIds s) {id : TaskId} :
    Ready id s ↔ ∃ issue, s.issue id = some issue ∧
      issue.projection.hubStatus = .readyForAgent := by
  constructor
  · rintro ⟨issue, hmem, rfl, hready⟩
    exact ⟨issue, issue_of_mem hproper.nodup hmem, hready⟩
  · rintro ⟨issue, hissue, hready⟩
    exact ⟨issue, mem_of_issue hissue, id_of_issue hissue, hready⟩

theorem ready_of_writesOnly {ids : TaskId → Prop} {s t : BeadsStore} (h : WritesOnly ids s t)
    (hproper : ProperIds s) {id : TaskId} (hid : ¬ ids id) (hready : Ready id t) : Ready id s := by
  have hproper' : ProperIds t := ⟨by rw [h.sameIds]; exact hproper.nodup,
    by rw [h.sameIds]; exact hproper.trimmed⟩
  rw [ready_iff hproper'] at hready
  rw [ready_iff hproper, ← h.issue id hid]
  exact hready

theorem Ready.trimmed {id : TaskId} {s : BeadsStore} (h : Ready id s) (hproper : ProperIds s) :
    trim id = id := by
  obtain ⟨issue, hmem, rfl, -⟩ := h
  exact hproper.trimmed _ (List.mem_map_of_mem hmem)

/-! ### The rules -/

/-- The work on one task: it writes to this task only, and nobody else makes it ready. -/
def TaskRules (id : TaskId) : Rules BeadsStore where
  inv := ProperIds
  rely s t := Ready id t → Ready id s
  allowed _ _ _ := True
  guar _ s t := ProperIds s ∧ WritesOnly (· = id) s t

def BoardRules : Rules BeadsStore where
  inv := ProperIds
  rely := NoneReadied
  allowed _ _ _ := True
  guar _ _ _ := True

section Task

variable {α β : Type} {id : TaskId} {Q : α → BeadsStore → Prop} {s : BeadsStore}

theorem ProperIds.writes {ids : TaskId → Prop} {t : BeadsStore} (h : WritesOnly ids s t)
    (hproper : ProperIds s) : ProperIds t where
  nodup := by rw [h.sameIds]; exact hproper.nodup
  trimmed := by rw [h.sameIds]; exact hproper.trimmed

theorem yields_writes {p : BoardProg α} (h : Writes (· = id) p) :
    p.Yields (TaskRules id) (fun _ _ => True) s := by
  have halways := h.always
  clear h
  constructor
  induction p generalizing s with
  | ret a => trivial
  | raise e => trivial
  | act upd next ih =>
    intro t _ hproper _
    obtain ⟨hwrites, hnext⟩ := halways t
    exact ⟨⟨hproper, hwrites⟩, ProperIds.writes hwrites hproper, ih t hnext⟩

theorem yields_reads {p : BoardProg α} (h : Writes (fun _ => False) p) (hs : ¬ Ready id s) :
    p.Yields (TaskRules id) (fun _ t => ¬ Ready id t) s := by
  have halways := h.always
  clear h
  constructor
  induction p generalizing s with
  | ret a => exact hs
  | raise e => trivial
  | act upd next ih =>
    intro t hrely hproper _
    obtain ⟨hwrites, hnext⟩ := halways t
    have ht : ¬ Ready id (upd t) := fun hready =>
      hs (hrely (ready_of_writesOnly hwrites hproper (fun h => h) hready))
    refine ⟨⟨hproper, hwrites.sameIds, fun other _ => hwrites.issue other fun h => h⟩,
      ProperIds.writes hwrites hproper, ih t ht hnext⟩

theorem yields_ask_bind {label : String} {answer : BeadsStore → α} {f : α → BoardProg β}
    {Q : β → BeadsStore → Prop} (hreads : ∀ a, Writes (fun _ => False) (f a))
    (hQ : ∀ b t, ¬ Ready id t → Q b t)
    (hready : ∀ t t', ProperIds t → Ready id t → (f (answer t)).Yields (TaskRules id) Q t') :
    ((bdCommand label (fun s => s) answer).bind f).Yields (TaskRules id) Q s := by
  constructor
  intro t hrely hproper _
  have hsame : (t.command fun s => s).issues = t.issues := by
    show BeadsStore.issues (if t.outcome = .refused then t else t) = _
    rw [ite_self]
  have hwrites : WritesOnly (fun _ => False) t (t.command fun s => s) := writesOnly_of_eq hsame
  refine ⟨⟨hproper, hwrites.sameIds, fun other _ => hwrites.issue other fun h => h⟩,
    ProperIds.writes hwrites hproper, ?_⟩
  dsimp only
  split
  · rw [Prog.ret_bind]
    by_cases hr : Ready id t
    · exact (hready t _ hproper hr).sat
    · have hr' : ¬ Ready id (t.command fun s => s) := fun h =>
        hr (ready_of_writesOnly hwrites hproper (fun h => h) h)
      exact ((yields_reads (hreads _) hr').mono hQ).sat
  · trivial

/-! ### Loading the task -/

theorem yields_showTask {label : String} :
    (showTask label (trim id)).Yields (TaskRules id)
      (fun issue t => ¬ Ready id t ∨ issue.id = id) s := by
  refine yields_ask_bind (fun found => ?_) (fun _ _ h => Or.inl h) ?_
  · cases found with
    | none => exact writes_raise _
    | some issue => exact writes_ret issue
  · intro t t' hproper hready
    cases hfound : t.issue (trim id) with
    | none => exact Prog.yields_raise
    | some issue =>
      have hid : issue.id = trim id := id_of_issue hfound
      exact Prog.yields_ret (Or.inr (hid.trans (hready.trimmed hproper)))

theorem yields_selectFromBoard {t t' : BeadsStore} (hproper : ProperIds t) (hready : Ready id t) :
    (selectFromBoard id (trim id) (t.issues.map BeadsIssue.projection)).Yields (TaskRules id)
      (fun task t => ¬ Ready id t ∨ task.id = id) t' := by
  obtain ⟨issue, hissue, -⟩ := (ready_iff hproper).mp hready
  have hsome : (t.issue id).isSome = true := by rw [hissue]; rfl
  obtain ⟨task, htask⟩ := find?_board hsome
  have hid : task.id = id := by simpa using List.find?_some htask
  rw [selectFromBoard, hready.trimmed hproper, htask]
  exact Prog.yields_ret (Or.inr hid)

theorem yields_resolveHubTaskSelector :
    (resolveHubTaskSelector id).Yields (TaskRules id)
      (fun task t => ¬ Ready id t ∨ task.id = id) s := by
  rw [resolveHubTaskSelector]
  split
  · exact Prog.yields_raise
  · refine yields_showTask.attempt.bind fun shown t hshown => ?_
    cases shown with
    | ok issue => exact Prog.yields_ret (hshown issue rfl)
    | error e =>
      rw [loadHubTaskBoard]
      refine yields_ask_bind (fun _ => writes_selectFromBoard) (fun _ _ h => Or.inl h) ?_
      exact fun t t' hproper hready => yields_selectFromBoard hproper hready

theorem yields_loadHubTask :
    (loadHubTask id).Yields (TaskRules id)
      (fun task t => task.hubStatus ≠ .readyForAgent → ¬ Ready id t) s := by
  rw [loadHubTask]
  refine yields_resolveHubTaskSelector.bind fun resolved t hresolved => ?_
  have hreads : Writes (fun _ => False)
      ((showTask ("tasks show " ++ resolved.id) resolved.id).bind fun issue =>
        .ret issue.projection) := writes_showTask.bind fun issue => writes_ret _
  rcases hresolved with hnot | hid
  · exact (yields_reads hreads hnot).mono fun _ _ h _ => h
  · rw [hid, showTask, Prog.bind_assoc]
    refine yields_ask_bind (fun found => ?_) (fun _ _ h _ => h) ?_
    · cases found with
      | none => exact writes_raise _
      | some issue => exact writes_ret _
    · intro t t' hproper hready
      obtain ⟨issue, hissue, hstatus⟩ := (ready_iff hproper).mp hready
      rw [hissue]
      exact Prog.yields_ret fun hne => absurd hstatus hne

/-! ### Transitions -/

theorem hubStatus_of_assert {task : HubTaskProjection} {status : HubTaskStatus}
    (h : assertHubTaskTransition task status = .ok ()) : task.hubStatus = status := by
  by_contra hne
  simp only [assertHubTaskTransition, if_pos hne, bind, Except.bind, throw, throwThe,
    MonadExceptOf.throw] at h
  cases h

theorem yields_transitionHubTaskStatus {input : UpdateHubTaskStatusInput}
    (hid : input.taskId = id) (hne : input.hubStatus ≠ .readyForAgent) :
    (transitionHubTaskStatus input).Yields (TaskRules id) (fun _ t => ¬ Ready id t) s := by
  subst hid
  have hwrites : ∀ label update, Writes (· = input.taskId)
      (bdUpdate label input.taskId update) := fun label update => writes_bdUpdate rfl
  rw [transitionHubTaskStatus]
  refine (yields_writes writes_loadHubTask).bind fun task _ _ => ?_
  rw [writeTransition]
  refine (yields_writes (hwrites _ _)).bind fun _ _ _ => ?_
  refine (yields_writes ((hwrites _ _).when _)).bind fun _ _ _ => ?_
  refine yields_loadHubTask.bind fun updatedTask t hloaded => ?_
  cases hassert : assertHubTaskTransition updatedTask input.hubStatus with
  | error message => exact Prog.yields_raise
  | ok =>
    have hstatus := hubStatus_of_assert hassert
    exact Prog.yields_ret (hloaded (hstatus ▸ hne))

theorem yields_updateLifecycle {input : UpdateHubTaskStatusInput}
    (hid : input.taskId = id) (hne : input.hubStatus ≠ .readyForAgent) :
    (updateLifecycle input).Yields (TaskRules id) (fun _ t => ¬ Ready id t) s := by
  rw [updateLifecycle]
  exact (yields_transitionHubTaskStatus hid hne).bind fun _ t ht => Prog.yields_ret ht

theorem yields_recordTaskClosure {metadata : Record} :
    (recordTaskClosure id metadata).Yields (TaskRules id) (fun _ t => ¬ Ready id t) s := by
  have hne : HubTaskStatus.done ≠ .readyForAgent := by decide
  rw [recordTaskClosure, closeHubTask]
  refine Prog.Yields.bind (Q := fun _ t => ¬ Ready id t) ?_ fun _ t ht => Prog.yields_ret ht
  exact yields_transitionHubTaskStatus rfl hne

theorem writes_claimHubTask {input : ClaimHubTaskInput} (hid : input.taskId = id) :
    Writes (· = id) (claimHubTask input) := by
  subst hid
  rw [claimHubTask]
  refine writes_loadHubTask.bind fun task => ?_
  split
  · exact writes_ret _
  · have hself : (· = input.taskId) (claimTransition input task).taskId := rfl
    exact (writes_transitionHubTaskStatus hself).bind fun _ => writes_ret _

/-! ### The work on a task -/

/-- The result is about the task, and a success has left it not ready. -/
def Settled (id : TaskId) (result : HubFlowTaskResult) (t : BeadsStore) : Prop :=
  result.taskId = id ∧ (isSuccessfulHubTaskResult result = true → ¬ Ready id t)

theorem settled_of_failure {result : HubFlowTaskResult} {t : BeadsStore} (hid : result.taskId = id)
    (h : isSuccessfulHubTaskResult result = false) : Settled id result t := by
  refine ⟨hid, fun hsuccess => ?_⟩
  rw [h] at hsuccess
  cases hsuccess

theorem isSuccessful_failureOutcome (reason : ImplementationFailureReason) (hubStatus) :
    isSuccessfulHubTaskResult
      { taskId := id, outcome := failureOutcome reason, hubStatus } = false := by
  cases reason <;> rfl

theorem yields_recordHubTaskReviewSuccess {claim : HubTaskClaimMetadata} {metadata : Record} :
    (recordHubTaskReviewSuccess id metadata claim).Yields (TaskRules id)
      (fun _ t => ¬ Ready id t) s :=
  yields_updateLifecycle rfl (show HubTaskStatus.waitingForMerge ≠ .readyForAgent by decide)

theorem yields_recordHubTaskReviewFailure {metadata : Record} {reason : HubFailureReason} :
    (recordHubTaskReviewFailure id metadata reason).Yields (TaskRules id)
      (fun _ t => ¬ Ready id t) s :=
  yields_updateLifecycle rfl (show HubTaskStatus.failed ≠ .readyForAgent by decide)

theorem yields_reviewSelectedTask {behaviour : TaskBehaviour} {claim : HubTaskClaimMetadata}
    {metadata : Record} :
    (reviewSelectedTask behaviour id claim metadata).Yields (TaskRules id) (Settled id) s := by
  have hsettle : ∀ (reviewResult : HubReviewTaskResult),
      (if isSuccessfulReview reviewResult then
        (recordHubTaskReviewSuccess id metadata claim).bind fun lifecycleResult =>
          .ret { taskId := id, outcome := .reviewed, hubStatus := lifecycleResult.hubStatus }
      else
        (recordHubTaskReviewFailure id metadata
          (resolveFailureReason reviewResult.outcome).toHubFailureReason).bind
          fun lifecycleResult =>
            .ret
              { taskId := id
                outcome := failureOutcome (resolveFailureReason reviewResult.outcome)
                hubStatus := lifecycleResult.hubStatus } :
          BoardProg HubFlowTaskResult).Yields (TaskRules id) (Settled id) s := by
    intro reviewResult
    split
    · exact yields_recordHubTaskReviewSuccess.bind fun _ t ht =>
        Prog.yields_ret ⟨rfl, fun _ => ht⟩
    · exact yields_recordHubTaskReviewFailure.bind fun _ t _ =>
        Prog.yields_ret (settled_of_failure rfl (isSuccessful_failureOutcome _ _))
  rw [reviewSelectedTask]
  cases behaviour.reviewer with
  | answer reviewResult => exact hsettle reviewResult
  | failed => exact hsettle _
  | aborted => exact Prog.yields_raise

theorem yields_recordImplementationOutcome {claim : HubTaskClaimMetadata} {metadata : Record}
    {outcome : ImplementationOutcomeEvent} (hne : outcome.hubStatus ≠ .readyForAgent) :
    (recordImplementationOutcome id metadata claim outcome).Yields (TaskRules id)
      (fun _ t => ¬ Ready id t) s :=
  yields_updateLifecycle rfl hne

theorem yields_settleImplementation {input : RunHubFlowInput} {behaviour : TaskBehaviour}
    {claim : HubTaskClaimMetadata} {metadata : Record} {result : HubImplementTaskResult} :
    (settleImplementation input behaviour id claim metadata result).Yields (TaskRules id)
      (Settled id) s := by
  have hpost : ∀ hasReviewer, (ImplementationOutcomeEvent.succeeded
      (resolvePostImplementationStatus hasReviewer)).hubStatus ≠ .readyForAgent := by decide
  have hfailed : ∀ reason, (ImplementationOutcomeEvent.failed reason).hubStatus ≠
      .readyForAgent := by
    intro reason
    show HubTaskStatus.failed ≠ .readyForAgent
    decide
  rw [settleImplementation]
  split
  · refine (yields_recordImplementationOutcome (hpost _)).bind fun _ _ _ => ?_
    refine yields_recordTaskClosure.bind fun _ t ht => ?_
    exact Prog.yields_ret ⟨rfl, fun _ => ht⟩
  · split
    · refine (yields_recordImplementationOutcome (hpost _)).bind fun _ t ht => ?_
      split
      · exact yields_reviewSelectedTask
      · exact Prog.yields_ret ⟨rfl, fun _ => ht⟩
    · refine (yields_recordImplementationOutcome (hfailed _)).bind fun _ t _ => ?_
      exact Prog.yields_ret (settled_of_failure rfl (isSuccessful_failureOutcome _ _))

end Task

theorem yields_implementSelectedTask {input : RunHubFlowInput} {batchId : String}
    {behaviour : TaskBehaviour} {task : HubTaskProjection} {s : BeadsStore} :
    (implementSelectedTask input batchId behaviour task).Yields (TaskRules task.id)
      (Settled task.id) s := by
  rw [implementSelectedTask]
  split
  · exact Prog.yields_ret (settled_of_failure rfl rfl)
  · exact Prog.yields_ret (settled_of_failure rfl rfl)
  · refine Prog.Yields.bind (yields_writes (writes_claimHubTask rfl)) fun claimResult t _ => ?_
    split
    · exact Prog.yields_ret (settled_of_failure rfl rfl)
    · exact Prog.yields_raise
    · split
      · exact yields_settleImplementation
      · exact yields_settleImplementation
      · exact Prog.yields_raise

/-! ### The merge phase -/

section Merge

variable {P : TaskId → Prop} {s : BeadsStore}

theorem yields_recordMergePhaseFailure {id : TaskId} {metadata : Record}
    {event : MergePhaseFailureEvent} :
    (recordMergePhaseFailure id metadata event).Yields (TaskRules id)
      (fun _ t => ¬ Ready id t) s :=
  yields_updateLifecycle rfl (show HubTaskStatus.failed ≠ .readyForAgent by decide)

theorem yields_recordRepairExhaustion {id : TaskId} {metadata : Record}
    {reason : HubLandingRepairExhaustionReason} :
    (recordRepairExhaustion id metadata reason).Yields (TaskRules id)
      (fun _ t => ¬ Ready id t) s :=
  yields_updateLifecycle rfl (show HubTaskStatus.blocked ≠ .readyForAgent by decide)

theorem yields_closeLandedTask {task : HubTaskProjection} {published : Option Bool}
    {recorded : Bool} :
    (closeLandedTask task published recorded).Yields (TaskRules task.id)
      (fun _ t => ¬ Ready task.id t) s := by
  have hpublishing : ∀ s, ((updateLifecycle
      { taskId := task.id, hubStatus := .publishing, metadata := task.metadata }).bind fun _ =>
      .ret () : BoardProg Unit).Yields (TaskRules task.id) (fun _ t => ¬ Ready task.id t) s := by
    intro s
    refine Prog.Yields.bind (Q := fun _ t => ¬ Ready task.id t) ?_ fun _ t ht =>
      Prog.yields_ret ht
    exact yields_updateLifecycle rfl (show HubTaskStatus.publishing ≠ .readyForAgent by decide)
  have hclosing : ∀ s, ((recordTaskClosure task.id task.metadata).bind fun _ =>
      (if recorded then .ret .merged else .raise "closure" :
        BoardProg Flow.HubBatchMergeOutcome)).Yields (TaskRules task.id)
      (fun _ t => ¬ Ready task.id t) s := by
    intro s
    refine yields_recordTaskClosure.bind fun _ t ht => ?_
    split
    · exact Prog.yields_ret ht
    · exact Prog.yields_raise
  have hhandler : ∀ s, ((recordMergePhaseFailure task.id task.metadata .closeFailed).bind fun _ =>
      .ret .closeFailed : BoardProg Flow.HubBatchMergeOutcome).Yields (TaskRules task.id)
      (fun _ t => ¬ Ready task.id t) s := by
    intro s
    exact yields_recordMergePhaseFailure.bind fun _ t ht => Prog.yields_ret ht
  rw [closeLandedTask]
  refine Prog.Yields.tryCatch ?_ fun _ => hhandler
  cases published with
  | none =>
    rw [Option.isSome_none, Prog.when_false, Prog.ret_bind, if_neg (by simp)]
    exact hclosing s
  | some publication =>
    rw [Option.isSome_some, Prog.when_true]
    refine (hpublishing s).bind fun _ t ht => ?_
    split
    · exact Prog.yields_ret ht
    · exact hclosing t

theorem yields_revertTaskToWaitingForMerge {task : HubTaskProjection} :
    (revertTaskToWaitingForMerge task).Yields (TaskRules task.id)
      (fun _ t => ¬ Ready task.id t) s :=
  yields_transitionHubTaskStatus rfl (show HubTaskStatus.waitingForMerge ≠ .readyForAgent by decide)

theorem yields_mergeTask {task : HubTaskProjection} {fate : MergeFate} :
    (mergeTask task fate).Yields (TaskRules task.id) (fun _ t => ¬ Ready task.id t) s := by
  cases fate with
  | waits outcome =>
    unfold mergeTask
    exact yields_revertTaskToWaitingForMerge.bind fun _ t ht => Prog.yields_ret ht
  | quietWait =>
    unfold mergeTask
    exact yields_revertTaskToWaitingForMerge.bind fun _ t ht => Prog.yields_ret ht
  | exhausted reason =>
    unfold mergeTask
    exact yields_recordRepairExhaustion.bind fun _ t ht => Prog.yields_ret ht
  | failed event =>
    unfold mergeTask
    exact yields_recordMergePhaseFailure.bind fun _ t ht => Prog.yields_ret ht
  | landed published recorded => exact yields_closeLandedTask
  | thrown => exact Prog.yields_raise

theorem yields_within {α : Type} {id : TaskId} {p : BoardProg α}
    (h : p.Yields (TaskRules id) (fun _ t => ¬ Ready id t) s) (hs : Within P s) :
    p.Yields BoardRules (fun _ t => Within P t) s := by
  have hbeside : p.Yields BoardRules
      (fun _ t => ¬ Ready id t ∧ Within (fun other => other = id ∨ P other) t) s := by
    refine h.beside rfl (fun _ _ _ hseen hmove hready => hseen (hmove id hready))
      (fun _ h => h) (fun _ _ _ => trivial) (fun _ _ _ => trivial)
      (fun _ _ hmove hK => hmove.within hK) ?_ (fun _ _ _ hmove hnot hready =>
        hnot (hmove hready)) (hs.mono fun _ h => Or.inr h)
    rintro - s t ⟨hproper, hwrites⟩ hK other hready
    by_cases hother : other = id
    · exact Or.inl hother
    · exact hK other (ready_of_writesOnly hwrites hproper hother hready)
  refine hbeside.mono fun _ t ht other hready => ?_
  rcases ht.2 other hready with rfl | hother
  · exact absurd hready ht.1
  · exact hother

theorem yields_ask {α : Type} {label : String} {answer : BeadsStore → α} (hs : Within P s) :
    (bdCommand label (fun s => s) answer).Yields BoardRules
      (fun a t => (∃ u, a = answer u ∧ ProperIds u ∧ Within P u) ∧ Within P t) s := by
  constructor
  intro t hmove hproper _
  have hsame : (t.command fun s => s).issues = t.issues := by
    show BeadsStore.issues (if t.outcome = .refused then t else t) = _
    rw [ite_self]
  have hwrites : WritesOnly (fun _ => False) t (t.command fun s => s) := writesOnly_of_eq hsame
  have ht : Within P t := NoneReadied.within hmove hs
  have ht' : Within P (t.command fun s => s) := fun id hready =>
    ht id (ready_of_writesOnly hwrites hproper (fun h => h) hready)
  refine ⟨trivial, ProperIds.writes hwrites hproper, ?_⟩
  dsimp only
  split
  · exact ⟨⟨t, rfl, hproper, ht⟩, ht'⟩
  · trivial

theorem yields_enterMergePhase (tasks : List HubTaskProjection) (hs : Within P s) :
    (enterMergePhase tasks).Yields BoardRules (fun _ t => Within P t) s := by
  induction tasks generalizing s with
  | nil => exact Prog.yields_ret hs
  | cons task tasks ih =>
    rw [enterMergePhase]
    refine Prog.Yields.bind (Q := fun _ t => Within P t) ?_ fun _ t ht => ih ht
    refine yields_within (yields_updateLifecycle rfl ?_) hs
    show HubTaskStatus.merging ≠ .readyForAgent
    decide

theorem yields_revertTasks (tasks : List HubTaskProjection) (hs : Within P s) :
    (revertTasks tasks).Yields BoardRules (fun _ t => Within P t) s := by
  induction tasks generalizing s with
  | nil => exact Prog.yields_ret hs
  | cons task tasks ih =>
    rw [revertTasks]
    refine (yields_within yields_revertTaskToWaitingForMerge hs).bind fun _ t ht => ?_
    exact (ih ht).bind fun _ t ht => Prog.yields_ret ht

theorem yields_mergeTasks {behaviour : MergeBehaviour} (tasks : List HubTaskProjection)
    (hs : Within P s) :
    (mergeTasks behaviour tasks).Yields BoardRules (fun _ t => Within P t) s := by
  induction tasks generalizing s with
  | nil => exact Prog.yields_ret hs
  | cons task tasks ih =>
    rw [mergeTasks]
    refine (yields_within yields_mergeTask hs).bind fun _ t ht => ?_
    refine Prog.Yields.bind (Q := fun _ t => Within P t) ?_ fun _ t ht => Prog.yields_ret ht
    split
    · exact yields_revertTasks tasks ht
    · exact ih ht

theorem yields_runBatchMergePhase {input : RunHubFlowInput} {behaviour : RoundBehaviour}
    (hs : Within P s) :
    (runBatchMergePhase input behaviour).Yields BoardRules (fun _ t => Within P t) s := by
  rw [runBatchMergePhase]
  split
  · refine Prog.Yields.bind (Q := fun _ t => Within P t) ?_ fun _ t ht => Prog.yields_ret ht
    rw [runHubBatchMerge, loadHubTaskBoard]
    refine (yields_ask hs).bind fun tasks t ht => ?_
    dsimp only
    split
    · exact Prog.yields_ret ht.2
    · refine (yields_enterMergePhase _ ht.2).bind fun _ t ht => ?_
      refine Prog.Yields.bind (Q := fun _ t => Within P t) ?_ fun _ t ht => Prog.yields_ret ht
      split
      · exact yields_revertTasks _ ht
      · exact yields_mergeTasks _ ht
  · exact Prog.yields_ret hs

end Merge

/-! ### The selection -/

theorem eraseDups_eq_nil {α : Type} [BEq α] {xs : List α} (h : xs.eraseDups = []) : xs = [] := by
  cases xs with
  | nil => rfl
  | cons x xs =>
    rw [List.eraseDups_cons] at h
    cases h

theorem validate_eq_nil {taskIds : List TaskId} {candidates : List HubTaskProjection}
    {maxTasks : Nat} (h : validateHubBatchSelectionFreshness taskIds candidates maxTasks = []) :
    taskIds.Nodup ∧ ∀ taskId ∈ taskIds, invalidTaskReason candidates taskId = none := by
  have hnil := eraseDups_eq_nil h
  rw [List.append_eq_nil_iff, List.append_eq_nil_iff] at hnil
  obtain ⟨⟨hduplicates, -⟩, htasks⟩ := hnil
  constructor
  · by_contra hne
    rw [if_neg hne] at hduplicates
    cases hduplicates
  · exact List.filterMap_eq_nil_iff.mp htasks

theorem eligible_of_invalidTaskReason {candidates : List HubTaskProjection} {taskId : TaskId}
    (h : invalidTaskReason candidates taskId = none) :
    ∃ task, candidates.reverse.find? (·.id == taskId) = some task ∧
      isHubFlowEligibleTask task = true := by
  unfold invalidTaskReason at h
  cases hfound : candidates.reverse.find? (·.id == taskId) with
  | none =>
    rw [hfound] at h
    cases h
  | some task =>
    rw [hfound] at h
    refine ⟨task, rfl, ?_⟩
    by_contra hne
    simp only [hne] at h
    split at h
    · cases h
    · split at h
      · cases h
      · simp at h

theorem resolveFresh_selectedTasks {taskIds : List TaskId} {candidates : List HubTaskProjection}
    {maxTasks : Nat} {selectedTasks : List HubTaskProjection}
    (h : (resolveFreshValidatedHubBatchSelection taskIds candidates maxTasks).1 = selectedTasks) :
    (selectedTasks.map (·.id)).Nodup ∧
      ∀ task ∈ selectedTasks, task ∈ candidates ∧ isHubFlowEligibleTask task = true := by
  subst h
  unfold resolveFreshValidatedHubBatchSelection
  split
  · rename_i hvalid
    obtain ⟨hnodup, htasks⟩ := validate_eq_nil hvalid
    have hids : ∀ taskId ∈ taskIds, taskId ∈ candidates.map (·.id) := by
      intro taskId hmem
      obtain ⟨task, hfound, -⟩ := eligible_of_invalidTaskReason (htasks taskId hmem)
      have hid : task.id = taskId := by simpa using List.find?_some hfound
      rw [← hid]
      exact List.mem_map_of_mem (List.mem_reverse.mp (List.mem_of_find?_eq_some hfound))
    refine ⟨by rwa [(map_id_mapSelectedTasks hids).1], fun task htask => ?_⟩
    obtain ⟨taskId, hmem, hfound⟩ := List.mem_filterMap.mp htask
    obtain ⟨task', hfound', heligible⟩ := eligible_of_invalidTaskReason (htasks taskId hmem)
    obtain rfl := Option.some.inj (hfound.symm.trans hfound')
    exact ⟨List.mem_reverse.mp (List.mem_of_find?_eq_some hfound), heligible⟩
  · -- the first of the eligible tasks alone
    show ((candidates.filter isHubFlowEligibleTask).take 1 |>.map (·.id)).Nodup ∧
      ∀ task ∈ (candidates.filter isHubFlowEligibleTask).take 1, _
    constructor
    · cases candidates.filter isHubFlowEligibleTask <;> simp
    · intro task htask
      exact List.mem_filter.mp (List.mem_of_mem_take htask)

/-- A selection that stands up to a new look at the queue.

- `nodup`, `eligible`, `few`: no two tasks share an id, each is an eligible candidate, and there
  are no more than allowed. One is always allowed.
- `valid`: nothing speaks against the planned tasks exactly when they are of that kind.
- `kept`: then they are the selected ones.
- `found`: otherwise a task is selected if there is an eligible one. -/
structure FreshSelection (taskIds : List TaskId) (candidates : List HubTaskProjection)
    (maxTasks : Nat) (selectedTasks : List HubTaskProjection)
    (invalidReasons : List HubBatchSelectionInvalidReason) : Prop where
  nodup : (selectedTasks.map (·.id)).Nodup
  eligible : ∀ task ∈ selectedTasks, task ∈ candidates ∧ isHubFlowEligibleTask task = true
  few : selectedTasks.length ≤ max maxTasks 1
  valid : invalidReasons = [] ↔ taskIds.Nodup ∧ taskIds.length ≤ maxTasks ∧
    ∀ taskId ∈ taskIds, ∃ task, candidates.reverse.find? (·.id == taskId) = some task ∧
      isHubFlowEligibleTask task = true
  kept : invalidReasons = [] → selectedTasks.map (·.id) = taskIds
  found : selectedTasks = [] → taskIds = [] ∨
    ∀ task ∈ candidates, isHubFlowEligibleTask task = false

theorem validate_eq_nil_iff {taskIds : List TaskId} {candidates : List HubTaskProjection}
    {maxTasks : Nat} : validateHubBatchSelectionFreshness taskIds candidates maxTasks = [] ↔
      taskIds.Nodup ∧ taskIds.length ≤ maxTasks ∧
        ∀ taskId ∈ taskIds, ∃ task, candidates.reverse.find? (·.id == taskId) = some task ∧
          isHubFlowEligibleTask task = true := by
  constructor
  · intro h
    obtain ⟨hnodup, htasks⟩ := validate_eq_nil h
    refine ⟨hnodup, ?_, fun taskId hmem => eligible_of_invalidTaskReason (htasks taskId hmem)⟩
    have hnil := eraseDups_eq_nil h
    rw [List.append_eq_nil_iff, List.append_eq_nil_iff] at hnil
    obtain ⟨⟨-, hmany⟩, -⟩ := hnil
    by_contra hlt
    rw [if_pos (by omega)] at hmany
    cases hmany
  · rintro ⟨hnodup, hfew, htasks⟩
    have hreasons : taskIds.filterMap (invalidTaskReason candidates) = [] := by
      rw [List.filterMap_eq_nil_iff]
      intro taskId hmem
      obtain ⟨task, hfound, heligible⟩ := htasks taskId hmem
      have hready := heligible
      unfold isHubFlowEligibleTask at hready
      rw [Bool.and_eq_true, beq_iff_eq, bne_iff_ne] at hready
      simp [invalidTaskReason, hfound, hready.1, hready.2, heligible]
    unfold validateHubBatchSelectionFreshness
    rw [hreasons, if_pos hnodup, if_neg (by omega)]
    rfl

theorem resolveFresh_sound (taskIds : List TaskId) (candidates : List HubTaskProjection)
    (maxTasks : Nat) :
    FreshSelection taskIds candidates maxTasks
      (resolveFreshValidatedHubBatchSelection taskIds candidates maxTasks).1
      (resolveFreshValidatedHubBatchSelection taskIds candidates maxTasks).2 := by
  obtain ⟨hnodup, heligible⟩ := resolveFresh_selectedTasks
    (show (resolveFreshValidatedHubBatchSelection taskIds candidates maxTasks).1 = _ from rfl)
  cases hreasons : validateHubBatchSelectionFreshness taskIds candidates maxTasks with
  | nil =>
    have hresult : resolveFreshValidatedHubBatchSelection taskIds candidates maxTasks =
        (mapSelectedTasks candidates taskIds, []) := by
      rw [resolveFreshValidatedHubBatchSelection, hreasons]
    rw [hresult] at hnodup heligible ⊢
    obtain ⟨-, hfew, htasks⟩ := validate_eq_nil_iff.mp hreasons
    have hids : (mapSelectedTasks candidates taskIds).map (·.id) = taskIds := by
      refine (map_id_mapSelectedTasks fun taskId hmem => ?_).1
      obtain ⟨task, hfound, -⟩ := htasks taskId hmem
      have hid : task.id = taskId := by simpa using List.find?_some hfound
      rw [← hid]
      exact List.mem_map_of_mem (List.mem_reverse.mp (List.mem_of_find?_eq_some hfound))
    have hlength : (mapSelectedTasks candidates taskIds).length = taskIds.length := by
      rw [← congrArg List.length hids, List.length_map]
    refine ⟨hnodup, heligible, ?_, iff_of_true rfl (validate_eq_nil_iff.mp hreasons),
      fun _ => hids, fun hnil => Or.inl ?_⟩
    · show (mapSelectedTasks candidates taskIds).length ≤ _
      omega
    · have hmap : (mapSelectedTasks candidates taskIds).map (·.id) = [] :=
        List.map_eq_nil_iff.mpr hnil
      rw [← hids, hmap]
  | cons reason reasons =>
    -- the first eligible task, if there is one
    have hresult : resolveFreshValidatedHubBatchSelection taskIds candidates maxTasks =
        ((candidates.filter isHubFlowEligibleTask).take 1, reason :: reasons) := by
      rw [resolveFreshValidatedHubBatchSelection, hreasons]
      rfl
    rw [hresult] at hnodup heligible ⊢
    have hinvalid : validateHubBatchSelectionFreshness taskIds candidates maxTasks = [] ↔ _ :=
      validate_eq_nil_iff
    rw [hreasons] at hinvalid
    refine ⟨hnodup, heligible, ?_, hinvalid, fun hnil => absurd hnil (List.cons_ne_nil _ _),
      fun hnil => Or.inr ?_⟩
    · show ((candidates.filter isHubFlowEligibleTask).take 1).length ≤ _
      rw [List.length_take]
      omega
    · intro task hmem
      have hfilter : candidates.filter isHubFlowEligibleTask = [] := by
        cases hfound : candidates.filter isHubFlowEligibleTask with
        | nil => rfl
        | cons first rest =>
          have htake : (candidates.filter isHubFlowEligibleTask).take 1 = [] := hnil
          rw [hfound] at htake
          cases htake
      have hnot := List.filter_eq_nil_iff.mp hfilter task hmem
      simpa using hnot

theorem ready_of_eligible {issues : List BeadsIssue} {u : BeadsStore}
    (hlisted : ∀ issue ∈ issues, issue ∈ u.issues) {task : HubTaskProjection}
    (hmem : task ∈ issues.map BeadsIssue.projection) (h : isHubFlowEligibleTask task = true) :
    Ready task.id u := by
  obtain ⟨issue, hissue, rfl⟩ := List.mem_map.mp hmem
  unfold isHubFlowEligibleTask at h
  rw [Bool.and_eq_true, beq_iff_eq] at h
  exact ⟨issue, hlisted issue hissue, rfl, h.1⟩

/-! ### Tasks side by side -/

section Round

variable {P : TaskId → Prop} {s : BeadsStore}

/-- The end of the work on a task, in the middle of that on the others. -/
def SettledTask (id : TaskId) (result : Except String HubFlowTaskResult) (t : BeadsStore) : Prop :=
  ∀ value, result = .ok value → Settled id value t

theorem fits_taskRules : Prog.Fits BoardRules TaskRules where
  inv _ := rfl
  refl _ _ h := h
  trans _ _ _ _ hrs hst h := hrs (hst h)
  env id _ _ hmove := hmove id
  allowed _ _ _ _ := trivial
  guar _ _ _ := trivial
  others _ _ _ _ _ hne hguar := ready_of_writesOnly hguar.2 hguar.1 (Ne.symm hne)

theorem stableEnd_settledTask : Prog.StableEnd TaskRules SettledTask := by
  intro id result s t hmove hsettled value heq
  exact ⟨(hsettled value heq).1, fun hsuccess hready =>
    (hsettled value heq).2 hsuccess (hmove hready)⟩

theorem resolve_settled {t : BeadsStore} (tasks : List HubTaskProjection)
    (settled : List (TaskId × Except String HubFlowTaskResult))
    (hids : settled.map (·.1) = tasks.map (·.id))
    (hsettled : ∀ entry ∈ settled, SettledTask entry.1 entry.2 t) :
    let results := List.zipWith resolveSettledHubTaskResult tasks (settled.map (·.2))
    results.map (·.taskId) = tasks.map (·.id) ∧
      (results.all isSuccessfulHubTaskResult = true → ∀ task ∈ tasks, ¬ Ready task.id t) := by
  induction tasks generalizing settled with
  | nil => exact ⟨rfl, fun _ _ h => absurd h List.not_mem_nil⟩
  | cons task tasks ih =>
    cases settled with
    | nil => cases hids
    | cons entry settled =>
      obtain ⟨id, result⟩ := entry
      rw [List.map_cons, List.map_cons, List.cons.injEq] at hids
      obtain ⟨rfl, hids⟩ := hids
      obtain ⟨hmap, hall⟩ := ih settled hids fun entry hentry =>
        hsettled entry (List.mem_cons_of_mem _ hentry)
      have hfirst : (resolveSettledHubTaskResult task result).taskId = task.id ∧
          (isSuccessfulHubTaskResult (resolveSettledHubTaskResult task result) = true →
            ¬ Ready task.id t) := by
        cases result with
        | ok value => exact hsettled _ List.mem_cons_self value rfl
        | error e => exact settled_of_failure rfl rfl
      dsimp only
      rw [List.map_cons, List.zipWith_cons_cons, List.map_cons, List.map_cons, hfirst.1,
        List.all_cons, Bool.and_eq_true]
      refine ⟨congrArg _ hmap, fun hsuccess other hother => ?_⟩
      rcases List.mem_cons.mp hother with rfl | hrest
      · exact hfirst.2 hsuccess.1
      · exact hall hsuccess.2 other hrest

theorem yields_settleTasks {behaviour : RoundBehaviour}
    {work : HubTaskProjection → BoardProg HubFlowTaskResult} {tasks : List HubTaskProjection}
    (hids : (tasks.map (·.id)).Nodup)
    (hwork : ∀ task s, (work task).Yields (TaskRules task.id) (Settled task.id) s)
    (hs : Within P s) :
    (settleTasks behaviour work tasks).Yields BoardRules
      (fun results t => results.map (·.taskId) = tasks.map (·.id) ∧
        Within (fun id => id ∈ tasks.map (·.id) ∨ P id) t ∧
        (results.all isSuccessfulHubTaskResult = true →
          Within (fun id => P id ∧ id ∉ tasks.map (·.id)) t)) s := by
  have hkeys : ((tasks.map fun task => (task.id, work task)).map (·.1)) = tasks.map (·.id) := by
    rw [List.map_map]
    rfl
  have hgoing : ∀ thread ∈ tasks.map fun task => (task.id, work task),
      Prog.Going TaskRules SettledTask s thread := by
    intro thread hthread
    obtain ⟨task, -, rfl⟩ := List.mem_map.mp hthread
    refine ⟨s, fun h => h, Prog.sat_mono (hwork task s).sat ?_ ?_⟩
    · rintro result t h value ⟨⟩
      exact h
    · rintro e t - value ⟨⟩
  have hlasts : Prog.Lasts BoardRules TaskRules (tasks.map (·.id))
      (Within fun id => id ∈ tasks.map (·.id) ∨ P id) := by
    refine ⟨fun s t hmove hK => hmove.within hK, ?_⟩
    rintro id hid - s t ⟨hproper, hwrites⟩ hK other hready
    by_cases hother : other = id
    · exact Or.inl (hother ▸ hid)
    · exact hK other (ready_of_writesOnly hwrites hproper hother hready)
  have hpar := Prog.sat_par fits_taskRules stableEnd_settledTask behaviour.schedule
    (hkeys ▸ hids) (hkeys ▸ hlasts) hgoing (hs.mono fun _ h => Or.inr h)
  rw [settleTasks]
  refine Prog.Yields.bind ⟨hpar⟩ fun settled t ht => Prog.yields_ret ?_
  obtain ⟨hmap, hsettled, hK⟩ := ht
  rw [hkeys] at hK
  obtain ⟨hresults, hall⟩ := resolve_settled tasks settled (hmap.trans hkeys) hsettled
  refine ⟨hresults, hK, fun hsuccess id hready => ?_⟩
  have hother : id ∉ tasks.map (·.id) := by
    intro hmem
    obtain ⟨task, htask, rfl⟩ := List.mem_map.mp hmem
    exact hall hsuccess task htask hready
  exact ⟨(hK id hready).resolve_left hother, hother⟩

/-! ### A round -/

theorem batchStatus_of_failure {batchId : String} {taskIds : List TaskId}
    {results : List HubFlowTaskResult} {mergeResult : Option RunHubBatchMergeResult}
    (hids : taskIds ≠ []) (h : results.all isSuccessfulHubTaskResult = false) :
    (resolveHubFlowBatchResult batchId taskIds results mergeResult).map (·.batchStatus) =
      some .failed := by
  have hany : (results.any fun result => !isSuccessfulHubTaskResult result) = true := by
    rw [List.all_eq_false] at h
    simpa using h
  rw [resolveHubFlowBatchResult, if_neg (by simp [hids]), Option.map_some]
  simp only [resolveHubFlowBatchStatus, hany, if_true]

/-- What a round does: it selects ready tasks, each once. Behind a batch that has not failed, none
of them is ready. -/
structure RoundEnd (P : TaskId → Prop) (execution : HubFlowBatchExecution) (t : BeadsStore) :
    Prop where
  nodup : execution.selectedTaskIds.Nodup
  selected : ∀ id ∈ execution.selectedTaskIds, P id
  within : Within P t
  taken : execution.batchResult.map (·.batchStatus) ≠ some .failed →
    Within (fun id => P id ∧ id ∉ execution.selectedTaskIds) t

theorem yields_executeTasks {input : RunHubFlowInput} {behaviour : RoundBehaviour}
    {tasks : List HubTaskProjection} (hids : (tasks.map (·.id)).Nodup)
    (hP : ∀ task ∈ tasks, P task.id) (htasks : tasks ≠ []) (hs : Within P s) :
    (executeTasks input behaviour tasks).Yields BoardRules (RoundEnd P) s := by
  have hselected : ∀ id ∈ tasks.map (·.id), P id := by
    intro id hid
    obtain ⟨task, htask, rfl⟩ := List.mem_map.mp hid
    exact hP task htask
  have hne : tasks.map (·.id) ≠ [] := by simpa using htasks
  rw [executeTasks]
  refine (yields_settleTasks hids (fun _ _ => yields_implementSelectedTask) hs).bind
    fun results t ht => ?_
  obtain ⟨-, hK, hall⟩ := ht
  have hP' : Within P t := fun id hready => (hK id hready).elim (hselected id) fun h => h
  cases hsuccess : results.all isSuccessfulHubTaskResult with
  | false =>
    refine Prog.yields_ret ⟨hids, hselected, hP', fun hstatus => ?_⟩
    exact absurd (batchStatus_of_failure hne hsuccess) hstatus
  | true =>
    refine (yields_runBatchMergePhase (hall hsuccess)).bind fun mergeResult u hu => ?_
    exact Prog.yields_ret ⟨hids, hselected, hu.mono fun _ h => h.1, fun _ => hu⟩

theorem yields_loadHubReadyQueue {input : RunHubFlowInput} (hs : Within P s) :
    (loadHubReadyQueue input).Yields BoardRules
      (fun tasks t => (∀ task ∈ tasks, isHubFlowEligibleTask task = true → P task.id) ∧
        Within P t) s := by
  refine (yields_ask hs).mono ?_
  rintro tasks t ⟨⟨u, rfl, -, hu⟩, ht⟩
  exact ⟨fun task hmem heligible => hu _ (ready_of_eligible (input.listed u) hmem heligible), ht⟩

theorem yields_executeSelectedBatch {input : RunHubFlowInput} {behaviour : RoundBehaviour}
    (hs : Within P s) :
    (executeSelectedBatch input behaviour).Yields BoardRules (RoundEnd P) s := by
  rw [executeSelectedBatch]
  refine (yields_loadHubReadyQueue hs).bind fun candidates t ht => ?_
  split
  · exact Prog.yields_raise
  · rename_i planned _
    refine (yields_loadHubReadyQueue ht.2).bind fun freshCandidates u hu => ?_
    dsimp only
    cases hselected : (resolveFreshValidatedHubBatchSelection (planned.selectedTasks.map (·.id))
        freshCandidates input.maxTasks).1 with
    | nil =>
      refine Prog.yields_ret ⟨List.nodup_nil, ?_, hu.2, fun _ => hu.2.mono fun id h => ?_⟩
      · exact fun id h => absurd h List.not_mem_nil
      · exact ⟨h, List.not_mem_nil⟩
    | cons task tasks =>
      obtain ⟨hids, htasks⟩ := resolveFresh_selectedTasks hselected
      exact yields_executeTasks hids (fun task hmem => hu.1 task (htasks task hmem).1
        (htasks task hmem).2) (List.cons_ne_nil _ _) hu.2

end Round

/-! ### The loop -/

/-- The selections that were worked off: those of a round that failed are not. -/
def RunHubFlowResult.completed (result : RunHubFlowResult) : List (List TaskId) :=
  if result.stopReason = some .batchFailed then result.selections.dropLast else result.selections

/-- What holds between two rounds. `left` are the tasks that may still be ready.

- `nodup`: no task was selected twice.
- `fresh`: no task that may be ready was selected.
- `ready`: no other task is ready, unless the last batch failed.
- `taken`: the tasks that were worked off are not ready.
- `goesOn`: each round behind which the loop went on had a task. -/
structure BetweenRounds (left : Finset TaskId) (result : RunHubFlowResult) (s : BeadsStore) :
    Prop where
  nodup : result.selectedTaskIds.Nodup
  fresh : ∀ id ∈ left, id ∉ result.selectedTaskIds
  ready : result.stopReason ≠ some .batchFailed → Within (· ∈ left) s
  taken : ∀ id ∈ result.completed.flatten, ¬ Ready id s
  goesOn : ∀ selection ∈ result.selections.dropLast, selection ≠ []
  last : result.stopReason = none → ∀ selection ∈ result.selections, selection ≠ []

theorem BetweenRounds.move {left : Finset TaskId} {result : RunHubFlowResult} {s t : BeadsStore}
    (h : BetweenRounds left result s) (hmove : NoneReadied s t) : BetweenRounds left result t where
  nodup := h.nodup
  fresh := h.fresh
  ready hreason := hmove.within (h.ready hreason)
  taken id hid hready := h.taken id hid (hmove id hready)
  goesOn := h.goesOn
  last := h.last

section Loop

variable {left : Finset TaskId} {input : RunHubFlowInput} {result : RunHubFlowResult}
  {execution : HubFlowBatchExecution} {s t : BeadsStore}

theorem stopAfter_eq_batchFailed_iff {count : Nat} :
    stopAfter input execution count = some .batchFailed ↔
      execution.batchResult.map (·.batchStatus) = some .failed := by
  unfold stopAfter
  dsimp only
  split
  · rename_i h
    simp [h]
  · rename_i h
    simp only [h, iff_false]
    split
    · simp
    · split
      · simp
      · split
        · simp
        · simp

theorem selected_of_stopAfter {count : Nat} (h : stopAfter input execution count = none) :
    execution.selectedTaskIds ≠ [] := by
  intro hnil
  simp only [stopAfter, hnil, if_true] at h
  split at h
  · cases h
  · split at h
    · cases h
    · cases h

theorem BetweenRounds.append (h : BetweenRounds left result s) (hgoes : result.stopReason = none)
    (hround : RoundEnd (· ∈ left) execution t) :
    BetweenRounds (left \ execution.selectedTaskIds.toFinset) (result.append input execution)
      t := by
  have hids : (result.append input execution).selectedTaskIds =
      result.selectedTaskIds ++ execution.selectedTaskIds := by
    simp [RunHubFlowResult.append, RunHubFlowResult.selectedTaskIds]
  have hcompleted : result.completed = result.selections := by
    rw [RunHubFlowResult.completed, hgoes, if_neg (by simp)]
  have hnotLeft : ∀ id ∈ result.completed.flatten, id ∉ left := by
    intro id hid hmem
    rw [hcompleted] at hid
    exact h.fresh id hmem hid
  have hstop : (result.append input execution).stopReason = some .batchFailed ↔
      execution.batchResult.map (·.batchStatus) = some .failed := stopAfter_eq_batchFailed_iff
  constructor
  · rw [hids, List.nodup_append]
    refine ⟨h.nodup, hround.nodup, ?_⟩
    rintro id hid _ hid' rfl
    exact h.fresh id (hround.selected id hid') hid
  · intro id hid
    rw [Finset.mem_sdiff, List.mem_toFinset] at hid
    rw [hids, List.mem_append, not_or]
    exact ⟨h.fresh id hid.1, hid.2⟩
  · intro hreason
    refine (hround.taken fun hfailed => hreason (hstop.mpr hfailed)).mono fun id hid => ?_
    rw [Finset.mem_sdiff, List.mem_toFinset]
    exact hid
  · intro id hid hready
    unfold RunHubFlowResult.completed at hid
    split at hid
    · -- the batch failed: what was worked off before it still is
      rw [RunHubFlowResult.append, List.dropLast_concat, ← hcompleted] at hid
      exact hnotLeft id hid (hround.within id hready)
    · rename_i hreason
      have htaken := hround.taken (fun hfailed => hreason (hstop.mpr hfailed)) id hready
      rw [RunHubFlowResult.append, List.flatten_append, List.mem_append, ← hcompleted] at hid
      rcases hid with hid | hid
      · exact hnotLeft id hid htaken.1
      · exact htaken.2 (by simpa using hid)
  · rw [RunHubFlowResult.append, List.dropLast_concat]
    exact h.last hgoes
  · intro hnone selection hselection
    rw [RunHubFlowResult.append, List.mem_append, List.mem_singleton] at hselection
    rcases hselection with hbefore | rfl
    · exact h.last hgoes selection hbefore
    · exact selected_of_stopAfter hnone

/-- The rounds, by induction: each one behind which the loop goes on takes a task out of those that
may be ready, so as many rounds as there are such tasks, and one more, come to an end. -/
theorem yields_batchLoop (rounds : List RoundBehaviour) (h : BetweenRounds left result s) :
    (batchLoop input rounds result).Yields BoardRules
      (fun r t => (left.card < rounds.length ∨ result.stopReason.isSome = true →
          r.stopReason.isSome = true) ∧
        ∃ left', BetweenRounds left' r t) s := by
  induction rounds generalizing left result s with
  | nil =>
    refine Prog.yields_ret ⟨fun hor => ?_, left, h⟩
    rcases hor with hlt | hsome
    · exact absurd hlt (Nat.not_lt_zero _)
    · exact hsome
  | cons behaviour rounds ih =>
    rw [batchLoop]
    split
    · rename_i hsome
      exact Prog.yields_ret ⟨fun _ => hsome, left, h⟩
    · rename_i hgoes
      have hnone : result.stopReason = none := by simpa using hgoes
      have hwithin : Within (· ∈ left) s := h.ready (by rw [hnone]; simp)
      refine (yields_executeSelectedBatch hwithin).bind fun execution t hround => ?_
      refine (ih (h.append hnone hround)).mono fun r u hr => ⟨fun hor => ?_, hr.2⟩
      refine hr.1 ?_
      cases hstop : (result.append input execution).stopReason with
      | some reason => exact Or.inr rfl
      | none =>
        left
        have hne : execution.selectedTaskIds ≠ [] := selected_of_stopAfter hstop
        obtain ⟨id, hid⟩ := List.exists_mem_of_ne_nil _ hne
        have hlt : (left \ execution.selectedTaskIds.toFinset).card < left.card := by
          refine Finset.card_lt_card (Finset.ssubset_iff_subset_ne.mpr ⟨Finset.sdiff_subset, ?_⟩)
          intro heq
          have hmem : id ∈ left \ execution.selectedTaskIds.toFinset := by
            rw [heq]
            exact hround.selected id hid
          rw [Finset.mem_sdiff, List.mem_toFinset] at hmem
          exact hmem.2 hid
        have hlen : left.card < (behaviour :: rounds).length := by
          rcases hor with hlt | hsome
          · exact hlt
          · exact absurd hsome hgoes
        rw [List.length_cons] at hlen
        omega

end Loop

/-! ### Every interleaving -/

def readyIds (s : BeadsStore) : List TaskId :=
  (s.issues.filter fun issue => issue.projection.hubStatus = .readyForAgent).map (·.id)

theorem within_readyIds (s : BeadsStore) : Within (· ∈ (readyIds s).toFinset) s := by
  rintro id ⟨issue, hmem, rfl, hready⟩
  rw [List.mem_toFinset]
  exact List.mem_map_of_mem (List.mem_filter.mpr ⟨hmem, decide_eq_true hready⟩)

/-- Others change the board: they add no task, they make none ready, and ids stay as `bd` gives
them. -/
structure Others (s t : BeadsStore) : Prop where
  noneReadied : NoneReadied s t
  proper : ProperIds s → ProperIds t

/-- What the run has done when it ends.

- `stops`: it has a reason to stop.
- `nodup`: no task was selected twice.
- `goesOn`: each round behind which the loop went on had a task.
- `taken`: the tasks of the rounds that did not fail are not ready. -/
structure Ended (result : RunHubFlowResult) (t : BeadsStore) : Prop where
  stops : result.stopReason.isSome = true
  nodup : result.selectedTaskIds.Nodup
  goesOn : ∀ selection ∈ result.selections.dropLast, selection ≠ []
  taken : ∀ id ∈ result.completed.flatten, ¬ Ready id t

/-- The loop ends, whatever planner, agents and merges do, as long as nobody adds a task or makes
one ready: it has a reason to stop before it runs out of rounds, when there is one round more than
tasks that are ready. -/
theorem batchLoop_ends {input : RunHubFlowInput} {rounds : List RoundBehaviour} {s t : BeadsStore}
    {result : RunHubFlowResult} (hproper : ProperIds s)
    (hrounds : (readyIds s).length < rounds.length)
    (hreach : Prog.Reaches Others (batchLoop input rounds {}) s (.ret result) t) :
    Ended result t := by
  have hcard : (readyIds s).toFinset.card < rounds.length :=
    Nat.lt_of_le_of_lt (List.toFinset_card_le _) hrounds
  have hbegin : BetweenRounds (readyIds s).toFinset {} s :=
    ⟨List.nodup_nil, fun _ _ => List.not_mem_nil, fun _ => within_readyIds s,
      fun _ h => absurd h List.not_mem_nil, fun _ h => absurd h List.not_mem_nil,
      fun _ _ h => absurd h List.not_mem_nil⟩
  obtain ⟨seen, hmove, -, hstops, left, hbetween⟩ :=
    (yields_batchLoop rounds hbegin).sat.reaches hproper (fun _ _ h => h)
      (fun seen u u' hrely hinv hother =>
        ⟨fun id hready => hrely id (hother.noneReadied id hready), hother.proper hinv⟩)
      (fun _ _ _ => trivial) hreach
  have hmoved := hbetween.move hmove
  exact ⟨hstops (Or.inl hcard), hmoved.nodup, hmoved.goesOn, hmoved.taken⟩

/-- A round among others, who make no task ready: it takes tasks that were ready when it began,
each once, and leaves no other task ready than those. Unless its batch fails, none of its own tasks
is ready in the end. -/
theorem executeSelectedBatch_takes {input : RunHubFlowInput} {behaviour : RoundBehaviour}
    {s t : BeadsStore} {execution : HubFlowBatchExecution} (hproper : ProperIds s)
    (hreach : Prog.Reaches Others (executeSelectedBatch input behaviour) s (.ret execution) t) :
    RoundEnd (Ready · s) execution t := by
  have hbegin : Within (Ready · s) s := fun _ hready => hready
  obtain ⟨seen, hmove, -, hround⟩ :=
    (yields_executeSelectedBatch hbegin).sat.reaches hproper (fun _ _ h => h)
      (fun seen u u' hrely hinv hother =>
        ⟨fun id hready => hrely id (hother.noneReadied id hready), hother.proper hinv⟩)
      (fun _ _ _ => trivial) hreach
  exact ⟨hround.nodup, hround.selected, hmove.within hround.within,
    fun hstatus => hmove.within (hround.taken hstatus)⟩

/-! ### A run with one task -/

def sampleReady : BeadsStore where
  issues := [{ id := "b-1", title := "Fix the parser", labels := ["ready-for-agent"]
               metadata := [("hubStatus", .str "ready_for_agent")] }]

def sampleFlow : RunHubFlowInput where
  hasReviewer := false
  batchStrategy := .conservative
  bdReady s := s.issues
  listed _ _ h := h

/-- A round in which the implementer makes a commit, and its branch lands. -/
def sampleRound : RoundBehaviour where
  batchId := "batch-1"
  planner _ := .unavailable
  blockers _ := {}
  schedule := []
  task id :=
    { claim :=
        { taskId := id, branch := "archloop/" ++ id, runId := "run-1", batchId := "batch-1"
          claimedAt := "2026-01-01T00:00:00.000Z", baseHead := none
          branchExistedBeforeClaim := none }
      implementer := .answer { outcome := .success, commits := 1, completionSignal := true }
      reviewer := .failed }
  merge :=
    { selects _ := true, order tasks := tasks, perm _ := .refl _, hostPending := false
      fate _ := .landed none true }

theorem executeSelectedBatch_takes_sample :
    ∃ execution t, execution.selectedTaskIds = ["b-1"] ∧
      RoundEnd (Ready · sampleReady) execution t := by
  let run := (executeSelectedBatch sampleFlow sampleRound).run sampleReady
  have hselected : run.1.toOption.map (·.selectedTaskIds) = some ["b-1"] := by decide +kernel
  cases hrun : run.1 with
  | error e =>
    rw [hrun] at hselected
    cases hselected
  | ok execution =>
    rw [hrun] at hselected
    have hreach : Prog.Reaches Others (executeSelectedBatch sampleFlow sampleRound) sampleReady
        (.ret execution) run.2 := Prog.reaches_run .start (Prod.ext hrun rfl)
    exact ⟨execution, run.2, Option.some.inj hselected,
      executeSelectedBatch_takes ⟨by decide, by decide⟩ hreach⟩

/-- The run takes the task in its first round and ends with the second one. -/
theorem batchLoop_ends_sample :
    ∃ result t, result.selections = [["b-1"], []] ∧
      Prog.Reaches Others (batchLoop sampleFlow [sampleRound, sampleRound] {}) sampleReady
        (.ret result) t ∧ Ended result t := by
  let run := (batchLoop sampleFlow [sampleRound, sampleRound] {}).run sampleReady
  have hselections : run.1.toOption.map (·.selections) = some [["b-1"], []] := by decide +kernel
  cases hrun : run.1 with
  | error e =>
    rw [hrun] at hselections
    cases hselections
  | ok result =>
    rw [hrun] at hselections
    have hreach : Prog.Reaches Others
        (batchLoop sampleFlow [sampleRound, sampleRound] {}) sampleReady
        (.ret result) run.2 := Prog.reaches_run .start (Prod.ext hrun rfl)
    refine ⟨result, run.2, Option.some.inj hselections, hreach, ?_⟩
    exact batchLoop_ends ⟨by decide, by decide⟩ (by decide) hreach

end ArchLoop.TaskBoard.BatchLoop
