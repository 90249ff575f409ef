import ArchLoop.Proofs.BatchVerdict
import Mathlib.Data.List.Pairwise

/-!
# `ArchLoop.Proofs.RunOutcome`: the outcome of a run and its tasks

`projectHubRunOutcome` sorts the tasks of a run into five sets, in three passes over the batch
results, the task results and the last merge. A pass looks at a task at most once, so what the sets
say of one task (`marks`) comes from its own entries only (`marks_classify`).

A run goes on after a batch only if the batch completes (`Completes`), so all its batches do but
perhaps the last one (`executed_init`), and its exit code is 0 exactly when they all do
(`exitCode_iff`).

`honest_iff` has the exact conditions under which the projection is honest about a run.
-/

set_option autoImplicit false

namespace ArchLoop.Flow

/-! ### The batches that a run executes -/

/-- The batches that the loop takes, up to the one after which it stops, with the number of batch
results so far. -/
def executedFrom (input : RunHubFlowInput) : Nat → List HubFlowBatchExecution →
    List HubFlowBatchExecution
  | _, [] => []
  | count, batch :: batches =>
    let next := count + (batch.batchResult input.runMergePhase).toList.length
    match stopAfter input (batch.batchResult input.runMergePhase) next with
    | some _ => [batch]
    | none => batch :: executedFrom input next batches

theorem runBatches_collects (input : RunHubFlowInput) (result : RunHubFlowResult)
    (batches : List HubFlowBatchExecution) :
    (runBatches input result batches).batchResults = result.batchResults ++
        (executedFrom input result.batchResults.length batches).flatMap
          (fun batch => (batch.batchResult input.runMergePhase).toList) ∧
      (runBatches input result batches).results = result.results ++
        (executedFrom input result.batchResults.length batches).flatMap (·.results) ∧
      (runBatches input result batches).mergeResult =
        (executedFrom input result.batchResults.length batches).foldl
          (fun merge batch => batch.mergeResult input.runMergePhase <|> merge)
          result.mergeResult := by
  induction batches generalizing result with
  | nil => simp [runBatches, executedFrom]
  | cons batch batches ih =>
    rw [runBatches, executedFrom]
    have hlength : (result.append input batch).batchResults.length = result.batchResults.length +
        (batch.batchResult input.runMergePhase).toList.length := by
      rw [RunHubFlowResult.append, List.length_append]
    rw [hlength]
    cases hstop : stopAfter input (batch.batchResult input.runMergePhase)
        (result.batchResults.length + (batch.batchResult input.runMergePhase).toList.length) with
    | some stopReason => simp [RunHubFlowResult.append]
    | none =>
      obtain ⟨hbatches, hresults, hmerge⟩ := ih (result.append input batch)
      rw [hlength] at hbatches hresults hmerge
      refine ⟨?_, ?_, ?_⟩
      · rw [hbatches, RunHubFlowResult.append, List.flatMap_cons, List.append_assoc]
      · rw [hresults, RunHubFlowResult.append, List.flatMap_cons, List.append_assoc]
      · rw [hmerge, RunHubFlowResult.append, List.foldl_cons]

/-- The status of the batch result, if the batch has one. -/
def HubFlowBatchExecution.status (batch : HubFlowBatchExecution) (runMergePhase : Bool) :
    Option HubFlowBatchStatus :=
  (batch.batchResult runMergePhase).map (·.batchStatus)

theorem stopAfter_none {input : RunHubFlowInput} {batch : HubFlowBatchExecution} {count : Nat}
    (h : stopAfter input (batch.batchResult input.runMergePhase) count = none) :
    batch.status input.runMergePhase ≠ some .failed ∧
      batch.status input.runMergePhase ≠ some .pending := by
  rw [stopAfter] at h
  split at h
  · cases h
  · rename_i hfailed
    split at h
    · cases h
    · rename_i hpending
      exact ⟨hfailed, hpending⟩

theorem executedFrom_init (input : RunHubFlowInput) (count : Nat)
    (batches : List HubFlowBatchExecution) :
    executedFrom input count batches = [] ∨ ∃ init last,
      executedFrom input count batches = init ++ [last] ∧ ∀ batch ∈ init,
        batch.status input.runMergePhase ≠ some .failed ∧
          batch.status input.runMergePhase ≠ some .pending := by
  induction batches generalizing count with
  | nil => exact Or.inl rfl
  | cons batch batches ih =>
    refine Or.inr ?_
    rw [executedFrom]
    cases hstop : stopAfter input (batch.batchResult input.runMergePhase)
        (count + (batch.batchResult input.runMergePhase).toList.length) with
    | some stopReason => exact ⟨[], batch, rfl, fun _ h => by cases h⟩
    | none =>
      have hgoes := stopAfter_none hstop
      rcases ih (count + (batch.batchResult input.runMergePhase).toList.length) with
        hnil | ⟨init, last, hrest, hinit⟩
      · exact ⟨[], batch, by simp [hnil], fun _ h => by cases h⟩
      · refine ⟨batch :: init, last, by simp [hrest], ?_⟩
        intro other hmem
        rcases List.mem_cons.mp hmem with rfl | hmem
        · exact hgoes
        · exact hinit other hmem

theorem runBatches_stopReason (input : RunHubFlowInput) (result : RunHubFlowResult)
    (batches : List HubFlowBatchExecution) :
    ((runBatches input result batches).stopReason = .batchFailed ↔
        ∃ batch ∈ executedFrom input result.batchResults.length batches,
          batch.status input.runMergePhase = some .failed) ∧
      ((runBatches input result batches).stopReason = .batchPending ↔
        ∃ batch ∈ executedFrom input result.batchResults.length batches,
          batch.status input.runMergePhase = some .pending) := by
  induction batches generalizing result with
  | nil => simp [runBatches, executedFrom]
  | cons batch batches ih =>
    rw [runBatches, executedFrom]
    have hlength : (result.append input batch).batchResults.length = result.batchResults.length +
        (batch.batchResult input.runMergePhase).toList.length := by
      rw [RunHubFlowResult.append, List.length_append]
    rw [hlength]
    cases hstop : stopAfter input (batch.batchResult input.runMergePhase)
        (result.batchResults.length + (batch.batchResult input.runMergePhase).toList.length) with
    | some stopReason =>
      simp only [List.mem_singleton, exists_eq_left]
      rw [stopAfter] at hstop
      rw [HubFlowBatchExecution.status]
      split at hstop
      · rename_i hfailed
        obtain rfl := Option.some.inj hstop
        simp [hfailed]
      · rename_i hfailed
        split at hstop
        · rename_i hpending
          obtain rfl := Option.some.inj hstop
          simp [hpending]
        · rename_i hpending
          split at hstop
          · obtain rfl := Option.some.inj hstop
            simp [hfailed, hpending]
          · cases hstop
    | none =>
      have hgoes := stopAfter_none hstop
      have hrest := ih (result.append input batch)
      rw [hlength] at hrest
      simpa [hgoes] using hrest

/-! ### What the sets say of one task -/

structure Marks where
  completed : Bool := false
  failed : Bool := false
  blocked : Bool := false
  skipped : Bool := false
  readyToMerge : Bool := false
  deriving DecidableEq, Repr

namespace Marks

/-- `addTask` on the marks of the task. -/
def addTask (marks : Marks) (outcome : HubFlowTaskOutcome) (status : HubTaskStatus) : Marks :=
  if marks.completed then marks
  else if outcome = .agentFailed ∨ outcome = .sandboxFailed ∨ status = .failed then
    { marks with failed := true }
  else if outcome = .activeExecution then { marks with blocked := true }
  else if outcome = .claimSkipped then { marks with skipped := true }
  else if status = .waitingForMerge then { marks with readyToMerge := true }
  else marks

/-- `addDiagnostic` on the marks of the task. -/
def addDecision (marks : Marks) (decision : HubBatchMergeSelectionDecision) : Marks :=
  if marks.completed ∨ marks.failed then marks
  else
    match decision with
    | .blocked => { marks with blocked := true, skipped := false, readyToMerge := false }
    | .skipped => { marks with skipped := true, readyToMerge := false }
    | .selected => marks

/-- `addMerge` on the marks of the task. -/
def addMerge (marks : Marks) (task : HubBatchMergeTaskResult) : Marks :=
  let rest := { marks with blocked := false, skipped := false, readyToMerge := false }
  if task.outcome = .merged then { rest with completed := true, failed := false }
  else if task.outcome = .skipped then
    if task.hubStatus = .waitingForMerge then { rest with readyToMerge := true }
    else { rest with skipped := true }
  else if task.outcome = .pending then { rest with readyToMerge := true }
  else if task.hubStatus = .blocked ∨ task.reason.isSome then { rest with blocked := true }
  else { rest with failed := true }

/-! What a pass does with the entry that it has for the task, if it has one. -/

def afterTask (marks : Marks) : Option HubFlowTaskResult → Marks
  | some task => marks.addTask task.outcome task.hubStatus
  | none => marks

def afterDiagnostic (marks : Marks) : Option HubBatchMergeSelectionDiagnostic → Marks
  | some diagnostic => marks.addDecision diagnostic.decision
  | none => marks

def afterMerge (marks : Marks) : Option HubBatchMergeTaskResult → Marks
  | some task => marks.addMerge task
  | none => marks

def count (marks : Marks) : Nat :=
  marks.completed.toNat + marks.failed.toNat + marks.blocked.toNat + marks.skipped.toNat +
    marks.readyToMerge.toNat

end Marks

namespace HubRunTaskClasses

def marks (classes : HubRunTaskClasses) (taskId : TaskId) : Marks where
  completed := taskId ∈ classes.completed
  failed := taskId ∈ classes.failed
  blocked := taskId ∈ classes.blocked
  skipped := taskId ∈ classes.skipped
  readyToMerge := taskId ∈ classes.readyToMerge

variable {classes : HubRunTaskClasses} {taskId : TaskId}

theorem marks_addTask (classes : HubRunTaskClasses) (task : HubFlowTaskResult) :
    (classes.addTask task).marks task.taskId =
      (classes.marks task.taskId).addTask task.outcome task.hubStatus := by
  simp only [addTask, Marks.addTask, marks, decide_eq_true_eq]
  split_ifs <;> simp

theorem marks_addTask_of_ne {task : HubFlowTaskResult} (h : task.taskId ≠ taskId) :
    (classes.addTask task).marks taskId = classes.marks taskId := by
  simp only [addTask]
  split_ifs <;> simp [marks, h.symm]

theorem marks_addDiagnostic (classes : HubRunTaskClasses)
    (diagnostic : HubBatchMergeSelectionDiagnostic) :
    (classes.addDiagnostic diagnostic).marks diagnostic.taskId =
      (classes.marks diagnostic.taskId).addDecision diagnostic.decision := by
  simp only [addDiagnostic, Marks.addDecision, marks, decide_eq_true_eq]
  split_ifs
  · rfl
  · cases diagnostic.decision <;> simp

theorem marks_addDiagnostic_of_ne {diagnostic : HubBatchMergeSelectionDiagnostic}
    (h : diagnostic.taskId ≠ taskId) :
    (classes.addDiagnostic diagnostic).marks taskId = classes.marks taskId := by
  simp only [addDiagnostic]
  split_ifs
  · rfl
  · cases diagnostic.decision <;> simp [marks, h.symm]

theorem marks_addMerge (classes : HubRunTaskClasses) (task : HubBatchMergeTaskResult) :
    (classes.addMerge task).marks task.taskId = (classes.marks task.taskId).addMerge task := by
  simp only [addMerge, Marks.addMerge, withdraw, marks]
  split_ifs <;> simp

theorem marks_addMerge_of_ne {task : HubBatchMergeTaskResult} (h : task.taskId ≠ taskId) :
    (classes.addMerge task).marks taskId = classes.marks taskId := by
  simp only [addMerge, withdraw]
  split_ifs <;> simp [marks, h.symm]

end HubRunTaskClasses

theorem marks_foldl {β : Type} {step : HubRunTaskClasses → β → HubRunTaskClasses} {key : β → TaskId}
    {after : Marks → Option β → Marks} (hafter : ∀ marks, after marks none = marks)
    (hown : ∀ classes entry, (step classes entry).marks (key entry) =
      after (classes.marks (key entry)) (some entry))
    (hother : ∀ classes entry taskId, key entry ≠ taskId →
      (step classes entry).marks taskId = HubRunTaskClasses.marks classes taskId)
    {entries : List β} (hnodup : (entries.map key).Nodup) (classes : HubRunTaskClasses)
    (taskId : TaskId) :
    (entries.foldl step classes).marks taskId =
      after (classes.marks taskId) (entries.find? fun entry => key entry = taskId) := by
  induction entries generalizing classes with
  | nil => exact (hafter _).symm
  | cons entry entries ih =>
    rw [List.map_cons, List.nodup_cons] at hnodup
    rw [List.foldl_cons, ih hnodup.2]
    by_cases hsame : key entry = taskId
    · -- The task has no later entry.
      have hnone : entries.find? (fun entry => key entry = taskId) = none := by
        rw [List.find?_eq_none]
        intro later hmem hlater
        have hkeys : key later = key entry := (of_decide_eq_true hlater).trans hsame.symm
        exact hnodup.1 (hkeys ▸ List.mem_map_of_mem hmem)
      rw [hnone, hafter, List.find?_cons_of_pos (by simpa using hsame), ← hsame, hown]
    · rw [List.find?_cons_of_neg (by simpa using hsame), hother classes entry taskId hsame]

/-! ### The batches that complete -/

namespace HubFlowBatchExecution

/-- All work of the batch succeeded, and where there is a merge phase, it merged all that it took,
which are the tasks worked on now when there are any. -/
def Completes (batch : HubFlowBatchExecution) (runMergePhase : Bool) : Prop :=
  batch.results.all isSuccessfulHubTaskResult = true ∧
    (runMergePhase = true → batch.mergePhase.selectedTaskIds ≠ [] ∧
      (∀ result ∈ batch.mergePhase.results, result.outcome = .merged) ∧
      (batch.selectedTaskIds ≠ [] → ∀ taskId, taskId ∈ batch.selectedTaskIds ↔
        taskId ∈ batch.mergePhase.selectedTaskIds))

def countedTaskIds (batch : HubFlowBatchExecution) (runMergePhase : Bool) : List TaskId :=
  if runMergePhase then batch.mergePhase.selectedTaskIds else batch.selectedTaskIds

section
variable {batch : HubFlowBatchExecution} {runMergePhase : Bool} {taskId : TaskId}

theorem hasSame_iff_mem {left right : List TaskId} (hleft : left.Nodup) (hright : right.Nodup) :
    hasSameTaskIds left right = true ↔ ∀ taskId, taskId ∈ left ↔ taskId ∈ right := by
  rw [hasSameTaskIds_iff]
  constructor
  · rintro ⟨hlength, hsub⟩ taskId
    exact ((hleft.subperm hsub).perm_of_length_le (by omega)).mem_iff
  · intro h
    have hperm := (List.perm_ext_iff_of_nodup hleft hright).mpr h
    exact ⟨hperm.length_eq, hperm.subset⟩

theorem mergeVerdict_completed_iff :
    batch.mergeVerdict = .completed ↔ batch.mergePhase.selectedTaskIds ≠ [] ∧
      (∀ result ∈ batch.mergePhase.results, result.outcome = .merged) ∧
      (batch.selectedTaskIds ≠ [] → ∀ taskId, taskId ∈ batch.selectedTaskIds ↔
        taskId ∈ batch.mergePhase.selectedTaskIds) := by
  rw [← and_assoc, ← mergeDone_iff,
    ← hasSame_iff_mem batch.nodup_selectedTaskIds batch.mergePhase.nodup]
  have hpending : batch.mergeVerdict = .pending ↔ _ := mergeVerdict_pending_iff
  have hfailed : batch.mergeVerdict = .failed ↔ _ := mergeVerdict_failed_iff
  by_cases hdone : batch.mergePhase.batchStatus = .done
  · simp only [hdone, ne_eq, reduceCtorEq, not_false_eq_true, true_and, forall_const,
      iff_false] at hpending hfailed ⊢
    cases hverdict : batch.mergeVerdict with
    | completed =>
      simp only [hverdict, reduceCtorEq, false_iff, not_and, Bool.not_eq_false] at hfailed
      simpa using hfailed
    | failed =>
      simp only [hverdict, true_iff] at hfailed
      simp [hfailed.1, hfailed.2]
    | pending => exact absurd hverdict hpending
  · simp only [hdone, false_and, iff_false]
    intro hcompleted
    rw [hcompleted] at hpending hfailed
    simp_all

theorem goesOn_iff (batch : HubFlowBatchExecution) (runMergePhase : Bool) :
    (batch.status runMergePhase ≠ some .failed ∧ batch.status runMergePhase ≠ some .pending) ↔
      batch.Completes runMergePhase := by
  rw [Completes]
  cases hall : batch.results.all isSuccessfulHubTaskResult with
  | false =>
    obtain ⟨result, hresult, hfailed⟩ := batchResult_of_not_all hall runMergePhase
    simp [status, hresult, hfailed]
  | true =>
    cases runMergePhase with
    | true =>
      obtain ⟨result, hresult, hstatus, -⟩ := batchResult_of_all hall
      have hsome : batch.status true = some batch.mergeVerdict := by
        rw [status, hresult, Option.map_some, hstatus]
      rw [hsome]
      simp only [true_and, forall_const]
      rw [← mergeVerdict_completed_iff]
      cases batch.mergeVerdict <;> simp
    | false =>
      have hany : batch.results.any (fun result => !isSuccessfulHubTaskResult result) = false := by
        rw [List.any_eq_false]
        intro result hmem
        simp [List.all_eq_true.mp hall result hmem]
      have hstatus : resolveHubFlowBatchStatus batch.selectedTaskIds batch.results none =
          .completed := by
        rw [resolveHubFlowBatchStatus, hany, if_neg Bool.false_ne_true]
      have hgoes : ∀ r, (resolveHubFlowBatchResult batch.selectedTaskIds batch.results none).map
          (·.batchStatus) = some r → r = .completed := by
        intro r hr
        rw [resolveHubFlowBatchResult, hstatus] at hr
        split at hr
        · cases hr
        · exact (Option.some.inj hr).symm
      have hnone : batch.mergeResult false = none := rfl
      have hboth : ∀ r, batch.status false = some r → r = .completed := by
        intro r hr
        rw [status, batchResult, hnone] at hr
        cases hresumed : batch.resumed with
        | false =>
          rw [hresumed, if_neg Bool.false_ne_true] at hr
          exact hgoes r hr
        | true =>
          rw [hresumed, if_pos rfl, resolveResumedHubFlowBatchResult] at hr
          split at hr
          · exact hgoes r hr
          · cases hr
      simp only [true_and, Bool.false_eq_true, false_imp_iff, iff_true]
      constructor
      · intro h
        cases hboth _ h
      · intro h
        cases hboth _ h

theorem status_of_completes (h : batch.Completes runMergePhase) {result : HubFlowBatchResult}
    (hresult : batch.batchResult runMergePhase = some result) : result.batchStatus = .completed := by
  have hgoes := (goesOn_iff batch runMergePhase).mpr h
  rw [status, hresult, Option.map_some] at hgoes
  cases hstatus : result.batchStatus with
  | completed => rfl
  | failed => simp [hstatus] at hgoes
  | pending => simp [hstatus] at hgoes

theorem completes_of_status {result : HubFlowBatchResult}
    (hresult : batch.batchResult runMergePhase = some result)
    (hstatus : result.batchStatus = .completed) : batch.Completes runMergePhase := by
  rw [← goesOn_iff, status, hresult, Option.map_some, hstatus]
  simp

theorem resultIds (batch : HubFlowBatchExecution) (runMergePhase : Bool)
    {result : HubFlowBatchResult} (hresult : batch.batchResult runMergePhase = some result) :
    result.selectedTaskIds =
      resolveHubFlowBatchTaskIds batch.selectedTaskIds (batch.mergeResult runMergePhase) := by
  have hids : ∀ result, resolveHubFlowBatchResult batch.selectedTaskIds batch.results
      (batch.mergeResult runMergePhase) = some result → result.selectedTaskIds =
        resolveHubFlowBatchTaskIds batch.selectedTaskIds (batch.mergeResult runMergePhase) := by
    intro result h
    rw [resolveHubFlowBatchResult] at h
    split at h
    · cases h
    · obtain rfl := Option.some.inj h
      rfl
  rw [batchResult] at hresult
  cases hresumed : batch.resumed with
  | false =>
    rw [hresumed, if_neg Bool.false_ne_true] at hresult
    exact hids result hresult
  | true =>
    rw [hresumed, if_pos rfl, resolveResumedHubFlowBatchResult] at hresult
    split at hresult
    · exact hids result hresult
    · rename_i hwork
      have hnil : batch.results = [] := List.eq_nil_of_length_eq_zero (by omega)
      have hnone : batch.selectedTaskIds = [] := by
        rw [selectedTaskIds, hnil]
        rfl
      rw [hnone, hnil] at hids
      rw [hnone]
      cases hmerge : batch.mergeResult runMergePhase with
      | none =>
        rw [hmerge] at hresult
        cases hresult
      | some merge =>
        rw [hmerge, resolveMergeOnlyHubFlowBatchResult] at hresult
        split at hresult
        · obtain rfl := Option.some.inj hresult
          rfl
        · rw [hmerge] at hids
          exact hids result hresult

/-- A batch that completes counts the tasks of its merge, or without a merge phase those that it
worked on. -/
theorem mem_resultIds (h : batch.Completes runMergePhase) {result : HubFlowBatchResult}
    (hresult : batch.batchResult runMergePhase = some result) :
    taskId ∈ result.selectedTaskIds ↔ taskId ∈ batch.countedTaskIds runMergePhase := by
  rw [resultIds batch runMergePhase hresult, resolveHubFlowBatchTaskIds, countedTaskIds,
    mergeResult, h.1, Bool.and_true]
  cases runMergePhase with
  | true =>
    split
    · rename_i hlength
      exact (h.2 rfl).2.2 (List.ne_nil_of_length_pos hlength) taskId
    · rfl
  | false =>
    split
    · rfl
    · rename_i hlength
      have hnil : batch.selectedTaskIds = [] := List.eq_nil_of_length_eq_zero (by omega)
      simp [hnil]

theorem batchResult_of_counted (h : batch.Completes runMergePhase)
    (hmem : taskId ∈ batch.countedTaskIds runMergePhase) :
    ∃ result, batch.batchResult runMergePhase = some result := by
  cases runMergePhase with
  | true =>
    obtain ⟨result, hresult, -⟩ := batchResult_of_all h.1
    exact ⟨result, hresult⟩
  | false =>
    have hmem' : taskId ∈ batch.selectedTaskIds := hmem
    have hpos : 0 < batch.selectedTaskIds.length := List.length_pos_of_mem hmem'
    have hwork : batch.results.length > 0 := by
      rw [selectedTaskIds, List.length_map] at hpos
      exact hpos
    have hsome : ∃ result, resolveHubFlowBatchResult batch.selectedTaskIds batch.results
        (batch.mergeResult false) = some result := by
      rw [resolveHubFlowBatchResult]
      exact ⟨_, if_neg (by simp [Nat.ne_of_gt hpos])⟩
    rw [batchResult]
    cases batch.resumed with
    | false => exact hsome
    | true =>
      rw [if_pos rfl, resolveResumedHubFlowBatchResult, if_pos hwork]
      exact hsome

end

end HubFlowBatchExecution

/-! ### A run -/

/-- The batches that a run may find, in order. A task is in one batch only: what a batch has taken
is not ready for another one. -/
structure HubFlowHistory where
  input : RunHubFlowInput
  batches : List HubFlowBatchExecution
  distinct : (batches.flatMap (·.members)).Nodup

theorem executedFrom_prefix (input : RunHubFlowInput) (count : Nat)
    (batches : List HubFlowBatchExecution) : executedFrom input count batches <+: batches := by
  induction batches generalizing count with
  | nil => exact List.prefix_rfl
  | cons batch batches ih =>
    rw [executedFrom]
    split
    · exact ⟨batches, rfl⟩
    · exact (List.prefix_cons_inj batch).mpr (ih _)

namespace HubFlowHistory

variable (history : HubFlowHistory)

def result : RunHubFlowResult :=
  runObservedHubFlow history.input history.batches

def executed : List HubFlowBatchExecution :=
  executedFrom history.input 0 history.batches

def runMergePhase : Bool :=
  history.input.runMergePhase

/-- The merge that the run keeps: that of the last batch that has one. -/
def lastMerge : Option RunHubBatchMergeResult :=
  history.executed.foldl (fun merge batch => batch.mergeResult history.runMergePhase <|> merge)
    none

theorem result_batchResults : history.result.batchResults = history.executed.flatMap
    fun batch => (batch.batchResult history.runMergePhase).toList :=
  (runBatches_collects history.input {} history.batches).1

theorem result_results : history.result.results = history.executed.flatMap (·.results) :=
  (runBatches_collects history.input {} history.batches).2.1

theorem result_mergeResult : history.result.mergeResult = history.lastMerge :=
  (runBatches_collects history.input {} history.batches).2.2

theorem nodup_executed : (history.executed.flatMap (·.members)).Nodup := by
  obtain ⟨rest, hrest⟩ := executedFrom_prefix history.input 0 history.batches
  have hdistinct := history.distinct
  rw [← hrest, List.flatMap_append] at hdistinct
  exact hdistinct.of_append_left

variable {history} {batch batch' : HubFlowBatchExecution} {taskId : TaskId}

theorem eq_of_member (hbatch : batch ∈ history.executed) (hbatch' : batch' ∈ history.executed)
    (hmem : taskId ∈ batch.members) (hmem' : taskId ∈ batch'.members) : batch = batch' := by
  have hpairwise := (List.nodup_flatMap.mp history.nodup_executed).2
  have hsymm : Std.Symm (Function.onFun List.Disjoint
      fun batch : HubFlowBatchExecution => batch.members) := ⟨fun _ _ h => h.symm⟩
  by_contra hne
  exact hpairwise.forall hbatch hbatch' hne hmem hmem'

theorem executed_init (history : HubFlowHistory) : history.executed = [] ∨ ∃ init last,
    history.executed = init ++ [last] ∧
      ∀ batch ∈ init, batch.Completes history.runMergePhase := by
  rcases executedFrom_init history.input 0 history.batches with hnil | ⟨init, last, hshape, hinit⟩
  · exact Or.inl hnil
  · refine Or.inr ⟨init, last, hshape, fun batch hmem => ?_⟩
    exact (HubFlowBatchExecution.goesOn_iff batch _).mp (hinit batch hmem)

theorem mergeResult_some {merge : RunHubBatchMergeResult}
    (h : batch.mergeResult history.runMergePhase = some merge) :
    history.runMergePhase = true ∧ batch.results.all isSuccessfulHubTaskResult = true ∧
      merge = batch.mergePhase := by
  rw [HubFlowBatchExecution.mergeResult] at h
  split at h
  · rename_i hboth
    rw [Bool.and_eq_true] at hboth
    exact ⟨hboth.1, hboth.2, (Option.some.inj h).symm⟩
  · cases h

theorem foldl_merge_mem {batches : List HubFlowBatchExecution} {on : Bool}
    {start : Option RunHubBatchMergeResult} {merge : RunHubBatchMergeResult}
    (h : batches.foldl (fun merge batch => batch.mergeResult on <|> merge) start = some merge) :
    start = some merge ∨ ∃ batch ∈ batches, batch.mergeResult on = some merge := by
  induction batches generalizing start with
  | nil => exact Or.inl h
  | cons first rest ih =>
    rw [List.foldl_cons] at h
    rcases ih h with hstart | ⟨batch, hmem, hmerge⟩
    · cases hfirst : first.mergeResult on with
      | some own =>
        rw [hfirst] at hstart
        have hown : some own = some merge := hstart
        exact Or.inr ⟨first, List.mem_cons_self, hfirst.trans hown⟩
      | none =>
        rw [hfirst] at hstart
        exact Or.inl hstart
    · exact Or.inr ⟨batch, List.mem_cons_of_mem _ hmem, hmerge⟩

theorem lastMerge_mem {merge : RunHubBatchMergeResult} (h : history.lastMerge = some merge) :
    ∃ batch ∈ history.executed, batch.mergeResult history.runMergePhase = some merge := by
  rcases foldl_merge_mem h with hstart | hbatch
  · cases hstart
  · exact hbatch

theorem lastMerge_of_not_completes (hbatch : batch ∈ history.executed)
    (hnot : ¬batch.Completes history.runMergePhase) {merge : RunHubBatchMergeResult}
    (hmerge : batch.mergeResult history.runMergePhase = some merge) :
    history.lastMerge = some merge := by
  rcases executed_init history with hnil | ⟨init, last, hshape, hinit⟩
  · rw [hnil] at hbatch
    cases hbatch
  · rw [hshape, List.mem_append, List.mem_singleton] at hbatch
    rcases hbatch with hmem | rfl
    · exact absurd (hinit batch hmem) hnot
    · rw [lastMerge, hshape, List.foldl_append, List.foldl_cons, List.foldl_nil, hmerge]
      rfl

/-! What the run has about a task comes from the batch that it is a member of. -/

theorem mem_members_of_result {result : HubFlowTaskResult} (hmem : result ∈ batch.results) :
    result.taskId ∈ batch.members :=
  List.mem_append_left _ (List.mem_map_of_mem hmem)

theorem nodup_results (history : HubFlowHistory) :
    (history.result.results.map (·.taskId)).Nodup := by
  rw [result_results, List.map_flatMap]
  have hsub : ∀ batches : List HubFlowBatchExecution,
      (batches.flatMap fun batch => batch.results.map (·.taskId)).Sublist
        (batches.flatMap (·.members)) := by
    intro batches
    induction batches with
    | nil => exact .slnil
    | cons batch batches ih =>
      rw [List.flatMap_cons, List.flatMap_cons]
      exact (List.sublist_append_left _ _).append ih
  exact history.nodup_executed.sublist (hsub _)

theorem find?_results (hbatch : batch ∈ history.executed) (hmember : taskId ∈ batch.members) :
    history.result.results.find? (fun result => result.taskId = taskId) =
      batch.results.find? fun result => result.taskId = taskId := by
  cases hfind : batch.results.find? fun result => result.taskId = taskId with
  | some result =>
    have hmem := List.mem_of_find?_eq_some hfind
    have hsame : result.taskId = taskId := by
      simpa using List.find?_some hfind
    rw [← hsame]
    refine find?_of_mem history.nodup_results ?_
    rw [result_results]
    exact List.mem_flatMap.mpr ⟨batch, hbatch, hmem⟩
  | none =>
    rw [List.find?_eq_none] at hfind ⊢
    intro result hmem hsame
    rw [result_results] at hmem
    obtain ⟨other, hother, hmem'⟩ := List.mem_flatMap.mp hmem
    have hid : result.taskId = taskId := by simpa using hsame
    obtain rfl := eq_of_member hbatch hother hmember (hid ▸ mem_members_of_result hmem')
    exact hfind result hmem' hsame

/-- The completed batches count a task exactly when the batch that it is a member of completes and
counts it. -/
theorem mem_completedTaskIds :
    taskId ∈ HubRunTaskClasses.completedTaskIds history.result.batchResults ↔
      ∃ batch ∈ history.executed, batch.Completes history.runMergePhase ∧
        taskId ∈ batch.countedTaskIds history.runMergePhase := by
  rw [HubRunTaskClasses.completedTaskIds, result_batchResults, List.mem_flatMap]
  constructor
  · rintro ⟨result, hmem, htask⟩
    obtain ⟨batch, hbatch, hresult⟩ := List.mem_flatMap.mp hmem
    rw [Option.mem_toList] at hresult
    by_cases hstatus : result.batchStatus = .completed
    · rw [if_pos hstatus] at htask
      have hcompletes := HubFlowBatchExecution.completes_of_status hresult hstatus
      exact ⟨batch, hbatch, hcompletes,
        (HubFlowBatchExecution.mem_resultIds hcompletes hresult).mp htask⟩
    · rw [if_neg hstatus] at htask
      cases htask
  · rintro ⟨batch, hbatch, hcompletes, htask⟩
    obtain ⟨result, hresult⟩ := HubFlowBatchExecution.batchResult_of_counted hcompletes htask
    refine ⟨result, List.mem_flatMap.mpr ⟨batch, hbatch, Option.mem_toList.mpr hresult⟩, ?_⟩
    rw [if_pos (HubFlowBatchExecution.status_of_completes hcompletes hresult)]
    exact (HubFlowBatchExecution.mem_resultIds hcompletes hresult).mpr htask

/-! ### The marks of a task after a run -/

/-- The entry of the last merge's selection for a task. -/
def diagnosticOf (history : HubFlowHistory) (taskId : TaskId) :
    Option HubBatchMergeSelectionDiagnostic :=
  ((history.lastMerge.map (·.selectionDiagnostics)).getD []).find? fun diagnostic =>
    diagnostic.taskId = taskId

def mergeOf (history : HubFlowHistory) (taskId : TaskId) : Option HubBatchMergeTaskResult :=
  ((history.lastMerge.map (·.results)).getD []).find? fun task => task.taskId = taskId

def resultOf (history : HubFlowHistory) (taskId : TaskId) : Option HubFlowTaskResult :=
  history.result.results.find? fun result => result.taskId = taskId

def Counted (history : HubFlowHistory) (taskId : TaskId) : Prop :=
  ∃ batch ∈ history.executed, batch.Completes history.runMergePhase ∧
    taskId ∈ batch.countedTaskIds history.runMergePhase

def marks (history : HubFlowHistory) (taskId : TaskId) : Marks :=
  (classifyHubRunTasks history.result).marks taskId

theorem marks_classify (history : HubFlowHistory) (taskId : TaskId) :
    history.marks taskId =
      ((Marks.afterTask
        { completed := taskId ∈ HubRunTaskClasses.completedTaskIds history.result.batchResults }
        (history.resultOf taskId)).afterDiagnostic (history.diagnosticOf taskId)).afterMerge
          (history.mergeOf taskId) := by
  have hdiagnosed : (((history.lastMerge.map (·.selectionDiagnostics)).getD []).map
      (·.taskId)).Nodup := by
    cases history.lastMerge with
    | none => exact List.nodup_nil
    | some merge => exact merge.diagnosed
  have hmerged : (((history.lastMerge.map (·.results)).getD []).map (·.taskId)).Nodup := by
    cases history.lastMerge with
    | none => exact List.nodup_nil
    | some merge => exact HubFlowBatchExecution.nodup_results merge
  have htasks : ∀ classes, (history.result.results.foldl HubRunTaskClasses.addTask classes).marks
      taskId = (classes.marks taskId).afterTask (history.resultOf taskId) := fun classes =>
    marks_foldl (fun _ => rfl) HubRunTaskClasses.marks_addTask
      (fun _ _ _ => HubRunTaskClasses.marks_addTask_of_ne) history.nodup_results classes taskId
  have hdiagnostics : ∀ classes, (((history.lastMerge.map (·.selectionDiagnostics)).getD []).foldl
      HubRunTaskClasses.addDiagnostic classes).marks taskId =
        (classes.marks taskId).afterDiagnostic (history.diagnosticOf taskId) := fun classes =>
    marks_foldl (fun _ => rfl) HubRunTaskClasses.marks_addDiagnostic
      (fun _ _ _ => HubRunTaskClasses.marks_addDiagnostic_of_ne) hdiagnosed classes taskId
  have hmerges : ∀ classes, (((history.lastMerge.map (·.results)).getD []).foldl
      HubRunTaskClasses.addMerge classes).marks taskId =
        (classes.marks taskId).afterMerge (history.mergeOf taskId) := fun classes =>
    marks_foldl (fun _ => rfl) HubRunTaskClasses.marks_addMerge
      (fun _ _ _ => HubRunTaskClasses.marks_addMerge_of_ne) hmerged classes taskId
  rw [marks, classifyHubRunTasks, result_mergeResult, hmerges, hdiagnostics, htasks]
  simp [HubRunTaskClasses.marks]

theorem mem_completed_iff :
    taskId ∈ HubRunTaskClasses.completedTaskIds history.result.batchResults ↔
      history.Counted taskId :=
  mem_completedTaskIds

theorem resultOf_of_mem (hbatch : batch ∈ history.executed) {result : HubFlowTaskResult}
    (hmem : result ∈ batch.results) : history.resultOf result.taskId = some result := by
  rw [resultOf, find?_results hbatch (mem_members_of_result hmem)]
  exact find?_of_mem batch.nodup_selectedTaskIds hmem

theorem resultOf_some {result : HubFlowTaskResult} (h : history.resultOf taskId = some result) :
    ∃ batch ∈ history.executed, result ∈ batch.results ∧ result.taskId = taskId := by
  have hmem := List.mem_of_find?_eq_some h
  rw [result_results] at hmem
  obtain ⟨batch, hbatch, hresult⟩ := List.mem_flatMap.mp hmem
  have hsame := List.find?_some h
  exact ⟨batch, hbatch, hresult, of_decide_eq_true hsame⟩

theorem mergeOf_some {task : HubBatchMergeTaskResult} (h : history.mergeOf taskId = some task) :
    ∃ batch ∈ history.executed, batch.mergeResult history.runMergePhase = some batch.mergePhase ∧
      task ∈ batch.mergePhase.results ∧ task.taskId = taskId := by
  have hmem := List.mem_of_find?_eq_some h
  have hsame := List.find?_some h
  cases hlast : history.lastMerge with
  | none =>
    rw [hlast] at hmem
    cases hmem
  | some merge =>
    rw [hlast] at hmem
    obtain ⟨batch, hbatch, hmerge⟩ := lastMerge_mem hlast
    obtain ⟨-, -, rfl⟩ := mergeResult_some hmerge
    exact ⟨batch, hbatch, hmerge, hmem, of_decide_eq_true hsame⟩

theorem mergeOf_of_not_completes (hbatch : batch ∈ history.executed)
    (hnot : ¬batch.Completes history.runMergePhase)
    (hmerge : batch.mergeResult history.runMergePhase = some batch.mergePhase)
    {task : HubBatchMergeTaskResult} (hmem : task ∈ batch.mergePhase.results) :
    history.mergeOf task.taskId = some task := by
  rw [mergeOf, lastMerge_of_not_completes hbatch hnot hmerge]
  exact find?_of_mem (HubFlowBatchExecution.nodup_results _) hmem

theorem mem_members_of_merge {task : HubBatchMergeTaskResult}
    (hmem : task ∈ batch.mergePhase.results) : task.taskId ∈ batch.members :=
  HubFlowBatchExecution.mem_members_of_selected
    (HubFlowBatchExecution.mem_selected_of_result hmem)

theorem waits_of_selected {result : HubFlowTaskResult} (hmem : result ∈ batch.results)
    (hselected : result.taskId ∈ batch.mergePhase.selectedTaskIds) :
    result.hubStatus = .waitingForMerge := by
  rcases batch.selection _ hselected with hwaiting | ⟨other, hother, hsame, hwaits⟩
  · exact absurd hwaiting
      (List.disjoint_of_nodup_append batch.nodup (List.mem_map_of_mem hmem))
  · have hfind := find?_of_mem batch.nodup_selectedTaskIds hother
    rw [hsame, find?_of_mem batch.nodup_selectedTaskIds hmem] at hfind
    obtain rfl := Option.some.inj hfind
    exact hwaits

theorem marks_counted (h : history.Counted taskId) :
    history.marks taskId = { completed := true } := by
  have hstart : ∀ result, Marks.afterTask { completed := true } result = { completed := true } := by
    intro result
    cases result <;> rfl
  have hselection : ∀ diagnostic,
      Marks.afterDiagnostic { completed := true } diagnostic = { completed := true } := by
    intro diagnostic
    cases diagnostic <;> rfl
  rw [marks_classify, decide_eq_true (mem_completed_iff.mpr h), hstart, hselection]
  cases hmerge : history.mergeOf taskId with
  | none => rfl
  | some task =>
    -- The merge is that of the completed batch, where all is merged.
    obtain ⟨batch, hbatch, hcompletes, hcounted⟩ := h
    obtain ⟨own, hown, hphase, hmem, hsame⟩ := mergeOf_some hmerge
    have hon := (mergeResult_some hphase).1
    rw [HubFlowBatchExecution.countedTaskIds, hon, if_pos rfl] at hcounted
    obtain rfl := eq_of_member hown hbatch (hsame ▸ mem_members_of_merge hmem)
      (HubFlowBatchExecution.mem_members_of_selected hcounted)
    have hmerged := (hcompletes.2 hon).2.1 task hmem
    simp [Marks.afterMerge, Marks.addMerge, hmerged]

theorem marks_not_counted (h : ¬history.Counted taskId) :
    history.marks taskId = ((Marks.afterTask {} (history.resultOf taskId)).afterDiagnostic
      (history.diagnosticOf taskId)).afterMerge (history.mergeOf taskId) := by
  rw [marks_classify, decide_eq_false (mem_completed_iff.not.mpr h)]

theorem addMerge_of_open {marks : Marks} (hcompleted : marks.completed = false)
    (hfailed : marks.failed = false) (task : HubBatchMergeTaskResult) :
    marks.addMerge task = Marks.addMerge {} task := by
  simp only [Marks.addMerge, hcompleted, hfailed]

theorem afterDiagnostic_open (marks : Marks)
    (diagnostic : Option HubBatchMergeSelectionDiagnostic) :
    (marks.afterDiagnostic diagnostic).completed = marks.completed ∧
      (marks.afterDiagnostic diagnostic).failed = marks.failed := by
  cases diagnostic with
  | none => exact ⟨rfl, rfl⟩
  | some diagnostic =>
    rw [Marks.afterDiagnostic]
    unfold Marks.addDecision
    split_ifs
    · exact ⟨rfl, rfl⟩
    · cases diagnostic.decision <;> exact ⟨rfl, rfl⟩

theorem marks_merged (h : ¬history.Counted taskId) {task : HubBatchMergeTaskResult}
    (hmerge : history.mergeOf taskId = some task) :
    history.marks taskId = Marks.addMerge {} task := by
  have hopen : (Marks.afterTask {} (history.resultOf taskId)).completed = false ∧
      (Marks.afterTask {} (history.resultOf taskId)).failed = false := by
    cases hresult : history.resultOf taskId with
    | none => exact ⟨rfl, rfl⟩
    | some result =>
      obtain ⟨batch, hbatch, hmem, hid⟩ := resultOf_some hresult
      obtain ⟨own, hown, hphase, hmem', hsame⟩ := mergeOf_some hmerge
      obtain rfl := eq_of_member hown hbatch (hsame ▸ mem_members_of_merge hmem')
        (hid ▸ mem_members_of_result hmem)
      have hsuccess := List.all_eq_true.mp (mergeResult_some hphase).2.1 result hmem
      have hselected := HubFlowBatchExecution.mem_selected_of_result hmem'
      rw [hsame, ← hid] at hselected
      have hwaits := waits_of_selected hmem hselected
      rw [isSuccessfulHubTaskResult] at hsuccess
      rw [Marks.afterTask, Marks.addTask, hwaits]
      cases houtcome : result.outcome <;> simp_all
  obtain ⟨hcompleted, hfailed⟩ :=
    afterDiagnostic_open (Marks.afterTask {} (history.resultOf taskId))
      (history.diagnosticOf taskId)
  rw [marks_not_counted h, hmerge, Marks.afterMerge]
  exact addMerge_of_open (hcompleted.trans hopen.1) (hfailed.trans hopen.2) task

theorem marks_unmerged (h : ¬history.Counted taskId) (hmerge : history.mergeOf taskId = none) :
    history.marks taskId = (Marks.afterTask {} (history.resultOf taskId)).afterDiagnostic
      (history.diagnosticOf taskId) := by
  rw [marks_not_counted h, hmerge, Marks.afterMerge]

/-! ### The exit code -/

theorem exitCode_iff (history : HubFlowHistory) :
    (projectHubRunOutcome history.result).exitCode = 0 ↔
      ∀ batch ∈ history.executed, batch.Completes history.runMergePhase := by
  obtain ⟨hfailed, hpending⟩ := runBatches_stopReason history.input {} history.batches
  constructor
  · intro hexit batch hbatch
    apply (HubFlowBatchExecution.goesOn_iff batch _).mp
    have hkind : history.result.stopReason ≠ .batchFailed ∧
        history.result.stopReason ≠ .batchPending := by
      rw [projectHubRunOutcome] at hexit
      dsimp only at hexit
      constructor
      · intro hstop
        rw [resolveHubRunOutcomeKind, hstop] at hexit
        simp only [ne_eq, not_true_eq_false, decide_false, Bool.and_false, Bool.false_eq_true,
          if_false] at hexit
        split at hexit <;> cases hexit
      · intro hstop
        rw [resolveHubRunOutcomeKind, hstop] at hexit
        simp only [ne_eq, reduceCtorEq, not_false_eq_true, decide_true, Bool.or_true,
          Bool.and_true, Bool.false_eq_true, if_false, if_true] at hexit
        split at hexit <;> cases hexit
    exact ⟨fun hstatus => hkind.1 (hfailed.mpr ⟨batch, hbatch, hstatus⟩),
      fun hstatus => hkind.2 (hpending.mpr ⟨batch, hbatch, hstatus⟩)⟩
  · intro hall
    have hgoes : ∀ batch ∈ history.executed, batch.status history.runMergePhase ≠ some .failed ∧
        batch.status history.runMergePhase ≠ some .pending := fun batch hbatch =>
      (HubFlowBatchExecution.goesOn_iff batch _).mpr (hall batch hbatch)
    have hnotFailed : history.result.stopReason ≠ .batchFailed := by
      intro hstop
      obtain ⟨batch, hbatch, hstatus⟩ := hfailed.mp hstop
      exact (hgoes batch hbatch).1 hstatus
    have hnotPending : history.result.stopReason ≠ .batchPending := by
      intro hstop
      obtain ⟨batch, hbatch, hstatus⟩ := hpending.mp hstop
      exact (hgoes batch hbatch).2 hstatus
    have hresults : history.result.batchResults.any
        (fun batch => batch.batchStatus = .pending) = false := by
      rw [List.any_eq_false]
      intro entry hmem
      rw [result_batchResults] at hmem
      obtain ⟨batch, hbatch, hentry⟩ := List.mem_flatMap.mp hmem
      have hstatus := HubFlowBatchExecution.status_of_completes (hall batch hbatch)
        (Option.mem_toList.mp hentry)
      simp [hstatus]
    -- All that the kept merge took is merged.
    have hmerge : ∀ outcome, outcome ≠ .merged → history.result.hasMergeOutcome outcome = false := by
      intro outcome hne
      rw [RunHubFlowResult.hasMergeOutcome, result_mergeResult, List.any_eq_false]
      intro task hmem houtcome
      cases hlast : history.lastMerge with
      | none =>
        rw [hlast] at hmem
        cases hmem
      | some merge =>
        rw [hlast] at hmem
        obtain ⟨batch, hbatch, hphase⟩ := lastMerge_mem hlast
        obtain ⟨hon, -, rfl⟩ := mergeResult_some hphase
        have hmerged := ((hall batch hbatch).2 hon).2.1 task hmem
        exact hne ((of_decide_eq_true houtcome).symm.trans hmerged)
    rw [projectHubRunOutcome]
    dsimp only
    rw [hmerge .pendingDelivery (by decide), hmerge .pending (by decide), hresults,
      resolveHubRunOutcomeKind]
    simp [hnotFailed, hnotPending, resolveHubRunExitCode]

/-! ### An honest outcome -/

/-- The task appears in a batch result, a task result or the merge result. -/
def Appears (history : HubFlowHistory) (taskId : TaskId) : Prop :=
  (∃ entry ∈ history.result.batchResults, taskId ∈ entry.selectedTaskIds) ∨
    (∃ result ∈ history.result.results, result.taskId = taskId) ∨
    ∃ merge ∈ history.result.mergeResult, taskId ∈ merge.selectedTaskIds ∨
      ∃ diagnostic ∈ merge.selectionDiagnostics, diagnostic.taskId = taskId

def Meets (history : HubFlowHistory) (taskId : TaskId) (fate : MemberFate) : Prop :=
  ∃ batch ∈ history.executed, taskId ∈ batch.members ∧
    batch.fate history.runMergePhase taskId = fate

def Troubled (history : HubFlowHistory) (taskId : TaskId) : Prop :=
  history.Meets taskId .failed ∨ history.Meets taskId .blocked ∨
    history.Meets taskId .pending ∨ history.Meets taskId .delivering

/-- The projection is honest about the run: a task that appears is in exactly one set, the completed
tasks are those that shipped, a task whose delivery is pending is neither failed nor blocked, and
the exit code is 0 exactly when no task failed, is blocked or is pending. -/
structure Honest (history : HubFlowHistory) : Prop where
  partition : ∀ taskId, history.Appears taskId → (history.marks taskId).count = 1
  completed : ∀ taskId, (history.marks taskId).completed = true ↔ history.Meets taskId .shipped
  delivering : ∀ taskId, history.Meets taskId .delivering →
    (history.marks taskId).failed = false ∧ (history.marks taskId).blocked = false
  exitCode : (projectHubRunOutcome history.result).exitCode = 0 ↔ ∀ taskId,
    ¬history.Troubled taskId

/-- What happens in the batches of a run that the projection is honest about.

- `closed`: a task is found already merged and closed exactly in a batch whose tasks all succeed, in
  a run without a merge phase.
- `delivered`: no required delivery is pending.
- `fresh`: the merge that the run keeps has not skipped a task that later has another execution.
- `complete`: all batches complete exactly when none of their members failed, is blocked or is
  pending. -/
structure CountsHonestly (history : HubFlowHistory) : Prop where
  closed : ∀ batch ∈ history.executed, ∀ result ∈ batch.results,
    isSuccessfulHubTaskResult result = true → (result.hubStatus = .done ↔
      history.runMergePhase = false ∧ batch.results.all isSuccessfulHubTaskResult = true)
  delivered : ∀ taskId, ¬history.Meets taskId .delivering
  fresh : ∀ batch ∈ history.executed, ∀ result ∈ batch.results,
    result.outcome = .activeExecution → result.hubStatus ≠ .failed →
    ∀ diagnostic ∈ history.diagnosticOf result.taskId, diagnostic.decision ≠ .skipped
  complete : (∀ batch ∈ history.executed, batch.Completes history.runMergePhase) ↔
    ∀ taskId, ¬history.Troubled taskId

/-- A task is counted as completed exactly when a completed batch counts it, or the last merge
merged it. -/
theorem completed_iff : (history.marks taskId).completed = true ↔
    history.Counted taskId ∨ ∃ task, history.mergeOf taskId = some task ∧
      task.outcome = .merged := by
  by_cases hcounted : history.Counted taskId
  · simp [marks_counted hcounted, hcounted]
  · cases hmerge : history.mergeOf taskId with
    | some task =>
      rw [marks_merged hcounted hmerge]
      simp only [hcounted, Marks.addMerge, false_or, Option.some.injEq, exists_eq_left']
      split_ifs <;> simp_all
    | none =>
      rw [marks_unmerged hcounted hmerge, (afterDiagnostic_open _ _).1]
      simp only [hcounted, reduceCtorEq, false_and, exists_false, or_false, iff_false]
      cases history.resultOf taskId with
      | none => simp [Marks.afterTask]
      | some result =>
        rw [Marks.afterTask]
        unfold Marks.addTask
        split_ifs <;> simp

theorem meets_iff {fate : MemberFate} (hbatch : batch ∈ history.executed)
    (hmember : taskId ∈ batch.members) :
    history.Meets taskId fate ↔ batch.fate history.runMergePhase taskId = fate := by
  constructor
  · rintro ⟨other, hother, hmem, hfate⟩
    obtain rfl := eq_of_member hother hbatch hmem hmember
    exact hfate
  · intro hfate
    exact ⟨batch, hbatch, hmember, hfate⟩

theorem mergeResult_eq {merge : RunHubBatchMergeResult}
    (h : batch.mergeResult history.runMergePhase = some merge) :
    batch.mergeResult history.runMergePhase = some batch.mergePhase := by
  obtain ⟨-, -, rfl⟩ := mergeResult_some h
  exact h

theorem mem_members_of_counted (h : taskId ∈ batch.countedTaskIds history.runMergePhase) :
    taskId ∈ batch.members := by
  rw [HubFlowBatchExecution.countedTaskIds] at h
  split at h
  · exact HubFlowBatchExecution.mem_members_of_selected h
  · exact List.mem_append_left _ h

theorem not_counted (hbatch : batch ∈ history.executed) (hmember : taskId ∈ batch.members)
    (hnot : ¬batch.Completes history.runMergePhase) : ¬history.Counted taskId := by
  intro hcounted
  obtain ⟨other, hother, hcompletes, hmem⟩ := hcounted
  obtain rfl := eq_of_member hother hbatch (mem_members_of_counted hmem) hmember
  exact hnot hcompletes

theorem mergeOf_none (hbatch : batch ∈ history.executed) (hmember : taskId ∈ batch.members)
    (hnot : batch.mergeResult history.runMergePhase = none ∨
      taskId ∉ batch.mergePhase.selectedTaskIds) : history.mergeOf taskId = none := by
  cases hmerge : history.mergeOf taskId with
  | none => rfl
  | some task =>
    obtain ⟨own, hown, hphase, hmem, hsame⟩ := mergeOf_some hmerge
    obtain rfl := eq_of_member hown hbatch (hsame ▸ mem_members_of_merge hmem) hmember
    rcases hnot with hnone | hselected
    · rw [hphase] at hnone
      cases hnone
    · exact absurd (hsame ▸ HubFlowBatchExecution.mem_selected_of_result hmem) hselected

theorem not_selected_of_mergeOf {merge : RunHubBatchMergeResult}
    (hlast : history.lastMerge = some merge) (hnone : history.mergeOf taskId = none) :
    taskId ∉ merge.selectedTaskIds := by
  intro hmem
  obtain ⟨task, htask, rfl⟩ := HubFlowBatchExecution.exists_result hmem
  rw [mergeOf, hlast] at hnone
  have hfind := find?_of_mem (HubFlowBatchExecution.nodup_results merge) htask
  exact Option.some_ne_none _ (hfind.symm.trans hnone)

theorem not_completes_of_unsuccessful {result : HubFlowTaskResult} (hmem : result ∈ batch.results)
    (hresult : isSuccessfulHubTaskResult result = false) :
    ¬batch.Completes history.runMergePhase := by
  intro hcompletes
  rw [List.all_eq_true.mp hcompletes.1 result hmem] at hresult
  cases hresult

/-- A task that was found already merged has shipped, and no set has it, unless the batch completes
without a merge phase. -/
theorem shipped_aside (hbatch : batch ∈ history.executed) {result : HubFlowTaskResult}
    (hmem : result ∈ batch.results) (hsuccess : isSuccessfulHubTaskResult result = true)
    (hdone : result.hubStatus = .done)
    (hnot : ¬(history.runMergePhase = false ∧
      batch.results.all isSuccessfulHubTaskResult = true)) :
    history.Meets result.taskId .shipped ∧ (history.marks result.taskId).completed = false := by
  have hmember := mem_members_of_result hmem
  have haside : result.taskId ∉ batch.mergePhase.selectedTaskIds := by
    intro hselected
    rw [waits_of_selected hmem hselected] at hdone
    cases hdone
  have hshipped : result.fate = .shipped := by
    rw [isSuccessfulHubTaskResult] at hsuccess
    rw [HubFlowTaskResult.fate]
    cases houtcome : result.outcome <;> simp_all
  constructor
  · rw [meets_iff hbatch hmember]
    cases hmerge : batch.mergeResult history.runMergePhase with
    | none => exact (HubFlowBatchExecution.fate_of_no_merge hmerge hmem).trans hshipped
    | some merge =>
      have hclosed : batch.closedAside result.taskId = true :=
        List.any_eq_true.mpr ⟨result, hmem, by simp [hdone]⟩
      rw [HubFlowBatchExecution.fate_of_not_selected (mergeResult_eq hmerge) haside, hclosed,
        if_pos rfl]
  · have hcompletes : ¬batch.Completes history.runMergePhase := by
      rintro ⟨hall, hphase⟩
      cases hon : history.runMergePhase with
      | false => exact hnot ⟨hon, hall⟩
      | true =>
        have htasks : result.taskId ∈ batch.selectedTaskIds := List.mem_map_of_mem hmem
        exact haside (((hphase hon).2.2 (List.ne_nil_of_mem htasks) _).mp htasks)
    have hmerge := mergeOf_none hbatch hmember (Or.inr haside)
    rw [← Bool.not_eq_true, completed_iff, hmerge]
    simp [not_counted hbatch hmember hcompletes]

theorem blocked_of_delivering (h : history.Meets taskId .delivering) :
    (history.marks taskId).blocked = true := by
  obtain ⟨batch, hbatch, hmember, hfate⟩ := h
  rw [HubFlowBatchExecution.fate] at hfate
  cases hmerge : batch.mergeResult history.runMergePhase with
  | none =>
    rw [hmerge] at hfate
    dsimp only at hfate
    cases hfind : batch.results.find? fun result => result.taskId = taskId with
    | none =>
      rw [hfind] at hfate
      cases hfate
    | some result =>
      rw [hfind, Option.map_some, Option.getD_some, HubFlowTaskResult.fate] at hfate
      cases houtcome : result.outcome <;> simp only [houtcome, reduceCtorEq] at hfate
      all_goals split at hfate <;> cases hfate
  | some merge =>
    rw [hmerge] at hfate
    dsimp only at hfate
    have hphase := mergeResult_eq hmerge
    obtain rfl := Option.some.inj (hmerge.symm.trans hphase)
    cases hfind : batch.mergePhase.results.find? fun result => result.taskId = taskId with
    | none =>
      rw [hfind] at hfate
      dsimp only at hfate
      split at hfate
      · cases hfate
      · rcases HubFlowBatchExecution.passedOver_fails batch.mergePhase taskId with hpassed | hpassed
        all_goals
          rw [hpassed] at hfate
          cases hfate
    | some task =>
      have hmem := List.mem_of_find?_eq_some hfind
      have hfound := List.find?_some hfind
      have hsame : task.taskId = taskId := of_decide_eq_true hfound
      rw [hfind] at hfate
      have houtcome : task.outcome = .pendingDelivery := by
        dsimp only at hfate
        cases houtcome : task.outcome <;> simp_all [HubBatchMergeOutcome.fate]
      have hcompletes : ¬batch.Completes history.runMergePhase := by
        intro hcompletes
        have hmerged := (hcompletes.2 (mergeResult_some hphase).1).2.1 task hmem
        rw [houtcome] at hmerged
        cases hmerged
      have hown := mergeOf_of_not_completes hbatch hcompletes hphase hmem
      rw [hsame] at hown
      rw [marks_merged (not_counted hbatch hmember hcompletes) hown]
      have hleaves := task.leaves
      rw [houtcome] at hleaves
      simp [Marks.addMerge, houtcome, hleaves.2]

theorem completed_of_shipped (h : history.CountsHonestly)
    (hshipped : history.Meets taskId .shipped) : (history.marks taskId).completed = true := by
  obtain ⟨batch, hbatch, hmember, hfate⟩ := hshipped
  rw [completed_iff]
  cases hmerge : batch.mergeResult history.runMergePhase with
  | none =>
    rw [HubFlowBatchExecution.fate, hmerge] at hfate
    dsimp only at hfate
    cases hfind : batch.results.find? fun result => result.taskId = taskId with
    | none =>
      rw [hfind] at hfate
      cases hfate
    | some result =>
      have hmem := List.mem_of_find?_eq_some hfind
      have hfound := List.find?_some hfind
      have hsame : result.taskId = taskId := of_decide_eq_true hfound
      rw [hfind, Option.map_some, Option.getD_some, HubFlowTaskResult.fate] at hfate
      have hdone : isSuccessfulHubTaskResult result = true ∧ result.hubStatus = .done := by
        rw [isSuccessfulHubTaskResult]
        cases houtcome : result.outcome <;> simp_all
      obtain ⟨hoff, hall⟩ := (h.closed batch hbatch result hmem hdone.1).mp hdone.2
      refine Or.inl ⟨batch, hbatch, ⟨hall, ?_⟩, ?_⟩
      · intro hon
        rw [hoff] at hon
        cases hon
      · rw [HubFlowBatchExecution.countedTaskIds, hoff, if_neg Bool.false_ne_true, ← hsame]
        exact List.mem_map_of_mem hmem
  | some merge =>
    have hphase := mergeResult_eq hmerge
    obtain ⟨hon, hall, -⟩ := mergeResult_some hphase
    by_cases hselected : taskId ∈ batch.mergePhase.selectedTaskIds
    · obtain ⟨task, hmem, rfl⟩ := HubFlowBatchExecution.exists_result hselected
      rw [HubFlowBatchExecution.fate_of_merge hphase hmem] at hfate
      have hmerged : task.outcome = .merged := by
        cases houtcome : task.outcome <;> simp_all [HubBatchMergeOutcome.fate]
      by_cases hcompletes : batch.Completes history.runMergePhase
      · refine Or.inl ⟨batch, hbatch, hcompletes, ?_⟩
        rw [HubFlowBatchExecution.countedTaskIds, hon, if_pos rfl]
        exact hselected
      · exact Or.inr ⟨task, mergeOf_of_not_completes hbatch hcompletes hphase hmem, hmerged⟩
    · -- No task is closed aside in a run with a merge phase.
      rw [HubFlowBatchExecution.fate_of_not_selected hphase hselected] at hfate
      split at hfate
      · rename_i hclosed
        obtain ⟨result, hmem, hresult⟩ := List.any_eq_true.mp hclosed
        simp only [Bool.and_eq_true, decide_eq_true_eq] at hresult
        have hsuccess := List.all_eq_true.mp hall result hmem
        have hoff := ((h.closed batch hbatch result hmem hsuccess).mp hresult.2).1
        rw [hon] at hoff
        cases hoff
      · rcases HubFlowBatchExecution.passedOver_fails batch.mergePhase taskId with hpassed | hpassed
        all_goals
          rw [hpassed] at hfate
          cases hfate

theorem shipped_of_completed (h : history.CountsHonestly)
    (hcompleted : (history.marks taskId).completed = true) : history.Meets taskId .shipped := by
  rcases completed_iff.mp hcompleted with ⟨batch, hbatch, hcompletes, hmem⟩ | ⟨task, hmerge, hmerged⟩
  · rw [meets_iff hbatch (mem_members_of_counted hmem)]
    cases hon : history.runMergePhase with
    | true =>
      rw [hon, HubFlowBatchExecution.countedTaskIds, if_pos rfl] at hmem
      obtain ⟨task, htask, rfl⟩ := HubFlowBatchExecution.exists_result hmem
      rw [HubFlowBatchExecution.fate_of_merge
        (HubFlowBatchExecution.mergeResult_of_all hcompletes.1) htask,
        (hcompletes.2 hon).2.1 task htask]
      rfl
    | false =>
      rw [hon, HubFlowBatchExecution.countedTaskIds, if_neg Bool.false_ne_true] at hmem
      obtain ⟨result, hresult, rfl⟩ := List.mem_map.mp hmem
      have hsuccess := List.all_eq_true.mp hcompletes.1 result hresult
      have hdone := (h.closed batch hbatch result hresult hsuccess).mpr ⟨hon, hcompletes.1⟩
      have hnone : batch.mergeResult false = none := rfl
      rw [HubFlowBatchExecution.fate_of_no_merge hnone hresult, HubFlowTaskResult.fate]
      rw [isSuccessfulHubTaskResult] at hsuccess
      cases houtcome : result.outcome <;> simp_all
  · obtain ⟨batch, hbatch, hphase, hmem, rfl⟩ := mergeOf_some hmerge
    rw [meets_iff hbatch (mem_members_of_merge hmem),
      HubFlowBatchExecution.fate_of_merge hphase hmem, hmerged]
    rfl

theorem count_addMerge (task : HubBatchMergeTaskResult) :
    (Marks.addMerge {} task).count = 1 := by
  rw [Marks.addMerge]
  split_ifs <;> rfl

theorem count_of_result (h : history.CountsHonestly) (hbatch : batch ∈ history.executed)
    {result : HubFlowTaskResult} (hmem : result ∈ batch.results)
    (hcounted : ¬history.Counted result.taskId) (hmerge : history.mergeOf result.taskId = none) :
    (history.marks result.taskId).count = 1 := by
  rw [marks_unmerged hcounted hmerge, resultOf_of_mem hbatch hmem]
  have hwaits : isSuccessfulHubTaskResult result = true → result.hubStatus = .waitingForMerge := by
    intro hsuccess
    have hleaves := result.leaves
    by_cases hdone : result.hubStatus = .done
    · -- A batch that completes without a merge phase counts its tasks.
      obtain ⟨hoff, hall⟩ := (h.closed batch hbatch result hmem hsuccess).mp hdone
      refine absurd ⟨batch, hbatch, ⟨hall, ?_⟩, ?_⟩ hcounted
      · intro hon
        rw [hoff] at hon
        cases hon
      · rw [HubFlowBatchExecution.countedTaskIds, hoff, if_neg Bool.false_ne_true]
        exact List.mem_map_of_mem hmem
    · rw [isSuccessfulHubTaskResult] at hsuccess
      cases houtcome : result.outcome <;> simp_all [HubFlowTaskOutcome.Leaves]
  have hfresh := h.fresh batch hbatch result hmem
  simp only [isSuccessfulHubTaskResult, Bool.or_eq_true, decide_eq_true_eq] at hwaits
  cases hdiagnostic : history.diagnosticOf result.taskId with
  | none =>
    simp only [Marks.afterTask, Marks.afterDiagnostic, Marks.addTask, Bool.false_eq_true, if_false]
    cases houtcome : result.outcome <;> by_cases hstatus : result.hubStatus = .failed <;>
      simp_all [Marks.count]
  | some diagnostic =>
    simp only [Marks.afterTask, Marks.afterDiagnostic, Marks.addTask, Bool.false_eq_true, if_false]
    cases houtcome : result.outcome <;> by_cases hstatus : result.hubStatus = .failed <;>
      cases hdecision : diagnostic.decision <;>
      simp_all [Marks.count, Marks.addDecision]

theorem count_of_appears (h : history.CountsHonestly) (happears : history.Appears taskId) :
    (history.marks taskId).count = 1 := by
  by_cases hcounted : history.Counted taskId
  · rw [marks_counted hcounted]
    rfl
  cases hmerge : history.mergeOf taskId with
  | some task =>
    rw [marks_merged hcounted hmerge]
    exact count_addMerge task
  | none =>
    cases hresult : history.resultOf taskId with
    | some result =>
      obtain ⟨batch, hbatch, hmem, rfl⟩ := resultOf_some hresult
      exact count_of_result h hbatch hmem hcounted hmerge
    | none =>
      have hno : ∀ batch ∈ history.executed, taskId ∉ batch.selectedTaskIds := by
        intro batch hbatch hmem
        obtain ⟨result, hmem', rfl⟩ := List.mem_map.mp hmem
        rw [resultOf_of_mem hbatch hmem'] at hresult
        cases hresult
      rcases happears with ⟨entry, hentry, hmem⟩ | ⟨result, hmem, rfl⟩ | ⟨merge, hlast, hmem⟩
      · -- The batch result has the tasks of the merge, so it is the last merge or a counted task.
        rw [result_batchResults] at hentry
        obtain ⟨batch, hbatch, hentry⟩ := List.mem_flatMap.mp hentry
        rw [HubFlowBatchExecution.resultIds batch _ (Option.mem_toList.mp hentry),
          resolveHubFlowBatchTaskIds] at hmem
        split at hmem
        · exact absurd hmem (hno batch hbatch)
        · cases hphase : batch.mergeResult history.runMergePhase with
          | none =>
            rw [hphase] at hmem
            cases hmem
          | some merge =>
            obtain ⟨hon, -, rfl⟩ := mergeResult_some hphase
            rw [hphase, Option.map_some, Option.getD_some] at hmem
            by_cases hcompletes : batch.Completes history.runMergePhase
            · refine absurd ⟨batch, hbatch, hcompletes, ?_⟩ hcounted
              rw [HubFlowBatchExecution.countedTaskIds, hon, if_pos rfl]
              exact hmem
            · have hlast := lastMerge_of_not_completes hbatch hcompletes hphase
              exact absurd hmem (not_selected_of_mergeOf hlast hmerge)
      · rw [result_results] at hmem
        obtain ⟨batch, hbatch, hmem'⟩ := List.mem_flatMap.mp hmem
        exact absurd (List.mem_map_of_mem hmem') (hno batch hbatch)
      · rw [result_mergeResult] at hlast
        have hselected := not_selected_of_mergeOf hlast hmerge
        rcases hmem with hmem | ⟨diagnostic, hmem, rfl⟩
        · exact absurd hmem hselected
        · have hfind : history.diagnosticOf diagnostic.taskId = some diagnostic := by
            rw [diagnosticOf, hlast]
            exact find?_of_mem merge.diagnosed hmem
          have hdecision := (merge.selected diagnostic hmem).not.mpr hselected
          rw [marks_unmerged hcounted hmerge, hresult, hfind]
          simp only [Marks.afterTask, Marks.afterDiagnostic, Marks.addDecision, Bool.false_eq_true,
            or_self, if_false]
          cases hcase : diagnostic.decision with
          | selected => exact absurd hcase hdecision
          | skipped => rfl
          | blocked => rfl

theorem Honest.countsHonestly (h : history.Honest) : history.CountsHonestly := by
  refine ⟨?closed, ?delivered, ?fresh, (exitCode_iff history).symm.trans h.exitCode⟩
  case closed =>
    intro batch hbatch result hmem hsuccess
    constructor
    · intro hdone
      by_contra hnot
      obtain ⟨hshipped, huncounted⟩ := shipped_aside hbatch hmem hsuccess hdone hnot
      rw [(h.completed result.taskId).mpr hshipped] at huncounted
      cases huncounted
    · rintro ⟨hoff, hall⟩
      -- The batch completes and counts the task, so the task has shipped.
      have hmember := mem_members_of_result hmem
      have hcompletes : batch.Completes history.runMergePhase := by
        refine ⟨hall, fun hon => ?_⟩
        rw [hoff] at hon
        cases hon
      have hcounted : history.Counted result.taskId := by
        refine ⟨batch, hbatch, hcompletes, ?_⟩
        rw [HubFlowBatchExecution.countedTaskIds, hoff, if_neg Bool.false_ne_true]
        exact List.mem_map_of_mem hmem
      have hshipped := (h.completed result.taskId).mp (completed_iff.mpr (Or.inl hcounted))
      have hnone : batch.mergeResult history.runMergePhase = none := by
        rw [hoff]
        rfl
      rw [meets_iff hbatch hmember, HubFlowBatchExecution.fate_of_no_merge hnone hmem,
        HubFlowTaskResult.fate] at hshipped
      by_contra hdone
      cases houtcome : result.outcome <;> simp_all
  case delivered =>
    intro taskId hdelivering
    have hblocked := blocked_of_delivering hdelivering
    rw [(h.delivering taskId hdelivering).2] at hblocked
    cases hblocked
  case fresh =>
    intro batch hbatch result hmem houtcome hstatus diagnostic hdiagnostic hdecision
    have hmember := mem_members_of_result hmem
    have hfailed : isSuccessfulHubTaskResult result = false := by
      rw [isSuccessfulHubTaskResult, houtcome]
      rfl
    have hcompletes : ¬batch.Completes history.runMergePhase :=
      not_completes_of_unsuccessful hmem hfailed
    have happears : history.Appears result.taskId := by
      refine Or.inr (Or.inl ⟨result, ?_, rfl⟩)
      rw [result_results]
      exact List.mem_flatMap.mpr ⟨batch, hbatch, hmem⟩
    have hcount := h.partition result.taskId happears
    rw [marks_unmerged (not_counted hbatch hmember hcompletes)
        (mergeOf_none hbatch hmember
          (Or.inl (HubFlowBatchExecution.mergeResult_of_unsuccessful hmem hfailed))),
      resultOf_of_mem hbatch hmem, hdiagnostic] at hcount
    simp [Marks.afterTask, Marks.afterDiagnostic, Marks.addTask, Marks.addDecision, Marks.count,
      houtcome, hstatus, hdecision] at hcount

/-- The projection is honest about exactly the runs that are as `CountsHonestly` has them. -/
theorem honest_iff (history : HubFlowHistory) : history.Honest ↔ history.CountsHonestly := by
  constructor
  · exact Honest.countsHonestly
  · intro h
    constructor
    · intro taskId happears
      exact count_of_appears h happears
    · intro taskId
      exact ⟨shipped_of_completed h, completed_of_shipped h⟩
    · intro taskId hdelivering
      exact absurd hdelivering (h.delivered taskId)
    · exact (exitCode_iff history).trans h.complete

end HubFlowHistory

/-! ### Sample -/

theorem leaves_pendingDelivery :
    HubBatchMergeOutcome.pendingDelivery.Leaves .publishing (some .completedWithPendingDelivery) :=
  ⟨rfl, rfl⟩

theorem perm_alone (taskId : TaskId) : [taskId].Perm [taskId] := List.Perm.refl [taskId]

theorem selected_alone (taskId : TaskId) :
    ∀ diagnostic ∈ [({ taskId := taskId, decision := .selected } :
        HubBatchMergeSelectionDiagnostic)],
      diagnostic.decision = .selected ↔ diagnostic.taskId ∈ [taskId] := by
  intro diagnostic h
  obtain rfl := List.mem_singleton.mp h
  exact ⟨fun _ => List.mem_cons_self, fun _ => rfl⟩

/-- A merge that selects one task, whose required delivery goes on being pending. -/
def deliveringAlone (taskId : TaskId) : RunHubBatchMergeResult where
  selectedTaskIds := [taskId]
  selectionDiagnostics := [{ taskId := taskId, decision := .selected }]
  results :=
    [{ taskId := taskId
       outcome := .pendingDelivery
       hubStatus := .publishing
       reason := some .completedWithPendingDelivery
       leaves := leaves_pendingDelivery }]
  perm := perm_alone taskId
  nodup := List.nodup_singleton taskId
  diagnosed := List.nodup_singleton taskId
  selected := selected_alone taskId

theorem leaves_implemented :
    HubFlowTaskOutcome.implemented.Leaves .waitingForMerge := Or.inl rfl

theorem occupied_alone : ["a"] ≠ ([] : List TaskId) := List.cons_ne_nil "a" []

theorem fresh_alone : false = false → ([] : List TaskId) = [] := fun _ => rfl

theorem selection_alone : ∀ taskId ∈ (deliveringAlone "a").selectedTaskIds,
    taskId ∈ ([] : List TaskId) ∨
      ∃ result ∈ [({
          taskId := "a", outcome := .implemented, hubStatus := .waitingForMerge
          leaves := leaves_implemented } : HubFlowTaskResult)],
        result.taskId = taskId ∧ result.hubStatus = .waitingForMerge := by
  intro taskId h
  obtain rfl := List.mem_singleton.mp h
  exact Or.inr ⟨_, List.mem_cons_self, rfl, rfl⟩

/-- A run with one fresh batch, whose only task has landed and waits for its delivery. -/
def deliveryPending : HubFlowHistory where
  input := {}
  batches :=
    [{ resumed := false
       results := [{
         taskId := "a", outcome := .implemented, hubStatus := .waitingForMerge
         leaves := leaves_implemented }]
       mergePhase := deliveringAlone "a"
       nodup := List.nodup_singleton "a"
       occupied := occupied_alone
       fresh := fresh_alone
       selection := selection_alone }]
  distinct := List.nodup_singleton "a"

/-- The task whose delivery is pending is counted as blocked. -/
theorem deliveryPending_blocked :
    (projectHubRunOutcome deliveryPending.result).counts =
        { completed := 0, failed := 0, blocked := 1, skipped := 0, readyToMerge := 0 } ∧
      deliveryPending.Meets "a" .delivering ∧ ¬deliveryPending.Honest := by
  have hdelivering : deliveryPending.Meets "a" .delivering :=
    ⟨_, List.mem_cons_self, by decide, by decide⟩
  refine ⟨by decide, hdelivering, fun hhonest => ?_⟩
  have hblocked := HubFlowHistory.blocked_of_delivering hdelivering
  rw [(hhonest.delivering "a" hdelivering).2] at hblocked
  cases hblocked

end ArchLoop.Flow
