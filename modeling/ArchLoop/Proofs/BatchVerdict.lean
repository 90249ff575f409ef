import ArchLoop.FlowRun

/-!
# `ArchLoop.Proofs.BatchVerdict`: the verdict on a batch and the fate of its members

The verdict is computed from three lists that need not have the same tasks: the tasks that have a
result now, their results, and the tasks that the merge phase selected. `fate` says what became of
one member, and `Judged` what the verdict should be for the fates of all of them.

`judged_iff` is exact. The verdict fits every batch with a member that failed, was skipped or is
blocked. Without one (`Calm`), it fits only where the members go one way (`OneWay`): all are merged
now, and all of them were either worked on now or waiting before, or all that the merge phase took
are pending.

The proof goes through `verdict`, which is the status of the batch result for every kind of batch.
-/

set_option autoImplicit false

namespace ArchLoop.Flow

/-! ### The fate of a member -/

/-- What has become of a member of a batch.

- `shipped`: the task is done.
- `pending`, `delivering`: it waits for a transient condition, or for its required delivery.
- `ready`: the merge phase did not run, and it goes on waiting for its merge. -/
inductive MemberFate where
  | shipped
  | failed
  | blocked
  | skipped
  | pending
  | delivering
  | ready
  deriving DecidableEq, Repr

/-- The fate of a task of a batch whose merge phase does not run. -/
def HubFlowTaskResult.fate (result : HubFlowTaskResult) : MemberFate :=
  match result.outcome with
  | .agentFailed | .sandboxFailed => .failed
  | .activeExecution => .blocked
  | .claimSkipped => .skipped
  | .implemented | .reviewed => if result.hubStatus = .done then .shipped else .ready

def HubBatchMergeOutcome.fate : HubBatchMergeOutcome → MemberFate
  | .merged => .shipped
  | .mergeConflict | .verificationFailed => .blocked
  | .mergeFailed | .closeFailed => .failed
  | .pending => .pending
  | .pendingDelivery => .delivering
  | .skipped => .skipped

/-- The fate of a member that the merge phase did not select. -/
def RunHubBatchMergeResult.passedOver (merge : RunHubBatchMergeResult) (taskId : TaskId) :
    MemberFate :=
  if merge.selectionDiagnostics.any fun diagnostic =>
      diagnostic.taskId = taskId && diagnostic.decision = .blocked then .blocked
  else .skipped

namespace HubFlowBatchExecution

def closedAside (batch : HubFlowBatchExecution) (taskId : TaskId) : Bool :=
  batch.results.any fun result => result.taskId = taskId && result.hubStatus = .done

def fate (batch : HubFlowBatchExecution) (runMergePhase : Bool) (taskId : TaskId) : MemberFate :=
  match batch.mergeResult runMergePhase with
  | none => ((batch.results.find? fun result => result.taskId = taskId).map (·.fate)).getD .ready
  | some merge =>
    match merge.results.find? fun result => result.taskId = taskId with
    | some result => result.outcome.fate
    | none => if batch.closedAside taskId then .shipped else merge.passedOver taskId

def Fails (batch : HubFlowBatchExecution) (taskId : TaskId) : Prop :=
  batch.fate true taskId = .failed ∨ batch.fate true taskId = .skipped ∨
    batch.fate true taskId = .blocked

/-- The verdict fits the fates of the members, with the merge phase enabled: a batch whose members
are all shipped is completed and counts them, and the run goes on. A failed batch has a member
that failed, was skipped or is blocked. A pending one has a member that waits, and none failed. -/
structure Judged (batch : HubFlowBatchExecution) : Prop where
  completed : (∀ taskId ∈ batch.members, batch.fate true taskId = .shipped) →
    ∃ result, batch.batchResult true = some result ∧ result.batchStatus = .completed ∧
      result.completedTaskCount = batch.members.length ∧
      ∀ input count, stopAfter input (some result) count ≠ some .batchFailed ∧
        stopAfter input (some result) count ≠ some .batchPending
  failed : ∀ result ∈ batch.batchResult true, result.batchStatus = .failed →
    ∃ taskId ∈ batch.members, batch.Fails taskId
  pending : ∀ result ∈ batch.batchResult true, result.batchStatus = .pending →
    (∃ taskId ∈ batch.members,
      batch.fate true taskId = .pending ∨ batch.fate true taskId = .delivering) ∧
    ∀ taskId ∈ batch.members, batch.fate true taskId ≠ .failed

def Calm (batch : HubFlowBatchExecution) : Prop :=
  ∀ taskId ∈ batch.members, ¬batch.Fails taskId

/-- All members are merged now, and they are all worked on now or all waiting from before. -/
def AllMerged (batch : HubFlowBatchExecution) : Prop :=
  (∀ taskId ∈ batch.members, taskId ∈ batch.mergePhase.selectedTaskIds ∧
    batch.fate true taskId = .shipped) ∧
  (batch.selectedTaskIds = [] ∨ batch.waiting = [])

/-- The merge phase takes some member, and each one that it takes is pending. -/
def AllPending (batch : HubFlowBatchExecution) : Prop :=
  batch.mergePhase.selectedTaskIds ≠ [] ∧
    ∀ taskId ∈ batch.mergePhase.selectedTaskIds, batch.fate true taskId = .pending

def OneWay (batch : HubFlowBatchExecution) : Prop :=
  batch.AllMerged ∨ batch.AllPending

end HubFlowBatchExecution

/-! ### Looking up results -/

theorem find?_of_mem {α : Type} {f : α → TaskId} {l : List α} (hnodup : (l.map f).Nodup) {a : α}
    (ha : a ∈ l) : l.find? (fun x => f x = f a) = some a := by
  induction l with
  | nil => cases ha
  | cons b l ih =>
    rw [List.map_cons, List.nodup_cons] at hnodup
    rcases List.mem_cons.mp ha with rfl | hmem
    · simp
    · have hne : f b ≠ f a := by
        intro hsame
        exact hnodup.1 (hsame ▸ List.mem_map_of_mem hmem)
      rw [List.find?_cons_of_neg (by simpa using hne)]
      exact ih hnodup.2 hmem

namespace HubFlowBatchExecution

section
variable {batch : HubFlowBatchExecution} {runMergePhase : Bool} {taskId : TaskId}

theorem nodup_selectedTaskIds (batch : HubFlowBatchExecution) : batch.selectedTaskIds.Nodup :=
  batch.nodup.of_append_left

theorem mergeResult_of_unsuccessful {result : HubFlowTaskResult} (hmem : result ∈ batch.results)
    (hresult : isSuccessfulHubTaskResult result = false) :
    batch.mergeResult runMergePhase = none := by
  have hall : batch.results.all isSuccessfulHubTaskResult = false :=
    List.all_eq_false.mpr ⟨result, hmem, by simp [hresult]⟩
  rw [mergeResult, hall, Bool.and_false, if_neg Bool.false_ne_true]

theorem fate_of_no_merge (hnone : batch.mergeResult runMergePhase = none)
    {result : HubFlowTaskResult} (hmem : result ∈ batch.results) :
    batch.fate runMergePhase result.taskId = result.fate := by
  rw [fate, hnone]
  show ((batch.results.find? _).map (·.fate)).getD .ready = _
  rw [find?_of_mem batch.nodup_selectedTaskIds hmem]
  rfl

theorem all_of_calm (h : batch.Calm) : batch.results.all isSuccessfulHubTaskResult = true := by
  rw [List.all_eq_true]
  intro result hmem
  by_contra hresult
  rw [Bool.not_eq_true] at hresult
  have hmember : result.taskId ∈ batch.members :=
    List.mem_append_left _ (List.mem_map_of_mem hmem)
  have hfate : batch.fate true result.taskId = result.fate :=
    fate_of_no_merge (mergeResult_of_unsuccessful hmem hresult) hmem
  apply h result.taskId hmember
  rw [Fails, hfate, HubFlowTaskResult.fate]
  rw [isSuccessfulHubTaskResult] at hresult
  cases houtcome : result.outcome <;> simp_all

theorem mergeResult_of_all (hall : batch.results.all isSuccessfulHubTaskResult = true) :
    batch.mergeResult true = some batch.mergePhase := by
  rw [mergeResult, hall, Bool.and_true, if_pos rfl]

/-! With the merge phase, a member is merged, closed aside, or passed over. -/

theorem mem_selected_of_result {result : HubBatchMergeTaskResult} {merge : RunHubBatchMergeResult}
    (hmem : result ∈ merge.results) : result.taskId ∈ merge.selectedTaskIds :=
  merge.perm.mem_iff.mp (List.mem_map_of_mem hmem)

theorem exists_result {merge : RunHubBatchMergeResult} (hmem : taskId ∈ merge.selectedTaskIds) :
    ∃ result ∈ merge.results, result.taskId = taskId :=
  List.mem_map.mp (merge.perm.mem_iff.mpr hmem)

theorem nodup_results (merge : RunHubBatchMergeResult) :
    (merge.results.map (·.taskId)).Nodup :=
  merge.perm.nodup_iff.mpr merge.nodup

theorem fate_of_merge (hmerge : batch.mergeResult runMergePhase = some batch.mergePhase)
    {result : HubBatchMergeTaskResult} (hmem : result ∈ batch.mergePhase.results) :
    batch.fate runMergePhase result.taskId = result.outcome.fate := by
  rw [fate, hmerge]
  dsimp only
  rw [find?_of_mem (nodup_results batch.mergePhase) hmem]

theorem fate_of_not_selected (hmerge : batch.mergeResult runMergePhase = some batch.mergePhase)
    (hnot : taskId ∉ batch.mergePhase.selectedTaskIds) :
    batch.fate runMergePhase taskId =
      if batch.closedAside taskId then .shipped else batch.mergePhase.passedOver taskId := by
  have hnone : batch.mergePhase.results.find? (fun result => result.taskId = taskId) = none := by
    rw [List.find?_eq_none]
    intro result hmem hsame
    exact hnot (of_decide_eq_true hsame ▸ mem_selected_of_result hmem)
  rw [fate, hmerge]
  dsimp only
  rw [hnone]

theorem passedOver_fails (merge : RunHubBatchMergeResult) (taskId : TaskId) :
    merge.passedOver taskId = .skipped ∨ merge.passedOver taskId = .blocked := by
  rw [RunHubBatchMergeResult.passedOver]
  split
  · exact Or.inr rfl
  · exact Or.inl rfl

theorem mem_members_of_selected (hmem : taskId ∈ batch.mergePhase.selectedTaskIds) :
    taskId ∈ batch.members := by
  rcases batch.selection taskId hmem with hwaiting | ⟨result, hresult, rfl, -⟩
  · exact List.mem_append_right _ hwaiting
  · exact List.mem_append_left _ (List.mem_map_of_mem hresult)

theorem closedAside_of_calm (h : batch.Calm) (hmember : taskId ∈ batch.members)
    (hnot : taskId ∉ batch.mergePhase.selectedTaskIds) : taskId ∈ batch.selectedTaskIds := by
  have hfate := fate_of_not_selected (mergeResult_of_all (all_of_calm h)) hnot
  cases hclosed : batch.closedAside taskId with
  | true =>
    obtain ⟨result, hmem, hresult⟩ := List.any_eq_true.mp hclosed
    simp only [Bool.and_eq_true, decide_eq_true_eq] at hresult
    exact List.mem_map.mpr ⟨result, hmem, hresult.1⟩
  | false =>
    rw [hclosed, if_neg Bool.false_ne_true] at hfate
    refine absurd ?_ (h taskId hmember)
    rcases passedOver_fails batch.mergePhase taskId with hpassed | hpassed
    · exact Or.inr (Or.inl (hfate.trans hpassed))
    · exact Or.inr (Or.inr (hfate.trans hpassed))

/-! ### The status of the batch result -/

def mergeVerdict (batch : HubFlowBatchExecution) : HubFlowBatchStatus :=
  if batch.mergePhase.batchStatus = .pending then .pending
  else if batch.mergePhase.batchStatus ≠ .done then .failed
  else if batch.selectedTaskIds.length > 0 &&
      !hasSameTaskIds batch.selectedTaskIds batch.mergePhase.selectedTaskIds then .failed
  else .completed

theorem batchResult_of_all (hall : batch.results.all isSuccessfulHubTaskResult = true) :
    ∃ result, batch.batchResult true = some result ∧ result.batchStatus = batch.mergeVerdict ∧
      (result.batchStatus = .completed →
        result.completedTaskCount = countSuccessfulMergeResults batch.mergePhase) := by
  have hany : batch.results.any (fun result => !isSuccessfulHubTaskResult result) = false := by
    rw [List.any_eq_false]
    intro result hmem
    simp [List.all_eq_true.mp hall result hmem]
  have hstatus : resolveHubFlowBatchStatus batch.selectedTaskIds batch.results
      (some batch.mergePhase) = batch.mergeVerdict := by
    rw [resolveHubFlowBatchStatus, hany, if_neg Bool.false_ne_true]
    rfl
  have hresult : resolveHubFlowBatchResult batch.selectedTaskIds batch.results
      (some batch.mergePhase) = some
        { selectedTaskIds := resolveHubFlowBatchTaskIds batch.selectedTaskIds
            (some batch.mergePhase)
          completedTaskCount := countSuccessfulMergeResults batch.mergePhase
          batchStatus := batch.mergeVerdict } := by
    rw [resolveHubFlowBatchResult, hstatus]
    simp [resolveHubFlowCompletedTaskCount]
  rw [batchResult, mergeResult_of_all hall]
  cases hresumed : batch.resumed with
  | false =>
    exact ⟨_, hresult, rfl, fun _ => rfl⟩
  | true =>
    rw [if_pos rfl, resolveResumedHubFlowBatchResult]
    by_cases hwork : batch.results.length > 0
    · rw [if_pos hwork]
      exact ⟨_, hresult, rfl, fun _ => rfl⟩
    · -- Nothing was reviewed again: only the merge is judged.
      have hnil : batch.results = [] := List.eq_nil_of_length_eq_zero (by omega)
      have hids : batch.selectedTaskIds = [] := by
        rw [selectedTaskIds, hnil]
        rfl
      rw [hnil, hids] at hresult
      rw [if_neg hwork, resolveMergeOnlyHubFlowBatchResult]
      by_cases hskipped : batch.mergePhase.batchStatus = .skipped
      · refine ⟨_, if_pos hskipped, ?_, fun h => by cases h⟩
        rw [mergeVerdict, hskipped]
        rfl
      · exact ⟨_, (if_neg hskipped).trans hresult, rfl, fun _ => rfl⟩

theorem batchResult_of_not_all (hall : batch.results.all isSuccessfulHubTaskResult = false)
    (runMergePhase : Bool) :
    ∃ result, batch.batchResult runMergePhase = some result ∧ result.batchStatus = .failed := by
  obtain ⟨failed, hmem, hfailed⟩ := List.all_eq_false.mp hall
  have hany : batch.results.any (fun result => !isSuccessfulHubTaskResult result) = true :=
    List.any_eq_true.mpr ⟨failed, hmem, by simpa using hfailed⟩
  have hpos : batch.results.length > 0 := List.length_pos_of_mem hmem
  have hids : batch.selectedTaskIds.length ≠ 0 := by
    rw [selectedTaskIds, List.length_map]
    omega
  have hresult : resolveHubFlowBatchResult batch.selectedTaskIds batch.results
      (batch.mergeResult runMergePhase) = some
        { selectedTaskIds := resolveHubFlowBatchTaskIds batch.selectedTaskIds
            (batch.mergeResult runMergePhase)
          completedTaskCount := resolveHubFlowCompletedTaskCount batch.results
            (batch.mergeResult runMergePhase)
          batchStatus := .failed } := by
    have hstatus : resolveHubFlowBatchStatus batch.selectedTaskIds batch.results
        (batch.mergeResult runMergePhase) = .failed := by
      unfold resolveHubFlowBatchStatus
      rw [hany, if_pos rfl]
    rw [resolveHubFlowBatchResult, hstatus]
    simp [hids]
  rw [batchResult]
  cases hresumed : batch.resumed with
  | false => exact ⟨_, hresult, rfl⟩
  | true =>
    rw [if_pos rfl, resolveResumedHubFlowBatchResult, if_pos hpos]
    exact ⟨_, hresult, rfl⟩

/-! ### The status of the merge -/

theorem results_ne_nil (h : batch.mergePhase.selectedTaskIds ≠ []) :
    batch.mergePhase.results.length ≠ 0 := by
  intro hlength
  have hperm := batch.mergePhase.perm.length_eq
  rw [List.length_map, hlength] at hperm
  exact h (List.eq_nil_of_length_eq_zero hperm.symm)

theorem batchStatus_of_selected (h : batch.mergePhase.selectedTaskIds ≠ []) :
    batch.mergePhase.batchStatus = resolveBatchMergeStatus batch.mergePhase.results := by
  have hlength : batch.mergePhase.selectedTaskIds.length ≠ 0 := by
    intro hlength
    exact h (List.eq_nil_of_length_eq_zero hlength)
  rw [RunHubBatchMergeResult.batchStatus, if_neg hlength]

theorem mergePending_iff :
    batch.mergePhase.batchStatus = .pending ↔ batch.mergePhase.selectedTaskIds ≠ [] ∧
      ∀ result ∈ batch.mergePhase.results, result.outcome = .pending := by
  by_cases h : batch.mergePhase.selectedTaskIds = []
  · simp [RunHubBatchMergeResult.batchStatus, h]
  · rw [batchStatus_of_selected h, resolveBatchMergeStatus, if_neg (results_ne_nil h)]
    by_cases hall : (batch.mergePhase.results.all fun result => result.outcome = .pending) = true
    · rw [if_pos hall]
      simp only [List.all_eq_true, decide_eq_true_eq] at hall
      simpa [h] using hall
    · rw [if_neg hall]
      simp only [List.all_eq_true, decide_eq_true_eq] at hall
      have hnot : ¬∀ result ∈ batch.mergePhase.results, result.outcome = .pending := hall
      split <;> simp [hnot]

theorem mergeDone_iff :
    batch.mergePhase.batchStatus = .done ↔ batch.mergePhase.selectedTaskIds ≠ [] ∧
      ∀ result ∈ batch.mergePhase.results, result.outcome = .merged := by
  by_cases h : batch.mergePhase.selectedTaskIds = []
  · simp [RunHubBatchMergeResult.batchStatus, h]
  · rw [batchStatus_of_selected h, resolveBatchMergeStatus, if_neg (results_ne_nil h)]
    obtain ⟨first, hfirst⟩ := List.exists_mem_of_length_pos
      (Nat.pos_of_ne_zero (results_ne_nil h))
    by_cases hall : (batch.mergePhase.results.all fun result => result.outcome = .pending) = true
    · rw [if_pos hall]
      simp only [List.all_eq_true, decide_eq_true_eq] at hall
      have hnot : ¬∀ result ∈ batch.mergePhase.results, result.outcome = .merged := by
        intro hmerged
        have hboth := (hall first hfirst).symm.trans (hmerged first hfirst)
        cases hboth
      simp [hnot]
    · rw [if_neg hall]
      by_cases hmerged :
          (batch.mergePhase.results.all fun result => result.outcome = .merged) = true
      · rw [if_pos hmerged]
        simp only [List.all_eq_true, decide_eq_true_eq] at hmerged
        simpa [h] using hmerged
      · rw [if_neg hmerged]
        simp only [List.all_eq_true, decide_eq_true_eq] at hmerged
        have hnot : ¬∀ result ∈ batch.mergePhase.results, result.outcome = .merged := hmerged
        simp [hnot]

theorem hasSameTaskIds_iff {left right : List TaskId} :
    hasSameTaskIds left right = true ↔ left.length = right.length ∧ left ⊆ right := by
  simp [hasSameTaskIds, List.subset_def]

/-- The verdict on successful work is that it failed: the merge is neither pending nor done, or it
is done with other tasks than those worked on. -/
theorem mergeVerdict_failed_iff :
    batch.mergeVerdict = .failed ↔ batch.mergePhase.batchStatus ≠ .pending ∧
      (batch.mergePhase.batchStatus = .done → batch.selectedTaskIds ≠ [] ∧
        hasSameTaskIds batch.selectedTaskIds batch.mergePhase.selectedTaskIds = false) := by
  rw [mergeVerdict]
  by_cases hpending : batch.mergePhase.batchStatus = .pending
  · simp [hpending]
  · by_cases hdone : batch.mergePhase.batchStatus = .done
    · rw [if_neg hpending, if_neg (not_not.mpr hdone)]
      by_cases hsame : (batch.selectedTaskIds.length > 0 &&
          !hasSameTaskIds batch.selectedTaskIds batch.mergePhase.selectedTaskIds) = true
      · rw [if_pos hsame]
        simp only [Bool.and_eq_true, decide_eq_true_eq, Bool.not_eq_true'] at hsame
        simp [hdone, hsame.2, List.ne_nil_of_length_pos hsame.1]
      · rw [if_neg hsame]
        simp only [Bool.and_eq_true, decide_eq_true_eq, Bool.not_eq_true', not_and,
          Bool.not_eq_false] at hsame
        have hids : batch.selectedTaskIds ≠ [] →
            hasSameTaskIds batch.selectedTaskIds batch.mergePhase.selectedTaskIds = true :=
          fun hne => hsame (List.length_pos_of_ne_nil hne)
        simpa [hdone] using hids
    · rw [if_neg hpending, if_pos hdone]
      simp [hpending, hdone]

theorem mergeVerdict_pending_iff :
    batch.mergeVerdict = .pending ↔ batch.mergePhase.batchStatus = .pending := by
  rw [mergeVerdict]
  by_cases hpending : batch.mergePhase.batchStatus = .pending
  · simp [hpending]
  · rw [if_neg hpending]
    simp only [hpending, iff_false]
    split
    · decide
    · split <;> decide

/-! ### The verdict and the ways of the members -/

theorem allPending_iff (h : batch.Calm) :
    batch.AllPending ↔ batch.mergePhase.batchStatus = .pending := by
  have hmerge := mergeResult_of_all (all_of_calm h)
  rw [mergePending_iff, AllPending]
  refine and_congr_right fun _ => ?_
  constructor
  · intro hall result hmem
    have hfate := hall result.taskId (mem_selected_of_result hmem)
    rw [fate_of_merge hmerge hmem] at hfate
    cases houtcome : result.outcome <;> simp_all [HubBatchMergeOutcome.fate]
  · intro hall taskId hmem
    obtain ⟨result, hresult, rfl⟩ := exists_result hmem
    rw [fate_of_merge hmerge hresult, hall result hresult]
    rfl

theorem allMerged_iff (h : batch.Calm) :
    batch.AllMerged ↔ batch.mergePhase.batchStatus = .done ∧ (batch.selectedTaskIds ≠ [] →
      hasSameTaskIds batch.selectedTaskIds batch.mergePhase.selectedTaskIds = true) := by
  have hmerge := mergeResult_of_all (all_of_calm h)
  rw [mergeDone_iff, AllMerged]
  constructor
  · rintro ⟨hall, hway⟩
    refine ⟨⟨?_, ?_⟩, ?_⟩
    · obtain ⟨taskId, hmember⟩ := List.exists_mem_of_ne_nil _ batch.occupied
      exact List.ne_nil_of_mem (hall taskId hmember).1
    · intro result hmem
      have hmember := mem_members_of_selected (mem_selected_of_result hmem)
      have hfate := (hall result.taskId hmember).2
      rw [fate_of_merge hmerge hmem] at hfate
      cases houtcome : result.outcome <;> simp_all [HubBatchMergeOutcome.fate]
    · intro hids
      have hwaiting : batch.waiting = [] := hway.resolve_left hids
      have hmembers : batch.members = batch.selectedTaskIds := by
        rw [members, hwaiting, List.append_nil]
      have hsub : batch.selectedTaskIds ⊆ batch.mergePhase.selectedTaskIds := fun taskId hmem =>
        (hall taskId (List.mem_append_left _ hmem)).1
      have hsup : batch.mergePhase.selectedTaskIds ⊆ batch.selectedTaskIds := fun taskId hmem =>
        hmembers ▸ mem_members_of_selected hmem
      have hle := (batch.nodup_selectedTaskIds.subperm hsub).length_le
      have hge := (batch.mergePhase.nodup.subperm hsup).length_le
      exact hasSameTaskIds_iff.mpr ⟨by omega, hsub⟩
  · rintro ⟨⟨-, hmerged⟩, hsame⟩
    have hselected : ∀ taskId ∈ batch.members, taskId ∈ batch.mergePhase.selectedTaskIds := by
      intro taskId hmember
      by_contra hnot
      have hids := closedAside_of_calm h hmember hnot
      exact hnot ((hasSameTaskIds_iff.mp (hsame (List.ne_nil_of_mem hids))).2 hids)
    refine ⟨fun taskId hmember => ⟨hselected taskId hmember, ?_⟩, ?_⟩
    · obtain ⟨result, hresult, rfl⟩ := exists_result (hselected taskId hmember)
      rw [fate_of_merge hmerge hresult, hmerged result hresult]
      rfl
    · by_cases hids : batch.selectedTaskIds = []
      · exact Or.inl hids
      · -- The tasks worked on now are all that the merge took, so nothing has waited.
        obtain ⟨hlength, hsub⟩ := hasSameTaskIds_iff.mp (hsame hids)
        have hperm := (batch.nodup_selectedTaskIds.subperm hsub).perm_of_length_le (by omega)
        refine Or.inr (List.eq_nil_iff_forall_not_mem.mpr fun taskId hwaiting => ?_)
        have hmem := hperm.mem_iff.mpr (hselected taskId (List.mem_append_right _ hwaiting))
        exact List.disjoint_of_nodup_append batch.nodup hmem hwaiting

theorem oneWay_iff (h : batch.Calm) : batch.OneWay ↔ batch.mergeVerdict ≠ .failed := by
  rw [OneWay, allMerged_iff h, allPending_iff h]
  show _ ↔ ¬batch.mergeVerdict = .failed
  rw [mergeVerdict_failed_iff]
  by_cases hpending : batch.mergePhase.batchStatus = .pending
  · simp [hpending]
  · by_cases hdone : batch.mergePhase.batchStatus = .done
    · simp [hdone]
    · simp [hpending, hdone]

theorem count_of_allMerged (h : batch.Calm) (hall : batch.AllMerged) :
    countSuccessfulMergeResults batch.mergePhase = batch.members.length := by
  have hmerged := (mergeDone_iff.mp ((allMerged_iff h).mp hall).1).2
  have hfilter : batch.mergePhase.results.filter (fun task => task.outcome = .merged) =
      batch.mergePhase.results := by
    rw [List.filter_eq_self]
    intro result hmem
    exact decide_eq_true (hmerged result hmem)
  have hsub : batch.members ⊆ batch.mergePhase.selectedTaskIds := fun taskId hmem =>
    (hall.1 taskId hmem).1
  have hsup : batch.mergePhase.selectedTaskIds ⊆ batch.members := fun taskId hmem =>
    mem_members_of_selected hmem
  have hle : batch.members.length ≤ _ := (batch.nodup.subperm hsub).length_le
  have hge : _ ≤ batch.members.length := (batch.mergePhase.nodup.subperm hsup).length_le
  have hperm := batch.mergePhase.perm.length_eq
  rw [List.length_map] at hperm
  rw [countSuccessfulMergeResults, hfilter]
  omega

/-- The verdict on a batch of a run with a merge phase fits the fates of its members, unless the
batch is calm and its members go different ways. -/
theorem judged_iff (batch : HubFlowBatchExecution) :
    batch.Judged ↔ (batch.Calm → batch.OneWay) := by
  constructor
  · intro hjudged hcalm
    rw [oneWay_iff hcalm]
    intro hfailed
    obtain ⟨result, hresult, hstatus, -⟩ := batchResult_of_all (all_of_calm hcalm)
    obtain ⟨taskId, hmember, hfails⟩ :=
      hjudged.failed result hresult (hstatus.trans hfailed)
    exact hcalm taskId hmember hfails
  · intro hway
    constructor
    · intro hshipped
      have hcalm : batch.Calm := by
        intro taskId hmember hfails
        rw [Fails, hshipped taskId hmember] at hfails
        simp at hfails
      -- Nothing is pending, so the members are all merged.
      have hall : batch.AllMerged := by
        rcases hway hcalm with hall | ⟨hselected, hpending⟩
        · exact hall
        · obtain ⟨taskId, hmem⟩ := List.exists_mem_of_ne_nil _ hselected
          have hboth := (hpending taskId hmem).symm.trans
            (hshipped taskId (mem_members_of_selected hmem))
          cases hboth
      obtain ⟨result, hresult, hstatus, hcount⟩ := batchResult_of_all (all_of_calm hcalm)
      have hcompleted : result.batchStatus = .completed := by
        have hnot := (oneWay_iff hcalm).mp (Or.inl hall)
        have hdone := ((allMerged_iff hcalm).mp hall).1
        have hpending : batch.mergeVerdict ≠ .pending := by
          intro h
          rw [mergeVerdict_pending_iff, hdone] at h
          cases h
        rw [hstatus]
        cases hverdict : batch.mergeVerdict with
        | completed => rfl
        | failed => exact absurd hverdict hnot
        | pending => exact absurd hverdict hpending
      refine ⟨result, hresult, hcompleted, ?_, ?_⟩
      · rw [hcount hcompleted, count_of_allMerged hcalm hall]
      · intro input count
        rw [stopAfter, Option.map_some, hcompleted, if_neg (by simp), if_neg (by simp)]
        constructor <;> split <;> simp
    · intro result hresult hfailed
      by_contra hnone
      have hcalm : batch.Calm := fun taskId hmember hfails => hnone ⟨taskId, hmember, hfails⟩
      obtain ⟨result', hresult', hstatus, -⟩ := batchResult_of_all (all_of_calm hcalm)
      obtain rfl := Option.some.inj (hresult'.symm.trans hresult)
      exact (oneWay_iff hcalm).mp (hway hcalm) (hstatus.symm.trans hfailed)
    · intro result hresult hpending
      -- A pending batch has done its work, and all that the merge took is pending.
      have hall : batch.results.all isSuccessfulHubTaskResult = true := by
        by_contra hall
        rw [Bool.not_eq_true] at hall
        obtain ⟨result', hresult', hfailed⟩ := batchResult_of_not_all hall true
        obtain rfl := Option.some.inj (hresult'.symm.trans hresult)
        rw [hpending] at hfailed
        cases hfailed
      have hmerge := mergeResult_of_all hall
      obtain ⟨result', hresult', hstatus, -⟩ := batchResult_of_all hall
      obtain rfl := Option.some.inj (hresult'.symm.trans hresult)
      rw [hpending] at hstatus
      obtain ⟨hselected, houtcomes⟩ :=
        mergePending_iff.mp (mergeVerdict_pending_iff.mp hstatus.symm)
      have hfates : ∀ taskId ∈ batch.mergePhase.selectedTaskIds,
          batch.fate true taskId = .pending := by
        intro taskId hmem
        obtain ⟨result', hresult', rfl⟩ := exists_result hmem
        rw [fate_of_merge hmerge hresult', houtcomes result' hresult']
        rfl
      constructor
      · obtain ⟨taskId, hmem⟩ := List.exists_mem_of_ne_nil _ hselected
        exact ⟨taskId, mem_members_of_selected hmem, Or.inl (hfates taskId hmem)⟩
      · intro taskId hmember hfailed
        by_cases hmem : taskId ∈ batch.mergePhase.selectedTaskIds
        · rw [hfates taskId hmem] at hfailed
          cases hfailed
        · rw [fate_of_not_selected hmerge hmem] at hfailed
          split at hfailed
          · cases hfailed
          · rcases passedOver_fails batch.mergePhase taskId with hpassed | hpassed <;>
              · rw [hpassed] at hfailed
                cases hfailed

end

end HubFlowBatchExecution

/-! ### Sample -/

def mergedAlone (taskId : TaskId) : RunHubBatchMergeResult where
  selectedTaskIds := [taskId]
  selectionDiagnostics := [{ taskId := taskId, decision := .selected }]
  results := [{ taskId := taskId, outcome := .merged, hubStatus := .done, leaves := ⟨rfl, rfl⟩ }]
  perm := by simp
  nodup := by simp
  diagnosed := by simp
  selected := by simp

/-- A fresh batch with the task `a`, which is implemented and merged, and `b`, which the implementer
finds already merged and closes. -/
def partlyMergedBefore : HubFlowBatchExecution where
  resumed := false
  results :=
    [{ taskId := "a", outcome := .implemented, hubStatus := .waitingForMerge, leaves := Or.inl rfl },
      { taskId := "b", outcome := .implemented, hubStatus := .done, leaves := Or.inr rfl }]
  mergePhase := mergedAlone "a"
  nodup := by decide
  occupied := by decide
  fresh _ := rfl
  selection taskId h := by
    obtain rfl := List.mem_singleton.mp h
    exact Or.inr ⟨_, List.mem_cons_self, rfl, rfl⟩

/-- Both tasks are shipped, and the batch has failed. -/
theorem partlyMergedBefore_failed :
    (∀ taskId ∈ partlyMergedBefore.members, partlyMergedBefore.fate true taskId = .shipped) ∧
      partlyMergedBefore.batchResult true = some
        { selectedTaskIds := ["a", "b"], completedTaskCount := 1, batchStatus := .failed } ∧
      ¬partlyMergedBefore.Judged := by
  have hshipped : ∀ taskId ∈ partlyMergedBefore.members,
      partlyMergedBefore.fate true taskId = .shipped := by
    decide
  have hresult : partlyMergedBefore.batchResult true = some
      { selectedTaskIds := ["a", "b"], completedTaskCount := 1, batchStatus := .failed } := by
    decide
  refine ⟨hshipped, hresult, fun hjudged => ?_⟩
  obtain ⟨taskId, hmember, hfails⟩ := hjudged.failed _ hresult rfl
  rw [HubFlowBatchExecution.Fails, hshipped taskId hmember] at hfails
  simp at hfails

end ArchLoop.Flow
