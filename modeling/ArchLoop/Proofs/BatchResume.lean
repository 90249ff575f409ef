import ArchLoop.BatchResume
import Mathlib.Data.List.Dedup

/-!
# `ArchLoop.Proofs.BatchResume`: finished work that a later run picks up

`findResumableHubFlowBatches` looks for the plan of a batch in the events of the run that the claim
names. A run plans only batches of its own, never the one that it resumes (`ResumeInv`). So the
search finds the claims that an implementation wrote, and none that a resumed review has rehomed
(`resumableBatch_iff`).

`resumable_iff` says in which reachable states all finished work is found.
-/

set_option autoImplicit false

namespace ArchLoop.BatchResume

open ArchLoop.TaskBoard (isHubTaskClaimActive)

/-! ### What the writes keep -/

/-- What holds after any writes.

- `fresh`: a run that has not started has written nothing.
- `plan`: a run plans batches for its own flow, and not the one that it resumed.
- `planned`: a run that has planned its batch has a record of that.
- `current`: once a run has left the batch that it resumed, it works on another one.
- `claim`: a claim of an implementation names a run that has planned the batch, and a rehomed one a
  run that resumed it. -/
structure ResumeInv (w : ResumeWorld) : Prop where
  fresh : ∀ runId, w.nextRunId ≤ runId → w.runs runId = none ∧ w.events runId = []
  plan : ∀ runId batchId flowId createdAt,
    .batchPlanned batchId flowId createdAt ∈ w.events runId →
    ∃ run, w.runs runId = some run ∧ run.flowId = flowId ∧ run.resumedBatchId ≠ some batchId
  planned : ∀ runId run, w.runs runId = some run → run.planned = true →
    ∃ createdAt, .batchPlanned run.currentBatchId run.flowId createdAt ∈ w.events runId
  current : ∀ runId run, w.runs runId = some run → run.resuming = false →
    run.resumedBatchId ≠ some run.currentBatchId
  bound : ∀ runId run, w.runs runId = some run → run.currentBatchId < w.nextBatchId ∧
    ∀ batchId, run.resumedBatchId = some batchId → batchId < w.nextBatchId
  claim : ∀ task ∈ w.tasks, ∀ claim, task.claim = some claim → claim.batchId < w.nextBatchId ∧
    ∃ run, w.runs claim.runId = some run ∧
      match claim.writer with
      | .implementation => ∃ createdAt,
        .batchPlanned claim.batchId run.flowId createdAt ∈ w.events claim.runId
      | .resumedReview => run.resumedBatchId = some claim.batchId

section
variable {w : ResumeWorld}

theorem ResumeInv.write (h : ResumeInv w) {runId nextRunId nextBatchId : Nat} {run : FlowRun}
    {event : HubBatchEvent} (hrunId : runId < nextRunId) (hnextRun : w.nextRunId ≤ nextRunId)
    (hnextBatch : w.nextBatchId ≤ nextBatchId)
    (hsame : ∀ old, w.runs runId = some old →
      run.flowId = old.flowId ∧ run.resumedBatchId = old.resumedBatchId)
    (hevent : ∀ batchId flowId createdAt, event = .batchPlanned batchId flowId createdAt →
      run.flowId = flowId ∧ run.resumedBatchId ≠ some batchId)
    (hplanned : run.planned = true → ∃ createdAt,
      .batchPlanned run.currentBatchId run.flowId createdAt ∈ w.events runId ++ [event])
    (hcurrent : run.resuming = false → run.resumedBatchId ≠ some run.currentBatchId)
    (hbound : run.currentBatchId < nextBatchId ∧
      ∀ batchId, run.resumedBatchId = some batchId → batchId < nextBatchId) :
    ResumeInv
      { tasks := w.tasks
        events := Function.update w.events runId (w.events runId ++ [event])
        runs := Function.update w.runs runId (some run)
        nextRunId := nextRunId
        nextBatchId := nextBatchId } := by
  constructor
  · intro other hother
    dsimp only at hother ⊢
    have hne : other ≠ runId := by omega
    rw [Function.update_of_ne hne, Function.update_of_ne hne]
    exact h.fresh other (by omega)
  · intro other batchId flowId createdAt hmem
    dsimp only at hmem ⊢
    by_cases hother : other = runId
    · subst hother
      rw [Function.update_self] at hmem ⊢
      refine ⟨run, rfl, ?_⟩
      rcases List.mem_append.mp hmem with hold | hnew
      · obtain ⟨old, hold, hflow, hresumed⟩ := h.plan other batchId flowId createdAt hold
        obtain ⟨hflow', hresumed'⟩ := hsame old hold
        exact ⟨hflow'.trans hflow, hresumed' ▸ hresumed⟩
      · exact hevent batchId flowId createdAt (List.mem_singleton.mp hnew).symm
    · rw [Function.update_of_ne hother] at hmem ⊢
      exact h.plan other batchId flowId createdAt hmem
  · intro other record hrecord hrecordPlanned
    dsimp only at hrecord ⊢
    by_cases hother : other = runId
    · subst hother
      rw [Function.update_self] at hrecord ⊢
      obtain rfl := Option.some.inj hrecord
      exact hplanned hrecordPlanned
    · rw [Function.update_of_ne hother] at hrecord ⊢
      exact h.planned other record hrecord hrecordPlanned
  · intro other record hrecord hresuming
    dsimp only at hrecord
    by_cases hother : other = runId
    · subst hother
      rw [Function.update_self] at hrecord
      obtain rfl := Option.some.inj hrecord
      exact hcurrent hresuming
    · rw [Function.update_of_ne hother] at hrecord
      exact h.current other record hrecord hresuming
  · intro other record hrecord
    dsimp only at hrecord ⊢
    by_cases hother : other = runId
    · subst hother
      rw [Function.update_self] at hrecord
      obtain rfl := Option.some.inj hrecord
      exact hbound
    · rw [Function.update_of_ne hother] at hrecord
      obtain ⟨hlow, hresumed⟩ := h.bound other record hrecord
      exact ⟨by omega, fun batchId hbatch => lt_of_lt_of_le (hresumed batchId hbatch) hnextBatch⟩
  · intro task hmem claim hclaim
    show claim.batchId < nextBatchId ∧ ∃ record,
      Function.update w.runs runId (some run) claim.runId = some record ∧
        match claim.writer with
        | .implementation => ∃ createdAt, .batchPlanned claim.batchId record.flowId createdAt ∈
          Function.update w.events runId (w.events runId ++ [event]) claim.runId
        | .resumedReview => record.resumedBatchId = some claim.batchId
    obtain ⟨hbatch, old, hold, hwriter⟩ := h.claim task hmem claim hclaim
    refine ⟨by omega, ?_⟩
    by_cases hother : claim.runId = runId
    · -- The run of the claim keeps its flow and the batch that it resumed.
      rw [hother] at hold hwriter ⊢
      obtain ⟨hflow, hresumed⟩ := hsame old hold
      rw [Function.update_self, Function.update_self]
      refine ⟨run, rfl, ?_⟩
      cases hby : claim.writer with
      | implementation =>
        rw [hby] at hwriter
        obtain ⟨createdAt, hplan⟩ := hwriter
        exact ⟨createdAt, List.mem_append_left _ (hflow ▸ hplan)⟩
      | resumedReview =>
        rw [hby] at hwriter
        exact hresumed.trans hwriter
    · rw [Function.update_of_ne hother, Function.update_of_ne hother]
      exact ⟨old, hold, hwriter⟩

theorem ResumeInv.modifyTask (h : ResumeInv w) {taskId : TaskId} {f : ResumeTask → ResumeTask}
    (hf : ∀ task ∈ w.tasks, ∀ claim, (f task).claim = some claim → task.claim = some claim ∨
      (claim.batchId < w.nextBatchId ∧ ∃ run, w.runs claim.runId = some run ∧
        match claim.writer with
        | .implementation => ∃ createdAt,
          .batchPlanned claim.batchId run.flowId createdAt ∈ w.events claim.runId
        | .resumedReview => run.resumedBatchId = some claim.batchId)) :
    ResumeInv (w.modifyTask taskId f) := by
  refine ⟨h.fresh, h.plan, h.planned, h.current, h.bound, ?_⟩
  intro task hmem claim hclaim
  obtain ⟨old, hold, rfl⟩ := List.mem_map.mp hmem
  split at hclaim
  · rcases hf old hold claim hclaim with hkept | hmade
    · exact h.claim old hold claim hkept
    · exact hmade
  · exact h.claim old hold claim hclaim

/-! ### The search -/

theorem findSome?_plannedAt {batchId : Nat} {flowId : String} {events : List HubBatchEvent} :
    (events.findSome? (plannedAt batchId flowId)).isSome = true ↔
      ∃ createdAt, .batchPlanned batchId flowId createdAt ∈ events := by
  rw [List.findSome?_isSome_iff]
  constructor
  · rintro ⟨event, hmem, hsome⟩
    cases event with
    | batchStarted _ => cases hsome
    | batchPlanned planned flow createdAt =>
      rw [plannedAt] at hsome
      split at hsome
      · rename_i hsame
        obtain ⟨rfl, rfl⟩ := hsame
        exact ⟨createdAt, hmem⟩
      · cases hsome
  · rintro ⟨createdAt, hmem⟩
    exact ⟨_, hmem, by simp [plannedAt]⟩

theorem mem_findResumable {flowId : String} {includeReviewResume : Bool}
    {batch : ResumableHubFlowBatch} :
    batch ∈ w.findResumableHubFlowBatches flowId includeReviewResume ↔
      ∃ task ∈ w.tasks, w.resumableBatch flowId includeReviewResume task = some batch := by
  rw [ResumeWorld.findResumableHubFlowBatches, List.mem_mergeSort, List.mem_dedup,
    List.mem_filterMap]

theorem resumableBatch_some {flowId : String} {includeReviewResume : Bool} {task : ResumeTask}
    {batch : ResumableHubFlowBatch}
    (h : w.resumableBatch flowId includeReviewResume task = some batch) :
    isResumableHubFlowTaskStatus task.hubStatus includeReviewResume = true ∧
      ∃ claim, task.claim = some claim ∧ claim.batchId = batch.batchId ∧
        ∃ createdAt, .batchPlanned claim.batchId flowId createdAt ∈ w.events claim.runId := by
  rw [ResumeWorld.resumableBatch] at h
  split at h
  · rename_i hstatus
    cases hclaim : task.claim with
    | none =>
      rw [hclaim] at h
      cases h
    | some claim =>
      rw [hclaim, Option.bind_some, Option.map_eq_some_iff] at h
      obtain ⟨createdAt, hfind, rfl⟩ := h
      have hplan := findSome?_plannedAt.mp (Option.isSome_of_eq_some hfind)
      exact ⟨hstatus, claim, rfl, rfl, hplan⟩
  · cases h

theorem resumableBatch_of_plan {flowId : String} {includeReviewResume : Bool} {task : ResumeTask}
    {claim : BatchClaim}
    (hstatus : isResumableHubFlowTaskStatus task.hubStatus includeReviewResume = true)
    (hclaim : task.claim = some claim) {createdAt : Timestamp}
    (hplan : .batchPlanned claim.batchId flowId createdAt ∈ w.events claim.runId) :
    ∃ batch, w.resumableBatch flowId includeReviewResume task = some batch ∧
      batch.batchId = claim.batchId := by
  obtain ⟨found, hfound⟩ := Option.isSome_iff_exists.mp (findSome?_plannedAt.mpr ⟨_, hplan⟩)
  rw [ResumeWorld.resumableBatch, if_pos hstatus, hclaim, Option.bind_some, hfound]
  exact ⟨_, rfl, rfl⟩

/-! ### Every write keeps the invariant -/

theorem ResumeInv.startRun (h : ResumeInv w) (flowId : String) (hasReviewer : Bool) :
    ResumeInv (w.startRun flowId hasReviewer) := by
  have hnew := h.fresh w.nextRunId (Nat.le_refl _)
  have hresumed : ∀ batchId, (w.findResumableHubFlowBatches flowId hasReviewer).head?.map
      (·.batchId) = some batchId → batchId < w.nextBatchId := by
    intro batchId hhead
    obtain ⟨batch, hbatch, rfl⟩ := Option.map_eq_some_iff.mp hhead
    obtain ⟨task, htask, hsome⟩ := mem_findResumable.mp (List.mem_of_head? hbatch)
    obtain ⟨-, claim, hclaim, hid, -⟩ := resumableBatch_some hsome
    exact hid ▸ (h.claim task htask claim hclaim).1
  refine h.write (Nat.lt_succ_self _) (Nat.le_succ _) (Nat.le_succ _) ?_ ?_ ?_ ?_ ⟨?_, ?_⟩
  · intro old hold
    rw [hnew.1] at hold
    cases hold
  · intro batchId flow createdAt hevent
    cases hevent
  · intro hplanned
    cases hplanned
  · intro hresuming hsome
    dsimp only at hresuming hsome
    rw [Option.isSome_of_eq_some hsome] at hresuming
    cases hresuming
  · show Option.getD _ _ < w.nextBatchId + 1
    cases hhead : (w.findResumableHubFlowBatches flowId hasReviewer).head?.map (·.batchId) with
    | none => exact Nat.lt_succ_self _
    | some batchId =>
      have hlow := hresumed batchId hhead
      rw [Option.getD_some]
      omega
  · intro batchId hsome
    exact Nat.lt_succ_of_lt (hresumed batchId hsome)

theorem ResumeInv.startNextBatch (h : ResumeInv w) (runId : Nat) :
    ResumeInv (w.startNextBatch runId) := by
  rw [ResumeWorld.startNextBatch]
  cases hrun : w.runs runId with
  | none => exact h
  | some run =>
    have hlow : runId < w.nextRunId := by
      by_contra hge
      rw [(h.fresh runId (by omega)).1] at hrun
      cases hrun
    obtain ⟨hcurrent, hresumed⟩ := h.bound runId run hrun
    refine h.write hlow (Nat.le_refl _) (Nat.le_succ _) ?_ ?_ ?_ ?_ ⟨Nat.lt_succ_self _, ?_⟩
    · intro old hold
      obtain rfl := Option.some.inj (hrun.symm.trans hold)
      exact ⟨rfl, rfl⟩
    · intro batchId flow createdAt hevent
      cases hevent
    · intro hplanned
      cases hplanned
    · -- The new batch differs from the one that the run resumed.
      intro _ hsome
      exact Nat.lt_irrefl _ (hresumed _ hsome)
    · intro batchId hsome
      exact Nat.lt_succ_of_lt (hresumed batchId hsome)

theorem ResumeInv.planBatch (h : ResumeInv w) (runId : Nat) (createdAt : Timestamp) :
    ResumeInv (w.planBatch runId createdAt) := by
  rw [ResumeWorld.planBatch]
  cases hrun : w.runs runId with
  | none => exact h
  | some run =>
    dsimp only
    split
    · exact h
    · rename_i hresuming
      rw [Bool.not_eq_true] at hresuming
      have hlow : runId < w.nextRunId := by
        by_contra hge
        rw [(h.fresh runId (by omega)).1] at hrun
        cases hrun
      have hcurrent := h.current runId run hrun hresuming
      refine h.write hlow (Nat.le_refl _) (Nat.le_refl _) ?_ ?_ ?_ (fun _ => hcurrent)
        (h.bound runId run hrun)
      · intro old hold
        obtain rfl := Option.some.inj (hrun.symm.trans hold)
        exact ⟨rfl, rfl⟩
      · intro batchId flow time hevent
        obtain ⟨rfl, rfl, -⟩ := HubBatchEvent.batchPlanned.inj hevent
        exact ⟨rfl, hcurrent⟩
      · intro _
        exact ⟨createdAt, List.mem_append_right _ (List.mem_singleton_self _)⟩

theorem ResumeInv.claimHubTask (h : ResumeInv w) (runId : Nat) (taskId : TaskId) :
    ResumeInv (w.claimHubTask runId taskId) := by
  rw [ResumeWorld.claimHubTask]
  cases hrun : w.runs runId with
  | none => exact h
  | some run =>
    dsimp only
    split
    · rename_i hplanned
      refine h.modifyTask fun task _ claim hclaim => ?_
      split at hclaim
      · exact Or.inl hclaim
      · obtain rfl := Option.some.inj hclaim
        exact Or.inr ⟨(h.bound runId run hrun).1, run, hrun, h.planned runId run hrun hplanned⟩
    · exact h

theorem ResumeInv.resumeReview (h : ResumeInv w) (hasReviewer : String → Bool) (runId : Nat)
    (taskId : TaskId) : ResumeInv (w.resumeReviewSelectedTask hasReviewer runId taskId) := by
  rw [ResumeWorld.resumeReviewSelectedTask]
  cases hrun : w.runs runId with
  | none => exact h
  | some run =>
    dsimp only
    split
    · refine h.modifyTask fun task _ claim hclaim => ?_
      split at hclaim
      · rename_i hbatch
        obtain ⟨old, hold, rfl⟩ := Option.map_eq_some_iff.mp hclaim
        have hresumed := hbatch.2
        rw [hold, Option.map_some] at hresumed
        exact Or.inr ⟨(h.bound runId run hrun).2 _ hresumed.symm, run, hrun, hresumed.symm⟩
      · exact Or.inl hclaim
    · exact h

end

section
variable (hasReviewer : String → Bool)

theorem ResumeInv.step {w : ResumeWorld} (h : ResumeInv w) (action : ResumeAction) :
    ResumeInv (w.step hasReviewer action) := by
  cases action with
  | create taskId status =>
    refine ⟨h.fresh, h.plan, h.planned, h.current, h.bound, ?_⟩
    intro task hmem claim hclaim
    rcases List.mem_append.mp hmem with hold | hnew
    · exact h.claim task hold claim hclaim
    · rw [List.mem_singleton.mp hnew] at hclaim
      cases hclaim
  | move taskId status keepClaim =>
    refine h.modifyTask fun task _ claim hclaim => Or.inl ?_
    cases keepClaim with
    | true => exact hclaim
    | false => cases hclaim
  | startRun flowId => exact h.startRun flowId (hasReviewer flowId)
  | startNextBatch runId => exact h.startNextBatch runId
  | planBatch runId createdAt => exact h.planBatch runId createdAt
  | claimHubTask runId taskId => exact h.claimHubTask runId taskId
  | resumeReview runId taskId => exact h.resumeReview hasReviewer runId taskId

theorem resumeInv_after (actions : List ResumeAction) :
    ResumeInv (afterWrites hasReviewer actions) := by
  have hrun : ∀ w, ResumeInv w → ResumeInv (actions.foldl (ResumeWorld.step hasReviewer) w) := by
    induction actions with
    | nil => exact fun _ h => h
    | cons action actions ih => exact fun w h => ih _ (h.step hasReviewer action)
  refine hrun {} ⟨fun _ _ => ⟨rfl, rfl⟩, ?_, ?_, ?_, ?_, ?_⟩
  · intro runId batchId flowId createdAt hmem
    cases hmem
  · intro runId run hrun
    cases hrun
  · intro runId run hrun
    cases hrun
  · intro runId run hrun
    cases hrun
  · intro task hmem
    cases hmem

/-! ### Finished work is found -/

/-- The task has finished work of a flow: it waits for its merge, or in a flow with a reviewer for
its review, with a claim that a run of the flow wrote. -/
def Finished (w : ResumeWorld) (flowId : String) (task : ResumeTask) (claim : BatchClaim) : Prop :=
  task ∈ w.tasks ∧ task.claim = some claim ∧
    isResumableHubFlowTaskStatus task.hubStatus (hasReviewer flowId) = true ∧
    (w.runs claim.runId).map (·.flowId) = some flowId

/-- The next run of the flow finds the batch of all its finished work. -/
def Resumable (w : ResumeWorld) : Prop :=
  ∀ flowId task claim, Finished hasReviewer w flowId task claim →
    ∃ batch ∈ w.findResumableHubFlowBatches flowId (hasReviewer flowId),
      batch.batchId = claim.batchId

/-- For all finished work, some task of the batch that is finished has the claim that its
implementation wrote: no resumed review has rehomed it. -/
def ClaimedByImplementation (w : ResumeWorld) : Prop :=
  ∀ flowId task claim, Finished hasReviewer w flowId task claim →
    ∃ mate kept, Finished hasReviewer w flowId mate kept ∧ kept.batchId = claim.batchId ∧
      kept.writer = .implementation

theorem plan_iff {w : ResumeWorld} (h : ResumeInv w) {flowId : String} {task : ResumeTask}
    {claim : BatchClaim} (hfinished : Finished hasReviewer w flowId task claim) :
    (∃ createdAt, .batchPlanned claim.batchId flowId createdAt ∈ w.events claim.runId) ↔
      claim.writer = .implementation := by
  obtain ⟨htask, hclaim, -, hflow⟩ := hfinished
  obtain ⟨-, run, hrun, hwriter⟩ := h.claim task htask claim hclaim
  rw [hrun, Option.map_some, Option.some.injEq] at hflow
  cases hby : claim.writer with
  | implementation =>
    rw [hby, hflow] at hwriter
    simp only [hwriter]
  | resumedReview =>
    rw [hby] at hwriter
    simp only [reduceCtorEq, iff_false]
    rintro ⟨createdAt, hmem⟩
    obtain ⟨owner, howner, -, hresumed⟩ := h.plan _ _ _ _ hmem
    obtain rfl := Option.some.inj (hrun.symm.trans howner)
    exact hresumed hwriter

/-- After any writes, the next run finds all finished work exactly when a claim of each of its
batches is the one that an implementation wrote. -/
theorem resumable_iff (actions : List ResumeAction) :
    Resumable hasReviewer (afterWrites hasReviewer actions) ↔
      ClaimedByImplementation hasReviewer (afterWrites hasReviewer actions) := by
  have hinv := resumeInv_after hasReviewer actions
  constructor
  · intro h flowId task claim hfinished
    obtain ⟨batch, hbatch, hid⟩ := h flowId task claim hfinished
    obtain ⟨mate, hmate, hsome⟩ := mem_findResumable.mp hbatch
    obtain ⟨hstatus, kept, hkept, hkeptId, createdAt, hplan⟩ := resumableBatch_some hsome
    obtain ⟨run, hrun, hflow, -⟩ := hinv.plan _ _ _ _ hplan
    have hmateFinished : Finished hasReviewer (afterWrites hasReviewer actions) flowId mate kept :=
      ⟨hmate, hkept, hstatus, by rw [hrun, Option.map_some, hflow]⟩
    exact ⟨mate, kept, hmateFinished, hkeptId.trans hid,
      (plan_iff hasReviewer hinv hmateFinished).mp ⟨createdAt, hplan⟩⟩
  · intro h flowId task claim hfinished
    obtain ⟨mate, kept, hmate, hid, hwriter⟩ := h flowId task claim hfinished
    obtain ⟨createdAt, hplan⟩ := (plan_iff hasReviewer hinv hmate).mpr hwriter
    obtain ⟨batch, hsome, hbatch⟩ := resumableBatch_of_plan hmate.2.2.1 hmate.2.1 hplan
    exact ⟨batch, mem_findResumable.mpr ⟨mate, hmate.1, hsome⟩, hbatch.trans hid⟩

end

/-! ### Sample -/

/-- A run with a reviewer implements a task and stops in its review. The next run resumes the
review, and stops too. -/
def interruptedTwice : List ResumeAction :=
  [.create "a" .readyForAgent, .startRun "implement-with-review", .planBatch 0 1,
    .claimHubTask 0 "a", .move "a" .reviewing true, .startRun "implement-with-review",
    .resumeReview 1 "a"]

/-- The first interruption leaves work that the next run finds. After the second one no run finds
it. -/
theorem interruptedTwice_lost :
    (afterWrites (fun _ => true) (interruptedTwice.take 5)).findResumableHubFlowBatches
        "implement-with-review" true = [{ runId := 0, batchId := 0, createdAt := 1 }] ∧
      (afterWrites (fun _ => true) interruptedTwice).findResumableHubFlowBatches
        "implement-with-review" true = [] ∧
      ¬Resumable (fun _ => true) (afterWrites (fun _ => true) interruptedTwice) := by
  have hnone : (afterWrites (fun _ => true) interruptedTwice).findResumableHubFlowBatches
      "implement-with-review" true = [] := by
    decide +kernel
  refine ⟨by decide +kernel, hnone, fun h => ?_⟩
  have hfinished : Finished (fun _ => true) (afterWrites (fun _ => true) interruptedTwice)
      "implement-with-review"
      { taskId := "a"
        hubStatus := .reviewing
        claim := some { runId := 1, batchId := 0, writer := .resumedReview } }
      { runId := 1, batchId := 0, writer := .resumedReview } :=
    ⟨by decide +kernel, rfl, rfl, by decide +kernel⟩
  obtain ⟨batch, hbatch, -⟩ := h _ _ _ hfinished
  rw [hnone] at hbatch
  cases hbatch

end ArchLoop.BatchResume
