import ArchLoop.RunEventLog

/-!
# `ArchLoop.Proofs.LatestEvent`: which event recovery and the doctor take for the latest

The events of a task are spread over the logs of its runs, and the logs are read in the order of
the runs' names. `readTaskEvents_ordered` says that what is read is in that order and
`filter_readTaskEvents` that the events of one run are in the order in which they happened.
`latest_iff` concludes that the selected event is the last one that happened exactly when its run
has the greatest name among the runs with such events of the task.
-/

set_option autoImplicit false

namespace ArchLoop.RunEvents

open ArchLoop.Lib

namespace HubRuns

variable {runDirs : List String} {history : List HubTaskEvent} {event : HubTaskEvent}

theorem after_append :
    after runDirs (history ++ [event]) = (after runDirs history).appendHubTaskEvent event := by
  rw [after, after, List.foldl_append]
  rfl

theorem taskEvents_after (runId : String) :
    (after runDirs history).taskEvents runId =
      history.filter fun event => decide (event.runId = runId) := by
  induction history using List.reverseRecOn with
  | nil => rfl
  | append_singleton history event ih =>
    rw [after_append, List.filter_append]
    show Function.update _ event.runId _ runId = _
    by_cases hrun : event.runId = runId
    · rw [hrun, Function.update_self, ih, List.filter_singleton, decide_eq_true hrun]
      rfl
    · rw [Function.update_of_ne (Ne.symm hrun), ih, List.filter_singleton,
        decide_eq_false hrun]
      exact (List.append_nil _).symm

theorem runDirs_after (h : runDirs.Nodup) :
    (after runDirs history).runDirs.Nodup ∧
      ∀ event ∈ history, event.runId ∈ (after runDirs history).runDirs := by
  induction history using List.reverseRecOn with
  | nil => exact ⟨h, fun event hmem => absurd hmem List.not_mem_nil⟩
  | append_singleton history event ih =>
    have hdirs : (after runDirs (history ++ [event])).runDirs =
        if event.runId ∈ (after runDirs history).runDirs then (after runDirs history).runDirs
        else (after runDirs history).runDirs ++ [event.runId] := by
      rw [after_append]
      rfl
    rw [hdirs]
    by_cases hmem : event.runId ∈ (after runDirs history).runDirs
    · rw [if_pos hmem]
      refine ⟨ih.1, fun other hother => ?_⟩
      rcases List.mem_append.mp hother with hother | hother
      · exact ih.2 other hother
      · rw [List.mem_singleton.mp hother]
        exact hmem
    · rw [if_neg hmem]
      refine ⟨List.nodup_append.mpr ⟨ih.1, List.nodup_singleton _, ?_⟩, fun other hother => ?_⟩
      · intro dir hdir other hother heq
        rw [List.mem_singleton.mp hother] at heq
        exact hmem (heq ▸ hdir)
      · rcases List.mem_append.mp hother with hother | hother
        · exact List.mem_append_left _ (ih.2 other hother)
        · rw [List.mem_singleton.mp hother]
          exact List.mem_append_right _ List.mem_cons_self

theorem mem_listRunDirs {s : HubRuns} {dir : String} : dir ∈ s.listRunDirs ↔ dir ∈ s.runDirs :=
  List.mem_insertionSort _

theorem mem_readTaskEvents (h : runDirs.Nodup) :
    event ∈ (after runDirs history).readTaskEvents ↔ event ∈ history := by
  rw [readTaskEvents, List.mem_flatMap]
  constructor
  · rintro ⟨dir, -, hmem⟩
    rw [taskEvents_after] at hmem
    exact (List.mem_filter.mp hmem).1
  · intro hmem
    refine ⟨event.runId, mem_listRunDirs.mpr ((runDirs_after h).2 event hmem), ?_⟩
    rw [taskEvents_after]
    exact List.mem_filter.mpr ⟨hmem, decide_eq_true rfl⟩

theorem readTaskEvents_ordered :
    (after runDirs history).readTaskEvents.Pairwise fun a b => a.runId ≤ b.runId := by
  have hlog : ∀ dir, ∀ event ∈ (after runDirs history).taskEvents dir, event.runId = dir := by
    intro dir event hmem
    rw [taskEvents_after] at hmem
    exact of_decide_eq_true (List.mem_filter.mp hmem).2
  rw [readTaskEvents, List.pairwise_flatMap]
  refine ⟨fun dir _ => ?_, ?_⟩
  · exact List.pairwise_of_forall_mem_list fun a ha b hb =>
      le_of_eq ((hlog dir a ha).trans (hlog dir b hb).symm)
  · refine (List.pairwise_insertionSort (fun a b : String => a ≤ b) _).imp ?_
    intro first second hle a ha b hb
    rw [hlog first a ha, hlog second b hb]
    exact hle

theorem flatMap_only {runId : String} {log : List HubTaskEvent} {dirs : List String}
    (h : dirs.Nodup) :
    (dirs.flatMap fun dir => if dir = runId then log else []) =
      if runId ∈ dirs then log else [] := by
  induction dirs with
  | nil => rfl
  | cons dir dirs ih =>
    obtain ⟨hfresh, hdirs⟩ := List.nodup_cons.mp h
    rw [List.flatMap_cons, ih hdirs]
    by_cases hdir : dir = runId
    · rw [if_pos hdir, if_neg (hdir ▸ hfresh), if_pos (hdir ▸ List.mem_cons_self),
        List.append_nil]
    · have hmem : runId ∈ dir :: dirs ↔ runId ∈ dirs :=
        ⟨fun hmem => (List.mem_cons.mp hmem).resolve_left (Ne.symm hdir), List.mem_cons_of_mem _⟩
      rw [if_neg hdir, List.nil_append]
      simp only [hmem]

theorem filter_readTaskEvents (h : runDirs.Nodup) (runId : String) :
    (after runDirs history).readTaskEvents.filter (fun event => decide (event.runId = runId)) =
      history.filter fun event => decide (event.runId = runId) := by
  have hlog : ∀ dir, ((after runDirs history).taskEvents dir).filter
      (fun event => decide (event.runId = runId)) =
        if dir = runId then history.filter fun event => decide (event.runId = runId) else [] := by
    intro dir
    rw [taskEvents_after, List.filter_filter]
    by_cases hdir : dir = runId
    · simp [hdir]
    · rw [if_neg hdir, List.filter_eq_nil_iff]
      intro event _ hboth
      simp only [Bool.and_eq_true, decide_eq_true_eq] at hboth
      exact hdir (hboth.2.symm.trans hboth.1)
  have hdirs : (after runDirs history).listRunDirs.Nodup :=
    (List.perm_insertionSort (fun a b : String => a ≤ b) _).nodup_iff.mpr (runDirs_after h).1
  rw [readTaskEvents, List.filter_flatMap]
  simp only [hlog]
  rw [flatMap_only hdirs]
  split
  · rfl
  · rename_i hmissing
    rw [eq_comm, List.filter_eq_nil_iff]
    intro event hmem hrun
    rw [decide_eq_true_eq] at hrun
    have hlisted := mem_listRunDirs.mpr ((runDirs_after h).2 event hmem)
    exact hmissing (hrun ▸ hlisted)

end HubRuns

/-! ### The last event of a kind -/

section
variable {selects : HubTaskEvent → Bool} {taskId : TaskId}

def eventsOf (selects : HubTaskEvent → Bool) (taskId : TaskId) (events : List HubTaskEvent) :
    List HubTaskEvent :=
  events.filter fun event => selects event && decide (event.taskId = taskId)

theorem latestEventByTask_eq (events : List HubTaskEvent) :
    latestEventByTask selects events taskId = (eventsOf selects taskId events).getLast? := by
  induction events using List.reverseRecOn with
  | nil => rfl
  | append_singleton events event ih =>
    rw [latestEventByTask, List.foldl_append, ← latestEventByTask, eventsOf, List.filter_append,
      List.filter_singleton, ← eventsOf, List.foldl_cons, List.foldl_nil]
    cases hselects : selects event with
    | false => simpa using ih
    | true =>
      by_cases htask : event.taskId = taskId
      · simp [htask]
      · simpa [htask, Function.update_of_ne (Ne.symm htask)] using ih

theorem getLast?_filter_of_last {events : List HubTaskEvent} {last : HubTaskEvent}
    {p : HubTaskEvent → Bool} (h : events.getLast? = some last) (hp : p last = true) :
    (events.filter p).getLast? = some last := by
  obtain ⟨init, rfl⟩ := List.getLast?_eq_some_iff.mp h
  rw [List.filter_append, List.filter_singleton, hp]
  simp

theorem le_of_last {events : List HubTaskEvent} {event last : HubTaskEvent}
    (h : events.Pairwise fun a b => a.runId ≤ b.runId) (hlast : events.getLast? = some last)
    (hmem : event ∈ events) : event.runId ≤ last.runId := by
  obtain ⟨init, rfl⟩ := List.getLast?_eq_some_iff.mp hlast
  rcases List.mem_append.mp hmem with hmem | hmem
  · exact (List.pairwise_append.mp h).2.2 event hmem last List.mem_cons_self
  · rw [List.mem_singleton.mp hmem]

/-- Two lists with the same members, of which one is ordered by the runs and each has the events of
a run in the same order, end in the same event exactly when the last event of the other is of the
greatest run. -/
theorem getLast?_eq_iff {read happened : List HubTaskEvent}
    (hordered : read.Pairwise fun a b => a.runId ≤ b.runId)
    (hmem : ∀ event, event ∈ read ↔ event ∈ happened)
    (hruns : ∀ runId, read.filter (fun event => decide (event.runId = runId)) =
      happened.filter fun event => decide (event.runId = runId)) :
    read.getLast? = happened.getLast? ↔
      ∀ last, happened.getLast? = some last → ∀ event ∈ happened, event.runId ≤ last.runId := by
  constructor
  · intro hsame last hlast event hevent
    exact le_of_last hordered (hsame.trans hlast) ((hmem event).mpr hevent)
  · intro hgreatest
    cases hlast : happened.getLast? with
    | none =>
      rw [List.getLast?_eq_none_iff] at hlast ⊢
      refine List.eq_nil_iff_forall_not_mem.mpr fun event hevent => ?_
      have hnone := (hmem event).mp hevent
      rw [hlast] at hnone
      exact List.not_mem_nil hnone
    | some last =>
      have hin : last ∈ happened := List.mem_of_getLast? hlast
      cases hread : read.getLast? with
      | none =>
        rw [List.getLast?_eq_none_iff] at hread
        have hnone := (hmem last).mpr hin
        rw [hread] at hnone
        exact absurd hnone List.not_mem_nil
      | some event =>
        have hevent : event ∈ happened := (hmem event).mp (List.mem_of_getLast? hread)
        have hrun : event.runId = last.runId :=
          le_antisymm (hgreatest last hlast event hevent)
            (le_of_last hordered hread ((hmem last).mpr hin))
        -- Both are the last event of that run.
        have hthis := getLast?_filter_of_last (p := fun event =>
          decide (event.runId = last.runId)) hread (decide_eq_true hrun)
        have hthat := getLast?_filter_of_last (p := fun event =>
          decide (event.runId = last.runId)) hlast (decide_eq_true rfl)
        rw [hruns, hthat] at hthis
        exact hthis.symm

end

/-! ### What recovery and the doctor take -/

/-- The last selected event of the task is of the run with the greatest name among the runs that
have such an event of the task. -/
def LastRunIsGreatest (selects : HubTaskEvent → Bool) (taskId : TaskId)
    (history : List HubTaskEvent) : Prop :=
  ∀ last, (eventsOf selects taskId history).getLast? = some last →
    ∀ event ∈ eventsOf selects taskId history, event.runId ≤ last.runId

theorem latestEventByTask_iff {runDirs : List String} (history : List HubTaskEvent)
    (h : runDirs.Nodup) (selects : HubTaskEvent → Bool) (taskId : TaskId) :
    latestEventByTask selects (HubRuns.after runDirs history).readTaskEvents taskId =
        (eventsOf selects taskId history).getLast? ↔
      LastRunIsGreatest selects taskId history := by
  rw [latestEventByTask_eq]
  refine getLast?_eq_iff ?_ ?_ ?_
  · exact HubRuns.readTaskEvents_ordered.filter _
  · intro event
    rw [eventsOf, eventsOf, List.mem_filter, List.mem_filter, HubRuns.mem_readTaskEvents h]
  · intro runId
    rw [eventsOf, eventsOf, List.filter_comm, HubRuns.filter_readTaskEvents h, List.filter_comm]

/-- Recovery and the doctor select, for each task, the event of their kind that happened last. -/
structure SelectsLatest (runDirs : List String) (history : List HubTaskEvent) (taskId : TaskId) :
    Prop where
  phaseCompletion : latestPhaseCompletionEventByTask
      (HubRuns.after runDirs history).readTaskEvents taskId =
    (eventsOf isPhaseCompletionEvent taskId history).getLast?
  mergeReady : latestMergeReadyEventsByTask
      (HubRuns.after runDirs history).readTaskEvents taskId =
    (eventsOf isMergeReadyEvent taskId history).getLast?

/-- When they do, over all sets of run directories, histories and tasks. -/
theorem selectsLatest_iff (runDirs : List String) (history : List HubTaskEvent) (taskId : TaskId)
    (h : runDirs.Nodup) :
    SelectsLatest runDirs history taskId ↔
      LastRunIsGreatest isPhaseCompletionEvent taskId history ∧
        LastRunIsGreatest isMergeReadyEvent taskId history := by
  have hphase := latestEventByTask_iff history h isPhaseCompletionEvent taskId
  have hmerge := latestEventByTask_iff history h isMergeReadyEvent taskId
  constructor
  · intro hselects
    exact ⟨hphase.mp hselects.phaseCompletion, hmerge.mp hselects.mergeReady⟩
  · intro hgreatest
    exact ⟨hphase.mpr hgreatest.1, hmerge.mpr hgreatest.2⟩

/-! ### Two runs -/

def earlierRun : String := "run-f47ac10b-58cc-4372-a567-0e02b2c3d479"

def laterRun : String := "run-1b9d6bcd-bbfd-4b2d-9b5d-ab8dfbbd4bed"

/-- An implementation that a reviewer is to look at. -/
def implemented : HubTaskEvent where
  type := .taskImplementationSucceeded
  runId := earlierRun
  taskId := "bd-1"
  createdAt := 1
  status := "reviewing"
  sequence := 1

def reviewed (runId : String) : HubTaskEvent where
  type := .taskReviewSucceeded
  runId := runId
  taskId := "bd-1"
  createdAt := 2
  status := "waiting_for_merge"
  sequence := 2

/-- Events of one run are taken in their order. -/
theorem selectsLatest_oneRun :
    SelectsLatest [earlierRun] [implemented, reviewed earlierRun] "bd-1" := by
  refine (selectsLatest_iff _ _ _ (List.nodup_singleton _)).mpr ⟨?_, ?_⟩
  · intro last hlast event hmem
    have hsame : ∀ event ∈ eventsOf isPhaseCompletionEvent "bd-1"
        [implemented, reviewed earlierRun], event.runId = earlierRun := by decide
    exact le_of_eq ((hsame event hmem).trans (hsame last (List.mem_of_getLast? hlast)).symm)
  · intro last hlast event hmem
    have hsame : ∀ event ∈ eventsOf isMergeReadyEvent "bd-1"
        [implemented, reviewed earlierRun], event.runId = earlierRun := by decide
    exact le_of_eq ((hsame event hmem).trans (hsame last (List.mem_of_getLast? hlast)).symm)

/-- The task was implemented in one run and reviewed in a later one, whose name comes first.
Recovery takes the implementation for the latest event. -/
theorem laterRun_overlooked :
    isHubRunId earlierRun = true ∧ isHubRunId laterRun = true ∧
      [implemented, reviewed laterRun].Pairwise (fun a b => a.createdAt ≤ b.createdAt) ∧
      latestPhaseCompletionEventByTask (HubRuns.after [earlierRun, laterRun]
        [implemented, reviewed laterRun]).readTaskEvents "bd-1" = some implemented ∧
      ¬SelectsLatest [earlierRun, laterRun] [implemented, reviewed laterRun] "bd-1" := by
  have hselected : latestPhaseCompletionEventByTask (HubRuns.after [earlierRun, laterRun]
      [implemented, reviewed laterRun]).readTaskEvents "bd-1" = some implemented := by
    decide +kernel
  have hlatest : (eventsOf isPhaseCompletionEvent "bd-1"
      [implemented, reviewed laterRun]).getLast? = some (reviewed laterRun) := by decide +kernel
  refine ⟨by decide +kernel, by decide +kernel, by decide, hselected, fun hselects => ?_⟩
  have hsame := hselects.phaseCompletion
  rw [hselected, hlatest] at hsame
  exact absurd hsame (by decide)

end ArchLoop.RunEvents
