import ArchLoop.TaskLifecycle
import ArchLoop.Proofs.TransitionSpec

/-!
# `ArchLoop.Proofs.SnapshotPatch`: a transition that carries an old snapshot

A lifecycle call passes the metadata that its caller read some time ago, and the transition writes
them over what the store has now. The keys of the status, of the claim and of the reasons are the
transition's own. `keepsUnowned_iff` says when every other key keeps the value that it had before
the call: when the snapshot has no other value for it, or the call does not get to its write.

The store may refuse any of the commands, or lose their answers. `reachesWrite` reads off these
whether the call writes, and `metadataAt_transition` says what the call leaves under a key that is
not its own. `keepsUnowned_enterMergePhase` carries this through the loop over a batch.
-/

set_option autoImplicit false

namespace ArchLoop.TaskBoard

open ArchLoop.Lib

/-! ### Commands with outages -/

def nextDone (outages : List BdOutcome) : Bool := decide (outages.head?.getD .done = .done)

/-- The outages after a load of a task, when the load returns. A load that cannot show the task
looks for it on the whole board. -/
def afterLoad (outages : List BdOutcome) : Option (List BdOutcome) :=
  if nextDone outages then
    if nextDone outages.tail then some outages.tail.tail else none
  else if nextDone outages.tail && nextDone outages.tail.tail then some outages.tail.tail.tail
  else none

/-- A transition gets to its first write, and the write is not refused. -/
def reachesWrite (outages : List BdOutcome) : Bool :=
  (afterLoad outages).any fun rest => decide (rest.head? ≠ some .refused)

section
variable {s : BeadsStore} {id : TaskId} {issue : BeadsIssue}

def withOutages (s : BeadsStore) (outages : List BdOutcome) : BeadsStore :=
  { s with outages := outages }

theorem outcome_eq_done : s.outcome = .done ↔ nextDone s.outages = true := by
  rw [nextDone, decide_eq_true_iff, BeadsStore.outcome]

theorem command_still : s.command (fun s => s) = withOutages s s.outages.tail := by
  rw [BeadsStore.command]
  split
  · rfl
  · rfl

theorem run_reading {α : Type} (failureLabel : String) (answer : BeadsStore → α) :
    (bdCommand failureLabel (fun s => s) answer).run s =
      (if nextDone s.outages then .ok (answer s)
        else .error ("archloop " ++ failureLabel ++ " failed"),
        withOutages s s.outages.tail) := by
  rw [bdCommand, Prog.run_act, command_still]
  by_cases hdone : nextDone s.outages = true
  · rw [if_pos (outcome_eq_done.mpr hdone), if_pos hdone]
    rfl
  · rw [if_neg fun h => hdone (outcome_eq_done.mp h), if_neg hdone]
    rfl

theorem run_showTask_stored (h : s.issue id = some issue) (failureLabel : String) :
    (showTask failureLabel id).run s =
      (if nextDone s.outages then .ok issue
        else .error ("archloop " ++ failureLabel ++ " failed"),
        withOutages s s.outages.tail) := by
  have hread : (bdCommand failureLabel (fun s => s) fun s => s.issue id).run s = _ :=
    run_reading failureLabel _
  by_cases hdone : nextDone s.outages = true
  · rw [if_pos hdone] at hread ⊢
    rw [showTask, Prog.run_bind_ok hread, h]
    rfl
  · rw [if_neg hdone] at hread ⊢
    rw [showTask, Prog.run_bind_error hread]

theorem id_of_stored (h : s.issue id = some issue) : issue.id = id := by
  rw [BeadsStore.issue] at h
  have hid := List.find?_some h
  exact of_decide_eq_true hid

theorem selectFromBoard_stored (h : s.issue id = some issue) (hid : ProperId id) :
    selectFromBoard id (trim id) (s.issues.map BeadsIssue.projection) = .ret issue.projection := by
  have hfind : (s.issues.map BeadsIssue.projection).find? (fun task => decide (task.id = trim id)) =
      some issue.projection := by
    rw [List.find?_map, hid.trimmed]
    show (s.issues.find? fun other => decide (other.id = id)).map _ = _
    rw [show (s.issues.find? fun other => decide (other.id = id)) = some issue from h]
    rfl
  rw [selectFromBoard, hfind]

theorem run_load (h : s.issue id = some issue) (hid : ProperId id) :
    (∀ rest, afterLoad s.outages = some rest →
        (loadHubTask id).run s = (.ok issue.projection, withOutages s rest)) ∧
      (afterLoad s.outages = none → ∃ message, ((loadHubTask id).run s).1 = .error message) := by
  have hselector : (resolveHubTaskSelector id).run s =
      if nextDone s.outages then (.ok issue.projection, withOutages s s.outages.tail)
      else if nextDone s.outages.tail then
        (.ok issue.projection, withOutages s s.outages.tail.tail)
      else (.error "archloop tasks list failed", withOutages s s.outages.tail.tail) := by
    have hshow := run_showTask_stored h ("tasks show " ++ id)
    have hboard : loadHubTaskBoard.run (withOutages s s.outages.tail) =
        (if nextDone s.outages.tail then .ok (s.issues.map BeadsIssue.projection)
          else .error "archloop tasks list failed", withOutages s s.outages.tail.tail) :=
      run_reading "tasks list" _
    rw [resolveHubTaskSelector, hid.trimmed, if_neg hid.nonempty]
    rw [Prog.run_bind_ok (Prog.run_attempt _ _), hshow]
    by_cases hdone : nextDone s.outages = true
    · rw [if_pos hdone, if_pos hdone]
      rfl
    · rw [if_neg hdone, if_neg hdone]
      show (loadHubTaskBoard.bind (selectFromBoard id id)).run (withOutages s s.outages.tail) = _
      by_cases hlist : nextDone s.outages.tail = true
      · have hselect := selectFromBoard_stored h hid
        rw [hid.trimmed] at hselect
        rw [if_pos hlist] at hboard ⊢
        rw [Prog.run_bind_ok hboard, hselect]
        rfl
      · rw [if_neg hlist] at hboard ⊢
        rw [Prog.run_bind_error hboard]
  have hshown : ∀ rest, (showTask ("tasks show " ++ issue.projection.id) issue.projection.id).run
      (withOutages s rest) =
      (if nextDone rest then .ok issue
        else .error ("archloop " ++ ("tasks show " ++ issue.projection.id) ++ " failed"),
        withOutages s rest.tail) := by
    intro rest
    have hsame : issue.projection.id = id := id_of_stored h
    rw [hsame]
    have hsame : (withOutages s rest).issue id = some issue := h
    exact run_showTask_stored hsame _
  rw [loadHubTask, afterLoad]
  by_cases hdone : nextDone s.outages = true
  · rw [if_pos hdone] at hselector ⊢
    rw [Prog.run_bind_ok hselector]
    by_cases hnext : nextDone s.outages.tail = true
    · have hshow := hshown s.outages.tail
      rw [if_pos hnext] at hshow ⊢
      rw [Prog.run_bind_ok hshow]
      refine ⟨fun rest hrest => ?_, fun hnone => ?_⟩
      · cases hrest
        rfl
      · cases hnone
    · have hshow := hshown s.outages.tail
      rw [if_neg hnext] at hshow ⊢
      rw [Prog.run_bind_error hshow]
      exact ⟨fun rest hrest => (by cases hrest), fun _ => ⟨_, rfl⟩⟩
  · rw [if_neg hdone] at hselector ⊢
    by_cases hlist : nextDone s.outages.tail = true
    · rw [if_pos hlist] at hselector
      rw [Prog.run_bind_ok hselector, hlist, Bool.true_and]
      have hshow := hshown s.outages.tail.tail
      by_cases hnext : nextDone s.outages.tail.tail = true
      · rw [if_pos hnext] at hshow ⊢
        rw [Prog.run_bind_ok hshow]
        refine ⟨fun rest hrest => ?_, fun hnone => ?_⟩
        · cases hrest
          rfl
        · cases hnone
      · rw [if_neg hnext] at hshow ⊢
        rw [Prog.run_bind_error hshow]
        exact ⟨fun rest hrest => (by cases hrest), fun _ => ⟨_, rfl⟩⟩
    · rw [if_neg hlist] at hselector
      rw [Prog.run_bind_error hselector, eq_false_of_ne_true hlist, Bool.false_and,
        if_neg Bool.false_ne_true]
      exact ⟨fun rest hrest => (by cases hrest), fun _ => ⟨_, rfl⟩⟩

end

/-! ### What a transition leaves under one key -/

/-- The value that the store has under a key of a task's metadata. -/
def metadataAt (id : TaskId) (key : String) (s : BeadsStore) : Option (Option Json) :=
  (s.issue id).map fun issue => issue.metadata.get key

section
variable {s : BeadsStore} {id : TaskId} {issue : BeadsIssue} {key : String}

theorem metadataAt_of_issues {t : BeadsStore} (h : t.issues = s.issues) :
    metadataAt id key t = metadataAt id key s := by
  rw [metadataAt, metadataAt, BeadsStore.issue, BeadsStore.issue, h]

theorem issue_changeIssue {other : TaskId} {f : BeadsIssue → BeadsIssue}
    (hf : ∀ issue, (f issue).id = issue.id) :
    (s.changeIssue other f).issue id =
      (s.issue id).map fun issue => if id = other then f issue else issue := by
  have hid : ∀ issue : BeadsIssue, (if issue.id = other then f issue else issue).id = issue.id := by
    intro issue
    split
    · exact hf issue
    · rfl
  have hsame : (fun issue : BeadsIssue => decide (issue.id = id)) ∘
      (fun issue => if issue.id = other then f issue else issue) =
      fun issue => decide (issue.id = id) := by
    funext issue
    rw [Function.comp_apply, hid]
  show ((s.issues.map fun issue => if issue.id = other then f issue else issue).find? _) = _
  rw [List.find?_map, hsame]
  cases hfound : s.issues.find? fun issue => decide (issue.id = id) with
  | none =>
    rw [show s.issue id = none from hfound]
    rfl
  | some issue =>
    have hissue : issue.id = id := id_of_stored hfound
    rw [show s.issue id = some issue from hfound, Option.map_some, Option.map_some, hissue]

theorem metadataAt_command {upd : BeadsStore → BeadsStore} :
    metadataAt id key (s.command upd) =
      if s.outcome = .refused then metadataAt id key s else metadataAt id key (upd s) := by
  rw [BeadsStore.command]
  split
  · exact metadataAt_of_issues rfl
  · exact metadataAt_of_issues rfl

structure KeepsAt {α : Type} (id : TaskId) (key : String) (p : BoardProg α) : Prop where
  keeps : p.Keeps (metadataAt id key)

theorem keepsAt_ret {α : Type} (a : α) : KeepsAt id key (.ret a) := ⟨Prog.keeps_ret a⟩

theorem keepsAt_raise {α : Type} (message : String) :
    KeepsAt id key (.raise message : BoardProg α) := ⟨Prog.keeps_raise message⟩

theorem keepsAt_bind {α β : Type} {p : BoardProg α} {f : α → BoardProg β} (hp : KeepsAt id key p)
    (hf : ∀ a, KeepsAt id key (f a)) : KeepsAt id key (p.bind f) :=
  ⟨Prog.keeps_bind hp.keeps fun a => (hf a).keeps⟩

theorem keepsAt_when {c : Bool} {p : BoardProg Unit} (hp : KeepsAt id key p) :
    KeepsAt id key (Prog.when c p) := ⟨Prog.keeps_when hp.keeps⟩

theorem keepsAt_attempt {α : Type} {p : BoardProg α} (hp : KeepsAt id key p) :
    KeepsAt id key p.attempt := ⟨Prog.keeps_attempt hp.keeps⟩

theorem KeepsAt.run {α : Type} {p : BoardProg α} (h : KeepsAt id key p) (s : BeadsStore) :
    metadataAt id key (p.run s).2 = metadataAt id key s := h.keeps.run s

theorem keepsAt_bdCommand {α : Type} {failureLabel : String} {upd : BeadsStore → BeadsStore}
    {answer : BeadsStore → α} (h : ∀ s, metadataAt id key (upd s) = metadataAt id key s) :
    KeepsAt id key (bdCommand failureLabel upd answer) where
  keeps := by
    refine Prog.always_act.mpr fun s => ⟨?_, ?_⟩
    · rw [metadataAt_command]
      split
      · rfl
      · exact h s
    · split
      · exact Prog.always_ret _
      · exact Prog.always_raise _

theorem keepsAt_showTask (failureLabel : String) (other : TaskId) :
    KeepsAt id key (showTask failureLabel other) := by
  refine keepsAt_bind (keepsAt_bdCommand fun _ => rfl) fun found => ?_
  cases found with
  | some issue => exact keepsAt_ret _
  | none => exact keepsAt_raise _

theorem keepsAt_selectFromBoard (selector trimmed : String) (tasks : List HubTaskProjection) :
    KeepsAt id key (selectFromBoard selector trimmed tasks) := by
  rw [selectFromBoard]
  split
  · exact keepsAt_ret _
  · split
    · exact keepsAt_ret _
    · exact keepsAt_raise _
    · exact keepsAt_raise _

theorem keepsAt_loadHubTask (selector : String) : KeepsAt id key (loadHubTask selector) := by
  refine keepsAt_bind ?_ fun resolved =>
    keepsAt_bind (keepsAt_showTask _ _) fun _ => keepsAt_ret _
  rw [resolveHubTaskSelector]
  split
  · exact keepsAt_raise _
  · refine keepsAt_bind (keepsAt_attempt (keepsAt_showTask _ _)) fun shown => ?_
    cases shown with
    | ok issue => exact keepsAt_ret _
    | error message =>
      exact keepsAt_bind (keepsAt_bdCommand fun _ => rfl) fun _ =>
        keepsAt_selectFromBoard _ _ _

theorem keepsAt_bdUpdate {failureLabel : String} {other : TaskId} {update : BdUpdate}
    (h : other = id → ∀ issue, (update.apply issue).metadata.get key = issue.metadata.get key) :
    KeepsAt id key (bdUpdate failureLabel other update) := by
  refine keepsAt_bind (keepsAt_bdCommand fun s => ?_) fun found => ?_
  · rw [metadataAt, metadataAt, issue_changeIssue (id_apply update), Option.map_map]
    cases s.issue id with
    | none => rfl
    | some issue =>
      show some _ = some _
      rw [Function.comp_apply]
      split
      · rename_i heq
        rw [h heq.symm issue]
      · rfl
  · cases found with
    | true => exact keepsAt_ret _
    | false => exact keepsAt_raise _

/-- A key that is not one of the status, the claim or a reason. -/
structure Unowned (key : String) : Prop where
  status : key ∉ TASK_STATUS_KEYS
  claim : key ∉ ["claim", "hubClaim", "hub_claim", "taskClaim"]
  reason : key ∉ REASON_KEYS

theorem Unowned.not_removable (h : Unowned key) : key ∉ REMOVABLE_KEYS := by
  intro hmem
  rcases List.mem_cons.mp hmem with rfl | hreason
  · exact h.claim List.mem_cons_self
  · exact h.reason hreason

variable {input : UpdateHubTaskStatusInput}

theorem get_transitionMetadata_unowned (h : Unowned key) :
    (transitionMetadata issue.projection input).get key = givenValue issue.metadata input key := by
  have hfailed : key ≠ "failed" := fun heq => h.reason (heq ▸ by decide)
  have hfailure : key ≠ "failureReason" := fun heq => h.reason (heq ▸ by decide)
  have hclaim : key ≠ "claim" := fun heq => h.claim (heq ▸ List.mem_cons_self)
  have hstatus : key ≠ "hubStatus" := fun heq => h.status (heq ▸ by decide)
  rw [get_transitionMetadata, if_neg hfailed, if_neg hfailure, if_neg hclaim,
    if_neg fun hstale => h.reason (staleKeys_subset hstale), if_neg hstatus]

theorem keepsAt_afterWrite (h : Unowned key) (found : Bool) :
    KeepsAt input.taskId key
      (((if found then .ret ()
          else .raise ("archloop " ++ ("tasks transition " ++ input.taskId) ++ " failed") :
            BoardProg Unit)).bind fun _ =>
        (Prog.when (!(transitionRemoves issue input).isEmpty)
          (bdUpdate ("tasks transition " ++ input.taskId) input.taskId
            { unsetMetadata := unsetMetadataArgs (transitionRemoves issue input) })).bind fun _ =>
        (loadHubTask input.taskId).bind fun updatedTask =>
        (returning (assertHubTaskTransition updatedTask input.hubStatus)).bind fun _ =>
        .ret updatedTask) := by
  refine keepsAt_bind ?_ fun _ => keepsAt_bind (keepsAt_when ?_) fun _ =>
    keepsAt_bind (keepsAt_loadHubTask _) fun updatedTask =>
      keepsAt_bind ?_ fun _ => keepsAt_ret _
  · cases found with
    | true => exact keepsAt_ret _
    | false => exact keepsAt_raise _
  · -- Only keys of the claim and of the reasons are taken out.
    refine keepsAt_bdUpdate fun _ other => ?_
    show ((other.metadata.merge []).erase _).get key = _
    rw [Record.get_erase, Record.get_merge, Record.get_nil, Option.none_or, if_neg]
    intro hmem
    have hremoved := mem_transitionRemoves.mp (mem_unsetMetadataArgs.mp hmem)
    exact h.not_removable (removed_key hremoved.1 hremoved.2)
  · cases assertHubTaskTransition updatedTask input.hubStatus with
    | ok a => exact keepsAt_ret _
    | error message => exact keepsAt_raise _

theorem metadataAt_transition (hstored : s.issue input.taskId = some issue)
    (hid : ProperId input.taskId) (h : Unowned key) :
    metadataAt input.taskId key ((transitionHubTaskStatus input).run s).2 =
      some (if reachesWrite s.outages then givenValue issue.metadata input key
        else issue.metadata.get key) := by
  have hload := run_load hstored hid
  have hbefore : metadataAt input.taskId key s = some (issue.metadata.get key) := by
    rw [metadataAt, hstored]
    rfl
  cases hrest : afterLoad s.outages with
  | none =>
    obtain ⟨message, hfails⟩ := hload.2 hrest
    have hframe : KeepsAt input.taskId key (loadHubTask input.taskId) := keepsAt_loadHubTask _
    have hkeeps := hframe.run s
    have hrun : (loadHubTask input.taskId).run s =
        (.error message, ((loadHubTask input.taskId).run s).2) := Prod.ext hfails rfl
    rw [transitionHubTaskStatus, Prog.run_bind_error hrun, reachesWrite, hrest]
    exact hkeeps.trans hbefore
  | some rest =>
    rw [transitionHubTaskStatus, Prog.run_bind_ok (hload.1 rest hrest), writeTransition, bdUpdate,
      Prog.bind_assoc, bdCommand, Prog.act_bind, Prog.run_act]
    rw [reachesWrite, hrest, Option.any_some]
    refine (KeepsAt.run
      (keepsAt_bind ?_ fun found => @keepsAt_afterWrite issue key input h found) _).trans ?_
    · split
      · exact keepsAt_ret _
      · exact keepsAt_raise _
    · have hrefused : (withOutages s rest).outcome = .refused ↔ rest.head? = some .refused := by
        show rest.head?.getD .done = .refused ↔ _
        cases rest.head? with
        | none => simp
        | some outcome => simp
      rw [metadataAt_command]
      by_cases hhead : rest.head? = some .refused
      · rw [if_pos (hrefused.mpr hhead), if_neg (by simp [hhead])]
        exact hbefore
      · have hsame : (withOutages s rest).issue input.taskId = some issue := hstored
        have hwritten : ((transitionUpdate issue.projection input).apply issue).metadata.get key =
            givenValue issue.metadata input key := by
          show ((issue.metadata.merge (transitionMetadata issue.projection input)).erase []).get
            key = _
          rw [Record.get_erase, if_neg List.not_mem_nil, Record.get_merge,
            get_transitionMetadata_unowned h, givenValue, Option.or_assoc, Option.or_self]
        rw [if_neg fun h => hhead (hrefused.mp h), if_pos (decide_eq_true hhead), metadataAt,
          issue_changeIssue (id_apply _), hsame, Option.map_some, Option.map_some, if_pos rfl,
          hwritten]

end

/-! ### The calls -/

/-- A lifecycle call, without the task that it is about. -/
inductive LifecycleCall where
  | implementationSuccess (claim : HubTaskClaimMetadata) (hasReviewer : Bool)
  | implementationFailure (claim : HubTaskClaimMetadata)
      (failureReason : ImplementationFailureReason)
  | reviewSuccess (claim : HubTaskClaimMetadata)
  | reviewFailure (failureReason : HubFailureReason)
  | enterMergePhase
  | mergePhaseFailure (outcome : MergePhaseFailureEvent)
  | repairExhaustion (reason : HubLandingRepairExhaustionReason)
  | closure (landing : Option LandingCommits)
  | revertToWaitingForMerge
  | releaseOrRecover (hubStatus : HubTaskStatus)
  | resumeWithClaim (hubStatus : HubTaskStatus)
  | closeFailedRecovery

namespace LifecycleCall

def discard {α : Type} (p : BoardProg α) : BoardProg Unit := p.bind fun _ => .ret ()

def program (call : LifecycleCall) (task : HubTaskProjection) : BoardProg Unit :=
  match call with
  | implementationSuccess claim hasReviewer =>
    discard (recordImplementationSuccess task.id task.metadata claim hasReviewer)
  | implementationFailure claim failureReason =>
    discard (recordImplementationFailure task.id task.metadata claim failureReason)
  | reviewSuccess claim => discard (recordHubTaskReviewSuccess task.id task.metadata claim)
  | reviewFailure failureReason =>
    discard (recordHubTaskReviewFailure task.id task.metadata failureReason)
  | enterMergePhase => TaskBoard.enterMergePhase [task]
  | mergePhaseFailure outcome => discard (recordMergePhaseFailure task.id task.metadata outcome)
  | repairExhaustion reason => discard (recordRepairExhaustion task.id task.metadata reason)
  | closure landing =>
    discard (recordTaskClosure task.id (task.metadata.merge (landingFields landing)))
  | revertToWaitingForMerge => discard (revertTaskToWaitingForMerge task)
  | releaseOrRecover hubStatus =>
    discard (persistHubTaskWithStrippedClaim task.id hubStatus task.metadata)
  | resumeWithClaim hubStatus => discard (transitionHubTaskStatus
      { taskId := task.id, hubStatus := hubStatus, metadata := task.metadata })
  | closeFailedRecovery => discard (completeCloseFailedRecovery task.id task.metadata)

def computed : LifecycleCall → Record
  | closure landing => landingFields landing
  | _ => []

def input (call : LifecycleCall) (task : HubTaskProjection) : UpdateHubTaskStatusInput :=
  match call with
  | implementationSuccess claim hasReviewer =>
    { taskId := task.id
      hubStatus := resolvePostImplementationStatus hasReviewer
      metadata := task.metadata.set "claim" (.obj (materializeClaimMetadata claim)) }
  | implementationFailure claim failureReason =>
    { taskId := task.id
      hubStatus := .failed
      metadata := task.metadata.set "claim" (.obj (materializeClaimMetadata claim))
      failureReason := some failureReason.toHubFailureReason }
  | reviewSuccess claim =>
    { taskId := task.id
      hubStatus := .waitingForMerge
      metadata := task.metadata.set "claim" (.obj (materializeClaimMetadata claim)) }
  | reviewFailure failureReason =>
    { taskId := task.id
      hubStatus := .failed
      metadata := task.metadata
      failureReason := some failureReason }
  | enterMergePhase => { taskId := task.id, hubStatus := .merging, metadata := task.metadata }
  | mergePhaseFailure outcome =>
    { taskId := task.id
      hubStatus := .failed
      metadata := task.metadata
      failureReason := some outcome.failureReason }
  | repairExhaustion reason =>
    { taskId := task.id
      hubStatus := .blocked
      metadata := task.metadata.merge (exhaustionMetadata reason) }
  | closure landing =>
    { taskId := task.id
      hubStatus := .done
      metadata := (task.metadata.merge (landingFields landing)).set "done" (.bool true) }
  | revertToWaitingForMerge =>
    { taskId := task.id, hubStatus := .waitingForMerge, metadata := task.metadata }
  | releaseOrRecover hubStatus =>
    { taskId := task.id, hubStatus := hubStatus, metadata := stripClaimMetadata task.metadata }
  | resumeWithClaim hubStatus =>
    { taskId := task.id, hubStatus := hubStatus, metadata := task.metadata }
  | closeFailedRecovery =>
    { taskId := task.id
      hubStatus := .done
      metadata := task.metadata.set "done" (.bool true) }

variable {call : LifecycleCall} {task : HubTaskProjection} {s : BeadsStore} {key : String}

theorem run_then_ret {α β : Type} (p : BoardProg α) (f : α → β) :
    ((p.bind fun a => .ret (f a)).run s).2 = (p.run s).2 := by
  rw [Prog.run_bind]
  cases p.run s with
  | mk result t =>
    cases result with
    | ok a => rfl
    | error message => rfl

theorem run_discard {α : Type} (p : BoardProg α) :
    ((discard p).run s).2 = (p.run s).2 := run_then_ret p fun _ => ()

theorem run_updateLifecycle (input : UpdateHubTaskStatusInput) :
    ((discard (updateLifecycle input)).run s).2 = ((transitionHubTaskStatus input).run s).2 :=
  (run_discard _).trans (run_then_ret _ _)

theorem run_close (taskId : TaskId) (metadata : Record) :
    ((discard (recordTaskClosure taskId metadata)).run s).2 =
      ((closeHubTask taskId metadata).run s).2 :=
  (run_discard _).trans (run_then_ret _ _)

theorem run_program (call : LifecycleCall) (task : HubTaskProjection) :
    ((call.program task).run s).2 = ((transitionHubTaskStatus (call.input task)).run s).2 := by
  cases call with
  | implementationSuccess claim hasReviewer => exact run_updateLifecycle _
  | implementationFailure claim failureReason => exact run_updateLifecycle _
  | reviewSuccess claim => exact run_updateLifecycle _
  | reviewFailure failureReason => exact run_updateLifecycle _
  | enterMergePhase =>
    exact run_updateLifecycle
      { taskId := task.id, hubStatus := .merging, metadata := task.metadata }
  | mergePhaseFailure outcome => exact run_updateLifecycle _
  | repairExhaustion reason => exact run_updateLifecycle _
  | closure landing => exact run_close _ _
  | revertToWaitingForMerge => exact run_discard _
  | releaseOrRecover hubStatus => exact run_updateLifecycle _
  | resumeWithClaim hubStatus => exact run_discard _
  | closeFailedRecovery => exact run_close _ _

theorem taskId_input : (call.input task).taskId = task.id := by
  cases call with
  | implementationSuccess claim hasReviewer => rfl
  | implementationFailure claim failureReason => rfl
  | reviewSuccess claim => rfl
  | reviewFailure failureReason => rfl
  | enterMergePhase => rfl
  | mergePhaseFailure outcome => rfl
  | repairExhaustion reason => rfl
  | closure landing => rfl
  | revertToWaitingForMerge => rfl
  | releaseOrRecover hubStatus => rfl
  | resumeWithClaim hubStatus => rfl
  | closeFailedRecovery => rfl

theorem get_none_of_not_mem {r : Record} (h : key ∉ r.keys) : r.get key = none := by
  by_contra hsome
  exact h (Record.mem_keys.mpr hsome)

theorem get_input (h : Unowned key) (hcomputed : key ∉ call.computed.keys) :
    (call.input task).metadata.get key = task.metadata.get key := by
  have hclaim : key ≠ "claim" := fun heq => h.claim (heq ▸ List.mem_cons_self)
  have hdone : key ≠ "done" := fun heq => h.reason (heq ▸ by decide)
  have hset : ∀ (r : Record) (value : Json), (r.set "claim" value).get key = r.get key :=
    fun r value => Record.get_set.trans (if_neg hclaim)
  have hclosed : ∀ r : Record, (r.set "done" (.bool true)).get key = r.get key :=
    fun r => Record.get_set.trans (if_neg hdone)
  cases call with
  | implementationSuccess claim hasReviewer => exact hset _ _
  | implementationFailure claim failureReason => exact hset _ _
  | reviewSuccess claim => exact hset _ _
  | reviewFailure failureReason => rfl
  | enterMergePhase => rfl
  | mergePhaseFailure outcome => rfl
  | repairExhaustion reason =>
    have hreason : key ∉ (exhaustionMetadata reason).keys := by
      intro hmem
      have hsubset : ∀ k ∈ (exhaustionMetadata reason).keys, k ∈ REASON_KEYS := by
        show ∀ k ∈ ["blocked", "blocked_reason", "blockedReason"], k ∈ REASON_KEYS
        decide
      exact h.reason (hsubset key hmem)
    exact Record.get_merge.trans (by rw [get_none_of_not_mem hreason, Option.none_or])
  | closure landing =>
    have hadded : (landingFields landing).get key = none := get_none_of_not_mem hcomputed
    have hlanding : (task.metadata.merge (landingFields landing)).get key =
        task.metadata.get key := Record.get_merge.trans (by rw [hadded, Option.none_or])
    exact (hclosed _).trans hlanding
  | revertToWaitingForMerge => rfl
  | releaseOrRecover hubStatus =>
    exact Record.get_erase.trans (if_neg fun hmem => hclaim (List.mem_singleton.mp hmem))
  | resumeWithClaim hubStatus => rfl
  | closeFailedRecovery => exact hclosed _

end LifecycleCall

/-! ### What a call keeps -/

/-- The call leaves every key that it does not own and did not compute as it was just before. -/
def KeepsUnowned (call : LifecycleCall) (task : HubTaskProjection) (s : BeadsStore) : Prop :=
  ∀ key, Unowned key → key ∉ call.computed.keys →
    metadataAt task.id key ((call.program task).run s).2 = metadataAt task.id key s

/-- What the snapshot has under such a key is what the store has. The claim, the references and
their aliases are taken out of every patch. -/
def IsCurrent (call : LifecycleCall) (task : HubTaskProjection) (issue : BeadsIssue) : Prop :=
  ∀ key, Unowned key → key ∉ call.computed.keys → key ∉ STRUCTURED_METADATA_PATCH_KEYS →
    ∀ value, task.metadata.get key = some value → issue.metadata.get key = some value

section
variable {call : LifecycleCall} {task : HubTaskProjection} {s : BeadsStore} {issue : BeadsIssue}
  {key : String}

theorem givenValue_eq_iff (h : Unowned key) (hcomputed : key ∉ call.computed.keys) :
    givenValue issue.metadata (call.input task) key = issue.metadata.get key ↔
      (key ∉ STRUCTURED_METADATA_PATCH_KEYS →
        ∀ value, task.metadata.get key = some value → issue.metadata.get key = some value) := by
  rw [givenValue, LifecycleCall.get_input h hcomputed]
  by_cases hstructured : key ∈ STRUCTURED_METADATA_PATCH_KEYS
  · simp [hstructured]
  · rw [if_neg fun hor => hor.elim h.status hstructured]
    cases task.metadata.get key with
    | none => simp
    | some value =>
      show some value = issue.metadata.get key ↔ _
      constructor
      · intro hsame _ other hother
        cases hother
        exact hsame.symm
      · intro hall
        exact (hall hstructured value rfl).symm

theorem keepsUnowned_stored_iff (hstored : s.issue task.id = some issue) (hid : ProperId task.id) :
    KeepsUnowned call task s ↔ IsCurrent call task issue ∨ reachesWrite s.outages = false := by
  have hstored' : s.issue (call.input task).taskId = some issue := by
    rw [LifecycleCall.taskId_input]
    exact hstored
  have hid' : ProperId (call.input task).taskId := by
    rw [LifecycleCall.taskId_input]
    exact hid
  have hbefore : ∀ key, metadataAt task.id key s = some (issue.metadata.get key) := by
    intro key
    rw [metadataAt, hstored]
    rfl
  have hafter : ∀ key, Unowned key →
      metadataAt task.id key ((call.program task).run s).2 =
        some (if reachesWrite s.outages then givenValue issue.metadata (call.input task) key
          else issue.metadata.get key) := by
    intro key h
    have hleft := metadataAt_transition hstored' hid' h
    rw [LifecycleCall.taskId_input] at hleft
    rw [LifecycleCall.run_program]
    exact hleft
  cases hreaches : reachesWrite s.outages with
  | false =>
    refine iff_of_true (fun key h _ => ?_) (Or.inr rfl)
    rw [hafter key h, hbefore, hreaches]
    rfl
  | true =>
    constructor
    · intro hkeeps
      refine Or.inl fun key h hcomputed => ?_
      have hkept := hkeeps key h hcomputed
      rw [hafter key h, hbefore, hreaches, if_pos rfl] at hkept
      exact (givenValue_eq_iff h hcomputed).mp (Option.some.inj hkept)
    · rintro (hcurrent | hfalse)
      · intro key h hcomputed
        rw [hafter key h, hbefore, hreaches, if_pos rfl,
          (givenValue_eq_iff h hcomputed).mpr (hcurrent key h hcomputed)]
      · cases hfalse

end

/-! ### A batch that enters its merge -/

/-- The pass of `enterMergePhase` over one task. -/
def enterMerge (task : HubTaskProjection) : BoardProg HubTaskLifecycleResult :=
  updateLifecycle { taskId := task.id, hubStatus := .merging, metadata := task.metadata }

/-- The loop keeps every key that is not its own, in each task of the batch. -/
def KeepsBatch (tasks : List HubTaskProjection) (s : BeadsStore) : Prop :=
  ∀ task ∈ tasks, ∀ key, Unowned key →
    metadataAt task.id key ((enterMergePhase tasks).run s).2 = metadataAt task.id key s

/-- The snapshot of each task that the loop gets to is current, or its update does not get to its
write. -/
def BatchCurrent : List HubTaskProjection → BeadsStore → Prop
  | [], _ => True
  | task :: tasks, s =>
    (∀ issue, s.issue task.id = some issue →
      IsCurrent .enterMergePhase task issue ∨ reachesWrite s.outages = false) ∧
    ∀ result t, (enterMerge task).run s = (.ok result, t) → BatchCurrent tasks t

/-- The tasks are in the store, each once in the batch. -/
structure BatchStored (tasks : List HubTaskProjection) (s : BeadsStore) : Prop where
  distinct : (tasks.map (·.id)).Nodup
  proper : ∀ task ∈ tasks, ProperId task.id
  stored : ∀ task ∈ tasks, ∃ issue, s.issue task.id = some issue

section
variable {task : HubTaskProjection} {tasks : List HubTaskProjection} {s t : BeadsStore}
  {id : TaskId} {key : String}

theorem keepsAt_transition {input : UpdateHubTaskStatusInput} (h : input.taskId ≠ id) :
    KeepsAt id key (transitionHubTaskStatus input) := by
  have hupdate : ∀ (failureLabel : String) (update : BdUpdate),
      KeepsAt id key (bdUpdate failureLabel input.taskId update) :=
    fun _ _ => keepsAt_bdUpdate fun heq => absurd heq h
  rw [transitionHubTaskStatus]
  refine keepsAt_bind (keepsAt_loadHubTask _) fun loaded => ?_
  rw [writeTransition]
  refine keepsAt_bind (hupdate _ _) fun _ => ?_
  refine keepsAt_bind (keepsAt_when (hupdate _ _)) fun _ => ?_
  refine keepsAt_bind (keepsAt_loadHubTask _) fun updated =>
    keepsAt_bind ?_ fun _ => keepsAt_ret _
  cases assertHubTaskTransition updated input.hubStatus with
  | ok a => exact keepsAt_ret _
  | error message => exact keepsAt_raise _

theorem keepsAt_enterMerge (h : task.id ≠ id) : KeepsAt id key (enterMerge task) := by
  rw [enterMerge, updateLifecycle]
  exact keepsAt_bind (keepsAt_transition h) fun _ => keepsAt_ret _

theorem keepsAt_enterMergePhase (h : ∀ task ∈ tasks, task.id ≠ id) :
    KeepsAt id key (enterMergePhase tasks) := by
  induction tasks with
  | nil => exact keepsAt_ret _
  | cons task tasks ih =>
    show KeepsAt id key ((enterMerge task).bind fun _ => enterMergePhase tasks)
    exact keepsAt_bind (keepsAt_enterMerge (h task List.mem_cons_self)) fun _ =>
      ih fun other hother => h other (List.mem_cons_of_mem _ hother)

theorem stored_iff (key : String) :
    (∃ issue, s.issue id = some issue) ↔ metadataAt id key s ≠ none := by
  rw [metadataAt]
  cases s.issue id with
  | none => simp
  | some issue => simp

theorem keepsUnowned_enterMerge :
    KeepsUnowned .enterMergePhase task s ↔ ∀ key, Unowned key →
      metadataAt task.id key ((enterMerge task).run s).2 = metadataAt task.id key s := by
  have hsame : ((LifecycleCall.enterMergePhase.program task).run s).2 =
      ((enterMerge task).run s).2 := by
    rw [LifecycleCall.run_program, enterMerge, updateLifecycle, LifecycleCall.run_then_ret]
    rfl
  rw [KeepsUnowned, hsame]
  exact forall_congr' fun key =>
    ⟨fun h hunowned => h hunowned List.not_mem_nil, fun h hunowned _ => h hunowned⟩

theorem keepsBatch_iff (h : BatchStored tasks s) : KeepsBatch tasks s ↔ BatchCurrent tasks s := by
  induction tasks generalizing s with
  | nil => exact iff_of_true (fun task hmem => absurd hmem List.not_mem_nil) trivial
  | cons task tasks ih =>
    obtain ⟨hfresh, hdistinct⟩ := List.nodup_cons.mp h.distinct
    have hother : ∀ other ∈ tasks, other.id ≠ task.id := fun other hmem heq =>
      hfresh (List.mem_map.mpr ⟨other, hmem, heq⟩)
    obtain ⟨issue, hissue⟩ := h.stored task List.mem_cons_self
    have hstep : KeepsUnowned .enterMergePhase task s ↔
        IsCurrent .enterMergePhase task issue ∨ reachesWrite s.outages = false :=
      keepsUnowned_stored_iff hissue (h.proper task List.mem_cons_self)
    have hhead : (∀ issue, s.issue task.id = some issue →
        IsCurrent .enterMergePhase task issue ∨ reachesWrite s.outages = false) ↔
        KeepsUnowned .enterMergePhase task s := by
      rw [hstep]
      constructor
      · exact fun hall => hall issue hissue
      · intro hcurrent other hsome
        cases hissue.symm.trans hsome
        exact hcurrent
    -- The pass over this task leaves the others alone.
    have hframe : ∀ other ∈ tasks, ∀ key,
        metadataAt other.id key ((enterMerge task).run s).2 = metadataAt other.id key s :=
      fun other hmem key => (keepsAt_enterMerge (hother other hmem).symm).run s
    rw [BatchCurrent, hhead, keepsUnowned_enterMerge]
    cases hrun : (enterMerge task).run s with
    | mk result t =>
      rw [hrun] at hframe
      cases result with
      | error message =>
        have hend : ((enterMergePhase (task :: tasks)).run s).2 = t := by
          show (((enterMerge task).bind fun _ => enterMergePhase tasks).run s).2 = t
          rw [Prog.run_bind_error hrun]
        rw [KeepsBatch, hend]
        constructor
        · intro hkeeps
          exact ⟨hkeeps task List.mem_cons_self, fun result u hok => by cases hok⟩
        · rintro ⟨hkeeps, -⟩ other hmem key hunowned
          rcases List.mem_cons.mp hmem with rfl | hmem
          · exact hkeeps key hunowned
          · exact hframe other hmem key
      | ok result =>
        have hend : ((enterMergePhase (task :: tasks)).run s).2 =
            ((enterMergePhase tasks).run t).2 := by
          show (((enterMerge task).bind fun _ => enterMergePhase tasks).run s).2 = _
          rw [Prog.run_bind_ok hrun]
        have hrest : BatchStored tasks t :=
          { distinct := hdistinct
            proper := fun other hmem => h.proper other (List.mem_cons_of_mem _ hmem)
            stored := fun other hmem => by
              have hsome := (stored_iff "sync_state").mp
                (h.stored other (List.mem_cons_of_mem _ hmem))
              rw [← hframe other hmem] at hsome
              exact (stored_iff _).mpr hsome }
        have hlast : ∀ key, metadataAt task.id key ((enterMergePhase tasks).run t).2 =
            metadataAt task.id key t := fun key => (keepsAt_enterMergePhase hother).run t
        rw [KeepsBatch, hend]
        constructor
        · intro hkeeps
          refine ⟨fun key hunowned => ?_, fun other u hok => ?_⟩
          · rw [← hlast key]
            exact hkeeps task List.mem_cons_self key hunowned
          · cases hok
            refine (ih hrest).mp fun other hmem key hunowned => ?_
            rw [hframe other hmem key]
            exact hkeeps other (List.mem_cons_of_mem _ hmem) key hunowned
        · rintro ⟨hkeeps, hbatch⟩ other hmem key hunowned
          rcases List.mem_cons.mp hmem with rfl | hmem
          · rw [hlast key]
            exact hkeeps key hunowned
          · have hkept := (ih hrest).mpr (hbatch result t rfl) other hmem key hunowned
            rw [hkept, hframe other hmem key]

end

/-! ### Every call -/

/-- When lifecycle calls keep what is not their own: over all stores and outages, for each call with
any snapshot, and for the loop over any batch. -/
theorem keepsUnowned_iff (s : BeadsStore) (hids : ∀ issue ∈ s.issues, ProperId issue.id) :
    (∀ (call : LifecycleCall) (task : HubTaskProjection) (issue : BeadsIssue),
      s.issue task.id = some issue →
        (KeepsUnowned call task s ↔
          IsCurrent call task issue ∨ reachesWrite s.outages = false)) ∧
    ∀ tasks : List HubTaskProjection, (tasks.map (·.id)).Nodup →
      (∀ task ∈ tasks, ∃ issue, s.issue task.id = some issue) →
        (KeepsBatch tasks s ↔ BatchCurrent tasks s) := by
  have hproper : ∀ (id : TaskId) (issue : BeadsIssue), s.issue id = some issue → ProperId id := by
    intro id issue hstored
    have hmem : issue ∈ s.issues := List.mem_of_find?_eq_some hstored
    rw [← id_of_stored hstored]
    exact hids issue hmem
  constructor
  · intro call task issue hstored
    exact keepsUnowned_stored_iff hstored (hproper task.id issue hstored)
  · intro tasks hdistinct hstored
    refine keepsBatch_iff ⟨hdistinct, fun task hmem => ?_, hstored⟩
    obtain ⟨issue, hissue⟩ := hstored task hmem
    exact hproper task.id issue hissue

/-- A task that came from a remote issue and is being implemented. -/
def importedTask : BeadsIssue where
  id := "bd-1"
  title := "Fix login"
  status := "in_progress"
  labels := ["implementing"]
  metadata := [("hubStatus", .str "implementing"), ("sync_state", .str "synced"),
    ("remote_updated_at", .str "09:00"),
    ("claim", .obj [("runId", .str "run-1"), ("batchId", .str "batch-1"),
      ("branch", .str "archloop/bd-1")])]

/-- A store in which the run has the task as it is. -/
theorem keepsUnowned_imported :
    KeepsUnowned (.reviewFailure .agentFailed) importedTask.projection
      { issues := [importedTask] } := by
  have hids : ∀ issue ∈ [importedTask], ProperId issue.id := by
    intro issue hmem
    rw [List.mem_singleton.mp hmem]
    exact ⟨by decide, by decide⟩
  exact ((keepsUnowned_iff { issues := [importedTask] } hids).1 (.reviewFailure .agentFailed)
    importedTask.projection importedTask rfl).mpr
      (Or.inl fun _ _ _ _ _ hvalue => hvalue)

/-- What sync leaves when it saw a newer remote issue while the task was being implemented. -/
def afterSync : BeadsStore :=
  ((setHubTaskSyncMetadata importedTask.projection
    [("sync_state", .str "synced"), ("remote_updated_at", .str "10:00")]).run
      { issues := [importedTask] }).2

/-- The outcome of the run takes `remote_updated_at` back to what it was at the claim. -/
theorem remoteUpdatedAt_reverted :
    metadataAt "bd-1" "remote_updated_at" afterSync = some (some (.str "10:00")) ∧
      metadataAt "bd-1" "remote_updated_at"
          (((LifecycleCall.reviewFailure .agentFailed).program importedTask.projection).run
            afterSync).2 = some (some (.str "09:00")) ∧
      ¬KeepsUnowned (.reviewFailure .agentFailed) importedTask.projection afterSync := by
  have hbefore : metadataAt "bd-1" "remote_updated_at" afterSync =
      some (some (.str "10:00")) := by decide +kernel
  have hafter : metadataAt "bd-1" "remote_updated_at"
      (((LifecycleCall.reviewFailure .agentFailed).program importedTask.projection).run
        afterSync).2 = some (some (.str "09:00")) := by decide +kernel
  refine ⟨hbefore, hafter, fun hkeeps => ?_⟩
  have hkept : metadataAt "bd-1" "remote_updated_at"
      (((LifecycleCall.reviewFailure .agentFailed).program importedTask.projection).run
        afterSync).2 = metadataAt "bd-1" "remote_updated_at" afterSync :=
    hkeeps "remote_updated_at" ⟨by decide, by decide, by decide⟩ List.not_mem_nil
  rw [hafter, hbefore] at hkept
  exact absurd hkept (by decide)

end ArchLoop.TaskBoard
