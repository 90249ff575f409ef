import ArchLoop.Lib.Among
import ArchLoop.Lib.History
import ArchLoop.Triage

/-!
# `ArchLoop.Proofs.TriageScope`: triage writes only to tasks in scope

Triage moves tasks out of the inbox and out of `needs_info`. Between the moment at which it looks
up these tasks and its writes, an agent thinks and a person confirms, and meanwhile others claim,
merge, close and move tasks. Each write should find the task where triage may move it
(`OnlyInScope`).

`applyTriageProposal` loads each task again, but transitions it from whatever status it finds.
`onlyInScope_reached` says when this does no harm: the selection asks for no other status, and the
others leave the tasks alone that triage is about to write to.
-/

set_option autoImplicit false

namespace ArchLoop.TaskBoard

open ArchLoop.Lib

/-! ### Statement -/

abbrev Written : Type := List BeadsIssue

/-- What triage has left after a step of it from `s` to `t`. -/
def noteWrites (s t : BeadsStore) (written : Written) : Written :=
  t.issues.filter fun issue => s.issue issue.id ≠ t.issue issue.id || issue ∈ written

/-- Triage may write to the task: it is in a status that triage covers, or it is as triage left
it. -/
def MayWrite (s : BeadsStore × Written) (id : TaskId) : Prop :=
  ∃ issue, s.1.issue id = some issue ∧
    (isHubTriageSourceStatus issue.projection.hubStatus = true ∨ issue ∈ s.2)

/-- The step from `s` to `t` changes only tasks that triage may write to in `s`. -/
def OnlyInScope (s t : BeadsStore × Written) : Prop :=
  ∀ id, t.1.issue id ≠ s.1.issue id → MayWrite s id

/-- The session might apply a decision about the task. -/
def TriageSession.Decides (session : TriageSession) (id : TaskId) : Prop :=
  ∃ tasks proposal boardTaskIds, session.propose tasks = some proposal ∧
    id ∈ resolveDecisionsToApply session
      (sanitizeTriageProposalDependencies proposal boardTaskIds)

/-- The ids are as `bd` gives them: no two issues share one, and none has blanks around it. -/
structure ProperIds (s : BeadsStore) : Prop where
  nodup : (s.issues.map (·.id)).Nodup
  trimmed : ∀ id ∈ s.issues.map (·.id), trim id = id

/-- Others move the store from `s` to `t` and leave the tasks alone that triage is about to write
to.

- `written`: what triage has left is not a matter of the others.
- `isSome`, `proper`: no task is deleted, and the ids stay as `bd` gives them.
- `mayWrite`: a task that a decision may be applied to stays one that triage may write to. -/
structure LeavesScope (session : TriageSession) (s t : BeadsStore × Written) : Prop where
  written : t.2 = s.2
  isSome : ∀ id, (s.1.issue id).isSome → (t.1.issue id).isSome
  proper : ProperIds s.1 → ProperIds t.1
  mayWrite : ∀ id, session.Decides id → MayWrite s id → MayWrite t id

/-- The selection asks for tasks by their ids, or for no status that triage does not cover. -/
def SelectsScope (selection : TriageSelection) : Prop :=
  selection.taskIds.isEmpty = true → ∀ status,
    statusText status ∈ queryStatuses selection → isHubTriageSourceStatus status = true

/-! ### Frames -/

/-- Only the issues with the ids differ, and no issue comes or goes. -/
structure WritesOnly (ids : TaskId → Prop) (s t : BeadsStore) : Prop where
  sameIds : t.issues.map (·.id) = s.issues.map (·.id)
  issue : ∀ id, ¬ ids id → t.issue id = s.issue id

theorem isSome_issue {s : BeadsStore} {id : TaskId} :
    (s.issue id).isSome ↔ id ∈ s.issues.map (·.id) := by
  simp [BeadsStore.issue, List.find?_isSome]

theorem id_of_issue {s : BeadsStore} {id : TaskId} {issue : BeadsIssue}
    (h : s.issue id = some issue) : issue.id = id := by
  simpa using List.find?_some h

theorem mem_of_issue {s : BeadsStore} {id : TaskId} {issue : BeadsIssue}
    (h : s.issue id = some issue) : issue ∈ s.issues :=
  List.mem_of_find?_eq_some h

theorem issue_congr {s t : BeadsStore} (h : t.issues = s.issues) (id : TaskId) :
    t.issue id = s.issue id := by
  rw [BeadsStore.issue, BeadsStore.issue, h]

theorem writesOnly_of_eq {ids : TaskId → Prop} {s t : BeadsStore} (h : t.issues = s.issues) :
    WritesOnly ids s t where
  sameIds := by rw [h]
  issue := fun id _ => issue_congr h id

theorem writesOnly_changeIssue {ids : TaskId → Prop} {id : TaskId}
    {f : BeadsIssue → BeadsIssue} (hid : ids id) (hf : ∀ issue, (f issue).id = issue.id)
    (s : BeadsStore) : WritesOnly ids s (s.changeIssue id f) where
  sameIds := by
    show List.map _ (List.map _ s.issues) = _
    rw [List.map_map]
    refine List.map_congr_left fun issue _ => ?_
    show BeadsIssue.id (if issue.id = id then f issue else issue) = issue.id
    split
    · exact hf issue
    · rfl
  issue := by
    intro id' hid'
    have hne : id' ≠ id := fun heq => hid' (heq ▸ hid)
    show List.find? _ (List.map _ s.issues) = List.find? _ s.issues
    rw [List.find?_map]
    -- The issues that are changed are not those that the lookup is for.
    have hlookup : (fun issue : BeadsIssue => decide (issue.id = id')) ∘
        (fun issue => if issue.id = id then f issue else issue) =
        fun issue => decide (issue.id = id') := by
      funext issue
      show decide (BeadsIssue.id (if issue.id = id then f issue else issue) = id') = _
      split
      · rw [hf issue]
      · rfl
    rw [hlookup]
    cases hfound : s.issues.find? fun issue => decide (issue.id = id') with
    | none => rfl
    | some issue =>
      have hissue : issue.id = id' := id_of_issue hfound
      rw [Option.map_some, if_neg (hissue ▸ hne)]

theorem WritesOnly.command {ids : TaskId → Prop} {upd : BeadsStore → BeadsStore}
    (h : ∀ s, WritesOnly ids s (upd s)) (s : BeadsStore) : WritesOnly ids s (s.command upd) := by
  show WritesOnly ids s { if s.outcome = .refused then s else upd s with
    outages := s.outages.tail }
  split
  · exact writesOnly_of_eq rfl
  · exact ⟨(h s).sameIds, (h s).issue⟩

/-- Each step of the program writes only to the tasks with the ids. -/
structure Writes {α : Type} (ids : TaskId → Prop) (p : BoardProg α) : Prop where
  always : p.Always (WritesOnly ids)

section Writes

variable {α β : Type} {ids : TaskId → Prop}

theorem writes_ret (a : α) : Writes ids (.ret a : BoardProg α) :=
  ⟨trivial⟩

theorem writes_raise (message : String) : Writes ids (.raise message : BoardProg α) :=
  ⟨trivial⟩

theorem Writes.bind {p : BoardProg α} {f : α → BoardProg β} (hp : Writes ids p)
    (hf : ∀ a, Writes ids (f a)) : Writes ids (p.bind f) :=
  ⟨Prog.always_bind hp.always fun a => (hf a).always⟩

theorem Writes.when {p : BoardProg Unit} (hp : Writes ids p) (c : Bool) :
    Writes ids (Prog.when c p) :=
  ⟨Prog.always_when hp.always⟩

theorem Writes.attempt {p : BoardProg α} (hp : Writes ids p) : Writes ids p.attempt :=
  ⟨Prog.always_tryCatch (Prog.always_bind hp.always fun _ => trivial) fun _ => trivial⟩

theorem writes_bdCommand {label : String} {upd : BeadsStore → BeadsStore}
    {answer : BeadsStore → α} (h : ∀ s, WritesOnly ids s (upd s)) :
    Writes ids (bdCommand label upd answer) := by
  refine ⟨fun s => ⟨WritesOnly.command h s, ?_⟩⟩
  dsimp only
  split
  · trivial
  · trivial

theorem writes_ask {label : String} {answer : BeadsStore → α} :
    Writes ids (bdCommand label (fun s => s) answer) :=
  writes_bdCommand fun _ => writesOnly_of_eq rfl

theorem writes_bdUpdate {label : String} {id : TaskId} {update : BdUpdate} (hid : ids id) :
    Writes ids (bdUpdate label id update) := by
  have hupdate : ∀ s : BeadsStore, WritesOnly ids s (s.changeIssue id update.apply) := by
    intro s
    exact writesOnly_changeIssue (f := update.apply) hid (fun _ => rfl) s
  refine (writes_bdCommand hupdate).bind fun found => ?_
  split
  · exact writes_ret ()
  · exact writes_raise _

theorem writes_showTask {label : String} {id : TaskId} : Writes ids (showTask label id) := by
  refine writes_ask.bind fun found => ?_
  cases found with
  | none => exact writes_raise _
  | some issue => exact writes_ret issue

theorem writes_selectFromBoard {selector trimmed : String} {tasks : List HubTaskProjection} :
    Writes ids (selectFromBoard selector trimmed tasks) := by
  rw [selectFromBoard]
  split
  · exact writes_ret _
  · split
    · exact writes_ret _
    · exact writes_raise _
    · exact writes_raise _

theorem writes_loadHubTask {selector : String} : Writes ids (loadHubTask selector) := by
  refine Writes.bind ?_ fun task => writes_showTask.bind fun issue => writes_ret _
  rw [resolveHubTaskSelector]
  split
  · exact writes_raise _
  · refine writes_showTask.attempt.bind fun shown => ?_
    cases shown with
    | ok issue => exact writes_ret _
    | error e => exact writes_ask.bind fun _ => writes_selectFromBoard

theorem writes_returning {result : Except String α} : Writes ids (returning result) := by
  cases result with
  | ok a => exact writes_ret a
  | error message => exact writes_raise message

theorem writes_transitionHubTaskStatus {input : UpdateHubTaskStatusInput}
    (hid : ids input.taskId) : Writes ids (transitionHubTaskStatus input) := by
  rw [transitionHubTaskStatus]
  refine writes_loadHubTask.bind fun task => ?_
  rw [writeTransition]
  refine (writes_bdUpdate hid).bind fun _ => ?_
  refine ((writes_bdUpdate hid).when _).bind fun _ => ?_
  exact writes_loadHubTask.bind fun _ => writes_returning.bind fun _ => writes_ret _

theorem writes_updateTriageLabels {taskId : TaskId} {update : BdUpdate} (hid : ids taskId) :
    Writes ids (updateTriageLabels taskId update) :=
  writes_bdUpdate hid

theorem writes_addHubTaskLabels {taskId : TaskId} {labels : List String} (hid : ids taskId) :
    Writes ids (addHubTaskLabels taskId labels) :=
  (writes_updateTriageLabels hid).when _

theorem writes_applyWontfixOutcome {task : HubTaskProjection} (hid : ids task.id) :
    Writes ids (applyWontfixOutcome task) := by
  rw [applyWontfixOutcome]
  refine Writes.bind ?_ fun _ => writes_updateTriageLabels hid
  exact writes_transitionHubTaskStatus hid

theorem writes_applyNonWontfixOutcome {task : HubTaskProjection} {outcome : HubTriageOutcome}
    (hid : ids task.id) : Writes ids (applyNonWontfixOutcome task outcome) := by
  rw [applyNonWontfixOutcome]
  refine Writes.bind ?_ fun _ => writes_updateTriageLabels hid
  exact writes_transitionHubTaskStatus hid

theorem writes_appendHubTaskComment {taskId : TaskId} :
    Writes ids (appendHubTaskComment taskId) := by
  refine writes_ask.bind fun found => ?_
  split
  · exact writes_ret ()
  · exact writes_raise _

theorem writes_applied {task : HubTaskProjection} {decision : TriageProposalDecision}
    (htask : task.id = decision.taskId) :
    Writes (· = decision.taskId)
      ((if decision.outcome = .wontfix then applyWontfixOutcome task
          else applyNonWontfixOutcome task decision.outcome).bind fun _ =>
        (Prog.when (!decision.labels.isEmpty)
          (addHubTaskLabels decision.taskId decision.labels)).bind fun _ =>
        appendHubTaskComment decision.taskId) := by
  refine Writes.bind ?_ fun _ => ?_
  · split
    · exact writes_applyWontfixOutcome htask
    · exact writes_applyNonWontfixOutcome htask
  · refine ((writes_addHubTaskLabels ?_).when _).bind fun _ => writes_appendHubTaskComment
    rfl

theorem writes_addTriageEdges (edges : List TriageDependencySuggestion) :
    Writes ids (addTriageEdges edges) := by
  induction edges with
  | nil => exact writes_ret ()
  | cons edge edges ih =>
    refine Writes.bind ?_ fun _ => ih
    exact writes_bdCommand fun _ => writesOnly_of_eq rfl

theorem writesOnly_run {p : BoardProg α} (h : Writes ids p)
    (s : BeadsStore) : WritesOnly ids s (p.run s).2 :=
  h.always.run (fun _ => writesOnly_of_eq rfl)
    (fun _ _ _ hst htu => ⟨htu.sameIds.trans hst.sameIds, fun id hid =>
      (htu.issue id hid).trans (hst.issue id hid)⟩) s

end Writes

/-! ### What a step of triage leaves -/

/-- A step of triage that writes only to the tasks with the ids. -/
def OwnStep (ids : TaskId → Prop) (s t : BeadsStore × Written) : Prop :=
  WritesOnly ids s.1 t.1 ∧ t.2 = noteWrites s.1 t.1 s.2

theorem OwnStep.isSome {ids : TaskId → Prop} {s t : BeadsStore × Written}
    (h : OwnStep ids s t) {id : TaskId} (hid : (s.1.issue id).isSome) : (t.1.issue id).isSome := by
  rw [isSome_issue, h.1.sameIds, ← isSome_issue]
  exact hid

theorem OwnStep.proper {ids : TaskId → Prop} {s t : BeadsStore × Written}
    (h : OwnStep ids s t) (hproper : ProperIds s.1) : ProperIds t.1 := by
  constructor
  · rw [h.1.sameIds]
    exact hproper.nodup
  · rw [h.1.sameIds]
    exact hproper.trimmed

theorem mem_noteWrites {s t : BeadsStore} {written : Written} {issue : BeadsIssue}
    (hissue : t.issue issue.id = some issue)
    (h : s.issue issue.id ≠ t.issue issue.id ∨ issue ∈ written) :
    issue ∈ noteWrites s t written := by
  refine List.mem_filter.mpr ⟨mem_of_issue hissue, ?_⟩
  simpa using h

theorem OwnStep.mayWrite {ids : TaskId → Prop} {s t : BeadsStore × Written}
    (h : OwnStep ids s t) {id : TaskId} (hid : MayWrite s id) : MayWrite t id := by
  obtain ⟨issue, hissue, hmay⟩ := hid
  have hsome : (t.1.issue id).isSome := h.isSome (by rw [hissue]; rfl)
  obtain ⟨issue', hissue'⟩ := Option.isSome_iff_exists.mp hsome
  refine ⟨issue', hissue', ?_⟩
  obtain rfl : issue'.id = id := id_of_issue hissue'
  rw [h.2]
  by_cases hsame : s.1.issue issue'.id = t.1.issue issue'.id
  · have heq : issue' = issue := by
      rw [hsame, hissue'] at hissue
      exact Option.some.inj hissue
    rw [← heq] at hmay
    exact hmay.imp (fun hscope => hscope) fun hwritten =>
      mem_noteWrites hissue' (Or.inr hwritten)
  · exact Or.inr (mem_noteWrites hissue' (Or.inl hsame))

theorem OwnStep.onlyInScope {ids : TaskId → Prop} {s t : BeadsStore × Written}
    (h : OwnStep ids s t) (hids : ∀ id, ids id → MayWrite s id) : OnlyInScope s t := by
  intro id hne
  by_contra hmay
  exact hne (h.1.issue id fun hid => hmay (hids id hid))

/-! ### The rules of triage -/

/-- Others leave the tasks in scope alone, and each step of triage is in scope. -/
def triageRules (session : TriageSession) : Rules (BeadsStore × Written) where
  inv := fun s => ProperIds s.1
  rely := LeavesScope session
  allowed := fun _ _ _ => True
  guar := fun _ => OnlyInScope

/-- What others and steps of triage leave as it is. -/
structure Stable (session : TriageSession) (K : BeadsStore × Written → Prop) : Prop where
  rely : ∀ s t, LeavesScope session s t → K s → K t
  own : ∀ ids s t, OwnStep ids s t → K s → K t

variable {session : TriageSession} {K : BeadsStore × Written → Prop} {s : BeadsStore × Written}

theorem stable_isSome (id : TaskId) : Stable session fun s => (s.1.issue id).isSome = true where
  rely := fun _ _ h hid => h.isSome id hid
  own := fun _ _ _ h hid => h.isSome hid

theorem stable_mayWrite {id : TaskId} (hid : session.Decides id) :
    Stable session fun s => MayWrite s id where
  rely := fun _ _ h hmay => h.mayWrite id hid hmay
  own := fun _ _ _ h hmay => h.mayWrite hmay

theorem Stable.and {K' : BeadsStore × Written → Prop} (h : Stable session K)
    (h' : Stable session K') : Stable session fun s => K s ∧ K' s where
  rely := fun s t hst hK => ⟨h.rely s t hst hK.1, h'.rely s t hst hK.2⟩
  own := fun ids s t hst hK => ⟨h.own ids s t hst hK.1, h'.own ids s t hst hK.2⟩

theorem stable_forall {ι : Sort*} {K : ι → BeadsStore × Written → Prop}
    (h : ∀ i, Stable session (K i)) : Stable session fun s => ∀ i, K i s where
  rely := fun s t hst hK i => (h i).rely s t hst (hK i)
  own := fun ids s t hst hK i => (h i).own ids s t hst (hK i)

theorem stable_const (P : Prop) : Stable session fun _ => P where
  rely := fun _ _ _ hP => hP
  own := fun _ _ _ _ hP => hP

/-- The program keeps the rules and ends in `Q` or `E`. -/
structure Scoped {α : Type} (session : TriageSession) (Q : α → BeadsStore × Written → Prop)
    (E : BeadsStore × Written → Prop) (p : BoardProg α) (s : BeadsStore × Written) : Prop where
  sat : Prog.Sat (triageRules session) Q (fun _ => E) (p.tracked noteWrites) s

section Scoped

variable {α β : Type} {Q : α → BeadsStore × Written → Prop} {R : β → BeadsStore × Written → Prop}
  {E F : BeadsStore × Written → Prop}

theorem scoped_ret {a : α} (h : Q a s) : Scoped session Q E (.ret a) s :=
  ⟨h⟩

theorem scoped_raise {message : String} (h : E s) :
    Scoped session Q E (.raise message : BoardProg α) s :=
  ⟨h⟩

theorem Scoped.bind {p : BoardProg α} {f : α → BoardProg β} (hp : Scoped session Q F p s)
    (hF : ∀ t, F t → E t) (hf : ∀ a t, Q a t → Scoped session R E (f a) t) :
    Scoped session R E (p.bind f) s :=
  ⟨Prog.sat_tracked_bind (Prog.sat_mono hp.sat (fun _ _ h => h) fun _ => hF)
    fun a t h => (hf a t h).sat⟩

theorem Scoped.attempt {p : BoardProg α} (hp : Scoped session Q E p s) :
    Scoped session (fun result t => (∀ a, result = .ok a → Q a t) ∧
      (∀ e, result = .error e → E t)) F p.attempt s := by
  constructor
  rw [Prog.tracked_attempt]
  refine Prog.sat_attempt (Prog.sat_mono hp.sat ?_ ?_)
  · intro a t ha
    refine ⟨fun a' h => ?_, fun e h => ?_⟩
    · cases h
      exact ha
    · cases h
  · intro e t he
    refine ⟨fun a h => ?_, fun _ _ => he⟩
    cases h

theorem Scoped.mono {Q' : α → BeadsStore × Written → Prop} {p : BoardProg α}
    (hp : Scoped session Q F p s) (hQ : ∀ a t, Q a t → Q' a t) (hF : ∀ t, F t → E t) :
    Scoped session Q' E p s :=
  ⟨Prog.sat_mono hp.sat hQ fun _ => hF⟩

theorem scoped_writes {ids : TaskId → Prop} {p : BoardProg α} (hp : Writes ids p)
    (hK : Stable session K) (hids : ∀ s, K s → ∀ id, ids id → MayWrite s id) (hs : K s) :
    Scoped session (fun _ => K) K p s := by
  refine ⟨Prog.Always.sat (Prog.Always.tracked hp.always) ?_
    (fun s t hst _ => hK.rely s t hst) hs⟩
  intro _ t t' hinv ht hstep
  have hown : OwnStep ids t t' := hstep
  exact ⟨hown.onlyInScope (hids t ht), hown.proper hinv, hK.own ids t t' hown ht⟩

theorem scoped_ask {label : String} {f : BeadsStore → α}
    (hf : ∀ s t : BeadsStore, t.issues = s.issues → f t = f s) (hK : Stable session K)
    (hs : K s) :
    Scoped session (fun a t => a = f t.1 ∧ ProperIds t.1 ∧ K t) K
      (bdCommand label (fun s => s) f) s := by
  refine ⟨fun t hrely hinv _ => ?_⟩
  have hsame : (t.1.command fun s => s).issues = t.1.issues := by
    show BeadsStore.issues (if t.1.outcome = .refused then t.1 else t.1) = _
    rw [ite_self]
  have hown : OwnStep (fun _ => False) t
      (t.1.command fun s => s, noteWrites t.1 (t.1.command fun s => s) t.2) :=
    ⟨writesOnly_of_eq hsame, rfl⟩
  have hnext := hK.own _ t _ hown (hK.rely s t hrely hs)
  refine ⟨hown.onlyInScope fun _ => False.elim, hown.proper hinv, ?_⟩
  dsimp only
  split
  · exact ⟨(hf _ _ hsame).symm, hown.proper hinv, hnext⟩
  · exact hnext

end Scoped

/-! ### Loading tasks -/

theorem id_projection (issue : BeadsIssue) : issue.projection.id = issue.id := rfl

theorem issue_of_mem {s : BeadsStore} (h : (s.issues.map (·.id)).Nodup) {issue : BeadsIssue}
    (hmem : issue ∈ s.issues) : s.issue issue.id = some issue := by
  cases hfound : s.issue issue.id with
  | none =>
    have hsome := isSome_issue.mpr (List.mem_map_of_mem (f := BeadsIssue.id) hmem)
    rw [hfound] at hsome
    exact absurd hsome (by decide)
  | some issue' =>
    have hid : issue'.id = issue.id := id_of_issue hfound
    rw [List.inj_on_of_nodup_map h (mem_of_issue hfound) hmem hid]

theorem find?_board {s : BeadsStore} {id : TaskId} (h : (s.issue id).isSome = true) :
    ∃ task, (s.issues.map BeadsIssue.projection).find? (·.id = id) = some task := by
  obtain ⟨issue, hissue⟩ := Option.isSome_iff_exists.mp h
  refine ⟨issue.projection, ?_⟩
  rw [List.find?_map]
  show Option.map _ (s.issue id) = _
  rw [hissue, Option.map_some]

def Loaded (session : TriageSession) (task : HubTaskProjection) (s : BeadsStore × Written) :
    Prop :=
  trim task.id = task.id ∧ (s.1.issue task.id).isSome = true ∧
    ∀ _ : isHubTriageSourceStatus task.hubStatus = true, ∀ _ : session.Decides task.id,
      MayWrite s task.id

theorem stable_loaded (task : HubTaskProjection) : Stable session (Loaded session task) := by
  refine (stable_const _).and ((stable_isSome task.id).and ?_)
  exact stable_forall fun _ => stable_forall fun hid => stable_mayWrite hid

def KnownId (K : BeadsStore × Written → Prop) (selector : String) : Prop :=
  trim selector = selector ∧ ∀ t, K t → (t.1.issue selector).isSome = true

theorem scoped_showTask {label : String} {id : TaskId} (hK : Stable session K) (hs : K s) :
    Scoped session (fun issue t => t.1.issue id = some issue ∧ ProperIds t.1 ∧ K t) K
      (showTask label id) s := by
  refine (scoped_ask (fun s t h => issue_congr h id) hK hs).bind (fun _ h => h) ?_
  rintro found t ⟨hfound, hproper, ht⟩
  cases found with
  | none => exact scoped_raise ht
  | some issue => exact scoped_ret ⟨hfound.symm, hproper, ht⟩

theorem scoped_loadHubTaskBoard (hK : Stable session K) (hs : K s) :
    Scoped session
      (fun board t => board = t.1.issues.map BeadsIssue.projection ∧ ProperIds t.1 ∧ K t) K
      loadHubTaskBoard s := by
  refine scoped_ask (f := fun s => s.issues.map BeadsIssue.projection) (fun s t h => ?_) hK hs
  rw [h]

theorem scoped_selectFromBoard {selector : String} {P : Prop} (hP : P → KnownId K selector)
    (hs : K s) :
    Scoped session (fun task t => (P → task.id = selector) ∧ K t) (fun _ => True)
      (selectFromBoard selector (trim selector) (s.1.issues.map BeadsIssue.projection)) s := by
  rw [selectFromBoard]
  split
  · rename_i task hfind
    refine scoped_ret ⟨fun h => ?_, hs⟩
    have hid : task.id = trim selector := by simpa using List.find?_some hfind
    rw [hid, (hP h).1]
  · rename_i hfind
    have hnone : ¬ P := by
      intro h
      obtain ⟨htrim, hsome⟩ := hP h
      obtain ⟨task, htask⟩ := find?_board (hsome s hs)
      rw [htrim, htask] at hfind
      cases hfind
    -- Without a task of this id, the title decides.
    split
    · exact scoped_ret ⟨fun h => absurd h hnone, hs⟩
    · exact scoped_raise trivial
    · exact scoped_raise trivial

theorem scoped_resolveHubTaskSelector {selector : String} {P : Prop}
    (hP : P → KnownId K selector) (hK : Stable session K) (hs : K s) :
    Scoped session (fun task t => (P → task.id = selector) ∧ K t) (fun _ => True)
      (resolveHubTaskSelector selector) s := by
  rw [resolveHubTaskSelector]
  split
  · exact scoped_raise trivial
  · refine (scoped_showTask hK hs).attempt.bind (fun _ h => h) ?_
    rintro shown t ⟨hok, herror⟩
    cases shown with
    | ok issue =>
      obtain ⟨hissue, -, ht⟩ := hok issue rfl
      refine scoped_ret ⟨fun h => ?_, ht⟩
      rw [id_projection, id_of_issue hissue, (hP h).1]
    | error e =>
      refine (scoped_loadHubTaskBoard hK (herror e rfl)).bind (fun _ _ => trivial) ?_
      rintro board t' ⟨rfl, -, ht'⟩
      exact scoped_selectFromBoard hP ht'

theorem scoped_loadHubTask {selector : String} {P : Prop} (hP : P → KnownId K selector)
    (hK : Stable session K) (hs : K s) :
    Scoped session (fun task t => (P → task.id = selector) ∧ Loaded session task t ∧ K t)
      (fun _ => True) (loadHubTask selector) s := by
  refine (scoped_resolveHubTaskSelector hP hK hs).bind (fun _ h => h) ?_
  rintro resolved t ⟨hid, ht⟩
  refine (scoped_showTask hK ht).bind (fun _ _ => trivial) ?_
  rintro issue t' ⟨hissue, hproper, ht'⟩
  have hsame : issue.id = resolved.id := id_of_issue hissue
  have hsome : (t'.1.issue resolved.id).isSome = true := by
    rw [hissue]
    rfl
  refine scoped_ret ⟨fun h => ?_, ?_, ht'⟩
  · rw [id_projection, hsame, hid h]
  · rw [Loaded, id_projection, hsame]
    exact ⟨hproper.trimmed _ (isSome_issue.mp hsome), hsome,
      fun hscope _ => ⟨issue, hissue, Or.inl hscope⟩⟩

theorem scoped_loadHubTasks {P : Prop} (taskIds : List TaskId)
    (hP : P → ∀ id ∈ taskIds, KnownId K id) (hK : Stable session K) (hs : K s) :
    Scoped session
      (fun tasks t => (P → tasks.map (·.id) = taskIds) ∧
        (∀ task ∈ tasks, Loaded session task t) ∧ K t)
      (fun _ => True) (loadHubTasks taskIds) s := by
  induction taskIds generalizing K s with
  | nil => exact scoped_ret ⟨fun _ => rfl, fun _ h => absurd h List.not_mem_nil, hs⟩
  | cons taskId taskIds ih =>
    refine (scoped_loadHubTask (fun h => hP h taskId List.mem_cons_self) hK hs).bind
      (fun _ h => h) ?_
    rintro task t ⟨hid, hloaded, ht⟩
    -- What is known of the first task is carried along.
    have hnames : P → ∀ id ∈ taskIds, KnownId (fun t => Loaded session task t ∧ K t) id := by
      intro h id hmem
      obtain ⟨htrim, hsome⟩ := hP h id (List.mem_cons_of_mem _ hmem)
      exact ⟨htrim, fun t hKt => hsome t hKt.2⟩
    refine (ih hnames ((stable_loaded task).and hK) ⟨hloaded, ht⟩).bind (fun _ h => h) ?_
    rintro tasks t' ⟨hids, hall, hloaded', ht'⟩
    refine scoped_ret ⟨fun h => ?_, fun task' hmem => ?_, ht'⟩
    · rw [List.map_cons, hid h, hids h]
    · rcases List.mem_cons.mp hmem with rfl | hmem
      · exact hloaded'
      · exact hall task' hmem

/-! ### The tasks under triage -/

/-- Triage may write to the task, if the session might apply a decision about it. -/
def Writable (session : TriageSession) (id : TaskId) (s : BeadsStore × Written) : Prop :=
  trim id = id ∧ (s.1.issue id).isSome = true ∧ ∀ _ : session.Decides id, MayWrite s id

theorem stable_writable (id : TaskId) : Stable session (Writable session id) :=
  (stable_const _).and ((stable_isSome id).and (stable_forall stable_mayWrite))

theorem stable_writableAll (ids : List TaskId) :
    Stable session fun s => ∀ id, ∀ _ : id ∈ ids, Writable session id s :=
  stable_forall fun id => stable_forall fun _ => stable_writable id

theorem Loaded.writable {task : HubTaskProjection} (h : Loaded session task s)
    (hscope : isHubTriageSourceStatus task.hubStatus = true) : Writable session task.id s :=
  ⟨h.1, h.2.1, h.2.2 hscope⟩

theorem writable_of_board (hproper : ProperIds s.1) {task : HubTaskProjection}
    (hmem : task ∈ s.1.issues.map BeadsIssue.projection)
    (hscope : isHubTriageSourceStatus task.hubStatus = true) : Writable session task.id s := by
  obtain ⟨issue, hissue, rfl⟩ := List.mem_map.mp hmem
  have hfound : s.1.issue issue.id = some issue := issue_of_mem hproper.nodup hissue
  rw [id_projection]
  refine ⟨hproper.trimmed _ (List.mem_map_of_mem hissue), ?_, fun _ => ?_⟩
  · rw [hfound]
    rfl
  · exact ⟨issue, hfound, Or.inl hscope⟩

theorem scoped_resolveTasksUnderTriage {selection : TriageSelection}
    (hselects : SelectsScope selection) (s : BeadsStore × Written) :
    Scoped session (fun tasks t => ∀ id, ∀ _ : id ∈ tasks.map (·.id), Writable session id t)
      (fun _ => True) (resolveTasksUnderTriage selection) s := by
  rw [resolveTasksUnderTriage]
  refine (scoped_loadHubTaskBoard (stable_const True) trivial).bind (fun _ h => h) ?_
  rintro board t ⟨rfl, hproper, -⟩
  split
  · rename_i hempty
    -- The tasks come from the board, in statuses that the query asks for.
    have hids : ∀ id, ∀ _ : id ∈ ((t.1.issues.map BeadsIssue.projection).filter fun task =>
        statusText task.hubStatus ∈ queryStatuses selection).map (·.id),
        Writable session id t := by
      intro id hid
      obtain ⟨task, htask, rfl⟩ := List.mem_map.mp hid
      obtain ⟨hboard, hquery⟩ := List.mem_filter.mp htask
      exact writable_of_board hproper hboard (hselects hempty _ (of_decide_eq_true hquery))
    refine (scoped_loadHubTasks (P := True) _ ?_ (stable_writableAll _) hids).mono ?_
      fun _ h => h
    · intro _ id hid
      exact ⟨(hids id hid).1, fun t' ht' => (ht' id hid).2.1⟩
    · rintro tasks t' ⟨hsame, -, ht'⟩
      rw [hsame trivial]
      exact ht'
  · refine (scoped_loadHubTasks (P := False) _ False.elim (stable_const True) trivial).bind
      (fun _ h => h) ?_
    rintro tasks t' ⟨-, hloaded, -⟩
    split
    · exact scoped_raise trivial
    · rename_i hnone
      refine scoped_ret fun id hid => ?_
      obtain ⟨task, htask, rfl⟩ := List.mem_map.mp hid
      have hscope := List.find?_eq_none.mp hnone task htask
      exact (hloaded task htask).writable (by simpa using hscope)

/-! ### Applying the decisions -/

theorem scoped_returning {α : Type} {result : Except String α} :
    Scoped session (fun a t => result = .ok a ∧ K t) (fun _ => True) (returning result) s ↔
      ∀ a, result = .ok a → K s := by
  constructor
  · rintro ⟨hsat⟩ a rfl
    exact hsat.2
  · intro h
    cases result with
    | ok a => exact scoped_ret ⟨rfl, h a rfl⟩
    | error message => exact scoped_raise trivial

theorem known_of_validate {proposal : TriageProposal} {knownTaskIds : List TaskId}
    (h : validateTriageProposal proposal knownTaskIds = .ok ()) :
    ∀ decision ∈ proposal.decisions, decision.taskId ∈ knownTaskIds := by
  intro decision hmem
  cases hunknown : proposal.decisions.find? (·.taskId ∉ knownTaskIds) with
  | none => simpa using List.find?_eq_none.mp hunknown decision hmem
  | some unknown =>
    simp only [validateTriageProposal, hunknown, bind, Except.bind, throw, throwThe,
      MonadExceptOf.throw] at h
    split at h
    · cases h
    · split at h
      · cases h
      · cases h

theorem scoped_applyDecisions (decisions : List TriageProposalDecision) {ids : List TaskId}
    (hids : ∀ decision ∈ decisions, decision.taskId ∈ ids ∧ session.Decides decision.taskId)
    (hs : ∀ id, ∀ _ : id ∈ ids, Writable session id s) :
    Scoped session (fun _ _ => True) (fun _ => True) (applyDecisions decisions) s := by
  induction decisions generalizing s with
  | nil => exact scoped_ret trivial
  | cons decision decisions ih =>
    obtain ⟨hmem, hdecides⟩ := hids decision List.mem_cons_self
    have hnames : True → KnownId (fun t => ∀ id, ∀ _ : id ∈ ids, Writable session id t)
        decision.taskId :=
      fun _ => ⟨(hs _ hmem).1, fun t ht => (ht _ hmem).2.1⟩
    rw [applyDecisions]
    refine Scoped.bind (Q := fun _ t => ∀ id, ∀ _ : id ∈ ids, Writable session id t) ?_
      (fun _ h => h) fun _ t ht => ih (fun other hother => hids other
        (List.mem_cons_of_mem _ hother)) ht
    rw [applyDecision]
    refine (scoped_loadHubTask hnames (stable_writableAll ids) hs).bind (fun _ h => h) ?_
    rintro task t ⟨hid, -, ht⟩
    refine (scoped_writes (writes_applied (hid trivial)) (stable_writableAll ids) ?_ ht).mono
      (fun _ _ h => h) fun _ _ => trivial
    rintro t' ht' id rfl
    exact (ht' _ hmem).2.2 hdecides

theorem scoped_applyTriageProposal {proposal : TriageProposal} {decisionsToApply : List TaskId}
    {ids : List TaskId} (hknown : ∀ decision ∈ proposal.decisions, decision.taskId ∈ ids)
    (hdecides : ∀ id ∈ decisionsToApply, session.Decides id)
    (hs : ∀ id, ∀ _ : id ∈ ids, Writable session id s) :
    Scoped session (fun _ _ => True) (fun _ => True)
      (applyTriageProposal proposal decisionsToApply) s := by
  rw [applyTriageProposal]
  refine (scoped_loadHubTaskBoard (stable_writableAll ids) hs).bind (fun _ _ => trivial) ?_
  rintro board t ⟨-, -, ht⟩
  refine (scoped_applyDecisions _ (fun decision hmem => ?_) ht).bind (fun _ h => h) ?_
  · obtain ⟨hdecision, happly⟩ := List.mem_filter.mp hmem
    exact ⟨hknown decision hdecision, hdecides _ (of_decide_eq_true happly)⟩
  · intro _ t' _
    have hedges : ∀ edges, Writes (fun _ => False) (addTriageEdges edges) :=
      fun edges => writes_addTriageEdges edges
    exact (scoped_writes (hedges _) (stable_const True) (fun _ _ _ => False.elim) trivial).mono
      (fun _ _ h => h) fun _ h => h

theorem scoped_runTriageProposalFlow {selection : TriageSelection}
    (hselects : SelectsScope selection) (s : BeadsStore × Written) :
    Scoped session (fun _ _ => True) (fun _ => True)
      (runTriageProposalFlow session selection) s := by
  rw [runTriageProposalFlow, prepareTriageContext]
  refine Scoped.bind (Q := fun tasks t => ∀ id, ∀ _ : id ∈ tasks.map (·.id),
    Writable session id t) ?_ (fun _ h => h) fun tasks t ht => ?_
  · refine (scoped_loadHubTaskBoard (stable_const True) trivial).bind (fun _ h => h) ?_
    exact fun _ t _ => scoped_resolveTasksUnderTriage hselects t
  split
  · exact scoped_raise trivial
  · split
    · exact scoped_ret trivial
    · rename_i proposal hproposal
      refine (scoped_loadHubTaskBoard (stable_writableAll _) ht).bind (fun _ _ => trivial) ?_
      rintro board t' ⟨-, -, ht'⟩
      refine (scoped_returning (K := fun t => ∀ id, ∀ _ : id ∈ tasks.map (·.id),
        Writable session id t) |>.mpr fun _ _ => ht').bind (fun _ h => h) ?_
      rintro ⟨⟩ t'' ⟨hvalid, ht''⟩
      exact scoped_applyTriageProposal (known_of_validate hvalid)
        (fun id hid => ⟨tasks, proposal, _, hproposal, hid⟩) ht''

/-! ### Every interleaving -/

/-- The flow in a store of which nothing was written by triage yet. -/
def triageFlow (session : TriageSession) (selection : TriageSelection) :
    Prog (BeadsStore × Written) String Unit :=
  (runTriageProposalFlow session selection).tracked noteWrites

def unwritten (s : BeadsStore) : BeadsStore × Written := (s, [])

/-- Whatever the others do between two steps of triage, the next step changes only tasks that
are in scope then: when the selection asks for no other status, and the others leave those tasks
alone that a decision might be applied to. -/
theorem onlyInScope_reached {session : TriageSession} {selection : TriageSelection}
    {s : BeadsStore} (hselects : SelectsScope selection) (hproper : ProperIds s)
    {q : Prog (BeadsStore × Written) String Unit} {t : BeadsStore × Written}
    (hreach : Prog.Reaches (LeavesScope session) (triageFlow session selection) (unwritten s)
      q t) : OnlyInScope t (q.nextState t) := by
  have hscoped : Scoped session (fun _ _ => True) (fun _ => True)
      (runTriageProposalFlow session selection) (unwritten s) :=
    scoped_runTriageProposalFlow hselects (unwritten s)
  refine hscoped.sat.nextState hproper (fun _ => ?_)
    (fun seen t t' h hinv hmove => ⟨?_, hmove.proper hinv⟩) (fun _ _ _ => trivial)
    (fun _ _ _ h => h) (fun _ _ h => absurd rfl h) hreach
  · exact ⟨rfl, fun _ h => h, fun h => h, fun _ _ h => h⟩
  · exact ⟨hmove.written.trans h.written, fun id hid => hmove.isSome id (h.isSome id hid),
      fun hproper => hmove.proper (h.proper hproper),
      fun id hid hmay => hmove.mayWrite id hid (h.mayWrite id hid hmay)⟩

/-! ### A task that is claimed while triage thinks about it -/

def sampleTriageSession : TriageSession where
  propose := fun tasks => some ⟨tasks.map fun task =>
    { taskId := task.id, outcome := .readyForHuman }⟩
  confirm := fun _ => true

def sampleInbox : BeadsStore where
  issues := [{ id := "b-1", title := "Fix the parser" }]

def sampleClaimed (issue : BeadsIssue) : BeadsIssue :=
  { issue with
    status := "in_progress"
    labels := ["implementing"]
    metadata := [("hubStatus", .str "implementing"),
      ("claim", .obj [("runId", .str "run-1"), ("batchId", .str "batch-1"),
        ("branch", .str "archloop/b-1")])] }

theorem properIds_sample : ProperIds sampleInbox where
  nodup := by decide
  trimmed := by decide

theorem selectsScope_sample : SelectsScope {} := by
  intro _ status
  cases status <;> decide

/-- The flow before its first write. -/
theorem onlyInScope_reached_sample :
    let before := (triageFlow sampleTriageSession {}).stepsRun 10 (unwritten sampleInbox)
    OnlyInScope before.2 (before.1.nextState before.2) :=
  onlyInScope_reached selectsScope_sample properIds_sample (Prog.Reaches.start.stepsRun 10)

/-- Triage loads the task from the inbox, a run claims it, and triage moves it all the same. -/
theorem claimedMeanwhile_moved :
    ∃ q t, Prog.Reaches (fun s t => t.2 = s.2) (triageFlow sampleTriageSession {})
        (unwritten sampleInbox) q t ∧ ¬ OnlyInScope t (q.nextState t) := by
  let read := (triageFlow sampleTriageSession {}).stepsRun 4 (unwritten sampleInbox)
  let claimed : BeadsStore × Written := (read.2.1.changeIssue "b-1" sampleClaimed, read.2.2)
  let before := read.1.stepsRun 6 claimed
  have hread : Prog.Reaches (fun s t => t.2 = s.2) (triageFlow sampleTriageSession {})
      (unwritten sampleInbox) read.1 read.2 := Prog.Reaches.start.stepsRun 4
  have hclaim : Prog.Reaches (fun s t => t.2 = s.2) (triageFlow sampleTriageSession {})
      (unwritten sampleInbox) read.1 claimed := hread.other rfl
  refine ⟨before.1, before.2, hclaim.stepsRun 6, fun honly => ?_⟩
  have hmoved : (before.1.nextState before.2).1.issue "b-1" ≠ before.2.1.issue "b-1" := by
    decide +kernel
  obtain ⟨issue, hissue, hmay⟩ := honly "b-1" hmoved
  have hclaimed : before.2.1.issue "b-1" =
      some (sampleClaimed { id := "b-1", title := "Fix the parser" }) := by decide +kernel
  obtain rfl := Option.some.inj (hclaimed.symm.trans hissue)
  revert hmay
  decide +kernel

end ArchLoop.TaskBoard
