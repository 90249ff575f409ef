import ArchLoop.Proofs.InterruptedTransition
import ArchLoop.Proofs.TriageScope

/-!
# `ArchLoop.Proofs.TriageOutcome`: what the board shows of the decisions that were applied

`applyTriageProposal` writes each outcome by a transition, which checks what it wrote. Then it takes
away the labels of the other outcomes and adds the labels that the agent proposed, and checks
nothing any more. So a proposed label that reads as one of a status stands beside that of the
outcome. The transition itself keeps what it does not own, as everywhere: a `hub_status` or a
`failedReason` of the record is read before the outcome.

`projectsDecided_iff` has the exact condition on the records and the decisions, over all proposals
and all boards.
-/

set_option autoImplicit false

namespace ArchLoop.TaskBoard

open ArchLoop.Lib

/-! ### What an outcome writes -/

def triageInput (task : HubTaskProjection) (outcome : HubTriageOutcome) :
    UpdateHubTaskStatusInput where
  taskId := task.id
  hubStatus := outcome.hubStatus
  metadata :=
    let metadata := task.metadata.set "hub_status" (.str (statusText outcome.hubStatus))
    if outcome = .wontfix then metadata.set "wontfix" (.bool true) else metadata.erase ["wontfix"]

/-- The labels that are taken away after the transition. -/
def clearUpdate (outcome : HubTriageOutcome) : BdUpdate :=
  if outcome = .wontfix then { removeLabels := TRIAGE_LABELS_TO_CLEAR, addLabels := ["wontfix"] }
  else { removeLabels := TRIAGE_LABELS_TO_CLEAR.filter (· ≠ HUB_STATUS_LABELS outcome.hubStatus) }

theorem applyOutcome_eq (task : HubTaskProjection) (outcome : HubTriageOutcome) :
    (if outcome = .wontfix then applyWontfixOutcome task else applyNonWontfixOutcome task outcome) =
      (transitionHubTaskStatus (triageInput task outcome)).bind fun _ =>
        updateTriageLabels task.id (clearUpdate outcome) := by
  cases outcome <;> rfl

/-- The labels that the agent proposed, as `--add-label` gets them. -/
def proposedLabels (decision : TriageProposalDecision) : List String :=
  normalizeBdLabels ((decision.labels.map trim).filter (· ≠ ""))

/-- The issue that a decision leaves, when its transition passes. -/
def decided (issue : BeadsIssue) (decision : TriageProposalDecision) : BeadsIssue :=
  ({ addLabels := proposedLabels decision } : BdUpdate).apply
    ((clearUpdate decision.outcome).apply
      (transitioned issue (triageInput issue.projection decision.outcome)))

/-! ### When a transition to an outcome passes -/

/-- The keys of the record that the board reads before the outcome agree with it.

A task that needs information may keep what it needs. Otherwise no failure may be told under
`failedReason`, and an old `hub_status`, which the transition does not write, has to be the outcome,
unless the reason `wontfix` comes before it. In a sync conflict only a task that is `wontfix` keeps
its status. -/
def StatusDecided (metadata : Record) (outcome : HubTriageOutcome) : Prop :=
  (outcome = .needsInfo ∧ hasTruthyMetadata metadata NEEDS_INFO_METADATA_KEYS = true) ∨
    (isSetValue (metadata.get "failedReason") = false ∧
      if isText (metadata.get "sync_state") "conflict" = true ∧
          hasTruthyMetadata metadata SYNC_CONFLICT_METADATA_KEYS = true then
        outcome = .wontfix ∧ (aliasStatus metadata).getD .wontfix = .wontfix
      else
        outcome = .wontfix ∨
          (aliasStatus metadata).getD outcome.hubStatus = outcome.hubStatus)

/-- The record and the labels of a decision let its outcome be seen.

- `status`: the keys that are read before the outcome agree with it.
- `labels`: no label that is not managed falls into a managed one at its commas.
- `claim`: the record has no claim but the one that the transition clears.
- `proposed`: a proposed label that reads as one of a status is the label of the outcome. -/
structure DecisionTold (issue : BeadsIssue) (decision : TriageProposalDecision) : Prop where
  status : StatusDecided issue.metadata decision.outcome
  labels : ∀ label ∈ issue.projection.labels, isManaged label = false →
    ∀ piece ∈ normalizeBdLabels [label], isManaged piece = false
  claim : otherClaim issue = [] ∧ flatFields issue.metadata = none
  proposed : ∀ piece ∈ proposedLabels decision, isManaged piece = true →
    piece = HUB_STATUS_LABELS decision.outcome.hubStatus

section Outcome

variable {issue : BeadsIssue} {outcome : HubTriageOutcome}

theorem givenValue_triage {key : String} (hkey : key ≠ "wontfix" ∨ outcome ≠ .wontfix) :
    givenValue issue.metadata (triageInput issue.projection outcome) key =
      issue.metadata.get key := by
  rw [givenValue]
  split
  · rfl
  · rename_i hown
    have hstatus : key ≠ "hub_status" := by
      rintro rfl
      exact hown (Or.inl (by decide))
    show ((if outcome = .wontfix then (issue.metadata.set "hub_status" _).set "wontfix" _
      else (issue.metadata.set "hub_status" _).erase ["wontfix"]).get key).or _ = _
    by_cases hwontfix : outcome = .wontfix
    · have hne : key ≠ "wontfix" := hkey.resolve_right fun h => h hwontfix
      rw [if_pos hwontfix, Record.get_set, if_neg hne, Record.get_set, if_neg hstatus,
        Option.or_self]
    · rw [if_neg hwontfix, Record.get_erase, Record.get_set, if_neg hstatus]
      split
      · rfl
      · exact Option.or_self

theorem givenSet_triage {keys : List String} (hkeys : "wontfix" ∉ keys) :
    givenSet issue (triageInput issue.projection outcome) keys =
      hasTruthyMetadata issue.metadata keys := by
  rw [givenSet, hasTruthyMetadata]
  induction keys with
  | nil => rfl
  | cons key keys ih =>
    have hne : key ≠ "wontfix" := fun h => hkeys (h ▸ List.mem_cons_self)
    rw [List.any_cons, List.any_cons, givenValue_triage (Or.inl hne),
      ih fun h => hkeys (List.mem_cons_of_mem _ h)]

theorem givenConflict_triage :
    givenConflict issue.metadata (triageInput issue.projection outcome) =
      isText (issue.metadata.get "sync_state") "conflict" := by
  rw [givenConflict, givenValue_triage (Or.inl (by decide))]

theorem wontfix_given :
    givenSet issue (triageInput issue.projection .wontfix) WONTFIX_METADATA_KEYS = true := by
  have hset : givenValue issue.metadata (triageInput issue.projection .wontfix) "wontfix" =
      some (.bool true) := by
    rw [givenValue, if_neg (by decide)]
    show (((issue.metadata.set "hub_status" _).set "wontfix" (.bool true)).get "wontfix").or _ = _
    rw [Record.get_set, if_pos rfl, Option.some_or]
  rw [givenSet, WONTFIX_METADATA_KEYS, List.any_cons, hset]
  rfl

theorem failureTold_triage : FailureTold (triageInput issue.projection outcome) := by
  cases outcome <;> simp [FailureTold, triageInput, HubTriageOutcome.hubStatus]

theorem statusTold_triage : StatusTold issue (triageInput issue.projection outcome) ↔
    StatusDecided issue.metadata outcome := by
  have hfailed : givenSet issue (triageInput issue.projection outcome) ["failedReason"] =
      isSetValue (issue.metadata.get "failedReason") := by
    rw [givenSet_triage (by decide), hasTruthyMetadata, List.any_cons, List.any_nil, Bool.or_false]
  have hneeds : givenSet issue (triageInput issue.projection outcome) NEEDS_INFO_METADATA_KEYS =
      hasTruthyMetadata issue.metadata NEEDS_INFO_METADATA_KEYS := givenSet_triage (by decide)
  have hconflict : givenSet issue (triageInput issue.projection outcome)
        SYNC_CONFLICT_METADATA_KEYS =
      hasTruthyMetadata issue.metadata SYNC_CONFLICT_METADATA_KEYS := givenSet_triage (by decide)
  have hwontfix := @wontfix_given issue
  rw [StatusTold, reasonLeft, StatusDecided, hfailed, hneeds, hconflict, givenConflict_triage]
  generalize hasTruthyMetadata issue.metadata NEEDS_INFO_METADATA_KEYS = needs
  generalize isSetValue (issue.metadata.get "failedReason") = failed
  generalize isText (issue.metadata.get "sync_state") "conflict" = conflict
  generalize hasTruthyMetadata issue.metadata SYNC_CONFLICT_METADATA_KEYS = reason
  have hwritten : writtenStatus issue (triageInput issue.projection outcome) =
      (aliasStatus issue.metadata).getD outcome.hubStatus := rfl
  rw [hwritten]
  generalize (aliasStatus issue.metadata) = written
  have hcompleted : ∀ status, isCompletedHubStatus status = true →
      status = .done ∨ status = .wontfix := by
    intro status
    cases status <;> decide
  cases outcome with
  | wontfix =>
    have hkept : isCompletedHubStatus .wontfix = true := rfl
    rw [hwontfix]
    cases failed <;> cases conflict <;> cases reason <;> cases written <;>
      simp [triageInput, HubTriageOutcome.hubStatus, hkept]
    -- only a conflict is left, through which a completed task keeps its status
    rintro rfl
    rfl
  | needsInfo =>
    cases needs <;> cases failed <;> cases conflict <;> cases reason <;>
      simp [triageInput, HubTriageOutcome.hubStatus, LABEL_AUTHORITATIVE_STATUSES]
    intro hdone heq
    rcases hcompleted _ hdone with hstatus | hstatus <;> simp [heq] at hstatus
  | readyForAgent =>
    cases failed <;> cases conflict <;> cases reason <;>
      simp [triageInput, HubTriageOutcome.hubStatus, LABEL_AUTHORITATIVE_STATUSES]
    intro hdone heq
    rcases hcompleted _ hdone with hstatus | hstatus <;> simp [heq] at hstatus
  | readyForHuman =>
    cases failed <;> cases conflict <;> cases reason <;>
      simp [triageInput, HubTriageOutcome.hubStatus, LABEL_AUTHORITATIVE_STATUSES]
    intro hdone heq
    rcases hcompleted _ hdone with hstatus | hstatus <;> simp [heq] at hstatus

theorem claimShown_triage : ClaimShown issue (triageInput issue.projection outcome) ↔
    otherClaim issue = [] ∧ flatFields issue.metadata = none := by
  have hclear : shouldClearClaimForStatus outcome.hubStatus = true := by
    cases outcome <;> decide
  have hstatus : (triageInput issue.projection outcome).hubStatus = outcome.hubStatus := rfl
  have hflat : flatClaim issue (triageInput issue.projection outcome) =
      ["runId", "batchId", "branch", "claimedAt"].all fun key =>
        (((issue.metadata.get key).bind Json.text?).bind nonBlank).isSome := by
    simp only [flatClaim, List.all_cons, List.all_nil]
    rw [givenValue_triage (Or.inl (by decide)), givenValue_triage (Or.inl (by decide)),
      givenValue_triage (Or.inl (by decide)), givenValue_triage (Or.inl (by decide))]
  rw [ClaimShown, hstatus, if_pos hclear, hflat, flatFields]
  cases ["runId", "batchId", "branch", "claimedAt"].all fun key =>
    (((issue.metadata.get key).bind Json.text?).bind nonBlank).isSome with
  | true => simp
  | false => simp

theorem labelsWhole_triage : LabelsWhole issue (triageInput issue.projection outcome) ↔
    ∀ label ∈ issue.projection.labels, isManaged label = false →
      ∀ piece ∈ normalizeBdLabels [label], isManaged piece = false := by
  have hkept : ∀ label, label ∈ keptLabels issue (triageInput issue.projection outcome) ↔
      label ∈ issue.projection.labels ∧ isManaged label = false := by
    intro label
    have hremove : (triageInput issue.projection outcome).labelsToRemove = [] := rfl
    simp [keptLabels, hremove, isManaged]
  constructor
  · intro h label hlabel hunmanaged
    exact h label ((hkept label).mpr ⟨hlabel, hunmanaged⟩)
  · intro h label hlabel
    obtain ⟨hstored, hunmanaged⟩ := (hkept label).mp hlabel
    exact h label hstored hunmanaged

theorem succeeds_triage : Succeeds issue (triageInput issue.projection outcome) ↔
    StatusDecided issue.metadata outcome ∧
      (∀ label ∈ issue.projection.labels, isManaged label = false →
        ∀ piece ∈ normalizeBdLabels [label], isManaged piece = false) ∧
      otherClaim issue = [] ∧ flatFields issue.metadata = none := by
  rw [← statusTold_triage, ← labelsWhole_triage, ← claimShown_triage]
  constructor
  · intro h
    exact ⟨h.status, h.labels, h.claim⟩
  · rintro ⟨hstatus, hlabels, hclaim⟩
    exact ⟨failureTold_triage, hstatus, hlabels, hclaim⟩

end Outcome

/-! ### The issue that a decision leaves -/

section Decided

variable {issue : BeadsIssue} {decision : TriageProposalDecision}

def outcomeLabels (issue : BeadsIssue) (decision : TriageProposalDecision) : List String :=
  newLabels issue (triageInput issue.projection decision.outcome)

def addedLabels (issue : BeadsIssue) (decision : TriageProposalDecision) : List String :=
  (proposedLabels decision).filter (· ∉ outcomeLabels issue decision)

theorem managed_outcomeLabels
    (h : LabelsWhole issue (triageInput issue.projection decision.outcome)) {label : String}
    (hlabel : label ∈ outcomeLabels issue decision) (hmanaged : isManaged label = true) :
    label = HUB_STATUS_LABELS decision.outcome.hubStatus := by
  rw [outcomeLabels, newLabels, List.mem_append, List.mem_singleton] at hlabel
  rcases hlabel with hkept | hown
  · have hnone := List.filter_eq_nil_iff.mp (labelsWhole_iff.mp h) label hkept
    exact absurd hmanaged hnone
  · exact hown

theorem labels_cleared (h : LabelsWhole issue (triageInput issue.projection decision.outcome)) :
    ((clearUpdate decision.outcome).apply
      (transitioned issue (triageInput issue.projection decision.outcome))).labels =
      outcomeLabels issue decision := by
  have hown : HUB_STATUS_LABELS decision.outcome.hubStatus ∈ outcomeLabels issue decision :=
    List.mem_append_right _ List.mem_cons_self
  have hset : (clearUpdate decision.outcome).setLabels = [] := by
    rw [clearUpdate]
    split <;> rfl
  have hadd : ∀ label ∈ (clearUpdate decision.outcome).addLabels,
      label ∈ outcomeLabels issue decision := by
    intro label hlabel
    rw [clearUpdate] at hlabel
    split at hlabel
    · rename_i hwontfix
      rw [List.mem_singleton.mp hlabel]
      rw [hwontfix] at hown
      exact hown
    · exact absurd hlabel List.not_mem_nil
  have hremove : ∀ label ∈ outcomeLabels issue decision,
      label ∉ (clearUpdate decision.outcome).removeLabels := by
    intro label hlabel hremoved
    have hfacts : ∀ outcome : HubTriageOutcome, ∀ label ∈ (clearUpdate outcome).removeLabels,
        isManaged label = true ∧ label ≠ HUB_STATUS_LABELS outcome.hubStatus := by
      intro outcome
      cases outcome <;> decide
    obtain ⟨hmanaged, hother⟩ := hfacts _ label hremoved
    exact hother (managed_outcomeLabels h hlabel hmanaged)
  have hnone : (clearUpdate decision.outcome).addLabels.filter
      (· ∉ outcomeLabels issue decision) = [] := by
    refine List.filter_eq_nil_iff.mpr fun label hlabel => ?_
    simp [hadd label hlabel]
  have hkeep : (outcomeLabels issue decision).filter
      (· ∉ (clearUpdate decision.outcome).removeLabels) = outcomeLabels issue decision := by
    refine List.filter_eq_self.mpr fun label hlabel => ?_
    simp [hremove label hlabel]
  show List.filter _ ((if (clearUpdate decision.outcome).setLabels.isEmpty then
    (transitioned issue (triageInput issue.projection decision.outcome)).labels else _) ++ _) = _
  rw [hset]
  simp only [List.isEmpty_nil, if_true, labels_transitioned]
  rw [← outcomeLabels, hnone, List.append_nil, hkeep]

theorem labels_decided (h : LabelsWhole issue (triageInput issue.projection decision.outcome)) :
    (decided issue decision).labels =
      outcomeLabels issue decision ++ addedLabels issue decision := by
  show List.filter _ ((if ([] : List String).isEmpty then
    ((clearUpdate decision.outcome).apply
      (transitioned issue (triageInput issue.projection decision.outcome))).labels else _) ++ _) = _
  rw [List.isEmpty_nil, if_pos rfl, labels_cleared h, addedLabels]
  simp

theorem projection_labels_decided
    (h : LabelsWhole issue (triageInput issue.projection decision.outcome)) :
    (decided issue decision).projection.labels =
      outcomeLabels issue decision ++ addedLabels issue decision := by
  have hsubset : outcomeLabels issue decision ++ addedLabels issue decision ⊆
      normalizeBdLabels (uniqueStrings (keptLabels issue
          (triageInput issue.projection decision.outcome)) ++
        [HUB_STATUS_LABELS decision.outcome.hubStatus] ++
        (decision.labels.map trim).filter (· ≠ "")) := by
    rw [normalizeBdLabels_append, normalizeBdLabels_append, pieces_canonical]
    intro label hlabel
    rcases List.mem_append.mp hlabel with hown | hadded
    · exact List.mem_append_left _ hown
    · exact List.mem_append_right _ (List.mem_of_mem_filter hadded)
  have hpieces : normalizeBdLabels (outcomeLabels issue decision ++ addedLabels issue decision) =
      outcomeLabels issue decision ++ addedLabels issue decision := pieces_of_subset hsubset
  show readStringList (some (.arr ((decided issue decision).labels.map .str))) = _
  rw [labels_decided h, ← hpieces, readStringList_pieces]

/-- One managed label is left exactly when each proposed one that is managed is that of the
outcome. -/
theorem managed_decided (h : LabelsWhole issue (triageInput issue.projection decision.outcome)) :
    (managedLabels (decided issue decision).projection).length = 1 ↔
      ∀ piece ∈ proposedLabels decision, isManaged piece = true →
        piece = HUB_STATUS_LABELS decision.outcome.hubStatus := by
  have hown : (outcomeLabels issue decision).filter isManaged =
      [HUB_STATUS_LABELS decision.outcome.hubStatus] := by
    rw [outcomeLabels, newLabels, List.filter_append, labelsWhole_iff.mp h, List.nil_append,
      List.filter_cons_of_pos (isManaged_canonical _), List.filter_nil]
    rfl
  have hmanaged : managedLabels (decided issue decision).projection =
      HUB_STATUS_LABELS decision.outcome.hubStatus ::
        (addedLabels issue decision).filter isManaged := by
    rw [managedLabels, projection_labels_decided h]
    show List.filter isManaged _ = _
    rw [List.filter_append, hown, List.singleton_append]
  rw [hmanaged, List.length_cons, Nat.add_eq_right, List.length_eq_zero_iff,
    List.filter_eq_nil_iff]
  constructor
  · intro hnone piece hpiece hread
    have hstored : piece ∈ outcomeLabels issue decision := by
      by_contra hnew
      exact hnone piece (List.mem_filter.mpr ⟨hpiece, by simpa using hnew⟩) hread
    exact managed_outcomeLabels h hstored hread
  · intro hall piece hadded hread
    obtain ⟨hpiece, hnew⟩ := List.mem_filter.mp hadded
    have hstored : piece ∈ outcomeLabels issue decision := by
      rw [hall piece hpiece hread]
      exact List.mem_append_right _ List.mem_cons_self
    simp [hstored] at hnew

theorem labelStatus_told {labels : List String} {target status : HubTaskStatus}
    (h : ∀ label ∈ labels, isManaged label = true → label = HUB_STATUS_LABELS target)
    (hstatus : resolveStatusFromLabels labels = some status) :
    status = target ∨ status = .inbox := by
  obtain ⟨label, hlabel, hlookup⟩ := List.exists_of_findSome?_eq_some hstatus
  cases hmanaged : isManaged label with
  | true =>
    rw [h label hlabel hmanaged, labelStatus_canonical, Option.some.injEq] at hlookup
    exact Or.inl hlookup.symm
  | false =>
    rw [isManaged, decide_eq_false_iff_not] at hmanaged
    exact Or.inr (lookup_unmanaged hlookup hmanaged).2

theorem resolveStatusWithoutReason_told (lifecycle : Option String)
    {labelStatus : Option HubTaskStatus} {target : HubTaskStatus}
    (h : ∀ status, labelStatus = some status → status = target ∨ status = .inbox) :
    resolveStatusWithoutReason lifecycle labelStatus (some target) = target := by
  have hnone : labelStatus.filter (fun labelled =>
      labelled ∈ LABEL_AUTHORITATIVE_STATUSES && some target ≠ some labelled) = none := by
    refine Option.filter_eq_none_iff.mpr fun status hstatus => ?_
    rcases h status hstatus with rfl | rfl
    · simp
    · simp [LABEL_AUTHORITATIVE_STATUSES]
  simp only [resolveStatusWithoutReason, hnone]

theorem sameIssue_decided : SameIssue (decided issue decision)
    { transitioned issue (triageInput issue.projection decision.outcome) with
      labels := (decided issue decision).labels } := by
  obtain ⟨update, hupdate⟩ : ∃ update, update = clearUpdate decision.outcome := ⟨_, rfl⟩
  have hplain : update.title = none ∧ update.description = none ∧ update.status = none ∧
      update.metadata = [] ∧ update.unsetMetadata = [] := by
    rw [hupdate, clearUpdate]
    split
    · exact ⟨rfl, rfl, rfl, rfl, rfl⟩
    · exact ⟨rfl, rfl, rfl, rfl, rfl⟩
  obtain ⟨htitle, hdescription, hstatus, hmetadata, hunset⟩ := hplain
  refine ⟨rfl, ?_, ?_, ?_, rfl, fun key => ?_⟩
  · show ((clearUpdate decision.outcome).title.getD _) = _
    rw [← hupdate, htitle, Option.getD_none]
  · show ((clearUpdate decision.outcome).description.getD _) = _
    rw [← hupdate, hdescription, Option.getD_none]
  · show ((clearUpdate decision.outcome).status.getD _) = _
    rw [← hupdate, hstatus, Option.getD_none]
  · show (((((transitioned issue (triageInput issue.projection decision.outcome)).metadata.merge
      (clearUpdate decision.outcome).metadata).erase
        (clearUpdate decision.outcome).unsetMetadata).merge []).erase []).get key = _
    rw [← hupdate, hmetadata, hunset, Record.get_erase, if_neg List.not_mem_nil,
      Record.get_merge, Record.get_nil, Option.none_or, Record.get_erase,
      if_neg List.not_mem_nil, Record.get_merge, Record.get_nil, Option.none_or]

theorem reasonLeft_wontfix (issue : BeadsIssue) :
    reasonLeft issue (triageInput issue.projection .wontfix) ≠ none := by
  have hset : givenSet issue (triageInput issue.projection .wontfix) WONTFIX_METADATA_KEYS = true :=
    wontfix_given
  have hstatus : (triageInput issue.projection .wontfix).hubStatus = .wontfix := rfl
  unfold reasonLeft
  rw [hset, hstatus]
  simp only [decide_true, Bool.and_self, if_true]
  repeat' split
  all_goals simp

/-- The status of what a transition left, with other labels: only without a reason the labels
count. -/
theorem hubStatus_relabelled {input : UpdateHubTaskStatusInput} (h : FailureTold input)
    (labels : List String) :
    ({ transitioned issue input with labels } : BeadsIssue).projection.hubStatus =
      (reasonLeft issue input).elim
        (resolveStatusWithoutReason
          ((readFirstString (transitioned issue input).record BEADS_LIFECYCLE_KEYS).bind
            normalizeBeadsLifecycle)
          (resolveStatusFromLabels
            ({ transitioned issue input with labels } : BeadsIssue).projection.labels)
          (some (writtenStatus issue input)))
        fun reason =>
          if reason = .syncConflict && isCompletedHubStatus (writtenStatus issue input) then
            writtenStatus issue input
          else reason := by
  have hshape : ({ transitioned issue input with labels } : BeadsIssue).projection.hubStatus =
      resolveStatusFromTaskShape ({ transitioned issue input with labels } : BeadsIssue).record
        ({ transitioned issue input with labels } : BeadsIssue).projection.labels
        (transitioned issue input).metadata := rfl
  have hdirect : (readFirstString ({ transitioned issue input with labels } : BeadsIssue).record
      TASK_STATUS_KEYS).bind normalizeHubTaskStatus = none := rfl
  rw [hshape, resolveStatusFromTaskShape, hdirect]
  dsimp only
  rw [reason_transitioned h, resolveMetadataStatus_transitioned]
  cases reasonLeft issue input with
  | none => rfl
  | some reason => rfl

theorem hubStatus_decided
    (h : Succeeds issue (triageInput issue.projection decision.outcome))
    (hlabels : ∀ piece ∈ proposedLabels decision, isManaged piece = true →
      piece = HUB_STATUS_LABELS decision.outcome.hubStatus) :
    (decided issue decision).projection.hubStatus = decision.outcome.hubStatus := by
  have hsame : SameIssue (decided issue decision) _ := sameIssue_decided
  have hmanaged : ∀ label ∈ (decided issue decision).projection.labels, isManaged label = true →
      label = HUB_STATUS_LABELS decision.outcome.hubStatus := by
    intro label hlabel hread
    rw [projection_labels_decided h.labels] at hlabel
    rcases List.mem_append.mp hlabel with hown | hadded
    · exact managed_outcomeLabels h.labels hown hread
    · exact hlabels label (List.mem_of_mem_filter hadded) hread
  have htold : (transitioned issue
      (triageInput issue.projection decision.outcome)).projection.hubStatus =
        decision.outcome.hubStatus := (hubStatus_transitioned h.failure h.labels).mpr h.status
  have hbefore := @hubStatus_relabelled issue _ h.failure (transitioned issue
    (triageInput issue.projection decision.outcome)).labels
  rw [htold] at hbefore
  rw [hsame.hubStatus, hubStatus_relabelled h.failure]
  cases hreason : reasonLeft issue (triageInput issue.projection decision.outcome) with
  | some reason =>
    rw [hreason] at hbefore
    exact hbefore.symm
  | none =>
    -- Without a reason the outcome is not `wontfix`, so it is the status that is written.
    have hopen : decision.outcome ≠ .wontfix := by
      intro hwontfix
      rw [hwontfix] at hreason
      exact reasonLeft_wontfix issue hreason
    have hwritten : writtenStatus issue (triageInput issue.projection decision.outcome) =
        decision.outcome.hubStatus := by
      have hstatus := h.status
      rw [StatusTold, hreason] at hstatus
      rcases hstatus with hwritten | ⟨hauthoritative, -⟩
      · exact hwritten
      · exfalso
        have hnot : ∀ outcome : HubTriageOutcome, outcome ≠ .wontfix →
            outcome.hubStatus ∉ LABEL_AUTHORITATIVE_STATUSES := by
          intro outcome
          cases outcome <;> decide
        exact hnot _ hopen hauthoritative
    rw [Option.elim_none, hwritten]
    refine resolveStatusWithoutReason_told _ fun status hstatus => ?_
    rw [← hsame.projection_labels] at hstatus
    exact labelStatus_told hmanaged hstatus

theorem shown_decided (h : Succeeds issue (triageInput issue.projection decision.outcome)) :
    ((decided issue decision).projection.hubStatus = decision.outcome.hubStatus ∧
        (managedLabels (decided issue decision).projection).length = 1) ↔
      ∀ piece ∈ proposedLabels decision, isManaged piece = true →
        piece = HUB_STATUS_LABELS decision.outcome.hubStatus := by
  rw [managed_decided h.labels]
  constructor
  · intro hshown
    exact hshown.2
  · intro hlabels
    exact ⟨hubStatus_decided h hlabels, hlabels⟩

end Decided

/-! ### Applying the decisions -/

section Apply

variable {s t : BeadsStore} {issue : BeadsIssue} {decision : TriageProposalDecision}

theorem apply_nothing (issue : BeadsIssue) :
    ({ addLabels := [] } : BdUpdate).apply issue = issue := by
  simp [BdUpdate.apply, Record.merge, Record.erase]

theorem run_addHubTaskLabels (h : Holds s decision.taskId issue) :
    ∃ t, Holds t decision.taskId
        (({ addLabels := proposedLabels decision } : BdUpdate).apply issue) ∧
      (Prog.when (!decision.labels.isEmpty)
        (addHubTaskLabels decision.taskId decision.labels)).run s = (.ok (), t) := by
  cases hempty : ((decision.labels.map trim).filter (· ≠ "")).isEmpty with
  | true =>
    have hnone : proposedLabels decision = [] := by
      rw [proposedLabels, List.isEmpty_iff.mp hempty]
      rfl
    have hskip : (Prog.when (!decision.labels.isEmpty)
        (addHubTaskLabels decision.taskId decision.labels)).run s = (.ok (), s) := by
      simp only [addHubTaskLabels, hempty]
      cases decision.labels.isEmpty <;> rfl
    rw [hnone, apply_nothing]
    exact ⟨s, h, hskip⟩
  | false =>
    have hlabels : decision.labels.isEmpty = false := by
      cases hlabels : decision.labels with
      | nil => simp [hlabels] at hempty
      | cons label labels => rfl
    refine ⟨_, h.change (id_apply _), ?_⟩
    rw [hlabels]
    simp only [addHubTaskLabels, hempty]
    exact run_bdUpdate h _ _

theorem run_appendHubTaskComment (h : Holds s decision.taskId issue) :
    (appendHubTaskComment decision.taskId).run s = (.ok (), s) := by
  have hstay : s.command (fun s => s) = s := command_eq h.calm h.calm
  rw [appendHubTaskComment, Prog.run_bind_ok (run_bdCommand h.calm _ _ _), h.found, hstay]
  rfl

theorem run_applyDecision (h : Holds s decision.taskId issue) (hid : ProperId decision.taskId) :
    (Succeeds issue (triageInput issue.projection decision.outcome) →
      ∃ t, Holds t decision.taskId (decided issue decision) ∧
        (applyDecision decision).run s = (.ok (), t)) ∧
    (¬Succeeds issue (triageInput issue.projection decision.outcome) →
      ∃ message t, (applyDecision decision).run s = (.error message, t)) := by
  have hsame : (triageInput issue.projection decision.outcome).taskId = decision.taskId := h.id_eq
  have hissue : issue.projection.id = decision.taskId := h.id_eq
  obtain ⟨t, ht, hrun⟩ := run_transition (triageInput issue.projection decision.outcome)
    (hsame ▸ h) (hsame ▸ hid)
  rw [hsame] at ht
  rw [applyDecision, Prog.run_bind_ok (run_loadHubTask h hid), applyOutcome_eq, hissue,
    Prog.bind_assoc]
  constructor
  · intro hsucceeds
    rw [succeeds_iff.mpr hsucceeds] at hrun
    have hcleared := ht.change (id_apply (clearUpdate decision.outcome))
    have hclear := run_bdUpdate ht ("tasks triage " ++ decision.taskId)
      (clearUpdate decision.outcome)
    obtain ⟨u, hu, hadd⟩ := run_addHubTaskLabels hcleared
    refine ⟨u, hu, ?_⟩
    rw [Prog.run_bind_ok hrun, updateTriageLabels, Prog.run_bind_ok hclear, Prog.run_bind_ok hadd]
    exact run_appendHubTaskComment hu
  · intro hfails
    cases hassert : assertHubTaskTransition (transitioned issue
        (triageInput issue.projection decision.outcome)).projection
          (triageInput issue.projection decision.outcome).hubStatus with
    | ok _ => exact absurd (succeeds_iff.mp hassert) hfails
    | error message =>
      rw [hassert] at hrun
      exact ⟨message, t, Prog.run_bind_error hrun _⟩

theorem issue_applyDecision (h : Holds s decision.taskId issue) (hid : ProperId decision.taskId)
    {id : TaskId} (hother : id ≠ decision.taskId) :
    ((applyDecision decision).run s).2.issue id = s.issue id := by
  rw [applyDecision, Prog.run_bind_ok (run_loadHubTask h hid)]
  exact (writesOnly_run (@writes_applied issue.projection decision h.id_eq) s).issue id hother

theorem told_iff : DecisionTold issue decision ↔
    Succeeds issue (triageInput issue.projection decision.outcome) ∧
      ∀ piece ∈ proposedLabels decision, isManaged piece = true →
        piece = HUB_STATUS_LABELS decision.outcome.hubStatus := by
  rw [succeeds_triage]
  constructor
  · intro h
    exact ⟨⟨h.status, h.labels, h.claim⟩, h.proposed⟩
  · rintro ⟨⟨hstatus, hlabels, hclaim⟩, hproposed⟩
    exact ⟨hstatus, hlabels, hclaim, hproposed⟩

/-- The board shows the outcome of the decision, and one label of a status. -/
def Shows (t : BeadsStore) (decision : TriageProposalDecision) : Prop :=
  ∃ issue, t.issue decision.taskId = some issue ∧
    issue.projection.hubStatus = decision.outcome.hubStatus ∧
      (managedLabels issue.projection).length = 1

/-- The store lets the outcome of the decision be seen. -/
def Told (s : BeadsStore) (decision : TriageProposalDecision) : Prop :=
  ∃ issue, s.issue decision.taskId = some issue ∧ DecisionTold issue decision

theorem shows_congr (h : t.issue decision.taskId = s.issue decision.taskId) :
    Shows t decision ↔ Shows s decision := by
  rw [Shows, Shows, h]

theorem told_congr (h : t.issue decision.taskId = s.issue decision.taskId) :
    Told t decision ↔ Told s decision := by
  rw [Told, Told, h]

theorem applied_first {decisions : List TriageProposalDecision} (hcalm : s.outages = [])
    (hids : decision.taskId ∉ decisions.map (·.taskId)) (hproper : ProperId decision.taskId)
    (hfound : s.issue decision.taskId = some issue)
    (hsucceeds : Succeeds issue (triageInput issue.projection decision.outcome)) :
    ∃ u, Holds u decision.taskId (decided issue decision) ∧
      (applyDecision decision).run s = (.ok (), u) ∧
      (∀ id, id ≠ decision.taskId → u.issue id = s.issue id) ∧
      ∀ other ∈ decisions, u.issue other.taskId = s.issue other.taskId := by
  have hholds : Holds s decision.taskId issue := ⟨hcalm, hfound⟩
  obtain ⟨u, hu, hrun⟩ := (run_applyDecision hholds hproper).1 hsucceeds
  have hframe : ∀ id, id ≠ decision.taskId → u.issue id = s.issue id := by
    intro id hother
    have hissue := issue_applyDecision hholds hproper hother
    rw [hrun] at hissue
    exact hissue
  refine ⟨u, hu, hrun, hframe, fun other hmem => hframe _ fun heq => ?_⟩
  exact hids (heq ▸ List.mem_map_of_mem hmem)

/-- Decisions that are told are applied one after the other, and each one shows in the end: those
behind it write to other tasks. -/
theorem run_applyDecisions {decisions : List TriageProposalDecision} (hcalm : s.outages = [])
    (hids : (decisions.map (·.taskId)).Nodup)
    (hproper : ∀ decision ∈ decisions, ProperId decision.taskId)
    (htold : ∀ decision ∈ decisions, Told s decision) :
    ∃ t, (applyDecisions decisions).run s = (.ok (), t) ∧ t.outages = [] ∧
      (∀ decision ∈ decisions, Shows t decision) ∧
      ∀ id ∉ decisions.map (·.taskId), t.issue id = s.issue id := by
  induction decisions generalizing s with
  | nil => exact ⟨s, rfl, hcalm, fun _ hmem => absurd hmem List.not_mem_nil, fun _ _ => rfl⟩
  | cons decision decisions ih =>
    rw [List.map_cons, List.nodup_cons] at hids
    obtain ⟨issue, hfound, hdecision⟩ := htold decision List.mem_cons_self
    obtain ⟨hsucceeds, hproposed⟩ := told_iff.mp hdecision
    obtain ⟨u, hu, hrun, hframe, hothers⟩ :=
      applied_first hcalm hids.1 (hproper decision List.mem_cons_self) hfound hsucceeds
    obtain ⟨t, hrest, ht, hshown, hkept⟩ := ih hu.calm hids.2
      (fun other hmem => hproper other (List.mem_cons_of_mem _ hmem))
      fun other hmem => (told_congr (hothers other hmem)).mpr
        (htold other (List.mem_cons_of_mem _ hmem))
    refine ⟨t, ?_, ht, fun other hmem => ?_, fun id hid => ?_⟩
    · rw [applyDecisions, Prog.run_bind_ok hrun]
      exact hrest
    · rcases List.mem_cons.mp hmem with rfl | hmem
      · exact (shows_congr (hkept _ hids.1)).mpr
          ⟨_, hu.found, (shown_decided hsucceeds).mpr hproposed⟩
      · exact hshown other hmem
    · rw [List.map_cons, List.mem_cons, not_or] at hid
      rw [hkept id hid.2, hframe id hid.1]

theorem told_of_shown {decisions : List TriageProposalDecision} (hcalm : s.outages = [])
    (hids : (decisions.map (·.taskId)).Nodup)
    (hproper : ∀ decision ∈ decisions, ProperId decision.taskId)
    (hstored : ∀ decision ∈ decisions, (s.issue decision.taskId).isSome = true)
    (hrun : (applyDecisions decisions).run s = (.ok (), t)) :
    t.outages = [] ∧ ((∀ decision ∈ decisions, Shows t decision) →
      ∀ decision ∈ decisions, Told s decision) := by
  induction decisions generalizing s with
  | nil =>
    cases hrun
    exact ⟨hcalm, fun _ _ hmem => absurd hmem List.not_mem_nil⟩
  | cons decision decisions ih =>
    rw [List.map_cons, List.nodup_cons] at hids
    obtain ⟨issue, hfound⟩ := Option.isSome_iff_exists.mp (hstored decision List.mem_cons_self)
    have hid := hproper decision List.mem_cons_self
    by_cases hsucceeds : Succeeds issue (triageInput issue.projection decision.outcome)
    · obtain ⟨u, hu, hfirst, -, hothers⟩ := applied_first hcalm hids.1 hid hfound hsucceeds
      rw [applyDecisions, Prog.run_bind_ok hfirst] at hrun
      have hproper' : ∀ other ∈ decisions, ProperId other.taskId :=
        fun other hmem => hproper other (List.mem_cons_of_mem _ hmem)
      have hstored' : ∀ other ∈ decisions, (u.issue other.taskId).isSome = true := by
        intro other hmem
        rw [hothers other hmem]
        exact hstored other (List.mem_cons_of_mem _ hmem)
      obtain ⟨ht, htell⟩ := ih hu.calm hids.2 hproper' hstored' hrun
      refine ⟨ht, fun hshown => ?_⟩
      have htold : ∀ other ∈ decisions, Told u other :=
        htell fun other hmem => hshown other (List.mem_cons_of_mem _ hmem)
      -- The others leave the task alone, so it shows what its own decision left.
      obtain ⟨t', hrest, -, -, hkept⟩ := run_applyDecisions hu.calm hids.2 hproper' htold
      have hsame : t' = t := (Prod.mk.inj (hrest.symm.trans hrun)).2
      intro other hmem
      rcases List.mem_cons.mp hmem with rfl | hmem
      · obtain ⟨last, hlast, hshows⟩ := hshown other List.mem_cons_self
        rw [← hsame, hkept _ hids.1, hu.found] at hlast
        cases hlast
        exact ⟨issue, hfound, told_iff.mpr ⟨hsucceeds, (shown_decided hsucceeds).mp hshows⟩⟩
      · exact (told_congr (hothers other hmem)).mp (htold other hmem)
    · exfalso
      obtain ⟨message, u, hfails⟩ := (run_applyDecision ⟨hcalm, hfound⟩ hid).2 hsucceeds
      rw [applyDecisions, Prog.run_bind_error hfails] at hrun
      cases hrun

theorem stored_applyDecisions (decisions : List TriageProposalDecision) {id : TaskId}
    (h : (s.issue id).isSome = true) :
    ((((applyDecisions decisions).run s).2).issue id).isSome = true := by
  have hwrites : Writes (fun _ => True) (applyDecisions decisions) := by
    induction decisions with
    | nil => exact writes_ret ()
    | cons decision decisions ih =>
      refine Writes.bind (writes_loadHubTask.bind fun task => ?_) fun _ => ih
      refine Writes.bind ?_ fun _ =>
        ((writes_addHubTaskLabels trivial).when _).bind fun _ => writes_appendHubTaskComment
      split
      · exact writes_applyWontfixOutcome trivial
      · exact writes_applyNonWontfixOutcome trivial
  have honly : WritesOnly (fun _ => True) s _ := writesOnly_run hwrites s
  rw [isSome_issue, honly.sameIds]
  exact isSome_issue.mp h

theorem run_addTriageEdges (edges : List TriageDependencySuggestion) (hcalm : s.outages = []) :
    ∃ t, (addTriageEdges edges).run s = (.ok (), t) ∧ t.outages = [] ∧ t.issues = s.issues := by
  induction edges generalizing s with
  | nil => exact ⟨s, rfl, hcalm, rfl⟩
  | cons edge edges ih =>
    have hcommand : s.command (fun s => s.addEdge edge.dependentTaskId edge.blockerTaskId) =
        s.addEdge edge.dependentTaskId edge.blockerTaskId := command_eq hcalm hcalm
    have hadd := run_bdCommand hcalm
      ("tasks dependency " ++ edge.dependentTaskId ++ " -> " ++ edge.blockerTaskId)
      (fun s => s.addEdge edge.dependentTaskId edge.blockerTaskId) fun _ => ()
    rw [hcommand] at hadd
    obtain ⟨t, hrest, ht, hissues⟩ := ih (s := s.addEdge edge.dependentTaskId edge.blockerTaskId)
      hcalm
    refine ⟨t, ?_, ht, hissues⟩
    rw [addTriageEdges, addHubTaskDependency, Prog.run_bind_ok hadd]
    exact hrest

end Apply

/-! ### Proposals -/

/-- The decisions were applied, and each task loads with the outcome that was decided for it and
with one label of a status. -/
def ProjectsDecided (s : BeadsStore) (proposal : TriageProposal) (decisionsToApply : List TaskId) :
    Prop :=
  ∃ t, (applyTriageProposal proposal decisionsToApply).run s = (.ok (), t) ∧
    ∀ decision ∈ proposal.decisions, decision.taskId ∈ decisionsToApply →
      ∃ task, (loadHubTask decision.taskId).run t = (.ok task, t) ∧
        task.hubStatus = decision.outcome.hubStatus ∧ (managedLabels task).length = 1

/-- A proposal for tasks of the store, at most one decision for each, and a store whose commands are
done. -/
structure ProposalStored (s : BeadsStore) (proposal : TriageProposal) : Prop where
  calm : s.outages = []
  distinct : (proposal.decisions.map (·.taskId)).Nodup
  proper : ∀ decision ∈ proposal.decisions, ProperId decision.taskId
  stored : ∀ decision ∈ proposal.decisions, (s.issue decision.taskId).isSome = true

def appliedDecisions (proposal : TriageProposal) (decisionsToApply : List TaskId) :
    List TriageProposalDecision :=
  proposal.decisions.filter (·.taskId ∈ decisionsToApply)

section Proposals

variable {s : BeadsStore} {proposal : TriageProposal} {decisionsToApply : List TaskId}

theorem mem_appliedDecisions {decision : TriageProposalDecision} :
    decision ∈ appliedDecisions proposal decisionsToApply ↔
      decision ∈ proposal.decisions ∧ decision.taskId ∈ decisionsToApply := by
  rw [appliedDecisions, List.mem_filter, decide_eq_true_eq]

theorem distinct_appliedDecisions (h : ProposalStored s proposal) :
    ((appliedDecisions proposal decisionsToApply).map (·.taskId)).Nodup :=
  h.distinct.sublist (List.filter_sublist.map _)

theorem projectsDecided_loop (h : ProposalStored s proposal) :
    ProjectsDecided s proposal decisionsToApply ↔
      ∃ t, (applyDecisions (appliedDecisions proposal decisionsToApply)).run s = (.ok (), t) ∧
        ∀ decision ∈ appliedDecisions proposal decisionsToApply, Shows t decision := by
  have hstay : s.command (fun s => s) = s := command_eq h.calm h.calm
  have hboard := run_bdCommand h.calm "tasks list" (fun s => s)
    fun s => s.issues.map BeadsIssue.projection
  rw [hstay] at hboard
  obtain ⟨edges, hedges⟩ : ∃ edges : List TriageDependencySuggestion,
      (applyTriageProposal proposal decisionsToApply).run s =
        ((applyDecisions (appliedDecisions proposal decisionsToApply)).bind fun _ =>
          addTriageEdges edges).run s :=
    ⟨_, Prog.run_bind_ok hboard _⟩
  have hmem : ∀ {decision}, decision ∈ appliedDecisions proposal decisionsToApply ↔
      decision ∈ proposal.decisions ∧ decision.taskId ∈ decisionsToApply := mem_appliedDecisions
  rw [ProjectsDecided, hedges]
  -- The edges come last, and the board shows the same with them and without them.
  have hlast : ∀ u, (applyDecisions (appliedDecisions proposal decisionsToApply)).run s =
      (.ok (), u) → ∃ t, (addTriageEdges edges).run u = (.ok (), t) ∧ t.outages = [] ∧
        ∀ id, t.issue id = u.issue id := by
    intro u hrun
    have hcalm := (told_of_shown h.calm (distinct_appliedDecisions h)
      (fun decision hdecision => h.proper decision (hmem.mp hdecision).1)
      (fun decision hdecision => h.stored decision (hmem.mp hdecision).1) hrun).1
    obtain ⟨t, hadd, ht, hissues⟩ := run_addTriageEdges edges hcalm
    exact ⟨t, hadd, ht, issue_congr hissues⟩
  constructor
  · rintro ⟨t, hrun, hshown⟩
    obtain ⟨_, u, hfirst, hrest⟩ := (Prog.run_bind_eq_ok).mp hrun
    obtain ⟨t', hadd, ht, hsame⟩ := hlast u hfirst
    have heq : t' = t := (Prod.mk.inj (hadd.symm.trans hrest)).2
    subst heq
    refine ⟨u, hfirst, fun decision hdecision => ?_⟩
    obtain ⟨hin, happly⟩ := hmem.mp hdecision
    obtain ⟨task, hload, hstatus, hlabels⟩ := hshown decision hin happly
    have hstored := stored_applyDecisions (appliedDecisions proposal decisionsToApply)
      (h.stored decision hin)
    rw [hfirst] at hstored
    obtain ⟨issue, hfound⟩ := Option.isSome_iff_exists.mp hstored
    have hloads := run_loadHubTask ⟨ht, (hsame _).trans hfound⟩ (h.proper decision hin)
    have htask : task = issue.projection :=
      Except.ok.inj (Prod.mk.inj (hload.symm.trans hloads)).1
    rw [htask] at hstatus hlabels
    exact ⟨issue, hfound, hstatus, hlabels⟩
  · rintro ⟨u, hrun, hshown⟩
    obtain ⟨t, hadd, ht, hsame⟩ := hlast u hrun
    refine ⟨t, ?_, fun decision hin happly => ?_⟩
    · rw [Prog.run_bind_ok hrun]
      exact hadd
    · obtain ⟨issue, hfound, hshows⟩ := hshown decision (hmem.mpr ⟨hin, happly⟩)
      exact ⟨issue.projection,
        run_loadHubTask ⟨ht, (hsame _).trans hfound⟩ (h.proper decision hin), hshows⟩

/-- Which decisions the board shows after they were applied, over all proposals, all records and
all labels that an agent proposes. -/
theorem projectsDecided_iff (proposal : TriageProposal) (decisionsToApply : List TaskId)
    (h : ProposalStored s proposal) :
    ProjectsDecided s proposal decisionsToApply ↔
      ∀ decision ∈ proposal.decisions, decision.taskId ∈ decisionsToApply →
        ∃ issue, s.issue decision.taskId = some issue ∧ DecisionTold issue decision := by
  have hproper : ∀ decision ∈ appliedDecisions proposal decisionsToApply,
      ProperId decision.taskId :=
    fun decision hdecision => h.proper decision (mem_appliedDecisions.mp hdecision).1
  have hstored : ∀ decision ∈ appliedDecisions proposal decisionsToApply,
      (s.issue decision.taskId).isSome = true :=
    fun decision hdecision => h.stored decision (mem_appliedDecisions.mp hdecision).1
  rw [projectsDecided_loop h]
  constructor
  · rintro ⟨t, hrun, hshown⟩ decision hin happly
    exact (told_of_shown h.calm (distinct_appliedDecisions h) hproper hstored hrun).2 hshown
      decision (mem_appliedDecisions.mpr ⟨hin, happly⟩)
  · intro htold
    obtain ⟨t, hrun, -, hshown, -⟩ := run_applyDecisions h.calm (distinct_appliedDecisions h)
      hproper fun decision hdecision =>
        htold decision (mem_appliedDecisions.mp hdecision).1
          (mem_appliedDecisions.mp hdecision).2
    exact ⟨t, hrun, hshown⟩

end Proposals

def inboxTask : BeadsIssue where
  id := "bd-1"
  title := "Fix login"
  labels := ["needs-triage", "bug"]
  metadata := [("hubStatus", .str "inbox")]

/-- A proposal to hand the task to an agent, with labels of the agent's choice. -/
def handOver (labels : List String) : TriageProposal where
  decisions := [{ taskId := "bd-1", outcome := .readyForAgent, labels }]

theorem proposalStored_handOver (labels : List String) :
    ProposalStored { issues := [inboxTask] } (handOver labels) where
  calm := rfl
  distinct := by simp [handOver]
  proper := by
    intro decision hdecision
    rw [List.mem_singleton.mp hdecision]
    exact ⟨(by decide : trim "bd-1" = "bd-1"), (by decide : "bd-1" ≠ "")⟩
  stored := by
    intro decision hdecision
    rw [List.mem_singleton.mp hdecision]
    rfl

theorem projectsDecided_handOver :
    ProjectsDecided { issues := [inboxTask] } (handOver ["login"]) ["bd-1"] := by
  refine (projectsDecided_iff _ _ (proposalStored_handOver _)).mpr fun decision hdecision _ => ?_
  rw [List.mem_singleton.mp hdecision]
  refine ⟨inboxTask, rfl, ⟨Or.inr ⟨by decide, ?_⟩, ?_, ⟨by decide, ?_⟩, by decide +kernel⟩⟩
  · rw [if_neg (by decide)]
    exact Or.inr (by decide +kernel)
  · decide +kernel
  · rfl

/-- The agent proposes the label `blocked` for a task that it finds ready. The board has two labels
of a status then. -/
theorem blocked_label_stays :
    inboxTask.projection.hubStatus ∈ HUB_TRIAGE_SOURCE_STATUSES ∧
      ¬ProjectsDecided { issues := [inboxTask] } (handOver ["blocked"]) ["bd-1"] := by
  refine ⟨by decide +kernel, fun h => ?_⟩
  have hstored := proposalStored_handOver ["blocked"]
  obtain ⟨t, hrun, hshown⟩ := (projectsDecided_loop hstored).mp h
  have hdecision : { taskId := "bd-1", outcome := .readyForAgent, labels := ["blocked"] } ∈
      appliedDecisions (handOver ["blocked"]) ["bd-1"] := by decide
  obtain ⟨issue, -, htold⟩ := (told_of_shown hstored.calm (distinct_appliedDecisions hstored)
    (fun decision hmem => hstored.proper decision (mem_appliedDecisions.mp hmem).1)
    (fun decision hmem => hstored.stored decision (mem_appliedDecisions.mp hmem).1) hrun).2
      hshown _ hdecision
  have hlabel := htold.proposed "blocked" (by decide +kernel) (by decide +kernel)
  exact absurd hlabel (by decide)

end ArchLoop.TaskBoard
