import ArchLoop.Proofs.StatusAgreement

/-!
# `ArchLoop.Proofs.InterruptedTransition`: a transition that stops between its two updates

The first update of `transitionHubTaskStatus` merges the new metadata into the stored one, and the
second takes out the keys that went away. A process that dies between them leaves the record
`between`, where the keys of the old status still stand beside the new status. The board reads the
reasons of the old status first (`reasonBetween`), and a claim that the transition clears is still
there. `harmless_iff` says when the board shows one of the two statuses with its claim, and the
same transition, made again, leaves the record of one that was not interrupted.
-/

set_option autoImplicit false

namespace ArchLoop.TaskBoard

open ArchLoop.Lib

/-! ### Records that are told apart by no key -/

/-- The issues differ in the order of their metadata at most. -/
structure SameIssue (a b : BeadsIssue) : Prop where
  id : a.id = b.id
  title : a.title = b.title
  description : a.description = b.description
  status : a.status = b.status
  labels : a.labels = b.labels
  metadata : ∀ key, a.metadata.get key = b.metadata.get key

/-- A claim without the record that it was read from. -/
def HubTaskClaimMetadata.fields (claim : HubTaskClaimMetadata) : HubTaskClaimMetadata :=
  { claim with raw := [] }

/-- The claim that the board reads, field by field. -/
def shownClaim (issue : BeadsIssue) : Option HubTaskClaimMetadata :=
  issue.projection.claim.map HubTaskClaimMetadata.fields

def fieldsOf (r : Record) : HubTaskClaimMetadata where
  runId := readFirstString r ["runId", "run_id"]
  batchId := readFirstString r ["batchId", "batch_id"]
  taskId := readFirstString r ["taskId", "task_id"]
  branch := readFirstString r ["branch"]
  claimedAt := readFirstString r ["claimedAt", "claimed_at"]
  baseHead := readFirstString r ["baseHead", "base_head"]
  branchExistedBeforeClaim :=
    readBoolean r ["branchExistedBeforeClaim", "branch_existed_before_claim"]
  raw := []

/-- The claim that stands outside of a nested record. -/
def flatFields (r : Record) : Option HubTaskClaimMetadata :=
  if ["runId", "batchId", "branch", "claimedAt"].all fun key =>
      (((r.get key).bind Json.text?).bind nonBlank).isSome then some (fieldsOf r)
  else none

theorem shownClaim_eq (issue : BeadsIssue) : shownClaim issue =
    if readObject (coalesce issue.metadata ["claim", "hubClaim", "hub_claim", "taskClaim"]) = []
    then flatFields issue.metadata
    else some (fieldsOf (readObject
      (coalesce issue.metadata ["claim", "hubClaim", "hub_claim", "taskClaim"]))) := by
  show ((readHubTaskClaim issue.metadata).map _) = _
  rw [readHubTaskClaim, Option.map_map, readClaimRecord, flatFields]
  cases readObject (coalesce issue.metadata ["claim", "hubClaim", "hub_claim", "taskClaim"]) with
  | cons entry entries => rfl
  | nil =>
    rw [if_pos rfl]
    dsimp only
    split
    · rfl
    · rfl

section Congruence

variable {r t : Record}

theorem readFirstString_congr {keys : List String} (h : ∀ key ∈ keys, r.get key = t.get key) :
    readFirstString r keys = readFirstString t keys := by
  induction keys with
  | nil => rfl
  | cons key keys ih =>
    have hrest := ih fun k hk => h k (List.mem_cons_of_mem _ hk)
    rw [readFirstString, readFirstString] at hrest ⊢
    rw [List.findSome?_cons, List.findSome?_cons, h key List.mem_cons_self, hrest]

theorem readBoolean_congr {keys : List String} (h : ∀ key ∈ keys, r.get key = t.get key) :
    readBoolean r keys = readBoolean t keys := by
  induction keys with
  | nil => rfl
  | cons key keys ih =>
    have hrest := ih fun k hk => h k (List.mem_cons_of_mem _ hk)
    rw [readBoolean, readBoolean] at hrest ⊢
    rw [List.findSome?_cons, List.findSome?_cons, h key List.mem_cons_self, hrest]

/-- The keys of a claim that stands outside of a nested record. -/
def FLAT_CLAIM_KEYS : List String :=
  ["runId", "run_id", "batchId", "batch_id", "taskId", "task_id", "branch", "claimedAt",
    "claimed_at", "baseHead", "base_head", "branchExistedBeforeClaim",
    "branch_existed_before_claim"]

theorem flatFields_congr (h : ∀ key ∈ FLAT_CLAIM_KEYS, r.get key = t.get key) :
    flatFields r = flatFields t := by
  have hfields : fieldsOf r = fieldsOf t := by
    rw [fieldsOf, fieldsOf]
    congr 1
    all_goals first | apply readFirstString_congr | apply readBoolean_congr
    all_goals
      intro key hkey
      exact h key (by revert key; decide)
  have hset : (["runId", "batchId", "branch", "claimedAt"].all fun key =>
      (((r.get key).bind Json.text?).bind nonBlank).isSome) =
      ["runId", "batchId", "branch", "claimedAt"].all fun key =>
        (((t.get key).bind Json.text?).bind nonBlank).isSome := by
    simp only [List.all_cons, List.all_nil]
    rw [h "runId" (by decide), h "batchId" (by decide), h "branch" (by decide),
      h "claimedAt" (by decide)]
  rw [flatFields, flatFields, hset, hfields]

end Congruence

namespace SameIssue

variable {a b : BeadsIssue}

theorem shownClaim_eq (h : SameIssue a b) : shownClaim a = shownClaim b := by
  have hnested : coalesce a.metadata ["claim", "hubClaim", "hub_claim", "taskClaim"] =
      coalesce b.metadata ["claim", "hubClaim", "hub_claim", "taskClaim"] :=
    coalesce_congr fun key _ => h.metadata key
  have hflat : flatFields a.metadata = flatFields b.metadata :=
    flatFields_congr fun key _ => h.metadata key
  rw [TaskBoard.shownClaim_eq, TaskBoard.shownClaim_eq, hnested, hflat]

theorem projection_labels (h : SameIssue a b) : a.projection.labels = b.projection.labels := by
  show readStringList (some (.arr (a.labels.map .str))) =
    readStringList (some (.arr (b.labels.map .str)))
  rw [h.labels]

theorem hubStatus (h : SameIssue a b) : a.projection.hubStatus = b.projection.hubStatus := by
  have hwritten : resolveMetadataStatus a.metadata = resolveMetadataStatus b.metadata := by
    simp only [resolveMetadataStatus, h.metadata]
  have hreason : resolveStatusFromMetadataReasons a.metadata =
      resolveStatusFromMetadataReasons b.metadata := by
    have hset : ∀ keys, hasTruthyMetadata a.metadata keys = hasTruthyMetadata b.metadata keys := by
      intro keys
      simp only [hasTruthyMetadata, h.metadata]
    rw [reasons_eq, reasons_eq]
    simp only [hset]
  have hlifecycle : readFirstString a.record BEADS_LIFECYCLE_KEYS =
      readFirstString b.record BEADS_LIFECYCLE_KEYS := by
    show readFirstString [("id", .str a.id), ("title", .str a.title),
        ("description", .str a.description), ("status", .str a.status), _, _] _ = _
    rw [h.id, h.title, h.description, h.status]
    rfl
  show resolveStatusFromTaskShape a.record a.projection.labels a.metadata =
    resolveStatusFromTaskShape b.record b.projection.labels b.metadata
  have hdirect : ∀ issue : BeadsIssue,
      (readFirstString issue.record TASK_STATUS_KEYS).bind normalizeHubTaskStatus = none :=
    fun _ => rfl
  rw [resolveStatusFromTaskShape, resolveStatusFromTaskShape, hdirect, hdirect, hwritten, hreason,
    hlifecycle, h.projection_labels]

theorem assert_ok (h : SameIssue a b) (status : HubTaskStatus) :
    assertHubTaskTransition a.projection status = .ok () ↔
      assertHubTaskTransition b.projection status = .ok () := by
  have hmanaged : managedLabels a.projection = managedLabels b.projection := by
    rw [managedLabels, managedLabels, h.projection_labels]
  have hclaim := h.shownClaim_eq
  have hid : a.projection.id = b.projection.id := h.id
  have hpolicy : assertHubTaskClaimPolicy a.projection status =
      assertHubTaskClaimPolicy b.projection status := by
    unfold shownClaim at hclaim
    rw [assertHubTaskClaimPolicy, assertHubTaskClaimPolicy, hid]
    cases ha : a.projection.claim with
    | none =>
      cases hb : b.projection.claim with
      | none => rfl
      | some claim =>
        rw [ha, hb] at hclaim
        cases hclaim
    | some claim =>
      cases hb : b.projection.claim with
      | none =>
        rw [ha, hb] at hclaim
        cases hclaim
      | some other =>
        rw [ha, hb, Option.map_some, Option.map_some, Option.some.injEq] at hclaim
        have hrun : claim.fields.runId = other.fields.runId := by rw [hclaim]
        have hbatch : claim.fields.batchId = other.fields.batchId := by rw [hclaim]
        have hbranch : claim.fields.branch = other.fields.branch := by rw [hclaim]
        simp only [HubTaskClaimMetadata.fields] at hrun hbatch hbranch
        simp only [Option.any_some, Option.isSome_some, hrun, hbatch, hbranch]
  have hfailure : assertHubFailureMetadataPolicy a.projection status =
      assertHubFailureMetadataPolicy b.projection status := by
    have hget : a.metadata.get = b.metadata.get := funext h.metadata
    unfold assertHubFailureMetadataPolicy
    rw [metadata_projection, metadata_projection, hid]
    dsimp only
    rw [hget]
  rw [assert_ok_iff, assert_ok_iff, h.hubStatus, hmanaged, hpolicy, hfailure]

end SameIssue

/-! ### The record between the updates -/

def between (issue : BeadsIssue) (input : UpdateHubTaskStatusInput) : BeadsIssue :=
  (transitionUpdate issue.projection input).apply issue

section Between

variable {issue : BeadsIssue} {input : UpdateHubTaskStatusInput} {key : String}

theorem get_between : (between issue input).metadata.get key =
    ((transitionMetadata issue.projection input).get key).or (issue.metadata.get key) := by
  show ((issue.metadata.merge (transitionMetadata issue.projection input)).erase []).get key = _
  rw [Record.get_erase, if_neg List.not_mem_nil, Record.get_merge]

theorem labels_between : (between issue input).labels = newLabels issue input := by
  have hset : (transitionUpdate issue.projection input).setLabels = newLabels issue input :=
    stored_labels
  have hne : (newLabels issue input).isEmpty = false := by
    cases hlabels : newLabels issue input with
    | nil => simp [newLabels] at hlabels
    | cons label labels => rfl
  have hadd : (transitionUpdate issue.projection input).addLabels = [] := rfl
  have hremove : (transitionUpdate issue.projection input).removeLabels = [] := rfl
  simp [between, BdUpdate.apply, hset, hne, hadd, hremove]

theorem projection_labels_between : (between issue input).projection.labels =
    newLabels issue input := by
  show readStringList (some (.arr ((between issue input).labels.map .str))) = _
  rw [labels_between, newLabels, ← pieces_canonical, ← normalizeBdLabels_append,
    readStringList_pieces]

theorem get_between_given (hown : key ∉ ["failed", "failureReason", "claim", "hubStatus"])
    (hstale : key ∉ staleKeys input.hubStatus (givenConflict issue.metadata input)) :
    (between issue input).metadata.get key = givenValue issue.metadata input key := by
  have hnew := get_transitioned_given hown hstale
  rw [get_transitioned] at hnew
  rw [get_between, hnew, givenValue, Option.or_assoc, Option.or_self]

theorem get_between_stale (hown : key ∉ ["failed", "failureReason", "claim"])
    (hstale : key ∈ staleKeys input.hubStatus (givenConflict issue.metadata input)) :
    (between issue input).metadata.get key = issue.metadata.get key := by
  simp only [List.mem_cons, List.not_mem_nil, or_false, not_or] at hown
  rw [get_between, get_transitionMetadata, if_neg hown.1, if_neg hown.2.1, if_neg hown.2.2,
    if_pos hstale, Option.none_or]

theorem get_between_claim : (between issue input).metadata.get "claim" =
    ((resolveTransitionClaim issue.projection input).map .obj).or
      (issue.metadata.get "claim") := by
  rw [get_between, ← get_transitioned, get_claim]

/-- The crash after the first update, which is the third command. -/
def interrupted (s : BeadsStore) (input : UpdateHubTaskStatusInput) : BeadsStore :=
  (transitionHubTaskStatus input).crashAfter 3 s

theorem holds_interrupted {s : BeadsStore} (h : Holds s input.taskId issue)
    (hid : ProperId input.taskId) :
    Holds (interrupted s input) input.taskId (between issue input) := by
  have hstay : s.command (fun s => s) = s := command_eq h.calm h.calm
  have hdone := outcome_done h.calm
  have hwrite : s.command (fun s => s.changeIssue input.taskId
      (transitionUpdate issue.projection input).apply) =
      s.changeIssue input.taskId (transitionUpdate issue.projection input).apply :=
    command_eq h.calm h.calm
  have hstore : interrupted s input =
      s.changeIssue input.taskId (transitionUpdate issue.projection input).apply := by
    have hload : issue.projection.id = input.taskId := h.id_eq
    have hfound := h.found
    unfold interrupted transitionHubTaskStatus loadHubTask resolveHubTaskSelector
    rw [hid.trimmed, if_neg hid.nonempty]
    simp only [showTask, bdCommand, Prog.bind, Prog.attempt, Prog.tryCatch, Prog.crashAfter,
      Prog.stepsRun, hstay, hdone, if_true, hfound]
    rw [hload, hfound]
    simp only [Prog.bind, writeTransition, bdUpdate, bdCommand, Prog.stepsRun_act,
      Prog.stepsRun_zero]
    exact hwrite
  rw [hstore]
  exact h.change (id_apply _)

end Between

/-! ### The labels of the second attempt -/

section

variable {α : Type} [BEq α] [LawfulBEq α]

theorem nodup_eraseDups (l : List α) : l.eraseDups.Nodup := by
  induction hlength : l.length using Nat.strong_induction_on generalizing l with
  | _ n ih =>
    cases l with
    | nil => exact List.Pairwise.nil
    | cons a as =>
      rw [List.length_cons] at hlength
      have hshort := List.length_filter_le (fun b => !b == a) as
      rw [List.eraseDups_cons, List.nodup_cons]
      refine ⟨fun hmem => ?_, ih _ (by omega) _ rfl⟩
      have hne := (List.mem_filter.mp (List.mem_eraseDups.mp hmem)).2
      simp at hne

theorem eraseDups_of_nodup {l : List α} (h : l.Nodup) : l.eraseDups = l := by
  induction l with
  | nil => rfl
  | cons a as ih =>
    rw [List.nodup_cons] at h
    have hkeep : as.filter (fun b => !b == a) = as := by
      refine List.filter_eq_self.mpr fun b hb => ?_
      have hne : b ≠ a := fun heq => h.1 (heq ▸ hb)
      simp [hne]
    rw [List.eraseDups_cons, hkeep, ih h.2]

end

section Labels

variable {issue : BeadsIssue} {input : UpdateHubTaskStatusInput}

/-- The pieces of the labels that a transition keeps. -/
def keptPieces (issue : BeadsIssue) (input : UpdateHubTaskStatusInput) : List String :=
  normalizeBdLabels (uniqueStrings (keptLabels issue input))

theorem comma_notMem_splitAt {text piece : String} (h : piece ∈ splitAt ',' text) :
    ',' ∉ piece.toList := by
  obtain ⟨chars, hchars, rfl⟩ := List.mem_map.mp h
  rw [String.toList_ofList]
  exact notMem_of_mem_splitOn hchars

theorem mem_of_mem_trim {text : String} {c : Char} (h : c ∈ (trim text).toList) :
    c ∈ text.toList := by
  rw [trim, String.toList_ofList] at h
  exact (List.dropWhile_suffix _).subset ((List.rdropWhile_prefix isBlank _).subset h)

theorem pieces_piece {labels : List String} {piece : String}
    (h : piece ∈ normalizeBdLabels labels) : normalizeBdLabels [piece] = [piece] := by
  obtain ⟨hmem, hne⟩ := List.mem_filter.mp h
  obtain ⟨raw, hraw, rfl⟩ := List.mem_map.mp hmem
  obtain ⟨label, -, hsplit⟩ := List.mem_flatMap.mp hraw
  have hcomma : ',' ∉ (trim raw).toList :=
    fun hc => comma_notMem_splitAt hsplit (mem_of_mem_trim hc)
  have hone : splitAt ',' (trim raw) = [trim raw] := by
    rw [splitAt, List.splitOn_eq_singleton hcomma, List.map_singleton, String.ofList_toList]
  rw [normalizeBdLabels, List.flatMap_singleton, hone, List.map_singleton, trim_trim]
  exact List.filter_cons_of_pos hne

theorem pieces_of_subset {labels pieces : List String} (h : pieces ⊆ normalizeBdLabels labels) :
    normalizeBdLabels pieces = pieces := by
  induction pieces with
  | nil => rfl
  | cons piece pieces ih =>
    have hrest := ih fun p hp => h (List.mem_cons_of_mem _ hp)
    have happend := normalizeBdLabels_append [piece] pieces
    rw [List.singleton_append] at happend
    rw [happend, pieces_piece (h List.mem_cons_self), hrest, List.singleton_append]

/-- No piece comes twice, is managed or is to be taken away. -/
structure LabelsStay (issue : BeadsIssue) (input : UpdateHubTaskStatusInput) : Prop where
  distinct : (keptPieces issue input).Nodup
  unmanaged : ∀ piece ∈ keptPieces issue input, isManaged piece = false
  wanted : ∀ piece ∈ keptPieces issue input, piece ∉ input.labelsToRemove

theorem keptLabels_between : keptLabels (between issue input) input =
    (keptPieces issue input).filter fun label =>
      normalizeKey label ∉ ARCHLOOP_MANAGED_STATUS_LABELS && label ∉ input.labelsToRemove := by
  have hmanaged : normalizeKey (HUB_STATUS_LABELS input.hubStatus) ∈
      ARCHLOOP_MANAGED_STATUS_LABELS := of_decide_eq_true (isManaged_canonical input.hubStatus)
  rw [keptLabels, projection_labels_between, newLabels, List.filter_append,
    List.filter_cons_of_neg (by simp [hmanaged]), List.filter_nil, List.append_nil]
  rfl

theorem newLabels_between :
    newLabels (between issue input) input = newLabels issue input ↔ LabelsStay issue input := by
  have hsubset : uniqueStrings (keptLabels (between issue input) input) ⊆
      normalizeBdLabels (uniqueStrings (keptLabels issue input)) := by
    intro piece hpiece
    rw [uniqueStrings, List.mem_eraseDups, keptLabels_between] at hpiece
    exact List.mem_of_mem_filter hpiece
  have hpieces : newLabels (between issue input) input =
      uniqueStrings (keptLabels (between issue input) input) ++
        [HUB_STATUS_LABELS input.hubStatus] := by
    rw [newLabels, pieces_of_subset hsubset]
  have hnew : newLabels issue input =
      keptPieces issue input ++ [HUB_STATUS_LABELS input.hubStatus] := rfl
  rw [hpieces, hnew, List.append_left_inj, uniqueStrings, keptLabels_between]
  constructor
  · intro h
    have hgood : ∀ piece ∈ keptPieces issue input,
        normalizeKey piece ∉ ARCHLOOP_MANAGED_STATUS_LABELS ∧ piece ∉ input.labelsToRemove := by
      intro piece hpiece
      rw [← h, List.mem_eraseDups] at hpiece
      simpa using (List.mem_filter.mp hpiece).2
    refine ⟨h ▸ nodup_eraseDups _, fun piece hpiece => ?_,
      fun piece hpiece => (hgood piece hpiece).2⟩
    rw [isManaged, decide_eq_false_iff_not]
    exact (hgood piece hpiece).1
  · intro h
    have hkeep : (keptPieces issue input).filter (fun label =>
        normalizeKey label ∉ ARCHLOOP_MANAGED_STATUS_LABELS && label ∉ input.labelsToRemove) =
        keptPieces issue input := by
      refine List.filter_eq_self.mpr fun piece hpiece => ?_
      have hunmanaged := h.unmanaged piece hpiece
      rw [isManaged, decide_eq_false_iff_not] at hunmanaged
      simp [hunmanaged, h.wanted piece hpiece]
    rw [hkeep, eraseDups_of_nodup h.distinct]

end Labels

/-! ### The metadata of the second attempt -/

section Again

variable {issue : BeadsIssue} {input : UpdateHubTaskStatusInput} {key : String}

def CLAIM_NAMES : List String := ["claim", "hubClaim", "hub_claim", "taskClaim"]

def nestedClaim (issue : BeadsIssue) : Record := readObject (coalesce issue.metadata CLAIM_NAMES)

def otherClaim (issue : BeadsIssue) : Record :=
  readObject (coalesce issue.metadata ["hubClaim", "hub_claim", "taskClaim"])

/-- The fields of a claim that stand outside of one are taken for the claim that is missing. -/
def flatAdopted (issue : BeadsIssue) (input : UpdateHubTaskStatusInput) : Bool :=
  !shouldClearClaimForStatus input.hubStatus && flatClaim issue input &&
    match takenClaim issue input with
    | none => true
    | some claim => claim.isEmpty && !input.replaceClaimMetadata

theorem get_between_other {key : String} (h : key ∈ ["hubClaim", "hub_claim", "taskClaim"]) :
    (between issue input).metadata.get key = issue.metadata.get key := by
  have hnew : (transitioned issue input).metadata.get key = issue.metadata.get key :=
    get_claim_alias h
  rw [get_transitioned] at hnew
  rw [get_between, hnew, Option.or_self]

theorem flat_between : (["runId", "batchId", "branch", "claimedAt"].all fun key =>
      ((((between issue input).metadata.get key).bind Json.text?).bind nonBlank).isSome) =
    flatClaim issue input := by
  have hget : ∀ key ∈ ["runId", "batchId", "branch", "claimedAt"],
      (between issue input).metadata.get key = givenValue issue.metadata input key := by
    intro key hkey
    have hfacts : ∀ k ∈ ["runId", "batchId", "branch", "claimedAt"],
        k ∉ ["failed", "failureReason", "claim", "hubStatus"] ∧ k ∉ REASON_KEYS := by decide
    exact get_between_given (hfacts key hkey).1 (not_stale_of_not_reason (hfacts key hkey).2)
  simp only [List.mem_cons, List.not_mem_nil, or_false, forall_eq_or_imp, forall_eq] at hget
  simp [flatClaim, hget]

theorem nestedClaim_between_some {claim : Record}
    (h : resolveTransitionClaim issue.projection input = some claim) :
    nestedClaim (between issue input) = claim := by
  rw [nestedClaim, CLAIM_NAMES, coalesce, List.findSome?_cons, get_between_claim, h]
  rfl

theorem nestedClaim_between_none (h : resolveTransitionClaim issue.projection input = none) :
    nestedClaim (between issue input) = nestedClaim issue := by
  rw [nestedClaim, nestedClaim]
  congr 1
  refine coalesce_congr fun key hkey => ?_
  rw [CLAIM_NAMES, List.mem_cons] at hkey
  rcases hkey with rfl | hother
  · rw [get_between_claim, h, Option.map_none, Option.none_or]
  · exact get_between_other hother

theorem between_ne_nil : (between issue input).metadata ≠ [] := by
  intro hnil
  have hstatus : (between issue input).metadata.get "hubStatus" =
      some (.str (statusText input.hubStatus)) := by
    rw [get_between, get_transitionMetadata, if_neg (by decide), if_neg (by decide),
      if_neg (by decide), if_neg (not_stale_of_not_reason (by decide)), if_pos rfl, Option.some_or]
  rw [hnil, Record.get_nil] at hstatus
  cases hstatus

theorem heldClaim_between : heldClaim (between issue input) =
    if nestedClaim (between issue input) = [] then
      if flatClaim issue input then some (between issue input).metadata else none
    else some (nestedClaim (between issue input)) := by
  have hrecord : (between issue input).metadata.isEmpty = false :=
    List.isEmpty_eq_false_iff.mpr between_ne_nil
  rw [heldClaim, readClaimRecord, flat_between, ← CLAIM_NAMES, ← nestedClaim]
  cases nestedClaim (between issue input) with
  | cons entry entries => rfl
  | nil =>
    rw [if_pos rfl]
    cases flatClaim issue input with
    | false => rfl
    | true => simp [hrecord]

theorem nestedClaim_of_unheld (h : heldClaim issue = none) : nestedClaim issue = [] := by
  rw [heldClaim, readClaimRecord, ← CLAIM_NAMES, ← nestedClaim] at h
  cases hnested : nestedClaim issue with
  | nil => rfl
  | cons entry entries =>
    rw [hnested] at h
    simp at h

theorem heldClaim_ne {claim : Record} (h : heldClaim issue = some claim) : claim ≠ [] := by
  rintro rfl
  have hfilter := (Option.filter_eq_some_iff.mp h).2
  simp at hfilter

/-- The second attempt writes the same claim, unless it adopts the fields outside. -/
theorem claim_again : resolveTransitionClaim (between issue input).projection input =
    resolveTransitionClaim issue.projection input ↔ flatAdopted issue input = false := by
  cases hclear : shouldClearClaimForStatus input.hubStatus with
  | true => simp [resolveTransitionClaim, flatAdopted, hclear]
  | false =>
    have htaken : resolveTransitionClaim issue.projection input = takenClaim issue input :=
      taken_eq hclear
    rw [taken_eq hclear, htaken, flatAdopted, hclear]
    have hheld : heldClaim (between issue input) = _ := heldClaim_between
    cases htake : takenClaim issue input with
    | none =>
      -- There is no claim to take, so only the fields outside can be adopted.
      have hnone : heldClaim issue = none ∧ readPatchClaimRecord input.metadata = none := by
        unfold takenClaim at htake
        split at htake
        · exact (Option.or_eq_none_iff.mp htake).symm
        · exact Option.or_eq_none_iff.mp htake
      rw [nestedClaim_between_none (htaken.trans htake), nestedClaim_of_unheld hnone.1,
        if_pos rfl] at hheld
      have hagain : takenClaim (between issue input) input = heldClaim (between issue input) := by
        unfold takenClaim
        rw [hnone.2]
        simp
      rw [hagain, hheld]
      cases flatClaim issue input with
      | false => simp
      | true => simp
    | some claim =>
      rw [nestedClaim_between_some (htaken.trans htake)] at hheld
      unfold takenClaim at htake ⊢
      cases hreplace : input.replaceClaimMetadata with
      | true =>
        rw [hreplace, if_pos rfl] at htake
        rw [if_pos rfl]
        have hpatch : (readPatchClaimRecord input.metadata).or (heldClaim (between issue input)) =
            some claim := by
          cases hpatch : readPatchClaimRecord input.metadata with
          | some patch =>
            rw [hpatch] at htake
            exact htake
          | none =>
            rw [hpatch, Option.none_or] at htake
            rw [Option.none_or, hheld, if_neg (heldClaim_ne htake)]
        rw [hpatch]
        simp
      | false =>
        rw [hreplace, if_neg Bool.false_ne_true] at htake
        rw [if_neg Bool.false_ne_true, hheld]
        cases claim with
        | cons entry entries => simp
        | nil =>
          have hnone : heldClaim issue = none := by
            cases hstored : heldClaim issue with
            | none => rfl
            | some held =>
              rw [hstored, Option.some_or] at htake
              exact absurd (Option.some.inj htake) (heldClaim_ne hstored)
          rw [hnone, Option.none_or] at htake
          rw [htake, if_pos rfl]
          cases flatClaim issue input with
          | false => simp
          | true => simp [between_ne_nil]

theorem givenValue_between (hown : key ∉ ["failed", "failureReason", "claim", "hubStatus"])
    (hstale : key ∉ staleKeys input.hubStatus (givenConflict issue.metadata input)) :
    givenValue (between issue input).metadata input key = givenValue issue.metadata input key := by
  have hvalue := get_between_given hown hstale
  rw [givenValue, hvalue, givenValue, ← Option.or_assoc, Option.or_self]

theorem givenConflict_between : givenConflict (between issue input).metadata input =
    givenConflict issue.metadata input := by
  rw [givenConflict, givenConflict,
    givenValue_between (by decide) (not_stale_of_not_reason (by decide))]

theorem get_again (hclaim : resolveTransitionClaim (between issue input).projection input =
      resolveTransitionClaim issue.projection input) :
    (transitionMetadata (between issue input).projection input).get key =
      (transitionMetadata issue.projection input).get key := by
  rw [get_transitionMetadata, get_transitionMetadata, hclaim, givenConflict_between]
  -- What a transition computes is computed again; only a given value is read from the record.
  have hgiven : key ∉ ["failed", "failureReason", "claim", "hubStatus"] →
      key ∉ staleKeys input.hubStatus (givenConflict issue.metadata input) →
      givenValue (between issue input).metadata input key =
        givenValue issue.metadata input key := givenValue_between
  split
  · rfl
  split
  · rfl
  split
  · rfl
  split
  · rfl
  split
  · rfl
  rename_i hfailed hreason hname hstale hstatus
  exact hgiven (by simp [hfailed, hreason, hname, hstatus]) hstale

theorem id_transitioned : (transitioned issue input).id = issue.id := by
  rw [transitioned]
  split <;> rfl

theorem title_transitioned : (transitioned issue input).title = issue.title := by
  rw [transitioned]
  split <;> rfl

theorem description_transitioned : (transitioned issue input).description = issue.description := by
  rw [transitioned]
  split <;> rfl

theorem status_transitioned :
    (transitioned issue input).status = HUB_STATUS_BEADS_LIFECYCLE input.hubStatus := by
  rw [transitioned]
  split <;> rfl

theorem sameIssue_again :
    SameIssue (transitioned (between issue input) input) (transitioned issue input) ↔
      LabelsStay issue input ∧ flatAdopted issue input = false := by
  rw [← newLabels_between, ← claim_again]
  constructor
  · intro h
    have hlabels := h.labels
    rw [labels_transitioned, labels_transitioned] at hlabels
    have hclaim := h.metadata "claim"
    rw [get_claim, get_claim] at hclaim
    refine ⟨hlabels, ?_⟩
    cases hnew : resolveTransitionClaim issue.projection input with
    | none =>
      rw [hnew, Option.map_none, Option.map_eq_none_iff] at hclaim
      exact hclaim
    | some claim =>
      rw [hnew, Option.map_some, Option.map_eq_some_iff] at hclaim
      obtain ⟨again, hagain, hsame⟩ := hclaim
      rw [hagain, Json.obj.inj hsame]
  · rintro ⟨hlabels, hclaim⟩
    refine ⟨?_, ?_, ?_, ?_, ?_, fun key => ?_⟩
    · rw [id_transitioned, id_transitioned]
      rfl
    · rw [title_transitioned, title_transitioned]
      rfl
    · rw [description_transitioned, description_transitioned]
      rfl
    · rw [status_transitioned, status_transitioned]
    · rw [labels_transitioned, labels_transitioned, hlabels]
    · rw [get_transitioned, get_transitioned, get_again hclaim]

/-! ### When a transition passes its assertions -/

/-- What the claim has to be: none is left, or a complete one where the status asks for it. -/
def ClaimShown (issue : BeadsIssue) (input : UpdateHubTaskStatusInput) : Prop :=
  if shouldClearClaimForStatus input.hubStatus then
    otherClaim issue = [] ∧ flatClaim issue input = false
  else input.hubStatus ∈ CLAIM_REQUIRED_STATUSES →
    claimComplete ((takenClaim issue input).getD (otherClaim issue)) = true ∨
      ((takenClaim issue input).getD (otherClaim issue) = [] ∧ flatClaim issue input = true)

structure Succeeds (issue : BeadsIssue) (input : UpdateHubTaskStatusInput) : Prop where
  failure : FailureTold input
  status : StatusTold issue input
  labels : LabelsWhole issue input
  claim : ClaimShown issue input

theorem failureTold_of_policy
    (h : assertHubFailureMetadataPolicy (transitioned issue input).projection input.hubStatus =
      .ok ()) : FailureTold input := by
  have hfailed : (transitioned issue input).metadata.get "failed" =
      input.failureReason.map fun _ => .bool true := by
    rw [get_transitioned, get_transitionMetadata, if_pos rfl]
  by_cases hstatus : input.hubStatus = .failed
  · rw [assertHubFailureMetadataPolicy, if_pos hstatus, metadata_projection, hfailed] at h
    cases hreason : input.failureReason with
    | some reason => simp [FailureTold, hreason, hstatus]
    | none =>
      rw [hreason] at h
      simp at h
  · have hunfailed := unfailed_of_policy h hstatus "failed" (by decide)
    rw [metadata_projection, hfailed, Option.map_eq_none_iff] at hunfailed
    simp [FailureTold, hunfailed, hstatus]

theorem claimShown_iff :
    assertHubTaskClaimPolicy (transitioned issue input).projection input.hubStatus = .ok () ↔
      ClaimShown issue input := by
  rw [assertHubTaskClaimPolicy, ClaimShown]
  cases hclear : shouldClearClaimForStatus input.hubStatus with
  | true =>
    have hnot : input.hubStatus ∉ CLAIM_REQUIRED_STATUSES := by
      intro hmem
      revert hclear
      generalize input.hubStatus = status at hmem
      revert hmem
      cases status <;> decide
    rw [otherClaim, ← claim_cleared hclear]
    cases (transitioned issue input).projection.claim with
    | none => simp [hnot]
    | some claim => simp
  | false =>
    by_cases hmem : input.hubStatus ∈ CLAIM_REQUIRED_STATUSES
    · have hshown : ((transitioned issue input).projection.claim.any fun claim =>
          claim.runId.isSome && claim.batchId.isSome && claim.branch.isSome) =
          (claimComplete ((takenClaim issue input).getD (otherClaim issue)) ||
            (((takenClaim issue input).getD (otherClaim issue)).isEmpty &&
              flatClaim issue input)) := by
        have htaken : resolveTransitionClaim issue.projection input = takenClaim issue input :=
          taken_eq hclear
        cases htake : takenClaim issue input with
        | some claim => exact claim_taken (htaken.trans htake)
        | none =>
          refine claim_shown ?_
          rw [coalesce_unclaimed (htaken.trans htake)]
          rfl
      rw [hshown]
      generalize (takenClaim issue input).getD (otherClaim issue) = claim
      simp only [hmem, Bool.false_and, Bool.false_eq_true, if_false, decide_true, Bool.true_and,
        forall_true_left]
      cases hcomplete : claimComplete claim with
      | true => simp
      | false =>
        cases claim with
        | cons entry entries => simp
        | nil =>
          cases flatClaim issue input with
          | true => simp
          | false => simp
    · simp [hmem]

theorem succeeds_iff :
    assertHubTaskTransition (transitioned issue input).projection input.hubStatus = .ok () ↔
      Succeeds issue input := by
  rw [assert_ok_iff, managedLabels_iff, claimShown_iff]
  constructor
  · rintro ⟨hstatus, hlabels, hclaim, hfailure⟩
    have htold := failureTold_of_policy hfailure
    exact ⟨htold, (hubStatus_transitioned htold hlabels).mp hstatus, hlabels, hclaim⟩
  · intro h
    exact ⟨(hubStatus_transitioned h.failure h.labels).mpr h.status, h.labels, h.claim,
      failurePolicy_ok h.failure⟩

end Again

/-! ### What the board shows between the updates -/

section Shown

variable {issue : BeadsIssue} {input : UpdateHubTaskStatusInput} {key : String}

/-- The first reason that the board finds between the updates. The reasons that the transition
takes out still have their old keys, the others have the given ones. -/
def reasonBetween (issue : BeadsIssue) (input : UpdateHubTaskStatusInput) :
    Option HubTaskStatus :=
  let set := fun (kept : Bool) keys =>
    if kept then givenSet issue input keys else hasTruthyMetadata issue.metadata keys
  if set (input.hubStatus = .blocked) BLOCKED_METADATA_KEYS then some .blocked
  else if set (input.hubStatus = .needsInfo) NEEDS_INFO_METADATA_KEYS then some .needsInfo
  else if input.hubStatus = .failed || givenSet issue input ["failedReason"] ||
      hasTruthyMetadata issue.metadata FAILURE_METADATA_KEYS then some .failed
  else if set (input.hubStatus = .syncConflict || givenConflict issue.metadata input)
      SYNC_CONFLICT_METADATA_KEYS then some .syncConflict
  else if set (input.hubStatus = .wontfix) WONTFIX_METADATA_KEYS then some .wontfix
  else if set (input.hubStatus = .done) DONE_METADATA_KEYS then some .done
  else none

/-- The status that the board shows between the updates of a transition that succeeds. -/
def toldBetween (issue : BeadsIssue) (input : UpdateHubTaskStatusInput) : HubTaskStatus :=
  match reasonBetween issue input with
  | some reason =>
    -- a completed task keeps its status through a sync conflict
    if reason = .syncConflict && isCompletedHubStatus (writtenStatus issue input) then
      writtenStatus issue input
    else reason
  | none => input.hubStatus

theorem truthy_between {keys : List String} {kept : Bool}
    (hown : ∀ key ∈ keys, key ∉ ["failed", "failureReason", "claim", "hubStatus"])
    (hkept : kept = true →
      ∀ key ∈ keys, key ∉ staleKeys input.hubStatus (givenConflict issue.metadata input))
    (hstale : kept = false →
      ∀ key ∈ keys, key ∈ staleKeys input.hubStatus (givenConflict issue.metadata input)) :
    hasTruthyMetadata (between issue input).metadata keys =
      if kept then givenSet issue input keys else hasTruthyMetadata issue.metadata keys := by
  have hget : ∀ key ∈ keys, (between issue input).metadata.get key =
      if kept then givenValue issue.metadata input key else issue.metadata.get key := by
    intro key hkey
    cases kept with
    | true => exact get_between_given (hown key hkey) (hkept rfl key hkey)
    | false =>
      have hmore : ∀ k ∈ ["failed", "failureReason", "claim"],
          k ∈ ["failed", "failureReason", "claim", "hubStatus"] := by decide
      exact get_between_stale (fun hmem => hown key hkey (hmore key hmem)) (hstale rfl key hkey)
  clear hown hkept hstale
  rw [hasTruthyMetadata]
  cases kept with
  | true =>
    rw [if_pos rfl, givenSet]
    induction keys with
    | nil => rfl
    | cons key keys ih =>
      rw [List.any_cons, List.any_cons, hget key List.mem_cons_self, if_pos rfl,
        ih fun k hk => hget k (List.mem_cons_of_mem _ hk)]
  | false =>
    rw [if_neg Bool.false_ne_true, hasTruthyMetadata]
    induction keys with
    | nil => rfl
    | cons key keys ih =>
      rw [List.any_cons, List.any_cons, hget key List.mem_cons_self, if_neg Bool.false_ne_true,
        ih fun k hk => hget k (List.mem_cons_of_mem _ hk)]

theorem truthy_between_group (status : HubTaskStatus) {keys : List String}
    (hown : ∀ key ∈ keys, key ∉ ["failed", "failureReason", "claim", "hubStatus"])
    (hkept : ∀ conflict, ∀ key ∈ keys, key ∉ staleKeys status conflict)
    (hstale : ∀ other conflict, other ≠ status → ∀ key ∈ keys, key ∈ staleKeys other conflict) :
    hasTruthyMetadata (between issue input).metadata keys =
      if decide (input.hubStatus = status) then givenSet issue input keys
      else hasTruthyMetadata issue.metadata keys := by
  refine truthy_between hown (fun hsame => ?_) fun hother => ?_
  · rw [of_decide_eq_true hsame]
    exact hkept _
  · exact hstale _ _ (of_decide_eq_false hother)

theorem truthy_between_conflict :
    hasTruthyMetadata (between issue input).metadata SYNC_CONFLICT_METADATA_KEYS =
      if decide (input.hubStatus = .syncConflict) || givenConflict issue.metadata input then
        givenSet issue input SYNC_CONFLICT_METADATA_KEYS
      else hasTruthyMetadata issue.metadata SYNC_CONFLICT_METADATA_KEYS := by
  have hgroups : ∀ k ∈ SYNC_CONFLICT_METADATA_KEYS, k ∉ FAILURE_METADATA_KEYS ∧
      k ∉ BLOCKED_METADATA_KEYS ∧ k ∉ NEEDS_INFO_METADATA_KEYS ∧
      k ∉ WONTFIX_METADATA_KEYS ∧ k ∉ DONE_METADATA_KEYS := by decide
  have hiff : ∀ k ∈ SYNC_CONFLICT_METADATA_KEYS,
      k ∈ staleKeys input.hubStatus (givenConflict issue.metadata input) ↔
        (decide (input.hubStatus = .syncConflict) || givenConflict issue.metadata input) =
          false := by
    intro k hk
    obtain ⟨hfailure, hblocked, hneeds, hwontfix, hdone⟩ := hgroups k hk
    rw [mem_staleKeys]
    simp [hfailure, hblocked, hneeds, hwontfix, hdone, hk]
  refine truthy_between (by decide) (fun hkept key hkey => ?_) fun hstale key hkey => ?_
  · rw [hiff key hkey, hkept]
    decide
  · exact (hiff key hkey).mpr hstale

theorem truthy_between_failed (h : FailureTold input) :
    hasTruthyMetadata (between issue input).metadata
        ["failed", "failedReason", "failure_reason", "failureReason"] =
      (decide (input.hubStatus = .failed) || givenSet issue input ["failedReason"] ||
        hasTruthyMetadata issue.metadata FAILURE_METADATA_KEYS) := by
  have hgiven : (between issue input).metadata.get "failedReason" =
      givenValue issue.metadata input "failedReason" :=
    get_between_given (by decide) (not_stale_of_not_reason (by decide))
  by_cases hstatus : input.hubStatus = .failed
  · obtain ⟨reason, hreason⟩ := Option.isSome_iff_exists.mp (h.mpr hstatus)
    have hfailed : (between issue input).metadata.get "failed" = some (.bool true) := by
      rw [get_between, get_transitionMetadata, if_pos rfl, hreason]
      rfl
    simp [hasTruthyMetadata, hfailed, hstatus, isSetValue]
  · have hnone : input.failureReason = none := by
      cases hreason : input.failureReason with
      | none => rfl
      | some reason => exact absurd (h.mp (by rw [hreason]; rfl)) hstatus
    have hstored : ∀ k ∈ FAILURE_METADATA_KEYS,
        (between issue input).metadata.get k = issue.metadata.get k := by
      intro k hk
      have hclaim : k ≠ "claim" := by
        rintro rfl
        exact absurd hk (by decide)
      have hstale : k ∈ staleKeys input.hubStatus (givenConflict issue.metadata input) :=
        mem_staleKeys.mpr (Or.inl ⟨hstatus, hk⟩)
      rw [get_between, get_transitionMetadata, hnone, if_neg hclaim, if_pos hstale]
      simp
    simp only [FAILURE_METADATA_KEYS, List.mem_cons, List.not_mem_nil, or_false,
      forall_eq_or_imp, forall_eq] at hstored
    simp only [hasTruthyMetadata, givenSet, FAILURE_METADATA_KEYS, List.any_cons, List.any_nil,
      Bool.or_false, hgiven, hstored, hstatus, decide_false, Bool.false_or]
    cases isSetValue (givenValue issue.metadata input "failedReason") with
    | true => simp
    | false =>
      cases isSetValue (issue.metadata.get "failed") with
      | true => simp
      | false => simp [Bool.or_comm]

theorem reason_between (h : FailureTold input) :
    resolveStatusFromMetadataReasons (between issue input).metadata =
      reasonBetween issue input := by
  have hblocked : hasTruthyMetadata (between issue input).metadata BLOCKED_METADATA_KEYS = _ :=
    truthy_between_group .blocked (by decide) (by decide) (by intro other; cases other <;> decide)
  have hneeds : hasTruthyMetadata (between issue input).metadata NEEDS_INFO_METADATA_KEYS = _ :=
    truthy_between_group .needsInfo (by decide) (by decide)
      (by intro other; cases other <;> decide)
  have hwontfix : hasTruthyMetadata (between issue input).metadata WONTFIX_METADATA_KEYS = _ :=
    truthy_between_group .wontfix (by decide) (by decide) (by intro other; cases other <;> decide)
  have hdone : hasTruthyMetadata (between issue input).metadata DONE_METADATA_KEYS = _ :=
    truthy_between_group .done (by decide) (by decide) (by intro other; cases other <;> decide)
  rw [reasons_eq, hblocked, hneeds, truthy_between_failed h, truthy_between_conflict, hwontfix,
    hdone]
  rfl

theorem resolveMetadataStatus_between :
    resolveMetadataStatus (between issue input).metadata = some (writtenStatus issue input) := by
  have hget : ∀ key ∈ TASK_STATUS_KEYS, (between issue input).metadata.get key =
      (transitioned issue input).metadata.get key := by
    intro key hkey
    have hfacts : ∀ k ∈ TASK_STATUS_KEYS,
        k ∉ ["failed", "failureReason", "claim"] ∧ k ∉ REASON_KEYS := by decide
    obtain ⟨hown, hreason⟩ := hfacts key hkey
    by_cases hstatus : key = "hubStatus"
    · rw [hstatus, get_between, get_transitioned, get_transitionMetadata, if_neg (by decide),
        if_neg (by decide), if_neg (by decide), if_neg (not_stale_of_not_reason (by decide)),
        if_pos rfl, Option.some_or]
    · have hplain : key ∉ ["failed", "failureReason", "claim", "hubStatus"] := by
        simp only [List.mem_cons, List.not_mem_nil, or_false, not_or] at hown ⊢
        exact ⟨hown.1, hown.2.1, hown.2.2, hstatus⟩
      rw [get_between_given hplain (not_stale_of_not_reason hreason),
        get_transitioned_given hplain (not_stale_of_not_reason hreason)]
  rw [← resolveMetadataStatus_transitioned, resolveMetadataStatus, resolveMetadataStatus]
  generalize TASK_STATUS_KEYS = keys at hget
  induction keys with
  | nil => rfl
  | cons key keys ih =>
    rw [List.findSome?_cons, List.findSome?_cons, hget key List.mem_cons_self,
      ih fun k hk => hget k (List.mem_cons_of_mem _ hk)]

theorem reasonLeft_of_between (h : reasonBetween issue input = none) :
    reasonLeft issue input = none := by
  have hset : ∀ {kept : Bool} {keys : List String},
      ¬(if kept then givenSet issue input keys
        else hasTruthyMetadata issue.metadata keys) = true →
      (kept && givenSet issue input keys) = false := by
    intro kept keys hnot
    cases kept with
    | true => simpa using hnot
    | false => rfl
  have hstep : ∀ {c : Prop} [Decidable c] {status : HubTaskStatus} {rest : Option HubTaskStatus},
      (if c then some status else rest) = none → ¬c ∧ rest = none := by
    intro c _ status rest hnone
    by_cases hc : c
    · rw [if_pos hc] at hnone
      cases hnone
    · rw [if_neg hc] at hnone
      exact ⟨hc, hnone⟩
  obtain ⟨hblocked, h⟩ := hstep h
  obtain ⟨hneeds, h⟩ := hstep h
  obtain ⟨hfailed, h⟩ := hstep h
  obtain ⟨hconflict, h⟩ := hstep h
  obtain ⟨hwontfix, h⟩ := hstep h
  obtain ⟨hdone, -⟩ := hstep h
  have hfailed' : (decide (input.hubStatus = .failed) ||
      givenSet issue input ["failedReason"]) = false := by
    rw [Bool.not_eq_true, Bool.or_eq_false_iff] at hfailed
    exact hfailed.1
  unfold reasonLeft
  rw [hset hblocked, hset hneeds, hfailed', hset hconflict, hset hwontfix, hset hdone]
  rfl

theorem hubStatus_between (h : Succeeds issue input) :
    (between issue input).projection.hubStatus = toldBetween issue input := by
  have hdirect : (readFirstString (between issue input).record TASK_STATUS_KEYS).bind
      normalizeHubTaskStatus = none := rfl
  have hshape : (between issue input).projection.hubStatus =
      resolveStatusFromTaskShape (between issue input).record
        (between issue input).projection.labels (between issue input).metadata := rfl
  rw [hshape, projection_labels_between, resolveStatusFromTaskShape, hdirect]
  dsimp only
  rw [reason_between h.failure, resolveMetadataStatus_between, labelStatus_transitioned h.labels,
    toldBetween]
  cases hreason : reasonBetween issue input with
  | some reason => rfl
  | none =>
    have htold := h.status
    rw [StatusTold, reasonLeft_of_between hreason] at htold
    exact (withoutReason_iff _ _ _ _).mpr htold

/-! ### The claim between the updates -/

def givenRecord (issue : BeadsIssue) (input : UpdateHubTaskStatusInput) : Record :=
  issue.metadata.merge
    ((input.metadata.erase TASK_STATUS_KEYS).erase STRUCTURED_METADATA_PATCH_KEYS)

theorem get_givenRecord : (givenRecord issue input).get key =
    givenValue issue.metadata input key := by
  rw [givenRecord, Record.get_merge, Record.get_erase, Record.get_erase, givenValue]
  by_cases hstatus : key ∈ TASK_STATUS_KEYS
  · simp [hstatus]
  · by_cases hstructured : key ∈ STRUCTURED_METADATA_PATCH_KEYS
    · simp [hstructured]
    · simp [hstatus, hstructured]

/-- What the board shows for a nested claim, or for the fields outside where it is empty. -/
def shownAs (issue : BeadsIssue) (input : UpdateHubTaskStatusInput) (claim : Record) :
    Option HubTaskClaimMetadata :=
  if claim = [] then flatFields (givenRecord issue input) else some (fieldsOf claim)

def writtenClaim (issue : BeadsIssue) (input : UpdateHubTaskStatusInput) : Option Record :=
  if shouldClearClaimForStatus input.hubStatus then none else takenClaim issue input

theorem writtenClaim_eq :
    resolveTransitionClaim issue.projection input = writtenClaim issue input := by
  cases hclear : shouldClearClaimForStatus input.hubStatus with
  | true => rw [resolveTransitionClaim, writtenClaim, hclear, if_pos rfl, if_pos rfl]
  | false => rw [taken_eq hclear, writtenClaim, hclear, if_neg Bool.false_ne_true]

theorem flat_facts : ∀ key ∈ FLAT_CLAIM_KEYS,
    key ∉ ["failed", "failureReason", "claim", "hubStatus"] ∧ key ∉ REASON_KEYS := by decide

theorem shownClaim_between : shownClaim (between issue input) =
    shownAs issue input ((writtenClaim issue input).getD (nestedClaim issue)) := by
  have hflat : flatFields (between issue input).metadata =
      flatFields (givenRecord issue input) := by
    refine flatFields_congr fun key hkey => ?_
    rw [get_givenRecord]
    exact get_between_given (flat_facts key hkey).1
      (not_stale_of_not_reason (flat_facts key hkey).2)
  have hnested : nestedClaim (between issue input) =
      (writtenClaim issue input).getD (nestedClaim issue) := by
    cases hclaim : writtenClaim issue input with
    | none => exact nestedClaim_between_none (writtenClaim_eq.trans hclaim)
    | some claim => exact nestedClaim_between_some (writtenClaim_eq.trans hclaim)
  rw [shownClaim_eq, hflat, ← CLAIM_NAMES, ← nestedClaim, hnested]
  rfl

theorem shownClaim_transitioned : shownClaim (transitioned issue input) =
    shownAs issue input ((writtenClaim issue input).getD (otherClaim issue)) := by
  have hflat : flatFields (transitioned issue input).metadata =
      flatFields (givenRecord issue input) := by
    refine flatFields_congr fun key hkey => ?_
    rw [get_givenRecord]
    exact get_transitioned_given (flat_facts key hkey).1
      (not_stale_of_not_reason (flat_facts key hkey).2)
  have hnested : nestedClaim (transitioned issue input) =
      (writtenClaim issue input).getD (otherClaim issue) := by
    cases hclaim : writtenClaim issue input with
    | none =>
      rw [nestedClaim, CLAIM_NAMES, coalesce_unclaimed (writtenClaim_eq.trans hclaim)]
      rfl
    | some claim =>
      rw [nestedClaim, CLAIM_NAMES, coalesce, List.findSome?_cons, get_claim,
        writtenClaim_eq.trans hclaim]
      rfl
  rw [shownClaim_eq, hflat, ← CLAIM_NAMES, ← nestedClaim, hnested]
  rfl

/-! ### Interrupted transitions -/

/-- The interruption does no harm.

- `shown`: the board shows the old status with the old claim, or the new status with the claim that
  an uninterrupted transition leaves, if it leaves one.
- `repeats`: the same transition, made again, returns, and leaves the record that an uninterrupted
  one leaves. -/
structure Harmless (s : BeadsStore) (issue : BeadsIssue) (input : UpdateHubTaskStatusInput) :
    Prop where
  shown : ∃ left final, (interrupted s input).issue input.taskId = some left ∧
    ((transitionHubTaskStatus input).run s).2.issue input.taskId = some final ∧
      ((left.projection.hubStatus = issue.projection.hubStatus ∧
          shownClaim left = shownClaim issue) ∨
        (left.projection.hubStatus = input.hubStatus ∧ shownClaim left = shownClaim final))
  repeats : ∃ task t left final,
    (transitionHubTaskStatus input).run (interrupted s input) = (.ok task, t) ∧
      t.issue input.taskId = some left ∧
      ((transitionHubTaskStatus input).run s).2.issue input.taskId = some final ∧
      SameIssue left final

/-- The reasons and the claims agree between the updates. The first reason found there is one of
the old status, and the transition writes no other claim; or it is one of the new status, and the
transition writes a claim or the record has none under `claim` that the board would read. -/
def ShownBetween (issue : BeadsIssue) (input : UpdateHubTaskStatusInput) : Prop :=
  (toldBetween issue input = issue.projection.hubStatus ∧
      shownAs issue input ((writtenClaim issue input).getD (nestedClaim issue)) =
        shownClaim issue) ∨
    (toldBetween issue input = input.hubStatus ∧
      ((writtenClaim issue input).isSome = true ∨
        shownAs issue input (nestedClaim issue) = shownAs issue input (otherClaim issue)))

theorem claim_settled_iff :
    shownClaim (between issue input) = shownClaim (transitioned issue input) ↔
    (writtenClaim issue input).isSome = true ∨
      shownAs issue input (nestedClaim issue) = shownAs issue input (otherClaim issue) := by
  rw [shownClaim_between, shownClaim_transitioned]
  cases writtenClaim issue input with
  | none => simp
  | some claim => simp

end Shown

/-- A finished task with the reason of a conflict that is over. -/
def settledTask : BeadsIssue where
  id := "bd-1"
  title := "Fix login"
  labels := ["done"]
  metadata := [("hubStatus", .str "done"), ("done", .bool true), ("sync_state", .str "synced"),
    ("sync_conflict", .str "labels differ")]

end ArchLoop.TaskBoard
