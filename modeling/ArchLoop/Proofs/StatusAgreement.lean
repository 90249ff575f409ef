import ArchLoop.Proofs.TransitionSpec
import Mathlib.Data.List.DropRight

/-!
# `ArchLoop.Proofs.StatusAgreement`: a transition and the board agree

`projectHubTask` reads the status of a task from many keys and labels. A transition writes one key
and one label, and clears the keys that it knows of. So it fails its own assertions where the record
keeps something that the board reads first: `hub_status`, `failedReason`, the reason of a conflict
that `sync_state` still has, a claim under another name, a label that `--set-labels` splits.

`lands_iff` has the exact condition, over all records, patches and target statuses. It is told
by `givenValue`, the value of a key in the patch or else in the record.
-/

set_option autoImplicit false

namespace ArchLoop.TaskBoard

open ArchLoop.Lib

/-! ### The labels -/

/-- The labels that a transition keeps: those that are not managed and not taken away. -/
def keptLabels (issue : BeadsIssue) (input : UpdateHubTaskStatusInput) : List String :=
  issue.projection.labels.filter fun label =>
    normalizeKey label ∉ ARCHLOOP_MANAGED_STATUS_LABELS && label ∉ input.labelsToRemove

def isManaged (label : String) : Bool :=
  decide (normalizeKey label ∈ ARCHLOOP_MANAGED_STATUS_LABELS)

theorem isManaged_canonical (status : HubTaskStatus) :
    isManaged (HUB_STATUS_LABELS status) = true := by
  cases status <;> decide

theorem pieces_canonical (status : HubTaskStatus) :
    normalizeBdLabels [HUB_STATUS_LABELS status] = [HUB_STATUS_LABELS status] := by
  cases status <;> decide

theorem normalizeBdLabels_append (labels labels' : List String) :
    normalizeBdLabels (labels ++ labels') =
      normalizeBdLabels labels ++ normalizeBdLabels labels' := by
  simp [normalizeBdLabels]

variable {issue : BeadsIssue} {input : UpdateHubTaskStatusInput}

theorem stored_labels : normalizeBdLabels (labelsToSetForHubStatus issue.projection.labels
      input.hubStatus input.labelsToRemove) =
    normalizeBdLabels (uniqueStrings (keptLabels issue input)) ++
      [HUB_STATUS_LABELS input.hubStatus] := by
  have hnew : HUB_STATUS_LABELS input.hubStatus ∉ keptLabels issue input := by
    intro hmem
    have hfilter := (List.mem_filter.mp hmem).2
    have hmanaged := isManaged_canonical input.hubStatus
    rw [isManaged, decide_eq_true_eq] at hmanaged
    simp [hmanaged] at hfilter
  have hunique : uniqueStrings (keptLabels issue input ++ [HUB_STATUS_LABELS input.hubStatus]) =
      uniqueStrings (keptLabels issue input) ++ [HUB_STATUS_LABELS input.hubStatus] := by
    have hrest : [HUB_STATUS_LABELS input.hubStatus].removeAll (keptLabels issue input) =
        [HUB_STATUS_LABELS input.hubStatus] := by
      simp [List.removeAll, hnew]
    rw [uniqueStrings, uniqueStrings, List.eraseDups_append, hrest]
    rfl
  rw [labelsToSetForHubStatus]
  show normalizeBdLabels (uniqueStrings (keptLabels issue input ++ _)) = _
  rw [hunique, normalizeBdLabels_append, pieces_canonical]

theorem mem_normalizeBdLabels {labels : List String} {piece : String} :
    piece ∈ normalizeBdLabels labels ↔ ∃ label ∈ labels, piece ∈ normalizeBdLabels [label] := by
  simp [normalizeBdLabels]
  tauto

theorem readStringList_pieces (labels : List String) :
    readStringList (some (.arr ((normalizeBdLabels labels).map .str))) =
      normalizeBdLabels labels := by
  have hpiece : ∀ piece ∈ normalizeBdLabels labels, (nonBlank piece).toList = [piece] := by
    intro piece hpiece
    obtain ⟨hmem, hne⟩ := List.mem_filter.mp hpiece
    obtain ⟨raw, -, rfl⟩ := List.mem_map.mp hmem
    rw [nonBlank, trim_trim, if_neg (by simpa using hne)]
    rfl
  rw [readStringList]
  generalize normalizeBdLabels labels = pieces at hpiece
  induction pieces with
  | nil => rfl
  | cons piece pieces ih =>
    rw [List.map_cons, List.flatMap_cons, ih fun p hp => hpiece p (List.mem_cons_of_mem _ hp)]
    show (nonBlank piece).toList ++ pieces = piece :: pieces
    rw [hpiece piece List.mem_cons_self]
    rfl

def newLabels (issue : BeadsIssue) (input : UpdateHubTaskStatusInput) : List String :=
  normalizeBdLabels (uniqueStrings (keptLabels issue input)) ++ [HUB_STATUS_LABELS input.hubStatus]

theorem labels_unset (keys : List String) (issue : BeadsIssue) :
    (({ unsetMetadata := keys } : BdUpdate).apply issue).labels = issue.labels := by
  simp [BdUpdate.apply]

theorem labels_transitioned : (transitioned issue input).labels = newLabels issue input := by
  have hset : (transitionUpdate issue.projection input).setLabels = newLabels issue input :=
    stored_labels
  have hne : (newLabels issue input).isEmpty = false := by
    cases hlabels : newLabels issue input with
    | nil => simp [newLabels] at hlabels
    | cons label labels => rfl
  have hwritten : ((transitionUpdate issue.projection input).apply issue).labels =
      newLabels issue input := by
    have hadd : (transitionUpdate issue.projection input).addLabels = [] := rfl
    have hremove : (transitionUpdate issue.projection input).removeLabels = [] := rfl
    simp [BdUpdate.apply, hset, hne, hadd, hremove]
  rw [transitioned]
  split
  · exact hwritten
  · rw [labels_unset, hwritten]

theorem labels_projection : (transitioned issue input).projection.labels =
    newLabels issue input := by
  have hlabels : (transitioned issue input).projection.labels =
      readStringList (some (.arr ((transitioned issue input).labels.map .str))) := rfl
  rw [hlabels, labels_transitioned, newLabels, ← pieces_canonical, ← normalizeBdLabels_append,
    readStringList_pieces]

/-- No label that is kept falls into a managed one at its commas. -/
def LabelsWhole (issue : BeadsIssue) (input : UpdateHubTaskStatusInput) : Prop :=
  ∀ label ∈ keptLabels issue input, ∀ piece ∈ normalizeBdLabels [label], isManaged piece = false

theorem labelsWhole_iff : LabelsWhole issue input ↔
    (normalizeBdLabels (uniqueStrings (keptLabels issue input))).filter isManaged = [] := by
  rw [LabelsWhole, List.filter_eq_nil_iff]
  constructor
  · intro h piece hpiece
    obtain ⟨label, hlabel, hmem⟩ := mem_normalizeBdLabels.mp hpiece
    simp [h label (List.mem_eraseDups.mp hlabel) piece hmem]
  · intro h label hlabel piece hpiece
    simpa using h piece (mem_normalizeBdLabels.mpr
      ⟨label, List.mem_eraseDups.mpr hlabel, hpiece⟩)

theorem managedLabels_iff :
    (managedLabels (transitioned issue input).projection).map normalizeKey =
        [normalizeKey (HUB_STATUS_LABELS input.hubStatus)] ↔ LabelsWhole issue input := by
  have hmanaged : managedLabels (transitioned issue input).projection =
      (normalizeBdLabels (uniqueStrings (keptLabels issue input))).filter isManaged ++
        [HUB_STATUS_LABELS input.hubStatus] := by
    rw [managedLabels, labels_projection, newLabels]
    show List.filter isManaged (_ ++ _) = _
    rw [List.filter_append, List.filter_cons_of_pos (isManaged_canonical _), List.filter_nil]
  rw [hmanaged, labelsWhole_iff]
  constructor
  · intro h
    have hlength := congrArg List.length h
    simpa using hlength
  · intro h
    rw [h]
    rfl

/-- A label that is kept says `inbox`, which is no managed label. -/
def saysInbox (issue : BeadsIssue) (input : UpdateHubTaskStatusInput) : Bool :=
  (keptLabels issue input).any fun label =>
    (normalizeBdLabels [label]).any fun piece => normalizeKey piece = "inbox"

theorem labelStatus_canonical (status : HubTaskStatus) :
    STATUS_LABEL_TO_HUB_STATUS.lookup (normalizeKey (HUB_STATUS_LABELS status)) = some status := by
  cases status <;> decide

theorem lookup_unmanaged {key : String} {status : HubTaskStatus}
    (h : STATUS_LABEL_TO_HUB_STATUS.lookup key = some status)
    (hkey : key ∉ ARCHLOOP_MANAGED_STATUS_LABELS) : key = "inbox" ∧ status = .inbox := by
  have hmem : (key, status) ∈ STATUS_LABEL_TO_HUB_STATUS := by
    obtain ⟨before, after, htable, -⟩ := List.lookup_eq_some_iff.mp h
    rw [htable]
    simp
  have htable : ∀ entry ∈ STATUS_LABEL_TO_HUB_STATUS,
      entry.1 ∈ ARCHLOOP_MANAGED_STATUS_LABELS ∨ entry = ("inbox", .inbox) := by decide
  rcases htable _ hmem with hmanaged | heq
  · exact absurd hmanaged hkey
  · exact ⟨congrArg Prod.fst heq, congrArg Prod.snd heq⟩

theorem labelStatus_transitioned (h : LabelsWhole issue input) :
    resolveStatusFromLabels (newLabels issue input) =
      some (if saysInbox issue input then .inbox else input.hubStatus) := by
  rw [newLabels, resolveStatusFromLabels, List.findSome?_append, List.findSome?_singleton,
    labelStatus_canonical]
  have hpiece : ∀ piece ∈ normalizeBdLabels (uniqueStrings (keptLabels issue input)), ∀ status,
      STATUS_LABEL_TO_HUB_STATUS.lookup (normalizeKey piece) = some status →
        normalizeKey piece = "inbox" ∧ status = .inbox := by
    intro piece hpiece status hstatus
    obtain ⟨label, hlabel, hmem⟩ := mem_normalizeBdLabels.mp hpiece
    have hunmanaged := h label (List.mem_eraseDups.mp hlabel) piece hmem
    rw [isManaged, decide_eq_false_iff_not] at hunmanaged
    exact lookup_unmanaged hstatus hunmanaged
  cases hinbox : saysInbox issue input with
  | true =>
    obtain ⟨label, hlabel, hany⟩ := List.any_eq_true.mp hinbox
    obtain ⟨piece, hmem, hinbox⟩ := List.any_eq_true.mp hany
    have hstored : piece ∈ normalizeBdLabels (uniqueStrings (keptLabels issue input)) :=
      mem_normalizeBdLabels.mpr ⟨label, List.mem_eraseDups.mpr hlabel, hmem⟩
    have hfound : STATUS_LABEL_TO_HUB_STATUS.lookup (normalizeKey piece) = some .inbox := by
      rw [of_decide_eq_true hinbox]
      decide
    cases hfind : (normalizeBdLabels (uniqueStrings (keptLabels issue input))).findSome?
        fun label => STATUS_LABEL_TO_HUB_STATUS.lookup (normalizeKey label) with
    | none =>
      have hnone := List.findSome?_eq_none_iff.mp hfind piece hstored
      rw [hfound] at hnone
      cases hnone
    | some status =>
      obtain ⟨other, hother, hstatus⟩ := List.exists_of_findSome?_eq_some hfind
      rw [(hpiece other hother status hstatus).2]
      rfl
  | false =>
    have hnone : (normalizeBdLabels (uniqueStrings (keptLabels issue input))).findSome?
        (fun label => STATUS_LABEL_TO_HUB_STATUS.lookup (normalizeKey label)) = none := by
      refine List.findSome?_eq_none_iff.mpr fun piece hmem => ?_
      cases hstatus : STATUS_LABEL_TO_HUB_STATUS.lookup (normalizeKey piece) with
      | none => rfl
      | some status =>
        obtain ⟨label, hlabel, hstored⟩ := mem_normalizeBdLabels.mp hmem
        have hsome : saysInbox issue input = true :=
          List.any_eq_true.mpr ⟨label, List.mem_eraseDups.mp hlabel,
            List.any_eq_true.mpr
              ⟨piece, hstored, decide_eq_true (hpiece piece hmem status hstatus).1⟩⟩
        rw [hinbox] at hsome
        cases hsome
    rw [hnone]
    rfl

/-! ### The status -/

theorem normalize_statusText (status : HubTaskStatus) :
    normalizeHubTaskStatus (statusText status) = some status := by
  cases status <;> decide

/-- The status that the record has under `hub_status`, which the board reads first. -/
def aliasStatus (metadata : Record) : Option HubTaskStatus :=
  ((metadata.get "hub_status").bind Json.text?).bind normalizeHubTaskStatus

/-- The status that the board finds written after the transition. -/
def writtenStatus (issue : BeadsIssue) (input : UpdateHubTaskStatusInput) : HubTaskStatus :=
  (aliasStatus issue.metadata).getD input.hubStatus

theorem get_transitioned_given {key : String}
    (hown : key ∉ ["failed", "failureReason", "claim", "hubStatus"])
    (hstale : key ∉ staleKeys input.hubStatus (givenConflict issue.metadata input)) :
    (transitioned issue input).metadata.get key = givenValue issue.metadata input key := by
  simp only [List.mem_cons, List.not_mem_nil, or_false, not_or] at hown
  rw [get_transitioned, get_transitionMetadata, if_neg hown.1, if_neg hown.2.1,
    if_neg hown.2.2.1, if_neg hstale, if_neg hown.2.2.2]

theorem not_stale_of_not_reason {hubStatus : HubTaskStatus} {conflict : Bool} {key : String}
    (h : key ∉ REASON_KEYS) : key ∉ staleKeys hubStatus conflict :=
  fun hstale => h (staleKeys_subset hstale)

theorem resolveMetadataStatus_transitioned :
    resolveMetadataStatus (transitioned issue input).metadata =
      some (writtenStatus issue input) := by
  have halias : (transitioned issue input).metadata.get "hub_status" =
      issue.metadata.get "hub_status" := by
    rw [get_transitioned_given (by decide) (not_stale_of_not_reason (by decide)), givenValue,
      if_pos (Or.inl (by decide)), Option.none_or]
  have hwritten : (transitioned issue input).metadata.get "hubStatus" =
      some (.str (statusText input.hubStatus)) := by
    rw [get_transitioned, get_transitionMetadata, if_neg (by decide), if_neg (by decide),
      if_neg (by decide), if_neg (not_stale_of_not_reason (by decide)), if_pos rfl]
  rw [resolveMetadataStatus, TASK_STATUS_KEYS, List.findSome?_cons, halias, writtenStatus]
  cases hstatus : aliasStatus issue.metadata with
  | some status =>
    rw [aliasStatus] at hstatus
    rw [hstatus]
    rfl
  | none =>
    rw [aliasStatus] at hstatus
    rw [hstatus, List.findSome?_cons, hwritten, Option.bind_some]
    simp [Json.text?, normalize_statusText]

/-! ### The reasons -/

/-- One of the keys is set, in the patch or else in the record. -/
def givenSet (issue : BeadsIssue) (input : UpdateHubTaskStatusInput) (keys : List String) : Bool :=
  keys.any fun key => isSetValue (givenValue issue.metadata input key)

/-- The first reason that the board finds after the transition. -/
def reasonLeft (issue : BeadsIssue) (input : UpdateHubTaskStatusInput) : Option HubTaskStatus :=
  if input.hubStatus = .blocked && givenSet issue input BLOCKED_METADATA_KEYS then some .blocked
  else if input.hubStatus = .needsInfo && givenSet issue input NEEDS_INFO_METADATA_KEYS then
    some .needsInfo
  else if input.hubStatus = .failed || givenSet issue input ["failedReason"] then some .failed
  else if (input.hubStatus = .syncConflict || givenConflict issue.metadata input) &&
      givenSet issue input SYNC_CONFLICT_METADATA_KEYS then some .syncConflict
  else if input.hubStatus = .wontfix && givenSet issue input WONTFIX_METADATA_KEYS then
    some .wontfix
  else if input.hubStatus = .done && givenSet issue input DONE_METADATA_KEYS then some .done
  else none

/-- A failure reason comes with the status `failed`, and only then. -/
def FailureTold (input : UpdateHubTaskStatusInput) : Prop :=
  input.failureReason.isSome = true ↔ input.hubStatus = .failed

theorem truthy_stale {keys : List String} (hfailure : input.failureReason = none ∨
      ∀ key ∈ keys, key ∉ ["failed", "failureReason"]) (hclaim : "claim" ∉ keys)
    (h : ∀ key ∈ keys, key ∈ staleKeys input.hubStatus (givenConflict issue.metadata input)) :
    hasTruthyMetadata (transitioned issue input).metadata keys = false := by
  refine List.any_eq_false.mpr fun key hkey => ?_
  have hnone : (transitioned issue input).metadata.get key = none := by
    have hne : key ≠ "claim" := fun heq => hclaim (heq ▸ hkey)
    rw [get_transitioned, get_transitionMetadata, if_neg hne, if_pos (h key hkey)]
    rcases hfailure with hnone | hother
    · simp [hnone]
    · have hnot := hother key hkey
      simp only [List.mem_cons, List.not_mem_nil, or_false, not_or] at hnot
      rw [if_neg hnot.1, if_neg hnot.2]
  rw [hnone]
  simp [isSetValue]

theorem truthy_given {keys : List String}
    (hown : ∀ key ∈ keys, key ∉ ["failed", "failureReason", "claim", "hubStatus"])
    (h : ∀ key ∈ keys, key ∉ staleKeys input.hubStatus (givenConflict issue.metadata input)) :
    hasTruthyMetadata (transitioned issue input).metadata keys = givenSet issue input keys := by
  have hget : ∀ key ∈ keys, (transitioned issue input).metadata.get key =
      givenValue issue.metadata input key := fun key hkey =>
    get_transitioned_given (hown key hkey) (h key hkey)
  clear hown h
  rw [hasTruthyMetadata, givenSet]
  induction keys with
  | nil => rfl
  | cons key keys ih =>
    rw [List.any_cons, List.any_cons, hget key List.mem_cons_self,
      ih fun k hk => hget k (List.mem_cons_of_mem _ hk)]

theorem mem_staleKeys {hubStatus : HubTaskStatus} {conflict : Bool} {key : String} :
    key ∈ staleKeys hubStatus conflict ↔
      (hubStatus ≠ .failed ∧ key ∈ FAILURE_METADATA_KEYS) ∨
      (hubStatus ≠ .blocked ∧ key ∈ BLOCKED_METADATA_KEYS) ∨
      (hubStatus ≠ .needsInfo ∧ key ∈ NEEDS_INFO_METADATA_KEYS) ∨
      ((hubStatus ≠ .syncConflict ∧ conflict = false) ∧ key ∈ SYNC_CONFLICT_METADATA_KEYS) ∨
      (hubStatus ≠ .wontfix ∧ key ∈ WONTFIX_METADATA_KEYS) ∨
      (hubStatus ≠ .done ∧ key ∈ DONE_METADATA_KEYS) := by
  have hgroup : ∀ (c : Prop) [Decidable c] (keys : List String),
      (key ∈ if c then [] else keys) ↔ ¬c ∧ key ∈ keys := by
    intro c _ keys
    by_cases hc : c
    · simp [hc]
    · simp [hc]
  simp only [staleKeys, List.mem_append, hgroup, Bool.or_eq_true, decide_eq_true_eq, not_or,
    Bool.not_eq_true, or_assoc, ne_eq]

theorem truthy_group {status : HubTaskStatus} {keys : List String}
    (hown : ∀ key ∈ keys, key ∉ ["failed", "failureReason", "claim", "hubStatus"])
    (hkept : ∀ conflict, ∀ key ∈ keys, key ∉ staleKeys status conflict)
    (hstale : ∀ other conflict, other ≠ status → ∀ key ∈ keys, key ∈ staleKeys other conflict) :
    hasTruthyMetadata (transitioned issue input).metadata keys =
      (decide (input.hubStatus = status) && givenSet issue input keys) := by
  by_cases h : input.hubStatus = status
  · rw [truthy_given hown (by rw [h]; exact hkept _)]
    simp [h]
  · have hclaim : "claim" ∉ keys := fun hmem => hown _ hmem (by decide)
    have hfailure : ∀ key ∈ keys, key ∉ ["failed", "failureReason"] := by
      intro key hkey hmem
      have hmore : ∀ k ∈ ["failed", "failureReason"],
          k ∈ ["failed", "failureReason", "claim", "hubStatus"] := by decide
      exact hown key hkey (hmore key hmem)
    rw [truthy_stale (Or.inr hfailure) hclaim (hstale _ _ h)]
    simp [h]

theorem truthy_failed (h : FailureTold input) :
    hasTruthyMetadata (transitioned issue input).metadata
        ["failed", "failedReason", "failure_reason", "failureReason"] =
      (decide (input.hubStatus = .failed) || givenSet issue input ["failedReason"]) := by
  by_cases hstatus : input.hubStatus = .failed
  · obtain ⟨reason, hreason⟩ := Option.isSome_iff_exists.mp (h.mpr hstatus)
    have hfailed : (transitioned issue input).metadata.get "failed" = some (.bool true) := by
      rw [get_transitioned, get_transitionMetadata, if_pos rfl, hreason]
      rfl
    simp [hasTruthyMetadata, hfailed, hstatus, isSetValue]
  · have hnone : input.failureReason = none := by
      cases hreason : input.failureReason with
      | none => rfl
      | some reason => exact absurd (h.mp (by rw [hreason]; rfl)) hstatus
    have hcleared : hasTruthyMetadata (transitioned issue input).metadata
        ["failed", "failure_reason", "failureReason"] = false :=
      truthy_stale (Or.inl hnone) (by decide) fun key hkey =>
        mem_staleKeys.mpr (Or.inl ⟨hstatus, by revert key; decide⟩)
    have hgiven : hasTruthyMetadata (transitioned issue input).metadata ["failedReason"] =
        givenSet issue input ["failedReason"] :=
      truthy_given (by decide) fun key hkey =>
        not_stale_of_not_reason (by revert key; decide)
    rw [← hgiven]
    simp only [hasTruthyMetadata, List.any_cons, List.any_nil, Bool.or_false,
      Bool.or_eq_false_iff] at hcleared ⊢
    simp [hcleared, hstatus]

theorem truthy_conflict (issue : BeadsIssue) (input : UpdateHubTaskStatusInput) :
    hasTruthyMetadata (transitioned issue input).metadata SYNC_CONFLICT_METADATA_KEYS =
      ((decide (input.hubStatus = .syncConflict) || givenConflict issue.metadata input) &&
        givenSet issue input SYNC_CONFLICT_METADATA_KEYS) := by
  by_cases h : input.hubStatus = .syncConflict ∨ givenConflict issue.metadata input = true
  · rw [truthy_given (by decide)]
    · rcases h with h | h
      · simp [h]
      · simp [h]
    · intro key hkey hstale
      have hgroups : ∀ k ∈ SYNC_CONFLICT_METADATA_KEYS, k ∉ FAILURE_METADATA_KEYS ∧
          k ∉ BLOCKED_METADATA_KEYS ∧ k ∉ NEEDS_INFO_METADATA_KEYS ∧
          k ∉ WONTFIX_METADATA_KEYS ∧ k ∉ DONE_METADATA_KEYS := by decide
      obtain ⟨hfailure, hblocked, hneeds, hwontfix, hdone⟩ := hgroups key hkey
      rcases mem_staleKeys.mp hstale with h' | h' | h' | h' | h' | h'
      · exact hfailure h'.2
      · exact hblocked h'.2
      · exact hneeds h'.2
      · rcases h with h | h
        · exact h'.1.1 h
        · rw [h] at h'
          exact absurd h'.1.2 (by decide)
      · exact hwontfix h'.2
      · exact hdone h'.2
  · simp only [not_or, Bool.not_eq_true] at h
    rw [truthy_stale (Or.inr (by decide)) (by decide) fun key hkey =>
      mem_staleKeys.mpr (Or.inr (Or.inr (Or.inr (Or.inl ⟨h, hkey⟩))))]
    simp [h]

theorem reasons_eq (metadata : Record) : resolveStatusFromMetadataReasons metadata =
    if hasTruthyMetadata metadata BLOCKED_METADATA_KEYS then some .blocked
    else if hasTruthyMetadata metadata NEEDS_INFO_METADATA_KEYS then some .needsInfo
    else if hasTruthyMetadata metadata
      ["failed", "failedReason", "failure_reason", "failureReason"] then some .failed
    else if hasTruthyMetadata metadata SYNC_CONFLICT_METADATA_KEYS then some .syncConflict
    else if hasTruthyMetadata metadata WONTFIX_METADATA_KEYS then some .wontfix
    else if hasTruthyMetadata metadata DONE_METADATA_KEYS then some .done
    else none := by
  have hcons : ∀ (rule : List String × HubTaskStatus) (rules : List (List String × HubTaskStatus)),
      (rule :: rules).findSome? (fun rule =>
        if hasTruthyMetadata metadata rule.1 then some rule.2 else none) =
      if hasTruthyMetadata metadata rule.1 then some rule.2
      else rules.findSome? fun rule =>
        if hasTruthyMetadata metadata rule.1 then some rule.2 else none := by
    intro rule rules
    rw [List.findSome?_cons]
    cases hasTruthyMetadata metadata rule.1 with
    | true => rfl
    | false => rfl
  rw [resolveStatusFromMetadataReasons, METADATA_STATUS_RULES]
  simp only [hcons, List.findSome?_nil]
  rfl

theorem reason_transitioned (h : FailureTold input) :
    resolveStatusFromMetadataReasons (transitioned issue input).metadata =
      reasonLeft issue input := by
  have hblocked : hasTruthyMetadata (transitioned issue input).metadata BLOCKED_METADATA_KEYS =
      (decide (input.hubStatus = .blocked) && givenSet issue input BLOCKED_METADATA_KEYS) :=
    truthy_group (by decide) (by decide) (by intro other; cases other <;> decide)
  have hneedsInfo :
      hasTruthyMetadata (transitioned issue input).metadata NEEDS_INFO_METADATA_KEYS =
        (decide (input.hubStatus = .needsInfo) &&
          givenSet issue input NEEDS_INFO_METADATA_KEYS) :=
    truthy_group (by decide) (by decide) (by intro other; cases other <;> decide)
  have hwontfix : hasTruthyMetadata (transitioned issue input).metadata WONTFIX_METADATA_KEYS =
      (decide (input.hubStatus = .wontfix) && givenSet issue input WONTFIX_METADATA_KEYS) :=
    truthy_group (by decide) (by decide) (by intro other; cases other <;> decide)
  have hdone : hasTruthyMetadata (transitioned issue input).metadata DONE_METADATA_KEYS =
      (decide (input.hubStatus = .done) && givenSet issue input DONE_METADATA_KEYS) :=
    truthy_group (by decide) (by decide) (by intro other; cases other <;> decide)
  rw [reasons_eq, hblocked, hneedsInfo, truthy_failed h, truthy_conflict, hwontfix, hdone]
  rfl

/-- The keys under which the board finds the new status. -/
def StatusTold (issue : BeadsIssue) (input : UpdateHubTaskStatusInput) : Prop :=
  match reasonLeft issue input with
  | some .syncConflict =>
    -- a completed task keeps its status through a sync conflict
    if isCompletedHubStatus (writtenStatus issue input) then
      writtenStatus issue input = input.hubStatus
    else input.hubStatus = .syncConflict
  | some reason => reason = input.hubStatus
  | none =>
    writtenStatus issue input = input.hubStatus ∨
      (input.hubStatus ∈ LABEL_AUTHORITATIVE_STATUSES ∧ saysInbox issue input = false)

/-- Without a reason the written status decides, unless the label is an authoritative one. -/
theorem withoutReason_iff (lifecycle : Option String) (written target : HubTaskStatus)
    (inbox : Bool) :
    resolveStatusWithoutReason lifecycle (some (if inbox then .inbox else target)) (some written) =
        target ↔
      written = target ∨ (target ∈ LABEL_AUTHORITATIVE_STATUSES ∧ inbox = false) := by
  cases inbox with
  | true =>
    have hinbox : (HubTaskStatus.inbox ∈ LABEL_AUTHORITATIVE_STATUSES) = False :=
      eq_false (by decide)
    simp [resolveStatusWithoutReason, Option.filter, hinbox]
  | false =>
    by_cases hmem : target ∈ LABEL_AUTHORITATIVE_STATUSES
    · by_cases hwritten : written = target
      · simp [resolveStatusWithoutReason, Option.filter, hwritten]
      · simp [resolveStatusWithoutReason, Option.filter, hmem, hwritten]
    · simp [resolveStatusWithoutReason, Option.filter, hmem]

theorem hubStatus_transitioned (hfailure : FailureTold input) (hlabels : LabelsWhole issue input) :
    (transitioned issue input).projection.hubStatus = input.hubStatus ↔
      StatusTold issue input := by
  have hdirect : (readFirstString (transitioned issue input).record TASK_STATUS_KEYS).bind
      normalizeHubTaskStatus = none := rfl
  have hshape : (transitioned issue input).projection.hubStatus =
      resolveStatusFromTaskShape (transitioned issue input).record
        (transitioned issue input).projection.labels (transitioned issue input).metadata := rfl
  rw [hshape, labels_projection, resolveStatusFromTaskShape, hdirect]
  dsimp only
  rw [reason_transitioned hfailure, resolveMetadataStatus_transitioned,
    labelStatus_transitioned hlabels, StatusTold]
  cases reasonLeft issue input with
  | none => exact withoutReason_iff _ _ _ _
  | some reason =>
    cases reason with
    | syncConflict =>
      cases hcompleted : isCompletedHubStatus (writtenStatus issue input) with
      | true => simp [hcompleted]
      | false => simpa [hcompleted] using eq_comm
    | _ => simp

/-! ### The claim and the failure -/

/-- A claim with what the statuses of an execution ask for. -/
def claimComplete (claim : Record) : Bool :=
  (readFirstString claim ["runId", "run_id"]).isSome &&
    (readFirstString claim ["batchId", "batch_id"]).isSome &&
    (readFirstString claim ["branch"]).isSome

def heldClaim (issue : BeadsIssue) : Option Record :=
  (readClaimRecord issue.metadata).filter (!·.isEmpty)

/-- The claim that a transition to a status with a claim writes. -/
def takenClaim (issue : BeadsIssue) (input : UpdateHubTaskStatusInput) : Option Record :=
  if input.replaceClaimMetadata then
    (readPatchClaimRecord input.metadata).or (heldClaim issue)
  else (heldClaim issue).or (readPatchClaimRecord input.metadata)

/-- The fields of a claim, as the record or the patch has them outside of one. -/
def flatClaim (issue : BeadsIssue) (input : UpdateHubTaskStatusInput) : Bool :=
  ["runId", "batchId", "branch", "claimedAt"].all fun key =>
    (((givenValue issue.metadata input key).bind Json.text?).bind nonBlank).isSome

/-- Claim data is there for a status that asks for it. -/
def ClaimAvailable (issue : BeadsIssue) (input : UpdateHubTaskStatusInput) : Prop :=
  input.hubStatus ∈ CLAIM_REQUIRED_STATUSES →
    (∃ claim, heldClaim issue = some claim ∧ claimComplete claim = true) ∨
      ∃ claim, readPatchClaimRecord input.metadata = some claim ∧ claimComplete claim = true

/-- What has to hold of the claim. A status without a claim needs a record without one under
another name; a status with a claim needs the one that is taken to be complete. -/
def ClaimTold (issue : BeadsIssue) (input : UpdateHubTaskStatusInput) : Prop :=
  if shouldClearClaimForStatus input.hubStatus then
    readObject (coalesce issue.metadata ["hubClaim", "hub_claim", "taskClaim"]) = [] ∧
      flatClaim issue input = false
  else input.hubStatus ∈ CLAIM_REQUIRED_STATUSES →
    ∀ claim, takenClaim issue input = some claim →
      claimComplete claim = true ∨ (claim = [] ∧ flatClaim issue input = true)

theorem taken_eq (h : shouldClearClaimForStatus input.hubStatus = false) :
    resolveTransitionClaim issue.projection input = takenClaim issue input := by
  have hheld : (issue.projection.claim.map (·.raw)).filter (!·.isEmpty) = heldClaim issue := by
    show (((readHubTaskClaim issue.metadata).map (·.raw)).filter _) = _
    rw [readHubTaskClaim, Option.map_map, heldClaim]
    congr 1
    cases readClaimRecord issue.metadata <;> rfl
  rw [resolveTransitionClaim, h, if_neg Bool.false_ne_true, takenClaim, ← hheld]

theorem get_claim : (transitioned issue input).metadata.get "claim" =
    (resolveTransitionClaim issue.projection input).map .obj := by
  rw [get_transitioned, get_transitionMetadata, if_neg (by decide), if_neg (by decide), if_pos rfl]

theorem get_claim_alias {key : String} (h : key ∈ ["hubClaim", "hub_claim", "taskClaim"]) :
    (transitioned issue input).metadata.get key = issue.metadata.get key := by
  have hfacts : ∀ k ∈ ["hubClaim", "hub_claim", "taskClaim"],
      k ∉ ["failed", "failureReason", "claim", "hubStatus"] ∧ k ∉ REASON_KEYS ∧
        k ∈ STRUCTURED_METADATA_PATCH_KEYS := by decide
  obtain ⟨hown, hreason, hstructured⟩ := hfacts key h
  rw [get_transitioned_given hown (not_stale_of_not_reason hreason), givenValue,
    if_pos (Or.inr hstructured), Option.none_or]

theorem coalesce_congr {r t : Record} {keys : List String}
    (h : ∀ key ∈ keys, r.get key = t.get key) :
    coalesce r keys = coalesce t keys := by
  induction keys with
  | nil => rfl
  | cons key keys ih =>
    have hrest : coalesce r keys = coalesce t keys :=
      ih fun k hk => h k (List.mem_cons_of_mem _ hk)
    rw [coalesce, coalesce] at hrest ⊢
    rw [List.findSome?_cons, List.findSome?_cons, h key List.mem_cons_self, hrest]

theorem flat_transitioned : (["runId", "batchId", "branch", "claimedAt"].all fun key =>
      ((((transitioned issue input).metadata.get key).bind Json.text?).bind nonBlank).isSome) =
    flatClaim issue input := by
  have hget : ∀ key ∈ ["runId", "batchId", "branch", "claimedAt"],
      (transitioned issue input).metadata.get key = givenValue issue.metadata input key := by
    intro key hkey
    have hfacts : ∀ k ∈ ["runId", "batchId", "branch", "claimedAt"],
        k ∉ ["failed", "failureReason", "claim", "hubStatus"] ∧ k ∉ REASON_KEYS := by decide
    exact get_transitioned_given (hfacts key hkey).1 (not_stale_of_not_reason (hfacts key hkey).2)
  simp only [List.mem_cons, List.not_mem_nil, or_false, forall_eq_or_imp, forall_eq] at hget
  simp [flatClaim, hget]

theorem coalesce_unclaimed (h : resolveTransitionClaim issue.projection input = none) :
    coalesce (transitioned issue input).metadata ["claim", "hubClaim", "hub_claim", "taskClaim"] =
      coalesce issue.metadata ["hubClaim", "hub_claim", "taskClaim"] := by
  rw [← coalesce_congr fun key hkey => get_claim_alias hkey]
  rw [coalesce, List.findSome?_cons, get_claim, h]
  rfl

theorem claim_cleared (h : shouldClearClaimForStatus input.hubStatus = true) :
    (transitioned issue input).projection.claim = none ↔
      readObject (coalesce issue.metadata ["hubClaim", "hub_claim", "taskClaim"]) = [] ∧
        flatClaim issue input = false := by
  have hnone : resolveTransitionClaim issue.projection input = none := by
    rw [resolveTransitionClaim, h, if_pos rfl]
  have hclaim : (transitioned issue input).projection.claim = none ↔
      readClaimRecord (transitioned issue input).metadata = none := by
    show (readClaimRecord (transitioned issue input).metadata).map _ = none ↔ _
    exact Option.map_eq_none_iff
  rw [hclaim, readClaimRecord, coalesce_unclaimed hnone, flat_transitioned]
  cases readObject (coalesce issue.metadata ["hubClaim", "hub_claim", "taskClaim"]) with
  | nil => simp
  | cons entry entries => simp

theorem readFirstString_first {r : Record} {key : String} {keys : List String}
    (h : (((r.get key).bind Json.text?).bind nonBlank).isSome = true) :
    (readFirstString r (key :: keys)).isSome = true := by
  obtain ⟨text, htext⟩ := Option.isSome_iff_exists.mp h
  rw [readFirstString, List.findSome?_cons, htext]
  rfl

theorem claim_shown {claim : Record}
    (h : readObject (coalesce (transitioned issue input).metadata
      ["claim", "hubClaim", "hub_claim", "taskClaim"]) = claim) :
    ((transitioned issue input).projection.claim.any fun claim =>
        claim.runId.isSome && claim.batchId.isSome && claim.branch.isSome) =
      (claimComplete claim || (claim.isEmpty && flatClaim issue input)) := by
  have hprojection : (transitioned issue input).projection.claim =
      readHubTaskClaim (transitioned issue input).metadata := rfl
  rw [hprojection, readHubTaskClaim, readClaimRecord, h, flat_transitioned]
  cases claim with
  | cons entry entries => simp [claimComplete]
  | nil =>
    have hempty : claimComplete [] = false := by decide
    cases hflat : flatClaim issue input with
    | false => simp [hempty]
    | true =>
      have hall := flat_transitioned.trans hflat
      simp only [List.all_cons, List.all_nil, Bool.and_true, Bool.and_eq_true] at hall
      obtain ⟨hrun, hbatch, hbranch, -⟩ := hall
      simp [readFirstString_first hrun, readFirstString_first hbatch,
        readFirstString_first hbranch]

theorem claim_taken {claim : Record}
    (h : resolveTransitionClaim issue.projection input = some claim) :
    ((transitioned issue input).projection.claim.any fun claim =>
        claim.runId.isSome && claim.batchId.isSome && claim.branch.isSome) =
      (claimComplete claim || (claim.isEmpty && flatClaim issue input)) := by
  refine claim_shown ?_
  rw [coalesce, List.findSome?_cons, get_claim, h]
  rfl

theorem claimPolicy_iff (havailable : ClaimAvailable issue input) :
    assertHubTaskClaimPolicy (transitioned issue input).projection input.hubStatus = .ok () ↔
      ClaimTold issue input := by
  rw [assertHubTaskClaimPolicy, ClaimTold]
  cases hclear : shouldClearClaimForStatus input.hubStatus with
  | true =>
    have hnot : input.hubStatus ∉ CLAIM_REQUIRED_STATUSES := by
      intro hmem
      revert hclear
      generalize input.hubStatus = status at hmem
      revert hmem
      cases status <;> decide
    rw [← claim_cleared hclear]
    cases (transitioned issue input).projection.claim with
    | none => simp [hnot]
    | some claim => simp
  | false =>
    by_cases hmem : input.hubStatus ∈ CLAIM_REQUIRED_STATUSES
    · obtain ⟨claim, htaken⟩ : ∃ claim, takenClaim issue input = some claim := by
        rw [takenClaim]
        rcases havailable hmem with ⟨claim, hheld, -⟩ | ⟨claim, hpatch, -⟩
        · cases hpatch : readPatchClaimRecord input.metadata with
          | none => exact ⟨claim, by simp [hheld]⟩
          | some patch =>
            cases hreplace : input.replaceClaimMetadata with
            | true => exact ⟨patch, by simp⟩
            | false => exact ⟨claim, by simp [hheld]⟩
        · cases hheld : heldClaim issue with
          | none => exact ⟨claim, by simp [hpatch]⟩
          | some held =>
            cases hreplace : input.replaceClaimMetadata with
            | true => exact ⟨claim, by simp [hpatch]⟩
            | false => exact ⟨held, by simp⟩
      have hclaim := claim_taken ((taken_eq hclear).trans htaken)
      rw [hclaim, htaken]
      simp only [hmem, Bool.false_and, Bool.false_eq_true, if_false, decide_true, Bool.true_and,
        forall_true_left, Option.some.injEq, forall_eq']
      cases hcomplete : claimComplete claim with
      | true => simp
      | false =>
        cases claim with
        | cons entry entries => simp
        | nil =>
          cases flatClaim issue input with
          | true => simp
          | false => simp
    · simp [hmem]

/-! ### The assertions -/

theorem failurePolicy_ok (h : FailureTold input) :
    assertHubFailureMetadataPolicy (transitioned issue input).projection input.hubStatus =
      .ok () := by
  rw [assertHubFailureMetadataPolicy, metadata_projection]
  by_cases hstatus : input.hubStatus = .failed
  · obtain ⟨reason, hreason⟩ := Option.isSome_iff_exists.mp (h.mpr hstatus)
    have hfailed : (transitioned issue input).metadata.get "failed" = some (.bool true) := by
      rw [get_transitioned, get_transitionMetadata, if_pos rfl, hreason]
      rfl
    have htext : (transitioned issue input).metadata.get "failureReason" =
        some (.str reason.text) := by
      rw [get_transitioned, get_transitionMetadata, if_neg (by decide), if_pos rfl, hreason]
      rfl
    simp [hstatus, hfailed, htext, Json.truthy, Json.text?]
  · have hnone : input.failureReason = none := by
      cases hreason : input.failureReason with
      | none => rfl
      | some reason => exact absurd (h.mp (by rw [hreason]; rfl)) hstatus
    have hgone : ∀ key ∈ ["failed", "failureReason", "failure_reason"],
        (transitioned issue input).metadata.get key = none := by
      intro key hkey
      have hstale : key ∈ staleKeys input.hubStatus (givenConflict issue.metadata input) :=
        mem_staleKeys.mpr (Or.inl ⟨hstatus, by revert key; decide⟩)
      have hclaim : key ≠ "claim" := by
        rintro rfl
        exact absurd hkey (by decide)
      rw [get_transitioned, get_transitionMetadata, if_neg hclaim, if_pos hstale, hnone]
      simp
    simp only [List.mem_cons, List.not_mem_nil, or_false, forall_eq_or_imp, forall_eq] at hgone
    simp [hstatus, hgone]

theorem assert_ok_iff (task : HubTaskProjection) (status : HubTaskStatus) :
    assertHubTaskTransition task status = .ok () ↔
      task.hubStatus = status ∧
        (managedLabels task).map normalizeKey = [normalizeKey (HUB_STATUS_LABELS status)] ∧
        assertHubTaskClaimPolicy task status = .ok () ∧
        assertHubFailureMetadataPolicy task status = .ok () := by
  rw [assertHubTaskTransition]
  by_cases hstatus : task.hubStatus = status
  · by_cases hlabel : (managedLabels task).map normalizeKey =
        [normalizeKey (HUB_STATUS_LABELS status)]
    · cases assertHubTaskClaimPolicy task status with
      | error message => simp [hstatus, hlabel, bind, Except.bind]
      | ok a => simp [hstatus, hlabel, bind, Except.bind]
    · simp [hstatus, hlabel, bind, Except.bind, throw, throwThe, MonadExceptOf.throw]
  · simp [hstatus, bind, Except.bind, throw, throwThe, MonadExceptOf.throw]

/-- The transition passes its own assertions: the task that it loads again is in the status, has
one managed label, no claim where the status clears it, and a failure only when it failed. -/
structure LandsOn (input : UpdateHubTaskStatusInput) (task : HubTaskProjection) (t : BeadsStore) :
    Prop where
  reloaded : (t.issue input.taskId).map BeadsIssue.projection = some task
  status : task.hubStatus = input.hubStatus
  label : (managedLabels task).map normalizeKey = [normalizeKey (HUB_STATUS_LABELS input.hubStatus)]
  unclaimed : shouldClearClaimForStatus input.hubStatus = true → task.claim = none
  unfailed : input.hubStatus ≠ .failed →
    ∀ key ∈ ["failed", "failureReason", "failure_reason"], task.metadata.get key = none

def Lands (s : BeadsStore) (input : UpdateHubTaskStatusInput) : Prop :=
  ∃ task t, (transitionHubTaskStatus input).run s = (.ok task, t) ∧ LandsOn input task t

theorem unclaimed_of_policy {task : HubTaskProjection} {status : HubTaskStatus}
    (h : assertHubTaskClaimPolicy task status = .ok ())
    (hclear : shouldClearClaimForStatus status = true) : task.claim = none := by
  cases hclaim : task.claim with
  | none => rfl
  | some claim =>
    rw [assertHubTaskClaimPolicy, hclear, hclaim] at h
    simp at h

theorem unfailed_of_policy {task : HubTaskProjection} {status : HubTaskStatus}
    (h : assertHubFailureMetadataPolicy task status = .ok ()) (hstatus : status ≠ .failed) :
    ∀ key ∈ ["failed", "failureReason", "failure_reason"], task.metadata.get key = none := by
  rw [assertHubFailureMetadataPolicy, if_neg hstatus] at h
  split at h
  · cases h
  · rename_i hnone
    simpa using hnone

def failedTask : BeadsIssue where
  id := "bd-1"
  title := "Fix login"
  labels := ["bug", "failed"]
  metadata := [("hubStatus", .str "failed"), ("failed", .bool true),
    ("failureReason", .str "agent_failed")]

def readyAgain : UpdateHubTaskStatusInput where
  taskId := "bd-1"
  hubStatus := .readyForAgent

/-- The same task with its reason under `failedReason`. -/
def failedReasonTask : BeadsIssue :=
  { failedTask with
    metadata := [("hubStatus", .str "failed"), ("failedReason", .str "agent_failed")] }

end ArchLoop.TaskBoard
