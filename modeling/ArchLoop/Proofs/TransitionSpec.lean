import ArchLoop.TaskTransitions

/-!
# `ArchLoop.Proofs.TransitionSpec`: what a transition leaves in the store

`transitionHubTaskStatus` alone, on a store whose commands are all done. `run_transition` says that
it leaves one changed issue, `transitioned`, and returns or throws what its assertions say of that
issue. Two commands write it, one with the new metadata and one with the keys to remove;
`get_transitioned` says that together they leave the metadata that the transition computed, and
`get_transitionMetadata` what that is for each key.
-/

set_option autoImplicit false

namespace ArchLoop.TaskBoard

open ArchLoop.Lib

/-! ### Commands that are done -/

/-- An id as `bd` makes them. -/
structure ProperId (id : TaskId) : Prop where
  trimmed : trim id = id
  nonempty : id ≠ ""

/-- No command of the store fails, and the task is in it. -/
structure Holds (s : BeadsStore) (id : TaskId) (issue : BeadsIssue) : Prop where
  calm : s.outages = []
  found : s.issue id = some issue

section
variable {s : BeadsStore} {id : TaskId} {issue : BeadsIssue}

theorem Holds.id_eq (h : Holds s id issue) : issue.id = id := by
  have hfound := h.found
  rw [BeadsStore.issue] at hfound
  have hid := List.find?_some hfound
  exact of_decide_eq_true hid

theorem outcome_done (h : s.outages = []) : s.outcome = .done := by
  rw [BeadsStore.outcome, h]
  rfl

theorem command_eq (h : s.outages = []) {upd : BeadsStore → BeadsStore}
    (hupd : (upd s).outages = []) : s.command upd = upd s := by
  have hdone := outcome_done h
  rw [BeadsStore.command, hdone, if_neg (by decide), h]
  show { upd s with outages := [] } = upd s
  rw [← hupd]

theorem run_bdCommand {α : Type} (h : s.outages = []) (failureLabel : String)
    (upd : BeadsStore → BeadsStore) (answer : BeadsStore → α) :
    (bdCommand failureLabel upd answer).run s = (.ok (answer s), s.command upd) := by
  rw [bdCommand, Prog.run_act, if_pos (outcome_done h)]
  rfl

theorem run_showTask (h : Holds s id issue) (failureLabel : String) :
    (showTask failureLabel id).run s = (.ok issue, s) := by
  have hstay : s.command (fun s => s) = s := command_eq h.calm h.calm
  rw [showTask, Prog.run_bind_ok (run_bdCommand h.calm _ _ _), h.found, hstay]
  rfl

theorem run_loadHubTask (h : Holds s id issue) (hid : ProperId id) :
    (loadHubTask id).run s = (.ok issue.projection, s) := by
  have hselector : (resolveHubTaskSelector id).run s = (.ok issue.projection, s) := by
    have hshow := run_showTask h ("tasks show " ++ id)
    rw [resolveHubTaskSelector, hid.trimmed, if_neg hid.nonempty]
    rw [Prog.run_bind_ok (Prog.run_attempt _ _), hshow]
    rfl
  have hload : (showTask ("tasks show " ++ issue.projection.id) issue.projection.id).run s =
      (.ok issue, s) := by
    have hsame : issue.projection.id = id := h.id_eq
    rw [hsame]
    exact run_showTask h _
  rw [loadHubTask, Prog.run_bind_ok hselector, Prog.run_bind_ok hload]
  rfl

/-! ### Updates -/

theorem id_apply (update : BdUpdate) (issue : BeadsIssue) :
    (update.apply issue).id = issue.id := rfl

theorem Holds.change (h : Holds s id issue) {f : BeadsIssue → BeadsIssue}
    (hf : ∀ issue, (f issue).id = issue.id) : Holds (s.changeIssue id f) id (f issue) where
  calm := h.calm
  found := by
    have hfound := h.found
    rw [BeadsStore.issue] at hfound ⊢
    have hid : ∀ other : BeadsIssue,
        (if other.id = id then f other else other).id = other.id := by
      intro other
      split
      · exact hf other
      · rfl
    have hsame : (fun other : BeadsIssue => decide (other.id = id)) ∘
        (fun other => if other.id = id then f other else other) =
        fun other => decide (other.id = id) := by
      funext other
      rw [Function.comp_apply, hid]
    show ((s.issues.map fun other => if other.id = id then f other else other).find? _) = _
    rw [List.find?_map, hsame, hfound, Option.map_some, if_pos h.id_eq]

theorem run_bdUpdate (h : Holds s id issue) (failureLabel : String) (update : BdUpdate) :
    (bdUpdate failureLabel id update).run s = (.ok (), s.changeIssue id update.apply) := by
  have hcommand : s.command (fun s => s.changeIssue id update.apply) =
      s.changeIssue id update.apply := command_eq h.calm h.calm
  rw [bdUpdate, Prog.run_bind_ok (run_bdCommand h.calm _ _ _), h.found, hcommand]
  rfl

/-! ### The transition -/

/-- The keys that the transition takes out of the metadata. -/
def transitionRemoves (issue : BeadsIssue) (input : UpdateHubTaskStatusInput) : List String :=
  removedMetadataKeys issue.metadata (transitionMetadata issue.projection input)

def transitioned (issue : BeadsIssue) (input : UpdateHubTaskStatusInput) : BeadsIssue :=
  let written := (transitionUpdate issue.projection input).apply issue
  if (transitionRemoves issue input).isEmpty then written
  else ({ unsetMetadata := unsetMetadataArgs (transitionRemoves issue input) } : BdUpdate).apply
    written

theorem metadata_projection (issue : BeadsIssue) : issue.projection.metadata = issue.metadata := rfl

theorem run_transition (input : UpdateHubTaskStatusInput) (h : Holds s input.taskId issue)
    (hid : ProperId input.taskId) :
    ∃ t, Holds t input.taskId (transitioned issue input) ∧
      (transitionHubTaskStatus input).run s =
        ((assertHubTaskTransition (transitioned issue input).projection input.hubStatus).map
          fun _ => (transitioned issue input).projection, t) := by
  have hwrite := run_bdUpdate h ("tasks transition " ++ input.taskId)
    (transitionUpdate issue.projection input)
  have hwritten := h.change (id_apply (transitionUpdate issue.projection input))
  obtain ⟨t, ht, hunset⟩ : ∃ t, Holds t input.taskId (transitioned issue input) ∧
      (Prog.when (!(transitionRemoves issue input).isEmpty)
        (bdUpdate ("tasks transition " ++ input.taskId) input.taskId
          { unsetMetadata := unsetMetadataArgs (transitionRemoves issue input) })).run
        (s.changeIssue input.taskId (transitionUpdate issue.projection input).apply) =
      (.ok (), t) := by
    cases hempty : (transitionRemoves issue input).isEmpty with
    | true =>
      have hsame : transitioned issue input =
          (transitionUpdate issue.projection input).apply issue := by
        rw [transitioned, hempty, if_pos rfl]
      rw [hsame]
      exact ⟨_, hwritten, rfl⟩
    | false =>
      have hsame : transitioned issue input =
          ({ unsetMetadata := unsetMetadataArgs (transitionRemoves issue input) } : BdUpdate).apply
            ((transitionUpdate issue.projection input).apply issue) := by
        rw [transitioned, hempty, if_neg Bool.false_ne_true]
      rw [hsame]
      exact ⟨_, hwritten.change (id_apply _), run_bdUpdate hwritten _ _⟩
  refine ⟨t, ht, ?_⟩
  rw [transitionHubTaskStatus, Prog.run_bind_ok (run_loadHubTask h hid), writeTransition]
  rw [Prog.run_bind_ok hwrite, metadata_projection, ← transitionRemoves]
  rw [Prog.run_bind_ok hunset, Prog.run_bind_ok (run_loadHubTask ht hid)]
  cases assertHubTaskTransition (transitioned issue input).projection input.hubStatus with
  | ok a => rfl
  | error message => rfl

end

/-! ### The metadata -/

/-- The value that a transition starts from: that of the patch, or else the stored one. -/
def givenValue (metadata : Record) (input : UpdateHubTaskStatusInput) (key : String) :
    Option Json :=
  (if key ∈ TASK_STATUS_KEYS ∨ key ∈ STRUCTURED_METADATA_PATCH_KEYS then none
    else input.metadata.get key).or (metadata.get key)

/-- After the transition the task is in a sync conflict, as far as `sync_state` says. -/
def givenConflict (metadata : Record) (input : UpdateHubTaskStatusInput) : Bool :=
  isText (givenValue metadata input "sync_state") "conflict"

/-- The keys of the reasons that the status does not have. -/
def staleKeys (hubStatus : HubTaskStatus) (conflict : Bool) : List String :=
  (if hubStatus = .failed then [] else FAILURE_METADATA_KEYS) ++
  (if hubStatus = .blocked then [] else BLOCKED_METADATA_KEYS) ++
  (if hubStatus = .needsInfo then [] else NEEDS_INFO_METADATA_KEYS) ++
  (if hubStatus = .syncConflict || conflict then [] else SYNC_CONFLICT_METADATA_KEYS) ++
  (if hubStatus = .wontfix then [] else WONTFIX_METADATA_KEYS) ++
  (if hubStatus = .done then [] else DONE_METADATA_KEYS)

def REASON_KEYS : List String :=
  FAILURE_METADATA_KEYS ++ BLOCKED_METADATA_KEYS ++ NEEDS_INFO_METADATA_KEYS ++
    SYNC_CONFLICT_METADATA_KEYS ++ WONTFIX_METADATA_KEYS ++ DONE_METADATA_KEYS

theorem staleKeys_subset {hubStatus : HubTaskStatus} {conflict : Bool} {key : String}
    (h : key ∈ staleKeys hubStatus conflict) : key ∈ REASON_KEYS := by
  simp only [staleKeys, List.mem_append] at h
  simp only [REASON_KEYS, List.mem_append]
  rcases h with ((((h | h) | h) | h) | h) | h <;> split at h <;>
    first | simp only [h, true_or, or_true] | simp at h

/-- The keys that a transition may take out: the reasons and the claim. -/
def REMOVABLE_KEYS : List String := "claim" :: REASON_KEYS

theorem get_setClaim {metadata : Record} {claim : Option Record} {key : String} :
    (setClaim metadata claim).get key =
      if key = "claim" then claim.map .obj else metadata.get key := by
  cases claim with
  | none => simp [setClaim]
  | some claim => simp [setClaim]

theorem get_setFailure {metadata : Record} {reason : Option HubFailureReason} {key : String} :
    (setFailure metadata reason).get key =
      if key = "failed" then reason.map fun _ => .bool true
      else if key = "failureReason" then reason.map fun reason => .str reason.text
      else metadata.get key := by
  cases reason with
  | none =>
    rw [setFailure, Record.get_erase]
    by_cases hfailed : key = "failed"
    · simp [hfailed]
    · by_cases hreason : key = "failureReason"
      · simp [hreason]
      · simp [hfailed, hreason]
  | some reason => simp [setFailure]

variable {issue : BeadsIssue} {input : UpdateHubTaskStatusInput} {key : String}

theorem get_transitionMetadata :
    (transitionMetadata issue.projection input).get key =
      if key = "failed" then input.failureReason.map fun _ => .bool true
      else if key = "failureReason" then input.failureReason.map fun reason => .str reason.text
      else if key = "claim" then (resolveTransitionClaim issue.projection input).map .obj
      else if key ∈ staleKeys input.hubStatus (givenConflict issue.metadata input) then none
      else if key = "hubStatus" then some (.str (statusText input.hubStatus))
      else givenValue issue.metadata input key := by
  have hmerged : ∀ k, ((issue.metadata.merge ((input.metadata.erase TASK_STATUS_KEYS).erase
      STRUCTURED_METADATA_PATCH_KEYS)).set "hubStatus" (.str (statusText input.hubStatus))).get k =
      if k = "hubStatus" then some (.str (statusText input.hubStatus))
      else givenValue issue.metadata input k := by
    intro k
    rw [Record.get_set, Record.get_merge, Record.get_erase, Record.get_erase, givenValue]
    by_cases hstatus : k ∈ TASK_STATUS_KEYS
    · simp [hstatus]
    · by_cases hstructured : k ∈ STRUCTURED_METADATA_PATCH_KEYS
      · simp [hstructured]
      · simp [hstatus, hstructured]
  have hconflict : isText (((issue.metadata.merge ((input.metadata.erase TASK_STATUS_KEYS).erase
      STRUCTURED_METADATA_PATCH_KEYS)).set "hubStatus"
        (.str (statusText input.hubStatus))).get "sync_state") "conflict" =
      givenConflict issue.metadata input := by
    rw [hmerged, if_neg (by decide), givenConflict]
  rw [transitionMetadata, get_setFailure, get_setClaim, metadata_projection,
    clearStaleHubStatusMetadata, hconflict]
  show (if key = "failed" then _ else if key = "failureReason" then _ else
    if key = "claim" then _ else (Record.erase _ (staleKeys input.hubStatus
      (givenConflict issue.metadata input))).get key) = _
  rw [Record.get_erase, hmerged]

theorem removed_key (h : issue.metadata.get key ≠ none)
    (hgone : (transitionMetadata issue.projection input).get key = none) :
    key ∈ REMOVABLE_KEYS := by
  rw [get_transitionMetadata] at hgone
  by_cases hreason : key ∈ REMOVABLE_KEYS
  · exact hreason
  · exfalso
    have hfailed : key ≠ "failed" := by
      rintro rfl
      exact hreason (by decide)
    have hfailure : key ≠ "failureReason" := by
      rintro rfl
      exact hreason (by decide)
    have hclaim : key ≠ "claim" := by
      rintro rfl
      exact hreason (by decide)
    have hstale : key ∉ staleKeys input.hubStatus (givenConflict issue.metadata input) :=
      fun hstale => hreason (List.mem_cons_of_mem _ (staleKeys_subset hstale))
    rw [if_neg hfailed, if_neg hfailure, if_neg hclaim, if_neg hstale] at hgone
    split at hgone
    · cases hgone
    · rw [givenValue] at hgone
      cases hstored : issue.metadata.get key with
      | none => exact h hstored
      | some value =>
        rw [hstored] at hgone
        simp at hgone

theorem removable_trimmed : ∀ key ∈ REMOVABLE_KEYS, trim key = key ∧ key ≠ "" := by
  decide

theorem mem_transitionRemoves : key ∈ transitionRemoves issue input ↔
    issue.metadata.get key ≠ none ∧ (transitionMetadata issue.projection input).get key = none := by
  rw [transitionRemoves, removedMetadataKeys, List.mem_filter, Record.mem_keys,
    Option.isNone_iff_eq_none]

theorem mem_unsetMetadataArgs :
    key ∈ unsetMetadataArgs (transitionRemoves issue input) ↔
      key ∈ transitionRemoves issue input := by
  have hproper : ∀ k ∈ transitionRemoves issue input, trim k = k ∧ k ≠ "" := by
    intro k hk
    have hremoved := mem_transitionRemoves.mp hk
    exact removable_trimmed k (removed_key hremoved.1 hremoved.2)
  rw [unsetMetadataArgs, uniqueStrings, List.mem_eraseDups, List.mem_filter, List.mem_map]
  constructor
  · rintro ⟨⟨k, hk, rfl⟩, -⟩
    rw [(hproper k hk).1]
    exact hk
  · intro hk
    exact ⟨⟨key, hk, (hproper key hk).1⟩, by simpa using (hproper key hk).2⟩

theorem get_transitioned : (transitioned issue input).metadata.get key =
    (transitionMetadata issue.projection input).get key := by
  have hwritten : ((transitionUpdate issue.projection input).apply issue).metadata.get key =
      ((transitionMetadata issue.projection input).get key).or (issue.metadata.get key) := by
    show ((issue.metadata.merge (transitionMetadata issue.projection input)).erase []).get key = _
    rw [Record.get_erase, if_neg List.not_mem_nil, Record.get_merge]
  have hremoved : key ∈ transitionRemoves issue input ↔ issue.metadata.get key ≠ none ∧
      (transitionMetadata issue.projection input).get key = none := mem_transitionRemoves
  rw [transitioned]
  split
  · rename_i hempty
    rw [hwritten]
    have hnone : key ∉ transitionRemoves issue input := by
      rw [List.isEmpty_iff.mp hempty]
      exact List.not_mem_nil
    cases hnew : (transitionMetadata issue.projection input).get key with
    | some value => rfl
    | none =>
      by_contra hstored
      exact hnone (hremoved.mpr ⟨hstored, hnew⟩)
  · show ((((transitionUpdate issue.projection input).apply issue).metadata.merge []).erase
      (unsetMetadataArgs (transitionRemoves issue input))).get key = _
    rw [Record.get_erase, Record.get_merge, Record.get_nil, Option.none_or, hwritten]
    by_cases hmem : key ∈ transitionRemoves issue input
    · rw [if_pos (mem_unsetMetadataArgs.mpr hmem), (hremoved.mp hmem).2]
    · rw [if_neg fun h => hmem (mem_unsetMetadataArgs.mp h)]
      cases hnew : (transitionMetadata issue.projection input).get key with
      | some value => rfl
      | none =>
        by_contra hstored
        exact hmem (hremoved.mpr ⟨hstored, hnew⟩)

end ArchLoop.TaskBoard
