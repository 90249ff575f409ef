import ArchLoop.TaskClaim
import ArchLoop.Proofs.SnapshotPatch
import ArchLoop.Proofs.StatusAgreement

/-!
# `ArchLoop.Proofs.ClaimAgreement`: the claim that is returned and the claim that is stored

The transition of a claim prefers a claim that the record already has over the one in the patch.
`transition_leaves` says what a transition that returns has left, whatever the store did to its
commands, and `claimAgrees_iff` when the stored claim, that of the returned task and the returned
claim are one: when the record had no claim left over.
-/

set_option autoImplicit false

namespace ArchLoop.TaskBoard

open ArchLoop.Lib

/-! ### A transition that returns -/

section
variable {s t : BeadsStore} {id : TaskId} {issue : BeadsIssue}

theorem load_returns (h : s.issue id = some issue) (hid : ProperId id) {task : HubTaskProjection}
    (hrun : (loadHubTask id).run s = (.ok task, t)) :
    task = issue.projection ∧ t.issues = s.issues := by
  have hload := run_load h hid
  cases hrest : afterLoad s.outages with
  | none =>
    obtain ⟨message, hfails⟩ := hload.2 hrest
    rw [hrun] at hfails
    cases hfails
  | some rest =>
    have hok := hload.1 rest hrest
    rw [hrun] at hok
    cases hok
    exact ⟨rfl, rfl⟩

theorem update_returns (h : s.issue id = some issue) {failureLabel : String} {update : BdUpdate}
    (hrun : (bdUpdate failureLabel id update).run s = (.ok (), t)) :
    t.issue id = some (update.apply issue) := by
  rw [bdUpdate, bdCommand, Prog.act_bind, Prog.run_act] at hrun
  by_cases hdone : s.outcome = .done
  · rw [if_pos hdone, h] at hrun
    cases hrun
    have hissue : (s.command fun s => s.changeIssue id update.apply).issues =
        (s.changeIssue id update.apply).issues := by
      rw [BeadsStore.command, hdone, if_neg (by decide)]
    have hchanged : (s.changeIssue id update.apply).issue id = some (update.apply issue) := by
      rw [issue_changeIssue (id_apply update), h, Option.map_some, if_pos rfl]
    rw [BeadsStore.issue, hissue]
    exact hchanged
  · rw [if_neg hdone] at hrun
    cases hrun

theorem issue_of_issues (h : t.issues = s.issues) : t.issue id = s.issue id := by
  rw [BeadsStore.issue, BeadsStore.issue, h]

theorem transition_leaves {input : UpdateHubTaskStatusInput}
    (h : s.issue input.taskId = some issue) (hid : ProperId input.taskId)
    {task : HubTaskProjection}
    (hrun : (transitionHubTaskStatus input).run s = (.ok task, t)) :
    t.issue input.taskId = some (transitioned issue input) ∧
      task = (transitioned issue input).projection := by
  rw [transitionHubTaskStatus] at hrun
  obtain ⟨loaded, t₁, hload, hwrite⟩ := Prog.run_bind_eq_ok.mp hrun
  obtain ⟨rfl, hissues₁⟩ := load_returns h hid hload
  have h₁ : t₁.issue input.taskId = some issue := (issue_of_issues hissues₁).trans h
  rw [writeTransition] at hwrite
  obtain ⟨⟨⟩, t₂, hupdate, hrest⟩ := Prog.run_bind_eq_ok.mp hwrite
  have h₂ := update_returns h₁ hupdate
  obtain ⟨⟨⟩, t₃, hunset, hreload⟩ := Prog.run_bind_eq_ok.mp hrest
  have h₃ : t₃.issue input.taskId = some (transitioned issue input) := by
    rw [metadata_projection, ← transitionRemoves] at hunset
    cases hempty : (transitionRemoves issue input).isEmpty with
    | true =>
      rw [hempty] at hunset
      cases hunset
      rw [h₂, transitioned, hempty, if_pos rfl]
    | false =>
      rw [hempty] at hunset
      rw [update_returns h₂ hunset, transitioned, hempty, if_neg Bool.false_ne_true]
  obtain ⟨updated, t₄, hload₄, hassert⟩ := Prog.run_bind_eq_ok.mp hreload
  obtain ⟨rfl, hissues₄⟩ := load_returns h₃ hid hload₄
  obtain ⟨⟨⟩, t₅, hreturning, hend⟩ := Prog.run_bind_eq_ok.mp hassert
  cases hcheck : assertHubTaskTransition (transitioned issue input).projection
      input.hubStatus with
  | error message =>
    rw [hcheck] at hreturning
    cases hreturning
  | ok a =>
    rw [hcheck] at hreturning
    cases hreturning
    cases hend
    exact ⟨(issue_of_issues hissues₄).trans h₃, rfl⟩

end

/-! ### The claim of a transition -/

def claimOf (claim : Record) : HubTaskClaimMetadata where
  runId := readFirstString claim ["runId", "run_id"]
  batchId := readFirstString claim ["batchId", "batch_id"]
  taskId := readFirstString claim ["taskId", "task_id"]
  branch := readFirstString claim ["branch"]
  claimedAt := readFirstString claim ["claimedAt", "claimed_at"]
  baseHead := readFirstString claim ["baseHead", "base_head"]
  branchExistedBeforeClaim :=
    readBoolean claim ["branchExistedBeforeClaim", "branch_existed_before_claim"]
  raw := claim

theorem readHubTaskClaim_eq (metadata : Record) :
    readHubTaskClaim metadata = (readClaimRecord metadata).map claimOf := rfl

theorem readClaimRecord_ne_nil {metadata claim : Record}
    (h : readClaimRecord metadata = some claim) : claim ≠ [] := by
  rw [readClaimRecord] at h
  split at h
  · split at h
    · rename_i hflat
      cases h
      rintro rfl
      exact absurd hflat (by decide)
    · cases h
  · rename_i nested hne
    cases h
    exact hne

structure SameAttempt (a b : HubTaskClaimMetadata) : Prop where
  runId : a.runId = b.runId
  batchId : a.batchId = b.batchId
  taskId : a.taskId = b.taskId
  branch : a.branch = b.branch
  claimedAt : a.claimedAt = b.claimedAt

section
variable {issue : BeadsIssue} {input : UpdateHubTaskStatusInput} {claim : Record}

theorem readHubTaskClaim_transitioned
    (h : resolveTransitionClaim issue.projection input = some claim) (hne : claim ≠ []) :
    readHubTaskClaim (transitioned issue input).metadata = some (claimOf claim) := by
  have hcoalesce : coalesce (transitioned issue input).metadata
      ["claim", "hubClaim", "hub_claim", "taskClaim"] = some (.obj claim) := by
    rw [coalesce, List.findSome?_cons, get_claim, h]
    rfl
  have hrecord : readClaimRecord (transitioned issue input).metadata = some claim := by
    rw [readClaimRecord, hcoalesce]
    cases claim with
    | nil => exact absurd rfl hne
    | cons entry entries => rfl
  rw [readHubTaskClaim_eq, hrecord, Option.map_some]

end

/-! ### `claimHubTask` -/

/-- The texts of the claim are not blank and not padded. -/
structure ProperClaim (input : ClaimHubTaskInput) : Prop where
  taskId : ProperId input.taskId
  branch : ProperId input.branch
  runId : ProperId input.runId
  batchId : ProperId input.batchId
  claimedAt : ProperId input.claimedAt

section
variable {s t : BeadsStore} {issue : BeadsIssue} {input : ClaimHubTaskInput}

theorem readFirstString_head {text key : String} {keys : List String} {r : Record}
    (h : r.get key = some (.str text)) (hproper : ProperId text) :
    readFirstString r (key :: keys) = some text := by
  have hnonBlank : nonBlank text = some text := by
    rw [nonBlank, hproper.trimmed, if_neg hproper.nonempty]
  have hvalue : ((some (Json.str text)).bind Json.text?).bind nonBlank = some text := hnonBlank
  rw [readFirstString, List.findSome?_cons, h, hvalue]

theorem sameAttempt_new (h : ProperClaim input) :
    SameAttempt (claimOf (createHubTaskClaimMetadata input).raw)
      (createHubTaskClaimMetadata input) where
  runId := readFirstString_head rfl h.runId
  batchId := readFirstString_head rfl h.batchId
  taskId := readFirstString_head rfl h.taskId
  branch := readFirstString_head rfl h.branch
  claimedAt := readFirstString_head rfl h.claimedAt

/-- The stored claim and that of the returned task are the returned claim. -/
structure ClaimAgrees (input : ClaimHubTaskInput) (result : ClaimHubTaskResult)
    (t : BeadsStore) : Prop where
  stored : ∃ after claim, t.issue input.taskId = some after ∧
    readHubTaskClaim after.metadata = some claim ∧ ∀ returned ∈ result.claim,
      SameAttempt claim returned
  task : ∃ claim, result.task.claim = some claim ∧ ∀ returned ∈ result.claim,
    SameAttempt claim returned

theorem claimTransition_takes :
    resolveTransitionClaim issue.projection (claimTransition input issue.projection) =
      some ((issue.projection.claim.map (·.raw)).getD (createHubTaskClaimMetadata input).raw) := by
  have hpatch : readPatchClaimRecord (claimTransition input issue.projection).metadata =
      some (createHubTaskClaimMetadata input).raw := by
    have hget : (claimTransition input issue.projection).metadata.get "claim" =
        some (.obj (createHubTaskClaimMetadata input).raw) :=
      Record.get_set.trans (if_pos rfl)
    rw [readPatchClaimRecord, hget]
  have hkeep : shouldClearClaimForStatus .implementing = false := by decide
  show (if shouldClearClaimForStatus .implementing then none
    else if false then _ else ((issue.projection.claim.map (·.raw)).filter (!·.isEmpty)).or
      (readPatchClaimRecord (claimTransition input issue.projection).metadata)) = _
  rw [hkeep, hpatch, if_neg Bool.false_ne_true, if_neg Bool.false_ne_true]
  cases hclaim : readClaimRecord issue.metadata with
  | none =>
    have hnone : issue.projection.claim = none := by
      show readHubTaskClaim issue.metadata = none
      rw [readHubTaskClaim_eq, hclaim]
      rfl
    rw [hnone]
    rfl
  | some claim =>
    have hsome : issue.projection.claim = some (claimOf claim) := by
      show readHubTaskClaim issue.metadata = _
      rw [readHubTaskClaim_eq, hclaim]
      rfl
    have hraw : (some (claimOf claim).raw).filter (fun raw : Record => !raw.isEmpty) =
        some claim := by
      cases hlist : claim with
      | nil => exact absurd hlist (readClaimRecord_ne_nil hclaim)
      | cons entry entries => rfl
    rw [hsome, Option.map_some, hraw]
    rfl

theorem claimOf_taken :
    claimOf ((issue.projection.claim.map (·.raw)).getD (createHubTaskClaimMetadata input).raw) =
      issue.projection.claim.getD (claimOf (createHubTaskClaimMetadata input).raw) := by
  have hprojection : issue.projection.claim = (readClaimRecord issue.metadata).map claimOf := rfl
  rw [hprojection]
  cases readClaimRecord issue.metadata with
  | none => rfl
  | some claim => rfl

theorem taken_ne_nil :
    (issue.projection.claim.map (·.raw)).getD (createHubTaskClaimMetadata input).raw ≠ [] := by
  have hprojection : issue.projection.claim = (readClaimRecord issue.metadata).map claimOf := rfl
  rw [hprojection]
  cases hclaim : readClaimRecord issue.metadata with
  | none => exact List.cons_ne_nil _ _
  | some claim => exact readClaimRecord_ne_nil hclaim

/-- When the returned claim is the stored one: for every stored record, and every run of
`claimHubTask` that returns `claimed`, whatever the store does to its commands. -/
theorem claimAgrees_iff (issue : BeadsIssue) (input : ClaimHubTaskInput)
    (hstored : s.issue input.taskId = some issue) (hproper : ProperClaim input)
    (result : ClaimHubTaskResult) (hrun : (claimHubTask input).run s = (.ok result, t))
    (hclaimed : result.outcome = .claimed) :
    ClaimAgrees input result t ↔
      ∀ left, issue.projection.claim = some left →
        SameAttempt left (createHubTaskClaimMetadata input) := by
  obtain ⟨loaded, t₁, hload, hrest⟩ := Prog.run_bind_eq_ok.mp hrun
  obtain ⟨rfl, hissues⟩ := load_returns hstored hproper.taskId hload
  cases hactive : isHubTaskClaimActive issue.projection.hubStatus with
  | true =>
    rw [hactive, if_pos rfl] at hrest
    cases hrest
    cases hclaimed
  | false =>
    rw [hactive, if_neg Bool.false_ne_true] at hrest
    obtain ⟨updated, t₂, htransition, hend⟩ := Prog.run_bind_eq_ok.mp hrest
    have h₁ : t₁.issue (claimTransition input issue.projection).taskId = some issue :=
      (issue_of_issues hissues).trans hstored
    obtain ⟨hleft, rfl⟩ := transition_leaves h₁ hproper.taskId htransition
    cases hend
    have hread := readHubTaskClaim_transitioned (@claimTransition_takes issue input) taken_ne_nil
    rw [claimOf_taken] at hread
    have hagrees : ClaimAgrees input
        { outcome := .claimed, runId := input.runId, batchId := input.batchId,
          task := (transitioned issue (claimTransition input issue.projection)).projection,
          claim := some (createHubTaskClaimMetadata input) } t ↔
        SameAttempt (issue.projection.claim.getD (claimOf (createHubTaskClaimMetadata input).raw))
          (createHubTaskClaimMetadata input) := by
      constructor
      · intro h
        obtain ⟨claim, hclaim, hsame⟩ := h.task
        cases hread.symm.trans hclaim
        exact hsame _ rfl
      · intro h
        have hreturned : ∀ returned ∈ some (createHubTaskClaimMetadata input),
            SameAttempt (issue.projection.claim.getD
              (claimOf (createHubTaskClaimMetadata input).raw)) returned := by
          intro returned hmem
          cases hmem
          exact h
        exact ⟨⟨_, _, hleft, hread, hreturned⟩, ⟨_, hread, hreturned⟩⟩
    rw [hagrees]
    cases hclaim : issue.projection.claim with
    | none => exact iff_of_true (sameAttempt_new hproper) fun left hleft => by cases hleft
    | some claim =>
      constructor
      · intro h left hsome
        cases hsome
        exact h
      · intro h
        exact h claim rfl

end

/-! ### Two tasks -/

def secondClaim : ClaimHubTaskInput where
  taskId := "bd-1"
  branch := "archloop/fix-login"
  runId := "run-2"
  batchId := "batch-2"
  claimedAt := "2025-01-02T00:00:00.000Z"
  baseHead := none
  branchExistedBeforeClaim := some true

def unclaimedTask : BeadsIssue where
  id := "bd-1"
  title := "Fix login"
  labels := ["ready-for-agent"]
  metadata := [("hubStatus", .str "ready_for_agent")]

theorem properClaim_second : ProperClaim secondClaim :=
  ⟨⟨by decide, by decide⟩, ⟨by decide, by decide⟩, ⟨by decide, by decide⟩,
    ⟨by decide, by decide⟩, ⟨by decide, by decide⟩⟩

theorem claimAgrees_unclaimed : ∃ result t,
    (claimHubTask secondClaim).run { issues := [unclaimedTask] } = (.ok result, t) ∧
      result.outcome = .claimed ∧ ClaimAgrees secondClaim result t := by
  have hreturns : ((claimHubTask secondClaim).run { issues := [unclaimedTask] }).1.toOption.map
      (·.outcome) = some .claimed := by decide +kernel
  have hunclaimed : unclaimedTask.projection.claim.isNone = true := by decide +kernel
  cases hrun : (claimHubTask secondClaim).run { issues := [unclaimedTask] } with
  | mk ending t =>
    rw [hrun] at hreturns
    cases ending with
    | error message => cases hreturns
    | ok result =>
      have hclaimed : result.outcome = .claimed := Option.some.inj hreturns
      refine ⟨result, t, rfl, hclaimed, (claimAgrees_iff unclaimedTask secondClaim rfl
        properClaim_second result hrun hclaimed).mpr fun left hleft => ?_⟩
      rw [hleft] at hunclaimed
      cases hunclaimed

/-- The task failed in a first run, and its claim stayed. -/
def failedOnce : BeadsIssue where
  id := "bd-1"
  title := "Fix login"
  labels := ["failed"]
  metadata := [("hubStatus", .str "failed"), ("failed", .bool true),
    ("failureReason", .str "agent_failed"),
    ("claim", .obj [("runId", .str "run-1"), ("batchId", .str "batch-1"), ("taskId", .str "bd-1"),
      ("branch", .str "archloop/fix-login"), ("claimedAt", .str "2025-01-01T00:00:00.000Z")])]

/-- The second run is told that it has the claim, and the record has that of the first run. -/
theorem firstClaim_stays : ∃ result t,
    (claimHubTask secondClaim).run { issues := [failedOnce] } = (.ok result, t) ∧
      result.outcome = .claimed ∧ result.claim.bind (·.runId) = some "run-2" ∧
      result.task.claim.bind (·.runId) = some "run-1" ∧ ¬ClaimAgrees secondClaim result t := by
  have hreturns : ((claimHubTask secondClaim).run { issues := [failedOnce] }).1.toOption.map
      (fun result => (result.outcome, result.claim.bind (·.runId),
        result.task.claim.bind (·.runId))) =
      some (.claimed, some "run-2", some "run-1") := by decide +kernel
  cases hrun : (claimHubTask secondClaim).run { issues := [failedOnce] } with
  | mk ending t =>
    rw [hrun] at hreturns
    cases ending with
    | error message => cases hreturns
    | ok result =>
      obtain ⟨hclaimed, hreturned, htask⟩ :
          result.outcome = .claimed ∧ result.claim.bind (·.runId) = some "run-2" ∧
            result.task.claim.bind (·.runId) = some "run-1" := by
        simpa using Option.some.inj hreturns
      refine ⟨result, t, rfl, hclaimed, hreturned, htask, fun h => ?_⟩
      obtain ⟨claim, hclaim, hsame⟩ := h.task
      rw [hclaim] at htask
      obtain ⟨returned, hmem, hrunId⟩ := Option.bind_eq_some_iff.mp hreturned
      have hsameRun := (hsame returned hmem).runId
      rw [hrunId, show claim.runId = some "run-1" from htask] at hsameRun
      exact absurd hsameRun (by decide)

end ArchLoop.TaskBoard
