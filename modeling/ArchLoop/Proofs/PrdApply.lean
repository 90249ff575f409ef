import ArchLoop.Lib.Frame
import ArchLoop.PrdDecomposition

/-!
# `ArchLoop.Proofs.PrdApply`: tasks of a proposal and their blockers

While a proposal is applied, no task of a slice with a dependency should be ready for an agent
before the edges to all its blockers are there, and an attempt that fails should leave nothing
behind or something that a second attempt completes (`SafeApply`).

The tasks are created one after the other in their status, and the edges come after the last
one. `safeApply_iff` says when this does no harm: no slice with a dependency is created ready for
an agent, and the attempt comes to its end or fails before the first task.

An attempt is the program on a store whose `outages` say which commands fail, stopped after some
number of its steps, as when the process dies. Other processes only read meanwhile.
-/

set_option autoImplicit false

namespace ArchLoop.TaskBoard

open ArchLoop.Lib

/-! ### Statement -/

def BeadsIssue.text (issue : BeadsIssue) (key : String) : String :=
  ((issue.metadata.get key).bind Json.text?).getD ""

/-- The issue is the task of the slice with the temp id. -/
def isSliceTask (input : ApplyPrdDecompositionProposalInput) (tempId : String)
    (issue : BeadsIssue) : Bool :=
  issue.text "proposal_run_id" = input.proposalRunId && issue.text "slice_temp_id" = tempId

/-- The edges from the task to all its blockers are stored. -/
def BlockersRecorded (input : ApplyPrdDecompositionProposalInput) (s : BeadsStore)
    (issue : BeadsIssue) (tempId : String) : Prop :=
  ∀ dependency ∈ input.proposal.dependencies, dependency.dependentTempId = tempId →
    ∃ blocker ∈ s.issues, isSliceTask input dependency.blockerTempId blocker = true ∧
      (issue.id, blocker.id) ∈ s.edges

/-- No task of a slice is ready for an agent before its blockers are recorded. -/
def NeverEarly (input : ApplyPrdDecompositionProposalInput) (s : BeadsStore) : Prop :=
  ∀ issue ∈ s.issues, ∀ slice ∈ input.proposal.slices,
    isSliceTask input slice.tempId issue = true →
      issue.projection.hubStatus = .readyForAgent → BlockersRecorded input s issue slice.tempId

def HasNoTasks (input : ApplyPrdDecompositionProposalInput) (s : BeadsStore) : Prop :=
  ∀ issue ∈ s.issues, ∀ slice ∈ input.proposal.slices,
    isSliceTask input slice.tempId issue = false

def isDependencyEdge (input : ApplyPrdDecompositionProposalInput) (s : BeadsStore)
    (dependency : PrdProposalDependency) (edge : TaskId × TaskId) : Bool :=
  (s.issues.any fun issue =>
      issue.id = edge.1 && isSliceTask input dependency.dependentTempId issue) &&
    s.issues.any fun issue =>
      issue.id = edge.2 && isSliceTask input dependency.blockerTempId issue

/-- Each slice has one task, and each dependency one edge. -/
structure AppliedOnce (input : ApplyPrdDecompositionProposalInput) (s : BeadsStore) : Prop where
  tasks : ∀ slice ∈ input.proposal.slices,
    (s.issues.filter (isSliceTask input slice.tempId)).length = 1
  edges : ∀ dependency ∈ input.proposal.dependencies,
    (s.edges.filter (isDependencyEdge input s dependency)).length = 1

def hasReturned {α : Type} : BoardProg α → Bool
  | .ret _ => true
  | _ => false

/-- An attempt of `n` steps is harmless.

- `early`: at no moment is a task ready for an agent before its blockers are recorded.
- `retry`: when it does not return, no task of the proposal is left, or a second attempt where
  nothing fails ends with one task for each slice and one edge for each dependency. -/
structure SafeApply (newId : BeadsStore → TaskId) (input : ApplyPrdDecompositionProposalInput)
    (s : BeadsStore) (n : Nat) : Prop where
  early : ∀ m ≤ n, NeverEarly input ((applyPrdDecompositionProposal newId input).crashAfter m s)
  retry : hasReturned ((applyPrdDecompositionProposal newId input).stepsRun n s).1 = false →
    HasNoTasks input ((applyPrdDecompositionProposal newId input).crashAfter n s) ∨
      AppliedOnce input ((applyPrdDecompositionProposal newId input).exec
        { (applyPrdDecompositionProposal newId input).crashAfter n s with outages := [] })

/-- What `bd` does about ids: a new id is not empty, and no issue and no edge has it. -/
structure GivesNewIds (newId : BeadsStore → TaskId) : Prop where
  ne : ∀ s, newId s ≠ ""
  issue : ∀ s, ∀ issue ∈ s.issues, issue.id ≠ newId s
  edge : ∀ s, ∀ edge ∈ s.edges, edge.1 ≠ newId s

/-- How many of `k` tasks are created in `n` steps. -/
def createdCount : List BdOutcome → Nat → Nat → Nat
  | _, 0, _ => 0
  | _, _ + 1, 0 => 0
  | outages, n + 1, k + 1 =>
    match outages.head?.getD .done with
    | .done => createdCount outages.tail n k + 1
    | .refused => 0
    | .lost => 1

/-- All of `k` commands are done in `n` steps. -/
def completes (outages : List BdOutcome) (n k : Nat) : Bool :=
  k ≤ n && (outages.take k).all (· = .done)

/-- The slice has a dependency and its task is created ready for an agent. -/
def createdEarly (input : ApplyPrdDecompositionProposalInput) (slice : PrdProposalSlice) : Bool :=
  resolveSliceHubStatus slice input.hubStatusMode = .readyForAgent &&
    input.proposal.dependencies.any (·.dependentTempId = slice.tempId)

/-! ### The task of a slice -/

@[simp] theorem get_setText_of_ne {record : Record} {key k : String} {text : Option String}
    (h : k ≠ key) : (setText record key text).get k = record.get k := by
  unfold setText
  split
  · split
    · rfl
    · rw [Record.get_set, if_neg h]
  · rfl

def CREATED_KEYS : List String :=
  ["origin", "kind", "slice_type", "prd_ref", "proposal_run_id", "slice_temp_id",
    "warning_severity", "warning_message"]

theorem get_createMetadata_of_notMem {input : CreateHubTaskInput} {k : String}
    (h : k ∉ CREATED_KEYS) : (createMetadata input).get k = none := by
  simp only [CREATED_KEYS, List.mem_cons, List.not_mem_nil, or_false, not_or] at h
  obtain ⟨horigin, hkind, htype, href, hrun, htemp, hseverity, hmessage⟩ := h
  simp only [createMetadata, get_setText_of_ne hmessage, get_setText_of_ne hseverity,
    get_setText_of_ne htemp, get_setText_of_ne hrun, get_setText_of_ne href,
    get_setText_of_ne htype, get_setText_of_ne hkind, Record.get_set, if_neg horigin,
    Record.get_nil]

theorem text_setText {record : Record} {key : String} {text : Option String}
    (h : record.get key = none) :
    (((setText record key text).get key).bind Json.text?).getD "" = text.getD "" := by
  cases text with
  | none =>
    rw [setText, h]
    rfl
  | some text =>
    rw [setText]
    split
    · rename_i hempty
      rw [h, hempty]
      rfl
    · rw [Record.get_set, if_pos rfl]
      rfl

theorem text_runId_created (input : CreateHubTaskInput) (id : TaskId) :
    (createdIssue input id).text "proposal_run_id" = input.proposalRunId.getD "" := by
  simp only [BeadsIssue.text, createdIssue, createMetadata]
  rw [get_setText_of_ne (by decide), get_setText_of_ne (by decide),
    get_setText_of_ne (by decide), text_setText]
  rw [get_setText_of_ne (by decide), get_setText_of_ne (by decide),
    get_setText_of_ne (by decide), Record.get_set, if_neg (by decide), Record.get_nil]

theorem text_tempId_created (input : CreateHubTaskInput) (id : TaskId) :
    (createdIssue input id).text "slice_temp_id" = input.sliceTempId.getD "" := by
  simp only [BeadsIssue.text, createdIssue, createMetadata]
  rw [get_setText_of_ne (by decide), get_setText_of_ne (by decide), text_setText]
  rw [get_setText_of_ne (by decide), get_setText_of_ne (by decide),
    get_setText_of_ne (by decide), get_setText_of_ne (by decide), Record.get_set,
    if_neg (by decide), Record.get_nil]

theorem labelStatus_created (status : CreateHubStatus) (labels : List String) :
    resolveStatusFromLabels (readStringList
        (some (.arr ((CREATE_HUB_STATUS_LABELS status :: labels).map .str)))) =
      some status.hubStatus := by
  cases status with
  | inbox => rfl
  | readyForAgent => rfl
  | readyForHuman => rfl

theorem hubStatus_created (input : CreateHubTaskInput) (id : TaskId) :
    (createdIssue input id).projection.hubStatus = input.hubStatus.hubStatus := by
  have hwritten : resolveMetadataStatus (createMetadata input) = none := by
    refine List.findSome?_eq_none_iff.mpr fun key hkey => ?_
    have hfree : key ∉ CREATED_KEYS := by
      revert key
      decide
    rw [get_createMetadata_of_notMem hfree]
    rfl
  have hreason : resolveStatusFromMetadataReasons (createMetadata input) = none := by
    refine List.findSome?_eq_none_iff.mpr fun rule hrule => ?_
    have hunset : hasTruthyMetadata (createMetadata input) rule.1 = false := by
      refine List.any_eq_false.mpr fun key hkey => ?_
      have hfree : key ∉ CREATED_KEYS := by
        revert key rule
        decide
      rw [get_createMetadata_of_notMem hfree]
      exact Bool.false_ne_true
    rw [hunset, if_neg Bool.false_ne_true]
  show resolveStatusFromTaskShape (createdIssue input id).record _ (createMetadata input) = _
  have hlabel := labelStatus_created input.hubStatus input.extraLabels
  have hdirect : (readFirstString (createdIssue input id).record TASK_STATUS_KEYS).bind
      normalizeHubTaskStatus = none := rfl
  have htext : nonBlank "open" = some "open" := by decide
  have hopen : readFirstString (createdIssue input id).record BEADS_LIFECYCLE_KEYS =
      some "open" := by
    simp [readFirstString, BEADS_LIFECYCLE_KEYS, BeadsIssue.record, createdIssue,
      Record.get_cons, Json.text?, htext]
  have hlifecycle : normalizeBeadsLifecycle "open" = some "open" := by decide
  rw [resolveStatusFromTaskShape, hdirect]
  dsimp only
  rw [hreason, hwritten, hopen, Option.bind_some, hlifecycle]
  show resolveStatusWithoutReason (some "open") (resolveStatusFromLabels (readStringList
    (some (.arr ((CREATE_HUB_STATUS_LABELS input.hubStatus :: input.extraLabels).map .str)))))
    none = _
  rw [hlabel]
  cases input.hubStatus with
  | inbox => rfl
  | readyForAgent => rfl
  | readyForHuman => rfl

/-! ### Sequences of commands -/

/-- A program of `k` commands that stops at the first one that fails, and returns a value with
`Q` after the last one. -/
def Commands {α : Type} (Q : α → Prop) : Nat → BoardProg α → Prop
  | 0, .ret a => Q a
  | k + 1, .act upd next =>
    (∀ s, (upd s).outages = s.outages.tail) ∧
      ∀ s, if s.outcome = .done then Commands Q k (next s) else ∃ e, next s = .raise e
  | _, _ => False

section
variable {α β : Type} {Q : α → Prop} {R : β → Prop}

theorem commands_bdCommand {failureLabel : String} {upd : BeadsStore → BeadsStore}
    {answer : BeadsStore → α} (h : ∀ s, Q (answer s)) :
    Commands Q 1 (bdCommand failureLabel upd answer) := by
  refine ⟨fun s => rfl, fun s => ?_⟩
  dsimp only
  split
  · exact h s
  · exact ⟨_, rfl⟩

theorem commands_bind {k m : Nat} {p : BoardProg α} {f : α → BoardProg β}
    (hp : Commands Q k p) (hf : ∀ a, Q a → Commands R m (f a)) :
    Commands R (k + m) (p.bind f) := by
  induction k generalizing p with
  | zero =>
    cases p with
    | ret a =>
      rw [Nat.zero_add]
      exact hf a hp
    | raise e => exact hp.elim
    | act upd next => exact hp.elim
  | succ k ih =>
    cases p with
    | ret a => exact hp.elim
    | raise e => exact hp.elim
    | act upd next =>
      rw [Nat.succ_add]
      refine ⟨hp.1, fun s => ?_⟩
      have hnext := hp.2 s
      split
      · rename_i hdone
        rw [if_pos hdone] at hnext
        exact ih hnext
      · rename_i hfailed
        rw [if_neg hfailed] at hnext
        obtain ⟨e, he⟩ := hnext
        refine ⟨e, ?_⟩
        dsimp only
        rw [he]
        rfl

theorem completes_done {s : BeadsStore} (h : s.outcome = .done) (n k : Nat) :
    completes s.outages (n + 1) (k + 1) = completes s.outages.tail n k := by
  unfold BeadsStore.outcome at h
  cases houtages : s.outages with
  | nil => simp [completes]
  | cons outcome rest =>
    rw [houtages] at h
    simp only [List.head?_cons, Option.getD_some] at h
    simp [completes, h]

theorem completes_failed {s : BeadsStore} (h : s.outcome ≠ .done) (n k : Nat) :
    completes s.outages n (k + 1) = false := by
  unfold BeadsStore.outcome at h
  cases houtages : s.outages with
  | nil => simp [houtages] at h
  | cons outcome rest =>
    rw [houtages] at h
    simp only [List.head?_cons, Option.getD_some] at h
    simp [completes, h]

theorem hasReturned_stepsRun {k : Nat} {p : BoardProg α} (hp : Commands Q k p) (n : Nat)
    (s : BeadsStore) : hasReturned (p.stepsRun n s).1 = completes s.outages n k := by
  induction k generalizing p n s with
  | zero =>
    cases p with
    | ret a => simp [hasReturned, completes]
    | raise e => exact hp.elim
    | act upd next => exact hp.elim
  | succ k ih =>
    cases p with
    | ret a => exact hp.elim
    | raise e => exact hp.elim
    | act upd next =>
      cases n with
      | zero => simp [hasReturned, completes]
      | succ n =>
        have hnext := hp.2 s
        rw [Prog.stepsRun_act]
        split at hnext
        · rename_i hdone
          rw [ih hnext, hp.1, completes_done hdone]
        · rename_i hfailed
          obtain ⟨e, he⟩ := hnext
          rw [he, Prog.stepsRun_raise, completes_failed hfailed]
          rfl

end

/-! ### The loop over the slices -/

section
variable {newId : BeadsStore → TaskId} {input : ApplyPrdDecompositionProposalInput}
  {slices : List PrdProposalSlice} {s : BeadsStore} {n : Nat}

variable (newId input) in
def addSliceTask (slice : PrdProposalSlice) (s : BeadsStore) : BeadsStore :=
  s.addIssue (createdIssue (sliceTask input slice) (newId s))

variable (newId input) in
/-- The store after `n` steps of the loop. -/
def createdStore : Nat → List PrdProposalSlice → BeadsStore → BeadsStore
  | 0, _, s => s
  | _ + 1, [], s => s
  | n + 1, slice :: slices, s =>
    if s.outcome = .done then createdStore n slices (s.command (addSliceTask newId input slice))
    else s.command (addSliceTask newId input slice)

variable (newId input) in
/-- The loop over the slices, and then `f`. -/
def creatingThen {α : Type} (slices : List PrdProposalSlice)
    (f : List CreateHubTaskResult → BoardProg α) : BoardProg α :=
  (createSliceTasks newId input slices).bind f

theorem creatingThen_cons {α : Type} (slice : PrdProposalSlice)
    (f : List CreateHubTaskResult → BoardProg α) :
    creatingThen newId input (slice :: slices) f =
      (createHubTask newId (sliceTask input slice)).bind fun task =>
        creatingThen newId input slices fun tasks => f (task :: tasks) := by
  simp only [creatingThen, createSliceTasks, Prog.bind_assoc, Prog.ret_bind]

theorem stepsRun_creatingThen_cons {α : Type} (slice : PrdProposalSlice)
    (f : List CreateHubTaskResult → BoardProg α) :
    Prog.stepsRun (n + 1) (creatingThen newId input (slice :: slices) f) s =
      if s.outcome = .done then
        Prog.stepsRun n (creatingThen newId input slices fun tasks =>
          f (readCreated (sliceTask input slice)
            (createdIssue (sliceTask input slice) (newId s)).record :: tasks))
          (s.command (addSliceTask newId input slice))
      else (.raise "archloop tasks create failed",
        s.command (addSliceTask newId input slice)) := by
  rw [creatingThen_cons]
  show Prog.stepsRun n (Prog.bind (if s.outcome = .done then _ else _) _) _ = _
  split
  · rfl
  · rw [Prog.raise_bind, Prog.stepsRun_raise]
    rfl

theorem crashAfter_creatingThen {α : Type} (f : List CreateHubTaskResult → BoardProg α)
    (hn : n ≤ slices.length) :
    (creatingThen newId input slices f).crashAfter n s = createdStore newId input n slices s := by
  induction slices generalizing n s f with
  | nil =>
    obtain rfl : n = 0 := by simpa using hn
    rw [Prog.crashAfter_zero]
    rfl
  | cons slice slices ih =>
    cases n with
    | zero =>
      rw [Prog.crashAfter_zero]
      rfl
    | succ n =>
      rw [Prog.crashAfter, stepsRun_creatingThen_cons, createdStore]
      have hrest : n ≤ slices.length := by simpa using hn
      split
      · exact ih _ hrest
      · rfl

theorem issues_crashAfter_creatingThen {α : Type} (f : List CreateHubTaskResult → BoardProg α)
    (hf : ∀ tasks, Prog.Keeps BeadsStore.issues (f tasks)) :
    ((creatingThen newId input slices f).crashAfter n s).issues =
      (createdStore newId input n slices s).issues := by
  induction slices generalizing n s f with
  | nil =>
    have hsame := (hf []).crashAfter n s
    cases n with
    | zero => exact hsame
    | succ n => exact hsame
  | cons slice slices ih =>
    cases n with
    | zero =>
      rw [Prog.crashAfter_zero]
      rfl
    | succ n =>
      rw [Prog.crashAfter, stepsRun_creatingThen_cons, createdStore]
      split
      · exact ih _ fun tasks => hf _
      · rfl

theorem issues_exec_creatingThen {α : Type} (f : List CreateHubTaskResult → BoardProg α)
    (hf : ∀ tasks, Prog.Keeps BeadsStore.issues (f tasks)) :
    ((creatingThen newId input slices f).exec s).issues =
      (createdStore newId input slices.length slices s).issues := by
  induction slices generalizing s f with
  | nil => exact (hf []).run s
  | cons slice slices ih =>
    rw [List.length_cons, createdStore, creatingThen_cons]
    show BeadsStore.issues (Prog.run (Prog.bind (if s.outcome = .done then _ else _) _) _).2 = _
    split
    · exact ih _ fun tasks => hf _
    · rfl

variable (newId input) in
theorem command_addSliceTask (slice : PrdProposalSlice) (s : BeadsStore) :
    (s.command (addSliceTask newId input slice)).edges = s.edges ∧
    (s.command (addSliceTask newId input slice)).outages = s.outages.tail ∧
    (s.command (addSliceTask newId input slice)).issues =
      if s.outcome = .refused then s.issues
      else s.issues ++ [createdIssue (sliceTask input slice) (newId s)] := by
  unfold BeadsStore.command
  dsimp only
  split
  · exact ⟨rfl, rfl, rfl⟩
  · exact ⟨rfl, rfl, rfl⟩

theorem edges_createdStore : (createdStore newId input n slices s).edges = s.edges := by
  have hcommand := fun slice s => (command_addSliceTask newId input slice s).1
  induction slices generalizing n s with
  | nil => cases n <;> rfl
  | cons slice slices ih =>
    cases n with
    | zero => rfl
    | succ n =>
      rw [createdStore]
      split
      · rw [ih, hcommand]
      · rw [hcommand]

variable (input) in
def newTasks (ids : List (PrdProposalSlice × TaskId)) : List BeadsIssue :=
  ids.map fun entry => createdIssue (sliceTask input entry.1) entry.2

variable (input) in
/-- The loop adds one task for each slice, up to the first command that fails. No edge has one of
the new ids. -/
theorem exists_createdTasks (hids : GivesNewIds newId) (n : Nat) (slices : List PrdProposalSlice)
    (s : BeadsStore) :
    ∃ ids, (createdStore newId input n slices s).issues = s.issues ++ newTasks input ids ∧
      ids.map Prod.fst = slices.take (createdCount s.outages n slices.length) ∧
      ∀ entry ∈ ids, ∀ edge ∈ s.edges, edge.1 ≠ entry.2 := by
  induction slices generalizing n s with
  | nil =>
    refine ⟨[], ?_, ?_, by simp⟩
    · cases n <;> simp [createdStore, newTasks]
    · rw [List.take_nil]
      rfl
  | cons slice slices ih =>
    cases n with
    | zero =>
      exact ⟨[], by simp [createdStore, newTasks], by simp [createdCount], by simp⟩
    | succ n =>
      have hcount : createdCount s.outages (n + 1) (slices.length + 1) =
          match s.outcome with
          | .done => createdCount s.outages.tail n slices.length + 1
          | .refused => 0
          | .lost => 1 := rfl
      rw [createdStore, List.length_cons, hcount]
      obtain ⟨hedges, houtages, hissues⟩ := command_addSliceTask newId input slice s
      have hnew : ∀ edge ∈ s.edges, edge.1 ≠ newId s := hids.edge s
      cases houtcome : s.outcome with
      | done =>
        obtain ⟨ids, hids', hslices, hfree⟩ := ih n (s.command (addSliceTask newId input slice))
        rw [houtcome, if_neg (by decide)] at hissues
        rw [hissues] at hids'
        rw [houtages] at hslices
        rw [hedges] at hfree
        refine ⟨(slice, newId s) :: ids, ?_, ?_, ?_⟩
        · rw [if_pos rfl, hids', List.append_assoc]
          rfl
        · rw [List.take_succ_cons, List.map_cons, hslices]
        · intro entry hentry
          rcases List.mem_cons.mp hentry with rfl | hrest
          · exact hnew
          · exact hfree entry hrest
      | refused =>
        rw [houtcome, if_pos rfl] at hissues
        refine ⟨[], ?_, rfl, by simp⟩
        rw [if_neg (by decide), hissues]
        exact (List.append_nil _).symm
      | lost =>
        rw [houtcome, if_neg (by decide)] at hissues
        refine ⟨[(slice, newId s)], ?_, ?_, ?_⟩
        · rw [if_neg (by decide), hissues]
          rfl
        · rw [List.take_succ_cons, List.take_zero]
          rfl
        · intro entry hentry
          rw [List.mem_singleton.mp hentry]
          exact hnew

theorem createdCount_le_steps (outages : List BdOutcome) (n k : Nat) :
    createdCount outages n k ≤ n := by
  induction n generalizing outages k with
  | zero => simp [createdCount]
  | succ n ih =>
    cases k with
    | zero => simp [createdCount]
    | succ k =>
      rw [createdCount]
      split
      · exact Nat.succ_le_succ (ih _ _)
      · omega
      · omega

theorem createdCount_le (outages : List BdOutcome) (n k : Nat) :
    createdCount outages n k ≤ k := by
  induction n generalizing outages k with
  | zero => simp [createdCount]
  | succ n ih =>
    cases k with
    | zero => simp [createdCount]
    | succ k =>
      rw [createdCount]
      split
      · exact Nat.succ_le_succ (ih _ _)
      · omega
      · omega

theorem createdCount_createdCount (outages : List BdOutcome) (n k : Nat) :
    createdCount outages (createdCount outages n k) k = createdCount outages n k := by
  induction n generalizing outages k with
  | zero => simp [createdCount]
  | succ n ih =>
    cases k with
    | zero => simp [createdCount]
    | succ k =>
      cases houtcome : outages.head?.getD .done with
      | done => simp [createdCount, houtcome, ih]
      | refused => simp [createdCount, houtcome]
      | lost => simp [createdCount, houtcome]

theorem createdCount_mono (outages : List BdOutcome) {m n : Nat} (k : Nat) (h : m ≤ n) :
    createdCount outages m k ≤ createdCount outages n k := by
  induction m generalizing outages n k with
  | zero => simp [createdCount]
  | succ m ih =>
    obtain ⟨n, rfl⟩ : ∃ n', n = n' + 1 := ⟨n - 1, by omega⟩
    cases k with
    | zero => simp [createdCount]
    | succ k =>
      have hrest : m ≤ n := by omega
      cases houtcome : outages.head?.getD .done with
      | done => simp [createdCount, houtcome, ih _ _ hrest]
      | refused => simp [createdCount, houtcome]
      | lost => simp [createdCount, houtcome]

theorem createdCount_nil (k : Nat) : createdCount [] k k = k := by
  induction k with
  | zero => rfl
  | succ k ih =>
    rw [createdCount]
    exact congrArg (· + 1) ih

end

/-! ### Valid proposals -/

theorem nodup_of_repeatedTempIds {seen tempIds : List String}
    (h : repeatedTempIds seen tempIds = []) :
    tempIds.Nodup ∧ ∀ tempId ∈ tempIds, tempId ∉ seen := by
  induction tempIds generalizing seen with
  | nil => exact ⟨List.nodup_nil, by simp⟩
  | cons tempId rest ih =>
    rw [repeatedTempIds] at h
    split at h
    · cases h
    · rename_i hnew
      obtain ⟨hnodup, hfree⟩ := ih h
      refine ⟨List.nodup_cons.mpr ⟨fun hmem => ?_, hnodup⟩, fun other hother => ?_⟩
      · exact hfree tempId hmem (List.mem_cons_self ..)
      · rcases List.mem_cons.mp hother with rfl | hrest
        · exact hnew
        · exact fun hseen => hfree other hrest (List.mem_cons_of_mem _ hseen)

/-- What the validation promises: there is a slice, the temp ids are distinct, and the
dependencies are between slices. -/
structure ValidProposal (proposal : PrdDecompositionProposal) : Prop where
  slices : proposal.slices ≠ []
  nodup : (proposal.slices.map (·.tempId)).Nodup
  dependent : ∀ dependency ∈ proposal.dependencies,
    dependency.dependentTempId ∈ proposal.slices.map (·.tempId)
  blocker : ∀ dependency ∈ proposal.dependencies,
    dependency.blockerTempId ∈ proposal.slices.map (·.tempId)

theorem eq_nil_of_eraseDups {texts : List String} (h : ¬ (!texts.eraseDups.isEmpty) = true) :
    texts = [] := by
  cases texts with
  | nil => rfl
  | cons text texts =>
    rw [List.eraseDups_cons] at h
    exact absurd rfl h

theorem validProposal_of_ok {proposal : PrdDecompositionProposal} {unattended : Bool}
    (h : validatePrdDecompositionProposal proposal unattended = .ok ()) :
    ValidProposal proposal := by
  unfold validatePrdDecompositionProposal at h
  simp only [bind, Except.bind, pure, Except.pure, throw, throwThe, MonadExceptOf.throw] at h
  split at h
  · cases h
  rename_i hslices
  split at h
  · cases h
  split at h
  · cases h
  rename_i hduplicate
  split at h
  · cases h
  rename_i hunknown
  have hnodup := (nodup_of_repeatedTempIds (eq_nil_of_eraseDups hduplicate)).1
  have hknown := List.filter_eq_nil_iff.mp (eq_nil_of_eraseDups hunknown)
  have hends : ∀ dependency ∈ proposal.dependencies, ∀ tempId ∈
      [dependency.dependentTempId, dependency.blockerTempId],
      tempId ∈ proposal.slices.map (·.tempId) := by
    intro dependency hdependency tempId htempId
    have hreferenced := hknown tempId (List.mem_append_left _
      (List.mem_flatMap.mpr ⟨dependency, hdependency, htempId⟩))
    simpa using hreferenced
  refine ⟨?_, hnodup, fun dependency hdependency => ?_, fun dependency hdependency => ?_⟩
  · intro hnil
    rw [hnil] at hslices
    exact hslices rfl
  · exact hends dependency hdependency _ (by simp)
  · exact hends dependency hdependency _ (by simp)

/-! ### The loop over the dependencies -/

section
variable {newId : BeadsStore → TaskId} {input : ApplyPrdDecompositionProposalInput}

theorem keepsIssues_addDependencies (taskIdOf : String → Option TaskId)
    (dependencies : List PrdProposalDependency) :
    Prog.Keeps BeadsStore.issues (addDependencies taskIdOf dependencies) := by
  induction dependencies with
  | nil => trivial
  | cons dependency dependencies ih =>
    rw [addDependencies]
    split
    · refine Prog.always_bind (fun s => ⟨?_, ?_⟩) fun _ =>
        Prog.always_bind ih fun _ => trivial
      · unfold BeadsStore.command
        dsimp only
        split
        · rfl
        · rfl
      · dsimp only
        split
        · trivial
        · trivial
    · exact ih

theorem commands_addDependencies {taskIdOf : String → Option TaskId}
    {dependencies : List PrdProposalDependency}
    (h : ∀ dependency ∈ dependencies, (taskIdOf dependency.dependentTempId).isSome = true ∧
      (taskIdOf dependency.blockerTempId).isSome = true) :
    Commands (fun _ => True) dependencies.length (addDependencies taskIdOf dependencies) := by
  induction dependencies with
  | nil => trivial
  | cons dependency dependencies ih =>
    obtain ⟨hdependent, hblocker⟩ := h dependency (List.mem_cons_self ..)
    obtain ⟨dependentId, hdependentId⟩ := Option.isSome_iff_exists.mp hdependent
    obtain ⟨blockerId, hblockerId⟩ := Option.isSome_iff_exists.mp hblocker
    have hrest := ih fun other hother => h other (List.mem_cons_of_mem _ hother)
    rw [addDependencies, hdependentId, hblockerId, List.length_cons, Nat.add_comm]
    refine commands_bind (commands_bdCommand (Q := fun _ => True) fun _ => trivial) fun _ _ => ?_
    exact commands_bind (m := 0) hrest fun _ _ => trivial

theorem commands_createSliceTasks (hids : GivesNewIds newId) (slices : List PrdProposalSlice) :
    Commands (fun tasks => tasks.length = slices.length ∧ ∀ task ∈ tasks, task.id ≠ "")
      slices.length (createSliceTasks newId input slices) := by
  induction slices with
  | nil => exact ⟨rfl, by simp⟩
  | cons slice slices ih =>
    rw [createSliceTasks, List.length_cons, Nat.add_comm]
    refine commands_bind (commands_bdCommand (Q := fun task => task.id ≠ "") fun s => ?_)
      fun task htask => commands_bind (m := 0) ih fun tasks htasks => ?_
    · exact hids.ne s
    · refine ⟨by rw [List.length_cons, htasks.1, Nat.add_comm], fun other hother => ?_⟩
      rcases List.mem_cons.mp hother with rfl | hrest
      · exact htask
      · exact htasks.2 other hrest

theorem isSome_tempIdToTaskId {slices : List PrdProposalSlice} {tasks : List CreateHubTaskResult}
    {tempId : String} (hlength : tasks.length = slices.length)
    (hne : ∀ task ∈ tasks, task.id ≠ "") (hmem : tempId ∈ slices.map (·.tempId)) :
    (tempIdToTaskId slices tasks tempId).isSome = true := by
  obtain ⟨slice, hslice, hid⟩ := List.mem_map.mp hmem
  rw [← List.map_fst_zip (le_of_eq hlength.symm)] at hslice
  obtain ⟨pair, hpair, rfl⟩ := List.mem_map.mp hslice
  have hfound : ((slices.zip tasks).reverse.find? (·.1.tempId = tempId)).isSome = true :=
    List.find?_isSome.mpr ⟨pair, List.mem_reverse.mpr hpair, decide_eq_true hid⟩
  obtain ⟨found, hfound⟩ := Option.isSome_iff_exists.mp hfound
  have hzip := List.mem_reverse.mp (List.mem_of_find?_eq_some hfound)
  have hne' := hne found.2 (List.of_mem_zip hzip).2
  rw [tempIdToTaskId, hfound, Option.map_some, Option.filter_some, if_pos (by simpa using hne')]
  rfl

theorem commands_apply (hids : GivesNewIds newId)
    (hvalid : validatePrdDecompositionProposal input.proposal
      (input.hubStatusMode = .classifiedReady) = .ok ()) :
    Commands (fun _ => True)
      (input.proposal.slices.length + input.proposal.dependencies.length)
      (applyPrdDecompositionProposal newId input) := by
  have hproposal := validProposal_of_ok hvalid
  rw [applyPrdDecompositionProposal, hvalid]
  refine commands_bind (commands_createSliceTasks hids _) fun tasks htasks => ?_
  refine commands_bind (m := 0) (commands_addDependencies fun dependency hdependency => ?_)
    fun _ _ => trivial
  exact ⟨isSome_tempIdToTaskId htasks.1 htasks.2 (hproposal.dependent dependency hdependency),
    isSome_tempIdToTaskId htasks.1 htasks.2 (hproposal.blocker dependency hdependency)⟩

/-! ### What an attempt leaves -/

theorem isSliceTask_created {slice : PrdProposalSlice} {id : TaskId} {tempId : String} :
    isSliceTask input tempId (createdIssue (sliceTask input slice) id) = true ↔
      slice.tempId = tempId := by
  rw [isSliceTask, text_runId_created, text_tempId_created, Bool.and_eq_true, decide_eq_true_iff,
    decide_eq_true_iff]
  simp [sliceTask]

variable {s : BeadsStore}

variable (newId) in
theorem exists_creatingThen (hvalid : validatePrdDecompositionProposal input.proposal
      (input.hubStatusMode = .classifiedReady) = .ok ()) :
    ∃ f, applyPrdDecompositionProposal newId input =
        creatingThen newId input input.proposal.slices f ∧
      ∀ tasks, Prog.Keeps BeadsStore.issues (f tasks) := by
  refine ⟨fun tasks => (addDependencies (tempIdToTaskId input.proposal.slices tasks)
    input.proposal.dependencies).bind fun added => .ret (tasks, added), ?_, ?_⟩
  · rw [applyPrdDecompositionProposal, hvalid]
    rfl
  · intro tasks
    exact Prog.always_bind (keepsIssues_addDependencies _ _) fun _ => trivial

theorem exists_tasks_crashAfter (hids : GivesNewIds newId)
    (hvalid : validatePrdDecompositionProposal input.proposal
      (input.hubStatusMode = .classifiedReady) = .ok ()) (n : Nat) :
    ∃ ids, ((applyPrdDecompositionProposal newId input).crashAfter n s).issues =
        s.issues ++ newTasks input ids ∧
      ids.map Prod.fst = input.proposal.slices.take
        (createdCount s.outages n input.proposal.slices.length) ∧
      ∀ entry ∈ ids, ∀ edge ∈ s.edges, edge.1 ≠ entry.2 := by
  obtain ⟨f, hprogram, hf⟩ := exists_creatingThen newId hvalid
  rw [hprogram, issues_crashAfter_creatingThen f hf]
  exact exists_createdTasks input hids n _ s

theorem edges_crashAfter_createdCount (hvalid : validatePrdDecompositionProposal input.proposal
      (input.hubStatusMode = .classifiedReady) = .ok ()) (n : Nat) :
    ((applyPrdDecompositionProposal newId input).crashAfter
      (createdCount s.outages n input.proposal.slices.length) s).edges = s.edges := by
  obtain ⟨f, hprogram, -⟩ := exists_creatingThen newId hvalid
  rw [hprogram, crashAfter_creatingThen f (createdCount_le _ _ _), edges_createdStore]

theorem not_appliedOnce_of_task {slice : PrdProposalSlice} {issue : BeadsIssue}
    (hids : GivesNewIds newId) (hvalid : validatePrdDecompositionProposal input.proposal
      (input.hubStatusMode = .classifiedReady) = .ok ())
    (hslice : slice ∈ input.proposal.slices) (hissue : issue ∈ s.issues)
    (htask : isSliceTask input slice.tempId issue = true) (houtages : s.outages = []) :
    ¬ AppliedOnce input ((applyPrdDecompositionProposal newId input).exec s) := by
  intro h
  obtain ⟨f, hprogram, hf⟩ := exists_creatingThen newId hvalid
  obtain ⟨ids, hissues, hall, -⟩ :=
    exists_createdTasks input hids input.proposal.slices.length input.proposal.slices s
  rw [houtages, createdCount_nil, List.take_length] at hall
  have hone := h.tasks slice hslice
  rw [hprogram, issues_exec_creatingThen f hf, hissues, List.filter_append, List.length_append]
    at hone
  have hold : 0 < (s.issues.filter (isSliceTask input slice.tempId)).length :=
    List.length_pos_of_mem (List.mem_filter.mpr ⟨hissue, htask⟩)
  rw [← hall] at hslice
  obtain ⟨entry, hentry, rfl⟩ := List.mem_map.mp hslice
  have hnew : 0 < ((newTasks input ids).filter (isSliceTask input entry.1.tempId)).length := by
    refine List.length_pos_of_mem (List.mem_filter.mpr ⟨List.mem_map_of_mem hentry, ?_⟩)
    exact isSliceTask_created.mpr rfl
  omega

/-- **Applying a proposal.** An attempt is harmless exactly when it creates no task of a slice
with a dependency ready for an agent, and comes to its end or fails before the first task. -/
theorem safeApply_iff (hids : GivesNewIds newId)
    (hvalid : validatePrdDecompositionProposal input.proposal
      (input.hubStatusMode = .classifiedReady) = .ok ())
    (hnone : HasNoTasks input s) (n : Nat) :
    SafeApply newId input s n ↔
      (∀ slice ∈ input.proposal.slices.take
          (createdCount s.outages n input.proposal.slices.length),
        createdEarly input slice = false) ∧
      (completes s.outages n
          (input.proposal.slices.length + input.proposal.dependencies.length) = true ∨
        createdCount s.outages n input.proposal.slices.length = 0) := by
  have hreturned := hasReturned_stepsRun (commands_apply hids hvalid) n s
  constructor
  · intro h
    refine ⟨fun slice hslice => ?_, ?_⟩
    · rw [Bool.eq_false_iff]
      intro hearly
      simp only [createdEarly, Bool.and_eq_true, decide_eq_true_eq, List.any_eq_true] at hearly
      obtain ⟨hready, dependency, hdependency, hdependent⟩ := hearly
      -- At this moment the tasks are there, and none of the edges.
      obtain ⟨ids, hissues, hall, hfree⟩ := exists_tasks_crashAfter hids hvalid (s := s)
        (createdCount s.outages n input.proposal.slices.length)
      rw [createdCount_createdCount] at hall
      rw [← hall] at hslice
      obtain ⟨entry, hentry, rfl⟩ := List.mem_map.mp hslice
      have hmem : createdIssue (sliceTask input entry.1) entry.2 ∈
          ((applyPrdDecompositionProposal newId input).crashAfter
            (createdCount s.outages n input.proposal.slices.length) s).issues := by
        rw [hissues]
        exact List.mem_append_right _ (List.mem_map_of_mem hentry)
      have hproposed : entry.1 ∈ input.proposal.slices := by
        rw [hall] at hslice
        exact List.mem_of_mem_take hslice
      have hstatus : (createdIssue (sliceTask input entry.1) entry.2).projection.hubStatus =
          .readyForAgent := by
        rw [hubStatus_created]
        show (resolveSliceHubStatus entry.1 input.hubStatusMode).hubStatus = _
        rw [hready]
        rfl
      obtain ⟨blocker, -, -, hedge⟩ := h.early _ (createdCount_le_steps _ _ _) _ hmem _ hproposed
        (isSliceTask_created.mpr rfl) hstatus dependency hdependency hdependent
      rw [edges_crashAfter_createdCount hvalid] at hedge
      exact hfree entry hentry _ hedge rfl
    · by_contra hunsafe
      rw [not_or, Bool.not_eq_true] at hunsafe
      obtain ⟨hfailed, hcount⟩ := hunsafe
      obtain ⟨ids, hissues, hall, -⟩ := exists_tasks_crashAfter hids hvalid (s := s) n
      -- The first slice has a task.
      obtain ⟨slice, rest, hslices⟩ :=
        List.exists_cons_of_ne_nil (validProposal_of_ok hvalid).slices
      have hfirst : slice ∈ ids.map Prod.fst := by
        obtain ⟨count, hsucc⟩ := Nat.exists_eq_succ_of_ne_zero hcount
        rw [hall, hsucc, hslices, List.take_succ_cons]
        exact List.mem_cons_self ..
      obtain ⟨entry, hentry, rfl⟩ := List.mem_map.mp hfirst
      have hmem : createdIssue (sliceTask input entry.1) entry.2 ∈
          ((applyPrdDecompositionProposal newId input).crashAfter n s).issues := by
        rw [hissues]
        exact List.mem_append_right _ (List.mem_map_of_mem hentry)
      have hproposed : entry.1 ∈ input.proposal.slices := by
        rw [hslices]
        exact List.mem_cons_self ..
      rcases h.retry (hreturned.trans hfailed) with hleft | honce
      · have hnot := hleft _ hmem _ hproposed
        rw [isSliceTask_created.mpr rfl] at hnot
        cases hnot
      · exact not_appliedOnce_of_task
          (s := { (applyPrdDecompositionProposal newId input).crashAfter n s with outages := [] })
          hids hvalid hproposed hmem (isSliceTask_created.mpr rfl) rfl honce
  · intro h
    obtain ⟨hnever, hend⟩ := h
    refine ⟨fun m hm issue hissue slice hslice htask hstatus => ?_, fun hfailed => ?_⟩
    · obtain ⟨ids, hissues, hall, -⟩ := exists_tasks_crashAfter hids hvalid (s := s) m
      rw [hissues, List.mem_append] at hissue
      rcases hissue with hold | hnew
      · rw [hnone issue hold slice hslice] at htask
        cases htask
      · obtain ⟨entry, hentry, rfl⟩ := List.mem_map.mp hnew
        have htempId := isSliceTask_created.mp htask
        have htaken : entry.1 ∈ input.proposal.slices.take
            (createdCount s.outages n input.proposal.slices.length) := by
          have hmem : entry.1 ∈ ids.map Prod.fst := List.mem_map_of_mem hentry
          rw [hall] at hmem
          exact List.take_subset_take_left _ (createdCount_mono _ _ hm) hmem
        have hlate := hnever entry.1 htaken
        -- The slice has no dependency.
        intro dependency hdependency hdependent
        rw [hubStatus_created] at hstatus
        have hready : resolveSliceHubStatus entry.1 input.hubStatusMode = .readyForAgent := by
          have hsame : (resolveSliceHubStatus entry.1 input.hubStatusMode).hubStatus =
              .readyForAgent := hstatus
          revert hsame
          cases resolveSliceHubStatus entry.1 input.hubStatusMode <;> decide
        have hearly : createdEarly input entry.1 = true := by
          simp only [createdEarly, Bool.and_eq_true, decide_eq_true_eq, List.any_eq_true]
          exact ⟨hready, dependency, hdependency, hdependent.trans htempId.symm⟩
        rw [hearly] at hlate
        cases hlate
    · rcases hend with hdone | hcount
      · rw [hreturned, hdone] at hfailed
        cases hfailed
      · left
        obtain ⟨ids, hissues, hall, -⟩ := exists_tasks_crashAfter hids hvalid (s := s) n
        rw [hcount, List.take_zero, List.map_eq_nil_iff] at hall
        intro issue hissue slice hslice
        rw [hissues, hall] at hissue
        exact hnone issue (by simpa [newTasks] using hissue) slice hslice

end

/-! ### Two slices, one of which needs the other -/

def sampleId (s : BeadsStore) : TaskId :=
  String.ofList ("bd-".toList ++ s.issues.flatMap (·.id.toList) ++ s.edges.flatMap (·.1.toList))

theorem length_le_flatMap {α β : Type} {a : α} {l : List α} (f : α → List β) (h : a ∈ l) :
    (f a).length ≤ (l.flatMap f).length := by
  induction l with
  | nil => cases h
  | cons b l ih =>
    rw [List.flatMap_cons, List.length_append]
    rcases List.mem_cons.mp h with rfl | hrest
    · omega
    · have hlater := ih hrest
      omega

theorem givesNewIds_sampleId : GivesNewIds sampleId := by
  have hlength : ∀ s, (sampleId s).toList.length = 3 +
      (s.issues.flatMap (·.id.toList)).length + (s.edges.flatMap (·.1.toList)).length := by
    intro s
    rw [sampleId, String.toList_ofList, List.length_append, List.length_append]
    rfl
  refine ⟨fun s hempty => ?_, fun s issue hissue hsame => ?_, fun s edge hedge hsame => ?_⟩
  · have hlong := hlength s
    rw [hempty, String.toList_empty, List.length_nil] at hlong
    omega
  · have hlong := hlength s
    have hshort := length_le_flatMap (·.id.toList) hissue
    rw [hsame] at hshort
    omega
  · have hlong := hlength s
    have hshort := length_le_flatMap (·.1.toList) hedge
    rw [hsame] at hshort
    omega

def sampleSlice (tempId : String) : PrdProposalSlice where
  tempId := tempId
  title := tempId
  description := tempId
  sliceType := .afk
  acceptanceCriteria := ["It works."]
  rationale := "It is needed."

def sampleProposal (mode : PrdHubStatusMode) : ApplyPrdDecompositionProposalInput where
  proposal :=
    { prdRef := "prd.md"
      prdTitle := "PRD"
      slices := [sampleSlice "schema", sampleSlice "api"]
      dependencies := [{ dependentTempId := "api", blockerTempId := "schema" }] }
  hubStatusMode := mode
  proposalRunId := "run-1"

/-- The whole attempt, with the tasks in the inbox. -/
theorem safeApply_iff_sample : SafeApply sampleId (sampleProposal .inbox) { issues := [] } 3 := by
  have hvalid : validatePrdDecompositionProposal (sampleProposal .inbox).proposal
      ((sampleProposal .inbox).hubStatusMode = .classifiedReady) = .ok () := by decide +kernel
  have hnone : HasNoTasks (sampleProposal .inbox) { issues := [] } := by
    intro issue hissue
    cases hissue
  exact (safeApply_iff givesNewIds_sampleId hvalid hnone 3).mpr
    ⟨by decide +kernel, Or.inl (by decide +kernel)⟩

/-- With the tasks ready at once, `api` is ready before its blocker is recorded. -/
theorem readyMode_not_safeApply :
    ¬ SafeApply sampleId (sampleProposal .classifiedReady) { issues := [] } 3 := by
  intro h
  have hearly := h.early 2 (by decide)
  have hmem : createdIssue (sliceTask (sampleProposal .classifiedReady) (sampleSlice "api"))
      "bd-bd-" ∈ ((applyPrdDecompositionProposal sampleId
        (sampleProposal .classifiedReady)).crashAfter 2 { issues := [] }).issues :=
    List.mem_cons_of_mem _ (List.mem_cons_self ..)
  obtain ⟨blocker, -, -, hedge⟩ := hearly _ hmem (sampleSlice "api")
    (List.mem_cons_of_mem _ (List.mem_cons_self ..)) (by decide +kernel) (by decide +kernel)
    _ (List.mem_cons_self ..) rfl
  cases hedge

end ArchLoop.TaskBoard
