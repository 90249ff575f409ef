import ArchLoop.BatchPlanner

/-!
# When a planned batch is well formed

A batch is well formed when no task is in it twice, each is eligible, there are at most
`maxTasks` of them, and no id is deferred twice or both deferred and selected. The ids that the
planner selects are checked for all of this. The ids that it defers are not, and they reach the
result in three ways: as they are, beside the rest of a fallback, and as tasks that are taken back
into the batch. `planHubFlowBatch_wellFormed_iff` says which answers of the planner leave the
batch well formed.

All of it is about one list of ids, the selected ones followed by the deferred ones
(`wellFormed_iff`). A conservative batch permutes the eligible ids and the planner's deferred ones
(`wellFormed_conservative_iff`), a planned one the planner's three kinds of ids
(`wellFormed_resolved_iff`).
-/

set_option autoImplicit false

namespace ArchLoop.BatchPlanner

open ArchLoop.Lib ArchLoop.Lib.JsonText ArchLoop.TaskBoard

structure WellFormed (input : HubBatchPlannerInput) (result : HubBatchPlannerResult) : Prop where
  selected_nodup : (result.selectedTasks.map (·.id)).Nodup
  selected_eligible : ∀ task ∈ result.selectedTasks,
    task ∈ input.candidates ∧ isHubFlowEligibleTask task = true
  selected_le : result.selectedTasks.length ≤ input.maxTasks
  deferred_nodup : (result.deferredTasks.map (·.taskId)).Nodup
  deferred_notMem : ∀ deferred ∈ result.deferredTasks,
    deferred.taskId ∉ result.selectedTasks.map (·.id)

variable {input : HubBatchPlannerInput} {result : HubBatchPlannerResult}

/-- The ids of a result: the selected ones and then the deferred ones. -/
def HubBatchPlannerResult.ids (result : HubBatchPlannerResult) : List TaskId :=
  result.selectedTasks.map (·.id) ++ result.deferredTasks.map (·.taskId)

theorem wellFormed_iff (heligible : ∀ task ∈ result.selectedTasks, task ∈ input.eligible)
    (hle : result.selectedTasks.length ≤ input.maxTasks) :
    WellFormed input result ↔ result.ids.Nodup := by
  unfold HubBatchPlannerResult.ids
  rw [List.nodup_append]
  constructor
  · intro h
    refine ⟨h.selected_nodup, h.deferred_nodup, ?_⟩
    rintro id hid _ hdeferred rfl
    obtain ⟨deferred, hmem, rfl⟩ := List.mem_map.mp hdeferred
    exact h.deferred_notMem deferred hmem hid
  · rintro ⟨hselected, hdeferred, hdisjoint⟩
    constructor
    · exact hselected
    · intro task htask
      exact List.mem_filter.mp (heligible task htask)
    · exact hle
    · exact hdeferred
    · intro deferred hmem hid
      exact hdisjoint _ hid _ (List.mem_map_of_mem hmem) rfl

/-! ### Lists of ids -/

theorem nodup_uniqueStrings (values : List String) : (uniqueStrings values).Nodup := by
  induction hn : values.length using Nat.strong_induction_on generalizing values with
  | _ n ih =>
    cases values with
    | nil => exact List.nodup_nil
    | cons value rest =>
      unfold uniqueStrings
      rw [List.eraseDups_cons, List.nodup_cons]
      constructor
      · rw [List.mem_eraseDups, List.mem_filter]
        rintro ⟨-, hne⟩
        simp at hne
      · have hlt : (rest.filter fun other => !other == value).length < n := by
          have hle := List.length_filter_le (fun other => !other == value) rest
          rw [List.length_cons] at hn
          omega
        exact ih _ hlt _ rfl

section Keys

variable {α : Type} {key : α → TaskId} {l : List α} {p : α → Bool}

/-- The keys of the entries that `p` rejects are distinct, and none is the key of an entry that
`p` accepts, when two entries share a key only if `p` accepts them both. -/
theorem nodup_keys_iff :
    ((l.filter fun a => !p a).map key ++ uniqueStrings ((l.filter p).map key)).Nodup ↔
      l.Pairwise fun a b => key a = key b → p a = true ∧ p b = true := by
  have hunique : (uniqueStrings ((l.filter p).map key)).Nodup := nodup_uniqueStrings _
  -- Each pair either is rejected twice, or is accepted once, or is accepted twice.
  have hrejected : ((l.filter fun a => !p a).map key).Nodup ↔
      l.Pairwise fun a b => p a = false → p b = false → key a ≠ key b := by
    rw [List.Nodup, List.pairwise_map, List.pairwise_filter]
    simp only [Bool.not_eq_true']
  have hmixed : (∀ a ∈ (l.filter fun a => !p a).map key,
      ∀ b ∈ uniqueStrings ((l.filter p).map key), a ≠ b) ↔
      l.Pairwise fun a b => p a ≠ p b → key a ≠ key b := by
    constructor
    · intro h
      apply List.pairwise_of_forall_mem_list
      intro a ha b hb hne
      have hmem : ∀ {x}, x ∈ l → p x = true → key x ∈ uniqueStrings ((l.filter p).map key) := by
        intro x hx hpx
        rw [uniqueStrings, List.mem_eraseDups]
        exact List.mem_map_of_mem (List.mem_filter.mpr ⟨hx, hpx⟩)
      have hmem' : ∀ {x}, x ∈ l → p x = false → key x ∈ (l.filter fun a => !p a).map key := by
        intro x hx hpx
        exact List.mem_map_of_mem (List.mem_filter.mpr ⟨hx, by simp [hpx]⟩)
      cases hpa : p a with
      | false =>
        have hpb : p b = true := by
          rw [hpa] at hne
          simpa using hne.symm
        exact h _ (hmem' ha hpa) _ (hmem hb hpb)
      | true =>
        have hpb : p b = false := by
          rw [hpa] at hne
          simpa using hne.symm
        exact (h _ (hmem' hb hpb) _ (hmem ha hpa)).symm
    · intro h key₁ h₁ key₂ h₂
      rw [uniqueStrings, List.mem_eraseDups] at h₂
      obtain ⟨a, ha, rfl⟩ := List.mem_map.mp h₁
      obtain ⟨b, hb, rfl⟩ := List.mem_map.mp h₂
      rw [List.mem_filter] at ha hb
      have hflip : l.Pairwise (flip fun x y => p x ≠ p y → key x ≠ key y) :=
        h.imp fun hxy hne => (hxy hne.symm).symm
      have hall := h.forall_of_forall_of_flip (fun x _ hne => absurd rfl hne) hflip
      apply hall ha.1 hb.1
      have hpa : p a = false := by simpa using ha.2
      rw [hpa, hb.2]
      decide
  rw [List.nodup_append, hrejected, hmixed]
  constructor
  · rintro ⟨hboth, -, hone⟩
    refine (hboth.and hone).imp ?_
    rintro a b ⟨hab, hne⟩ hkey
    cases hpa : p a <;> cases hpb : p b <;> simp_all
  · intro h
    refine ⟨h.imp ?_, hunique, h.imp ?_⟩
    · intro a b hab hpa _ hkey
      rw [(hab hkey).1] at hpa
      exact Bool.noConfusion hpa
    · intro a b hab hne hkey
      exact hne ((hab hkey).1.trans (hab hkey).2.symm)

theorem nodup_keys_outside_iff {ids : List TaskId} :
    ((l.filter fun a => key a ∉ ids).map key).Nodup ↔
      l.Pairwise fun a b => key a = key b → key a ∈ ids := by
  rw [List.Nodup, List.pairwise_map, List.pairwise_filter]
  simp only [decide_eq_true_eq]
  have hpoint : ∀ a b, (key a ∉ ids → key b ∉ ids → key a ≠ key b) ↔
      (key a = key b → key a ∈ ids) := by
    intro a b
    constructor
    · intro h hkey
      by_contra ha
      exact h ha (hkey ▸ ha) hkey
    · intro h ha _ hkey
      exact ha (h hkey)
  simp only [hpoint]

end Keys

/-! ### The conservative batch -/

theorem eligible_ids_nodup (hids : (input.candidates.map (·.id)).Nodup) :
    (input.eligible.map (·.id)).Nodup :=
  hids.sublist (List.filter_sublist.map _)

theorem eligible_ids_split :
    input.eligible.map (·.id) =
      (input.eligible.take 1).map (·.id) ++ (input.eligible.drop 1).map (·.id) := by
  rw [← List.map_append, List.take_append_drop]

theorem filter_notMem_take (hids : (input.candidates.map (·.id)).Nodup) :
    (input.eligible.filter fun task => task.id ∉ (input.eligible.take 1).map (·.id)) =
      input.eligible.drop 1 := by
  have hnodup := eligible_ids_nodup hids
  cases heligible : input.eligible with
  | nil => rfl
  | cons first rest =>
    rw [heligible, List.map_cons, List.nodup_cons] at hnodup
    have hrest : ∀ task ∈ rest, task.id ≠ first.id := by
      rintro task htask heq
      exact hnodup.1 (heq ▸ List.mem_map_of_mem htask)
    simpa using hrest

/-- What the planner's deferred tasks have to be like for a fallback: no eligible task but the
first one is among them, and no id but the first one's comes twice. -/
def FallbackSound (input : HubBatchPlannerInput) (deferred : List HubBatchDeferredTask) : Prop :=
  (∀ entry ∈ deferred, entry.taskId ∉ (input.eligible.drop 1).map (·.id)) ∧
  deferred.Pairwise fun a b =>
    a.taskId = b.taskId → a.taskId ∈ (input.eligible.take 1).map (·.id)

theorem wellFormed_conservative_iff (hids : (input.candidates.map (·.id)).Nodup)
    (hmax : 1 ≤ input.maxTasks) (requested : HubBatchStrategy)
    (fallbackReason : Option HubBatchFallbackReason) (rationale : Option String)
    (deferred : List HubBatchDeferredTask) :
    WellFormed input (buildConservativeBatchResult input.candidates requested input.maxTasks
      fallbackReason rationale deferred) ↔ FallbackSound input deferred := by
  have hnodup := eligible_ids_nodup hids
  have hmem : ∀ task ∈ input.eligible.take 1, task ∈ input.eligible :=
    fun task htask => List.mem_of_mem_take htask
  have hle : (input.eligible.take 1).length ≤ input.maxTasks :=
    (List.length_take_le 1 _).trans hmax
  rw [wellFormed_iff hmem hle]
  -- The ids are those of the first task, of what the planner deferred, and of the other tasks.
  have hall : (buildConservativeBatchResult input.candidates requested input.maxTasks
      fallbackReason rationale deferred).ids =
      (input.eligible.take 1).map (·.id) ++
        ((deferred.filter fun entry => entry.taskId ∉
          (input.eligible.take 1).map (·.id)).map (·.taskId) ++
        (input.eligible.drop 1).map (·.id)) := by
    rw [← filter_notMem_take hids]
    simp only [HubBatchPlannerResult.ids, buildConservativeBatchResult, List.map_append,
      List.map_map, Function.comp_def]
    rfl
  rw [eligible_ids_split, List.nodup_append] at hnodup
  rw [hall, List.nodup_append, List.nodup_append, nodup_keys_outside_iff]
  constructor
  · rintro ⟨-, ⟨hpairs, -, hrest⟩, -⟩
    refine ⟨?_, hpairs⟩
    intro entry hentry hin
    have hout : entry.taskId ∉ (input.eligible.take 1).map (·.id) :=
      fun hfirst => hnodup.2.2 _ hfirst _ hin rfl
    have hkept : entry ∈ deferred.filter fun entry =>
        entry.taskId ∉ (input.eligible.take 1).map (·.id) :=
      List.mem_filter.mpr ⟨hentry, decide_eq_true hout⟩
    exact hrest _ (List.mem_map_of_mem hkept) _ hin rfl
  · rintro ⟨hrest, hpairs⟩
    refine ⟨hnodup.1, ⟨hpairs, hnodup.2.1, ?_⟩, ?_⟩
    · rintro id hid _ hin rfl
      obtain ⟨entry, hentry, rfl⟩ := List.mem_map.mp hid
      exact hrest entry (List.mem_filter.mp hentry).1 hin
    · rintro id hid _ hin rfl
      rcases List.mem_append.mp hin with hin | hin
      · obtain ⟨entry, hentry, rfl⟩ := List.mem_map.mp hin
        exact of_decide_eq_true (List.mem_filter.mp hentry).2 hid
      · exact hnodup.2.2 _ hid _ hin rfl

theorem wellFormed_conservative (hids : (input.candidates.map (·.id)).Nodup)
    (hmax : 1 ≤ input.maxTasks) (requested : HubBatchStrategy)
    (fallbackReason : Option HubBatchFallbackReason) (rationale : Option String) :
    WellFormed input (buildConservativeBatchResult input.candidates requested input.maxTasks
      fallbackReason rationale []) :=
  (wellFormed_conservative_iff hids hmax _ _ _ _).mpr
    ⟨fun _ hentry => absurd hentry List.not_mem_nil, .nil⟩

/-! ### The checks of the planner's answer -/

theorem checkSelectedIds_eq_none {eligible seen ids : List TaskId} :
    checkSelectedIds eligible seen ids = none ↔
      (∀ id ∈ ids, id ∈ eligible) ∧ ids.Nodup ∧ ∀ id ∈ ids, id ∉ seen := by
  induction ids generalizing seen with
  | nil => simp [checkSelectedIds]
  | cons id ids ih =>
    unfold checkSelectedIds
    split
    · rename_i hnot
      simp [hnot]
    split
    · rename_i hseen
      simp [hseen]
    rename_i hin hnew
    rw [ih, List.nodup_cons]
    simp only [List.mem_append, List.mem_singleton, List.forall_mem_cons]
    grind

theorem validateHubBatchPlannerOutput_eq_none {parsed : HubBatchPlannerAgentOutput}
    {eligible : List TaskId} {maxTasks : Nat} :
    validateHubBatchPlannerOutput parsed eligible maxTasks = none ↔
      (∀ id ∈ parsed.selectedTaskIds, id ∈ eligible) ∧ parsed.selectedTaskIds.Nodup ∧
        parsed.selectedTaskIds.length ≤ maxTasks := by
  unfold validateHubBatchPlannerOutput
  rw [Option.or_eq_none_iff, checkSelectedIds_eq_none]
  by_cases hlen : maxTasks < parsed.selectedTaskIds.length
  · simp only [if_pos hlen, reduceCtorEq, and_false, false_iff]
    omega
  · have hle : parsed.selectedTaskIds.length ≤ maxTasks := by omega
    simp [hle]

/-! ### The planned batch -/

section Resolved

variable {tasks : List TaskBoard.HubTaskProjection} {ids : List TaskId}

theorem exists_find?_id {id : TaskId} (h : id ∈ tasks.map (·.id)) :
    ∃ task ∈ tasks, tasks.reverse.find? (·.id == id) = some task ∧ task.id = id := by
  cases hfind : tasks.reverse.find? (·.id == id) with
  | none =>
    obtain ⟨task, htask, rfl⟩ := List.mem_map.mp h
    have hnot := List.find?_eq_none.mp hfind task (List.mem_reverse.mpr htask)
    exact absurd (beq_self_eq_true task.id) hnot
  | some task =>
    have hid : task.id = id := by
      have hsome := List.find?_some hfind
      exact eq_of_beq hsome
    exact ⟨task, List.mem_reverse.mp (List.mem_of_find?_eq_some hfind), rfl, hid⟩

theorem map_id_mapSelectedTasks (h : ∀ id ∈ ids, id ∈ tasks.map (·.id)) :
    (mapSelectedTasks tasks ids).map (·.id) = ids ∧
      ∀ task ∈ mapSelectedTasks tasks ids, task ∈ tasks := by
  induction ids with
  | nil => exact ⟨rfl, fun _ htask => absurd htask List.not_mem_nil⟩
  | cons id ids ih =>
    obtain ⟨hmap, hmem⟩ := ih fun other hother => h other (List.mem_cons_of_mem _ hother)
    obtain ⟨task, htask, hfind, hid⟩ := exists_find?_id (h id List.mem_cons_self)
    have hcons : mapSelectedTasks tasks (id :: ids) = task :: mapSelectedTasks tasks ids := by
      unfold mapSelectedTasks
      rw [List.filterMap_cons, hfind]
    rw [hcons]
    constructor
    · rw [List.map_cons, hmap, hid]
    · intro other hother
      rcases List.mem_cons.mp hother with rfl | hother
      · exact htask
      · exact hmem other hother

end Resolved

/-- What the planner's deferred tasks have to be like beside a valid selection: none of them is
selected, and an id that comes twice is taken back both times. -/
def DeferralsSound (input : HubBatchPlannerInput) (parsed : HubBatchPlannerAgentOutput) : Prop :=
  (∀ entry ∈ parsed.deferred, entry.taskId ∉ parsed.selectedTaskIds) ∧
  parsed.deferred.Pairwise fun a b => a.taskId = b.taskId →
    takesBack input.enrichedCandidates parsed.selectedTaskIds a = true ∧
    takesBack input.enrichedCandidates parsed.selectedTaskIds b = true

section Answer

variable {parsed : HubBatchPlannerAgentOutput}

/-- `invalidExplicitBlockerTaskIds` of an answer. -/
def invalidIds (input : HubBatchPlannerInput) (parsed : HubBatchPlannerAgentOutput) :
    List TaskId :=
  uniqueStrings ((parsed.deferred.filter
    (takesBack input.enrichedCandidates parsed.selectedTaskIds)).map (·.taskId))

/-- The deferred tasks of an answer that stay as they are. -/
def keptTasks (input : HubBatchPlannerInput) (parsed : HubBatchPlannerAgentOutput) :
    List HubBatchDeferredTask :=
  parsed.deferred.filter fun deferred =>
    !takesBack input.enrichedCandidates parsed.selectedTaskIds deferred

/-- `recoveredTasks` of an answer. -/
def recoveredTasks (input : HubBatchPlannerInput) (parsed : HubBatchPlannerAgentOutput) :
    List TaskBoard.HubTaskProjection :=
  (input.eligible.filter fun task => task.id ∈ invalidIds input parsed).take
    (input.maxTasks - (mapSelectedTasks input.eligible parsed.selectedTaskIds).length)

/-- `remainingInvalidTaskIds` of an answer. -/
def remainingIds (input : HubBatchPlannerInput) (parsed : HubBatchPlannerAgentOutput) :
    List TaskId :=
  (invalidIds input parsed).filter fun id => id ∉ (recoveredTasks input parsed).map (·.id)

/-- The result for a valid answer that selects something. -/
def resolvedResult (input : HubBatchPlannerInput) (parsed : HubBatchPlannerAgentOutput) :
    HubBatchPlannerResult where
  selectedTasks :=
    mapSelectedTasks input.eligible parsed.selectedTaskIds ++ recoveredTasks input parsed
  deferredTasks := keptTasks input parsed ++
    (remainingIds input parsed).map fun taskId => { taskId, reason := .overMaxTasks }
  batchStrategyRequested := .planned
  batchStrategyUsed := .planned
  maxTasks := input.maxTasks
  rationale := parsed.rationale
  diagnosticReason :=
    if invalidIds input parsed = [] then none else some .invalidExplicitBlockerDeferral

theorem planParsedOutput_resolved
    (hvalid : validateHubBatchPlannerOutput parsed (input.eligible.map (·.id)) input.maxTasks =
      none) (hne : parsed.selectedTaskIds ≠ []) :
    planParsedOutput input parsed = resolvedResult input parsed := by
  unfold planParsedOutput
  rw [hvalid]
  exact if_neg hne

theorem mem_invalidIds {id : TaskId} :
    id ∈ invalidIds input parsed ↔ ∃ entry ∈ parsed.deferred,
      takesBack input.enrichedCandidates parsed.selectedTaskIds entry = true ∧
      entry.taskId = id := by
  unfold invalidIds uniqueStrings
  rw [List.mem_eraseDups, List.mem_map]
  simp only [List.mem_filter, and_assoc]

theorem mem_recoveredTasks {task : TaskBoard.HubTaskProjection}
    (h : task ∈ recoveredTasks input parsed) :
    task ∈ input.eligible ∧ task.id ∈ invalidIds input parsed := by
  have hmem := List.mem_filter.mp (List.mem_of_mem_take h)
  exact ⟨hmem.1, of_decide_eq_true hmem.2⟩

/-- The ids that are taken back go into the batch while there is room, and stay deferred
otherwise. -/
theorem perm_invalidIds (hids : (input.candidates.map (·.id)).Nodup) :
    ((recoveredTasks input parsed).map (·.id) ++ remainingIds input parsed).Perm
      (invalidIds input parsed) := by
  have hinvalid : (invalidIds input parsed).Nodup := nodup_uniqueStrings _
  have hrecovered : ((recoveredTasks input parsed).map (·.id)).Nodup :=
    (eligible_ids_nodup hids).sublist
      (((List.take_sublist _ _).trans List.filter_sublist).map _)
  have hmem : ∀ {id}, id ∈ remainingIds input parsed ↔ id ∈ invalidIds input parsed ∧
      id ∉ (recoveredTasks input parsed).map (·.id) := by
    intro id
    unfold remainingIds
    rw [List.mem_filter, decide_eq_true_eq]
  have hnodup : ((recoveredTasks input parsed).map (·.id) ++
      remainingIds input parsed).Nodup := by
    rw [List.nodup_append]
    refine ⟨hrecovered, hinvalid.filter _, ?_⟩
    rintro id hid _ hother rfl
    exact (hmem.mp hother).2 hid
  apply (List.perm_ext_iff_of_nodup hnodup hinvalid).mpr
  intro id
  rw [List.mem_append, hmem]
  constructor
  · rintro (hid | hid)
    · obtain ⟨task, htask, rfl⟩ := List.mem_map.mp hid
      exact (mem_recoveredTasks htask).2
    · exact hid.1
  · intro hid
    by_cases hin : id ∈ (recoveredTasks input parsed).map (·.id)
    · exact .inl hin
    · exact .inr ⟨hid, hin⟩

/-- Up to their order, the ids of the result are those of the answer: the selected ones, the
deferred ones that stay, and those that are taken back. -/
theorem perm_resolved_ids (hids : (input.candidates.map (·.id)).Nodup)
    (hknown : ∀ id ∈ parsed.selectedTaskIds, id ∈ input.eligible.map (·.id)) :
    (resolvedResult input parsed).ids.Perm
      (parsed.selectedTaskIds ++
        ((keptTasks input parsed).map (·.taskId) ++ invalidIds input parsed)) := by
  have hall : (resolvedResult input parsed).ids =
      parsed.selectedTaskIds ++ ((recoveredTasks input parsed).map (·.id) ++
        ((keptTasks input parsed).map (·.taskId) ++ remainingIds input parsed)) := by
    have hselected := (map_id_mapSelectedTasks hknown).1
    simp only [HubBatchPlannerResult.ids, resolvedResult, List.map_append, List.map_map,
      Function.comp_def, List.map_id', hselected, List.append_assoc]
  rw [hall]
  apply List.Perm.append_left
  rw [← List.append_assoc]
  refine (List.perm_append_comm.append_right _).trans ?_
  rw [List.append_assoc]
  exact (perm_invalidIds hids).append_left _

theorem wellFormed_resolved_iff (hids : (input.candidates.map (·.id)).Nodup)
    (hvalid : validateHubBatchPlannerOutput parsed (input.eligible.map (·.id)) input.maxTasks =
      none) :
    WellFormed input (resolvedResult input parsed) ↔ DeferralsSound input parsed := by
  obtain ⟨hknown, hdistinct, hlen⟩ := validateHubBatchPlannerOutput_eq_none.mp hvalid
  obtain ⟨hselected, hselectedMem⟩ := map_id_mapSelectedTasks hknown
  have heligible : ∀ task ∈ (resolvedResult input parsed).selectedTasks,
      task ∈ input.eligible := by
    intro task htask
    rcases List.mem_append.mp htask with htask | htask
    · exact hselectedMem task htask
    · exact (mem_recoveredTasks htask).1
  have hle : (resolvedResult input parsed).selectedTasks.length ≤ input.maxTasks := by
    have hmap := congrArg List.length hselected
    rw [List.length_map] at hmap
    have htake : (recoveredTasks input parsed).length ≤
        input.maxTasks - (mapSelectedTasks input.eligible parsed.selectedTaskIds).length :=
      List.length_take_le _ _
    show (mapSelectedTasks input.eligible parsed.selectedTaskIds ++
      recoveredTasks input parsed).length ≤ input.maxTasks
    rw [List.length_append]
    omega
  have hkeys : ((keptTasks input parsed).map (·.taskId) ++ invalidIds input parsed).Nodup ↔
      parsed.deferred.Pairwise fun a b => a.taskId = b.taskId →
        takesBack input.enrichedCandidates parsed.selectedTaskIds a = true ∧
        takesBack input.enrichedCandidates parsed.selectedTaskIds b = true :=
    nodup_keys_iff
  rw [wellFormed_iff heligible hle, (perm_resolved_ids hids hknown).nodup_iff,
    List.nodup_append, hkeys]
  unfold DeferralsSound
  constructor
  · rintro ⟨-, hpairs, hdisjoint⟩
    refine ⟨?_, hpairs⟩
    intro entry hentry hin
    apply hdisjoint _ hin _ _ rfl
    -- A deferred id either stays or is taken back.
    cases hback : takesBack input.enrichedCandidates parsed.selectedTaskIds entry with
    | false =>
      have hkept : entry ∈ keptTasks input parsed :=
        List.mem_filter.mpr ⟨hentry, by rw [hback]; rfl⟩
      exact List.mem_append_left _ (List.mem_map_of_mem hkept)
    | true =>
      exact List.mem_append_right _ (mem_invalidIds.mpr ⟨entry, hentry, hback, rfl⟩)
  · rintro ⟨hdisjoint, hpairs⟩
    refine ⟨hdistinct, hpairs, ?_⟩
    rintro id hid _ hother rfl
    rcases List.mem_append.mp hother with hother | hother
    · obtain ⟨entry, hentry, rfl⟩ := List.mem_map.mp hother
      exact hdisjoint entry (List.mem_filter.mp hentry).1 hid
    · obtain ⟨entry, hentry, -, rfl⟩ := mem_invalidIds.mp hother
      exact hdisjoint entry hentry hid

/-- What the planner's answer has to be like: the condition of its case in
`planPlannedHubFlowBatch`. -/
def AnswerSound (input : HubBatchPlannerInput) (parsed : HubBatchPlannerAgentOutput) : Prop :=
  if (validateHubBatchPlannerOutput parsed (input.eligible.map (·.id))
      input.maxTasks).isSome then
    FallbackSound input parsed.deferred
  else if parsed.selectedTaskIds = [] then
    (parsed.deferred.map (·.taskId)).Nodup
  else
    DeferralsSound input parsed

theorem wellFormed_planParsedOutput_iff (hids : (input.candidates.map (·.id)).Nodup)
    (hmax : 1 ≤ input.maxTasks) :
    WellFormed input (planParsedOutput input parsed) ↔ AnswerSound input parsed := by
  unfold AnswerSound
  cases hissue : validateHubBatchPlannerOutput parsed (input.eligible.map (·.id))
      input.maxTasks with
  | some issue =>
    rw [if_pos (show (some issue).isSome = true from rfl)]
    have hplan : planParsedOutput input parsed =
        fallbackPlannedHubFlowBatch input issue parsed.rationale parsed.deferred := by
      unfold planParsedOutput
      rw [hissue]
    rw [hplan]
    exact wellFormed_conservative_iff hids hmax _ _ _ _
  | none =>
    rw [if_neg (by simp)]
    by_cases hempty : parsed.selectedTaskIds = []
    · rw [if_pos hempty]
      have hplan : (planParsedOutput input parsed).selectedTasks = [] ∧
          (planParsedOutput input parsed).deferredTasks = parsed.deferred := by
        unfold planParsedOutput
        rw [hissue]
        simp only [hempty, if_true, and_self]
      have hnone : ∀ task ∈ (planParsedOutput input parsed).selectedTasks,
          task ∈ input.eligible := by
        rw [hplan.1]
        exact fun _ htask => absurd htask List.not_mem_nil
      have hle : (planParsedOutput input parsed).selectedTasks.length ≤ input.maxTasks := by
        rw [hplan.1]
        exact Nat.zero_le _
      rw [wellFormed_iff hnone hle, HubBatchPlannerResult.ids, hplan.1, hplan.2]
      rfl
    · rw [if_neg hempty, planParsedOutput_resolved hissue hempty]
      exact wellFormed_resolved_iff hids hissue

end Answer

/-- What the planner's reply has to be like: an answer that can be read is sound. -/
def ReplySound (input : HubBatchPlannerInput) : BatchPlannerReply → Prop
  | .unavailable | .failed | .aborted => True
  | .stdout text => ∀ parsed, parseHubBatchPlannerOutput text = some parsed →
      AnswerSound input parsed

/-- The planned strategy returns a batch unless the flow was aborted, and the batch is well formed
exactly when what the planner answers is sound. -/
theorem planHubFlowBatch_wellFormed_iff (input : HubBatchPlannerInput)
    (hstrategy : input.batchStrategy = .planned) (hids : (input.candidates.map (·.id)).Nodup)
    (hmax : 1 ≤ input.maxTasks) :
    (planHubFlowBatch input = none ↔ input.batchPlanner = .aborted) ∧
    ((∀ result, planHubFlowBatch input = some result → WellFormed input result) ↔
      ReplySound input input.batchPlanner) := by
  have hplanned : planHubFlowBatch input = planPlannedHubFlowBatch input := by
    unfold planHubFlowBatch
    rw [hstrategy]
  rw [hplanned]
  unfold planPlannedHubFlowBatch ReplySound
  have hfallback : ∀ reason,
      WellFormed input (fallbackPlannedHubFlowBatch input reason none []) :=
    fun reason => wellFormed_conservative hids hmax _ _ _
  cases input.batchPlanner with
  | unavailable =>
    simpa using hfallback .plannerUnavailable
  | failed =>
    simpa using hfallback .plannerFailed
  | aborted => simp
  | stdout text =>
    dsimp only
    cases hparse : parseHubBatchPlannerOutput text with
    | none => simpa using hfallback .malformedOutput
    | some parsed =>
      simpa using wellFormed_planParsedOutput_iff hids hmax

/-! ### Answers that select and defer -/

def readyTask (id : TaskId) : TaskBoard.HubTaskProjection where
  id := id
  title := id
  beadsStatus := some "open"
  hubStatus := .readyForAgent
  owner := none
  claim := none
  claimState := none
  labels := ["ready_for_agent"]
  metadata := []
  description := none
  notes := none
  remoteRefs := []
  runRefs := []

/-- An answer of the planner that selects the first task and defers one task for a blocker. -/
def answerDeferring (id : TaskId) : List Char :=
  "<batch-plan>".toList ++
    print (.object [
      ("selectedTaskIds", .array [.string "first"]),
      ("deferred", .array [.object [
        ("taskId", .string id), ("reason", .string "explicit_blocker")]])]) ++
    "</batch-plan>".toList

/-- Two tasks are ready; the second one waits for an open blocker. -/
def inputDeferring (id : TaskId) : HubBatchPlannerInput where
  candidates := [readyTask "first", readyTask "second"]
  batchStrategy := .planned
  maxTasks := 3
  batchPlanner := .stdout (answerDeferring id)
  blockers task := if task.id = "second" then { openBlockers := ["third"] } else {}

/-- The second task is deferred for the blocker that it has. -/
theorem planHubFlowBatch_wellFormed_second :
    ∃ result, planHubFlowBatch (inputDeferring "second") = some result ∧
      WellFormed (inputDeferring "second") result := by
  have hparse : parseHubBatchPlannerOutput (answerDeferring "second") =
      some { selectedTaskIds := ["first"]
             deferred := [{ taskId := "second", reason := .explicitBlocker }]
             rationale := none } := by
    decide +kernel
  have hsound : ReplySound (inputDeferring "second") (inputDeferring "second").batchPlanner := by
    intro parsed h
    obtain rfl := Option.some.inj (hparse.symm.trans h)
    refine ⟨?_, List.pairwise_singleton _ _⟩
    decide +kernel
  obtain ⟨hreturns, hwell⟩ := planHubFlowBatch_wellFormed_iff (inputDeferring "second") rfl
    (by decide +kernel) (by decide)
  cases hresult : planHubFlowBatch (inputDeferring "second") with
  | none => exact absurd (hreturns.mp hresult) (by simp [inputDeferring])
  | some result => exact ⟨result, rfl, hwell.mpr hsound result hresult⟩

/-- The first task is selected, and deferred for a blocker that it does not have: it is taken
back, and the batch has it twice. -/
theorem planHubFlowBatch_selects_twice :
    ((inputDeferring "first").candidates.map (·.id)).Nodup ∧
    1 ≤ (inputDeferring "first").maxTasks ∧
    (planHubFlowBatch (inputDeferring "first")).map
      (fun result => result.selectedTasks.map (·.id)) = some ["first", "first"] ∧
    ¬∃ result, planHubFlowBatch (inputDeferring "first") = some result ∧
      WellFormed (inputDeferring "first") result := by
  have htwice : (planHubFlowBatch (inputDeferring "first")).map
      (fun result => result.selectedTasks.map (·.id)) = some ["first", "first"] := by
    decide +kernel
  refine ⟨by decide +kernel, by decide, htwice, ?_⟩
  rintro ⟨result, hresult, hwell⟩
  rw [hresult] at htwice
  have hids : result.selectedTasks.map (·.id) = ["first", "first"] := Option.some.inj htwice
  have hnodup := hwell.selected_nodup
  rw [hids] at hnodup
  revert hnodup
  decide

end ArchLoop.BatchPlanner
