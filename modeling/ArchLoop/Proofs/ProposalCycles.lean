import ArchLoop.Lib.DepthFirst
import ArchLoop.Triage

/-!
# `ArchLoop.Proofs.ProposalCycles`: proposals without cycles

Both proposals, that of triage and that of the decomposition of a document, name dependencies, and
both are turned down when these make a cycle. The search for the cycles is written twice, with a
graph that is built in two ways.

`goesThrough_visitNode`: `visit` is a depth-first search that ends, so that its bound on the depth
is never met. `cycles_exact`: the two searches find just the cycles that there are, they agree, and
what the validation lets through has none.
-/

set_option autoImplicit false

namespace ArchLoop.TaskBoard

open ArchLoop.Lib.DepthFirst
open Relation

/-! ### `visit` -/

section
variable {graph : String → List String}

/-- What a search leaves that has visited something on the way. -/
def CycleSearch.after (search : CycleSearch) (visited cycles : List String) : CycleSearch where
  visiting := search.visiting
  visited := visited
  cycles := search.cycles ++ cycles

/-- The search has gone through the nodes and has come back. -/
def GoesThrough (graph : String → List String) (search : CycleSearch) (nodes : List String)
    (result : CycleSearch) : Prop :=
  ∃ visited cycles, Explores graph search.visiting search.visited nodes visited cycles ∧
    result = search.after visited cycles

theorem goesThrough_foldl {visit : CycleSearch → String → CycleSearch} {path : List String}
    (hvisit : ∀ search node, search.visiting = path →
      GoesThrough graph search [node] (visit search node)) (nodes : List String) :
    ∀ search : CycleSearch, search.visiting = path →
      GoesThrough graph search nodes (nodes.foldl visit search) := by
  induction nodes with
  | nil =>
    intro search _
    exact ⟨search.visited, [], .nil, by simp [CycleSearch.after]⟩
  | cons node nodes ih =>
    intro search hpath
    obtain ⟨visited, cycles, hfirst, hstep⟩ := hvisit search node hpath
    obtain ⟨visited', cycles', hrest, hfold⟩ := ih (visit search node) (by rw [hstep]; exact hpath)
    rw [hstep] at hrest
    refine ⟨visited', cycles ++ cycles', hfirst.append hrest, ?_⟩
    rw [List.foldl_cons, hfold, hstep]
    simp [CycleSearch.after]

theorem goesThrough_visitNode {keys : List String} (hkeys : ∀ node, graph node ≠ [] → node ∈ keys)
    (depth : Nat) : ∀ (search : CycleSearch) (node : String), Room keys search.visiting depth →
      GoesThrough graph search [node] (visitNode graph depth search node) := by
  induction depth with
  | zero =>
    intro search node hroom
    exact absurd hroom.pos (by omega)
  | succ depth ih =>
    intro search node hroom
    by_cases hvisited : node ∈ search.visited
    · refine ⟨search.visited, [], .seen hvisited .nil, ?_⟩
      simp [visitNode, hvisited, CycleSearch.after]
    by_cases hvisiting : node ∈ search.visiting
    · refine ⟨search.visited, [node], .back hvisited hvisiting .nil, ?_⟩
      simp [visitNode, hvisited, hvisiting, CycleSearch.after]
    -- the neighbours are visited with the node on the path
    let entered : CycleSearch := { search with visiting := node :: search.visiting }
    have hinside : GoesThrough graph entered (graph node)
        ((graph node).foldl (fun inner next => visitNode graph depth inner next) entered) := by
      by_cases hnone : graph node = []
      · rw [hnone]
        exact ⟨search.visited, [], .nil, by simp [entered, CycleSearch.after]⟩
      · have hdeeper : Room keys (node :: search.visiting) depth :=
          hroom.cons (hkeys node hnone) hvisiting
        refine goesThrough_foldl (fun inner next hpath => ?_) _ entered
          rfl
        exact ih inner next (by rw [hpath]; exact hdeeper)
    obtain ⟨visited, cycles, hwithin, hfold⟩ := hinside
    refine ⟨node :: visited, cycles ++ [], .enter hvisited hvisiting hwithin .nil, ?_⟩
    have hleft : (node :: search.visiting).filter (· ≠ node) = search.visiting := by
      rw [List.filter_cons_of_neg (by simp)]
      refine List.filter_eq_self.mpr fun other hother => ?_
      simpa using ne_of_mem_of_not_mem hother hvisiting
    simp only [visitNode, hvisited, hvisiting, if_false]
    rw [show ({ search with visiting := node :: search.visiting } : CycleSearch) = entered from rfl,
      hfold]
    simp only [CycleSearch.after, entered, hleft, List.append_nil]

theorem exists_explores {keys nodes : List String} {depth : Nat}
    (hkeys : ∀ node, graph node ≠ [] → node ∈ keys) (hdepth : keys.length < depth) :
    ∃ visited, Explores graph [] [] nodes visited
      (nodes.foldl (visitNode graph depth) {}).cycles := by
  obtain ⟨visited, cycles, hrun, hfold⟩ := goesThrough_foldl
    (fun search node hpath => goesThrough_visitNode hkeys depth search node
      (by rw [hpath]; exact room_nil hdepth)) nodes {} rfl
  refine ⟨visited, ?_⟩
  rw [hfold]
  simpa [CycleSearch.after] using hrun

end

/-! ### The two searches -/

def DependsOn (edges : List TriageDependencySuggestion) (dependent blocker : TaskId) : Prop :=
  ⟨dependent, blocker⟩ ∈ edges

def SliceDependsOn (dependencies : List PrdProposalDependency) (dependent blocker : String) :
    Prop :=
  ⟨dependent, blocker⟩ ∈ dependencies

/-- The verdict is right, and each id that is named lies on a cycle. -/
structure FindsCycles (depends : String → String → Prop) (cycles : List String) : Prop where
  verdict : cycles ≠ [] ↔ ∃ id, TransGen depends id id
  on_cycle : ∀ id ∈ cycles, TransGen depends id id

theorem FindsCycles.eq_nil_iff {depends : String → String → Prop} {cycles : List String}
    (h : FindsCycles depends cycles) : cycles = [] ↔ ∀ id, ¬ TransGen depends id id := by
  have hverdict := not_congr h.verdict
  simpa using hverdict

theorem FindsCycles.congr {depends depends' : String → String → Prop} {cycles : List String}
    (h : FindsCycles depends cycles) (hsame : ∀ x y, depends x y ↔ depends' x y) :
    FindsCycles depends' cycles := by
  have heq : depends = depends' := funext fun x => funext fun y => propext (hsame x y)
  exact heq ▸ h

theorem findsCycles_of_explores {graph : String → List String} {nodes visited cycles : List String}
    (hrun : Explores graph [] [] nodes visited cycles)
    (hnodes : ∀ node, graph node ≠ [] → node ∈ nodes) : FindsCycles (Edge graph) cycles where
  verdict := by
    have hnil := not_congr (hrun.eq_nil_iff hnodes)
    simpa using hnil
  on_cycle := hrun.on_cycle (by simp)

theorem findsCycles_self {depends : String → String → Prop} {id : String} (h : depends id id) :
    FindsCycles depends [id] where
  verdict := by simpa using ⟨id, .single h⟩
  on_cycle := by simpa using .single h

/-- `neighbors` in the graph of triage. -/
def triageGraph (edges : List TriageDependencySuggestion) (node : TaskId) : List TaskId :=
  (edges.filter (·.dependentTaskId = node)).map (·.blockerTaskId)

/-- `graph.keys()` in triage. -/
def triageNodes (edges : List TriageDependencySuggestion) : List TaskId :=
  (edges.flatMap fun edge => [edge.dependentTaskId, edge.blockerTaskId]).eraseDups

theorem edge_triageGraph (edges : List TriageDependencySuggestion) (x y : TaskId) :
    Edge (triageGraph edges) x y ↔ DependsOn edges x y := by
  unfold Edge triageGraph DependsOn
  constructor
  · intro h
    obtain ⟨⟨dependent, blocker⟩, hmem, rfl⟩ := List.mem_map.mp h
    simp only [List.mem_filter, decide_eq_true_eq] at hmem
    obtain ⟨hedge, rfl⟩ := hmem
    exact hedge
  · intro h
    exact List.mem_map.mpr ⟨⟨x, y⟩, List.mem_filter.mpr ⟨h, by simp⟩, rfl⟩

theorem mem_triageNodes {edges : List TriageDependencySuggestion} {node : TaskId}
    (h : triageGraph edges node ≠ []) : node ∈ triageNodes edges := by
  obtain ⟨blocker, hblocker⟩ := List.exists_mem_of_ne_nil _ h
  have hedge : DependsOn edges node blocker := (edge_triageGraph edges node blocker).mp hblocker
  exact List.mem_eraseDups.mpr (List.mem_flatMap.mpr ⟨_, hedge, by simp⟩)

/-- The search of triage is a run of the recursion that ends, unless a task waits for itself. -/
theorem explores_detectTriageCycles {edges : List TriageDependencySuggestion}
    (hself : ∀ edge ∈ edges, edge.dependentTaskId ≠ edge.blockerTaskId) :
    ∃ visited, Explores (triageGraph edges) [] [] (triageNodes edges) visited
      (detectTriageCycles edges) := by
  have hnone : edges.find? (fun edge => edge.dependentTaskId = edge.blockerTaskId) = none := by
    simpa using hself
  unfold detectTriageCycles
  rw [hnone]
  exact exists_explores (fun node => mem_triageNodes) (Nat.lt_succ_self _)

theorem findsCycles_triage (edges : List TriageDependencySuggestion) :
    FindsCycles (DependsOn edges) (detectTriageCycles edges) := by
  cases hfind : edges.find? fun edge => edge.dependentTaskId = edge.blockerTaskId with
  | some edge =>
    have hself : edge.dependentTaskId = edge.blockerTaskId := by
      simpa using List.find?_some hfind
    have hmem : DependsOn edges edge.dependentTaskId edge.dependentTaskId := by
      have hedge := List.mem_of_find?_eq_some hfind
      show ⟨edge.dependentTaskId, edge.dependentTaskId⟩ ∈ edges
      nth_rewrite 2 [hself]
      exact hedge
    unfold detectTriageCycles
    rw [hfind]
    exact findsCycles_self hmem
  | none =>
    have hself : ∀ edge ∈ edges, edge.dependentTaskId ≠ edge.blockerTaskId := by
      simpa using hfind
    obtain ⟨visited, hrun⟩ := explores_detectTriageCycles hself
    exact (findsCycles_of_explores hrun fun node => mem_triageNodes).congr
      (edge_triageGraph edges)

/-- `neighbors` in the graph of the slices. -/
def sliceGraph (slices : List PrdProposalSlice) (dependencies : List PrdProposalDependency)
    (node : String) : List String :=
  if node ∈ slices.map (·.tempId) then
    (dependencies.filter (·.dependentTempId = node)).map (·.blockerTempId)
  else []

theorem mem_slices {slices : List PrdProposalSlice} {dependencies : List PrdProposalDependency}
    {node : String} (h : sliceGraph slices dependencies node ≠ []) :
    node ∈ slices.map (·.tempId) := by
  by_contra hunknown
  exact h (if_neg hunknown)

theorem edge_sliceGraph {slices : List PrdProposalSlice} {dependencies : List PrdProposalDependency}
    (hknown : ∀ dependency ∈ dependencies,
      dependency.dependentTempId ∈ slices.map (·.tempId)) (x y : String) :
    Edge (sliceGraph slices dependencies) x y ↔ SliceDependsOn dependencies x y := by
  unfold Edge SliceDependsOn
  constructor
  · intro h
    have hx : x ∈ slices.map (·.tempId) := mem_slices (List.ne_nil_of_mem h)
    rw [sliceGraph, if_pos hx] at h
    obtain ⟨⟨dependent, blocker⟩, hmem, rfl⟩ := List.mem_map.mp h
    simp only [List.mem_filter, decide_eq_true_eq] at hmem
    obtain ⟨hedge, rfl⟩ := hmem
    exact hedge
  · intro h
    rw [sliceGraph, if_pos (hknown _ h)]
    exact List.mem_map.mpr ⟨⟨x, y⟩, List.mem_filter.mpr ⟨h, by simp⟩, rfl⟩

/-- The search through the slices is a run of the recursion that ends, unless a slice waits for
itself. -/
theorem explores_detectDependencyCycles {slices : List PrdProposalSlice}
    {dependencies : List PrdProposalDependency}
    (hself : ∀ dependency ∈ dependencies,
      dependency.dependentTempId ≠ dependency.blockerTempId) :
    ∃ visited, Explores (sliceGraph slices dependencies) [] [] (slices.map (·.tempId)) visited
      (detectDependencyCycles slices dependencies) := by
  have hnone : dependencies.find?
      (fun dependency => dependency.dependentTempId = dependency.blockerTempId) = none := by
    simpa using hself
  unfold detectDependencyCycles
  rw [hnone]
  exact exists_explores (fun node => mem_slices) (Nat.lt_succ_self _)

theorem findsCycles_slices {slices : List PrdProposalSlice}
    {dependencies : List PrdProposalDependency} (hknown : ∀ dependency ∈ dependencies,
      dependency.dependentTempId ∈ slices.map (·.tempId)) :
    FindsCycles (SliceDependsOn dependencies) (detectDependencyCycles slices dependencies) := by
  cases hfind : dependencies.find?
      fun dependency => dependency.dependentTempId = dependency.blockerTempId with
  | some dependency =>
    have hself : dependency.dependentTempId = dependency.blockerTempId := by
      simpa using List.find?_some hfind
    have hmem : SliceDependsOn dependencies dependency.dependentTempId
        dependency.dependentTempId := by
      have hedge := List.mem_of_find?_eq_some hfind
      show ⟨dependency.dependentTempId, dependency.dependentTempId⟩ ∈ dependencies
      nth_rewrite 2 [hself]
      exact hedge
    unfold detectDependencyCycles
    rw [hfind]
    exact findsCycles_self hmem
  | none =>
    have hself : ∀ dependency ∈ dependencies,
        dependency.dependentTempId ≠ dependency.blockerTempId := by
      simpa using hfind
    obtain ⟨visited, hrun⟩ := @explores_detectDependencyCycles slices dependencies hself
    exact (findsCycles_of_explores hrun fun node => mem_slices).congr (edge_sliceGraph hknown)

/-- A dependency between slices as one between tasks. -/
def PrdProposalDependency.suggestion (dependency : PrdProposalDependency) :
    TriageDependencySuggestion where
  dependentTaskId := dependency.dependentTempId
  blockerTaskId := dependency.blockerTempId

theorem dependsOn_suggestion (dependencies : List PrdProposalDependency) (x y : String) :
    DependsOn (dependencies.map (·.suggestion)) x y ↔ SliceDependsOn dependencies x y := by
  unfold DependsOn SliceDependsOn
  constructor
  · intro h
    obtain ⟨⟨dependent, blocker⟩, hmem, heq⟩ := List.mem_map.mp h
    obtain ⟨rfl, rfl⟩ := TriageDependencySuggestion.mk.inj heq
    exact hmem
  · exact fun h => List.mem_map.mpr ⟨_, h, rfl⟩

theorem verdicts_agree {slices : List PrdProposalSlice} {dependencies : List PrdProposalDependency}
    (hknown : ∀ dependency ∈ dependencies,
      dependency.dependentTempId ∈ slices.map (·.tempId)) :
    detectDependencyCycles slices dependencies ≠ [] ↔
      detectTriageCycles (dependencies.map (·.suggestion)) ≠ [] := by
  have htriage := (findsCycles_triage (dependencies.map (·.suggestion))).congr
    (dependsOn_suggestion dependencies)
  rw [(findsCycles_slices hknown).verdict, htriage.verdict]

/-! ### Validation -/

/-- What `validateTriageProposal` checks. -/
structure AcceptedTriage (proposal : TriageProposal) (knownTaskIds : List TaskId)
    (requiredTaskIds : Option (List TaskId)) : Prop where
  decisions : proposal.decisions ≠ []
  once : repeatedTempIds [] (proposal.decisions.map (·.taskId)) = []
  known : ∀ decision ∈ proposal.decisions, decision.taskId ∈ knownTaskIds
  cycles : detectTriageCycles (collectProposalDependencyEdges proposal) = []
  complete : ∀ taskId ∈ requiredTaskIds.getD [], taskId ∈ proposal.decisions.map (·.taskId)

theorem eraseDups_eq_nil_iff {ids : List String} : ids.eraseDups = [] ↔ ids = [] := by
  cases ids with
  | nil => simp
  | cons id ids => simp [List.eraseDups_cons]

theorem validateTriageProposal_iff (proposal : TriageProposal) (knownTaskIds : List TaskId)
    (requiredTaskIds : Option (List TaskId)) :
    validateTriageProposal proposal knownTaskIds requiredTaskIds = .ok () ↔
      AcceptedTriage proposal knownTaskIds requiredTaskIds := by
  unfold validateTriageProposal
  simp only [bind, Except.bind, pure, Except.pure, throw, throwThe, MonadExceptOf.throw]
  constructor
  · intro h
    split at h
    · cases h
    rename_i hdecisions
    split at h
    · cases h
    rename_i honce
    split at h
    · cases h
    rename_i hknown
    split at h
    · cases h
    rename_i hcycles
    split at h
    · cases h
    rename_i hcomplete
    refine ⟨by simpa using hdecisions, ?_, by simpa using hknown, by simpa using hcycles, ?_⟩
    · exact eraseDups_eq_nil_iff.mp (by simpa using honce)
    · simpa using hcomplete
  · intro h
    have hknown : proposal.decisions.find? (·.taskId ∉ knownTaskIds) = none := by
      simpa using h.known
    have hcomplete : (requiredTaskIds.getD []).filter
        (· ∉ proposal.decisions.map (·.taskId)) = [] := by
      simpa using h.complete
    rw [hknown, h.once, h.cycles, hcomplete]
    simp [h.decisions]

theorem acyclic_of_validateTriage {proposal : TriageProposal} {knownTaskIds : List TaskId}
    {requiredTaskIds : Option (List TaskId)}
    (h : validateTriageProposal proposal knownTaskIds requiredTaskIds = .ok ()) (id : TaskId) :
    ¬ TransGen (DependsOn (collectProposalDependencyEdges proposal)) id id := by
  have haccepted := (validateTriageProposal_iff _ _ _).mp h
  exact (findsCycles_triage _).eq_nil_iff.mp haccepted.cycles id

theorem acyclic_of_validatePrd {proposal : PrdDecompositionProposal} {unattended : Bool}
    (h : validatePrdDecompositionProposal proposal unattended = .ok ()) (id : String) :
    ¬ TransGen (SliceDependsOn proposal.dependencies) id id := by
  unfold validatePrdDecompositionProposal at h
  simp only [bind, Except.bind, pure, Except.pure, throw, throwThe, MonadExceptOf.throw] at h
  split at h
  · cases h
  split at h
  · cases h
  split at h
  · cases h
  split at h
  · cases h
  rename_i hunknown
  split at h
  · cases h
  rename_i hcycles
  have hreferenced : collectUnknownTempIds proposal = [] := by simpa using hunknown
  have hdependents : ∀ dependency ∈ proposal.dependencies,
      dependency.dependentTempId ∈ proposal.slices.map (·.tempId) := by
    intro dependency hdependency
    have hknown := List.filter_eq_nil_iff.mp (eraseDups_eq_nil_iff.mp hreferenced)
    have hmem := hknown dependency.dependentTempId (List.mem_append_left _
      (List.mem_flatMap.mpr ⟨dependency, hdependency, by simp⟩))
    simpa using hmem
  have hnil : detectDependencyCycles proposal.slices proposal.dependencies = [] := by
    simpa using hcycles
  exact (findsCycles_slices hdependents).eq_nil_iff.mp hnil id

/-! ### Sanitizing -/

theorem taskIds_sanitize (proposal : TriageProposal) (boardTaskIds : List TaskId) :
    (sanitizeTriageProposalDependencies proposal boardTaskIds).decisions.map (·.taskId) =
      proposal.decisions.map (·.taskId) := by
  simp [sanitizeTriageProposalDependencies, Function.comp_def]

theorem dependsOn_of_sanitize {proposal : TriageProposal} {boardTaskIds : List TaskId}
    {x y : TaskId} (h : DependsOn (collectProposalDependencyEdges
      (sanitizeTriageProposalDependencies proposal boardTaskIds)) x y) :
    DependsOn (collectProposalDependencyEdges proposal) x y := by
  obtain ⟨sanitized, hmem, hedge⟩ := List.mem_flatMap.mp h
  obtain ⟨decision, hdecision, rfl⟩ := List.mem_map.mp hmem
  exact List.mem_flatMap.mpr ⟨decision, hdecision, List.mem_of_mem_filter hedge⟩

theorem validate_sanitize {proposal : TriageProposal} {knownTaskIds : List TaskId}
    {requiredTaskIds : Option (List TaskId)}
    (h : validateTriageProposal proposal knownTaskIds requiredTaskIds = .ok ())
    (boardTaskIds : List TaskId) :
    validateTriageProposal (sanitizeTriageProposalDependencies proposal boardTaskIds) knownTaskIds
      requiredTaskIds = .ok () := by
  have haccepted := (validateTriageProposal_iff _ _ _).mp h
  have hids := taskIds_sanitize proposal boardTaskIds
  refine (validateTriageProposal_iff _ _ _).mpr ⟨?_, ?_, ?_, ?_, ?_⟩
  · simpa [sanitizeTriageProposalDependencies] using haccepted.decisions
  · rw [hids]
    exact haccepted.once
  · intro sanitized hmem
    obtain ⟨decision, hdecision, rfl⟩ := List.mem_map.mp hmem
    exact haccepted.known decision hdecision
  · refine (findsCycles_triage _).eq_nil_iff.mpr fun id hcycle => ?_
    refine acyclic_of_validateTriage h id ?_
    exact TransGen.mono (fun _ _ hedge => dependsOn_of_sanitize hedge) _ _ hcycle
  · rw [hids]
    exact haccepted.complete

/-! ### Both proposals -/

/-- The cycles of proposals are found exactly. Triage finds one just when the edges have one, and
names only ids on cycles; both searches are runs of the recursion that end, and they agree about
dependencies between slices. So what either validation accepts has no cycle, and sanitizing keeps
what is accepted. -/
theorem cycles_exact :
    (∀ edges, FindsCycles (DependsOn edges) (detectTriageCycles edges)) ∧
    (∀ edges : List TriageDependencySuggestion,
      (∀ edge ∈ edges, edge.dependentTaskId ≠ edge.blockerTaskId) →
      ∃ visited, Explores (triageGraph edges) [] [] (triageNodes edges) visited
        (detectTriageCycles edges)) ∧
    (∀ slices dependencies, (∀ dependency ∈ dependencies,
        dependency.dependentTempId ≠ dependency.blockerTempId) →
      ∃ visited, Explores (sliceGraph slices dependencies) [] [] (slices.map (·.tempId)) visited
        (detectDependencyCycles slices dependencies)) ∧
    (∀ (slices : List PrdProposalSlice) (dependencies : List PrdProposalDependency),
      (∀ dependency ∈ dependencies, dependency.dependentTempId ∈ slices.map (·.tempId) ∧
        dependency.blockerTempId ∈ slices.map (·.tempId)) →
      (detectDependencyCycles slices dependencies ≠ [] ↔
        detectTriageCycles (dependencies.map (·.suggestion)) ≠ [])) ∧
    (∀ proposal knownTaskIds requiredTaskIds,
      validateTriageProposal proposal knownTaskIds requiredTaskIds = .ok () →
      ∀ id, ¬ TransGen (DependsOn (collectProposalDependencyEdges proposal)) id id) ∧
    (∀ proposal unattended, validatePrdDecompositionProposal proposal unattended = .ok () →
      ∀ id, ¬ TransGen (SliceDependsOn proposal.dependencies) id id) ∧
    (∀ proposal boardTaskIds knownTaskIds requiredTaskIds,
      validateTriageProposal proposal knownTaskIds requiredTaskIds = .ok () →
      validateTriageProposal (sanitizeTriageProposalDependencies proposal boardTaskIds)
        knownTaskIds requiredTaskIds = .ok ()) := by
  refine ⟨findsCycles_triage, fun _ => explores_detectTriageCycles,
    fun _ _ => explores_detectDependencyCycles, ?_, ?_, ?_, ?_⟩
  · intro slices dependencies hknown
    exact verdicts_agree fun dependency hmem => (hknown dependency hmem).1
  · exact fun _ _ _ => acyclic_of_validateTriage
  · exact fun _ _ => acyclic_of_validatePrd
  · exact fun _ boardTaskIds _ _ h => validate_sanitize h boardTaskIds

/-- Two tasks that wait for each other, and a third one. -/
example : detectTriageCycles [⟨"c", "a"⟩, ⟨"a", "b"⟩, ⟨"b", "a"⟩, ⟨"a", "b"⟩] = ["a"] := by
  decide

end ArchLoop.TaskBoard
