import Mathlib.Data.List.Perm.Subperm
import Mathlib.Logic.Relation

/-!
# `ArchLoop.Lib.DepthFirst`: the search for cycles

A depth-first search keeps the nodes that it is visiting and those that it is done with. It reports
a node when an edge leads back to one that it is visiting. `Explores` is this recursion, written as
a derivation: a derivation of it is a run that ends.

The search is exact. `Explores.on_cycle`: each report lies on a cycle. `Explores.cleared`: where
nothing is reported, the nodes that it is done with lie on no cycle. `Room` bounds the depth: no
more nodes are visited at once than there are nodes with edges.
-/

set_option autoImplicit false

namespace ArchLoop.Lib.DepthFirst

open Relation

variable {α : Type} {graph : α → List α}

/-- There is an edge from the first node to the second. -/
def Edge (graph : α → List α) (x y : α) : Prop := y ∈ graph x

/-- The search through the nodes, one after the other: `path` is being visited, `done` is visited
before and `done'` after it, and `back` is what it reports. -/
inductive Explores (graph : α → List α) :
    List α → List α → List α → List α → List α → Prop where
  | nil {path done : List α} : Explores graph path done [] done []
  | seen {path done done' nodes back : List α} {node : α} (hdone : node ∈ done)
      (rest : Explores graph path done nodes done' back) :
      Explores graph path done (node :: nodes) done' back
  | back {path done done' nodes back : List α} {node : α} (hdone : node ∉ done)
      (hpath : node ∈ path) (rest : Explores graph path done nodes done' back) :
      Explores graph path done (node :: nodes) done' (node :: back)
  | enter {path done inner done' nodes inside back : List α} {node : α} (hdone : node ∉ done)
      (hpath : node ∉ path)
      (within : Explores graph (node :: path) done (graph node) inner inside)
      (rest : Explores graph path (node :: inner) nodes done' back) :
      Explores graph path done (node :: nodes) done' (inside ++ back)

theorem Explores.append {path done mid done' first second back back' : List α}
    (h : Explores graph path done first mid back)
    (h' : Explores graph path mid second done' back') :
    Explores graph path done (first ++ second) done' (back ++ back') := by
  induction h with
  | nil => exact h'
  | seen hdone _ ih => exact .seen hdone (ih h')
  | back hdone hpath _ ih => exact .back hdone hpath (ih h')
  | enter hdone hpath within _ _ ih =>
    rw [List.append_assoc]
    exact .enter hdone hpath within (ih h')

/-! ### The depth -/

/-- The path does not come twice to a node, and has only nodes with edges. `depth` more calls are
more than there are such nodes left. -/
structure Room (nodes path : List α) (depth : Nat) : Prop where
  nodup : path.Nodup
  subset : path ⊆ nodes
  depth : nodes.length < path.length + depth

theorem Room.pos {nodes path : List α} {depth : Nat} (h : Room nodes path depth) : 0 < depth := by
  have hlength : path.length ≤ nodes.length := (List.Nodup.subperm h.nodup h.subset).length_le
  have hdepth := h.depth
  omega

theorem Room.cons {nodes path : List α} {depth : Nat} (h : Room nodes path (depth + 1)) {node : α}
    (hnode : node ∈ nodes) (hnew : node ∉ path) : Room nodes (node :: path) depth where
  nodup := List.nodup_cons.mpr ⟨hnew, h.nodup⟩
  subset := List.cons_subset.mpr ⟨hnode, h.subset⟩
  depth := by
    have hdepth := h.depth
    simp only [List.length_cons]
    omega

theorem room_nil {nodes : List α} {depth : Nat} (h : nodes.length < depth) :
    Room nodes [] depth where
  nodup := List.nodup_nil
  subset := List.nil_subset _
  depth := by simpa using h

/-! ### Soundness -/

theorem Explores.on_cycle {path done nodes done' back : List α}
    (h : Explores graph path done nodes done' back)
    (hpath : ∀ x ∈ path, ∀ node ∈ nodes, TransGen (Edge graph) x node) :
    ∀ x ∈ back, TransGen (Edge graph) x x := by
  induction h with
  | nil =>
    intro x hx
    cases hx
  | seen _ _ ih => exact ih fun x hx node hnode => hpath x hx node (List.mem_cons_of_mem _ hnode)
  | @back _ _ _ _ _ node _ hmem _ ih =>
    intro x hx
    cases hx with
    | head => exact hpath node hmem node List.mem_cons_self
    | tail _ hx =>
      exact ih (fun y hy next hnext => hpath y hy next (List.mem_cons_of_mem _ hnext)) x hx
  | @enter _ _ _ _ _ _ _ node _ _ _ _ ihWithin ihRest =>
    intro x hx
    rcases List.mem_append.mp hx with hx | hx
    · -- one edge more from the node that is entered
      refine ihWithin (fun y hy next hnext => ?_) x hx
      have hedge : Edge graph node next := hnext
      cases hy with
      | head => exact .single hedge
      | tail _ hy => exact (hpath y hy node List.mem_cons_self).tail hedge
    · exact ihRest (fun y hy next hnext => hpath y hy next (List.mem_cons_of_mem _ hnext)) x hx

/-! ### Completeness -/

theorem Explores.subset {path done nodes done' back : List α}
    (h : Explores graph path done nodes done' back) : ∀ x ∈ done, x ∈ done' := by
  induction h with
  | nil => exact fun _ hx => hx
  | seen _ _ ih => exact ih
  | back _ _ _ ih => exact ih
  | enter _ _ _ _ ihWithin ihRest =>
    exact fun x hx => ihRest x (List.mem_cons_of_mem _ (ihWithin x hx))

theorem Explores.notMem {path done nodes done' back : List α}
    (h : Explores graph path done nodes done' back) :
    ∀ x ∈ path, x ∉ done → x ∉ done' := by
  induction h with
  | nil => exact fun _ _ hx => hx
  | seen _ _ ih => exact ih
  | back _ _ _ ih => exact ih
  | enter _ hnew _ _ ihWithin ihRest =>
    intro x hx hdone
    have hne : x ≠ _ := ne_of_mem_of_not_mem hx hnew
    have hinner := ihWithin x (List.mem_cons_of_mem _ hx) hdone
    exact ihRest x hx (by simp [hne, hinner])

theorem Explores.mem {path done nodes done' : List α}
    (h : Explores graph path done nodes done' []) : ∀ x ∈ nodes, x ∈ done' := by
  generalize hback : ([] : List α) = back at h
  induction h with
  | nil =>
    intro x hx
    cases hx
  | seen hdone rest ih =>
    intro x hx
    cases hx with
    | head => exact rest.subset _ hdone
    | tail _ hx => exact ih hback x hx
  | back => cases hback
  | enter _ _ _ rest _ ihRest =>
    obtain ⟨-, hrest⟩ := List.append_eq_nil_iff.mp hback.symm
    intro x hx
    cases hx with
    | head => exact rest.subset _ List.mem_cons_self
    | tail _ hx => exact ihRest hrest.symm x hx

/-- No edge leads out of the nodes, and none of them lies on a cycle. -/
structure Cleared (graph : α → List α) (done : List α) : Prop where
  closed : ∀ x ∈ done, ∀ y, Edge graph x y → y ∈ done
  acyclic : ∀ x ∈ done, ¬ TransGen (Edge graph) x x

theorem cleared_nil : Cleared graph [] where
  closed _ hx := nomatch hx
  acyclic _ hx := nomatch hx

theorem Cleared.reaches {done : List α} (h : Cleared graph done) {x y : α} (hx : x ∈ done)
    (hxy : TransGen (Edge graph) x y) : y ∈ done := by
  induction hxy with
  | single hedge => exact h.closed x hx _ hedge
  | tail _ hedge ih => exact h.closed _ ih _ hedge

theorem Cleared.cons {done : List α} (h : Cleared graph done) {node : α} (hnew : node ∉ done)
    (hedges : ∀ y, Edge graph node y → y ∈ done) : Cleared graph (node :: done) where
  closed := by
    intro x hx y hedge
    cases hx with
    | head => exact List.mem_cons_of_mem _ (hedges y hedge)
    | tail _ hx => exact List.mem_cons_of_mem _ (h.closed x hx y hedge)
  acyclic := by
    intro x hx hcycle
    cases hx with
    | head =>
      -- a cycle through the node leads to the nodes, and none of these leads out
      obtain ⟨y, hedge, hback⟩ := TransGen.head'_iff.mp hcycle
      rcases reflTransGen_iff_eq_or_transGen.mp hback with rfl | hback
      · exact hnew (hedges _ hedge)
      · exact hnew (h.reaches (hedges y hedge) hback)
    | tail _ hx => exact h.acyclic x hx hcycle

theorem Explores.cleared {path done nodes done' : List α}
    (h : Explores graph path done nodes done' []) (hpath : ∀ x ∈ path, x ∉ done)
    (hdone : Cleared graph done) : Cleared graph done' := by
  generalize hback : ([] : List α) = back at h
  induction h with
  | nil => exact hdone
  | seen _ _ ih => exact ih hpath hdone hback
  | back => cases hback
  | @enter _ _ inner _ _ _ _ node hnew hout within rest ihWithin ihRest =>
    obtain ⟨hinside, hrest⟩ := List.append_eq_nil_iff.mp hback.symm
    subst hinside hrest
    have hpath' : ∀ x ∈ node :: _, x ∉ _ := List.forall_mem_cons.mpr ⟨hnew, hpath⟩
    have hinner : node ∉ inner := within.notMem node List.mem_cons_self hnew
    have hcleared := (ihWithin hpath' hdone rfl).cons hinner within.mem
    refine ihRest (fun x hx => ?_) hcleared rfl
    have hne : x ≠ node := ne_of_mem_of_not_mem hx hout
    simp [hne, within.notMem x (List.mem_cons_of_mem _ hx) (hpath x hx)]

theorem Explores.eq_nil_iff {nodes done back : List α}
    (h : Explores graph [] [] nodes done back) (hnodes : ∀ x, graph x ≠ [] → x ∈ nodes) :
    back = [] ↔ ∀ x, ¬ TransGen (Edge graph) x x := by
  constructor
  · rintro rfl x hcycle
    obtain ⟨y, hedge, -⟩ := TransGen.head'_iff.mp hcycle
    have hmem : x ∈ nodes := hnodes x (List.ne_nil_of_mem hedge)
    exact (h.cleared (by simp) cleared_nil).acyclic x (h.mem x hmem) hcycle
  · intro hacyclic
    refine List.eq_nil_iff_forall_not_mem.mpr fun x hx => ?_
    exact hacyclic x (h.on_cycle (by simp) x hx)

end ArchLoop.Lib.DepthFirst
