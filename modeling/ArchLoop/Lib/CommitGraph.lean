import Mathlib.Tactic.Common
import Mathlib.Data.List.Basic

/-!
# `ArchLoop.Lib.CommitGraph`: commits that carry their history

The id of a Git commit is a hash over its content and over the ids of its parents, so it stands
for the whole history behind the commit. A `Commit` here is that history: its data and its
parents. Two commits are the same when their histories are.

- `ancestors` lists the commits that a commit reaches, itself first. `mem_ancestors_mk` is its
  rule.
- `revList base head` is `git rev-list --reverse base..head`: what `head` reaches and `base` does
  not, each parent before its children.
-/

set_option autoImplicit false

namespace ArchLoop.Lib

/-- A commit, with its data and its parents in order. -/
inductive Commit (κ : Type) where
  | mk (data : κ) (parents : List (Commit κ))

namespace Commit

variable {κ : Type}

def data : Commit κ → κ
  | mk data _ => data

def parents : Commit κ → List (Commit κ)
  | mk _ parents => parents

/-! ### Decidable equality -/

section DecidableEq

variable [DecidableEq κ]

mutual

/-- The commits have the same history. -/
def same : Commit κ → Commit κ → Bool
  | mk a ps, mk b qs => a = b && sameAll ps qs

def sameAll : List (Commit κ) → List (Commit κ) → Bool
  | [], [] => true
  | p :: ps, q :: qs => p.same q && sameAll ps qs
  | _, _ => false

end

mutual

theorem same_self : (a : Commit κ) → a.same a = true
  | mk a ps => by rw [same, sameAll_self ps]; simp

theorem sameAll_self : (ps : List (Commit κ)) → sameAll ps ps = true
  | [] => rfl
  | p :: ps => by rw [sameAll, same_self p, sameAll_self ps]; rfl

end

mutual

theorem eq_of_same : (a b : Commit κ) → a.same b = true → a = b
  | mk a ps, mk b qs, h => by
    obtain ⟨hdata, hparents⟩ := (Bool.and_eq_true _ _).mp h
    rw [of_decide_eq_true hdata, eq_of_sameAll ps qs hparents]

theorem eq_of_sameAll : (ps qs : List (Commit κ)) → sameAll ps qs = true → ps = qs
  | [], qs, h => by
    cases qs with
    | nil => rfl
    | cons => cases h
  | p :: ps, qs, h => by
    cases qs with
    | nil => cases h
    | cons q qs =>
      obtain ⟨hhead, htail⟩ := (Bool.and_eq_true _ _).mp h
      rw [eq_of_same p q hhead, eq_of_sameAll ps qs htail]

end

instance : DecidableEq (Commit κ) := fun a b =>
  decidable_of_iff (a.same b = true) ⟨eq_of_same a b, fun h => h ▸ same_self a⟩

end DecidableEq

/-! ### Ancestors -/

mutual

/-- The commits that a commit reaches, itself first. -/
def ancestors : Commit κ → List (Commit κ)
  | mk data parents => mk data parents :: ancestorsOfAll parents

/-- The commits that some of the commits reach. -/
def ancestorsOfAll : List (Commit κ) → List (Commit κ)
  | [] => []
  | p :: ps => p.ancestors ++ ancestorsOfAll ps

end

theorem mem_ancestorsOfAll {c : Commit κ} {ps : List (Commit κ)} :
    c ∈ ancestorsOfAll ps ↔ ∃ p ∈ ps, c ∈ p.ancestors := by
  induction ps with
  | nil => simp [ancestorsOfAll]
  | cons p ps ih => simp [ancestorsOfAll, ih]

theorem mem_ancestors_mk {c : Commit κ} {data : κ} {ps : List (Commit κ)} :
    c ∈ (mk data ps).ancestors ↔ c = mk data ps ∨ ∃ p ∈ ps, c ∈ p.ancestors := by
  rw [ancestors, List.mem_cons, mem_ancestorsOfAll]

@[simp] theorem mem_ancestors_self (c : Commit κ) : c ∈ c.ancestors := by
  cases c
  rw [mem_ancestors_mk]
  exact Or.inl rfl

/-! ### Ranges -/

section RevList

variable [DecidableEq κ]

/-- `git rev-list --reverse base..head`. -/
def revList (base head : Commit κ) : List (Commit κ) :=
  (head.ancestors.reverse.filter (· ∉ base.ancestors)).eraseDups

theorem mem_revList {base head c : Commit κ} :
    c ∈ revList base head ↔ c ∈ head.ancestors ∧ c ∉ base.ancestors := by
  simp [revList]

theorem mem_ancestors_of_revList_eq_nil {base head : Commit κ} (h : revList base head = []) :
    head ∈ base.ancestors := by
  by_contra hnot
  have hmem : head ∈ revList base head := mem_revList.mpr ⟨mem_ancestors_self head, hnot⟩
  rw [h] at hmem
  exact List.not_mem_nil hmem

end RevList

end Commit

end ArchLoop.Lib
