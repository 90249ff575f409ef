import ArchLoop.ManagedBranch
import Mathlib.Data.List.Flatten
import Mathlib.Data.List.Perm.Lattice

/-!
# Which claim decides that a branch is the Hub's

The first claim of a branch tells whether the Hub made it. The cleanup asks the latest claim
instead (`mem_collectOwnershipRecords`), and a task that is claimed again finds the branch of its
first attempt. `branchStaysManaged_iff` says for which histories the two agree: the claim that
decides has to find what the first one found.

The logs hold every claim of a history once (`perm_allClaims_run`), in an order that the names of
the run directories make. So which claim decides is a matter of the times, and of the names where
times are equal (`Decides`).
-/

set_option autoImplicit false

namespace ArchLoop.ManagedBranch

open ArchLoop.Lib

/-! ### The last of the latest -/

section Latest

variable {l : List HubManagedBranchOwnershipRecord} {c o : HubManagedBranchOwnershipRecord}

/-- Of the claims of one branch, in the order in which they are read, the one that decides: none is
later, and none that is read after it has its time. -/
def Decides (l : List HubManagedBranchOwnershipRecord) (c : HubManagedBranchOwnershipRecord) :
    Prop :=
  ∃ before after, l = before ++ c :: after ∧
    (∀ d ∈ before, d.claimedAt ≤ c.claimedAt) ∧ ∀ d ∈ after, d.claimedAt < c.claimedAt

theorem Decides.mem (h : Decides l c) : c ∈ l := by
  obtain ⟨before, after, rfl, -, -⟩ := h
  simp

theorem Decides.le (h : Decides l c) (ho : o ∈ l) : o.claimedAt ≤ c.claimedAt := by
  obtain ⟨before, after, rfl, hbefore, hafter⟩ := h
  rcases List.mem_append.mp ho with ho | ho
  · exact hbefore o ho
  · rcases List.mem_cons.mp ho with rfl | ho
    · exact le_refl _
    · exact (hafter o ho).le

theorem decides_concat_iff :
    Decides (l ++ [o]) c ↔
      (c = o ∧ ∀ d ∈ l, d.claimedAt ≤ o.claimedAt) ∨ (Decides l c ∧ o.claimedAt < c.claimedAt) := by
  constructor
  · rintro ⟨before, after, hsplit, hbefore, hafter⟩
    rcases List.eq_nil_or_concat' after with rfl | ⟨after, last, rfl⟩
    · obtain ⟨rfl, hlast⟩ := List.append_inj' hsplit rfl
      obtain rfl : o = c := by simpa using hlast
      exact .inl ⟨rfl, hbefore⟩
    · have hsplit' : l ++ [o] = (before ++ c :: after) ++ [last] := by
        rw [hsplit, List.append_assoc, List.cons_append]
      obtain ⟨hl, hlast⟩ := List.append_inj' hsplit' rfl
      obtain rfl : o = last := by simpa using hlast
      refine .inr ⟨⟨before, after, hl, hbefore, ?_⟩, hafter o (by simp)⟩
      intro d hd
      exact hafter d (List.mem_append_left _ hd)
  · rintro (⟨rfl, hle⟩ | ⟨⟨before, after, rfl, hbefore, hafter⟩, hlt⟩)
    · exact ⟨l, [], rfl, hle, fun d hd => absurd hd List.not_mem_nil⟩
    · refine ⟨before, after ++ [o], by simp, hbefore, ?_⟩
      intro d hd
      rcases List.mem_append.mp hd with hd | hd
      · exact hafter d hd
      · rw [List.mem_singleton] at hd
        exact hd ▸ hlt

theorem not_decides_nil : ¬Decides [] c := by
  intro h
  exact absurd h.mem List.not_mem_nil

theorem exists_decides (h : l ≠ []) : ∃ c, Decides l c := by
  induction l using List.reverseRecOn with
  | nil => exact absurd rfl h
  | append_singleton l o ih =>
    by_cases hnil : l = []
    · subst hnil
      exact ⟨o, decides_concat_iff.mpr (.inl ⟨rfl, fun d hd => absurd hd List.not_mem_nil⟩)⟩
    · obtain ⟨c, hc⟩ := ih hnil
      by_cases hlt : o.claimedAt < c.claimedAt
      · exact ⟨c, decides_concat_iff.mpr (.inr ⟨hc, hlt⟩)⟩
      · refine ⟨o, decides_concat_iff.mpr (.inl ⟨rfl, ?_⟩)⟩
        intro d hd
        exact (hc.le hd).trans (Nat.le_of_not_lt hlt)

theorem Decides.unique {c' : HubManagedBranchOwnershipRecord} (h : Decides l c)
    (h' : Decides l c') : c = c' := by
  induction l using List.reverseRecOn with
  | nil => exact absurd h not_decides_nil
  | append_singleton l o ih =>
    rcases decides_concat_iff.mp h with ⟨rfl, hle⟩ | ⟨hc, hlt⟩
    · rcases decides_concat_iff.mp h' with ⟨rfl, -⟩ | ⟨hc', hlt'⟩
      · rfl
      · exact absurd hlt' (Nat.not_lt.mpr (hle c' hc'.mem))
    · rcases decides_concat_iff.mp h' with ⟨rfl, hle'⟩ | ⟨hc', -⟩
      · exact absurd hlt (Nat.not_lt.mpr (hle' c hc.mem))
      · exact ih hc hc'

end Latest

/-! ### The records -/

def claimsOfBranch (branch : String) (claims : List HubManagedBranchOwnershipRecord) :
    List HubManagedBranchOwnershipRecord :=
  claims.filter fun claim => claim.branch == branch

theorem mem_takeOwnership {claims records : List HubManagedBranchOwnershipRecord}
    {o : HubManagedBranchOwnershipRecord}
    (ih : ∀ {r}, r ∈ records ↔ Decides (claimsOfBranch r.branch claims) r)
    {r : HubManagedBranchOwnershipRecord} :
    r ∈ takeOwnership records o ↔ Decides (claimsOfBranch r.branch (claims ++ [o])) r := by
  unfold takeOwnership
  have hfilter : claimsOfBranch r.branch (claims ++ [o]) =
      claimsOfBranch r.branch claims ++ if o.branch = r.branch then [o] else [] := by
    unfold claimsOfBranch
    rw [List.filter_append]
    by_cases hbranch : o.branch = r.branch
    · simp [hbranch]
    · simp [hbranch]
  rw [hfilter]
  by_cases hbranch : o.branch = r.branch
  · rw [if_pos hbranch, decides_concat_iff]
    split
    · rename_i hfind
      -- No claim of the branch was read before.
      have hnone : claimsOfBranch r.branch claims = [] := by
        by_contra hne
        obtain ⟨c, hc⟩ := exists_decides hne
        have hcb : c.branch = r.branch := by
          have hmem := (List.mem_filter.mp hc.mem).2
          exact eq_of_beq hmem
        have hin : c ∈ records := ih.mpr (hcb ▸ hc)
        have hnot := List.find?_eq_none.mp hfind c hin
        exact hnot (beq_iff_eq.mpr (hcb.trans hbranch.symm))
      rw [hnone]
      constructor
      · intro hmem
        rcases List.mem_append.mp hmem with hmem | hmem
        · have hdecides := ih.mp hmem
          rw [hnone] at hdecides
          exact absurd hdecides not_decides_nil
        · exact .inl ⟨List.mem_singleton.mp hmem, fun d hd => absurd hd List.not_mem_nil⟩
      · rintro (⟨rfl, -⟩ | ⟨hdecides, -⟩)
        · simp
        · exact absurd hdecides not_decides_nil
    · rename_i current hfind
      have hcurrent : current ∈ records := List.mem_of_find?_eq_some hfind
      have hcurrentBranch : current.branch = r.branch := by
        have hsome := List.find?_some hfind
        exact (eq_of_beq hsome).trans hbranch
      have hdecides : Decides (claimsOfBranch r.branch claims) current :=
        hcurrentBranch ▸ ih.mp hcurrent
      split
      · rename_i hle
        constructor
        · intro hmem
          obtain ⟨record, -, heq⟩ := List.mem_map.mp hmem
          split at heq
          · refine .inl ⟨heq.symm, ?_⟩
            intro d hd
            exact (hdecides.le hd).trans hle
          · rename_i hother
            exact absurd (heq ▸ hbranch.symm) hother
        · rintro (⟨rfl, -⟩ | ⟨hr, hlt⟩)
          · exact List.mem_map.mpr ⟨current, hcurrent, if_pos hcurrentBranch⟩
          · have hsame := hr.unique hdecides
            subst hsame
            exact absurd hlt (Nat.not_lt.mpr hle)
      · rename_i hlt
        rw [ih]
        constructor
        · intro hr
          have hsame := hr.unique hdecides
          subst hsame
          exact .inr ⟨hr, Nat.lt_of_not_le hlt⟩
        · rintro (⟨rfl, hle⟩ | ⟨hr, -⟩)
          · exact absurd (hle current hdecides.mem) hlt
          · exact hr
  · rw [if_neg hbranch, List.append_nil, ← ih]
    split
    · constructor
      · intro hmem
        rcases List.mem_append.mp hmem with hmem | hmem
        · exact hmem
        · exact absurd (List.mem_singleton.mp hmem ▸ rfl) hbranch
      · exact fun hmem => List.mem_append_left _ hmem
    · split
      · constructor
        · intro hmem
          obtain ⟨record, hrecord, heq⟩ := List.mem_map.mp hmem
          split at heq
          · exact absurd (heq ▸ rfl) hbranch
          · exact heq ▸ hrecord
        · intro hmem
          exact List.mem_map.mpr ⟨r, hmem, if_neg fun heq => hbranch heq.symm⟩
      · exact Iff.rfl

theorem mem_foldl_takeOwnership {claims : List HubManagedBranchOwnershipRecord}
    {r : HubManagedBranchOwnershipRecord} :
    r ∈ claims.foldl takeOwnership [] ↔ Decides (claimsOfBranch r.branch claims) r := by
  induction claims using List.reverseRecOn generalizing r with
  | nil => simp [claimsOfBranch, not_decides_nil]
  | append_singleton claims o ih =>
    rw [List.foldl_concat]
    exact mem_takeOwnership ih

/-! ### Safe candidates -/

section Safe

variable {repository : BranchRepository} {runs : List RunDir} {branch : String}

/-- Nothing in the repository speaks against deleting the branch: it exists and is merged, and it
has no worktree and no active lease. -/
structure Clean (repository : BranchRepository) (branch : String) : Prop where
  mem : branch ∈ repository.branches
  merged : branch ∈ repository.mergedIntoTarget
  noWorktree : ∀ entry ∈ repository.worktreeEntries, entry.branch ≠ some branch
  noLease : ∀ lease ∈ repository.leases, lease.branch = branch → lease.isActive = false

theorem worktreePaths_eq_nil_iff (hmem : branch ∈ repository.branches) :
    worktreePaths repository branch = [] ↔
      ∀ entry ∈ repository.worktreeEntries, entry.branch ≠ some branch := by
  unfold worktreePaths
  rw [if_pos hmem, List.map_eq_nil_iff, List.filter_eq_nil_iff]
  simp

theorem activeLeasesForBranch_eq_nil_iff :
    activeLeasesForBranch repository branch = [] ↔
      ∀ lease ∈ repository.leases, lease.branch = branch → lease.isActive = false := by
  unfold activeLeasesForBranch
  rw [List.filter_eq_nil_iff]
  simp

theorem repositorySkips_eq_nil_iff :
    repositorySkips repository branch = [] ↔ Clean repository branch := by
  by_cases hmem : branch ∈ repository.branches
  · have hdirty : worktreePaths repository branch = [] →
        dirtyManagedPaths repository branch = [] := by
      intro hpaths
      unfold dirtyManagedPaths
      rw [hpaths]
      rfl
    constructor
    · intro h
      unfold repositorySkips at h
      simp only [List.append_eq_nil_iff, ite_eq_left_iff, ite_eq_right_iff, hmem, decide_true,
        Bool.true_and, decide_eq_true_eq, imp_false, not_not, List.cons_ne_nil]
        at h
      obtain ⟨⟨⟨⟨-, hmerged⟩, hlease⟩, hpaths⟩, -⟩ := h
      exact ⟨hmem, hmerged, (worktreePaths_eq_nil_iff hmem).mp hpaths,
        activeLeasesForBranch_eq_nil_iff.mp hlease⟩
    · intro h
      have hpaths := (worktreePaths_eq_nil_iff hmem).mpr h.noWorktree
      have hlease := activeLeasesForBranch_eq_nil_iff.mpr h.noLease
      simp [repositorySkips, hmem, h.merged, hpaths, hlease, hdirty hpaths]
  · constructor
    · intro h
      exfalso
      unfold repositorySkips at h
      simp [hmem] at h
    · intro h
      exact absurd h.mem hmem

theorem ownershipSkip_eq_nil_iff {ownership : Option HubManagedBranchOwnershipRecord} :
    ownershipSkip branch ownership = [] ↔
      ∃ claim, ownership = some claim ∧ claim.branchExistedBeforeClaim = false := by
  cases ownership with
  | none => simp [ownershipSkip]
  | some claim =>
    cases hflag : claim.branchExistedBeforeClaim with
    | false => simp [ownershipSkip, hflag]
    | true => simp [ownershipSkip, hflag]

theorem find?_collectOwnershipRecords {claim : HubManagedBranchOwnershipRecord} :
    (collectOwnershipRecords runs).reverse.find? (·.branch == branch) = some claim ↔
      claim.branch = branch ∧ Decides (claimsOfBranch branch (readClaims runs)) claim := by
  constructor
  · intro hfind
    have hbranch : claim.branch = branch := by
      have hsome := List.find?_some hfind
      exact eq_of_beq hsome
    have hmem := List.mem_reverse.mp (List.mem_of_find?_eq_some hfind)
    exact ⟨hbranch, hbranch ▸ mem_foldl_takeOwnership.mp hmem⟩
  · rintro ⟨hbranch, hdecides⟩
    have hmem : claim ∈ collectOwnershipRecords runs :=
      mem_foldl_takeOwnership.mpr (hbranch ▸ hdecides)
    cases hfind : (collectOwnershipRecords runs).reverse.find? (·.branch == branch) with
    | none =>
      have hnot := List.find?_eq_none.mp hfind claim (List.mem_reverse.mpr hmem)
      exact absurd (beq_iff_eq.mpr hbranch) hnot
    | some other =>
      have hother : other.branch = branch := by
        have hsome := List.find?_some hfind
        exact eq_of_beq hsome
      have hin := List.mem_reverse.mp (List.mem_of_find?_eq_some hfind)
      have hdecides' : Decides (claimsOfBranch branch (readClaims runs)) other :=
        hother ▸ mem_foldl_takeOwnership.mp hin
      rw [hdecides.unique hdecides']

/-- The branches that the cleanup deletes without being asked for more. -/
def safeBranches (runs : List RunDir) (repository : BranchRepository) : List String :=
  (evaluateHubManagedBranchCleanup runs repository).managedSafeCandidates.map (·.branch)

/-- A branch is safe when the claim that decides did not find it, and nothing in the repository
speaks against it. -/
theorem mem_safeBranches_iff :
    branch ∈ safeBranches runs repository ↔
      (∃ claim, claim.branch = branch ∧
        Decides (claimsOfBranch branch (readClaims runs)) claim ∧
        claim.branchExistedBeforeClaim = false) ∧ Clean repository branch := by
  have hskips : ∀ ownership,
      ((evaluateCandidate repository branch ownership).ownership.isSome &&
        (evaluateCandidate repository branch ownership).skipReasons.isEmpty) = true ↔
      (∃ claim, ownership = some claim ∧ claim.branchExistedBeforeClaim = false) ∧
        Clean repository branch := by
    intro ownership
    rw [Bool.and_eq_true, List.isEmpty_iff]
    show _ ∧ ownershipSkip branch ownership ++ repositorySkips repository branch = [] ↔ _
    rw [List.append_eq_nil_iff, ownershipSkip_eq_nil_iff, repositorySkips_eq_nil_iff]
    constructor
    · exact fun h => h.2
    · rintro ⟨⟨claim, rfl, hflag⟩, hclean⟩
      exact ⟨rfl, ⟨claim, rfl, hflag⟩, hclean⟩
  constructor
  · intro h
    obtain ⟨candidate, hcandidate, rfl⟩ := List.mem_map.mp h
    obtain ⟨hin, hsafe⟩ := List.mem_filter.mp hcandidate
    obtain ⟨branch, -, rfl⟩ := List.mem_map.mp hin
    obtain ⟨⟨claim, hfind, hflag⟩, hclean⟩ := (hskips _).mp hsafe
    obtain ⟨hbranch, hdecides⟩ := find?_collectOwnershipRecords.mp hfind
    exact ⟨⟨claim, hbranch, hdecides, hflag⟩, hclean⟩
  · rintro ⟨⟨claim, hbranch, hdecides, hflag⟩, hclean⟩
    have hmem : branch ∈ collectCandidateBranches (collectOwnershipRecords runs) repository := by
      unfold collectCandidateBranches
      rw [List.mem_eraseDups]
      have hrecord : claim ∈ collectOwnershipRecords runs :=
        mem_foldl_takeOwnership.mpr (hbranch ▸ hdecides)
      exact List.mem_append_left _ (List.mem_append_right _ (hbranch ▸ List.mem_map_of_mem hrecord))
    have hfind := find?_collectOwnershipRecords.mpr ⟨hbranch, hdecides⟩
    have hcandidate : evaluateCandidate repository branch (some claim) ∈
        (evaluateHubManagedBranchCleanup runs repository).managedSafeCandidates := by
      refine List.mem_filter.mpr ⟨?_, (hskips _).mpr ⟨⟨claim, rfl, hflag⟩, hclean⟩⟩
      exact List.mem_map.mpr ⟨branch, hmem, congrArg _ hfind⟩
    exact List.mem_map.mpr ⟨_, hcandidate, rfl⟩

end Safe

/-! ### Histories -/

section Histories

variable {s : BranchHistory} {steps : List BranchStep} {branch : String}

/-- The claims in the logs, in the order of the directories as they were made. -/
def allClaims (runs : List RunDir) : List HubManagedBranchOwnershipRecord :=
  runs.flatMap fun runDir => runDir.taskEvents.filterMap ownershipOf

theorem perm_readClaims (runs : List RunDir) : (readClaims runs).Perm (allClaims runs) :=
  (List.perm_insertionSort _ runs).flatMap_right _

theorem names_append (runs : List RunDir) (runId : String) (event : HubTaskEvent)
    (h : (runs.map (·.name)).Nodup) :
    ((appendHubTaskEvent runs runId event).map (·.name)).Nodup := by
  unfold appendHubTaskEvent
  split
  · have hnames : (runs.map fun runDir =>
        if runDir.name = runId then { runDir with taskEvents := runDir.taskEvents ++ [event] }
        else runDir).map (·.name) = runs.map (·.name) := by
      rw [List.map_map]
      apply List.map_congr_left
      intro runDir _
      show (if runDir.name = runId then _ else _ : RunDir).name = runDir.name
      split <;> rfl
    rw [hnames]
    exact h
  · rename_i hnew
    rw [List.map_append, List.nodup_append]
    refine ⟨h, List.nodup_singleton _, ?_⟩
    rintro name hname _ hlast rfl
    have hid : name = runId := List.mem_singleton.mp hlast
    exact hnew (hid ▸ hname)

theorem perm_allClaims_append (runs : List RunDir) (runId : String) (event : HubTaskEvent)
    (h : (runs.map (·.name)).Nodup) :
    (allClaims (appendHubTaskEvent runs runId event)).Perm
      (allClaims runs ++ (ownershipOf event).toList) := by
  unfold appendHubTaskEvent
  have hevent : [event].filterMap ownershipOf = (ownershipOf event).toList := by
    cases hown : ownershipOf event with
    | none => simp [hown]
    | some claim => simp [hown]
  split
  · rename_i hmem
    -- The log of the run is the only one that grows.
    induction runs with
    | nil => cases hmem
    | cons runDir runs ih =>
      rw [List.map_cons, List.nodup_cons] at h
      rw [List.map_cons]
      by_cases hname : runDir.name = runId
      · have hrest : (runs.map fun runDir =>
            if runDir.name = runId then
              { runDir with taskEvents := runDir.taskEvents ++ [event] }
            else runDir) = runs := by
          conv_rhs => rw [← List.map_id runs]
          apply List.map_congr_left
          intro other hother
          apply if_neg
          intro hsame
          exact h.1 (hname ▸ hsame ▸ List.mem_map_of_mem hother)
        rw [hrest, if_pos hname]
        unfold allClaims
        rw [List.flatMap_cons, List.flatMap_cons, List.filterMap_append, hevent,
          List.append_assoc, List.append_assoc]
        exact List.perm_append_comm.append_left _
      · have hin : runId ∈ runs.map (·.name) := by
          rcases List.mem_cons.mp hmem with hhead | hin
          · exact absurd hhead.symm hname
          · exact hin
        rw [if_neg hname]
        have hrest := ih h.2 hin
        unfold allClaims at hrest ⊢
        rw [List.flatMap_cons, List.flatMap_cons, List.append_assoc]
        exact hrest.append_left _
  · unfold allClaims
    rw [List.flatMap_append, List.flatMap_singleton, hevent]

theorem names_run (h : (s.runs.map (·.name)).Nodup) :
    ((s.run steps).runs.map (·.name)).Nodup := by
  induction steps generalizing s with
  | nil => exact h
  | cons step steps ih =>
    show (((s.step step).run steps).runs.map (·.name)).Nodup
    apply ih
    cases step with
    | claim input => exact names_append _ _ _ h
    | createBranch branch => exact h
    | deleteBranch branch => exact h
    | event runId type => exact names_append _ _ _ h

theorem perm_allClaims_run (h : (s.runs.map (·.name)).Nodup) :
    (allClaims (s.run steps).runs).Perm (allClaims s.runs ++ s.claims steps) := by
  induction steps generalizing s with
  | nil =>
    show (allClaims s.runs).Perm (allClaims s.runs ++ [])
    rw [List.append_nil]
  | cons step steps ih =>
    show (allClaims ((s.step step).run steps).runs).Perm _
    cases step with
    | claim input =>
      have hnames := names_append s.runs input.runId (.taskClaimed (claimOf s input)) h
      refine (ih (s := s.step (.claim input)) hnames).trans ?_
      have hone := perm_allClaims_append s.runs input.runId (.taskClaimed (claimOf s input)) h
      refine (hone.append_right _).trans ?_
      rw [List.append_assoc]
      rfl
    | createBranch branch => exact ih (s := s.step (.createBranch branch)) h
    | deleteBranch branch => exact ih (s := s.step (.deleteBranch branch)) h
    | event runId type =>
      have hnames := names_append s.runs runId (.other type) h
      refine (ih (s := s.step (.event runId type)) hnames).trans ?_
      have hone := perm_allClaims_append s.runs runId (.other type) h
      refine (hone.append_right _).trans ?_
      rw [List.append_assoc]
      rfl

theorem perm_readClaims_run (h : (s.runs.map (·.name)).Nodup)
    (hnew : claimsOfBranch branch (allClaims s.runs) = []) :
    (claimsOfBranch branch (readClaims (s.run steps).runs)).Perm
      (claimsOfBranch branch (s.claims steps)) := by
  have hperm : (readClaims (s.run steps).runs).Perm (allClaims s.runs ++ s.claims steps) :=
    (perm_readClaims _).trans (perm_allClaims_run h)
  have hfilter := hperm.filter fun claim => claim.branch == branch
  rw [List.filter_append] at hfilter
  unfold claimsOfBranch at hnew ⊢
  rw [hnew] at hfilter
  exact hfilter

end Histories

/-! ### The first claim -/

/-- The branch has been there since a history made it: no step deletes it, and each claim finds
it. -/
def KeptSince (s : BranchHistory) (steps : List BranchStep) (branch : String) : Prop :=
  .deleteBranch branch ∉ steps ∧
  ∀ claim ∈ claimsOfBranch branch (s.claims steps), claim.branchExistedBeforeClaim = true

/-- What the cleanup sees of the repository after a history. -/
def viewAfter (view : BranchRepository) (s : BranchHistory) : BranchRepository :=
  { view with branches := s.branches }

/-- What the first claim of a branch means for its cleanup. A branch that was not there, and has
been there since, is deleted once nothing in the repository speaks against it. A branch that was
there is not. -/
structure StaysManaged (first : BranchHistory) (input : ClaimHubTaskInput)
    (retries : List BranchStep) (view : BranchRepository) : Prop where
  managed : (claimOf first input).branchExistedBeforeClaim = false →
    KeptSince (first.step (.claim input)) retries input.branch →
    Clean (viewAfter view (first.run (.claim input :: retries))) input.branch →
    input.branch ∈ safeBranches (first.run (.claim input :: retries)).runs
      (viewAfter view (first.run (.claim input :: retries)))
  kept : (claimOf first input).branchExistedBeforeClaim = true →
    input.branch ∉ safeBranches (first.run (.claim input :: retries)).runs
      (viewAfter view (first.run (.claim input :: retries)))

/-- The claim that decides finds what the first claim found. This is asked only where the
repository lets the branch go and, for a branch that the first claim did not find, where the
branch has been there since. -/
def DecidedByFirst (first : BranchHistory) (input : ClaimHubTaskInput)
    (retries : List BranchStep) (view : BranchRepository) : Prop :=
  Clean (viewAfter view (first.run (.claim input :: retries))) input.branch →
  ((claimOf first input).branchExistedBeforeClaim = false →
    KeptSince (first.step (.claim input)) retries input.branch) →
  ∃ claim, Decides (claimsOfBranch input.branch
      (readClaims (first.run (.claim input :: retries)).runs)) claim ∧
    claim.branchExistedBeforeClaim = (claimOf first input).branchExistedBeforeClaim

/-- After any history, the first claim of a branch and the claims after it leave the branch to the
Hub, or keep it from the cleanup, exactly when the claim that decides agrees with the first. -/
theorem branchStaysManaged_iff (head : Oid) (branches : List String) (before : List BranchStep)
    (input : ClaimHubTaskInput) (retries : List BranchStep) (view : BranchRepository)
    (hfirst : claimsOfBranch input.branch
      ((BranchHistory.start head branches).claims before) = []) :
    StaysManaged ((BranchHistory.start head branches).run before) input retries view ↔
      DecidedByFirst ((BranchHistory.start head branches).run before) input retries view := by
  have hnames : (((BranchHistory.start head branches).run before).runs.map (·.name)).Nodup :=
    names_run List.nodup_nil
  have hnew : claimsOfBranch input.branch
      (allClaims ((BranchHistory.start head branches).run before).runs) = [] := by
    have hperm : (allClaims ((BranchHistory.start head branches).run before).runs).Perm
        ([] ++ (BranchHistory.start head branches).claims before) :=
      perm_allClaims_run List.nodup_nil
    have hfilter := hperm.filter fun claim => claim.branch == input.branch
    exact List.Perm.eq_nil (hfilter.trans (List.Perm.of_eq hfirst))
  generalize (BranchHistory.start head branches).run before = first at hnames hnew
  -- The first claim is in the logs, so some claim decides.
  have hclaims : (claimsOfBranch input.branch
      (readClaims (first.run (.claim input :: retries)).runs)).Perm
      (claimsOfBranch input.branch (first.claims (.claim input :: retries))) :=
    perm_readClaims_run hnames hnew
  have hexists : ∃ claim, Decides (claimsOfBranch input.branch
      (readClaims (first.run (.claim input :: retries)).runs)) claim := by
    apply exists_decides
    intro hnil
    rw [hnil] at hclaims
    have hmem : claimOf first input ∈ claimsOfBranch input.branch
        (first.claims (.claim input :: retries)) :=
      List.mem_filter.mpr ⟨List.mem_cons_self, beq_self_eq_true _⟩
    rw [hclaims.symm.eq_nil] at hmem
    cases hmem
  have hbranch : ∀ {claim}, Decides (claimsOfBranch input.branch
      (readClaims (first.run (.claim input :: retries)).runs)) claim →
      claim.branch = input.branch := by
    intro claim hdecides
    have hmem := (List.mem_filter.mp hdecides.mem).2
    exact eq_of_beq hmem
  constructor
  · intro h hclean hkept
    obtain ⟨claim, hdecides⟩ := hexists
    cases hflag : (claimOf first input).branchExistedBeforeClaim with
    | false =>
      have hsafe := h.managed hflag (hkept hflag) hclean
      obtain ⟨⟨deciding, -, hdeciding, hnot⟩, -⟩ := mem_safeBranches_iff.mp hsafe
      exact ⟨deciding, hdeciding, hnot⟩
    | true =>
      refine ⟨claim, hdecides, ?_⟩
      by_contra hnot
      have hfalse : claim.branchExistedBeforeClaim = false := by simpa using hnot
      exact h.kept hflag
        (mem_safeBranches_iff.mpr ⟨⟨claim, hbranch hdecides, hdecides, hfalse⟩, hclean⟩)
  · intro h
    constructor
    · intro hflag hkept hclean
      obtain ⟨claim, hdecides, hsame⟩ := h hclean fun _ => hkept
      exact mem_safeBranches_iff.mpr
        ⟨⟨claim, hbranch hdecides, hdecides, hsame.trans hflag⟩, hclean⟩
    · intro hflag hsafe
      obtain ⟨⟨deciding, -, hdeciding, hnot⟩, hclean⟩ := mem_safeBranches_iff.mp hsafe
      have habsurd : (claimOf first input).branchExistedBeforeClaim = false →
          KeptSince (first.step (.claim input)) retries input.branch := by
        intro hother
        rw [hflag] at hother
        cases hother
      obtain ⟨claim, hdecides, hsame⟩ := h hclean habsurd
      have heq := hdecides.unique hdeciding
      rw [heq, hnot, hflag] at hsame
      cases hsame

/-! ### A task that is claimed twice -/

def claimAt (runId : String) (startedAt : Timestamp) : ClaimHubTaskInput where
  taskId := "bd-1"
  branch := "archloop/bd-1-task"
  runId := runId
  batchId := "batch-1"
  startedAt := startedAt

/-- A repository in which the branch is merged and is nowhere checked out. -/
def mergedView : BranchRepository where
  repoRoot := "/repo"
  branches := []
  mergedIntoTarget := ["archloop/bd-1-task"]
  worktreeEntries := []
  dirtyPaths := []
  leases := []

/-- A task that is claimed once, and whose branch is made and merged, leaves a branch that the
cleanup deletes. -/
theorem claimedOnce_staysManaged :
    StaysManaged ((BranchHistory.start "head" ["main"]).run []) (claimAt "run-1" 10)
      [.createBranch "archloop/bd-1-task"] mergedView := by
  apply (branchStaysManaged_iff "head" ["main"] [] (claimAt "run-1" 10)
    [.createBranch "archloop/bd-1-task"] mergedView rfl).mpr
  intro _ _
  refine ⟨claimOf (BranchHistory.start "head" ["main"]) (claimAt "run-1" 10), ?_, rfl⟩
  exact ⟨[], [], by decide +kernel, by simp, by simp⟩

/-- When the first run fails behind the implementation and the task is claimed again, the second
claim finds the branch, and the cleanup keeps it for good. -/
theorem claimedTwice_not_managed :
    ¬StaysManaged ((BranchHistory.start "head" ["main"]).run []) (claimAt "run-1" 10)
      [.createBranch "archloop/bd-1-task", .claim (claimAt "run-2" 20)] mergedView := by
  intro h
  have hkept : KeptSince
      (((BranchHistory.start "head" ["main"]).run []).step (.claim (claimAt "run-1" 10)))
      [.createBranch "archloop/bd-1-task", .claim (claimAt "run-2" 20)] "archloop/bd-1-task" := by
    constructor
    · decide +kernel
    · decide +kernel
  have hclean : Clean (viewAfter mergedView (((BranchHistory.start "head" ["main"]).run []).run
      (.claim (claimAt "run-1" 10) ::
        [.createBranch "archloop/bd-1-task", .claim (claimAt "run-2" 20)])))
      "archloop/bd-1-task" := by
    constructor
    · decide +kernel
    · decide +kernel
    · intro entry hentry
      cases hentry
    · intro lease hlease
      cases hlease
  have hsafe := h.managed (by decide +kernel) hkept hclean
  revert hsafe
  decide +kernel

end ArchLoop.ManagedBranch
