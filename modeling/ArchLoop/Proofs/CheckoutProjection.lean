import ArchLoop.Checkout
import ArchLoop.Lib.Alone
import ArchLoop.Lib.Pool
import ArchLoop.Sample
import Mathlib.Data.String.Basic

/-!
# `ArchLoop.Proofs.CheckoutProjection`: the host branch only moves forward

While users commit, any number of `projectHubCheckoutOutbox` calls may run, and each may crash
after any of its steps. `ProjectionStep` says what each of their steps may do: move the branch
of an item from an ancestor of its candidate to the candidate, touch no user worktree that has
something to lose, and mark an item as succeeded only when its branch contains its candidate.

`projection_step` proves it for the runs in which Git's answers can be read
(`HostRepository.Readable`). A worktree list or a status that is too long for the buffer of
the child process is not read at all, and the code takes a status that it could not read for
an empty one (`unreadStatus_isMoved`).

What the code finds out step by step stays true while others act, because users only commit:
`HostAdvances` is what the calls rely on, and each fact has a lemma that carries it along.
-/

set_option autoImplicit false

namespace ArchLoop

open ArchLoop.Lib

/-! ### Worktrees -/

namespace HostWorktree

/-- The status lists an entry: it has something else than blanks. -/
def listsEntry (w : HostWorktree) : Bool := w.status.toList.any fun c => !isBlank c

/-- An operation such as a merge or a rebase is in progress. -/
def hasOperation (w : HostWorktree) : Bool :=
  OPERATION_HEAD_REFS.any (w.pseudoRefs.contains ·) || OPERATION_GIT_PATHS.any (w.gitPaths.contains ·)

def Quiet (w : HostWorktree) : Prop := w.listsEntry = false ∧ w.hasOperation = false

def entry (w : HostWorktree) : GitWorktree := ⟨w.path, w.branch⟩

end HostWorktree

/-- The worktree is the user's, not one of the Hub. -/
def HostProject.isUser (project : HostProject) (w : HostWorktree) : Bool :=
  !isHubOwnedPath project.hubProjectDir w.path

/-- The user worktrees, as the worktree list shows them. -/
def HostRepository.userEntries (project : HostProject) (s : HostRepository) : List GitWorktree :=
  (s.worktrees.map HostWorktree.entry).filter fun entry =>
    !isHubOwnedPath project.hubProjectDir entry.path

/-- What `projectHubCheckoutOutbox` may do in one step.

- `moves`: a branch moves from an ancestor of an item's candidate to the candidate.
- `untouched`: a user worktree that has something to lose stays as it is, and so does its
  branch.
- `succeeded`: an item that is marked as succeeded has its candidate in its branch. -/
structure ProjectionStep (git : Git) (project : HostProject) (s t : HostRepository) : Prop where
  moves : ∀ ref, t.refs ref = s.refs ref ∨ ∃ item ∈ s.outbox, item.branchRef = ref ∧
    ∃ old, s.refs ref = some old ∧ git.isAncestor old item.candidateOid = true ∧
      t.refs ref = some item.candidateOid
  untouched : ∀ w ∈ s.worktrees, project.isUser w = true → ¬ w.Quiet → w ∈ t.worktrees ∧
    ∀ name, w.branch = some name → t.refs ("refs/heads/" ++ name) = s.refs ("refs/heads/" ++ name)
  succeeded : ∀ item ∈ t.outbox, item.status = .succeeded → item ∈ s.outbox ∨
    ∃ oid, t.refs item.branchRef = some oid ∧ git.isAncestor item.candidateOid oid = true

/-- The repository is one that Git and the code keep: it has a worktree, a path belongs to one
worktree, and an outbox file belongs to one item. -/
structure HostRepository.WellFormed (s : HostRepository) : Prop where
  worktrees : s.worktrees ≠ []
  paths : (s.worktrees.map (·.path)).Nodup
  ids : (s.outbox.map (·.id)).Nodup

/-- Path, branch and commit of the worktree are each one line without blanks at its ends. -/
def HostRepository.PlainWorktree (s : HostRepository) (w : HostWorktree) : Prop :=
  IsPlain w.path ∧ (∀ name, w.branch = some name → IsPlain name) ∧
    ∀ oid, s.headOid w = some oid → IsPlain oid

/-- The code can read what Git answers.

- `list`: the worktree list fits into the buffer.
- `plain`: the lines of the worktree list are what they say.
- `status`: the status of each user worktree fits into the buffer.
- `items`: each outbox item names its branch by the short name. -/
structure HostRepository.Readable (project : HostProject) (s : HostRepository) : Prop where
  list : s.worktreeList.utf8ByteSize ≤ MAX_BUFFER
  plain : ∀ w ∈ s.worktrees, s.PlainWorktree w
  status : ∀ w ∈ s.worktrees, project.isUser w = true → w.status.utf8ByteSize ≤ MAX_BUFFER
  items : ∀ item ∈ s.outbox, item.branchRef = "refs/heads/" ++ item.hostTargetBranch

/-! ### Reading the worktree list -/

section
variable {s : HostRepository} {w : HostWorktree}

theorem porcelainLines_line (h : s.PlainWorktree w) :
    ∀ line ∈ s.porcelainLines w, '\n' ∉ line.toList := by
  obtain ⟨hpath, hbranch, hoid⟩ := h
  have hhead : '\n' ∉ ((s.headOid w).getD "0000000000000000000000000000000000000000").toList := by
    cases hheadOid : s.headOid w with
    | none => decide
    | some oid => exact (hoid oid hheadOid).line
  unfold HostRepository.porcelainLines
  cases hw : w.head with
  | bare => simp [String.toList_append, hpath.line]
  | detached oid => simp [String.toList_append, hpath.line, hhead]
  | branch name =>
    have hname : IsPlain name := hbranch name (by rw [HostWorktree.branch, hw])
    simp [String.toList_append, hpath.line, hhead, hname.line]

theorem porcelainLines_head (s : HostRepository) (w : HostWorktree) :
    (s.porcelainLines w).head? = some ("worktree " ++ w.path) := by
  unfold HostRepository.porcelainLines
  cases w.head <;> rfl

theorem porcelainLines_last (h : s.PlainWorktree w) :
    ∃ init last, s.porcelainLines w = init ++ [last] ∧ last.toList ≠ [] ∧
      ∀ c ∈ last.toList.getLast?, isBlank c = false := by
  unfold HostRepository.porcelainLines
  cases hw : w.head with
  | bare => exact ⟨[_], "bare", rfl, by decide, all_not_isBlank.mp (by decide)⟩
  | detached oid => exact ⟨[_, _], "detached", rfl, by decide, all_not_isBlank.mp (by decide)⟩
  | branch name =>
    have hname : IsPlain name := h.2.1 name (by rw [HostWorktree.branch, hw])
    refine ⟨[_, _], "branch refs/heads/" ++ name, rfl, by simp [String.toList_append], ?_⟩
    rw [String.toList_append, List.getLast?_append_of_ne_nil _ hname.toList_ne]
    exact hname.last

theorem foldl_porcelainLines (h : s.PlainWorktree w) (p : WorktreeListParse) :
    (s.porcelainLines w).foldl WorktreeListParse.line p =
      { p.flush with currentPath := some w.path, currentBranch := w.branch } := by
  have hpath : ∀ q : WorktreeListParse, q.line ("worktree " ++ w.path) =
      { q.flush with currentPath := some w.path } := by
    intro q
    simp only [WorktreeListParse.line, sliceAfter_append, trim_of_isPlain h.1]
  have hskip : ∀ (q : WorktreeListParse) (rest : String), q.line ("HEAD " ++ rest) = q := by
    intro q rest
    have h₁ : sliceAfter "worktree " ("HEAD " ++ rest) = none := by
      simp [sliceAfter, String.toList_append]
    have h₂ : sliceAfter "branch refs/heads/" ("HEAD " ++ rest) = none := by
      simp [sliceAfter, String.toList_append]
    rw [WorktreeListParse.line, h₁, h₂]
  unfold HostRepository.porcelainLines HostWorktree.branch
  cases hw : w.head with
  | bare =>
    simp only [List.foldl_cons, List.foldl_nil, hpath]
    rfl
  | detached oid =>
    simp only [List.foldl_cons, List.foldl_nil, hpath, hskip]
    rfl
  | branch name =>
    have hname : IsPlain name := h.2.1 name (by rw [HostWorktree.branch, hw])
    have hbranch : ∀ q : WorktreeListParse, q.line ("branch refs/heads/" ++ name) =
        { q with currentBranch := some name } := by
      intro q
      have h₁ : sliceAfter "worktree " ("branch refs/heads/" ++ name) = none := by
        simp [sliceAfter, String.toList_append]
      simp only [WorktreeListParse.line, h₁, sliceAfter_append, trim_of_isPlain hname]
    simp only [List.foldl_cons, List.foldl_nil, hpath, hskip, hbranch]

theorem foldl_worktreeList (worktrees : List HostWorktree)
    (h : ∀ w ∈ worktrees, s.PlainWorktree w) (p : WorktreeListParse) :
    ((worktrees.flatMap fun w => s.porcelainLines w ++ [""]).foldl
      WorktreeListParse.line p).flush.entries =
        p.flush.entries ++ worktrees.map HostWorktree.entry := by
  induction worktrees generalizing p with
  | nil => simp
  | cons w worktrees ih =>
    have hw := h w List.mem_cons_self
    have hblank : ∀ q : WorktreeListParse, q.line "" = q := fun _ => rfl
    rw [List.flatMap_cons, List.foldl_append, List.foldl_append, foldl_porcelainLines hw,
      List.foldl_cons, List.foldl_nil, hblank,
      ih fun v hv => h v (List.mem_cons_of_mem _ hv)]
    simp [WorktreeListParse.flush, hw.1.ne, HostWorktree.entry]

theorem parseWorktreeList_trim (hne : s.worktrees ≠ [])
    (h : ∀ w ∈ s.worktrees, s.PlainWorktree w) :
    trim s.worktreeList ≠ "" ∧
      parseWorktreeList (trim s.worktreeList) = s.worktrees.map HostWorktree.entry := by
  obtain ⟨first, others, hfirst⟩ := List.exists_cons_of_ne_nil hne
  obtain ⟨front, last, hlast⟩ : ∃ front last, s.worktrees = front ++ [last] :=
    ⟨_, _, (List.dropLast_append_getLast hne).symm⟩
  obtain ⟨init, line, hline, hlinene, hend⟩ :=
    porcelainLines_last (h last (by rw [hlast]; simp))
  -- The lines without the empty one at the end, which `trim` takes off.
  let lines := (front.flatMap fun w => s.porcelainLines w ++ [""]) ++ s.porcelainLines last
  have hall : s.worktrees.flatMap (fun w => s.porcelainLines w ++ [""]) = lines ++ [""] := by
    rw [hlast, List.flatMap_append, List.flatMap_singleton, ← List.append_assoc]
  have hhead : lines.head? = some ("worktree " ++ first.path) := by
    have hheads := congrArg List.head? hall
    rw [hfirst, List.flatMap_cons, List.append_assoc, List.head?_append, porcelainLines_head,
      List.head?_append (l := lines)] at hheads
    cases hl : lines.head? with
    | some l =>
      rw [hl] at hheads
      exact hheads.symm
    | none =>
      rw [hl] at hheads
      exact absurd (congrArg (Option.map String.toList) hheads) (by simp [String.toList_append])
  have hsplit : splitLines (trim s.worktreeList) = lines := by
    rw [HostRepository.worktreeList, hall]
    have hlines : ∀ l ∈ lines, '\n' ∉ l.toList := by
      intro l hl
      have hmem : l ∈ s.worktrees.flatMap fun w => s.porcelainLines w ++ [""] := by
        rw [hall]
        exact List.mem_append_left _ hl
      obtain ⟨w, hw, hl⟩ := List.mem_flatMap.mp hmem
      rcases List.mem_append.mp hl with hl | hl
      · exact porcelainLines_line (h w hw) l hl
      · rw [List.mem_singleton.mp hl]
        decide
    have hfirst : ∀ c ∈ ("worktree " ++ first.path).toList.head?, isBlank c = false := by
      intro c hc
      rw [String.toList_append, show "worktree ".toList = 'w' :: "orktree ".toList from rfl,
        List.cons_append, List.head?_cons] at hc
      rw [← Option.mem_some.mp hc]
      decide
    have hfirstne : ("worktree " ++ first.path).toList ≠ [] := by
      simp [String.toList_append]
    have hsplitLast : lines = ((front.flatMap fun w => s.porcelainLines w ++ [""]) ++ init) ++
        [line] := by
      rw [List.append_assoc, ← hline]
    exact splitLines_trim_unlines hlines hhead hfirst hfirstne hsplitLast hend hlinene
  refine ⟨?_, ?_⟩
  · intro hempty
    rw [hempty, show splitLines "" = [""] from rfl] at hsplit
    rw [← hsplit, List.head?_cons, Option.some.injEq] at hhead
    exact absurd (congrArg String.toList hhead) (by simp [String.toList_append])
  · rw [parseWorktreeList, hsplit]
    have hfold := foldl_worktreeList s.worktrees h {}
    rw [hall, List.foldl_append] at hfold
    exact hfold

end

/-! ### What others do -/

/-- Others keep the worktree: they leave a clean status clean and begin no operation in it. -/
structure WorktreeKept (w w' : HostWorktree) : Prop where
  clean : w.listsEntry = false → w'.listsEntry = false
  pseudoRefs : ∀ ref ∈ w'.pseudoRefs, ref ∈ w.pseudoRefs
  gitPaths : ∀ path ∈ w'.gitPaths, path ∈ w.gitPaths

structure SameTarget (a b : HubCheckoutOutboxFile) : Prop where
  id : b.id = a.id
  branchRef : b.branchRef = a.branchRef
  hostTargetBranch : b.hostTargetBranch = a.hostTargetBranch
  candidateOid : b.candidateOid = a.candidateOid

/-- What users who commit do to the repository, and the projection itself.

- `refs`: a branch moves to descendants only.
- `entries`: each worktree stays where it is, on its branch.
- `kept`: nothing turns up in a user worktree that could be lost.
- `outbox`: each item of the outbox stays there. -/
structure HostAdvances (git : Git) (project : HostProject) (s t : HostRepository) : Prop where
  refs : ∀ ref oid, s.refs ref = some oid →
    ∃ oid', t.refs ref = some oid' ∧ git.isAncestor oid oid' = true
  entries : t.worktrees.map HostWorktree.entry = s.worktrees.map HostWorktree.entry
  kept : ∀ cwd w', t.worktreeAt cwd = some w' →
    ∃ w, s.worktreeAt cwd = some w ∧ (project.isUser w = true → WorktreeKept w w')
  outbox : ∀ item ∈ s.outbox, ∃ item' ∈ t.outbox, SameTarget item item'

/-- The moves of users: they commit, and leave the outbox alone. -/
def UserCommits (git : Git) (project : HostProject) (s t : HostRepository) : Prop :=
  HostAdvances git project s t ∧ t.outbox = s.outbox

theorem WorktreeKept.refl (w : HostWorktree) : WorktreeKept w w :=
  ⟨fun h => h, fun _ h => h, fun _ h => h⟩

theorem WorktreeKept.trans {u v w : HostWorktree} (h₁ : WorktreeKept u v)
    (h₂ : WorktreeKept v w) : WorktreeKept u w :=
  ⟨fun h => h₂.clean (h₁.clean h), fun r hr => h₁.pseudoRefs r (h₂.pseudoRefs r hr),
    fun p hp => h₁.gitPaths p (h₂.gitPaths p hp)⟩

theorem SameTarget.refl (item : HubCheckoutOutboxFile) : SameTarget item item :=
  ⟨rfl, rfl, rfl, rfl⟩

theorem SameTarget.trans {a b c : HubCheckoutOutboxFile} (h₁ : SameTarget a b)
    (h₂ : SameTarget b c) : SameTarget a c :=
  ⟨h₂.id.trans h₁.id, h₂.branchRef.trans h₁.branchRef,
    h₂.hostTargetBranch.trans h₁.hostTargetBranch, h₂.candidateOid.trans h₁.candidateOid⟩

theorem path_of_worktreeAt {s : HostRepository} {cwd : String} {w : HostWorktree}
    (h : s.worktreeAt cwd = some w) : w ∈ s.worktrees ∧ w.path = cwd :=
  ⟨List.mem_of_find?_eq_some h, by simpa using List.find?_some h⟩

theorem HostRepository.WellFormed.worktreeAt {s : HostRepository} (h : s.WellFormed)
    {w : HostWorktree} (hw : w ∈ s.worktrees) : s.worktreeAt w.path = some w := by
  have hpaths := h.paths
  unfold HostRepository.worktreeAt
  generalize s.worktrees = worktrees at hw hpaths
  induction worktrees with
  | nil => cases hw
  | cons v worktrees ih =>
    obtain ⟨hv, hrest⟩ := List.nodup_cons.mp hpaths
    rcases List.mem_cons.mp hw with rfl | hw
    · rw [List.find?_cons_of_pos (by simp)]
    · rw [List.find?_cons_of_neg]
      · exact ih hw hrest
      · intro heq
        have hpath : v.path = w.path := by simpa using heq
        exact hv (List.mem_map.mpr ⟨w, hw, hpath.symm⟩)

namespace HostAdvances

variable {git : Git} {project : HostProject} {s t u : HostRepository}

theorem refl (git : Git) (project : HostProject) (s : HostRepository) :
    HostAdvances git project s s where
  refs := fun _ oid h => ⟨oid, h, git.isAncestor_refl oid⟩
  entries := rfl
  kept := fun _ w h => ⟨w, h, fun _ => .refl w⟩
  outbox := fun item h => ⟨item, h, .refl item⟩

theorem trans (h₁ : HostAdvances git project s t) (h₂ : HostAdvances git project t u) :
    HostAdvances git project s u where
  refs := by
    intro ref oid href
    obtain ⟨oid', href', hle⟩ := h₁.refs ref oid href
    obtain ⟨oid'', href'', hle'⟩ := h₂.refs ref oid' href'
    exact ⟨oid'', href'', git.isAncestor_trans _ _ _ hle hle'⟩
  entries := h₂.entries.trans h₁.entries
  kept := by
    intro cwd w'' hw''
    obtain ⟨w', hw', hkept'⟩ := h₂.kept cwd w'' hw''
    obtain ⟨w, hw, hkept⟩ := h₁.kept cwd w' hw'
    refine ⟨w, hw, fun huser => (hkept huser).trans (hkept' ?_)⟩
    -- Both have the path `cwd`.
    rw [HostProject.isUser, (path_of_worktreeAt hw').2]
    rwa [HostProject.isUser, (path_of_worktreeAt hw).2] at huser
  outbox := by
    intro item hitem
    obtain ⟨item', hitem', hsame⟩ := h₁.outbox item hitem
    obtain ⟨item'', hitem'', hsame'⟩ := h₂.outbox item' hitem'
    exact ⟨item'', hitem'', hsame.trans hsame'⟩

theorem userEntries (h : HostAdvances git project s t) :
    t.userEntries project = s.userEntries project := by
  rw [HostRepository.userEntries, HostRepository.userEntries, h.entries]

theorem paths (h : HostAdvances git project s t) :
    t.worktrees.map (·.path) = s.worktrees.map (·.path) := by
  have hpaths := congrArg (List.map GitWorktree.path) h.entries
  rw [List.map_map, List.map_map] at hpaths
  exact hpaths

theorem wellFormed (h : HostAdvances git project s t) (hs : s.WellFormed)
    (hids : (t.outbox.map (·.id)).Nodup) : t.WellFormed where
  worktrees := by
    have hlength := congrArg List.length h.paths
    rw [List.length_map, List.length_map] at hlength
    have := List.length_pos_iff.mpr hs.worktrees
    exact List.length_pos_iff.mp (by omega)
  paths := h.paths ▸ hs.paths
  ids := hids

theorem keepsAt (h : HostAdvances git project s t) {cwd : String} {P : HostWorktree → Prop}
    (hP : ∀ w w', WorktreeKept w w' → P w → P w')
    (hs : ∀ w, s.worktreeAt cwd = some w → project.isUser w = true → P w) :
    ∀ w, t.worktreeAt cwd = some w → project.isUser w = true → P w := by
  intro w' hw' huser'
  obtain ⟨w, hw, hkept⟩ := h.kept cwd w' hw'
  have huser : project.isUser w = true := by
    rw [HostProject.isUser, (path_of_worktreeAt hw).2]
    rwa [HostProject.isUser, (path_of_worktreeAt hw').2] at huser'
  exact hP w w' (hkept huser) (hs w hw huser)

end HostAdvances

theorem WorktreeKept.hasOperation {w w' : HostWorktree} (h : WorktreeKept w w')
    (hw : w.hasOperation = false) : w'.hasOperation = false := by
  simp only [HostWorktree.hasOperation, Bool.or_eq_false_iff, List.any_eq_false,
    List.contains_iff_mem] at hw ⊢
  exact ⟨fun ref href hmem => hw.1 ref href (h.pseudoRefs ref hmem),
    fun path hpath hmem => hw.2 path hpath (h.gitPaths path hmem)⟩

theorem WorktreeKept.quiet {w w' : HostWorktree} (h : WorktreeKept w w') (hw : w.Quiet) :
    w'.Quiet :=
  ⟨h.clean hw.1, h.hasOperation hw.2⟩

theorem clean_of_classifyPorcelain {w : HostWorktree}
    (hfits : w.status.utf8ByteSize ≤ MAX_BUFFER)
    (h : classifyPorcelain ((tryGitTextSync (some w.status)).getD "") = none) :
    w.listsEntry = false := by
  by_contra hlists
  obtain ⟨c, hmem, hc⟩ : ∃ c ∈ w.status.toList, isBlank c = false := by
    simpa [HostWorktree.listsEntry] using hlists
  obtain ⟨line, hline, hne⟩ := exists_mem_splitLines_trim hmem hc
  have hread : (tryGitTextSync (some w.status)).getD "" = trim w.status := by
    simp [tryGitTextSync, hfits]
  rw [hread, classifyPorcelain] at h
  have hsome : ((splitLines (trim w.status)).filter fun line => line ≠ "").isEmpty = false := by
    rw [List.isEmpty_eq_false_iff_exists_mem]
    exact ⟨line, List.mem_filter.mpr ⟨hline, by simpa using hne⟩⟩
  simp only [hsome, Bool.false_eq_true, if_false] at h
  split at h
  · cases h
  · split at h
    · cases h
    · split at h <;> cases h

/-! ### The steps of a projection -/

/-- The rules of a `projectHubCheckoutOutbox` call, when Git's answers can be read. -/
def checkoutRules (git : Git) (project : HostProject) : Rules HostRepository where
  inv := HostRepository.WellFormed
  rely := HostAdvances git project
  allowed := fun _ t _ => t.Readable project
  guar := fun _ t t' => ProjectionStep git project t t' ∧ HostAdvances git project t t'

def HostRepository.Holds (s : HostRepository) (item : HubCheckoutOutboxFile) : Prop :=
  ∃ item' ∈ s.outbox, SameTarget item item'

def HostRepository.Contains (git : Git) (s : HostRepository) (item : HubCheckoutOutboxFile) :
    Prop :=
  ∃ oid, s.refs item.branchRef = some oid ∧ git.isAncestor item.candidateOid oid = true

section
variable {git : Git} {project : HostProject} {s t : HostRepository} {cwd : String}

theorem HostAdvances.holds (h : HostAdvances git project s t) {item : HubCheckoutOutboxFile}
    (hs : s.Holds item) : t.Holds item := by
  obtain ⟨item', hitem', hsame⟩ := hs
  obtain ⟨item'', hitem'', hsame'⟩ := h.outbox item' hitem'
  exact ⟨item'', hitem'', hsame.trans hsame'⟩

theorem HostAdvances.contains (h : HostAdvances git project s t) {item : HubCheckoutOutboxFile}
    (hs : s.Contains git item) : t.Contains git item := by
  obtain ⟨oid, href, hle⟩ := hs
  obtain ⟨oid', href', hle'⟩ := h.refs _ oid href
  exact ⟨oid', href', git.isAncestor_trans _ _ _ hle hle'⟩

theorem ProjectionStep.refl (git : Git) (project : HostProject) (s : HostRepository) :
    ProjectionStep git project s s :=
  ⟨fun _ => Or.inl rfl, fun _ hw _ _ => ⟨hw, fun _ _ => rfl⟩, fun _ h _ => Or.inl h⟩

theorem sat_checkoutRead {α β : Type} {Q : β → HostRepository → Prop}
    {E : String → HostRepository → Prop} {f : HostRepository → α} {g : α → HostProg β}
    (h : ∀ t, HostAdvances git project s t → t.WellFormed → t.Readable project →
      Prog.Sat (checkoutRules git project) Q E (g (f t)) t) :
    Prog.Sat (checkoutRules git project) Q E ((Prog.reads f).bind g) s := by
  intro t hadvances hwell hreadable
  exact ⟨⟨.refl git project t, .refl git project t⟩, hwell, h t hadvances hwell hreadable⟩

theorem sat_askSome {question : HostWorktree → String → Bool}
    (hkept : ∀ w w' name, WorktreeKept w w' → question w name = false →
      question w' name = false) (names : List String) :
    Prog.Sat (checkoutRules git project)
      (fun found t => HostAdvances git project s t ∧ (found = false → ∀ name ∈ names, ∀ w,
        t.worktreeAt cwd = some w → project.isUser w = true → question w name = false))
      (fun _ _ => False) (askSome cwd question names) s := by
  induction names generalizing s with
  | nil => exact ⟨.refl git project s, fun _ _ h => nomatch h⟩
  | cons name names ih =>
    refine sat_checkoutRead fun t ht _ _ => ?_
    cases hyes : (t.worktreeAt cwd).any (question · name) with
    | true => exact ⟨ht, fun h => nomatch h⟩
    | false =>
      refine Prog.sat_mono ih ?_ fun _ _ h => h
      rintro found u ⟨hu, hfound⟩
      refine ⟨ht.trans hu, fun hnot => List.forall_mem_cons.mpr ⟨?_, hfound hnot⟩⟩
      refine hu.keepsAt (fun w w' h => hkept w w' name h) fun w hw _ => ?_
      rw [hw] at hyes
      exact hyes

theorem sat_hasOperationInProgress :
    Prog.Sat (checkoutRules git project)
      (fun found t => HostAdvances git project s t ∧ (found = false → ∀ w,
        t.worktreeAt cwd = some w → project.isUser w = true → w.hasOperation = false))
      (fun _ _ => False) (hasOperationInProgress cwd) s := by
  have hrefsKept : ∀ w w' ref, WorktreeKept w w' → w.pseudoRefs.contains ref = false →
      w'.pseudoRefs.contains ref = false := by
    intro w w' ref h hw
    rw [← Bool.not_eq_true, List.contains_iff_mem] at hw ⊢
    exact fun hmem => hw (h.pseudoRefs ref hmem)
  have hpathsKept : ∀ w w' path, WorktreeKept w w' → w.gitPaths.contains path = false →
      w'.gitPaths.contains path = false := by
    intro w w' path h hw
    rw [← Bool.not_eq_true, List.contains_iff_mem] at hw ⊢
    exact fun hmem => hw (h.gitPaths path hmem)
  refine Prog.sat_bind (sat_askSome hrefsKept _) ?_
  rintro found t ⟨ht, hrefs⟩
  cases found with
  | true => exact ⟨ht, fun h => nomatch h⟩
  | false =>
    refine Prog.sat_mono (sat_askSome hpathsKept _) ?_ fun _ _ h => h
    rintro found u ⟨hu, hpaths⟩
    refine ⟨ht.trans hu, fun hnot w hw huser => ?_⟩
    -- The first answers are still right when the last one is given.
    have hrefs' : ∀ ref ∈ OPERATION_HEAD_REFS, w.pseudoRefs.contains ref = false := by
      intro ref href
      exact hu.keepsAt (fun w w' h => hrefsKept w w' ref h) (hrefs rfl ref href) w hw huser
    have hpaths' : ∀ path ∈ OPERATION_GIT_PATHS, w.gitPaths.contains path = false :=
      fun path hpath => hpaths hnot path hpath w hw huser
    rw [HostWorktree.hasOperation, Bool.or_eq_false_iff, List.any_eq_false, List.any_eq_false]
    exact ⟨fun ref href => by simp only [hrefs' ref href, Bool.false_eq_true, not_false_eq_true],
      fun path hpath => by simp only [hpaths' path hpath, Bool.false_eq_true, not_false_eq_true]⟩

theorem sat_inspectOwningWorktreeSafety (host : HostGit) (candidateOid : Oid) :
    Prog.Sat (checkoutRules git project)
      (fun found t => HostAdvances git project s t ∧ (found = none → ∀ w,
        t.worktreeAt cwd = some w → project.isUser w = true → w.Quiet))
      (fun _ _ => False) (inspectOwningWorktreeSafety host cwd candidateOid) s := by
  refine Prog.sat_bind sat_hasOperationInProgress ?_
  rintro operation t ⟨ht, hoperation⟩
  cases operation with
  | true => exact ⟨ht, fun h => nomatch h⟩
  | false =>
  refine sat_checkoutRead (s := t) fun t₁ ht₁ _ _ => ?_
  cases (t₁.worktreeAt cwd).any (·.sparse) with
  | true => exact ⟨ht.trans ht₁, fun h => nomatch h⟩
  | false =>
  have hgitlink : Prog.Sat (checkoutRules git project) (fun _ u => HostAdvances git project t₁ u)
      (fun _ _ => False) (treeHasGitlink host cwd candidateOid) t₁ := by
    refine sat_checkoutRead fun u hu _ _ => ?_
    split
    · exact hu
    · exact sat_checkoutRead fun v hv _ _ => hu.trans hv
  refine Prog.sat_bind hgitlink fun gitlink t₂ ht₂ => ?_
  have hreached : HostAdvances git project t t₂ := ht₁.trans ht₂
  cases gitlink with
  | true => exact ⟨ht.trans hreached, fun h => nomatch h⟩
  | false =>
  refine sat_checkoutRead fun u hu _ hreadable => ?_
  refine ⟨ht.trans (hreached.trans hu), fun hnone w hw huser => ⟨?_, ?_⟩⟩
  · rw [hw] at hnone
    exact clean_of_classifyPorcelain
      (hreadable.status w (path_of_worktreeAt hw).1 huser) hnone
  · exact (hreached.trans hu).keepsAt (fun w w' h => h.hasOperation) (hoperation rfl) w hw huser

theorem sat_listUserWorktrees :
    Prog.Sat (checkoutRules git project)
      (fun entries t => HostAdvances git project s t ∧ entries = t.userEntries project)
      (fun _ _ => False) (listUserWorktrees project) s := by
  refine sat_checkoutRead fun t ht hwell hreadable => ?_
  obtain ⟨hne, hparse⟩ := parseWorktreeList_trim hwell.worktrees hreadable.plain
  have hread : tryGitTextSync (some t.worktreeList) = some (trim t.worktreeList) := by
    simp [tryGitTextSync, hreadable.list]
  rw [hread]
  dsimp only
  rw [if_neg hne, hparse]
  exact ⟨ht, rfl⟩

def HostRepository.rewrite (s : HostRepository) (next : HubCheckoutOutboxFile) : HostRepository :=
  { s with outbox := s.outbox.map fun other => if other.id = next.id then next else other }

theorem rewrite_ids (s : HostRepository) (next : HubCheckoutOutboxFile) :
    (s.rewrite next).outbox.map (·.id) = s.outbox.map (·.id) := by
  show (s.outbox.map fun other => if other.id = next.id then next else other).map (·.id) = _
  rw [List.map_map]
  refine List.map_congr_left fun other _ => ?_
  show (if other.id = next.id then next else other).id = other.id
  split
  · rename_i hid
    rw [hid]
  · rfl

theorem rewrite_advances (hwell : s.WellFormed) {item next : HubCheckoutOutboxFile}
    (hheld : s.Holds item) (hsame : SameTarget item next) :
    HostAdvances git project s (s.rewrite next) := by
  refine { HostAdvances.refl git project s with outbox := fun other hother => ?_ }
  refine ⟨_, List.mem_map_of_mem hother, ?_⟩
  split
  · rename_i hid
    -- The file with this id is the one of the item.
    obtain ⟨item', hitem', hsame'⟩ := hheld
    have hother' : other = item' := by
      refine List.inj_on_of_nodup_map hwell.ids hother hitem' ?_
      rw [hid, hsame.id, hsame'.id]
    rw [hother']
    exact ⟨hsame.id.trans hsame'.id.symm, hsame.branchRef.trans hsame'.branchRef.symm,
      hsame.hostTargetBranch.trans hsame'.hostTargetBranch.symm,
      hsame.candidateOid.trans hsame'.candidateOid.symm⟩
  · exact .refl other

theorem sat_writeCheckoutItem {item next : HubCheckoutOutboxFile} (hheld : s.Holds item)
    (hsame : SameTarget item next)
    (hok : next.status = .succeeded → s.Contains git item) :
    Prog.Sat (checkoutRules git project) (fun _ t => HostAdvances git project s t)
      (fun _ _ => False) (writeCheckoutItem next) s := by
  intro t ht hwell _
  have hheldt : t.Holds item := ht.holds hheld
  have hwrite : { t with
      outbox :=
        if t.outbox.any fun other => other.id == next.id then
          t.outbox.map fun other => if other.id = next.id then next else other
        else t.outbox ++ [next] } = t.rewrite next := by
    obtain ⟨item', hitem', hsame'⟩ := hheldt
    have hany : (t.outbox.any fun other => other.id == next.id) = true := by
      rw [List.any_eq_true]
      exact ⟨item', hitem', by rw [hsame'.id, hsame.id, beq_self_eq_true]⟩
    rw [hany]
    rfl
  have hadvances : HostAdvances git project t (t.rewrite next) :=
    rewrite_advances hwell hheldt hsame
  have hstep : ProjectionStep git project t (t.rewrite next) := by
    refine { ProjectionStep.refl git project t with succeeded := fun x hx hsucceeded => ?_ }
    obtain ⟨other, hother, rfl⟩ := List.mem_map.mp hx
    split at hsucceeded
    · rename_i hid
      obtain ⟨oid, href, hle⟩ := ht.contains (hok hsucceeded)
      rw [if_pos hid]
      refine Or.inr ⟨oid, ?_, ?_⟩
      · rw [hsame.branchRef]
        exact href
      · rw [hsame.candidateOid]
        exact hle
    · rename_i hid
      rw [if_neg hid]
      exact Or.inl hother
  have hids : ((t.rewrite next).outbox.map (·.id)).Nodup := by
    rw [rewrite_ids]
    exact hwell.ids
  dsimp only
  rw [hwrite]
  exact ⟨⟨hstep, hadvances⟩, hadvances.wellFormed hwell hids, ht.trans hadvances⟩

theorem sat_mutateHost {command : HostRepository → Option HostRepository}
    {R : HostRepository → Prop}
    (hcommand : ∀ t t', HostAdvances git project s t → t.WellFormed → t.Readable project →
      command t = some t' → ProjectionStep git project t t' ∧ HostAdvances git project t t' ∧
        t'.outbox = t.outbox ∧ R t') :
    Prog.Sat (checkoutRules git project)
      (fun moved t => HostAdvances git project s t ∧ ((∃ x, moved = .ok x) → R t))
      (fun _ _ => False) (Prog.attempt (mutateHost command)) s := by
  intro t ht hwell hreadable
  have hwell' : t.WellFormed := hwell
  dsimp only
  cases hrun : command t with
  | none =>
    refine ⟨⟨.refl git project t, .refl git project t⟩, hwell', ?_⟩
    exact ⟨ht, fun ⟨_, h⟩ => nomatch h⟩
  | some t' =>
    obtain ⟨hstep, hadvances, houtbox, hR⟩ := hcommand t t' ht hwell hreadable hrun
    have hids : (t'.outbox.map (·.id)).Nodup := by
      rw [houtbox]
      exact hwell'.ids
    exact ⟨⟨hstep, hadvances⟩, hadvances.wellFormed hwell' hids, ht.trans hadvances, fun _ => hR⟩

theorem branchRef_inj {a b : String} (h : "refs/heads/" ++ a = "refs/heads/" ++ b) : a = b := by
  have hchars := congrArg String.toList h
  rw [String.toList_append, String.toList_append] at hchars
  exact String.toList_injective (List.append_cancel_left hchars)

/-- The worktree with the status that it has when its branch was moved from elsewhere. -/
def HostWorktree.leftBehind (host : HostGit) (ref : String) (oid : Oid) (cwd : Option String)
    (w : HostWorktree) : HostWorktree :=
  if w.branch.map ("refs/heads/" ++ ·) = some ref ∧ some w.path ≠ cwd then
    { w with status := host.statusBehind w oid }
  else w

theorem entry_leftBehind (host : HostGit) (ref : String) (oid : Oid) (cwd : Option String)
    (w : HostWorktree) : (w.leftBehind host ref oid cwd).entry = w.entry := by
  unfold HostWorktree.leftBehind
  split <;> rfl

/-- Moving the branch of an item to its candidate is a step of the projection, when at most the
quiet worktree that follows has the branch checked out. -/
theorem moveBranch_step (host : HostGit) {item : HubCheckoutOutboxFile} {old : Oid}
    (cwd : Option String) (hheld : s.Holds item)
    (hitem : item.branchRef = "refs/heads/" ++ item.hostTargetBranch)
    (hold : s.refs item.branchRef = some old)
    (hforward : git.isAncestor old item.candidateOid = true)
    (howners : ∀ w ∈ s.worktrees, project.isUser w = true →
      w.branch = some item.hostTargetBranch → some w.path = cwd ∧ w.Quiet) :
    ProjectionStep git project s (s.moveBranch host item.branchRef item.candidateOid cwd) ∧
      HostAdvances git project s (s.moveBranch host item.branchRef item.candidateOid cwd) := by
  have hmoved : ∀ ref, (s.moveBranch host item.branchRef item.candidateOid cwd).refs ref =
      if ref = item.branchRef then some item.candidateOid else s.refs ref :=
    fun ref => Function.update_apply _ _ _ _
  have hbranch : ∀ {w : HostWorktree} {name : String}, w.branch = some name →
      (w.branch.map ("refs/heads/" ++ ·) = some item.branchRef ↔
        name = item.hostTargetBranch) := by
    intro w name hname
    rw [hname, hitem, Option.map_some, Option.some.injEq]
    exact ⟨branchRef_inj, fun h => by rw [h]⟩
  -- The others that have the branch checked out are not the user's.
  have hsame : ∀ w ∈ s.worktrees, project.isUser w = true →
      w.leftBehind host item.branchRef item.candidateOid cwd = w := by
    intro w hw huser
    unfold HostWorktree.leftBehind
    refine if_neg ?_
    rintro ⟨href, hcwd⟩
    obtain ⟨name, hname, -⟩ := Option.map_eq_some_iff.mp href
    rw [hbranch hname] at href
    rw [href] at hname
    exact hcwd (howners w hw huser hname).1
  constructor
  · refine ⟨fun ref => ?_, fun w hw huser hnot => ⟨?_, fun name hname => ?_⟩, fun x hx _ => .inl hx⟩
    · rw [hmoved]
      split
      · rename_i href
        obtain ⟨item', hitem', hsame'⟩ := hheld
        refine Or.inr ⟨item', hitem', hsame'.branchRef.trans href.symm, old, ?_, ?_, ?_⟩
        · rw [href, hold]
        · rw [hsame'.candidateOid, hforward]
        · rw [hsame'.candidateOid]
      · exact Or.inl rfl
    · rw [← hsame w hw huser]
      exact List.mem_map_of_mem hw
    · rw [hmoved, if_neg]
      intro href
      rw [hitem] at href
      rw [branchRef_inj href] at hname
      exact hnot (howners w hw huser hname).2
  · refine ⟨fun ref oid href => ?_, ?_, fun dir w' hw' => ?_, fun x hx => ⟨x, hx, .refl x⟩⟩
    · rw [hmoved]
      split
      · rename_i hsameRef
        rw [hsameRef, hold] at href
        exact ⟨item.candidateOid, rfl, by rw [← Option.some.inj href, hforward]⟩
      · exact ⟨oid, href, git.isAncestor_refl oid⟩
    · show (s.worktrees.map (HostWorktree.leftBehind host item.branchRef item.candidateOid cwd)).map
        HostWorktree.entry = s.worktrees.map HostWorktree.entry
      rw [List.map_map]
      exact List.map_congr_left fun w _ => entry_leftBehind _ _ _ _ w
    · have hfind : (s.moveBranch host item.branchRef item.candidateOid cwd).worktreeAt dir =
          (s.worktreeAt dir).map
            (HostWorktree.leftBehind host item.branchRef item.candidateOid cwd) := by
        have hpath : ∀ w : HostWorktree,
            (w.leftBehind host item.branchRef item.candidateOid cwd).path = w.path :=
          fun w => congrArg GitWorktree.path (entry_leftBehind host _ _ _ w)
        show (s.worktrees.map _).find? _ = _
        rw [List.find?_map]
        refine congrArg (fun p => (List.find? p s.worktrees).map _) (funext fun w => ?_)
        show ((w.leftBehind host item.branchRef item.candidateOid cwd).path == dir) = _
        rw [hpath]
      rw [hfind] at hw'
      obtain ⟨w, hw, rfl⟩ := Option.map_eq_some_iff.mp hw'
      refine ⟨w, hw, fun huser => ?_⟩
      rw [hsame w (path_of_worktreeAt hw).1 huser]
      exact .refl w

theorem mem_userEntries {w : HostWorktree} (hw : w ∈ s.worktrees)
    (huser : project.isUser w = true) : w.entry ∈ s.userEntries project :=
  List.mem_filter.mpr ⟨List.mem_map_of_mem hw, huser⟩

theorem updateRef_step (host : HostGit) {item : HubCheckoutOutboxFile} {current : Oid}
    (hheld : s.Holds item)
    (hitem : item.branchRef = "refs/heads/" ++ item.hostTargetBranch)
    (hforward : git.isAncestor current item.candidateOid = true)
    (howners : owningWorktrees (s.userEntries project) item.hostTargetBranch = [])
    (hrun : s.updateRef host item.branchRef item.candidateOid current = some t) :
    ProjectionStep git project s t ∧ HostAdvances git project s t ∧ t.outbox = s.outbox ∧
      t.Contains git item := by
  unfold HostRepository.updateRef at hrun
  split at hrun
  · rename_i hcompare
    obtain rfl := Option.some.inj hrun
    have hnone : ∀ w ∈ s.worktrees, project.isUser w = true →
        w.branch = some item.hostTargetBranch → some w.path = none ∧ w.Quiet := by
      intro w hw huser hbranch
      have hmem : w.entry ∈ owningWorktrees (s.userEntries project) item.hostTargetBranch :=
        List.mem_filter.mpr ⟨mem_userEntries hw huser, by simp [HostWorktree.entry, hbranch]⟩
      rw [howners] at hmem
      cases hmem
    have hmove := moveBranch_step host none hheld hitem hcompare.1 hforward hnone
    exact ⟨hmove.1, hmove.2, rfl, item.candidateOid, Function.update_self _ _ _,
      git.isAncestor_refl _⟩
  · cases hrun

/-- The fast-forward in the one user worktree that has the branch checked out, when the
worktree is quiet. -/
theorem mergeFfOnly_step (host : HostGit) (hwell : s.WellFormed) {item : HubCheckoutOutboxFile}
    {owner : GitWorktree} {current : Oid} (hheld : s.Holds item)
    (hitem : item.branchRef = "refs/heads/" ++ item.hostTargetBranch)
    (hcurrent : s.refs item.branchRef = some current)
    (howners : owningWorktrees (s.userEntries project) item.hostTargetBranch = [owner])
    (hquiet : ∀ w, s.worktreeAt owner.path = some w → project.isUser w = true → w.Quiet)
    (hrun : s.mergeFfOnly git host owner.path item.candidateOid = some t) :
    ProjectionStep git project s t ∧ HostAdvances git project s t ∧ t.outbox = s.outbox ∧
      t.Contains git item := by
  -- The owner is the only user worktree of the branch.
  have honly : ∀ w ∈ s.worktrees, project.isUser w = true →
      w.branch = some item.hostTargetBranch → w.path = owner.path := by
    intro w hw huser hbranch
    have hmem : w.entry ∈ owningWorktrees (s.userEntries project) item.hostTargetBranch :=
      List.mem_filter.mpr ⟨mem_userEntries hw huser, by simp [HostWorktree.entry, hbranch]⟩
    rw [howners, List.mem_singleton] at hmem
    rw [← hmem]
    rfl
  obtain ⟨w, hw, huser, hbranch, hat⟩ : ∃ w ∈ s.worktrees, project.isUser w = true ∧
      w.branch = some item.hostTargetBranch ∧ s.worktreeAt owner.path = some w := by
    have hmem : owner ∈ owningWorktrees (s.userEntries project) item.hostTargetBranch := by
      rw [howners]
      exact List.mem_singleton_self owner
    obtain ⟨hentry, hname⟩ := List.mem_filter.mp hmem
    obtain ⟨hlisted, huser⟩ := List.mem_filter.mp hentry
    obtain ⟨w, hw, rfl⟩ := List.mem_map.mp hlisted
    exact ⟨w, hw, huser, by simpa [HostWorktree.entry] using hname, hwell.worktreeAt hw⟩
  have hhead : w.head = .branch item.hostTargetBranch := by
    unfold HostWorktree.branch at hbranch
    split at hbranch
    · rename_i name hname
      rw [hname, Option.some.inj hbranch]
    · cases hbranch
  have hoid : s.headOid w = some current := by
    rw [HostRepository.headOid, hhead, ← hcurrent, hitem]
  unfold HostRepository.mergeFfOnly at hrun
  rw [hat, Option.bind_some] at hrun
  dsimp only at hrun
  rw [hhead, hoid] at hrun
  split at hrun
  · cases hrun
  dsimp only at hrun
  split at hrun
  · -- The branch contains the candidate already, and nothing moves.
    rename_i hcontains
    obtain rfl := Option.some.inj hrun
    exact ⟨.refl git project s, .refl git project s, rfl, current, hcurrent, hcontains⟩
  split at hrun
  · rename_i hforward
    obtain rfl := Option.some.inj hrun
    rw [Bool.and_eq_true] at hforward
    have honlyQuiet : ∀ v ∈ s.worktrees, project.isUser v = true →
        v.branch = some item.hostTargetBranch → some v.path = some owner.path ∧ v.Quiet := by
      intro v hv huserv hbranchv
      have hpath := honly v hv huserv hbranchv
      refine ⟨congrArg some hpath, hquiet v ?_ huserv⟩
      rw [← hpath]
      exact hwell.worktreeAt hv
    have hmove := moveBranch_step host (some owner.path) hheld hitem hcurrent hforward.1 honlyQuiet
    rw [← hitem]
    exact ⟨hmove.1, hmove.2, rfl, item.candidateOid, Function.update_self _ _ _,
      git.isAncestor_refl _⟩
  · cases hrun

/-! ### The calls -/

theorem sameTarget_succeeded (item : HubCheckoutOutboxFile) (oid : Oid) (path : Option String)
    (now : Timestamp) : SameTarget item (item.succeeded oid path now) :=
  ⟨rfl, rfl, rfl, rfl⟩

theorem sameTarget_pending (item : HubCheckoutOutboxFile) (reason : HubCheckoutPendingReason)
    (now : Timestamp) : SameTarget item (item.pending reason now) :=
  ⟨rfl, rfl, rfl, rfl⟩

theorem sat_markPending {item : HubCheckoutOutboxFile} (reason : HubCheckoutPendingReason)
    (now : Timestamp) (hheld : s.Holds item) :
    Prog.Sat (checkoutRules git project) (fun _ t => HostAdvances git project s t)
      (fun _ _ => False) (writeCheckoutItem (item.pending reason now)) s :=
  sat_writeCheckoutItem hheld (sameTarget_pending item reason now) fun h => nomatch h

theorem sat_markSucceeded {item : HubCheckoutOutboxFile} (oid : Oid) (path : Option String)
    (now : Timestamp) (hheld : s.Holds item) (hcontains : s.Contains git item) :
    Prog.Sat (checkoutRules git project) (fun _ t => HostAdvances git project s t)
      (fun _ _ => False) (writeCheckoutItem (item.succeeded oid path now)) s :=
  sat_writeCheckoutItem hheld (sameTarget_succeeded item oid path now) fun _ => hcontains

theorem sat_from {α : Type} {p : HostProg α} (h : HostAdvances git project s t)
    (hp : Prog.Sat (checkoutRules git project) (fun _ u => HostAdvances git project t u)
      (fun _ _ => False) p t) :
    Prog.Sat (checkoutRules git project) (fun _ u => HostAdvances git project s u)
      (fun _ _ => False) p t :=
  Prog.sat_mono hp (fun _ _ hu => h.trans hu) fun _ _ h => h

theorem contains_of_observed {item : HubCheckoutOutboxFile}
    (h : hostBranchAlreadyContainsCandidate git item.candidateOid (s.refs item.branchRef) = true) :
    s.Contains git item := by
  unfold hostBranchAlreadyContainsCandidate at h
  cases href : s.refs item.branchRef with
  | none =>
    rw [href] at h
    cases h
  | some oid =>
    rw [href] at h
    exact ⟨oid, href, h⟩

theorem sat_advanceHostBranch {item : HubCheckoutOutboxFile} (now : Timestamp)
    {command : HostRepository → Option HostRepository}
    {reasonAfter : Option Oid → HostProg HubCheckoutPendingReason} (path : Option String)
    (hheld : s.Holds item)
    (hcommand : ∀ t t', HostAdvances git project s t → t.WellFormed → t.Readable project →
      command t = some t' → ProjectionStep git project t t' ∧ HostAdvances git project t t' ∧
        t'.outbox = t.outbox ∧ t'.Contains git item)
    (hreason : ∀ oid t, Prog.Sat (checkoutRules git project)
      (fun _ u => HostAdvances git project t u) (fun _ _ => False) (reasonAfter oid) t) :
    Prog.Sat (checkoutRules git project) (fun _ t => HostAdvances git project s t)
      (fun _ _ => False)
      (advanceHostBranchWithCrashWindows git item now (mutateHost command) reasonAfter path) s := by
  refine Prog.sat_bind (sat_mutateHost hcommand) ?_
  rintro moved t ⟨ht, hmoved⟩
  cases moved with
  | ok _ => exact sat_from ht (sat_markSucceeded _ _ _ (ht.holds hheld) (hmoved ⟨_, rfl⟩))
  | error _ =>
    refine sat_checkoutRead fun u hu _ _ => ?_
    have hsu : HostAdvances git project s u := ht.trans hu
    split
    · rename_i hobserved
      exact sat_from hsu
        (sat_markSucceeded _ _ _ (hsu.holds hheld) (contains_of_observed hobserved))
    · refine Prog.sat_bind (hreason _ u) fun reason v hv => ?_
      have hsv : HostAdvances git project s v := hsu.trans hv
      exact sat_from hsv (sat_markPending reason now (hsv.holds hheld))

theorem HostRepository.Readable.item (h : s.Readable project) {item : HubCheckoutOutboxFile}
    (hheld : s.Holds item) : item.branchRef = "refs/heads/" ++ item.hostTargetBranch := by
  obtain ⟨item', hitem', hsame⟩ := hheld
  rw [← hsame.branchRef, ← hsame.hostTargetBranch]
  exact h.items item' hitem'

theorem sat_projectOneCheckout (host : HostGit) {item : HubCheckoutOutboxFile} (now : Timestamp)
    (hheld : s.Holds item) :
    Prog.Sat (checkoutRules git project) (fun _ t => HostAdvances git project s t)
      (fun _ _ => False) (projectOneCheckout git host project item now) s := by
  unfold projectOneCheckout
  split
  · exact .refl git project s
  refine sat_checkoutRead fun t ht _ _ => sat_from ht ?_
  have hheldt : t.Holds item := ht.holds hheld
  split
  · rename_i hcontains
    exact sat_markSucceeded _ _ _ hheldt (contains_of_observed hcontains)
  split
  · exact sat_markPending _ _ hheldt
  rename_i hforward
  obtain ⟨current, hcurrent, hforward⟩ : ∃ current, t.refs item.branchRef = some current ∧
      git.isAncestor current item.candidateOid = true := by
    cases href : t.refs item.branchRef with
    | none => simp [candidateIsFastForwardOf, href] at hforward
    | some current => exact ⟨current, rfl, by simpa [candidateIsFastForwardOf, href] using hforward⟩
  refine Prog.sat_bind sat_listUserWorktrees ?_
  rintro _ u ⟨hu, rfl⟩
  refine sat_from hu ?_
  have hheldu : u.Holds item := hu.holds hheldt
  split
  · -- No user worktree has the branch checked out.
    rename_i howners
    refine sat_advanceHostBranch now none hheldu ?_ fun _ v => .refl git project v
    intro v v' hv _ hreadable hrun
    rw [hcurrent, Option.getD_some] at hrun
    exact updateRef_step host (hv.holds hheldu) (hreadable.item (hv.holds hheldu)) hforward
      (by rw [hv.userEntries, howners]) hrun
  · -- One user worktree has it checked out.
    rename_i owner howners
    refine Prog.sat_bind (sat_inspectOwningWorktreeSafety host item.candidateOid) ?_
    rintro found v ⟨hv, hquiet⟩
    refine sat_from hv ?_
    have hheldv : v.Holds item := hv.holds hheldu
    cases found with
    | some reason => exact sat_markPending _ _ hheldv
    | none =>
      refine sat_advanceHostBranch now (some owner.path) hheldv ?_ fun _ w => ?_
      · intro w w' hw hwell hreadable hrun
        obtain ⟨oid, href, -⟩ := ((hu.trans hv).trans hw).refs _ _ hcurrent
        exact mergeFfOnly_step host hwell (hw.holds hheldv) (hreadable.item (hw.holds hheldv)) href
          (by rw [(hv.trans hw).userEntries, howners])
          (hw.keepsAt (fun _ _ h => h.quiet) (hquiet rfl)) hrun
      · refine Prog.sat_bind (sat_inspectOwningWorktreeSafety host item.candidateOid) ?_
        intro reason x hx
        exact hx.1
  · exact sat_markPending _ _ hheldu

theorem sat_projectCheckouts (host : HostGit) (now : Timestamp)
    (items : List HubCheckoutOutboxFile) (hheld : ∀ item ∈ items, s.Holds item) :
    Prog.Sat (checkoutRules git project) (fun _ _ => True) (fun _ _ => False)
      (projectCheckouts git host project now items) s := by
  induction items generalizing s with
  | nil => trivial
  | cons item items ih =>
    refine Prog.sat_bind (sat_projectOneCheckout host now (hheld item List.mem_cons_self)) ?_
    intro projected t ht
    refine Prog.sat_bind (ih fun other hother => ?_) fun _ _ _ => trivial
    exact ht.holds (hheld other (List.mem_cons_of_mem _ hother))

theorem sat_projectHubCheckoutOutbox (host : HostGit) (now : Timestamp) :
    Prog.Sat (checkoutRules git project) (fun _ _ => True) (fun _ _ => False)
      (projectHubCheckoutOutbox git host project now) s := by
  refine sat_checkoutRead fun t _ _ _ => ?_
  refine Prog.sat_bind (sat_projectCheckouts host now _ fun item hitem => ?_) fun _ _ _ => trivial
  exact ⟨item, (List.mem_insertionSort _).mp hitem, .refl item⟩

end

/-! ### All runs -/

section
variable {ι : Type} [DecidableEq ι]

def checkoutCode (git : Git) (host : HostGit) (project : HostProject) (_ : ι)
    (now : Timestamp) : HostProg HubCheckoutProjectionOutcome :=
  projectHubCheckoutOutbox git host project now

/-- The runs in which users commit and Git's answers can be read whenever a call takes a
step. -/
def readableRuns (git : Git) (project : HostProject) : Discipline ι Timestamp HostRepository where
  start := fun _ _ _ => True
  env := UserCommits git project
  allowed := fun _ _ t _ => t.Readable project

def checkoutContract (git : Git) (project : HostProject) :
    Contract ι Timestamp HostRepository String HubCheckoutProjectionOutcome where
  inv := HostRepository.WellFormed
  rely := fun _ => HostAdvances git project
  guar := fun _ _ _ t t' => ProjectionStep git project t t' ∧ HostAdvances git project t t'
  post := fun _ _ _ _ => True

omit [DecidableEq ι] in
theorem checkoutContract_holds (git : Git) (host : HostGit) (project : HostProject) :
    (checkoutContract git project).Holds (readableRuns git project)
      (checkoutCode (ι := ι) git host project) where
  rely_refl := fun _ s => .refl git project s
  rely_trans := fun _ _ _ _ h₁ h₂ => h₁.trans h₂
  guar_rely := fun _ _ _ _ _ _ _ _ h => h.2
  env_keeps := by
    rintro s t hs ⟨hadvances, houtbox⟩
    refine ⟨hadvances.wellFormed hs ?_, fun _ => hadvances⟩
    rw [houtbox]
    exact hs.ids
  sat := by
    intro i now s _ _
    exact Prog.sat_mono (sat_projectHubCheckoutOutbox host now) (fun _ _ _ => trivial)
      fun _ _ h => h.elim

/-- While users commit, each step of each call is a step of the projection. -/
theorem projection_step (git : Git) (host : HostGit) (project : HostProject)
    {s : HostRepository} (hwell : s.WellFormed)
    {c c' : Pool ι Timestamp HostRepository String HubCheckoutProjectionOutcome}
    (hreach : Pool.Reach (readableRuns git project) (checkoutCode git host project) (Pool.idle s) c)
    {i : ι} (hreadable : c.state.Readable project)
    (hstep : c.next (checkoutCode git host project) (.step i) = some c') :
    ProjectionStep git project c.state c'.state := by
  have hok := (checkoutContract_holds git host project).ok_reach
    (Contract.ok_idle (C := checkoutContract git project) hwell) hreach
  obtain ⟨th, -, hguar⟩ := hok.step_guar (fun _ _ _ _ _ => hreadable) hstep
  exact hguar.1

end

/-! ### A host branch that no user worktree has checked out -/

/-- A worktree of the branch `dev`, and an item that asks for `main` to follow. -/
def sampleUnowned : HostRepository where
  refs := fun ref => if ref = "refs/heads/main" ∨ ref = "refs/heads/dev" then some "h" else none
  worktrees := [{ path := "/repo", head := .branch "dev" }]
  outbox := [{
    transactionId := "tx", taskId := "a", hostTargetBranch := "main", candidateOid := "hc"
    expectedBranchOid := "h", id := "cpo", branchRef := "refs/heads/main"
    publishTargetRef := "refs/archloop/publish/p" }]

def sampleHost : HostGit where
  lsTree := fun _ => ""
  statusBehind := fun w _ => w.status
  overwrites := fun _ _ => false

def sampleProject : HostProject where
  repoRoot := "/repo"
  hubProjectDir := "/hub"

theorem sampleUnowned_readable : sampleUnowned.Readable sampleProject where
  list := by decide
  plain := by
    intro w hw
    obtain rfl : w = { path := "/repo", head := .branch "dev" } := List.mem_singleton.mp hw
    refine ⟨by decide, fun name hname => ?_, fun oid hoid => ?_⟩
    · rw [← Option.some.inj hname]
      decide
    · rw [← Option.some.inj hoid]
      decide
  status := by decide
  items := by decide

/-- Four steps into a call, `main` is moved by the compare-and-swap. -/
theorem projection_step_sample :
    ∃ c' : Pool Unit Timestamp HostRepository String HubCheckoutProjectionOutcome,
      (Pool.idle sampleUnowned).exec (checkoutCode sampleGit sampleHost sampleProject)
          [.start () 0, .step (), .step (), .step (), .step ()] = some c' ∧
        c'.state.refs "refs/heads/main" = some "hc" ∧
        ProjectionStep sampleGit sampleProject sampleUnowned c'.state := by
  have hpermitted : (Pool.idle sampleUnowned : Pool Unit _ _ _ _).Permitted
      (readableRuns sampleGit sampleProject) (checkoutCode sampleGit sampleHost sampleProject)
      [.start () 0, .step (), .step (), .step ()] := by
    refine ⟨trivial, ?_⟩
    rintro _ ⟨rfl⟩
    refine ⟨fun _ _ _ _ _ => sampleUnowned_readable, ?_⟩
    rintro _ ⟨rfl⟩
    refine ⟨fun _ _ _ _ _ => sampleUnowned_readable, ?_⟩
    rintro _ ⟨rfl⟩
    exact ⟨fun _ _ _ _ _ => sampleUnowned_readable, fun _ _ => trivial⟩
  refine ⟨_, rfl, rfl, projection_step (i := ()) sampleGit sampleHost sampleProject ?_
    (Pool.reach_of_exec _ rfl hpermitted) sampleUnowned_readable rfl⟩
  exact ⟨by decide, by decide, by decide⟩

/-! ### A status that is not read -/

def sampleUnread (status : String) : HostRepository :=
  { sampleUnowned with
    worktrees := [{ path := "/repo", head := .branch "main", status := status }] }

theorem tryGitTextSync_eq_none {text : String} (h : MAX_BUFFER < text.utf8ByteSize) :
    tryGitTextSync (some text) = none := by
  rw [tryGitTextSync, Option.bind_some, if_neg (by omega)]

theorem inspect_sampleUnread {status : String} (h : MAX_BUFFER < status.utf8ByteSize) :
    (inspectOwningWorktreeSafety sampleHost "/repo" "hc").run (sampleUnread status) =
      (.ok none, sampleUnread status) := by
  have hat : (sampleUnread status).worktreeAt "/repo" =
      some { path := "/repo", head := .branch "main", status := status } := rfl
  have hoperation : (hasOperationInProgress "/repo").run (sampleUnread status) =
      (.ok false, sampleUnread status) := rfl
  have hsparse : (hasSparseCheckout "/repo").run (sampleUnread status) =
      (.ok false, sampleUnread status) := rfl
  have hgitlink : (treeHasGitlink sampleHost "/repo" "hc").run (sampleUnread status) =
      (.ok false, sampleUnread status) := by
    have hnone : hasGitlinkLine (tryGitTextSync (some "")) = false := by decide
    unfold treeHasGitlink
    rw [Prog.run_bind_ok (Prog.run_reads _ _), hat, Option.map_some, hnone,
      if_neg (by simp), Prog.run_bind_ok (Prog.run_reads _ _), hat, Option.map_some]
    show (Except.ok (hasGitlinkLine (tryGitTextSync (some ""))), _) = _
    rw [hnone]
  unfold inspectOwningWorktreeSafety
  rw [Prog.run_bind_ok hoperation, if_neg (by simp), Prog.run_bind_ok hsparse, if_neg (by simp),
    Prog.run_bind_ok hgitlink, if_neg (by simp), Prog.run_bind_ok (Prog.run_reads _ _), hat,
    Option.map_some, tryGitTextSync_eq_none h]
  rfl

theorem returns_list_sampleUnread (status : String) :
    (listUserWorktrees sampleProject).Returns (sampleUnread status) fun entries t =>
      entries = [⟨"/repo", some "main"⟩] ∧ t = sampleUnread status := by
  have hlist : (sampleUnread status).worktreeList = (sampleUnread "").worktreeList := rfl
  have hread : tryGitTextSync (some (sampleUnread "").worktreeList) =
      some "worktree /repo\nHEAD h\nbranch refs/heads/main" := by decide
  refine Prog.returns_reads_bind.mpr ?_
  rw [hlist, hread]
  dsimp only
  rw [if_neg (by decide)]
  exact Prog.returns_ret ⟨by decide, rfl⟩

theorem returns_projectOne_sampleUnread {status : String}
    (h : MAX_BUFFER < status.utf8ByteSize) {item : HubCheckoutOutboxFile}
    (hitem : item ∈ sampleUnowned.outbox) :
    (projectOneCheckout sampleGit sampleHost sampleProject item 0).Returns (sampleUnread status)
      fun _ t => t.refs "refs/heads/main" = some "hc" := by
  obtain rfl := List.mem_singleton.mp hitem
  have hcurrent : (sampleUnread status).refs "refs/heads/main" = some "h" := rfl
  have hcontains : hostBranchAlreadyContainsCandidate sampleGit "hc" (some "h") = false := by decide
  have hforward : candidateIsFastForwardOf sampleGit "hc" (some "h") = true := by decide
  unfold projectOneCheckout
  rw [if_neg (by decide)]
  refine Prog.returns_reads_bind.mpr ?_
  dsimp only
  rw [hcurrent, hcontains, hforward, if_neg (by simp), if_neg (by simp)]
  refine Prog.returns_bind (returns_list_sampleUnread status) ?_
  rintro _ _ ⟨rfl, rfl⟩
  refine Prog.returns_bind (Q := fun found t => found = none ∧ t = sampleUnread status)
    ⟨_, _, inspect_sampleUnread h, rfl, rfl⟩ ?_
  rintro _ _ ⟨rfl, rfl⟩
  exact ⟨_, _, rfl, rfl⟩

theorem returns_project_sampleUnread {status : String} (h : MAX_BUFFER < status.utf8ByteSize) :
    (projectHubCheckoutOutbox sampleGit sampleHost sampleProject 0).Returns (sampleUnread status)
      fun _ t => t.refs "refs/heads/main" = some "hc" := by
  refine Prog.returns_reads_bind.mpr ?_
  have hitems : (sampleUnread status).checkoutItems = sampleUnowned.outbox := rfl
  rw [hitems]
  refine Prog.returns_bind (Prog.returns_bind
    (returns_projectOne_sampleUnread h (List.mem_singleton_self _)) fun projected t ht => ?_)
    fun attempts t ht => Prog.returns_ret ht
  exact Prog.returns_ret ht

/-- The status of a worktree with `n` untracked files. -/
def untrackedStatus (n : Nat) : String :=
  unlines ((List.range n).map fun i => "?? f" ++ toString i)

theorem untrackedStatus_size (n : Nat) : 5 * n ≤ (untrackedStatus n).utf8ByteSize := by
  have hsize : ∀ lines : List String, (∀ line ∈ lines, 4 ≤ line.utf8ByteSize) →
      5 * lines.length ≤ (unlines lines).utf8ByteSize := by
    intro lines
    induction lines with
    | nil => intro _; exact Nat.zero_le _
    | cons line lines ih =>
      intro h
      have hline := h line List.mem_cons_self
      have hrest := ih fun l hl => h l (List.mem_cons_of_mem _ hl)
      have hcons : (unlines (line :: lines)).utf8ByteSize =
          line.utf8ByteSize + 1 + (unlines lines).utf8ByteSize := by
        rw [unlines, unlines, List.flatMap_cons, String.ofList_append, String.ofList_append,
          String.utf8ByteSize_append, String.utf8ByteSize_append, String.ofList_toList]
        rfl
      rw [hcons, List.length_cons]
      omega
  have hlines := hsize ((List.range n).map fun i => "?? f" ++ toString i) fun line hline => by
    obtain ⟨i, -, rfl⟩ := List.mem_map.mp hline
    have hprefix : "?? f".utf8ByteSize = 4 := rfl
    rw [String.utf8ByteSize_append, hprefix]
    omega
  rwa [List.length_map, List.length_range] at hlines

/-- A user worktree with changes, whose status does not fit into the buffer, is touched. -/
theorem unreadStatus_isMoved :
    ¬ ∀ (git : Git) (host : HostGit) (project : HostProject) (now : Timestamp)
      (s : HostRepository), s.WellFormed → ∀ w ∈ s.worktrees, project.isUser w = true →
      w.listsEntry = true → ∀ name, w.branch = some name →
      ((projectHubCheckoutOutbox git host project now).exec s).refs ("refs/heads/" ++ name) =
        s.refs ("refs/heads/" ++ name) := by
  intro hclaim
  have hlong : MAX_BUFFER < (untrackedStatus MAX_BUFFER).utf8ByteSize := by
    have hsize := untrackedStatus_size MAX_BUFFER
    have hpos : 0 < MAX_BUFFER := by decide
    omega
  have hlists : (untrackedStatus MAX_BUFFER).toList.any (fun c => !isBlank c) = true := by
    rw [List.any_eq_true]
    refine ⟨'?', ?_, by decide⟩
    rw [untrackedStatus, unlines, String.toList_ofList, List.mem_flatMap]
    refine ⟨"?? f" ++ toString 0, List.mem_map.mpr ⟨0, List.mem_range.mpr (by decide), rfl⟩, ?_⟩
    rw [String.toList_append, List.mem_append, List.mem_append]
    exact Or.inl (Or.inl (by decide))
  have hwell : (sampleUnread (untrackedStatus MAX_BUFFER)).WellFormed :=
    ⟨List.cons_ne_nil _ _, List.nodup_singleton _, List.nodup_singleton _⟩
  have huser : sampleProject.isUser { path := "/repo", head := .bare } = true := by decide
  have hmoved := (returns_project_sampleUnread hlong).exec
  have hkept := hclaim sampleGit sampleHost sampleProject 0 _ hwell
    { path := "/repo", head := .branch "main", status := untrackedStatus MAX_BUFFER }
    (List.mem_singleton_self _) huser hlists "main" rfl
  rw [show "refs/heads/" ++ "main" = "refs/heads/main" from rfl, hmoved] at hkept
  exact absurd (Option.some.inj hkept) (by decide)

end ArchLoop
