import ArchLoop.TaskAttempts
import Mathlib.Data.List.Chain

/-!
# `ArchLoop.Proofs.TaskBranch`: the branch of a task over its attempts

The name of a branch is the slug of the id, a dash, and the slug of the title. Both slugs may have
dashes, so a name can be read in more than one way: `resolveHubTaskBranch_eq_iff` says when two tasks
get the same one (`SameName`). `validBranchName_iff` says which ids give a name that git accepts.

Over a run, all work that an attempt has left is on the branch of the title that it was claimed with
(`branchInv_after`). So an attempt works where the earlier ones have left their work exactly when the
title still has the same slug, which nothing checks (`attemptsKept_iff`).
-/

set_option autoImplicit false

namespace ArchLoop.TaskAttempts

open ArchLoop.Lib

/-! ### The name of a branch -/

def idSlug (taskId : TaskId) : List Char :=
  slugChars (fun c => isSlugChar c || c == '.' || c == '_' || c == '-') taskId

/-- The slug of the title in the name of the branch. -/
def titleSlug (title : String) : List Char :=
  (slugifyHubTaskTitle title).toList

def branchDirectory : List Char :=
  ['a', 'r', 'c', 'h', 'l', 'o', 'o', 'p']

theorem resolveHubTaskBranch_toList (taskId : TaskId) (title : String) :
    (resolveHubTaskBranch taskId title).toList =
      branchDirectory ++ '/' :: (idSlug taskId ++ '-' :: titleSlug title) := by
  have hdirectory : "archloop/".toList = branchDirectory ++ ['/'] := by decide
  have hdash : "-".toList = ['-'] := by decide
  show ("archloop/" ++ String.ofList (idSlug taskId) ++ "-" ++
    slugifyHubTaskTitle title).toList = _
  rw [String.toList_append, String.toList_append, String.toList_append, hdirectory, hdash,
    String.toList_ofList, List.append_assoc, List.append_assoc, List.append_assoc,
    List.singleton_append, List.singleton_append, titleSlug]

/-- The name of the one task can be read as that of the other: the slugs agree, or the one id goes
on, behind a dash, with the words that the title of the other starts with. -/
def SameName (taskId : TaskId) (title : String) (taskId' : TaskId) (title' : String) : Prop :=
  (idSlug taskId = idSlug taskId' ∧ titleSlug title = titleSlug title') ∨
    (∃ words, idSlug taskId' = idSlug taskId ++ '-' :: words ∧
      titleSlug title = words ++ '-' :: titleSlug title') ∨
    ∃ words, idSlug taskId = idSlug taskId' ++ '-' :: words ∧
      titleSlug title' = words ++ '-' :: titleSlug title

theorem divided_eq_iff {a a' b b' : List Char} {c : Char} :
    a ++ c :: b = a' ++ c :: b' ↔ (a = a' ∧ b = b') ∨
      (∃ words, a' = a ++ c :: words ∧ b = words ++ c :: b') ∨
      ∃ words, a = a' ++ c :: words ∧ b' = words ++ c :: b := by
  rw [List.append_eq_append_iff]
  constructor
  · rintro (⟨words, ha, hb⟩ | ⟨words, ha, hb⟩)
    · cases words with
      | nil =>
        rw [List.nil_append, List.cons.injEq] at hb
        rw [List.append_nil] at ha
        exact Or.inl ⟨ha.symm, hb.2⟩
      | cons d words =>
        rw [List.cons_append, List.cons.injEq] at hb
        obtain ⟨rfl, hb⟩ := hb
        exact Or.inr (Or.inl ⟨words, ha, hb⟩)
    · cases words with
      | nil =>
        rw [List.nil_append, List.cons.injEq] at hb
        rw [List.append_nil] at ha
        exact Or.inl ⟨ha, hb.2.symm⟩
      | cons d words =>
        rw [List.cons_append, List.cons.injEq] at hb
        obtain ⟨rfl, hb⟩ := hb
        exact Or.inr (Or.inr ⟨words, ha, hb⟩)
  · rintro (⟨rfl, rfl⟩ | ⟨words, rfl, rfl⟩ | ⟨words, rfl, rfl⟩)
    · exact Or.inl ⟨[], by simp, by simp⟩
    · exact Or.inl ⟨c :: words, by simp, by simp⟩
    · exact Or.inr ⟨c :: words, by simp, by simp⟩

theorem resolveHubTaskBranch_eq_iff (taskId : TaskId) (title : String) (taskId' : TaskId)
    (title' : String) :
    resolveHubTaskBranch taskId title = resolveHubTaskBranch taskId' title' ↔
      SameName taskId title taskId' title' := by
  rw [← String.toList_inj, resolveHubTaskBranch_toList, resolveHubTaskBranch_toList,
    List.append_cancel_left_eq, List.cons.injEq, divided_eq_iff, SameName]
  simp

theorem resolveHubTaskBranch_eq_iff_slug (taskId : TaskId) (title title' : String) :
    resolveHubTaskBranch taskId title = resolveHubTaskBranch taskId title' ↔
      titleSlug title = titleSlug title' := by
  rw [← String.toList_inj, resolveHubTaskBranch_toList, resolveHubTaskBranch_toList,
    List.append_cancel_left_eq, List.cons.injEq, List.append_cancel_left_eq, List.cons.injEq]
  simp

/-! ### Names that git accepts -/

/-- The rules of `git check-ref-format` for the name of a branch. -/
structure ValidBranchName (name : List Char) : Prop where
  component : ∀ component ∈ name.splitOn '/', component ≠ [] ∧ component.head? ≠ some '.' ∧
    ¬".lock".toList <:+ component
  dots : name.IsChain fun c d => ¬(c = '.' ∧ d = '.')
  chars : ∀ c ∈ name, 0x20 < c.toNat ∧ c.toNat ≠ 0x7f ∧ c ∉ "~^:?*[\\".toList
  noReflog : name.IsChain fun c d => ¬(c = '@' ∧ d = '\x7b')
  last : name.getLast? ≠ some '.'
  head : name.head? ≠ some '-'
  notAt : name ≠ ['@']

/-- The id gives a name that git accepts: its slug does not start with a dot, and has no two dots
in a row. -/
def DotsApart (taskId : TaskId) : Prop :=
  (idSlug taskId).head? ≠ some '.' ∧ (idSlug taskId).IsChain fun c d => ¬(c = '.' ∧ d = '.')

theorem replaceUnsafeRuns_chars {keep : Char → Bool} {inRun : Bool} {text : List Char} {c : Char}
    (h : c ∈ replaceUnsafeRuns keep inRun text) : keep c = true ∨ c = '-' := by
  induction text generalizing inRun with
  | nil => cases h
  | cons d text ih =>
    rw [replaceUnsafeRuns] at h
    split at h
    · rename_i hkeep
      rcases List.mem_cons.mp h with rfl | hmem
      · exact Or.inl hkeep
      · exact ih hmem
    · split at h
      · exact ih h
      · rcases List.mem_cons.mp h with rfl | hmem
        · exact Or.inr rfl
        · exact ih hmem

theorem slugChars_chars {keep : Char → Bool} {text : String} {c : Char}
    (h : c ∈ slugChars keep text) : keep c = true ∨ c = '-' := by
  rw [slugChars, trimDashes, List.mem_reverse] at h
  have hmem := List.mem_reverse.mp ((List.dropWhile_sublist _).subset h)
  exact replaceUnsafeRuns_chars ((List.dropWhile_sublist _).subset hmem)

theorem titleSlug_chars {title : String} {c : Char} (h : c ∈ titleSlug title) :
    isSlugChar c = true ∨ c = '-' := by
  rw [titleSlug, slugifyHubTaskTitle] at h
  split at h
  · have htask : "task".toList.all isSlugChar = true := by decide
    exact Or.inl (List.all_eq_true.mp htask c h)
  · rename_i hslug
    rw [String.toList_ofList] at h
    exact slugChars_chars (List.mem_of_mem_take h)

theorem titleSlug_ne_nil (title : String) : titleSlug title ≠ [] := by
  rw [titleSlug, slugifyHubTaskTitle]
  split
  · decide
  · rename_i hslug
    rw [String.toList_ofList]
    intro hnil
    rw [List.take_eq_nil_iff] at hnil
    exact hnil.elim (by decide) hslug

theorem idSlug_chars {taskId : TaskId} {c : Char} (h : c ∈ idSlug taskId) :
    isSlugChar c = true ∨ c = '.' ∨ c = '_' ∨ c = '-' := by
  rcases slugChars_chars h with hkeep | rfl
  · simpa [or_assoc] using hkeep
  · simp

theorem isSlugChar_range {c : Char} (h : isSlugChar c = true) :
    (0x30 ≤ c.toNat ∧ c.toNat ≤ 0x39) ∨ (0x61 ≤ c.toNat ∧ c.toNat ≤ 0x7a) := by
  rw [isSlugChar, Bool.or_eq_true] at h
  rcases h with h | h
  · right
    change (decide (c.val ≥ 97) && decide (c.val ≤ 122)) = true at h
    simpa [UInt32.le_iff_toNat_le] using h
  · left
    simpa [Char.isDigit, Char.le_def, UInt32.le_iff_toNat_le] using h

theorem name_chars {taskId : TaskId} {title : String} {c : Char}
    (h : c ∈ idSlug taskId ++ '-' :: titleSlug title) :
    isSlugChar c = true ∨ c = '.' ∨ c = '_' ∨ c = '-' := by
  rcases List.mem_append.mp h with h | h
  · exact idSlug_chars h
  · rcases List.mem_cons.mp h with rfl | h
    · simp
    · rcases titleSlug_chars h with h | rfl
      · exact Or.inl h
      · simp

theorem dot_not_mem_titleSlug (title : String) : '.' ∉ '-' :: titleSlug title := by
  intro h
  rcases List.mem_cons.mp h with h | h
  · exact absurd h (by decide)
  · rcases titleSlug_chars h with h | h
    · exact absurd h (by decide)
    · exact absurd h (by decide)

theorem not_lock_suffix (taskId : TaskId) (title : String) :
    ¬".lock".toList <:+ idSlug taskId ++ '-' :: titleSlug title := by
  intro h
  have htitle : '-' :: titleSlug title <:+ idSlug taskId ++ '-' :: titleSlug title :=
    List.suffix_append _ _
  rcases List.suffix_or_suffix_of_suffix h htitle with hlock | hlock
  · exact dot_not_mem_titleSlug title (hlock.subset (by decide))
  · have hdash : '-' ∈ ".lock".toList := hlock.subset List.mem_cons_self
    exact absurd hdash (by decide)

theorem components_eq (taskId : TaskId) (title : String) :
    (resolveHubTaskBranch taskId title).toList.splitOn '/' =
      [branchDirectory, idSlug taskId ++ '-' :: titleSlug title] := by
  have hshape : (resolveHubTaskBranch taskId title).toList =
      ['/'].intercalate [branchDirectory, idSlug taskId ++ '-' :: titleSlug title] := by
    rw [resolveHubTaskBranch_toList]
    simp [List.intercalate]
  have hslash : ∀ part ∈ [branchDirectory, idSlug taskId ++ '-' :: titleSlug title],
      '/' ∉ part := by
    intro part hpart hmem
    rcases List.mem_pair.mp hpart with hpart | hpart
    · rw [hpart] at hmem
      exact absurd hmem (by decide)
    · rw [hpart] at hmem
      rcases name_chars hmem with h | h | h | h
      all_goals exact absurd h (by decide)
  rw [hshape, List.splitOn_intercalate '/' hslash (by simp)]

theorem getLast?_name (taskId : TaskId) (title : String) :
    (resolveHubTaskBranch taskId title).toList.getLast? = (titleSlug title).getLast? := by
  rw [resolveHubTaskBranch_toList]
  cases hslug : titleSlug title with
  | nil => exact absurd hslug (titleSlug_ne_nil title)
  | cons c slug => simp [List.getLast?_append, List.getLast?_cons]

theorem isChain_of_not_mem {c d : Char} {l : List Char} (h : c ∉ l) :
    l.IsChain fun x y => ¬(x = c ∧ y = d) := by
  induction l with
  | nil => exact List.isChain_nil
  | cons e l ih =>
    refine List.isChain_cons.mpr ⟨?_, ih fun hmem => h (List.mem_cons_of_mem e hmem)⟩
    rintro y - ⟨rfl, -⟩
    exact h List.mem_cons_self

theorem isChain_dots_iff (taskId : TaskId) (title : String) :
    (resolveHubTaskBranch taskId title).toList.IsChain (fun c d => ¬(c = '.' ∧ d = '.')) ↔
      (idSlug taskId).IsChain fun c d => ¬(c = '.' ∧ d = '.') := by
  rw [resolveHubTaskBranch_toList]
  constructor
  · intro h
    have htail := h.right_of_append.tail
    rw [List.tail_cons] at htail
    exact htail.left_of_append
  · intro h
    have htitle : ('-' :: titleSlug title).IsChain fun c d => ¬(c = '.' ∧ d = '.') :=
      isChain_of_not_mem (dot_not_mem_titleSlug title)
    have hdirectory : branchDirectory.IsChain fun c d => ¬(c = '.' ∧ d = '.') :=
      isChain_of_not_mem (by decide)
    have hname : (idSlug taskId ++ '-' :: titleSlug title).IsChain
        fun c d => ¬(c = '.' ∧ d = '.') := by
      refine h.append htitle ?_
      rintro c - d hd ⟨-, rfl⟩
      simp at hd
    refine hdirectory.append (List.isChain_cons.mpr ⟨?_, hname⟩) ?_
    · rintro d - ⟨hslash, -⟩
      exact absurd hslash (by decide)
    · rintro c - d hd ⟨-, rfl⟩
      simp at hd

theorem head?_name (taskId : TaskId) (title : String) :
    (idSlug taskId ++ '-' :: titleSlug title).head? ≠ some '.' ↔
      (idSlug taskId).head? ≠ some '.' := by
  cases idSlug taskId with
  | nil => simp
  | cons c slug => simp

theorem branch_chars {taskId : TaskId} {title : String} {c : Char}
    (h : c ∈ (resolveHubTaskBranch taskId title).toList) :
    c ∈ branchDirectory ∨ c = '/' ∨ isSlugChar c = true ∨ c = '.' ∨ c = '_' ∨ c = '-' := by
  rw [resolveHubTaskBranch_toList] at h
  rcases List.mem_append.mp h with h | h
  · exact Or.inl h
  · rcases List.mem_cons.mp h with h | h
    · exact Or.inr (Or.inl h)
    · exact Or.inr (Or.inr (name_chars h))

theorem accepted_char {taskId : TaskId} {title : String} {c : Char}
    (h : c ∈ (resolveHubTaskBranch taskId title).toList) :
    0x20 < c.toNat ∧ c.toNat ≠ 0x7f ∧ c ∉ "~^:?*[\\@".toList := by
  have hdirectory : branchDirectory.all (fun c =>
      decide (0x20 < c.toNat ∧ c.toNat ≠ 0x7f ∧ c ∉ "~^:?*[\\@".toList)) = true := by
    decide
  have hslug : isSlugChar c = true →
      0x20 < c.toNat ∧ c.toNat ≠ 0x7f ∧ c ∉ "~^:?*[\\@".toList := by
    intro hkeep
    have hrange := isSlugChar_range hkeep
    refine ⟨by omega, by omega, fun hmem => ?_⟩
    have hnone : "~^:?*[\\@".toList.all (fun d => !isSlugChar d) = true := by decide
    have hrefused := List.all_eq_true.mp hnone c hmem
    rw [hkeep] at hrefused
    cases hrefused
  rcases branch_chars h with h | rfl | h | rfl | rfl | rfl
  · exact of_decide_eq_true (List.all_eq_true.mp hdirectory c h)
  · decide
  · exact hslug h
  · decide
  · decide
  · decide

theorem validBranchName_iff (taskId : TaskId) (title : String) :
    ValidBranchName (resolveHubTaskBranch taskId title).toList ↔ DotsApart taskId := by
  constructor
  · intro h
    refine ⟨?_, (isChain_dots_iff taskId title).mp h.dots⟩
    rw [← head?_name taskId title]
    refine (h.component _ ?_).2.1
    rw [components_eq]
    exact List.mem_pair.mpr (Or.inr rfl)
  · rintro ⟨hhead, hdots⟩
    constructor
    · intro component hmem
      rw [components_eq] at hmem
      rcases List.mem_pair.mp hmem with hpart | hpart
      · rw [hpart]
        decide
      · rw [hpart]
        exact ⟨by simp, (head?_name taskId title).mpr hhead, not_lock_suffix taskId title⟩
    · exact (isChain_dots_iff taskId title).mpr hdots
    · intro c hmem
      obtain ⟨hlow, hdelete, hnot⟩ := accepted_char hmem
      have hsub : "~^:?*[\\".toList.all (fun d => decide (d ∈ "~^:?*[\\@".toList)) = true := by
        decide
      exact ⟨hlow, hdelete, fun h =>
        hnot (of_decide_eq_true (List.all_eq_true.mp hsub c h))⟩
    · exact isChain_of_not_mem fun hmem => (accepted_char hmem).2.2 (by decide)
    · rw [getLast?_name]
      intro hlast
      exact dot_not_mem_titleSlug title
        (List.mem_cons_of_mem _ (List.mem_of_getLast? hlast))
    · rw [resolveHubTaskBranch_toList]
      simp [branchDirectory]
    · intro hname
      have hmem : '@' ∈ (resolveHubTaskBranch taskId title).toList := by
        rw [hname]
        exact List.mem_singleton_self _
      exact (accepted_char hmem).2.2 (by decide)

/-! ### The branches of the attempts in a run -/

/-- Every branch name that the world keeps is the one of the title that it was made from. -/
structure BranchInv (w : AttemptWorld) : Prop where
  claim : ∀ taskId task claim, w.tasks taskId = some task → task.claim = some claim →
    claim.branch = resolveHubTaskBranch taskId claim.title
  lease : ∀ branch attempt, w.leases branch = some attempt →
    branch = resolveHubTaskBranch attempt.taskId attempt.title
  work : ∀ branch attempt, w.Holds branch attempt →
    branch = resolveHubTaskBranch attempt.taskId attempt.title

section
variable {w : AttemptWorld}

theorem BranchInv.modifyTask (h : BranchInv w) {taskId : TaskId} {f : AttemptTask → AttemptTask}
    (hf : ∀ task claim, (f task).claim = some claim → task.claim = some claim ∨
      claim.branch = resolveHubTaskBranch taskId claim.title) :
    BranchInv (w.modifyTask taskId f) := by
  cases htask : w.tasks taskId with
  | none =>
    rw [AttemptWorld.modifyTask, htask]
    exact h
  | some task =>
    rw [AttemptWorld.modifyTask, htask]
    refine ⟨?_, h.lease, h.work⟩
    intro other record claim hrecord hclaim
    replace hrecord : Function.update w.tasks taskId (some (f task)) other = some record := hrecord
    by_cases hsame : other = taskId
    · subst hsame
      rw [Function.update_self] at hrecord
      obtain rfl := Option.some.inj hrecord
      rcases hf task claim hclaim with hold | hmade
      · exact h.claim other task claim htask hold
      · exact hmade
    · rw [Function.update_of_ne hsame] at hrecord
      exact h.claim other record claim hrecord hclaim

theorem refreshLinkedGithubIssue_claim (task : AttemptTask) (issue : GithubIssueRecord) :
    (refreshLinkedGithubIssue task issue).claim = task.claim := by
  rw [refreshLinkedGithubIssue]
  dsimp only
  split_ifs <;> rfl

theorem BranchInv.begin (h : BranchInv w) {taskId : TaskId} {claim : BranchClaim}
    (hclaim : claim.branch = resolveHubTaskBranch taskId claim.title) (status : HubTaskStatus) :
    BranchInv (w.begin taskId claim status) := by
  have hclaimed : BranchInv (w.modifyTask taskId fun task =>
      { task with hubStatus := status, claim := some claim }) := by
    refine h.modifyTask fun task other hother => Or.inr ?_
    obtain rfl := Option.some.inj hother
    exact hclaim
  refine ⟨hclaimed.claim, ?_, ?_⟩
  · intro branch attempt hlease
    by_cases hsame : branch = claim.branch
    · subst hsame
      have hnew : some ({ taskId := taskId, title := claim.title } : Attempt) = some attempt := by
        simpa [AttemptWorld.begin] using hlease
      obtain rfl := Option.some.inj hnew
      exact hclaim
    · refine hclaimed.lease branch attempt ?_
      simpa [AttemptWorld.begin, Function.update_of_ne hsame] using hlease
  · intro branch attempt hwork
    refine hclaimed.work branch attempt ?_
    rcases hwork with hcommit | hleft
    · exact Or.inl hcommit
    · refine Or.inr ?_
      by_cases hsame : branch = claim.branch
      · subst hsame
        simpa [AttemptWorld.begin] using hleft
      · simpa [AttemptWorld.begin, Function.update_of_ne hsame] using hleft

theorem implementSelectedTask_claim {taskId : TaskId} {claim : BranchClaim}
    (h : implementSelectedTask w taskId = some claim) :
    ∃ task, w.tasks taskId = some task ∧ claim.title = task.title ∧
      claim.branch = resolveHubTaskBranch taskId claim.title ∧ w.leases claim.branch = none := by
  rw [implementSelectedTask] at h
  cases htask : w.tasks taskId with
  | none =>
    rw [htask] at h
    cases h
  | some task =>
    rw [htask] at h
    dsimp only at h
    split at h
    · cases hlease : w.leases (resolveHubTaskBranch taskId task.title) with
      | some attempt =>
        rw [prepareHubTaskRetry, hlease] at h
        cases h
      | none =>
        rw [prepareHubTaskRetry, hlease] at h
        obtain rfl := Option.some.inj h
        exact ⟨task, rfl, rfl, rfl, hlease⟩
    · cases h

theorem resumeReviewSelectedTask_claim (hinv : BranchInv w) {taskId : TaskId} {claim : BranchClaim}
    (h : resumeReviewSelectedTask w taskId = some claim) :
    claim.branch = resolveHubTaskBranch taskId claim.title := by
  rw [resumeReviewSelectedTask] at h
  cases htask : w.tasks taskId with
  | none =>
    rw [htask] at h
    cases h
  | some task =>
    rw [htask] at h
    dsimp only at h
    split at h
    · rw [Option.filter_eq_some_iff] at h
      exact hinv.claim taskId task claim htask h.1
    · cases h

theorem BranchInv.progress (h : BranchInv w) (branch : String) (committed : Bool) :
    BranchInv (w.progress branch committed) := by
  cases hlease : w.leases branch with
  | none =>
    rw [AttemptWorld.progress, hlease]
    exact h
  | some attempt =>
    have hown := h.lease branch attempt hlease
    rw [AttemptWorld.progress, hlease]
    cases committed with
    | true =>
      refine ⟨h.claim, h.lease, ?_⟩
      intro other left hwork
      by_cases hsame : other = branch
      · subst hsame
        rcases hwork with hcommit | hleft
        · have hmem : left = attempt ∨ left ∈ w.commits other := by simpa using hcommit
          rcases hmem with rfl | hmem
          · exact hown
          · exact h.work other left (Or.inl hmem)
        · exact h.work other left (Or.inr hleft)
      · refine h.work other left ?_
        simpa [AttemptWorld.Holds, Function.update_of_ne hsame] using hwork
    | false =>
      refine ⟨h.claim, h.lease, ?_⟩
      intro other left hwork
      by_cases hsame : other = branch
      · subst hsame
        rcases hwork with hcommit | hleft
        · exact h.work other left (Or.inl hcommit)
        · have hmem : left = attempt ∨ left ∈ (w.worktrees other).getD [] := by simpa using hleft
          rcases hmem with rfl | hmem
          · exact hown
          · exact h.work other left (Or.inr hmem)
      · refine h.work other left ?_
        simpa [AttemptWorld.Holds, Function.update_of_ne hsame] using hwork

theorem holds_of_update_nil {branch other : String} {attempt : Attempt}
    (h : attempt ∈ Function.update w.commits branch [] other) : attempt ∈ w.commits other := by
  by_cases hsame : other = branch
  · subst hsame
    rw [Function.update_self] at h
    cases h
  · rwa [Function.update_of_ne hsame] at h

theorem BranchInv.merge (h : BranchInv w) (taskId : TaskId) : BranchInv (w.merge taskId) := by
  rw [AttemptWorld.merge]
  cases htask : w.tasks taskId with
  | none => exact h
  | some task =>
    dsimp only
    split
    · have hdone : BranchInv (w.modifyTask taskId fun task => { task with hubStatus := .done }) :=
        h.modifyTask fun _ _ hclaim => Or.inl hclaim
      rw [AttemptWorld.modifyTask, htask] at hdone
      refine ⟨hdone.claim, h.lease, ?_⟩
      rintro branch attempt (hcommit | hleft)
      · exact h.work branch attempt (Or.inl (holds_of_update_nil hcommit))
      · exact h.work branch attempt (Or.inr hleft)
    · exact h

theorem BranchInv.discard (h : BranchInv w) (branch : String) : BranchInv (w.discard branch) := by
  refine ⟨h.claim, h.lease, ?_⟩
  rintro other attempt (hcommit | hleft)
  · exact h.work other attempt (Or.inl (holds_of_update_nil hcommit))
  · refine h.work other attempt (Or.inr ?_)
    by_cases hsame : other = branch
    · subst hsame
      simp [AttemptWorld.discard] at hleft
    · simpa [AttemptWorld.discard, Function.update_of_ne hsame] using hleft

theorem BranchInv.stop (h : BranchInv w) (branch : String) : BranchInv (w.stop branch) := by
  refine ⟨h.claim, ?_, h.work⟩
  intro other attempt hlease
  by_cases hsame : other = branch
  · subst hsame
    simp [AttemptWorld.stop] at hlease
  · refine h.lease other attempt ?_
    simpa [AttemptWorld.stop, Function.update_of_ne hsame] using hlease

theorem BranchInv.step (h : BranchInv w) (action : TaskAction) : BranchInv (w.step action) := by
  cases action with
  | create taskId task =>
    rw [AttemptWorld.step]
    split
    · exact h
    · refine ⟨?_, h.lease, h.work⟩
      intro other record claim hrecord hclaim
      replace hrecord : Function.update w.tasks taskId (some { task with claim := none }) other =
        some record := hrecord
      by_cases hsame : other = taskId
      · subst hsame
        rw [Function.update_self] at hrecord
        obtain rfl := Option.some.inj hrecord
        cases hclaim
      · rw [Function.update_of_ne hsame] at hrecord
        exact h.claim other record claim hrecord hclaim
  | edit taskId title => exact h.modifyTask fun _ _ hclaim => Or.inl hclaim
  | pull taskId issue =>
    refine h.modifyTask fun task claim hclaim => Or.inl ?_
    rwa [refreshLinkedGithubIssue_claim] at hclaim
  | sync taskId state => exact h.modifyTask fun _ _ hclaim => Or.inl hclaim
  | move taskId status keepClaim =>
    refine h.modifyTask fun task claim hclaim => Or.inl ?_
    cases keepClaim with
    | true => exact hclaim
    | false => cases hclaim
  | implement taskId =>
    rw [AttemptWorld.step]
    cases hstart : implementSelectedTask w taskId with
    | none => exact h
    | some claim =>
      obtain ⟨-, -, -, hbranch, -⟩ := implementSelectedTask_claim hstart
      exact h.begin hbranch .implementing
  | resumeReview taskId =>
    rw [AttemptWorld.step]
    cases hstart : resumeReviewSelectedTask w taskId with
    | none => exact h
    | some claim => exact h.begin (resumeReviewSelectedTask_claim h hstart) .reviewing
  | progress branch committed => exact h.progress branch committed
  | stop branch => exact h.stop branch
  | merge taskId => exact h.merge taskId
  | discard branch => exact h.discard branch

end

theorem branchInv_after (actions : List TaskAction) : BranchInv (afterActions actions) := by
  have hrun : ∀ w, BranchInv w → BranchInv (actions.foldl AttemptWorld.step w) := by
    induction actions with
    | nil => exact fun _ h => h
    | cons action actions ih => exact fun w h => ih _ (h.step action)
  refine hrun {} ⟨?_, ?_, ?_⟩
  · intro taskId task claim htask
    cases htask
  · intro branch attempt hlease
    cases hlease
  · rintro branch attempt (hcommit | hleft)
    · cases hcommit
    · cases hleft

/-! ### The attempts keep to their branch -/

/-- In a run, an implementation that starts works on the one branch that has the work of its task,
finds the worktree that an earlier attempt has left work in, and finds no work of another task. -/
def AttemptsKept (actions : List TaskAction) : Prop :=
  ∀ before taskId claim, before ++ [.implement taskId] <+: actions →
    implementSelectedTask (afterActions before) taskId = some claim →
    (∀ branch attempt, (afterActions before).Holds branch attempt → attempt.taskId = taskId →
      branch = claim.branch) ∧
    (∀ attempt, (afterActions before).Holds claim.branch attempt → attempt.taskId = taskId) ∧
    ∀ branch attempt, attempt ∈ ((afterActions before).worktrees branch).getD [] →
      attempt.taskId = taskId →
      prepareHubTaskRetry (afterActions before) claim.branch = .ready true true

/-- In a run, an implementation starts only while the title of the task has the slug that it had
for all attempts whose work is still there, and no work is there of a task whose name can be read as
that of this one. -/
def TitlesKept (actions : List TaskAction) : Prop :=
  ∀ before taskId claim, before ++ [.implement taskId] <+: actions →
    implementSelectedTask (afterActions before) taskId = some claim →
    ∀ branch attempt, (afterActions before).Holds branch attempt →
      if attempt.taskId = taskId then titleSlug attempt.title = titleSlug claim.title
      else ¬SameName attempt.taskId attempt.title taskId claim.title

theorem attemptsKept_iff (actions : List TaskAction) :
    AttemptsKept actions ↔ TitlesKept actions := by
  constructor
  · intro h before taskId claim hprefix hstart branch attempt hwork
    have hinv := branchInv_after before
    obtain ⟨-, -, -, hclaim, -⟩ := implementSelectedTask_claim hstart
    obtain ⟨hown, hothers, -⟩ := h before taskId claim hprefix hstart
    have hbranch := hinv.work branch attempt hwork
    split
    · rename_i hsame
      have hsameBranch := hown branch attempt hwork hsame
      rw [hbranch, hclaim, hsame, resolveHubTaskBranch_eq_iff_slug] at hsameBranch
      exact hsameBranch
    · rename_i hne
      rw [← resolveHubTaskBranch_eq_iff, ← hbranch, ← hclaim]
      intro hsameBranch
      rw [hsameBranch] at hwork
      exact hne (hothers attempt hwork)
  · intro h before taskId claim hprefix hstart
    have hinv := branchInv_after before
    obtain ⟨-, -, -, hclaim, hlease⟩ := implementSelectedTask_claim hstart
    have hown : ∀ branch attempt, (afterActions before).Holds branch attempt →
        attempt.taskId = taskId → branch = claim.branch := by
      intro branch attempt hwork hsame
      have hslug := h before taskId claim hprefix hstart branch attempt hwork
      rw [if_pos hsame, ← resolveHubTaskBranch_eq_iff_slug taskId] at hslug
      rw [hinv.work branch attempt hwork, hclaim, hsame, hslug]
    refine ⟨hown, ?_, ?_⟩
    · intro attempt hwork
      by_contra hne
      have hname := h before taskId claim hprefix hstart claim.branch attempt hwork
      rw [if_neg hne, ← resolveHubTaskBranch_eq_iff, ← hinv.work claim.branch attempt hwork] at hname
      exact hname hclaim
    · intro branch attempt hleft hsame
      obtain rfl := hown branch attempt (Or.inr hleft) hsame
      rw [prepareHubTaskRetry, hlease]
      cases hworktree : (afterActions before).worktrees claim.branch with
      | none =>
        rw [hworktree] at hleft
        cases hleft
      | some left =>
        rw [hworktree] at hleft
        have hdirty : left ≠ [] := List.ne_nil_of_mem hleft
        simp [hdirty]

/-- Which tasks get the same branch, which ids give a branch that git accepts, and in which runs the
attempts keep to their branch. -/
theorem taskBranch_iff (taskId : TaskId) (title : String) (taskId' : TaskId) (title' : String)
    (actions : List TaskAction) :
    (resolveHubTaskBranch taskId title = resolveHubTaskBranch taskId' title' ↔
      SameName taskId title taskId' title') ∧
    (ValidBranchName (resolveHubTaskBranch taskId title).toList ↔ DotsApart taskId) ∧
    (AttemptsKept actions ↔ TitlesKept actions) :=
  ⟨resolveHubTaskBranch_eq_iff taskId title taskId' title', validBranchName_iff taskId title,
    attemptsKept_iff actions⟩

/-! ### Sample -/

/-- The first attempt at a task leaves a commit and fails, and the task is made ready again. -/
def firstAttempt : List TaskAction :=
  [.create "bd-1" { title := "Fix login", hubStatus := .readyForAgent }, .implement "bd-1",
    .progress "archloop/bd-1-fix-login" true, .stop "archloop/bd-1-fix-login",
    .move "bd-1" .failed true, .move "bd-1" .readyForAgent false]

/-- Two ids get one branch. And a task whose title is edited after an attempt is implemented on
another branch than that of its commit. -/
theorem editedTitle_leaves_work :
    resolveHubTaskBranch "bd-1" "2 Fix login" = resolveHubTaskBranch "bd-1-2" "Fix login" ∧
      ¬AttemptsKept (firstAttempt ++ [.edit "bd-1" "Fix sign-in", .implement "bd-1"]) := by
  refine ⟨by decide +kernel, fun h => ?_⟩
  have hwork : (afterActions (firstAttempt ++ [.edit "bd-1" "Fix sign-in"])).Holds
      "archloop/bd-1-fix-login" { taskId := "bd-1", title := "Fix login" } :=
    Or.inl (by decide +kernel)
  have hstart : implementSelectedTask (afterActions (firstAttempt ++ [.edit "bd-1" "Fix sign-in"]))
      "bd-1" = some { branch := "archloop/bd-1-fix-sign-in", title := "Fix sign-in" } := by
    decide +kernel
  have hprefix : (firstAttempt ++ [.edit "bd-1" "Fix sign-in"]) ++ [.implement "bd-1"] <+:
      firstAttempt ++ [.edit "bd-1" "Fix sign-in", .implement "bd-1"] := by
    decide +kernel
  have hbranch := (h _ _ _ hprefix hstart).1 _ _ hwork rfl
  exact absurd hbranch (by decide)

end ArchLoop.TaskAttempts
