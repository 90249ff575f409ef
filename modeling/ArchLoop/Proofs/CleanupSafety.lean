import ArchLoop.Proofs.HandleLeases

/-!
# `ArchLoop.Proofs.CleanupSafety`: what a cleanup removes

A worktree directory should only be removed when `git status` in that very directory has
succeeded and has listed nothing (`RemovesOnlyClean`). The answers of git are arbitrary here, and
those of its two listings are independent: a worktree that is registered or created between them
is among the answers.

`cleanupWorktree` and `close` of a handle take a check that fails for one that found nothing, and
`pruneStale` makes no check (`removesOnlyClean_iff`).
-/

set_option autoImplicit false

namespace ArchLoop

open ArchLoop.Lib

variable {ι : Type}

/-! ### Statement -/

inductive CleanupCall where
  | cleanup
  | close (kind : HandleKind)
  | pruneStale
  deriving DecidableEq, Repr

section
variable [DecidableEq ι]

/-- The state that a call leaves. The first two are about the worktree at `worktreePath`. -/
def execCleanup (call : CleanupCall) (caller : LeaseCaller ι) (options : HandleOptions)
    (run : HandleRun) (worktreePath : String) (s : LeaseWorld ι × HandleFlags) :
    LeaseWorld ι × HandleFlags :=
  match call with
  | .cleanup => (onRepository (cleanupWorktree { git := run.git } worktreePath)).exec s
  | .close kind => (closeHandle kind caller options run worktreePath).exec s
  | .pruneStale => (onRepository (pruneStale run.git options.hostRepoDir)).exec s

/-- Git's answer to the status check that a call makes of a directory, if it makes one. -/
def statusCheck (call : CleanupCall) (run : HandleRun) (directory name : String) :
    Option (Except String String) :=
  if call ≠ .pruneStale ∧ name = directory then some run.git.statusAfter else none

/-- Each directory that the call removes was checked and is clean. The worktree at
`worktreePath` is `directory`. -/
def RemovesOnlyClean (call : CleanupCall) (caller : LeaseCaller ι) (options : HandleOptions)
    (run : HandleRun) (worktreePath directory : String)
    (s : LeaseWorld ι × HandleFlags) : Prop :=
  ∀ name, s.1.worktrees name = true →
    (execCleanup call caller options run worktreePath s).1.worktrees name = false →
    ∃ output, statusCheck call run directory name = some (.ok output) ∧
      hasUncommittedChanges (.ok output) = .ok false

end

/-- A directory that `pruneStale` takes for an orphan. -/
def isOrphan (git : WorktreeGit) (active : List String) (worktrees : String → Bool)
    (entry : String) : Bool :=
  worktrees entry && !active.contains (git.realWorktreesDir ++ "/" ++ entry)

/-- The first orphan of the listings, when `pruneStale` comes as far as to its loop. -/
def firstOrphan (git : WorktreeGit) (worktrees : String → Bool) : Option String :=
  match git.prune, git.entries, git.pruneList with
  | .ok _, .ok (some entries), .ok output =>
    entries.find? (isOrphan git (activeWorktreePaths output) worktrees)
  | _, _, _ => none

/-- The check of the worktree fails, and its removal does not. -/
def removesUnchecked (run : HandleRun) (directory : String) (worktrees : String → Bool) : Bool :=
  worktrees directory && !run.git.statusAfter.isOk &&
    !run.git.remove.worktrees worktrees directory

/-- A directory is removed without a check that has succeeded: the handle is open and its
provider closes, or the first orphan can be removed. -/
def losesWork (call : CleanupCall) (run : HandleRun) (directory : String)
    (worktrees : String → Bool) (flags : HandleFlags) : Bool :=
  match call with
  | .cleanup => removesUnchecked run directory worktrees
  | .close kind =>
    !flags.closed && !closeFails kind run && removesUnchecked run directory worktrees
  | .pruneStale =>
    (firstOrphan run.git worktrees).any fun entry =>
      (run.git.removeDirectory (run.git.realWorktreesDir ++ "/" ++ entry)).isOk

/-! ### The loop of `pruneStale` -/

section
variable {git : WorktreeGit} {active entries : List String} {worktrees : String → Bool}

theorem removeOrphans_missing {name : String} (h : worktrees name = false) :
    (removeOrphans git active entries worktrees).2 name = false := by
  induction entries generalizing worktrees with
  | nil => exact h
  | cons entry entries ih =>
    rw [removeOrphans]
    split
    · split
      · apply ih
        by_cases heq : name = entry
        · rw [heq, Function.update_self]
        · rw [Function.update_of_ne heq, h]
      · exact h
    · exact ih h

theorem removeOrphans_none (h : entries.find? (isOrphan git active worktrees) = none) :
    (removeOrphans git active entries worktrees).2 = worktrees := by
  induction entries with
  | nil => rfl
  | cons entry entries ih =>
    rw [List.find?_cons] at h
    rw [removeOrphans]
    cases horphan : isOrphan git active worktrees entry with
    | true =>
      rw [horphan] at h
      cases h
    | false =>
      rw [horphan] at h
      rw [isOrphan] at horphan
      rw [horphan, if_neg Bool.false_ne_true]
      exact ih h

theorem removeOrphans_some {entry : String}
    (h : entries.find? (isOrphan git active worktrees) = some entry) :
    if (git.removeDirectory (git.realWorktreesDir ++ "/" ++ entry)).isOk then
      (removeOrphans git active entries worktrees).2 entry = false
    else (removeOrphans git active entries worktrees).2 = worktrees := by
  induction entries with
  | nil => cases h
  | cons first entries ih =>
    rw [List.find?_cons] at h
    rw [removeOrphans]
    cases horphan : isOrphan git active worktrees first with
    | true =>
      rw [horphan] at h
      obtain rfl : first = entry := Option.some.inj h
      rw [isOrphan] at horphan
      rw [horphan, if_pos rfl]
      cases hremove : git.removeDirectory (git.realWorktreesDir ++ "/" ++ first) with
      | ok a =>
        show (removeOrphans git active entries (Function.update worktrees first false)).2 first =
          false
        exact removeOrphans_missing (Function.update_self ..)
      | error message =>
        show worktrees = worktrees
        rfl
    | false =>
      rw [horphan] at h
      rw [isOrphan] at horphan
      rw [horphan, if_neg Bool.false_ne_true]
      exact ih h

theorem pruneDirectories_none (h : firstOrphan git worktrees = none) :
    (pruneDirectories git worktrees).2 = worktrees := by
  unfold firstOrphan at h
  unfold pruneDirectories
  cases hprune : git.prune with
  | error message => rfl
  | ok a =>
    cases hentries : git.entries with
    | error message => rfl
    | ok entries =>
      cases entries with
      | none => rfl
      | some entries =>
        cases hlist : git.pruneList with
        | error message => rfl
        | ok output =>
          rw [hprune, hentries, hlist] at h
          exact removeOrphans_none h

theorem pruneDirectories_some {entry : String} (h : firstOrphan git worktrees = some entry) :
    worktrees entry = true ∧
      if (git.removeDirectory (git.realWorktreesDir ++ "/" ++ entry)).isOk then
        (pruneDirectories git worktrees).2 entry = false
      else (pruneDirectories git worktrees).2 = worktrees := by
  unfold firstOrphan at h
  unfold pruneDirectories
  split at h
  · rename_i a entries output hprune hentries hlist
    rw [hprune, hentries, hlist]
    have horphan := List.find?_some h
    rw [isOrphan, Bool.and_eq_true] at horphan
    exact ⟨horphan.1, removeOrphans_some h⟩
  · cases h

end

/-! ### The lock files of a prune -/

theorem allowsRemoval_sameWorktrees :
    AllowsRemoval fun s t : LeaseWorld ι => t.worktrees = s.worktrees where
  read _ _ := rfl
  unlink _ _ := rfl

abbrev IsMalformed (error : WorktreeLeaseError) : Prop := error.reason = .malformed

theorem ends_leaseStep {α : Type} {E : WorktreeLeaseError → Prop} (op : LeaseOp)
    (upd : LeaseWorld ι → LeaseWorld ι) (answer : LeaseWorld ι → α) :
    Prog.Ends (fun _ => True) E (leaseStep op upd answer) :=
  fun _ => trivial

theorem ends_ofExcept_parse (text : Option LeaseRecord) (repoDir branch : String)
    (requireBranchMatch : Bool) :
    Prog.Ends (fun _ => True) IsMalformed
      (ofExcept (ι := ι) (parseLeaseMetadata text repoDir branch requireBranchMatch)) := by
  unfold parseLeaseMetadata
  split
  · rfl
  · split
    · rfl
    · split
      · rfl
      · trivial

theorem ends_readLeaseMetadata (repoDir branch : String) :
    Prog.Ends (fun _ => True) IsMalformed (readLeaseMetadata (ι := ι) repoDir branch) := by
  refine Prog.ends_bind (ends_leaseStep _ _ _) fun raw _ => ?_
  cases raw with
  | none => rfl
  | some text => exact ends_ofExcept_parse text repoDir branch true

theorem ends_recover (repoDir branch : String) :
    Prog.Ends (fun _ => True) IsMalformed
      (recoverStaleWorktreeLeaseIfNeeded (ι := ι) repoDir branch) := by
  refine Prog.ends_bind (ends_leaseStep _ _ _) fun found _ => ?_
  cases found with
  | false => trivial
  | true =>
    refine Prog.ends_bind (ends_leaseStep _ _ _) fun worktree _ => ?_
    cases worktree with
    | false => exact Prog.ends_bind (ends_leaseStep _ _ _) fun _ _ => trivial
    | true =>
      refine Prog.ends_bind (ends_readLeaseMetadata repoDir branch) fun metadata _ => ?_
      refine Prog.ends_bind (ends_leaseStep _ _ _) fun alive _ => ?_
      cases alive with
      | true => trivial
      | false => exact Prog.ends_bind (ends_leaseStep _ _ _) fun _ _ => trivial

theorem ends_forEntries {E : WorktreeLeaseError → Prop} {body : String → LeaseProg ι Unit}
    (h : ∀ entry, Prog.Ends (fun _ => True) E (body entry)) (entries : List String) :
    Prog.Ends (fun _ => True) E (forEntries body entries) := by
  induction entries with
  | nil => trivial
  | cons entry entries ih => exact Prog.ends_bind (h entry) fun _ _ => ih

theorem ends_pruneOrphanEntry {E : WorktreeLeaseError → Prop} (entry : String) :
    Prog.Ends (fun _ => True) E (pruneOrphanEntry (ι := ι) entry) := by
  unfold pruneOrphanEntry
  split
  · trivial
  · refine Prog.ends_bind (ends_leaseStep _ _ _) fun worktree _ => ?_
    cases worktree with
    | false => exact ends_leaseStep _ _ _
    | true => trivial

theorem ends_pruneStaleEntry {E : WorktreeLeaseError → Prop} (repoDir entry : String) :
    Prog.Ends (fun _ => True) E (pruneStaleEntry (ι := ι) repoDir entry) := by
  unfold pruneStaleEntry
  split
  · trivial
  · refine Prog.ends_bind (ends_leaseStep _ _ _) fun raw _ => ?_
    split
    · trivial
    · split
      · trivial
      · refine Prog.ends_tryCatch
          (Prog.ends_bind (ends_recover _ _) fun _ _ => trivial) fun error herror => ?_
        rw [if_pos herror]
        trivial

theorem ends_pruneStaleWorktreeLeases (repoDir : String) :
    Prog.Ends (fun _ => True) (fun _ => False) (pruneStaleWorktreeLeases (ι := ι) repoDir) := by
  refine Prog.ends_bind (Prog.ends_bind (ends_leaseStep _ _ _) fun entries _ =>
    ends_forEntries ends_pruneOrphanEntry entries) fun _ _ => ?_
  exact Prog.ends_bind (ends_leaseStep _ _ _) fun entries _ =>
    ends_forEntries (ends_pruneStaleEntry repoDir) entries

theorem exec_pruneStale (git : WorktreeGit) (repoDir : String) (s : LeaseWorld ι) :
    ((pruneStale git repoDir).exec s).worktrees = (pruneDirectories git s.worktrees).2 := by
  have hsame := (always_pruneStaleWorktreeLeases allowsRemoval_sameWorktrees repoDir).run
    (fun _ => rfl) (fun _ _ _ hab hbc => hbc.trans hab) s
  rw [Prog.exec, pruneStale, Prog.run_bind, Prog.run_mapError]
  cases hrun : (pruneStaleWorktreeLeases repoDir).run s with
  | mk result t =>
    rw [hrun] at hsame
    cases result with
    | error e => exact ((ends_pruneStaleWorktreeLeases repoDir).run_error hrun).elim
    | ok a =>
      show ((Prog.act _ _ : SandboxProg ι Unit).run t).2.worktrees = _
      rw [Prog.run_act, ← hsame]
      cases (pruneDirectories git t.worktrees).1 with
      | ok b => rfl
      | error message => rfl

/-! ### The check before a removal -/

/-- The directories after the check of a worktree and its removal. -/
def cleanedWorktrees (git : WorktreeGit) (worktrees : String → Bool) : String → Bool :=
  match hasUncommittedChanges git.statusAfter with
  | .ok true => worktrees
  | _ => git.remove.worktrees worktrees

/-- A check of a worktree has one of two outcomes: it is dirty and stays, or its removal is
tried. -/
theorem cleaned_cases (git : WorktreeGit) :
    (hasUncommittedChanges git.statusAfter = .ok true ∧
      ∀ worktrees, cleanedWorktrees git worktrees = worktrees) ∨
    (hasUncommittedChanges git.statusAfter ≠ .ok true ∧
      ∀ worktrees, cleanedWorktrees git worktrees = git.remove.worktrees worktrees) := by
  unfold cleanedWorktrees
  split
  · rename_i h
    exact Or.inl ⟨h, fun _ => rfl⟩
  · rename_i h
    exact Or.inr ⟨h, fun _ => rfl⟩

theorem exec_cleanupWorktree (git : WorktreeGit) (path : String) (s : LeaseWorld ι) :
    ((cleanupWorktree { git := git } path).exec s).worktrees =
      cleanedWorktrees git s.worktrees := by
  unfold cleanupWorktree
  rcases cleaned_cases git with ⟨hdirty, hcleaned⟩ | ⟨hdirty, hcleaned⟩
  · rw [hcleaned, hdirty]
    rfl
  · rw [hcleaned]
    dsimp only
    split
    · exact absurd (by assumption) hdirty
    · rw [Prog.exec, Prog.run_bind, run_outsideStep]
      cases git.remove.answer with
      | ok a => rfl
      | error e => rfl

section
variable [DecidableEq ι]

theorem keepsWorktrees_releaseHeldLease (caller : LeaseCaller ι) (config : SandboxConfig) :
    Prog.Keeps (fun s => s.1.worktrees) (releaseHeldLease caller config) := by
  refine Prog.always_bind (fun s => ⟨rfl, trivial⟩) fun held => ?_
  cases held with
  | false => trivial
  | true =>
    refine Prog.always_bind (fun s => ⟨rfl, trivial⟩) fun _ => ?_
    exact fun s => ⟨rfl, trivial⟩

variable {caller : LeaseCaller ι} {options : HandleOptions} {run : HandleRun}
  {s : LeaseWorld ι} {flags : HandleFlags}

theorem exec_closeWorktreeOf (path : String) :
    ((closeWorktreeOf caller options run path).exec (s, flags)).1.worktrees =
      cleanedWorktrees run.git s.worktrees := by
  have hrelease : ∀ (t : LeaseWorld ι) (result : Option String),
      (((releaseHeldLease caller options.toConfig).bind fun _ => .ret result).exec
        (t, flags)).1.worktrees = t.worktrees := by
    intro t result
    have hkeeps : Prog.Keeps (fun s => s.1.worktrees)
        ((releaseHeldLease caller options.toConfig).bind fun _ =>
          (.ret result : HandleProg ι (Option String))) :=
      Prog.always_bind (keepsWorktrees_releaseHeldLease caller options.toConfig) fun _ => trivial
    exact hkeeps.run (t, flags)
  unfold closeWorktreeOf
  rcases cleaned_cases run.git with ⟨hdirty, hcleaned⟩ | ⟨hdirty, hcleaned⟩
  · rw [hcleaned, hdirty]
    exact hrelease s _
  · rw [hcleaned]
    split
    · exact absurd (by assumption) hdirty
    · -- A removal that fails is ignored.
      rw [Prog.exec, Prog.run_bind, Prog.run_tryCatch, run_onRepository, run_outsideStep]
      cases run.git.remove.answer with
      | ok a => exact hrelease _ _
      | error e => exact hrelease _ _

theorem exec_closeHandle_worktrees (kind : HandleKind) (path : String)
    (hclose : ∀ worktrees, run.closeProvider.worktrees worktrees = worktrees) :
    ((closeHandle kind caller options run path).exec (s, flags)).1.worktrees =
      if flags.closed || closeFails kind run then s.worktrees
      else cleanedWorktrees run.git s.worktrees := by
  rw [closeHandle_eq]
  cases hclosed : flags.closed with
  | true =>
    rw [Prog.exec, run_closingAgain _ hclosed, Bool.true_or, if_pos rfl]
  | false =>
    rw [Prog.exec, run_closingOnce _ hclosed, Bool.false_or]
    cases kind with
    | worktree =>
      exact exec_closeWorktreeOf path
    | sandbox =>
      rw [closeBody, Prog.run_bind, run_onRepository, run_outsideStep, hclose]
      cases hanswer : run.closeProvider.answer with
      | error e =>
        rw [closeFails, hanswer]
        rfl
      | ok a =>
        rw [closeFails, hanswer]
        exact exec_closeWorktreeOf path

/-! ### Which calls lose work -/

variable {directory : String} {worktrees : String → Bool}

/-- A directory that the check of a worktree and its removal removes is clean, exactly when the
check does not fail before a removal that succeeds. -/
theorem cleaned_onlyClean_iff
    (hremove : ∀ worktrees name, name ≠ directory →
      run.git.remove.worktrees worktrees name = worktrees name) :
    (∀ name, worktrees name = true → cleanedWorktrees run.git worktrees name = false →
      ∃ output, (if name = directory then some run.git.statusAfter else none) =
          some (.ok output) ∧ hasUncommittedChanges (.ok output) = .ok false) ↔
      removesUnchecked run directory worktrees = false := by
  rcases cleaned_cases run.git with ⟨hdirty, hcleaned⟩ | ⟨hdirty, hcleaned⟩
  · rw [hcleaned]
    refine iff_of_true (fun name hthere hgone => ?_) ?_
    · rw [hthere] at hgone
      cases hgone
    · cases hstatus : run.git.statusAfter with
      | ok output => simp [removesUnchecked, hstatus, Except.isOk, Except.toBool]
      | error message =>
        rw [hstatus] at hdirty
        cases hdirty
  · rw [hcleaned]
    constructor
    · intro h
      rw [Bool.eq_false_iff]
      intro hloses
      simp only [removesUnchecked, Bool.and_eq_true, Bool.not_eq_true'] at hloses
      obtain ⟨⟨hthere, hfailed⟩, hgone⟩ := hloses
      obtain ⟨output, houtput, -⟩ := h directory hthere hgone
      rw [if_pos rfl] at houtput
      rw [Option.some.inj houtput] at hfailed
      cases hfailed
    · intro h name hthere hgone
      have hname : name = directory := by
        by_contra hne
        rw [hremove worktrees name hne, hthere] at hgone
        cases hgone
      subst hname
      cases hstatus : run.git.statusAfter with
      | error message =>
        simp [removesUnchecked, hthere, hgone, hstatus, Except.isOk, Except.toBool] at h
      | ok output =>
        refine ⟨output, if_pos rfl, ?_⟩
        rw [hstatus] at hdirty
        cases hcheck : decide (trim output ≠ "") with
        | true => exact absurd (congrArg Except.ok hcheck) hdirty
        | false => exact congrArg Except.ok hcheck

theorem removesOnlyClean_of_same {call : CleanupCall} {path : String}
    (h : (execCleanup call caller options run path (s, flags)).1.worktrees = s.worktrees) :
    RemovesOnlyClean call caller options run path directory (s, flags) := by
  intro name hthere hgone
  rw [h, hthere] at hgone
  cases hgone

/-- **Cleanup and uncommitted work.** A call removes only directories whose check has succeeded
and has listed nothing, exactly when it is not a `cleanupWorktree` or `close` that comes to a
failing check and removes the worktree, nor a `pruneStale` that removes its first orphan. -/
theorem removesOnlyClean_iff (call : CleanupCall) (path : String)
    (hremove : ∀ worktrees name, name ≠ directory →
      run.git.remove.worktrees worktrees name = worktrees name)
    (hclose : ∀ worktrees, run.closeProvider.worktrees worktrees = worktrees) :
    RemovesOnlyClean call caller options run path directory (s, flags) ↔
      losesWork call run directory s.worktrees flags = false := by
  cases call with
  | cleanup =>
    have hafter : (execCleanup .cleanup caller options run path (s, flags)).1.worktrees =
        cleanedWorktrees run.git s.worktrees := by
      rw [execCleanup, Prog.exec, run_onRepository]
      exact exec_cleanupWorktree run.git path s
    unfold RemovesOnlyClean
    rw [hafter]
    simpa [statusCheck, losesWork] using cleaned_onlyClean_iff hremove
  | close kind =>
    have hafter : (execCleanup (.close kind) caller options run path (s, flags)).1.worktrees =
        if flags.closed || closeFails kind run then s.worktrees
        else cleanedWorktrees run.git s.worktrees := exec_closeHandle_worktrees kind path hclose
    have hloses : losesWork (.close kind) run directory s.worktrees flags =
        (!(flags.closed || closeFails kind run) &&
          removesUnchecked run directory s.worktrees) := by
      rw [Bool.not_or]
      rfl
    rw [hloses]
    cases hidle : flags.closed || closeFails kind run with
    | true =>
      rw [hidle, if_pos rfl] at hafter
      exact iff_of_true (removesOnlyClean_of_same hafter) rfl
    | false =>
      rw [hidle, if_neg Bool.false_ne_true] at hafter
      unfold RemovesOnlyClean
      rw [hafter]
      simpa [statusCheck] using cleaned_onlyClean_iff hremove
  | pruneStale =>
    have hafter : (execCleanup .pruneStale caller options run path (s, flags)).1.worktrees =
        (pruneDirectories run.git s.worktrees).2 := by
      rw [execCleanup, Prog.exec, run_onRepository]
      exact exec_pruneStale run.git options.hostRepoDir s
    cases horphan : firstOrphan run.git s.worktrees with
    | none =>
      refine iff_of_true (removesOnlyClean_of_same ?_) ?_
      · rw [hafter, pruneDirectories_none horphan]
      · rw [losesWork, horphan]
        rfl
    | some entry =>
      obtain ⟨hthere, hremoved⟩ := pruneDirectories_some horphan
      have hloses : losesWork .pruneStale run directory s.worktrees flags =
          (run.git.removeDirectory (run.git.realWorktreesDir ++ "/" ++ entry)).isOk := by
        rw [losesWork, horphan]
        rfl
      rw [hloses]
      split at hremoved
      · -- No check is made of the orphan.
        rename_i hok
        rw [hok]
        refine iff_of_false (fun h => ?_) Bool.noConfusion
        obtain ⟨output, hcheck, -⟩ := h entry hthere (by rw [hafter]; exact hremoved)
        rw [statusCheck, if_neg (fun hne => hne.1 rfl)] at hcheck
        cases hcheck
      · rename_i hfails
        rw [Bool.not_eq_true] at hfails
        refine iff_of_true (removesOnlyClean_of_same ?_) hfails
        rw [hafter, hremoved]

end

/-! ### A worktree on the branch `b` -/

def removeSampleWorktree : OutsideStep where
  worktrees := fun worktrees => Function.update worktrees "b" false

def cleanHandleRun : HandleRun where
  git :=
    { realWorktreesDir := "/repo/.archloop/worktrees"
      remove := removeSampleWorktree }

def uncheckedHandleRun : HandleRun where
  git :=
    { realWorktreesDir := "/repo/.archloop/worktrees"
      statusAfter := .error "fatal: unable to read index"
      remove := removeSampleWorktree }

/-- Closing the handle on the clean worktree. -/
theorem removesOnlyClean_iff_sample :
    RemovesOnlyClean (.close .worktree) sampleCaller sampleHandleOptions cleanHandleRun
      "/repo/.archloop/worktrees/b" "b" (sampleRepository true, { held := true }) := by
  have hremove : ∀ (worktrees : String → Bool) (name : String), name ≠ "b" →
      cleanHandleRun.git.remove.worktrees worktrees name = worktrees name := by
    intro worktrees name hne
    show Function.update worktrees "b" false name = worktrees name
    rw [Function.update_of_ne hne]
  exact (removesOnlyClean_iff (.close .worktree) _ hremove fun _ => rfl).mpr (by decide)

/-- Closing the handle on the other one removes it. -/
theorem uncheckedClose_losesWork :
    ¬ RemovesOnlyClean (.close .worktree) sampleCaller sampleHandleOptions uncheckedHandleRun
      "/repo/.archloop/worktrees/b" "b" (sampleRepository true, { held := true }) := by
  intro h
  obtain ⟨output, hcheck, -⟩ := h "b" (by decide) (by decide)
  cases hcheck

end ArchLoop
