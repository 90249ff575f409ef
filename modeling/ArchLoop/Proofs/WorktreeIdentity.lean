import ArchLoop.SandboxFactory

/-!
# `ArchLoop.Proofs.WorktreeIdentity`: which branch a worktree is for

The worktree that `create` returns for a branch should be on that branch, or in the middle of a
rebase of it, and two branches should share neither a worktree nor a lease file (`OneToOne`).

The directory and the lock file are named after the branch with its slashes replaced, and a
worktree under that name is reused whatever it is on. `oneToOne_iff` says when this is harmless:
the branches in use have different names, and no call finds a worktree of something else.

A `Registration` is what git knows about a worktree, and `porcelain` is what
`git worktree list --porcelain` prints about it. Between the calls the worktrees stay as they
are: two branches may share a path one after the other when somebody switches the branch there.
-/

set_option autoImplicit false

namespace ArchLoop

open ArchLoop.Lib

/-! ### Worktrees -/

inductive RegisteredHead where
  | branch (name : String)
  | rebasing (name : String)
  | detached
  deriving DecidableEq, Repr

/-- A registered worktree. It is stale when its directory is not `present`. -/
structure Registration where
  path : String
  commit : String := ""
  head : RegisteredHead
  present : Bool := true
  deriving DecidableEq, Repr

namespace Registration

/-- The line about the head. A worktree in the middle of a rebase is detached. -/
def headLine (registration : Registration) : String :=
  match registration.head with
  | .branch name => "branch refs/heads/" ++ name
  | .rebasing _ => "detached"
  | .detached => "detached"

def lines (registration : Registration) : List String :=
  ["worktree " ++ registration.path, "HEAD " ++ registration.commit, registration.headLine] ++
    (if registration.present then []
      else ["prunable gitdir file points to non-existent location"]) ++ [""]

/-- The worktree is on the branch, or in the middle of a rebase of it. -/
def isOn (registration : Registration) (branch : String) : Bool :=
  registration.present &&
    (registration.head = .branch branch || registration.head = .rebasing branch)

end Registration

/-- The output of `git worktree list --porcelain`. -/
def porcelain (layout : List Registration) : String :=
  unlines (layout.flatMap Registration.lines)

/-- The worktree at the path is on the branch, or in the middle of a rebase of it. -/
def worktreeIsOn (layout : List Registration) (path branch : String) : Bool :=
  layout.any fun registration => registration.path = path && registration.isOn branch

/-! ### Calls of `create` -/

/-- A call of `create` for a branch, with git's other answers. -/
structure CreateCall where
  branch : String
  git : WorktreeGit

/-- The answers to a call: the list shows the layout, and a path that is registered is not added
again. -/
def gitIn (repoDir : String) (layout : List Registration) (call : CreateCall) : WorktreeGit :=
  let path := call.git.realPath (worktreePathForBranch repoDir call.branch)
  let free : Except String Unit :=
    if layout.any (·.path = path) then .error ("fatal: '" ++ path ++ "' already exists")
    else .ok ()
  { call.git with
    list := call.git.list.map fun _ => porcelain layout
    add := free.bind fun _ => call.git.add
    addNew := free.bind fun _ => call.git.addNew }

/-- The answer of `create`. -/
def createIn (repoDir : String) (layout : List Registration) (call : CreateCall) :
    Except String (WorktreeInfo × Bool) :=
  createResult (gitIn repoDir layout call) repoDir call.branch

def layoutAfter (repoDir : String) (layout : List Registration) (call : CreateCall) :
    List Registration :=
  match createIn repoDir layout call with
  | .ok (info, true) => layout ++ [{ path := info.path, head := .branch call.branch }]
  | _ => layout

structure CreateStep where
  before : List Registration
  call : CreateCall

namespace CreateStep

variable (repoDir : String) (step : CreateStep)

def returned : Option String :=
  match createIn repoDir step.before step.call with
  | .ok (info, _) => some info.path
  | .error _ => none

def after : List Registration := layoutAfter repoDir step.before step.call

end CreateStep

def createSteps (repoDir : String) : List Registration → List CreateCall → List CreateStep
  | _, [] => []
  | layout, call :: calls =>
    { before := layout, call := call } ::
      createSteps repoDir (layoutAfter repoDir layout call) calls

/-! ### Statement -/

/-- Worktrees, leases and branches correspond one to one.

- `checkedOut`: the worktree that a call returns is on its branch.
- `paths`: two branches get different worktrees.
- `leases`: two branches have different lease files. -/
structure OneToOne (repoDir : String) (layout : List Registration) (calls : List CreateCall) :
    Prop where
  checkedOut : ∀ step ∈ createSteps repoDir layout calls, ∀ path,
    step.returned repoDir = some path →
      worktreeIsOn (step.after repoDir) path step.call.branch = true
  paths : ∀ step ∈ createSteps repoDir layout calls,
    ∀ other ∈ createSteps repoDir layout calls, ∀ path, step.returned repoDir = some path →
      other.returned repoDir = some path → step.call.branch = other.call.branch
  leases : ∀ call ∈ calls, ∀ other ∈ calls,
    branchLock call.branch = branchLock other.branch → call.branch = other.branch

/-- The call finds a managed worktree by its branch, by its path or by the end of its path, can
read its status, and the worktree is on something else. -/
def reusesForeign (repoDir : String) (step : CreateStep) : Bool :=
  let git := step.call.git
  let worktreesDir := repoDir ++ "/.archloop/worktrees"
  git.verifyHead.isOk && git.makeDirectory.isOk && git.list.isOk &&
    (findCollision git worktreesDir step.call.branch
        (listWorktrees (porcelain step.before))).any fun collision =>
      isUnderManagedWorktrees git worktreesDir collision.path &&
        (git.status collision.path).isOk &&
        !worktreeIsOn step.before collision.path step.call.branch

/-! ### What a call returns -/

section
variable {git : WorktreeGit} {repoDir branch : String}

theorem worktreePath_eq (repoDir branch : String) :
    repoDir ++ "/.archloop/worktrees" ++ "/" ++ leaseNameFromBranch branch =
      worktreePathForBranch repoDir branch := by
  have hjoin : repoDir ++ "/.archloop/worktrees" ++ "/" = repoDir ++ "/.archloop/worktrees/" := by
    rw [String.append_assoc]
    rfl
  rw [worktreePathForBranch, worktreePathForLeaseName, hjoin]

/-- How `create` returns: it reuses the managed worktree that it finds, or it finds none and adds
one. -/
theorem createResult_ok {info : WorktreeInfo} {new : Bool}
    (h : createResult git repoDir branch = .ok (info, new)) :
    git.verifyHead.isOk = true ∧ git.makeDirectory.isOk = true ∧ ∃ output,
      git.list = .ok output ∧
      if new then info.path = git.realPath (worktreePathForBranch repoDir branch) ∧
        (git.add.isOk = true ∨ git.addNew.isOk = true)
      else ∃ collision, findCollision git (repoDir ++ "/.archloop/worktrees") branch
          (listWorktrees output) = some collision ∧ info.path = collision.path ∧
        isUnderManagedWorktrees git (repoDir ++ "/.archloop/worktrees") collision.path = true ∧
        (git.status collision.path).isOk = true := by
  unfold createResult at h
  cases hhead : git.verifyHead with
  | error message => rw [assertRepoHasCommits, hhead] at h; cases h
  | ok a =>
    cases hdirectory : git.makeDirectory with
    | error message => rw [assertRepoHasCommits, hhead, hdirectory] at h; cases h
    | ok b =>
      cases hlist : git.list with
      | error message => rw [assertRepoHasCommits, hhead, hdirectory, hlist] at h; cases h
      | ok output =>
        rw [assertRepoHasCommits, hhead, hdirectory, hlist] at h
        refine ⟨rfl, rfl, output, rfl, ?_⟩
        simp only [Except.mapError, bind, Except.bind] at h
        split at h
        · rename_i collision hcollision
          split at h
          · rename_i hmanaged
            cases hstatus : git.status collision.path with
            | error message => rw [hstatus] at h; cases h
            | ok lines =>
              rw [hstatus] at h
              obtain ⟨rfl, rfl⟩ := Prod.mk.inj (Except.ok.inj h)
              rw [if_neg Bool.false_ne_true]
              exact ⟨collision, hcollision, rfl, hmanaged, by rw [hstatus]; rfl⟩
          · cases h
        · split at h
          · cases h
          · rename_i hadded
            obtain ⟨rfl, rfl⟩ := Prod.mk.inj (Except.ok.inj h)
            rw [if_pos rfl, worktreePath_eq]
            refine ⟨rfl, ?_⟩
            -- The worktree was added for the branch, or with the branch.
            cases hadd : git.add with
            | ok c => exact Or.inl rfl
            | error message =>
              rw [hadd] at hadded
              dsimp only at hadded
              split at hadded
              · rw [hadded]
                exact Or.inr rfl
              · cases hadded

theorem createResult_reused {output : String} {collision : WorktreeEntry}
    (hhead : git.verifyHead.isOk = true) (hdirectory : git.makeDirectory.isOk = true)
    (hlist : git.list = .ok output)
    (hcollision : findCollision git (repoDir ++ "/.archloop/worktrees") branch
      (listWorktrees output) = some collision)
    (hmanaged : isUnderManagedWorktrees git (repoDir ++ "/.archloop/worktrees") collision.path =
      true) (hstatus : (git.status collision.path).isOk = true) :
    createResult git repoDir branch =
      .ok ({ path := collision.path, branch := branch }, false) := by
  cases hhead' : git.verifyHead with
  | error message => rw [hhead'] at hhead; cases hhead
  | ok a =>
    cases hdirectory' : git.makeDirectory with
    | error message => rw [hdirectory'] at hdirectory; cases hdirectory
    | ok b =>
      cases hstatus' : git.status collision.path with
      | error message => rw [hstatus'] at hstatus; cases hstatus
      | ok lines =>
        unfold createResult
        rw [assertRepoHasCommits, hhead', hdirectory', hlist]
        simp only [Except.mapError, bind, Except.bind]
        rw [hcollision]
        dsimp only
        rw [if_pos hmanaged, hstatus']
        rfl

end

/-! ### One call -/

section
variable {repoDir : String} {layout : List Registration} {step : CreateStep}

theorem list_gitIn {call : CreateCall} (h : call.git.list.isOk = true) :
    (gitIn repoDir layout call).list = .ok (porcelain layout) := by
  unfold gitIn
  cases hlist : call.git.list with
  | ok output => rfl
  | error message => rw [hlist] at h; cases h

theorem isOk_of_list_gitIn {call : CreateCall} {output : String}
    (h : (gitIn repoDir layout call).list = .ok output) :
    call.git.list.isOk = true ∧ output = porcelain layout := by
  unfold gitIn at h
  cases hlist : call.git.list with
  | ok text =>
    rw [hlist] at h
    exact ⟨rfl, (Except.ok.inj h).symm⟩
  | error message => rw [hlist] at h; cases h

theorem free_of_created {call : CreateCall} {info : WorktreeInfo}
    (h : createIn repoDir layout call = .ok (info, true)) :
    info.path ∉ layout.map Registration.path := by
  obtain ⟨-, -, output, -, hnew⟩ := createResult_ok h
  rw [if_pos rfl] at hnew
  obtain ⟨hpath, hadded⟩ := hnew
  intro hmem
  obtain ⟨registration, hregistration, hsame⟩ := List.mem_map.mp hmem
  have htaken : layout.any (·.path = call.git.realPath (worktreePathForBranch repoDir call.branch))
      = true :=
    List.any_eq_true.mpr ⟨registration, hregistration, decide_eq_true (hsame.trans hpath)⟩
  rcases hadded with hadd | hadd
  · simp [gitIn, htaken, Except.bind, Except.isOk, Except.toBool] at hadd
  · simp [gitIn, htaken, Except.bind, Except.isOk, Except.toBool] at hadd

/-- A call returns a worktree on its branch, unless it reuses one that is not. -/
theorem checkedOut_iff :
    (∀ path, step.returned repoDir = some path →
      worktreeIsOn (step.after repoDir) path step.call.branch = true) ↔
      reusesForeign repoDir step = false := by
  constructor
  · intro h
    rw [Bool.eq_false_iff]
    intro hforeign
    simp only [reusesForeign, Bool.and_eq_true, Option.any_eq_true, Bool.not_eq_true'] at hforeign
    obtain ⟨⟨⟨hhead, hdirectory⟩, hlist⟩, collision, hcollision, ⟨hmanaged, hstatus⟩, hother⟩ :=
      hforeign
    have hcreate : createIn repoDir step.before step.call =
        .ok ({ path := collision.path, branch := step.call.branch }, false) :=
      createResult_reused hhead hdirectory (list_gitIn hlist) hcollision hmanaged hstatus
    have hreturned : step.returned repoDir = some collision.path := by
      rw [CreateStep.returned, hcreate]
    have hafter : step.after repoDir = step.before := by
      rw [CreateStep.after, layoutAfter, hcreate]
    have hon := h collision.path hreturned
    rw [hafter, hother] at hon
    cases hon
  · intro h path hreturned
    unfold CreateStep.returned at hreturned
    unfold CreateStep.after layoutAfter
    split at hreturned
    · rename_i info new hcreate
      obtain rfl := Option.some.inj hreturned
      rw [hcreate]
      obtain ⟨hhead, hdirectory, output, hlist, hresult⟩ := createResult_ok hcreate
      cases new with
      | true =>
        refine List.any_eq_true.mpr ⟨{ path := info.path, head := .branch step.call.branch },
          List.mem_append_right _ (List.mem_singleton.mpr rfl), ?_⟩
        simp [Registration.isOn]
      | false =>
        rw [if_neg Bool.false_ne_true] at hresult
        obtain ⟨collision, hcollision, hpath, hmanaged, hstatus⟩ := hresult
        obtain ⟨hlisted, rfl⟩ := isOk_of_list_gitIn hlist
        by_contra hother
        rw [Bool.not_eq_true, hpath] at hother
        have hforeign : reusesForeign repoDir step = true := by
          simp only [reusesForeign, Bool.and_eq_true, Option.any_eq_true, Bool.not_eq_true']
          exact ⟨⟨⟨hhead, hdirectory⟩, hlisted⟩, collision, hcollision, ⟨hmanaged, hstatus⟩,
            hother⟩
        rw [hforeign] at h
        cases h
    · cases hreturned

/-! ### A sequence of calls -/

def DistinctPaths (layout : List Registration) : Prop := (layout.map Registration.path).Nodup

variable (repoDir) in
theorem layoutAfter_step (call : CreateCall) (h : DistinctPaths layout) :
    DistinctPaths (layoutAfter repoDir layout call) ∧ layout ⊆ layoutAfter repoDir layout call := by
  unfold layoutAfter
  split
  · rename_i info hcreate
    refine ⟨?_, List.subset_append_left _ _⟩
    unfold DistinctPaths
    rw [List.map_append, List.map_singleton]
    refine List.nodup_append.mpr ⟨h, List.nodup_singleton _, ?_⟩
    intro path hpath other hother
    rw [List.mem_singleton] at hother
    subst hother
    rintro rfl
    exact free_of_created hcreate hpath
  · exact ⟨h, List.Subset.refl _⟩

variable (repoDir) in
theorem exists_finalLayout (calls : List CreateCall) (h : DistinctPaths layout) :
    ∃ final, DistinctPaths final ∧ layout ⊆ final ∧
      ∀ step ∈ createSteps repoDir layout calls, step.after repoDir ⊆ final := by
  induction calls generalizing layout with
  | nil => exact ⟨layout, h, List.Subset.refl _, by simp [createSteps]⟩
  | cons call calls ih =>
    obtain ⟨hdistinct, hsubset⟩ := layoutAfter_step repoDir call h
    obtain ⟨final, hfinal, hkept, hsteps⟩ := ih hdistinct
    refine ⟨final, hfinal, List.Subset.trans hsubset hkept, ?_⟩
    intro step hstep
    rw [createSteps, List.mem_cons] at hstep
    rcases hstep with rfl | hstep
    · exact hkept
    · exact hsteps step hstep

theorem branch_eq_of_isOn {path branch other : String} (h : DistinctPaths layout)
    (hbranch : worktreeIsOn layout path branch = true)
    (hother : worktreeIsOn layout path other = true) : branch = other := by
  obtain ⟨a, ha, hon⟩ := List.any_eq_true.mp hbranch
  obtain ⟨b, hb, hon'⟩ := List.any_eq_true.mp hother
  simp only [Bool.and_eq_true, decide_eq_true_eq] at hon hon'
  obtain rfl : a = b := List.inj_on_of_nodup_map h ha hb (hon.1.trans hon'.1.symm)
  simp only [Registration.isOn, Bool.and_eq_true, Bool.or_eq_true, decide_eq_true_eq] at hon hon'
  rcases hon.2.2 with hhead | hhead
  · rw [hhead] at hon'
    simpa using hon'.2.2
  · rw [hhead] at hon'
    simpa using hon'.2.2

theorem worktreeIsOn_mono {other : List Registration} {path branch : String}
    (hsubset : layout ⊆ other) (h : worktreeIsOn layout path branch = true) :
    worktreeIsOn other path branch = true := by
  obtain ⟨a, ha, hon⟩ := List.any_eq_true.mp h
  exact List.any_eq_true.mpr ⟨a, hsubset ha, hon⟩

theorem branchLock_inj {branch other : String} :
    branchLock branch = branchLock other ↔
      branchToWorktreeName branch = branchToWorktreeName other := by
  exact String.append_left_inj LOCK_FILE_SUFFIX

end

/-! ### Branches that differ in a slash -/

def sampleLayout : List Registration := [{ path := "/repo", head := .branch "main" }]

/-- A call of `create` in it, where git does what it is asked for. -/
def sampleCreateCall (branch : String) : CreateCall where
  branch := branch
  git := { realWorktreesDir := "/repo/.archloop/worktrees" }

end ArchLoop
