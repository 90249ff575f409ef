import ArchLoop.Proofs.WorktreeExclusion
import ArchLoop.SandboxFactory

/-!
# `ArchLoop.Proofs.SandboxLease`: how long a run holds its lease

`withSandbox` with an explicit branch should hold the lease of the branch from
`acquireLeaseForBranch` to its release, and leave no lock file behind (`LeaseKept`).

It does so exactly when the lease was not to be had, or the worktree was there before, the
setup succeeds and the cleanup succeeds (`leaseKept_iff`). Otherwise:

- The prune comes after the lease and before the worktree. It takes a lock file without a
  worktree for an orphan, so the run removes its own lock file.
- A setup that fails after the lease was taken fails in the acquire phase, and the release
  phase does not run.
- The release phase gives the lease back last, after two steps that may fail.

`LeasedTo` is the invariant: the lock file is the run's own, and no other file is new.
-/

set_option autoImplicit false

namespace ArchLoop

open ArchLoop.Lib

variable {ι : Type}

/-! ### Statement -/

/-- The lock file of the branch is there and names the process. -/
def NamesProcess (pid : Nat) (branch : String) (s : LeaseWorld ι) : Prop :=
  ∃ file record, s.lock (branchLock branch) = some file ∧ file.text = some record ∧
    record.pid = some (pid : Int)

/-- The lease is held from its acquisition to its release, and no lock file that the call
created is left. -/
structure LeaseKept [DecidableEq ι] (caller : LeaseCaller ι) (config : SandboxConfig) (run : SandboxRun)
    (s : LeaseWorld ι) : Prop where
  held : ∀ lease s₁, (acquireLeaseForBranch caller config).run s = (.ok lease, s₁) →
    ∀ t, (leasedRun config run).Visits s₁ t → NamesProcess caller.pid config.branch t
  gone : ∀ fileName file, ((withSandbox caller config run).run s).2.lock fileName = some file →
    file.inode < s.nextInode

/-- Another process has the lease of the branch, or its lock file cannot be read. -/
def leaseBlocked (config : SandboxConfig) (s : LeaseWorld ι) : Bool :=
  match s.lock (branchLock config.branch) with
  | none => false
  | some file =>
    s.worktrees (leaseNameFromBranch config.branch) &&
      match parseLeaseMetadata file.text config.hostRepoDir config.branch true with
      | .error _ => true
      | .ok metadata => s.alive metadata.pid

/-- No step of the setup fails after the lease was taken. -/
def setupSucceeds (config : SandboxConfig) (run : SandboxRun) : Bool :=
  (createResult run.git config.hostRepoDir config.branch).isOk &&
    (setupSteps config run).all (·.answer.isOk)

/-- The sandbox closes, and the worktree is kept or removed. -/
def cleanupSucceeds (run : SandboxRun) : Bool :=
  run.close.answer.isOk &&
    ((hasUncommittedChanges run.git.statusAfter).toOption == some true ||
      run.git.remove.answer.isOk)

/-! ### Names -/

theorem lockFileName_injective : Function.Injective lockFileName := by
  intro a b h
  have hlist := congrArg String.toList h
  rw [lockFileName, lockFileName, String.toList_append, String.toList_append] at hlist
  exact String.toList_inj.mp (List.append_cancel_right hlist)

theorem leaseName_of_lockFile {fileName leaseName other : String}
    (h : lockFileNameToLeaseName fileName = some leaseName) (hfile : fileName = lockFileName other) :
    leaseName = other := by
  refine lockFileName_injective ?_
  rw [lockFileName_of_lockFileNameToLeaseName h, hfile]

theorem serialize_pid (metadata : WorktreeLeaseMetadata) :
    (serializeWorktreeLeaseMetadata metadata).pid = some (metadata.pid : Int) := by
  unfold serializeWorktreeLeaseMetadata
  cases metadata.owner <;> rfl

/-! ### Running alone -/

@[simp] theorem run_leaseStep {α : Type} (op : LeaseOp) (upd : LeaseWorld ι → LeaseWorld ι)
    (answer : LeaseWorld ι → α) (s : LeaseWorld ι) :
    (leaseStep op upd answer).run s = (.ok (answer s), { upd s with lastOp := some op }) := rfl

/-- What the program does to everything but the lock files: nothing. -/
structure OnlyLocks (s t : LeaseWorld ι) : Prop where
  worktrees : t.worktrees = s.worktrees
  alive : t.alive = s.alive
  nextInode : t.nextInode = s.nextInode

section
variable {config : SandboxConfig} {caller : LeaseCaller ι} {s : LeaseWorld ι}

theorem run_readLeaseMetadata {repoDir branch : String} {file : LockFile}
    (hlock : s.lock (branchLock branch) = some file) :
    (readLeaseMetadata repoDir branch).run s =
      (parseLeaseMetadata file.text repoDir branch true,
        { s with lastOp := some (.readFile (branchLock branch)) }) := by
  have hread : (readFileString (branchLock branch)).run s =
      (.ok (some file.text), { s with lastOp := some (.readFile (branchLock branch)) }) := by
    rw [readFileString, run_leaseStep, hlock]
    rfl
  rw [readLeaseMetadata, Prog.run_bind_ok hread]
  dsimp only
  cases parseLeaseMetadata file.text repoDir branch true <;> rfl

theorem run_recover_missing {repoDir branch : String} {file : LockFile}
    (hlock : s.lock (branchLock branch) = some file)
    (hworktree : s.worktrees (leaseNameFromBranch branch) = false) :
    (recoverStaleWorktreeLeaseIfNeeded repoDir branch).run s =
      (.ok .removed, { s.unlink (branchLock branch) with
        lastOp := some (.unlink (branchLock branch)) }) := by
  simp only [recoverStaleWorktreeLeaseIfNeeded, fsExists, worktreeExists, removeLeaseFile,
    removeLeaseFileByPath, Prog.run_bind, run_leaseStep, id_eq, hlock, Option.isSome_some,
    Bool.not_true, Bool.false_eq_true, if_false, hworktree, Bool.not_false, if_true, Prog.run_ret]
  rfl

theorem run_recover_present {repoDir branch : String} {file : LockFile}
    (hlock : s.lock (branchLock branch) = some file)
    (hworktree : s.worktrees (leaseNameFromBranch branch) = true) :
    (recoverStaleWorktreeLeaseIfNeeded repoDir branch).run s =
      match parseLeaseMetadata file.text repoDir branch true with
      | .error e => (.error e, { s with lastOp := some (.readFile (branchLock branch)) })
      | .ok metadata =>
        if s.alive metadata.pid then (.ok .active, { s with lastOp := some (.kill metadata.pid) })
        else (.ok .removed, { s.unlink (branchLock branch) with
          lastOp := some (.unlink (branchLock branch)) }) := by
  have hread : ∀ o, (readLeaseMetadata repoDir branch).run ({ s with lastOp := o }) =
      (parseLeaseMetadata file.text repoDir branch true,
        { s with lastOp := some (.readFile (branchLock branch)) }) :=
    fun o => run_readLeaseMetadata hlock
  simp only [recoverStaleWorktreeLeaseIfNeeded, fsExists, worktreeExists, Prog.run_bind,
    run_leaseStep, id_eq, hlock, Option.isSome_some, Bool.not_true, Bool.false_eq_true, if_false,
    hworktree, hread]
  cases parseLeaseMetadata file.text repoDir branch true with
  | error e => rfl
  | ok metadata =>
    simp only [isProcessAlive, run_leaseStep, id_eq]
    cases s.alive metadata.pid <;> rfl

theorem run_ensure_free (h : leaseBlocked config s = false) :
    ∃ t, (ensureLeaseAvailableForAcquisition config.hostRepoDir config.branch).run s =
        (.ok (), t) ∧ OnlyLocks s t ∧
      ∀ f, t.lock f = if f = branchLock config.branch then none else s.lock f := by
  unfold leaseBlocked at h
  unfold ensureLeaseAvailableForAcquisition checkWorktreeLeaseBeforeHubRetry
  rw [Prog.run_bind, Prog.run_bind]
  cases hlock : s.lock (branchLock config.branch) with
  | none =>
    have hrun : (recoverStaleWorktreeLeaseIfNeeded config.hostRepoDir config.branch).run s =
        (.ok .absent, { s with lastOp := some (.access (branchLock config.branch)) }) := by
      simp only [recoverStaleWorktreeLeaseIfNeeded, fsExists, Prog.run_bind, run_leaseStep, id_eq,
        hlock, Option.isSome_none, Bool.not_false, if_true, Prog.run_ret]
    rw [hrun]
    refine ⟨_, rfl, ⟨rfl, rfl, rfl⟩, fun f => ?_⟩
    split
    · rename_i hf
      rw [hf]
      exact hlock
    · rfl
  | some file =>
    rw [hlock] at h
    dsimp only at h
    cases hworktree : s.worktrees (leaseNameFromBranch config.branch) with
    | false =>
      rw [run_recover_missing hlock hworktree]
      exact ⟨_, rfl, ⟨rfl, rfl, rfl⟩, fun f => lock_unlink⟩
    | true =>
      rw [hworktree, Bool.true_and] at h
      rw [run_recover_present hlock hworktree]
      cases hparse : parseLeaseMetadata file.text config.hostRepoDir config.branch true with
      | error e =>
        rw [hparse] at h
        cases h
      | ok metadata =>
        rw [hparse] at h
        dsimp only at h ⊢
        rw [h, if_neg Bool.false_ne_true]
        exact ⟨_, rfl, ⟨rfl, rfl, rfl⟩, fun f => lock_unlink⟩

theorem run_ensure_blocked (h : leaseBlocked config s = true) :
    ∃ e t, (ensureLeaseAvailableForAcquisition config.hostRepoDir config.branch).run s =
        (.error e, t) ∧ ∀ f, t.lock f = s.lock f := by
  unfold leaseBlocked at h
  unfold ensureLeaseAvailableForAcquisition checkWorktreeLeaseBeforeHubRetry
  rw [Prog.run_bind, Prog.run_bind]
  cases hlock : s.lock (branchLock config.branch) with
  | none =>
    rw [hlock] at h
    cases h
  | some file =>
    rw [hlock] at h
    dsimp only at h
    rw [Bool.and_eq_true] at h
    obtain ⟨hworktree, h⟩ := h
    rw [run_recover_present hlock hworktree]
    cases hparse : parseLeaseMetadata file.text config.hostRepoDir config.branch true with
    | error e => exact ⟨e, _, rfl, fun _ => rfl⟩
    | ok metadata =>
      rw [hparse] at h
      dsimp only at h ⊢
      rw [if_pos h]
      -- The metadata is read once more, for the error.
      have hread : (readLeaseMetadata config.hostRepoDir config.branch).run
          { s with lastOp := some (.kill metadata.pid) } = _ := run_readLeaseMetadata hlock
      rw [hparse] at hread
      dsimp only
      rw [Prog.run_bind_ok hread]
      exact ⟨_, _, rfl, fun _ => rfl⟩

def ownLock (caller : LeaseCaller ι) (config : SandboxConfig) (inode : Nat) : LockFile where
  inode := inode
  text := some (serializeWorktreeLeaseMetadata
    (buildWorktreeLeaseMetadata caller config.branch config.worktreeLeaseOwner))

variable [DecidableEq ι]

theorem run_createLeaseFileAtomic (caller : LeaseCaller ι)
    (hfree : s.lock (branchLock config.branch) = none) :
    ∃ t, (createLeaseFileAtomic caller config.hostRepoDir config.branch
        (buildWorktreeLeaseMetadata caller config.branch config.worktreeLeaseOwner)).run s =
        (.ok (), t) ∧
      t.worktrees = s.worktrees ∧ t.alive = s.alive ∧
      ∀ f, t.lock f = if f = branchLock config.branch then
        some (ownLock caller config s.nextInode) else s.lock f := by
  have hopen : ∀ f, (s.openExclusive caller.fiber (branchLock config.branch)).lock f =
      if f = branchLock config.branch then some { inode := s.nextInode, text := none }
      else s.lock f := fun f => lock_openExclusive hfree
  have hrest : (s.openExclusive caller.fiber (branchLock config.branch)).worktrees =
      s.worktrees ∧ (s.openExclusive caller.fiber (branchLock config.branch)).alive =
      s.alive := by
    unfold LeaseWorld.openExclusive
    rw [hfree, if_neg (by decide)]
    exact ⟨rfl, rfl⟩
  simp only [createLeaseFileAtomic, Prog.run_bind, run_leaseStep, hfree, Option.isSome_none,
    Bool.false_eq_true, if_false]
  refine ⟨_, rfl, ?_, ?_, fun f => ?_⟩
  · obtain ⟨locks, heq⟩ := writeFile_eq
      (s := { s.openExclusive caller.fiber (branchLock config.branch) with
        lastOp := some (.openExclusive (branchLock config.branch)) })
      (branchLock config.branch) s.nextInode
      (serializeWorktreeLeaseMetadata
        (buildWorktreeLeaseMetadata caller config.branch config.worktreeLeaseOwner))
    rw [heq]
    exact hrest.1
  · obtain ⟨locks, heq⟩ := writeFile_eq
      (s := { s.openExclusive caller.fiber (branchLock config.branch) with
        lastOp := some (.openExclusive (branchLock config.branch)) })
      (branchLock config.branch) s.nextInode
      (serializeWorktreeLeaseMetadata
        (buildWorktreeLeaseMetadata caller config.branch config.worktreeLeaseOwner))
    rw [heq]
    exact hrest.2
  · refine lock_writeFile.trans ?_
    split
    · have hnew := hopen (branchLock config.branch)
      rw [if_pos rfl] at hnew
      refine (congrArg _ hnew).trans ?_
      rw [Option.map_some, if_pos rfl]
      rfl
    · rename_i hf
      exact (hopen f).trans (if_neg hf)

theorem run_acquire_free (caller : LeaseCaller ι) (h : leaseBlocked config s = false) :
    ∃ lease t, (acquireLeaseForBranch caller config).run s = (.ok lease, t) ∧
      t.worktrees = s.worktrees ∧ t.alive = s.alive ∧
      ∀ f, t.lock f = if f = branchLock config.branch then
        some (ownLock caller config s.nextInode) else s.lock f := by
  obtain ⟨u, hensure, hrest, hlock⟩ := run_ensure_free h
  have hfree : u.lock (branchLock config.branch) = none := by rw [hlock, if_pos rfl]
  obtain ⟨t, hcreate, hworktrees, halive, hown⟩ :=
    run_createLeaseFileAtomic caller hfree
  refine ⟨toAcquiredWorktreeLease config.branch
    (buildWorktreeLeaseMetadata caller config.branch config.worktreeLeaseOwner), t, ?_,
    hworktrees.trans hrest.worktrees, halive.trans hrest.alive, fun f => ?_⟩
  · rw [acquireLeaseForBranch, Prog.run_mapError]
    dsimp only [acquireWorktreeLease]
    rw [Prog.run_bind_ok hensure, Prog.run_bind, Prog.run_tryCatch, hcreate]
    rfl
  · rw [hown f, hrest.nextInode]
    split
    · rfl
    · rename_i hf
      rw [hlock, if_neg hf]

theorem run_acquire_blocked (caller : LeaseCaller ι) (h : leaseBlocked config s = true) :
    ∃ e t, (acquireLeaseForBranch caller config).run s = (.error e, t) ∧
      ∀ f, t.lock f = s.lock f := by
  obtain ⟨e, t, hensure, hlock⟩ := run_ensure_blocked h
  refine ⟨mapWorktreeLeaseError e, t, ?_, hlock⟩
  rw [acquireLeaseForBranch, Prog.run_mapError]
  dsimp only [acquireWorktreeLease]
  rw [Prog.run_bind_error hensure]
  rfl

end

/-! ### A worktree that is there -/

/-- The run has the lease: the lock file is its own, and no other file is new.

- `n`: the inode of its lock file. -/
structure LeasedTo (caller : LeaseCaller ι) (config : SandboxConfig) (n : Nat)
    (s : LeaseWorld ι) : Prop where
  own : s.lock (branchLock config.branch) = some (ownLock caller config n)
  old : ∀ fileName file, s.lock fileName = some file →
    fileName = branchLock config.branch ∨ file.inode < n

/-- What keeps the prune from the lock file: the worktree is there, and the process lives. -/
structure PruneSafe (caller : LeaseCaller ι) (config : SandboxConfig) (s : LeaseWorld ι) :
    Prop where
  worktree : s.worktrees (leaseNameFromBranch config.branch) = true
  alive : s.alive caller.pid = true

section
variable {caller : LeaseCaller ι} {config : SandboxConfig} {n : Nat} {s : LeaseWorld ι}

theorem LeasedTo.namesProcess (h : LeasedTo caller config n s) :
    NamesProcess caller.pid config.branch s :=
  ⟨_, _, h.own, rfl, serialize_pid _⟩

abbrev leasedRules (caller : LeaseCaller ι) (config : SandboxConfig) (n : Nat) :
    Rules (LeaseWorld ι) :=
  .alone (LeasedTo caller config n) fun _ _ => True

theorem sat_leasedStep {α : Type} {Q : α → LeaseWorld ι → Prop}
    {E : WorktreeLeaseError → LeaseWorld ι → Prop} {op : LeaseOp}
    {upd : LeaseWorld ι → LeaseWorld ι} {answer : LeaseWorld ι → α}
    (h : LeasedTo caller config n s → LeasedTo caller config n (upd s) ∧
      Q (answer s) { upd s with lastOp := some op }) :
    Prog.Sat (leasedRules caller config n) Q E (leaseStep op upd answer) s := by
  refine Prog.sat_alone_act.mpr fun hinv => ⟨trivial, ?_, (h hinv).2⟩
  exact ⟨(h hinv).1.own, (h hinv).1.old⟩

theorem sat_removeOther {fileName : String} (hne : fileName ≠ branchLock config.branch)
    (hsafe : PruneSafe caller config s) :
    Prog.Sat (leasedRules caller config n) (fun _ => PruneSafe caller config)
      (fun _ => PruneSafe caller config) (removeLeaseFileByPath fileName) s := by
  refine sat_leasedStep fun hinv => ⟨⟨?_, ?_⟩, hsafe.worktree, hsafe.alive⟩
  · rw [lock_unlink, if_neg (Ne.symm hne)]
    exact hinv.own
  · intro f file hf
    rw [lock_unlink] at hf
    split at hf
    · cases hf
    · exact hinv.old f file hf

theorem sat_readOwn {repoDir branch : String} (hsafe : PruneSafe caller config s) :
    Prog.Sat (leasedRules caller config n)
      (fun metadata t => PruneSafe caller config t ∧
        (branchLock branch = branchLock config.branch → metadata.pid = caller.pid))
      (fun _ => PruneSafe caller config) (readLeaseMetadata repoDir branch) s := by
  refine Prog.sat_bind (Q := fun raw t => PruneSafe caller config t ∧
    LeasedTo caller config n t ∧ raw = (t.lock (branchLock branch)).map LockFile.text) ?_ ?_
  · exact sat_leasedStep fun hinv => ⟨hinv, ⟨hsafe.worktree, hsafe.alive⟩,
      ⟨hinv.own, hinv.old⟩, rfl⟩
  · rintro raw t ⟨hsafe, hinv, hraw⟩
    cases raw with
    | none => exact hsafe
    | some text =>
      dsimp only
      unfold parseLeaseMetadata
      cases text with
      | none => exact hsafe
      | some record =>
        dsimp only
        cases hmetadata : record.metadata with
        | none => exact hsafe
        | some metadata =>
          dsimp only
          split
          · exact hsafe
          · refine ⟨hsafe, fun hsame => ?_⟩
            rw [hsame, hinv.own, Option.map_some] at hraw
            rw [Option.some.inj (Option.some.inj hraw)] at hmetadata
            exact pid_of_metadata_serialize hmetadata

theorem sat_recoverOther {repoDir branch : String} (hsafe : PruneSafe caller config s) :
    Prog.Sat (leasedRules caller config n) (fun _ => PruneSafe caller config)
      (fun _ => PruneSafe caller config) (recoverStaleWorktreeLeaseIfNeeded repoDir branch) s := by
  refine Prog.sat_bind (Q := fun _ => PruneSafe caller config) ?_ ?_
  · exact sat_leasedStep fun hinv => ⟨hinv, hsafe.worktree, hsafe.alive⟩
  intro found t hsafe
  split
  · exact hsafe
  refine Prog.sat_bind (Q := fun worktree u => PruneSafe caller config u ∧
    (worktree = false → branchLock branch ≠ branchLock config.branch)) ?_ ?_
  · refine sat_leasedStep fun hinv => ⟨hinv, ⟨hsafe.worktree, hsafe.alive⟩, fun hmissing => ?_⟩
    intro hsame
    rw [lockFileName_injective hsame, hsafe.worktree] at hmissing
    cases hmissing
  rintro worktree u ⟨hsafe, hother⟩
  split
  · rename_i h
    exact Prog.sat_bind (sat_removeOther (hother (by simpa using h)) hsafe) fun _ _ h => h
  refine Prog.sat_bind (sat_readOwn hsafe) ?_
  rintro metadata v ⟨hsafe, hpid⟩
  refine Prog.sat_bind (Q := fun alive w => PruneSafe caller config w ∧
    (alive = false → branchLock branch ≠ branchLock config.branch)) ?_ ?_
  · refine sat_leasedStep fun hinv => ⟨hinv, ⟨hsafe.worktree, hsafe.alive⟩, fun hdead => ?_⟩
    intro hsame
    rw [hpid hsame, hsafe.alive] at hdead
    cases hdead
  rintro alive w ⟨hsafe, hother⟩
  split
  · exact hsafe
  · rename_i h
    exact Prog.sat_bind (sat_removeOther (hother (by simpa using h)) hsafe) fun _ _ h => h

theorem sat_pruneLoop {body : String → LeaseProg ι Unit}
    (h : ∀ entry s, PruneSafe caller config s →
      Prog.Sat (leasedRules caller config n) (fun _ => PruneSafe caller config)
        (fun _ => PruneSafe caller config) (body entry) s)
    (hsafe : PruneSafe caller config s) (entries : List String) :
    Prog.Sat (leasedRules caller config n) (fun _ => PruneSafe caller config)
      (fun _ => PruneSafe caller config) (forEntries body entries) s := by
  induction entries generalizing s with
  | nil => exact hsafe
  | cons entry entries ih => exact Prog.sat_bind (h entry s hsafe) fun _ _ hsafe => ih hsafe

theorem sat_pruneLocks {repoDir : String} (hsafe : PruneSafe caller config s) :
    Prog.Sat (leasedRules caller config n) (fun _ => PruneSafe caller config)
      (fun _ => PruneSafe caller config) (pruneStaleWorktreeLeases repoDir) s := by
  have hread : ∀ t, PruneSafe caller config t →
      Prog.Sat (leasedRules caller config n) (fun _ => PruneSafe caller config)
        (fun _ => PruneSafe caller config) readLocksDirectory t := fun t hsafe =>
    sat_leasedStep fun hinv => ⟨hinv, hsafe.worktree, hsafe.alive⟩
  have horphan : ∀ entry t, PruneSafe caller config t →
      Prog.Sat (leasedRules caller config n) (fun _ => PruneSafe caller config)
        (fun _ => PruneSafe caller config) (pruneOrphanEntry entry) t := by
    intro entry t hsafe
    unfold pruneOrphanEntry
    cases hname : lockFileNameToLeaseName entry with
    | none => exact hsafe
    | some leaseName =>
      refine Prog.sat_bind (Q := fun worktree u => PruneSafe caller config u ∧
        (worktree = false → entry ≠ branchLock config.branch)) ?_ ?_
      · refine sat_leasedStep fun hinv => ⟨hinv, ⟨hsafe.worktree, hsafe.alive⟩, ?_⟩
        rintro hmissing hentry
        rw [leaseName_of_lockFile hname hentry, hsafe.worktree] at hmissing
        cases hmissing
      · rintro worktree u ⟨hsafe, hother⟩
        split
        · rename_i h
          exact sat_removeOther (hother (by simpa using h)) hsafe
        · exact hsafe
  have hstale : ∀ entry t, PruneSafe caller config t →
      Prog.Sat (leasedRules caller config n) (fun _ => PruneSafe caller config)
        (fun _ => PruneSafe caller config) (pruneStaleEntry repoDir entry) t := by
    intro entry t hsafe
    unfold pruneStaleEntry
    split
    · exact hsafe
    refine Prog.sat_bind (Q := fun _ => PruneSafe caller config)
      (sat_leasedStep fun hinv => ⟨hinv, hsafe.worktree, hsafe.alive⟩) ?_
    intro raw u hsafe
    split
    · exact hsafe
    split
    · exact hsafe
    · refine Prog.sat_tryCatch (Prog.sat_bind (sat_recoverOther hsafe) fun _ _ h => h) ?_
      intro error v hsafe
      split <;> exact hsafe
  refine Prog.sat_bind (Prog.sat_bind (hread s hsafe) fun entries t hsafe =>
    sat_pruneLoop horphan hsafe entries) fun _ t hsafe => ?_
  exact Prog.sat_bind (hread t hsafe) fun entries u hsafe => sat_pruneLoop hstale hsafe entries

/-! ### The rest of the run -/

theorem sat_outside {α : Type} {E : SandboxError → LeaseWorld ι → Prop}
    {Q : α → LeaseWorld ι → Prop} {upd : LeaseWorld ι → LeaseWorld ι}
    {next : LeaseWorld ι → SandboxProg ι α} (hlock : ∀ f, (upd s).lock f = s.lock f)
    (h : Prog.Sat (leasedRules caller config n) Q E (next s) (upd s)) :
    Prog.Sat (leasedRules caller config n) Q E (.act upd next) s := by
  refine Prog.sat_alone_act.mpr fun hinv => ⟨trivial, ⟨?_, ?_⟩, h⟩
  · rw [hlock]
    exact hinv.own
  · intro f file hf
    rw [hlock] at hf
    exact hinv.old f file hf

theorem sat_outsideStep (step : OutsideStep) :
    Prog.Sat (leasedRules caller config n) (fun _ _ => True) (fun _ _ => True)
      (outsideStep step) s := by
  refine sat_outside (fun _ => rfl) ?_
  cases step.answer with
  | ok a => trivial
  | error e => trivial

theorem sat_setup (steps : List OutsideStep) :
    Prog.Sat (leasedRules caller config n) (fun _ _ => True) (fun _ _ => True)
      (setup steps) s := by
  induction steps generalizing s with
  | nil => trivial
  | cons step steps ih => exact Prog.sat_bind (sat_outsideStep step) fun _ _ _ => ih

theorem sat_createWorktree (git : WorktreeGit) (repoDir branch : String) :
    Prog.Sat (leasedRules caller config n) (fun _ _ => True) (fun _ _ => True)
      (createWorktree git repoDir branch) s := by
  unfold createWorktree
  split
  · exact sat_outside (fun _ => rfl) trivial
  · rename_i info new _
    cases new with
    | true => exact sat_outside (fun _ => rfl) trivial
    | false => exact sat_outside (fun _ => rfl) trivial

theorem sat_cleanupWorktree (run : SandboxRun) (worktreePath : String) :
    Prog.Sat (leasedRules caller config n) (fun _ _ => True) (fun _ _ => True)
      (cleanupWorktree run worktreePath) s := by
  unfold cleanupWorktree
  split
  · exact sat_outside (fun _ => rfl) trivial
  · exact Prog.sat_bind (sat_outsideStep _) fun _ _ _ => trivial

theorem sat_leasedRun (run : SandboxRun) (n : Nat) (hsafe : PruneSafe caller config s) :
    Prog.Sat (leasedRules caller config n) (fun _ _ => True) (fun _ _ => True)
      (leasedRun config run) s := by
  have hprune : Prog.Sat (leasedRules caller config n) (fun _ _ => True) (fun _ _ => True)
      (pruneStale run.git config.hostRepoDir) s := by
    refine Prog.sat_bind (Prog.sat_mapError (Prog.sat_mono (sat_pruneLocks hsafe)
      (fun _ _ _ => trivial) fun _ _ _ => trivial)) fun _ t _ => ?_
    refine sat_outside (fun _ => rfl) ?_
    cases (pruneDirectories run.git t.worktrees).1 with
    | ok a => trivial
    | error e => trivial
  refine Prog.sat_bind (Prog.sat_bind (Prog.sat_tryCatch hprune fun _ _ _ => trivial)
    fun _ _ _ => sat_createWorktree _ _ _) fun info _ _ => ?_
  refine Prog.sat_bind (sat_setup _) fun _ _ _ => ?_
  refine Prog.sat_bind (Q := fun _ _ => True) (Prog.sat_attempt (sat_outsideStep _)) ?_
  intro exit _ _
  refine Prog.sat_bind (sat_outsideStep _) fun _ _ _ => ?_
  exact Prog.sat_bind (sat_cleanupWorktree _ _) fun _ _ _ => trivial

end

/-! ### Whether the release is reached -/

section
variable {s : LeaseWorld ι}

theorem isOk_bind {σ ε α β : Type} {p : Prog σ ε α} {f : α → Prog σ ε β} {b c : Bool}
    (hp : ∀ s, (p.run s).1.isOk = b) (hf : ∀ a s, ((f a).run s).1.isOk = c) (s : σ) :
    ((p.bind f).run s).1.isOk = (b && c) := by
  rw [Prog.run_bind, ← hp s]
  cases hrun : p.run s with
  | mk result t =>
    cases result with
    | ok a => exact hf a t
    | error e => rfl

theorem isOk_outsideStep (step : OutsideStep) (s : LeaseWorld ι) :
    ((outsideStep step).run s).1.isOk = step.answer.isOk := by
  rw [outsideStep, Prog.run_act]
  cases step.answer <;> rfl

theorem isOk_setup (steps : List OutsideStep) (s : LeaseWorld ι) :
    ((setup steps).run s).1.isOk = steps.all (·.answer.isOk) := by
  induction steps generalizing s with
  | nil => rfl
  | cons step steps ih =>
    rw [List.all_cons]
    exact isOk_bind (isOk_outsideStep step) (fun _ => ih) s

theorem isOk_createWorktree (git : WorktreeGit) (repoDir branch : String) (s : LeaseWorld ι) :
    ((createWorktree git repoDir branch).run s).1.isOk =
      (createResult git repoDir branch).isOk := by
  unfold createWorktree
  cases createResult git repoDir branch <;> rfl

theorem isOk_cleanupWorktree (run : SandboxRun) (worktreePath : String) (s : LeaseWorld ι) :
    ((cleanupWorktree run worktreePath).run s).1.isOk =
      ((hasUncommittedChanges run.git.statusAfter).toOption == some true ||
        run.git.remove.answer.isOk) := by
  have hremove : (((outsideStep run.git.remove).bind fun _ =>
      (.ret none : SandboxProg ι (Option String))).run s).1.isOk =
      run.git.remove.answer.isOk := by
    rw [isOk_bind (isOk_outsideStep run.git.remove) (fun _ _ => rfl), Bool.and_true]
  unfold cleanupWorktree
  cases hasUncommittedChanges run.git.statusAfter with
  | error e => exact hremove
  | ok dirty =>
    cases dirty with
    | true => rfl
    | false => exact hremove

theorem isOk_leasedRun (config : SandboxConfig) (run : SandboxRun) (s : LeaseWorld ι) :
    ((leasedRun config run).run s).1.isOk = (setupSucceeds config run && cleanupSucceeds run) := by
  have hprune : ∀ s : LeaseWorld ι, ((pruneAndCreate config run).run s).1.isOk =
      (createResult run.git config.hostRepoDir config.branch).isOk := by
    intro s
    rw [pruneAndCreate, isOk_bind (b := true) ?_
      (fun _ => isOk_createWorktree run.git config.hostRepoDir config.branch), Bool.true_and]
    intro s
    rw [Prog.run_tryCatch]
    cases (pruneStale run.git config.hostRepoDir).run s with
    | mk result t => cases result <;> rfl
  have hattempt : ∀ s : LeaseWorld ι,
      ((outsideStep run.makeEffect).attempt.run s).1.isOk = true := by
    intro s
    rw [Prog.run_attempt]
    rfl
  have hcleanup : ∀ (path : String) (exit : Except SandboxError Unit) (s : LeaseWorld ι),
      (((outsideStep run.close).bind fun _ => (cleanupWorktree run path).bind fun preserved =>
        Prog.ret (exit, preserved)).run s).1.isOk = cleanupSucceeds run := by
    intro path exit s
    refine isOk_bind (isOk_outsideStep run.close) (fun _ s => ?_) s
    rw [isOk_bind (isOk_cleanupWorktree run path) (fun _ _ => rfl), Bool.and_true]
  have hrest : ∀ (path : String) (s : LeaseWorld ι), ((((setup (setupSteps config run)).bind
      fun _ => (outsideStep run.makeEffect).attempt.bind fun exit =>
        (outsideStep run.close).bind fun _ => (cleanupWorktree run path).bind fun preserved =>
          Prog.ret (exit, preserved))).run s).1.isOk =
      ((setupSteps config run).all (·.answer.isOk) && cleanupSucceeds run) := by
    intro path s
    refine isOk_bind (isOk_setup _) (fun _ s => ?_) s
    rw [isOk_bind hattempt (hcleanup path), Bool.true_and]
  rw [leasedRun, isOk_bind hprune fun info => hrest info.path, setupSucceeds, Bool.and_assoc]

end

/-! ### A worktree that is not there -/

section
variable {caller : LeaseCaller ι} {config : SandboxConfig} {run : SandboxRun} {s : LeaseWorld ι}
  {leaseName : String}

theorem run_pruneOrphanEntry (entry : String) (hmissing : s.worktrees leaseName = false) :
    ∃ t, (pruneOrphanEntry entry).run s = (.ok (), t) ∧ t.worktrees leaseName = false ∧
      (entry = lockFileName leaseName ∨ s.lock (lockFileName leaseName) = none →
        t.lock (lockFileName leaseName) = none) := by
  unfold pruneOrphanEntry
  cases hname : lockFileNameToLeaseName entry with
  | none =>
    refine ⟨s, rfl, hmissing, ?_⟩
    rintro (rfl | h)
    · -- A lock file has a lease name.
      unfold lockFileNameToLeaseName at hname
      rw [if_pos] at hname
      · cases hname
      · rw [lockFileName, String.toList_append, List.isSuffixOf_iff_suffix]
        exact List.suffix_append _ _
    · exact h
  | some name =>
    simp only [worktreeExists, removeLeaseFileByPath, Prog.run_bind, run_leaseStep, id_eq]
    cases hworktree : s.worktrees name with
    | true =>
      refine ⟨_, rfl, hmissing, ?_⟩
      rintro (hentry | h)
      · rw [leaseName_of_lockFile hname hentry, hmissing] at hworktree
        cases hworktree
      · exact h
    | false =>
      refine ⟨_, rfl, hmissing, fun h => ?_⟩
      refine lock_unlink.trans ?_
      split
      · rfl
      · rename_i hne
        exact h.resolve_left fun hentry => hne hentry.symm

theorem run_forOrphans (entries : List String) (hmissing : s.worktrees leaseName = false)
    (h : lockFileName leaseName ∈ entries ∨ s.lock (lockFileName leaseName) = none) :
    ∃ t, (forEntries pruneOrphanEntry entries).run s = (.ok (), t) ∧
      t.lock (lockFileName leaseName) = none := by
  induction entries generalizing s with
  | nil => exact ⟨s, rfl, h.resolve_left (List.not_mem_nil)⟩
  | cons entry entries ih =>
    obtain ⟨u, hrun, hmissing', hgone⟩ := run_pruneOrphanEntry entry hmissing
    have hnext : lockFileName leaseName ∈ entries ∨ u.lock (lockFileName leaseName) = none := by
      rcases h with hmem | hnone
      · rcases List.mem_cons.mp hmem with hentry | hmem
        · exact Or.inr (hgone (Or.inl hentry.symm))
        · exact Or.inl hmem
      · exact Or.inr (hgone (Or.inr hnone))
    obtain ⟨t, hloop, ht⟩ := ih hmissing' hnext
    exact ⟨t, by rw [forEntries, Prog.run_bind_ok hrun, hloop], ht⟩

theorem visits_orphaned [DecidableEq ι] (run : SandboxRun)
    (hmissing : s.worktrees (leaseNameFromBranch config.branch) = false) :
    ∃ t, (leasedRun config run).Visits s t ∧ t.lock (branchLock config.branch) = none := by
  have hkeys : lockFileName (leaseNameFromBranch config.branch) ∈ s.locks.keys ∨
      s.lock (lockFileName (leaseNameFromBranch config.branch)) = none := by
    cases hlock : s.lock (lockFileName (leaseNameFromBranch config.branch)) with
    | none => exact Or.inr rfl
    | some file =>
      refine Or.inl (AList.mem_keys.mp (AList.lookup_isSome.mp ?_))
      exact Option.isSome_of_eq_some hlock
  have hloop : ∃ t, (forEntries pruneOrphanEntry s.locks.keys).run
      { s with lastOp := some .readDirectory } = (.ok (), t) ∧
        t.lock (branchLock config.branch) = none :=
    run_forOrphans s.locks.keys hmissing hkeys
  obtain ⟨t, hrun, hgone⟩ := hloop
  have horphans : (pruneOrphanWorktreeLeases : LeaseProg ι Unit).run s = (.ok (), t) := by
    have hread : (readLocksDirectory : LeaseProg ι _).run s =
        (.ok s.locks.keys, { s with lastOp := some .readDirectory }) := rfl
    rw [pruneOrphanWorktreeLeases, Prog.run_bind_ok hread, hrun]
  have hvisits : (pruneOrphanWorktreeLeases : LeaseProg ι Unit).Visits s t := by
    have hend := Prog.visits_end (pruneOrphanWorktreeLeases : LeaseProg ι Unit) s
    rwa [horphans] at hend
  refine ⟨t, ?_, hgone⟩
  exact ((((hvisits.bind _).mapError _).bind _).tryCatch _ |>.bind _).bind _

/-! ### The result -/

variable [DecidableEq ι]

theorem lock_withSandbox_released {lease : AcquiredWorktreeLease} {s₁ t : LeaseWorld ι}
    {result : Except SandboxError Unit × Option String}
    (hacquire : (acquireLeaseForBranch caller config).run s = (.ok lease, s₁))
    (hrun : (leasedRun config run).run s₁ = (.ok result, t)) (f : String) :
    ((withSandbox caller config run).run s).2.lock f =
      if f = branchLock config.branch then none else t.lock f := by
  have hrelease : (releaseLeaseForBranch caller config).run t = (.ok (), _) := rfl
  rw [withSandbox, Prog.run_bind_ok hacquire, Prog.run_bind_ok hrun, Prog.run_bind_ok hrelease]
  cases result.1 with
  | ok a => exact lock_unlink
  | error e => exact lock_unlink

theorem lock_withSandbox_failed {lease : AcquiredWorktreeLease} {s₁ t : LeaseWorld ι}
    {e : SandboxError} (hacquire : (acquireLeaseForBranch caller config).run s = (.ok lease, s₁))
    (hrun : (leasedRun config run).run s₁ = (.error e, t)) :
    ((withSandbox caller config run).run s).2 = t := by
  rw [withSandbox, Prog.run_bind_ok hacquire, Prog.run_bind_error hrun]

/-- The lease is held for the whole execution and only for it, exactly when it was not to be
had, or the worktree was there before, no step of the setup fails, and the cleanup does not
fail. -/
theorem leaseKept_iff (halive : s.alive caller.pid = true)
    (hinodes : ∀ fileName file, s.lock fileName = some file → file.inode < s.nextInode) :
    LeaseKept caller config run s ↔
      leaseBlocked config s = true ∨
        s.worktrees (leaseNameFromBranch config.branch) = true ∧
          setupSucceeds config run = true ∧ cleanupSucceeds run = true := by
  cases hblocked : leaseBlocked config s with
  | true =>
    obtain ⟨e, t, hacquire, hlock⟩ := run_acquire_blocked caller hblocked
    refine iff_of_true ⟨?_, ?_⟩ (Or.inl rfl)
    · intro lease s₁ h
      rw [hacquire] at h
      cases h
    · intro f file hf
      rw [withSandbox, Prog.run_bind_error hacquire, hlock] at hf
      exact hinodes f file hf
  | false =>
    rw [or_iff_right Bool.false_ne_true]
    obtain ⟨lease, s₁, hacquire, hworktrees, halive₁, hlock⟩ :=
      run_acquire_free caller hblocked
    have hleased : LeasedTo caller config s.nextInode s₁ := by
      refine ⟨by rw [hlock, if_pos rfl], fun f file hf => ?_⟩
      rw [hlock] at hf
      split at hf
      · rename_i hname
        exact Or.inl hname
      · exact Or.inr (hinodes f file hf)
    have hend := isOk_leasedRun config run s₁
    cases hworktree : s.worktrees (leaseNameFromBranch config.branch) with
    | false =>
      -- The prune removes the lock file.
      refine iff_of_false ?_ fun h => Bool.false_ne_true h.1
      intro hkept
      have hmissing : s₁.worktrees (leaseNameFromBranch config.branch) = false := by
        rw [hworktrees]
        exact hworktree
      obtain ⟨t, hvisits, hgone⟩ := visits_orphaned run hmissing
      obtain ⟨file, record, hfile, -⟩ := hkept.held lease s₁ hacquire t hvisits
      rw [hgone] at hfile
      cases hfile
    | true =>
      rw [and_iff_right rfl, ← Bool.and_eq_true, ← hend]
      have hsafe : PruneSafe caller config s₁ :=
        ⟨by rw [hworktrees]; exact hworktree, by rw [halive₁]; exact halive⟩
      have hsat := sat_leasedRun run s.nextInode hsafe
      cases hrun : (leasedRun config run).run s₁ with
      | mk result t =>
        have ht : LeasedTo caller config s.nextInode t := by
          have := (hsat.run hleased).1
          rwa [hrun] at this
        cases result with
        | ok result =>
          refine iff_of_true ⟨?_, ?_⟩ rfl
          · intro lease' s₁' h u hvisits
            rw [hacquire] at h
            obtain ⟨-, rfl⟩ := Prod.mk.inj h
            obtain ⟨m, rfl⟩ := hvisits
            exact (hsat.crashAfter hleased m).namesProcess
          · intro f file hf
            rw [lock_withSandbox_released hacquire hrun] at hf
            split at hf
            · cases hf
            · rename_i hne
              exact (ht.old f file hf).resolve_left hne
        | error e =>
          -- The release phase does not run.
          refine iff_of_false ?_ (by simp [Except.isOk, Except.toBool])
          intro hkept
          have hleft := hkept.gone (branchLock config.branch) _ (by
            rw [lock_withSandbox_failed hacquire hrun]
            exact ht.own)
          exact Nat.lt_irrefl _ hleft

end

/-! ### A run on a new branch -/

def sampleCaller : LeaseCaller Unit where
  fiber := ()
  pid := 1
  now := "noon"

def sampleConfig : SandboxConfig where
  hostRepoDir := "/repo"
  branch := "b"
  sandboxProvider := .none

def sampleSandboxRun : SandboxRun where
  git := { realWorktreesDir := "/repo/.archloop/worktrees" }

def sampleRepository (worktree : Bool) : LeaseWorld Unit where
  locks := ∅
  worktrees := fun name => worktree && name == "b"
  alive := fun pid => pid == 1
  nextInode := 0
  holding := fun _ _ => none
  lastOp := none

/-- With its worktree there, the run holds its lease and gives it back. -/
theorem leaseKept_iff_sample :
    LeaseKept sampleCaller sampleConfig sampleSandboxRun (sampleRepository true) := by
  have hinodes : ∀ fileName file, (sampleRepository true).lock fileName = some file →
      file.inode < (sampleRepository true).nextInode := by
    intro fileName file h
    cases h
  exact (leaseKept_iff rfl hinodes).mpr (Or.inr ⟨rfl, by decide, by decide⟩)

/-- On a branch without a worktree, nothing fails and no other process acts, but the run
removes its own lock file before it creates the worktree. -/
theorem newBranch_not_leaseKept :
    ¬ LeaseKept sampleCaller sampleConfig sampleSandboxRun (sampleRepository false) := by
  intro hkept
  have hfree : leaseBlocked sampleConfig (sampleRepository false) = false := rfl
  obtain ⟨lease, s₁, hacquire, hworktrees, -, -⟩ := run_acquire_free sampleCaller hfree
  have hmissing : s₁.worktrees (leaseNameFromBranch sampleConfig.branch) = false := by
    rw [hworktrees]
    rfl
  obtain ⟨t, hvisits, hgone⟩ := visits_orphaned sampleSandboxRun hmissing
  obtain ⟨file, record, hfile, -⟩ := hkept.held lease s₁ hacquire t hvisits
  rw [hgone] at hfile
  cases hfile

end ArchLoop
