import ArchLoop.HandleApi
import ArchLoop.Lib.Frame
import ArchLoop.Proofs.SandboxLease

/-!
# `ArchLoop.Proofs.HandleLeases`: what a handle leaves of its lease

A handle should hold the lease of its branch while it is open, and leave no lock file behind:
neither when the call that makes it fails, nor once `close` was called (`NoLeakedLease`).

`createWorktree` does so unless the write to the new lock file fails. `createSandbox` needs more
(`noLeakedLease_iff`): its `try` ends with the worktree, so a later step of the set-up that fails
leaves the lock file, and its `close` is marked as done before the provider is closed, so a
provider that fails to close leaves it as well.
-/

set_option autoImplicit false

namespace ArchLoop

open ArchLoop.Lib

variable {ι : Type}

/-! ### Statement -/

section
variable [DecidableEq ι]

/-- The handle holds its lease while it is open, and only then.

- `failed`: a call that fails leaves no lock file of its own.
- `opened`: the lock file of an open handle names the process.
- `closed`: after one or more calls of `close`, which may throw, there is no lock file. -/
structure NoLeakedLease (kind : HandleKind) (caller : LeaseCaller ι) (options : HandleOptions)
    (run : HandleRun) (s : LeaseWorld ι) : Prop where
  failed : ∀ e t, (createHandle kind caller options run).run (s, {}) = (.error e, t) →
    t.1.lock (branchLock options.worktreeBranch) = none ∨
      t.1.lock (branchLock options.worktreeBranch) =
        s.lock (branchLock options.worktreeBranch)
  opened : ∀ path t, (createHandle kind caller options run).run (s, {}) = (.ok path, t) →
    NamesProcess caller.pid options.worktreeBranch t.1
  closed : ∀ path t n, (createHandle kind caller options run).run (s, {}) = (.ok path, t) →
    ((closeCalls (closeHandle kind caller options run path) (n + 1)).exec t).1.lock
      (branchLock options.worktreeBranch) = none

def leaseComesFirst (kind : HandleKind) (options : HandleOptions) : Bool :=
  kind = .sandbox || options.branch.isSome

def leaseState (kind : HandleKind) (options : HandleOptions) (run : HandleRun)
    (s : LeaseWorld ι) : LeaseWorld ι :=
  let entered := (enterRepository options run).exec s
  if leaseComesFirst kind options then entered
  else (createTempWorktree run.git options.hostRepoDir options.worktreeBranch).exec entered

def canOpen : Option LeaseFileFault → Bool
  | some (.noFile _) => false
  | _ => true

/-- The call comes as far as to create its lock file. -/
def createsLockFile (kind : HandleKind) (options : HandleOptions) (run : HandleRun)
    (s : LeaseWorld ι) : Bool :=
  run.cwd.answer.isOk &&
    (leaseComesFirst kind options || (createTempResult run.git).isOk) &&
    !leaseBlocked options.toConfig (leaseState kind options run s) && canOpen run.leaseFile

/-- The call writes its lock file, and after the worktree of a sandbox is there, nothing fails
that would have to release the lease. -/
def releasesLease (kind : HandleKind) (options : HandleOptions) (run : HandleRun) : Bool :=
  run.leaseFile.isNone &&
    match kind with
    | .worktree => true
    | .sandbox =>
      !(createResult run.git options.hostRepoDir options.worktreeBranch).isOk ||
        ((sandboxSteps options run).all (·.answer.isOk) && run.closeProvider.answer.isOk)

end

/-! ### Before the lease -/

structure OnlyRemoves (s t : LeaseWorld ι) : Prop where
  nextInode : t.nextInode = s.nextInode
  lock : ∀ f, t.lock f = none ∨ t.lock f = s.lock f

theorem OnlyRemoves.refl (s : LeaseWorld ι) : OnlyRemoves s s :=
  ⟨rfl, fun _ => Or.inr rfl⟩

theorem OnlyRemoves.trans {s t u : LeaseWorld ι} (h : OnlyRemoves s t) (h' : OnlyRemoves t u) :
    OnlyRemoves s u := by
  refine ⟨h'.nextInode.trans h.nextInode, fun f => ?_⟩
  rcases h'.lock f with hnone | heq
  · exact Or.inl hnone
  · rw [heq]
    exact h.lock f

/-! ### Pruning the lock files

The functions that look for stale lock files do nothing but read and remove lock files. -/

/-- A relation between states that a read allows, and the removal of a lock file. -/
structure AllowsRemoval (P : LeaseWorld ι → LeaseWorld ι → Prop) : Prop where
  read : ∀ s op, P s { s with lastOp := some op }
  unlink : ∀ s fileName, P s { s.unlink fileName with lastOp := some (.unlink fileName) }

section
variable {P : LeaseWorld ι → LeaseWorld ι → Prop} (h : AllowsRemoval P)
include h

theorem always_leaseRead {α : Type} (op : LeaseOp) (answer : LeaseWorld ι → α) :
    Prog.Always P (leaseStep op id answer) :=
  fun s => ⟨h.read s op, trivial⟩

theorem always_removeLeaseFileByPath (fileName : String) :
    Prog.Always P (removeLeaseFileByPath fileName) :=
  fun s => ⟨h.unlink s fileName, trivial⟩

theorem always_readLeaseMetadata (repoDir branch : String) :
    Prog.Always P (readLeaseMetadata repoDir branch) := by
  refine Prog.always_bind (always_leaseRead h _ _) fun raw => ?_
  cases raw with
  | none => trivial
  | some text =>
    show Prog.Always P (ofExcept (parseLeaseMetadata text repoDir branch true))
    cases parseLeaseMetadata text repoDir branch true with
    | ok a => trivial
    | error e => trivial

theorem always_recover (repoDir branch : String) :
    Prog.Always P (recoverStaleWorktreeLeaseIfNeeded repoDir branch) := by
  refine Prog.always_bind (always_leaseRead h _ _) fun found => ?_
  cases found with
  | false => trivial
  | true =>
    refine Prog.always_bind (always_leaseRead h _ _) fun worktree => ?_
    cases worktree with
    | false => exact Prog.always_bind (always_removeLeaseFileByPath h _) fun _ => trivial
    | true =>
      refine Prog.always_bind (always_readLeaseMetadata h _ _) fun metadata => ?_
      refine Prog.always_bind (always_leaseRead h _ _) fun alive => ?_
      cases alive with
      | true => trivial
      | false => exact Prog.always_bind (always_removeLeaseFileByPath h _) fun _ => trivial

omit h in
theorem always_forEntries {body : String → LeaseProg ι Unit}
    (hbody : ∀ entry, Prog.Always P (body entry)) (entries : List String) :
    Prog.Always P (forEntries body entries) := by
  induction entries with
  | nil => trivial
  | cons entry entries ih => exact Prog.always_bind (hbody entry) fun _ => ih

theorem always_pruneOrphanEntry (entry : String) :
    Prog.Always P (pruneOrphanEntry entry) := by
  unfold pruneOrphanEntry
  split
  · trivial
  · refine Prog.always_bind (always_leaseRead h _ _) fun worktree => ?_
    cases worktree with
    | false => exact always_removeLeaseFileByPath h entry
    | true => trivial

theorem always_pruneStaleEntry (repoDir entry : String) :
    Prog.Always P (pruneStaleEntry repoDir entry) := by
  unfold pruneStaleEntry
  split
  · trivial
  · refine Prog.always_bind (always_leaseRead h _ _) fun raw => ?_
    split
    · trivial
    · split
      · trivial
      · refine Prog.always_tryCatch
          (Prog.always_bind (always_recover h _ _) fun _ => trivial) fun error => ?_
        split
        · trivial
        · trivial

theorem always_pruneStaleWorktreeLeases (repoDir : String) :
    Prog.Always P (pruneStaleWorktreeLeases repoDir) := by
  refine Prog.always_bind (Prog.always_bind (always_leaseRead h _ _) fun entries =>
    always_forEntries (always_pruneOrphanEntry h) entries) fun _ => ?_
  exact Prog.always_bind (always_leaseRead h _ _) fun entries =>
    always_forEntries (always_pruneStaleEntry h repoDir) entries

end

theorem allowsRemoval_onlyRemoves : AllowsRemoval (OnlyRemoves (ι := ι)) where
  read _ _ := ⟨rfl, fun _ => Or.inr rfl⟩
  unlink s fileName := by
    refine ⟨rfl, fun f => ?_⟩
    show (s.unlink fileName).lock f = none ∨ (s.unlink fileName).lock f = s.lock f
    rw [lock_unlink]
    split
    · exact Or.inl rfl
    · exact Or.inr rfl

theorem removes_enterRepository (options : HandleOptions) (run : HandleRun) :
    Prog.Always (OnlyRemoves (ι := ι)) (enterRepository options run) := by
  have hcwd : Prog.Always (OnlyRemoves (ι := ι)) (outsideStep run.cwd) := by
    intro s
    refine ⟨⟨rfl, fun _ => Or.inr rfl⟩, ?_⟩
    cases run.cwd.answer with
    | ok a => trivial
    | error e => trivial
  refine Prog.always_bind hcwd fun _ => Prog.always_tryCatch ?_ fun _ => trivial
  refine Prog.always_bind (Prog.always_mapError
    (always_pruneStaleWorktreeLeases allowsRemoval_onlyRemoves _)) fun _ => ?_
  intro s
  refine ⟨⟨rfl, fun _ => Or.inr rfl⟩, ?_⟩
  dsimp only
  cases (pruneDirectories run.git s.worktrees).1 with
  | ok a => trivial
  | error e => trivial

/-! ### Steps that touch no lock file -/

theorem run_outsideStep (step : OutsideStep) (s : LeaseWorld ι) :
    (outsideStep step).run s =
      (step.answer, { s with worktrees := step.worktrees s.worktrees }) := by
  rw [outsideStep, Prog.run_act]
  cases step.answer with
  | ok a => rfl
  | error e => rfl

theorem keepsLocks_setup (steps : List OutsideStep) :
    Prog.Keeps (LeaseWorld.locks (ι := ι)) (setup steps) := by
  induction steps with
  | nil => trivial
  | cons step steps ih =>
    refine Prog.always_bind (fun s => ⟨rfl, ?_⟩) fun _ => ih
    cases step.answer with
    | ok a => trivial
    | error e => trivial

theorem keepsLocks_createWorktree (git : WorktreeGit) (repoDir branch : String) :
    Prog.Keeps (LeaseWorld.locks (ι := ι)) (createWorktree git repoDir branch) := by
  unfold createWorktree
  split
  · exact fun s => ⟨rfl, trivial⟩
  · refine fun s => ⟨?_, trivial⟩
    dsimp only
    split
    · rfl
    · rfl

theorem keepsLocks_createTempWorktree (git : WorktreeGit) (repoDir branch : String) :
    Prog.Keeps (LeaseWorld.locks (ι := ι)) (createTempWorktree git repoDir branch) := by
  unfold createTempWorktree
  split
  · exact fun s => ⟨rfl, trivial⟩
  · exact fun s => ⟨rfl, trivial⟩

theorem lock_of_keepsLocks {α : Type} {p : SandboxProg ι α}
    (h : Prog.Keeps (LeaseWorld.locks (ι := ι)) p) (s : LeaseWorld ι) (f : String) :
    (p.run s).2.lock f = s.lock f := by
  unfold LeaseWorld.lock
  rw [h.run s]

theorem isOk_createTempWorktree (git : WorktreeGit) (repoDir branch : String)
    (s : LeaseWorld ι) :
    ((createTempWorktree git repoDir branch).run s).1.isOk = (createTempResult git).isOk := by
  unfold createTempWorktree
  cases createTempResult git <;> rfl

theorem isOk_enterRepository (options : HandleOptions) (run : HandleRun) (s : LeaseWorld ι) :
    ((enterRepository options run).run s).1.isOk = run.cwd.answer.isOk := by
  rw [enterRepository, Prog.run_bind, run_outsideStep]
  cases run.cwd.answer with
  | error e => rfl
  | ok a =>
    dsimp only
    rw [Prog.run_tryCatch]
    cases (pruneStale run.git options.hostRepoDir).run _ with
    | mk result t => cases result <;> rfl

/-! ### Closing once -/

section
variable {s : LeaseWorld ι} {flags : HandleFlags}

theorem run_closingOnce (body : HandleProg ι (Option String)) (h : flags.closed = false) :
    (closingOnce body).run (s, flags) = body.run (s, { flags with closed := true }) := by
  rw [closingOnce, Prog.run_bind, Prog.run_reads]
  dsimp only
  rw [h, if_neg Bool.false_ne_true, Prog.run_bind, setFlags, Prog.run_modify]

theorem run_closingAgain (body : HandleProg ι (Option String)) (h : flags.closed = true) :
    (closingOnce body).run (s, flags) = (.ok none, (s, flags)) := by
  rw [closingOnce, Prog.run_bind, Prog.run_reads]
  dsimp only
  rw [h, if_pos rfl]
  rfl

theorem exec_closeCalls_closed (body : HandleProg ι (Option String)) (n : Nat)
    (h : flags.closed = true) :
    (closeCalls (closingOnce body) n).exec (s, flags) = (s, flags) := by
  induction n with
  | zero => rfl
  | succ n ih =>
    show ((closingOnce body).attempt.bind fun _ => closeCalls (closingOnce body) n).exec _ = _
    rw [Prog.exec, Prog.run_bind, Prog.run_attempt, run_closingAgain body h]
    exact ih

theorem exec_closeCalls (body : HandleProg ι (Option String)) (n : Nat)
    (h : flags.closed = false)
    (hbody : (body.exec (s, { flags with closed := true })).2.closed = true) :
    (closeCalls (closingOnce body) (n + 1)).exec (s, flags) =
      body.exec (s, { flags with closed := true }) := by
  show ((closingOnce body).attempt.bind fun _ => closeCalls (closingOnce body) n).exec _ = _
  rw [Prog.exec, Prog.run_bind, Prog.run_attempt, run_closingOnce body h]
  exact exec_closeCalls_closed body n hbody

end

/-! ### The lease of a handle -/

section
variable [DecidableEq ι] {caller : LeaseCaller ι} {options : HandleOptions} {run : HandleRun}
  {config : SandboxConfig} {s : LeaseWorld ι} {flags : HandleFlags}

omit [DecidableEq ι] in
theorem run_onRepository {α : Type} (p : SandboxProg ι α) (s : LeaseWorld ι)
    (flags : HandleFlags) :
    (onRepository p).run (s, flags) = ((p.run s).1, ((p.run s).2, flags)) :=
  Prog.run_tracked_const p s flags

variable (caller) in
theorem run_acquireHeld_blocked (fault : Option LeaseFileFault)
    (h : leaseBlocked config s = true) :
    ∃ e t, (acquireHeldLease caller config fault).run (s, flags) = (.error e, (t, flags)) ∧
      ∀ f, t.lock f = s.lock f := by
  cases fault with
  | none =>
    obtain ⟨e, t, hacquire, hlock⟩ := run_acquire_blocked caller h
    refine ⟨e, t, ?_, hlock⟩
    rw [acquireHeldLease, Prog.run_bind, run_onRepository, acquireLease,
      Prog.run_bind_error hacquire]
  | some fault =>
    obtain ⟨e, t, hensure, hlock⟩ := run_ensure_blocked h
    refine ⟨mapWorktreeLeaseError e, t, ?_, hlock⟩
    have hmap := Prog.run_mapError mapWorktreeLeaseError
      (ensureLeaseAvailableForAcquisition (ι := ι) config.hostRepoDir config.branch) s
    rw [hensure] at hmap
    rw [acquireHeldLease, Prog.run_bind, run_onRepository, acquireLease,
      Prog.run_bind_error hmap]

variable (caller) in
theorem run_acquireHeld_ok (h : leaseBlocked config s = false) :
    ∃ t, (acquireHeldLease caller config none).run (s, flags) =
        (.ok (), (t, { flags with held := true })) ∧
      t.worktrees = s.worktrees ∧
      t.lock (branchLock config.branch) = some (ownLock caller config s.nextInode) := by
  obtain ⟨lease, t, hacquire, hworktrees, -, hlock⟩ := run_acquire_free caller h
  refine ⟨t, ?_, hworktrees, by rw [hlock, if_pos rfl]⟩
  rw [acquireHeldLease, Prog.run_bind, run_onRepository, acquireLease,
    Prog.run_bind_ok hacquire]
  rfl

variable (caller) in
theorem run_acquireHeld_noFile {message : String} (h : leaseBlocked config s = false) :
    ∃ e t, (acquireHeldLease caller config (some (.noFile message))).run (s, flags) =
        (.error e, (t, flags)) ∧ t.lock (branchLock config.branch) = none := by
  obtain ⟨t, hensure, -, hlock⟩ := run_ensure_free h
  have hmap := Prog.run_mapError mapWorktreeLeaseError
    (ensureLeaseAvailableForAcquisition (ι := ι) config.hostRepoDir config.branch) s
  rw [hensure] at hmap
  refine ⟨.worktree message, t, ?_, by rw [hlock, if_pos rfl]⟩
  rw [acquireHeldLease, Prog.run_bind, run_onRepository, acquireLease, Prog.run_bind_ok hmap]
  rfl

variable (caller) in
/-- The lock file is created, and the write to it fails: nobody holds the lease, and the file
is there. -/
theorem run_acquireHeld_write {message : String} (h : leaseBlocked config s = false) :
    ∃ e t, (acquireHeldLease caller config (some (.write message))).run (s, flags) =
        (.error e, (t, flags)) ∧
      t.lock (branchLock config.branch) = some { inode := s.nextInode, text := none } := by
  obtain ⟨t, hensure, honly, hlock⟩ := run_ensure_free h
  have hmap := Prog.run_mapError mapWorktreeLeaseError
    (ensureLeaseAvailableForAcquisition (ι := ι) config.hostRepoDir config.branch) s
  rw [hensure] at hmap
  have hfree : t.lock (branchLock config.branch) = none := by rw [hlock, if_pos rfl]
  have hopen : (t.openExclusive caller.fiber (branchLock config.branch)).lock
      (branchLock config.branch) = some { inode := s.nextInode, text := none } := by
    rw [lock_openExclusive hfree, if_pos rfl, honly.nextInode]
  refine ⟨.worktree message, { t.openExclusive caller.fiber (branchLock config.branch) with
    lastOp := some (.openExclusive (branchLock config.branch)) }, ?_, hopen⟩
  rw [acquireHeldLease, Prog.run_bind, run_onRepository, acquireLease, Prog.run_bind_ok hmap]
  rfl

variable (caller config s) in
theorem run_releaseHeld (h : flags.held = true) :
    ∃ t, (releaseHeldLease caller config).run (s, flags) =
        (.ok (), (t, { flags with held := false })) ∧
      t.lock (branchLock config.branch) = none := by
  refine ⟨((releaseLeaseForBranch caller config).run s).2, ?_, ?_⟩
  · rw [releaseHeldLease, Prog.run_bind, Prog.run_reads]
    dsimp only
    rw [h, if_pos rfl, Prog.run_bind, setFlags, Prog.run_modify]
    dsimp only
    rw [run_onRepository]
    rfl
  · show (s.unlink (branchLock config.branch)).lock (branchLock config.branch) = none
    rw [lock_unlink, if_pos rfl]

theorem run_releaseUnheld (h : flags.held = false) :
    (releaseHeldLease caller config).run (s, flags) = (.ok (), (s, flags)) := by
  rw [releaseHeldLease, Prog.run_bind, Prog.run_reads]
  dsimp only
  rw [h, if_neg Bool.false_ne_true]
  rfl

theorem run_releasing_unheld {α : Type} {p : HandleProg ι α} {e : SandboxError}
    {t : LeaseWorld ι} {start : LeaseWorld ι × HandleFlags} (h : flags.held = false)
    (hp : p.run start = (.error e, (t, flags))) :
    (releasingOnError caller config p).run start = (.error e, (t, flags)) := by
  rw [releasingOnError, Prog.run_tryCatch, hp]
  dsimp only
  rw [Prog.run_bind_ok (run_releaseUnheld h)]
  rfl

variable (caller config) in
theorem run_releasing_held {α : Type} {p : HandleProg ι α} {e : SandboxError}
    {t : LeaseWorld ι} {start : LeaseWorld ι × HandleFlags} (h : flags.held = true)
    (hp : p.run start = (.error e, (t, flags))) :
    ∃ u, (releasingOnError caller config p).run start =
        (.error e, (u, { flags with held := false })) ∧
      u.lock (branchLock config.branch) = none := by
  obtain ⟨u, hrelease, hlock⟩ := run_releaseHeld caller config t h
  refine ⟨u, ?_, hlock⟩
  rw [releasingOnError, Prog.run_tryCatch, hp]
  dsimp only
  rw [Prog.run_bind_ok hrelease]
  rfl

variable (caller config) in
theorem run_releasing_ok {α : Type} {p : HandleProg ι α} {a : α}
    {start t : LeaseWorld ι × HandleFlags} (hp : p.run start = (.ok a, t)) :
    (releasingOnError caller config p).run start = (.ok a, t) := by
  rw [releasingOnError, Prog.run_tryCatch, hp]

/-! ### Closing -/

variable (caller options run s flags) in
theorem run_closeWorktreeOf (worktreePath : String) (h : flags.held = true) :
    ∃ path t, (closeWorktreeOf caller options run worktreePath).run (s, flags) =
        (.ok path, (t, { flags with held := false })) ∧
      t.lock (branchLock options.worktreeBranch) = none := by
  have hremoved : ∃ path t, ((((onRepository (outsideStep run.git.remove)).tryCatch
      fun _ => .ret ()).bind fun _ => (releaseHeldLease caller options.toConfig).bind fun _ =>
        (.ret none : HandleProg ι (Option String)))).run (s, flags) =
        (.ok path, (t, { flags with held := false })) ∧
      t.lock (branchLock options.worktreeBranch) = none := by
    have htry : ((onRepository (outsideStep run.git.remove)).tryCatch fun _ => .ret ()).run
        (s, flags) =
        (.ok (), ({ s with worktrees := run.git.remove.worktrees s.worktrees }, flags)) := by
      rw [Prog.run_tryCatch, run_onRepository, run_outsideStep]
      cases run.git.remove.answer <;> rfl
    obtain ⟨t, hrelease, hlock⟩ := run_releaseHeld caller options.toConfig
      { s with worktrees := run.git.remove.worktrees s.worktrees } h
    refine ⟨none, t, ?_, hlock⟩
    rw [Prog.run_bind_ok htry, Prog.run_bind_ok hrelease]
    rfl
  unfold closeWorktreeOf
  split
  · obtain ⟨t, hrelease, hlock⟩ := run_releaseHeld caller options.toConfig s h
    refine ⟨some worktreePath, t, ?_, hlock⟩
    rw [Prog.run_bind_ok hrelease]
    rfl
  · exact hremoved

/-! ### From the start to the lease -/

/-- The lock file of the branch is gone, or it is as before. -/
def LeftAlone (branch : String) (s t : LeaseWorld ι) : Prop :=
  t.lock (branchLock branch) = none ∨ t.lock (branchLock branch) = s.lock (branchLock branch)

/-- A program, the lease, and a program that has it. -/
def leasing {α β : Type} (caller : LeaseCaller ι) (config : SandboxConfig)
    (fault : Option LeaseFileFault) (first : HandleProg ι α) (rest : α → HandleProg ι β) :
    HandleProg ι β :=
  first.bind fun a => (acquireHeldLease caller config fault).bind fun _ => rest a

variable {α β : Type} {first : HandleProg ι α} {rest : α → HandleProg ι β}
  {fault : Option LeaseFileFault} {s₁ : LeaseWorld ι} {a : α}

theorem run_leasing_early {e : SandboxError} (hrun : first.run (s, {}) = (.error e, (s₁, {})))
    (hremoves : OnlyRemoves s s₁) :
    ∃ e t, (leasing caller config fault first rest).run (s, {}) = (.error e, (t, {})) ∧
      LeftAlone config.branch s t :=
  ⟨e, s₁, Prog.run_bind_error hrun _, hremoves.lock _⟩

theorem run_leasing_blocked (hrun : first.run (s, {}) = (.ok a, (s₁, {})))
    (hremoves : OnlyRemoves s s₁) (hblocked : leaseBlocked config s₁ = true) :
    ∃ e t, (leasing caller config fault first rest).run (s, {}) = (.error e, (t, {})) ∧
      LeftAlone config.branch s t := by
  obtain ⟨e, t, hacquire, hlock⟩ := run_acquireHeld_blocked caller fault hblocked
  refine ⟨e, t, ?_, ?_⟩
  · rw [leasing, Prog.run_bind_ok hrun, Prog.run_bind_error hacquire]
  · rw [LeftAlone, hlock]
    exact hremoves.lock _

theorem run_leasing_noFile {message : String} (hrun : first.run (s, {}) = (.ok a, (s₁, {})))
    (hfree : leaseBlocked config s₁ = false) :
    ∃ e t, (leasing caller config (some (.noFile message)) first rest).run (s, {}) =
        (.error e, (t, {})) ∧ LeftAlone config.branch s t := by
  obtain ⟨e, t, hacquire, hlock⟩ := run_acquireHeld_noFile caller hfree
  refine ⟨e, t, ?_, Or.inl hlock⟩
  rw [leasing, Prog.run_bind_ok hrun, Prog.run_bind_error hacquire]

theorem run_leasing_write {message : String} (hrun : first.run (s, {}) = (.ok a, (s₁, {})))
    (hremoves : OnlyRemoves s s₁) (hfree : leaseBlocked config s₁ = false) :
    ∃ e t, (leasing caller config (some (.write message)) first rest).run (s, {}) =
        (.error e, (t, {})) ∧
      t.lock (branchLock config.branch) = some { inode := s.nextInode, text := none } := by
  obtain ⟨e, t, hacquire, hlock⟩ := run_acquireHeld_write caller hfree
  refine ⟨e, t, ?_, ?_⟩
  · rw [leasing, Prog.run_bind_ok hrun, Prog.run_bind_error hacquire]
  · rw [hlock, hremoves.nextInode]

variable (rest) in
theorem run_leasing_ok (hrun : first.run (s, {}) = (.ok a, (s₁, {})))
    (hremoves : OnlyRemoves s s₁) (hfree : leaseBlocked config s₁ = false) :
    ∃ t, (leasing caller config none first rest).run (s, {}) =
        (rest a).run (t, { held := true }) ∧
      t.lock (branchLock config.branch) = some (ownLock caller config s.nextInode) := by
  obtain ⟨t, hacquire, -, hlock⟩ := run_acquireHeld_ok caller hfree
  refine ⟨t, ?_, ?_⟩
  · rw [leasing, Prog.run_bind_ok hrun, Prog.run_bind_ok hacquire]
  · rw [hlock, hremoves.nextInode]

/-- The lock file is created: the first program returns, the lease is free, and the file can be
opened. -/
def opensLockFile {γ : Type} (r : Except SandboxError γ) (config : SandboxConfig)
    (fault : Option LeaseFileFault) (s₁ : LeaseWorld ι) : Bool :=
  r.isOk && !leaseBlocked config s₁ && canOpen fault

variable (caller rest) in
theorem leasing_cases {r : Except SandboxError α} (hrun : first.run (s, {}) = (r, (s₁, {})))
    (hremoves : OnlyRemoves s s₁) :
    (opensLockFile r config fault s₁ = false ∧
      ∃ e t, (leasing caller config fault first rest).run (s, {}) = (.error e, (t, {})) ∧
        LeftAlone config.branch s t) ∨
    (opensLockFile r config fault s₁ = true ∧ fault.isNone = false ∧
      ∃ e t, (leasing caller config fault first rest).run (s, {}) = (.error e, (t, {})) ∧
        t.lock (branchLock config.branch) = some { inode := s.nextInode, text := none }) ∨
    (opensLockFile r config fault s₁ = true ∧ fault.isNone = true ∧
      ∃ a t, (leasing caller config fault first rest).run (s, {}) =
          (rest a).run (t, { held := true }) ∧ r = .ok a ∧
        t.lock (branchLock config.branch) = some (ownLock caller config s.nextInode)) := by
  cases r with
  | error e => exact Or.inl ⟨rfl, run_leasing_early hrun hremoves⟩
  | ok a =>
    cases hblocked : leaseBlocked config s₁ with
    | true =>
      refine Or.inl ⟨?_, run_leasing_blocked hrun hremoves hblocked⟩
      simp [opensLockFile, hblocked]
    | false =>
      cases fault with
      | none =>
        obtain ⟨t, hrest, hlock⟩ := run_leasing_ok rest hrun hremoves hblocked
        refine Or.inr (Or.inr ⟨?_, rfl, a, t, hrest, rfl, hlock⟩)
        simp [opensLockFile, canOpen, hblocked, Except.isOk, Except.toBool]
      | some fault =>
        cases fault with
        | noFile message =>
          exact Or.inl ⟨by simp [opensLockFile, canOpen], run_leasing_noFile hrun hblocked⟩
        | write message =>
          refine Or.inr (Or.inl ⟨?_, rfl, run_leasing_write hrun hremoves hblocked⟩)
          simp [opensLockFile, canOpen, hblocked, Except.isOk, Except.toBool]

end

/-! ### Handles that leak and handles that do not -/

section
variable [DecidableEq ι] {kind : HandleKind} {caller : LeaseCaller ι} {options : HandleOptions}
  {run : HandleRun} {s t : LeaseWorld ι} {flags : HandleFlags} {e : SandboxError}

theorem noLeakedLease_of_failed
    (hrun : (createHandle kind caller options run).run (s, {}) = (.error e, (t, flags)))
    (hlock : LeftAlone options.worktreeBranch s t) :
    NoLeakedLease kind caller options run s := by
  refine ⟨?_, ?_, ?_⟩
  · intro e' t' h
    rw [hrun] at h
    obtain ⟨-, rfl⟩ := Prod.mk.inj h
    exact hlock
  · intro path t' h
    rw [hrun] at h
    cases h
  · intro path t' n h
    rw [hrun] at h
    cases h

theorem not_noLeakedLease_of_failed {file : LockFile}
    (hinodes : ∀ fileName file, s.lock fileName = some file → file.inode < s.nextInode)
    (hrun : (createHandle kind caller options run).run (s, {}) = (.error e, (t, flags)))
    (hlock : t.lock (branchLock options.worktreeBranch) = some file)
    (hinode : file.inode = s.nextInode) : ¬ NoLeakedLease kind caller options run s := by
  intro h
  rcases h.failed e _ hrun with hnone | hsame
  · dsimp only at hnone
    rw [hlock] at hnone
    cases hnone
  · dsimp only at hsame
    rw [hlock] at hsame
    have hold := hinodes _ _ hsame.symm
    omega

/-- The body of the `close` of a handle. -/
def closeBody (kind : HandleKind) (caller : LeaseCaller ι) (options : HandleOptions)
    (run : HandleRun) (worktreePath : String) : HandleProg ι (Option String) :=
  match kind with
  | .sandbox =>
    (onRepository (outsideStep run.closeProvider)).bind fun _ =>
      closeWorktreeOf caller options run worktreePath
  | .worktree => closeWorktreeOf caller options run worktreePath

theorem closeHandle_eq (path : String) :
    closeHandle kind caller options run path =
      closingOnce (closeBody kind caller options run path) := by
  cases kind with
  | sandbox => rfl
  | worktree => rfl

/-- A provider that fails to close, when the handle has one. -/
def closeFails (kind : HandleKind) (run : HandleRun) : Bool :=
  kind = .sandbox && !run.closeProvider.answer.isOk

theorem exec_closeHandle_ok (path : String) (n : Nat) (h : closeFails kind run = false) :
    ((closeCalls (closeHandle kind caller options run path) (n + 1)).exec
      (s, { held := true })).1.lock (branchLock options.worktreeBranch) = none := by
  obtain ⟨t, hbody, hlock⟩ : ∃ t, (closeBody kind caller options run path).exec
      (s, { held := true, closed := true }) = (t, { held := false, closed := true }) ∧
      t.lock (branchLock options.worktreeBranch) = none := by
    cases kind with
    | worktree =>
      obtain ⟨result, t, hrun, hlock⟩ := run_closeWorktreeOf caller options run s
        { held := true, closed := true } path rfl
      exact ⟨t, congrArg Prod.snd hrun, hlock⟩
    | sandbox =>
      obtain ⟨a, ha⟩ : ∃ a, run.closeProvider.answer = .ok a := by
        cases hanswer : run.closeProvider.answer with
        | ok a => exact ⟨a, rfl⟩
        | error e => simp [closeFails, hanswer, Except.isOk, Except.toBool] at h
      obtain ⟨result, t, hrun, hlock⟩ := run_closeWorktreeOf caller options run
        { s with worktrees := run.closeProvider.worktrees s.worktrees }
        { held := true, closed := true } path rfl
      refine ⟨t, ?_, hlock⟩
      have hclose : (onRepository (outsideStep run.closeProvider)).run
          (s, { held := true, closed := true }) =
          (.ok a, ({ s with worktrees := run.closeProvider.worktrees s.worktrees },
            { held := true, closed := true })) := by
        rw [run_onRepository, run_outsideStep, ha]
      show (Prog.run _ _).2 = _
      rw [closeBody, Prog.run_bind_ok hclose, hrun]
  rw [closeHandle_eq, exec_closeCalls _ n rfl (by rw [hbody]), hbody]
  exact hlock

variable (caller options s) in
theorem exec_closeHandle_stuck (path : String) (n : Nat) (h : closeFails kind run = true) :
    ((closeCalls (closeHandle kind caller options run path) (n + 1)).exec
      (s, { held := true })).1.locks = s.locks := by
  obtain ⟨rfl, hclose⟩ : kind = .sandbox ∧ run.closeProvider.answer.isOk = false := by
    simpa [closeFails] using h
  obtain ⟨e, he⟩ : ∃ e, run.closeProvider.answer = .error e := by
    cases hanswer : run.closeProvider.answer with
    | error e => exact ⟨e, rfl⟩
    | ok a => simp [hanswer, Except.isOk, Except.toBool] at hclose
  have hprovider : (onRepository (outsideStep run.closeProvider)).run
      (s, { held := true, closed := true }) =
      (.error e, ({ s with worktrees := run.closeProvider.worktrees s.worktrees },
        { held := true, closed := true })) := by
    rw [run_onRepository, run_outsideStep, he]
  have hbody : (closeBody .sandbox caller options run path).exec
      (s, { held := true, closed := true }) =
      ({ s with worktrees := run.closeProvider.worktrees s.worktrees },
        { held := true, closed := true }) := by
    rw [Prog.exec, closeBody, Prog.run_bind_error hprovider]
  rw [closeHandle_eq, exec_closeCalls _ n rfl (by rw [hbody]), hbody]

/-! ### The programs after the lease -/

/-- What the steps after the lease keep: the lock files and the flags. -/
def leaseView (s : LeaseWorld ι × HandleFlags) :
    (AList fun _ : String => LockFile) × HandleFlags :=
  (s.1.locks, s.2)

omit [DecidableEq ι] in
theorem keepsView_onRepository {α : Type} {p : SandboxProg ι α}
    (h : Prog.Keeps (LeaseWorld.locks (ι := ι)) p) :
    Prog.Keeps leaseView (onRepository p) := by
  induction p with
  | ret a => trivial
  | raise e => trivial
  | act upd next ih =>
    intro s
    refine ⟨?_, ih s.1 (h s.1).2⟩
    show ((upd s.1).locks, s.2) = (s.1.locks, s.2)
    rw [(h s.1).1]

omit [DecidableEq ι] in
theorem run_of_keepsView {α : Type} {p : HandleProg ι α} (h : Prog.Keeps leaseView p)
    (s : LeaseWorld ι) (flags : HandleFlags) :
    ∃ t, p.run (s, flags) = ((p.run (s, flags)).1, (t, flags)) ∧ t.locks = s.locks := by
  have hview := h.run (s, flags)
  obtain ⟨hlocks, hflags⟩ := Prod.mk.inj hview
  refine ⟨(p.run (s, flags)).2.1, ?_, hlocks⟩
  refine Prod.ext rfl (Prod.ext rfl hflags)

omit [DecidableEq ι] in
theorem lock_of_locks_eq (h : t.locks = s.locks) (f : String) : t.lock f = s.lock f := by
  unfold LeaseWorld.lock
  rw [h]

def finishSetup (steps : List OutsideStep) (info : WorktreeInfo) : HandleProg ι String :=
  (onRepository (setup steps)).bind fun _ => .ret info.path

omit [DecidableEq ι] in
theorem keepsView_finishSetup (steps : List OutsideStep) (info : WorktreeInfo) :
    Prog.Keeps leaseView (finishSetup (ι := ι) steps info) :=
  Prog.always_bind (keepsView_onRepository (keepsLocks_setup steps)) fun _ => trivial

omit [DecidableEq ι] in
theorem isOk_finishSetup (steps : List OutsideStep) (info : WorktreeInfo)
    (s : LeaseWorld ι × HandleFlags) :
    ((finishSetup steps info).run s).1.isOk = steps.all (·.answer.isOk) := by
  rw [finishSetup, Prog.run_bind, run_onRepository, ← isOk_setup steps s.1]
  cases ((setup steps).run s.1).1 <;> rfl

/-! ### A handle that was made -/

theorem noLeakedLease_iff_of_opened {path : String} {n : Nat}
    (hrun : (createHandle kind caller options run).run (s, {}) =
      (.ok path, (t, { held := true })))
    (hlock : t.lock (branchLock options.worktreeBranch) =
      some (ownLock caller options.toConfig n)) :
    NoLeakedLease kind caller options run s ↔ closeFails kind run = false := by
  constructor
  · intro h
    cases hclose : closeFails kind run with
    | false => rfl
    | true =>
      have hgone := h.closed path _ 0 hrun
      have hstuck := exec_closeHandle_stuck caller options t path 0 hclose
      rw [lock_of_locks_eq hstuck, hlock] at hgone
      cases hgone
  · intro hclose
    refine ⟨?_, ?_, ?_⟩
    · intro e t' h
      rw [hrun] at h
      cases h
    · intro path' t' h
      rw [hrun] at h
      obtain ⟨-, rfl⟩ := Prod.mk.inj h
      exact ⟨_, _, hlock, rfl, serialize_pid _⟩
    · intro path' t' m h
      rw [hrun] at h
      obtain ⟨hpath, rfl⟩ := Prod.mk.inj h
      obtain rfl := Except.ok.inj hpath
      exact exec_closeHandle_ok path m hclose

/-! ### The result -/

omit [DecidableEq ι] in
theorem run_enter (options : HandleOptions) (run : HandleRun) (s : LeaseWorld ι) :
    ∃ r, (onRepository (enterRepository options run)).run (s, {}) =
        (r, ((enterRepository options run).exec s, {})) ∧
      r.isOk = run.cwd.answer.isOk ∧ OnlyRemoves s ((enterRepository options run).exec s) :=
  ⟨_, run_onRepository _ _ _, isOk_enterRepository options run s,
    (removes_enterRepository options run).run OnlyRemoves.refl (fun _ _ _ => OnlyRemoves.trans) s⟩

theorem isOk_cases {ε γ : Type} (r : Except ε γ) :
    (r.isOk = true ∧ ∃ c, r = .ok c) ∨ (r.isOk = false ∧ ∃ e, r = .error e) := by
  cases r with
  | ok c => exact Or.inl ⟨rfl, c, rfl⟩
  | error e => exact Or.inr ⟨rfl, e, rfl⟩

theorem noLeakedLease_sandbox_iff
    (hinodes : ∀ fileName file, s.lock fileName = some file → file.inode < s.nextInode) :
    NoLeakedLease .sandbox caller options run s ↔
      createsLockFile .sandbox options run s = false ∨
        releasesLease .sandbox options run = true := by
  obtain ⟨r, henter, hok, hremoves⟩ := run_enter options run s
  have hopens : opensLockFile r options.toConfig run.leaseFile
      ((enterRepository options run).exec s) = createsLockFile .sandbox options run s := by
    rw [opensLockFile, hok]
    simp [createsLockFile, leaseComesFirst, leaseState]
  have hcreate : createHandle .sandbox caller options run =
      (releasingOnError caller options.toConfig
        (leasing caller options.toConfig run.leaseFile
          (onRepository (enterRepository options run)) fun _ =>
            onRepository (createWorktree run.git options.hostRepoDir
              options.worktreeBranch))).bind
        (finishSetup (sandboxSteps options run)) := rfl
  rw [← hopens]
  rcases leasing_cases caller (fun _ => onRepository (createWorktree run.git options.hostRepoDir
      options.worktreeBranch)) henter hremoves with
    ⟨hearly, e, t, hrun, hleft⟩ | ⟨hopen, hfault, e, t, hrun, hlock⟩ |
      ⟨hopen, hfault, a, t, hrun, -, hlock⟩
  · have hfailed : (createHandle .sandbox caller options run).run (s, {}) =
        (.error e, (t, {})) := by
      rw [hcreate]
      exact Prog.run_bind_error (run_releasing_unheld rfl hrun) _
    exact iff_of_true (noLeakedLease_of_failed hfailed hleft) (Or.inl hearly)
  · -- The write to the lock file failed.
    have hfailed : (createHandle .sandbox caller options run).run (s, {}) =
        (.error e, (t, {})) := by
      rw [hcreate]
      exact Prog.run_bind_error (run_releasing_unheld rfl hrun) _
    refine iff_of_false (not_noLeakedLease_of_failed hinodes hfailed hlock rfl) ?_
    simp [hopen, releasesLease, hfault]
  · rw [hopen, or_iff_right (show ¬ true = false from Bool.noConfusion)]
    obtain ⟨u, hworktree, hlocks⟩ := run_of_keepsView (keepsView_onRepository
      (keepsLocks_createWorktree run.git options.hostRepoDir options.worktreeBranch)) t
      { held := true }
    have hresult : ((onRepository (createWorktree run.git options.hostRepoDir
        options.worktreeBranch)).run (t, { held := true })).1.isOk =
        (createResult run.git options.hostRepoDir options.worktreeBranch).isOk := by
      rw [run_onRepository]
      exact isOk_createWorktree _ _ _ t
    have hkept : u.lock (branchLock options.worktreeBranch) =
        some (ownLock caller options.toConfig s.nextInode) := by
      rw [lock_of_locks_eq hlocks]
      exact hlock
    have hreleases : releasesLease .sandbox options run =
        (!(createResult run.git options.hostRepoDir options.worktreeBranch).isOk ||
          ((sandboxSteps options run).all (·.answer.isOk) &&
            run.closeProvider.answer.isOk)) := by
      rw [releasesLease, hfault, Bool.true_and]
    rcases isOk_cases ((onRepository (createWorktree run.git options.hostRepoDir
        options.worktreeBranch)).run (t, { held := true })).1 with
      ⟨hisOk, info, hinfo⟩ | ⟨hisOk, e, he⟩
    · rw [hinfo] at hworktree
      rw [hreleases, ← hresult, hisOk, Bool.not_true, Bool.false_or]
      have hbody := run_releasing_ok caller options.toConfig (hrun.trans hworktree)
      obtain ⟨v, hsetup, hlocks'⟩ := run_of_keepsView
        (keepsView_finishSetup (sandboxSteps options run) info) u { held := true }
      have hkept' : v.lock (branchLock options.worktreeBranch) =
          some (ownLock caller options.toConfig s.nextInode) := by
        rw [lock_of_locks_eq hlocks', hkept]
      have hall := isOk_finishSetup (sandboxSteps options run) info (u, { held := true })
      rcases isOk_cases ((finishSetup (sandboxSteps options run) info).run
          (u, { held := true })).1 with ⟨hsteps, path, hpath⟩ | ⟨hsteps, e, he⟩
      · rw [hpath] at hsetup
        rw [← hall, hsteps, Bool.true_and]
        have hopened : (createHandle .sandbox caller options run).run (s, {}) =
            (.ok path, (v, { held := true })) := by
          rw [hcreate, Prog.run_bind_ok hbody, hsetup]
        rw [noLeakedLease_iff_of_opened hopened hkept']
        simp [closeFails]
      · -- A step of the set-up failed after the `try`.
        rw [he] at hsetup
        have hfailed : (createHandle .sandbox caller options run).run (s, {}) =
            (.error e, (v, { held := true })) := by
          rw [hcreate, Prog.run_bind_ok hbody, hsetup]
        refine iff_of_false (not_noLeakedLease_of_failed hinodes hfailed hkept' rfl) ?_
        rw [← hall, hsteps]
        simp
    · rw [he] at hworktree
      rw [hreleases, ← hresult, hisOk]
      obtain ⟨v, hreleased, hgone⟩ :=
        run_releasing_held caller options.toConfig rfl (hrun.trans hworktree)
      have hfailed : (createHandle .sandbox caller options run).run (s, {}) =
          (.error e, (v, { held := false })) := by
        rw [hcreate]
        exact Prog.run_bind_error hreleased _
      exact iff_of_true (noLeakedLease_of_failed hfailed (Or.inl hgone)) rfl

/-- What `createWorktree` leaves of its lease, from what comes before the lease and what comes
after it. -/
theorem noLeakedLease_worktree_of {α : Type} {first : HandleProg ι α}
    {rest : α → HandleProg ι String} {r : Except SandboxError α} {s₁ : LeaseWorld ι}
    (hinodes : ∀ fileName file, s.lock fileName = some file → file.inode < s.nextInode)
    (hcreate : createHandle .worktree caller options run =
      releasingOnError caller options.toConfig
        (leasing caller options.toConfig run.leaseFile first rest))
    (hfirst : first.run (s, {}) = (r, (s₁, {}))) (hremoves : OnlyRemoves s s₁)
    (hrest : ∀ a, Prog.Keeps leaseView (rest a)) :
    NoLeakedLease .worktree caller options run s ↔
      opensLockFile r options.toConfig run.leaseFile s₁ = false ∨
        run.leaseFile.isNone = true := by
  rcases leasing_cases caller rest hfirst hremoves with
    ⟨hearly, e, t, hrun, hleft⟩ | ⟨hopen, hfault, e, t, hrun, hlock⟩ |
      ⟨hopen, hfault, a, t, hrun, -, hlock⟩
  · have hfailed : (createHandle .worktree caller options run).run (s, {}) =
        (.error e, (t, {})) := by
      rw [hcreate]
      exact run_releasing_unheld rfl hrun
    exact iff_of_true (noLeakedLease_of_failed hfailed hleft) (Or.inl hearly)
  · have hfailed : (createHandle .worktree caller options run).run (s, {}) =
        (.error e, (t, {})) := by
      rw [hcreate]
      exact run_releasing_unheld rfl hrun
    refine iff_of_false (not_noLeakedLease_of_failed hinodes hfailed hlock rfl) ?_
    simp [hopen, hfault]
  · obtain ⟨u, hend, hlocks⟩ := run_of_keepsView (hrest a) t { held := true }
    refine iff_of_true ?_ (Or.inr hfault)
    rcases isOk_cases ((rest a).run (t, { held := true })).1 with
      ⟨-, path, hpath⟩ | ⟨-, e, he⟩
    · rw [hpath] at hend
      have hopened : (createHandle .worktree caller options run).run (s, {}) =
          (.ok path, (u, { held := true })) := by
        rw [hcreate]
        exact run_releasing_ok _ _ (hrun.trans hend)
      have hkept : u.lock (branchLock options.worktreeBranch) =
          some (ownLock caller options.toConfig s.nextInode) := by
        rw [lock_of_locks_eq hlocks]
        exact hlock
      exact (noLeakedLease_iff_of_opened hopened hkept).mpr rfl
    · rw [he] at hend
      obtain ⟨v, hreleased, hgone⟩ :=
        run_releasing_held caller options.toConfig rfl (hrun.trans hend)
      have hfailed : (createHandle .worktree caller options run).run (s, {}) =
          (.error e, (v, { held := false })) := by
        rw [hcreate]
        exact hreleased
      exact noLeakedLease_of_failed hfailed (Or.inl hgone)

theorem noLeakedLease_worktree_iff
    (hinodes : ∀ fileName file, s.lock fileName = some file → file.inode < s.nextInode) :
    NoLeakedLease .worktree caller options run s ↔
      createsLockFile .worktree options run s = false ∨
        releasesLease .worktree options run = true := by
  obtain ⟨r, henter, hok, hremoves⟩ := run_enter options run s
  have hreleases : releasesLease .worktree options run = run.leaseFile.isNone := by
    rw [releasesLease, Bool.and_true]
  rw [hreleases]
  cases hbranch : options.branch.isSome with
  | true =>
    have hopens : opensLockFile r options.toConfig run.leaseFile
        ((enterRepository options run).exec s) = createsLockFile .worktree options run s := by
      rw [opensLockFile, hok]
      simp [createsLockFile, leaseComesFirst, leaseState, hbranch]
    rw [← hopens]
    have hcreate : createHandle .worktree caller options run =
        releasingOnError caller options.toConfig
          (leasing caller options.toConfig run.leaseFile
            (onRepository (enterRepository options run)) fun _ =>
              (onRepository (createWorktree run.git options.hostRepoDir
                options.worktreeBranch)).bind (finishSetup (worktreeSteps options run))) := by
      show createWorktreeHandle caller options run = _
      rw [createWorktreeHandle, createLeasedWorktree, if_pos hbranch]
      simp only [Prog.bind_assoc]
      rfl
    refine noLeakedLease_worktree_of hinodes hcreate henter hremoves fun _ => ?_
    exact Prog.always_bind (keepsView_onRepository (keepsLocks_createWorktree _ _ _))
      fun info => keepsView_finishSetup _ info
  | false =>
    have hcreate : createHandle .worktree caller options run =
        releasingOnError caller options.toConfig
          (leasing caller options.toConfig run.leaseFile
            ((onRepository (enterRepository options run)).bind fun _ =>
              onRepository (createTempWorktree run.git options.hostRepoDir
                options.worktreeBranch))
            (finishSetup (worktreeSteps options run))) := by
      show createWorktreeHandle caller options run = _
      rw [createWorktreeHandle, createLeasedWorktree, hbranch, if_neg Bool.false_ne_true,
        leasing]
      simp only [Prog.bind_assoc]
      rfl
    have hkeeps := keepsView_finishSetup (ι := ι) (worktreeSteps options run)
    cases r with
    | error e =>
      have hfirst := Prog.run_bind_error henter fun _ =>
        onRepository (createTempWorktree run.git options.hostRepoDir options.worktreeBranch)
      rw [noLeakedLease_worktree_of hinodes hcreate hfirst hremoves hkeeps]
      have hcreates : createsLockFile .worktree options run s = false := by
        rw [createsLockFile, ← hok]
        rfl
      exact iff_of_true (Or.inl rfl) (Or.inl hcreates)
    | ok a =>
      have hfirst := Prog.run_bind_ok henter fun _ =>
        onRepository (createTempWorktree run.git options.hostRepoDir options.worktreeBranch)
      rw [run_onRepository] at hfirst
      have hlocks := keepsLocks_createTempWorktree (ι := ι) run.git options.hostRepoDir
        options.worktreeBranch
      have hnext : Prog.Keeps (LeaseWorld.nextInode (ι := ι))
          (createTempWorktree run.git options.hostRepoDir options.worktreeBranch) := by
        unfold createTempWorktree
        split
        · exact fun s => ⟨rfl, trivial⟩
        · exact fun s => ⟨rfl, trivial⟩
      have hremoves' : OnlyRemoves s ((createTempWorktree run.git options.hostRepoDir
          options.worktreeBranch).run ((enterRepository options run).exec s)).2 := by
        refine hremoves.trans ⟨hnext.run _, fun f => Or.inr ?_⟩
        exact lock_of_keepsLocks hlocks _ f
      rw [noLeakedLease_worktree_of hinodes hcreate hfirst hremoves' hkeeps]
      have hopens : opensLockFile ((createTempWorktree run.git options.hostRepoDir
            options.worktreeBranch).run ((enterRepository options run).exec s)).1
            options.toConfig run.leaseFile ((createTempWorktree run.git options.hostRepoDir
            options.worktreeBranch).run ((enterRepository options run).exec s)).2 =
          createsLockFile .worktree options run s := by
        have hcwd : run.cwd.answer.isOk = true := hok.symm
        rw [opensLockFile, isOk_createTempWorktree]
        simp [createsLockFile, leaseComesFirst, leaseState, hbranch, hcwd, Prog.exec]
      rw [hopens]

/-- **The lease of a handle.** A handle holds its lease while it is open and only then, exactly
when the call that makes it does not come as far as to create a lock file, or it writes the lock
file and, for a sandbox, either the worktree is not to be had or no later step of the set-up
fails and the provider closes. -/
theorem noLeakedLease_iff (kind : HandleKind)
    (hinodes : ∀ fileName file, s.lock fileName = some file → file.inode < s.nextInode) :
    NoLeakedLease kind caller options run s ↔
      createsLockFile kind options run s = false ∨ releasesLease kind options run = true := by
  cases kind with
  | sandbox => exact noLeakedLease_sandbox_iff hinodes
  | worktree => exact noLeakedLease_worktree_iff hinodes

end

/-! ### Handles on the branch `b` -/

def sampleHandleOptions : HandleOptions where
  hostRepoDir := "/repo"
  branch := some "b"
  onWorktreeReady := ["npm install"]

def sampleHandleRun : HandleRun where
  git := { realWorktreesDir := "/repo/.archloop/worktrees" }

/-- A sandbox on a new branch, where nothing fails. -/
theorem noLeakedLease_iff_sample :
    NoLeakedLease .sandbox sampleCaller sampleHandleOptions sampleHandleRun
      (sampleRepository false) := by
  have hinodes : ∀ fileName file, (sampleRepository false).lock fileName = some file →
      file.inode < (sampleRepository false).nextInode := by
    intro fileName file h
    cases h
  exact (noLeakedLease_iff .sandbox hinodes).mpr (Or.inr (by decide))

/-- The hook fails that runs when the worktree is ready. -/
def failingHookRun : HandleRun :=
  { sampleHandleRun with hooks := { answer := .error (.outside "npm install failed") } }

/-- The call of `createSandbox` fails in the hook, after the worktree was created, and the lock
file of the process stays. -/
theorem failingHook_leaksLease :
    ¬ NoLeakedLease .sandbox sampleCaller sampleHandleOptions failingHookRun
        (sampleRepository false) := by
  intro h
  have hleft := h.failed (.outside "npm install failed") _ rfl
  revert hleft
  decide +kernel

end ArchLoop
