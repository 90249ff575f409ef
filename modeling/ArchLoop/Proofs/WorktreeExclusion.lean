import ArchLoop.WorktreeLease
import ArchLoop.Lib.Pool

/-!
# `ArchLoop.Proofs.WorktreeExclusion`: when the worktree lease excludes

Any number of processes call `acquireWorktreeLease`, `releaseWorktreeLease`,
`pruneStaleWorktreeLeases` and `checkWorktreeLeaseBeforeHubRetry`, with their file operations
interleaved. Worktree directories come and go between any two operations, and processes die.

A stale lock file is removed by its path, after it was examined. `bothRecover` is a run in
which two live processes hold the lease of one branch: both find the lock file of a dead
process, and the slower one removes the file that the faster one has created meanwhile.
A lock file without a worktree counts as stale too, and a lease is taken before its worktree
is created.

`WorktreeUndisturbed` excludes exactly these two: a call that looks for the worktree of a lease
finds it if a live process holds the lease, and the lock file that it has examined is the one
that it removes. In the runs whose steps meet it, a lock file stays until its holder releases
it (`worktreeContract_holds`). So no two live processes hold one lease
(`worktreeLease_exclusive`).
-/

set_option autoImplicit false

namespace ArchLoop

open ArchLoop.Lib

/-! ### What the operations do to the lock files -/

section
variable {ι : Type} {s : LeaseWorld ι} {fileName other : String}

theorem lock_unlink :
    (s.unlink other).lock fileName = if fileName = other then none else s.lock fileName := by
  split
  · rename_i h
    rw [h]
    exact AList.lookup_erase other s.locks
  · rename_i h
    exact AList.lookup_erase_ne h

theorem writeFile_eq (fileName : String) (n : Nat) (text : LeaseRecord) :
    ∃ locks, s.writeFile fileName n text = { s with locks := locks } := by
  unfold LeaseWorld.writeFile
  split
  · split
    · exact ⟨_, rfl⟩
    · exact ⟨s.locks, rfl⟩
  · exact ⟨s.locks, rfl⟩

@[simp] theorem holding_writeFile {n : Nat} {text : LeaseRecord} :
    (s.writeFile fileName n text).holding = s.holding := by
  obtain ⟨locks, heq⟩ := writeFile_eq (s := s) fileName n text
  rw [heq]

theorem lock_writeFile {n : Nat} {text : LeaseRecord} :
    (s.writeFile other n text).lock fileName =
      if fileName = other then
        (s.lock other).map fun file =>
          if file.inode = n then { file with text := some text } else file
      else s.lock fileName := by
  unfold LeaseWorld.writeFile
  cases hlock : s.lock other with
  | none =>
    dsimp only
    split
    · rename_i h
      rw [h, hlock, Option.map_none]
    · rfl
  | some file =>
    dsimp only
    by_cases hinode : file.inode = n
    · rw [if_pos hinode]
      split
      · rename_i h
        rw [h, Option.map_some, if_pos hinode]
        exact AList.lookup_insert s.locks
      · rename_i h
        exact AList.lookup_insert_ne h
    · rw [if_neg hinode]
      split
      · rename_i h
        rw [h, hlock, Option.map_some, if_neg hinode]
      · rfl

variable [DecidableEq ι] {fiber j : ι} {inode : Option Nat}

theorem holding_hold :
    (s.hold fiber other inode).holding j fileName =
      if j = fiber ∧ fileName = other then inode else s.holding j fileName := by
  by_cases hj : j = fiber
  · subst hj
    rw [LeaseWorld.hold]
    dsimp only
    rw [Function.update_self, Function.update_apply]
    simp
  · rw [if_neg fun h => hj h.1, LeaseWorld.hold]
    dsimp only
    rw [Function.update_of_ne hj]

theorem lock_openExclusive (hfree : s.lock other = none) :
    (s.openExclusive fiber other).lock fileName =
      if fileName = other then some { inode := s.nextInode, text := none }
      else s.lock fileName := by
  unfold LeaseWorld.openExclusive
  rw [hfree, if_neg (by decide)]
  split
  · rename_i h
    rw [h]
    exact AList.lookup_insert s.locks
  · rename_i h
    exact AList.lookup_insert_ne h

end

/-! ### The calls -/

inductive WorktreeCall (ι : Type) where
  | acquire (caller : LeaseCaller ι) (branch : String) (owner : WorktreeLeaseOwnerInput)
  | release (caller : LeaseCaller ι) (branch : String)
  | pruneStale (caller : LeaseCaller ι)
  | checkRetry (caller : LeaseCaller ι) (branch : String)

def WorktreeCall.caller {ι : Type} : WorktreeCall ι → LeaseCaller ι
  | .acquire caller _ _ => caller
  | .release caller _ => caller
  | .pruneStale caller => caller
  | .checkRetry caller _ => caller

section
variable {ι : Type} (repoDir : String) (pid : ι → Nat)

/-- The program of a call. Its result is the lease that was acquired. -/
def worktreeCode [DecidableEq ι] : ι → WorktreeCall ι → LeaseProg ι (Option AcquiredWorktreeLease)
  | _, .acquire caller branch owner =>
    (acquireWorktreeLease caller repoDir branch owner).bind fun lease => .ret (some lease)
  | _, .release caller branch => (releaseWorktreeLease caller branch).bind fun _ => .ret none
  | _, .pruneStale _ => (pruneStaleWorktreeLeases repoDir).bind fun _ => .ret none
  | _, .checkRetry _ branch =>
    (checkWorktreeLeaseBeforeHubRetry repoDir branch).bind fun _ => .ret none

def Alive (s : LeaseWorld ι) (i : ι) : Prop := s.alive (pid i) = true

def Unheld (s : LeaseWorld ι) (fileName : String) : Prop :=
  ∀ i, Alive pid s i → s.holding i fileName = none

/-- Runs of the processes. A fiber makes its own calls and releases what it holds. Outside of
the calls, worktrees come and go and processes die, but do not come back. `allowed` says
which steps the runs take. -/
def worktreeRuns
    (allowed : WorktreeCall ι → LeaseWorld ι → LeaseWorld ι → LeaseWorld ι → Prop) :
    Discipline ι (WorktreeCall ι) (LeaseWorld ι) where
  start := fun i k s => k.caller.fiber = i ∧ k.caller.pid = pid i ∧
    ∀ caller branch, k = .release caller branch → s.holding i (branchLock branch) ≠ none
  env := fun s t => (∀ fileName, t.lock fileName = s.lock fileName) ∧
    t.nextInode = s.nextInode ∧ t.holding = s.holding ∧ ∀ i, Alive pid t i → Alive pid s i
  allowed := allowed

def TakenAlive (k : WorktreeCall ι) (_ t _ : LeaseWorld ι) : Prop :=
  t.alive k.caller.pid = true

/-- The step of a call from `t` to `t'`, when its last step left `seen`.

- `alive`: the process of the call takes it alive.
- `stat`: a worktree that is not found is of a lease that no live process holds.
- `kill`: the pid that is probed is still the one in the lock file that was read for it.
- `unlink`: the lock file that is removed is the one that was examined. -/
structure WorktreeUndisturbed (k : WorktreeCall ι) (seen t t' : LeaseWorld ι) : Prop where
  alive : TakenAlive k seen t t'
  stat : ∀ leaseName, t'.lastOp = some (.stat leaseName) → t.worktrees leaseName = false →
    Unheld pid t (lockFileName leaseName)
  kill : ∀ n fileName, t'.lastOp = some (.kill n) → seen.lastOp = some (.readFile fileName) →
    t.lock fileName = seen.lock fileName
  unlink : ∀ fileName, t'.lastOp = some (.unlink fileName) →
    t.lock fileName = seen.lock fileName

/-- What holds between any two steps.

- `fresh`, `inodes`: the next inode is new.
- `own`: a lock file is held by one fiber.
- `names`: a lock file that is held names no other process than its holder's.
- `held`: the lock file that a live process holds is there. -/
structure LeaseInv (s : LeaseWorld ι) : Prop where
  fresh : ∀ i fileName n, s.holding i fileName = some n → n < s.nextInode
  inodes : ∀ fileName file, s.lock fileName = some file → file.inode < s.nextInode
  own : ∀ i j f g n, s.holding i f = some n → s.holding j g = some n → i = j
  names : ∀ i fileName file, s.lock fileName = some file →
    s.holding i fileName = some file.inode →
    ∀ metadata, file.text.bind LeaseRecord.metadata = some metadata → metadata.pid = pid i
  held : ∀ i fileName n, Alive pid s i → s.holding i fileName = some n →
    ∃ file, s.lock fileName = some file ∧ file.inode = n

/-- What a step of the fiber `i` does.

- `kept`: a lock file that a live process holds is still there, unless the step is its
  release. -/
structure WorktreeMove (i : ι) (s t : LeaseWorld ι) : Prop where
  alive : t.alive = s.alive
  nextInode : s.nextInode ≤ t.nextInode
  others : ∀ j, j ≠ i → t.holding j = s.holding j
  holding : ∀ j fileName n, t.holding j fileName = some n →
    s.holding j fileName = some n ∨ s.nextInode ≤ n
  kept : ∀ j fileName n, Alive pid s j → s.holding j fileName = some n →
    (∃ file, t.lock fileName = some file ∧ file.inode = n) ∨
      j = i ∧ t.holding j fileName = none

/-- What the steps of the others leave for the fiber `i`. -/
structure WorktreeRely (i : ι) (s t : LeaseWorld ι) : Prop where
  alive : ∀ j, Alive pid t j → Alive pid s j
  nextInode : s.nextInode ≤ t.nextInode
  own : t.holding i = s.holding i
  holding : ∀ j fileName n, t.holding j fileName = some n →
    s.holding j fileName = some n ∨ s.nextInode ≤ n

/-- The lease calls keep the invariant, and an acquired lease is held. -/
def worktreeContract : Contract ι (WorktreeCall ι) (LeaseWorld ι) WorktreeLeaseError
    (Option AcquiredWorktreeLease) where
  inv := LeaseInv pid
  rely := WorktreeRely pid
  guar := fun i _ _ => WorktreeMove pid i
  post := fun i _ r s => ∀ lease, r = .ok (some lease) →
    s.holding i (branchLock lease.branch) ≠ none

abbrev worktreeRules (i : ι) (k : WorktreeCall ι) : Rules (LeaseWorld ι) :=
  (worktreeContract pid).rules (worktreeRuns pid (WorktreeUndisturbed pid)) i k

variable {pid} {i j : ι} {k : WorktreeCall ι} {s t : LeaseWorld ι} {fileName : String}

theorem LeaseInv.of_eq (h : LeaseInv pid s) (hlock : ∀ f, t.lock f = s.lock f)
    (hnext : t.nextInode = s.nextInode) (hholding : t.holding = s.holding)
    (halive : ∀ i, Alive pid t i → Alive pid s i) : LeaseInv pid t where
  fresh := by
    rw [hholding, hnext]
    exact h.fresh
  inodes := by
    intro f file hf
    rw [hlock] at hf
    rw [hnext]
    exact h.inodes f file hf
  own := by
    rw [hholding]
    exact h.own
  names := by
    intro i f file hf
    rw [hlock] at hf
    rw [hholding]
    exact h.names i f file hf
  held := by
    intro i f n hi hn
    rw [hholding] at hn
    rw [hlock]
    exact h.held i f n (halive i hi) hn

theorem WorktreeMove.of_eq (halive : t.alive = s.alive) (hlock : ∀ f, t.lock f = s.lock f)
    (hinv : LeaseInv pid s) (hnext : t.nextInode = s.nextInode) (hholding : t.holding = s.holding) :
    WorktreeMove pid i s t where
  alive := halive
  nextInode := Nat.le_of_eq hnext.symm
  others := fun j _ => congrFun hholding j
  holding := by
    rw [hholding]
    exact fun j f n h => Or.inl h
  kept := by
    intro j f n hj hn
    rw [hlock]
    exact Or.inl (hinv.held j f n hj hn)

theorem WorktreeRely.refl (s : LeaseWorld ι) : WorktreeRely pid i s s where
  alive := fun _ h => h
  nextInode := Nat.le_refl _
  own := rfl
  holding := fun _ _ _ h => Or.inl h

theorem WorktreeRely.trans {u : LeaseWorld ι} (h : WorktreeRely pid i s t)
    (h' : WorktreeRely pid i t u) : WorktreeRely pid i s u where
  alive := fun j hj => h.alive j (h'.alive j hj)
  nextInode := Nat.le_trans h.nextInode h'.nextInode
  own := h'.own.trans h.own
  holding := by
    intro j f n hn
    rcases h'.holding j f n hn with hn | hle
    · exact h.holding j f n hn
    · have hnext := h.nextInode
      exact Or.inr (by omega)

/-- A lock file that nobody holds is held by nobody as long as it is the same file: who takes
it later has a file with a new inode. -/
theorem Unheld.later {file : LockFile} (h : Unheld pid s fileName) (hs : LeaseInv pid s)
    (ht : LeaseInv pid t) (hrely : WorktreeRely pid i s t)
    (hsame : t.lock fileName = s.lock fileName) (hfile : s.lock fileName = some file) :
    Unheld pid t fileName := by
  intro j hj
  cases hn : t.holding j fileName with
  | none => rfl
  | some n =>
    obtain ⟨file', hfile', rfl⟩ := ht.held j fileName n hj hn
    rw [hsame, hfile] at hfile'
    obtain rfl := Option.some.inj hfile'
    have hold := hs.inodes fileName file hfile
    rcases hrely.holding j fileName file.inode hn with hn | hle
    · rw [h j (hrely.alive j hj)] at hn
      cases hn
    · omega

/-! ### The steps -/

section
variable {α : Type} {Q : α → LeaseWorld ι → Prop} {E : WorktreeLeaseError → LeaseWorld ι → Prop}

theorem sat_lockStep {op : LeaseOp} {upd : LeaseWorld ι → LeaseWorld ι}
    {answer : LeaseWorld ι → α}
    (h : ∀ t, WorktreeRely pid i s t → LeaseInv pid t →
      WorktreeUndisturbed pid k s t { upd t with lastOp := some op } →
      WorktreeMove pid i t { upd t with lastOp := some op } ∧
        LeaseInv pid { upd t with lastOp := some op } ∧
        Q (answer t) { upd t with lastOp := some op }) :
    Prog.Sat (worktreeRules pid i k) Q E (leaseStep op upd answer) s :=
  h

theorem sat_lockRead {op : LeaseOp} {answer : LeaseWorld ι → α}
    (h : ∀ t, WorktreeRely pid i s t → LeaseInv pid t →
      WorktreeUndisturbed pid k s t { t with lastOp := some op } →
      LeaseInv pid { t with lastOp := some op } →
      Q (answer t) { t with lastOp := some op }) :
    Prog.Sat (worktreeRules pid i k) Q E (leaseStep op id answer) s := by
  refine sat_lockStep fun t hrely hinv hallowed => ?_
  have hinv' : LeaseInv pid { t with lastOp := some op } :=
    hinv.of_eq (fun _ => rfl) rfl rfl fun _ hj => hj
  exact ⟨.of_eq rfl (fun _ => rfl) hinv rfl rfl, hinv', h t hrely hinv hallowed hinv'⟩

end

theorem move_unlink (hinv : LeaseInv pid s) (hfree : Unheld pid s fileName) (op : LeaseOp) :
    WorktreeMove pid i s { s.unlink fileName with lastOp := some op } ∧
      LeaseInv pid { s.unlink fileName with lastOp := some op } := by
  have hlock : ∀ f, ({ s.unlink fileName with lastOp := some op } : LeaseWorld ι).lock f =
      if f = fileName then none else s.lock f := fun f => lock_unlink
  have hheld : ∀ j f n, Alive pid s j → s.holding j f = some n →
      ∃ file, ({ s.unlink fileName with lastOp := some op } : LeaseWorld ι).lock f = some file ∧
        file.inode = n := by
    intro j f n hj hn
    have hne : f ≠ fileName := by
      rintro rfl
      rw [hfree j hj] at hn
      cases hn
    rw [hlock, if_neg hne]
    exact hinv.held j f n hj hn
  have hfile : ∀ f file, ({ s.unlink fileName with lastOp := some op } : LeaseWorld ι).lock f =
      some file → s.lock f = some file := by
    intro f file hf
    rw [hlock] at hf
    split at hf
    · cases hf
    · exact hf
  constructor
  · exact {
      alive := rfl
      nextInode := Nat.le_refl _
      others := fun _ _ => rfl
      holding := fun _ _ _ h => Or.inl h
      kept := fun j f n hj hn => Or.inl (hheld j f n hj hn) }
  · exact {
      fresh := hinv.fresh
      inodes := fun f file hf => hinv.inodes f file (hfile f file hf)
      own := hinv.own
      names := fun j f file hf => hinv.names j f file (hfile f file hf)
      held := hheld }

/-- The file that the call has examined is removed. No live process held it when it was
examined. -/
theorem sat_removeLeaseFileByPath (hinv : LeaseInv pid s) (hfree : Unheld pid s fileName) :
    Prog.Sat (worktreeRules pid i k) (fun _ _ => True) (fun _ _ => True)
      (removeLeaseFileByPath fileName) s := by
  refine sat_lockStep fun t hrely hinvt hallowed => ?_
  have hsame : t.lock fileName = s.lock fileName := hallowed.unlink fileName rfl
  have hfreet : Unheld pid t fileName := by
    cases hfile : s.lock fileName with
    | some file => exact hfree.later hinv hinvt hrely hsame hfile
    | none =>
      intro j hj
      cases hn : t.holding j fileName with
      | none => rfl
      | some n =>
        obtain ⟨file, hlock, -⟩ := hinvt.held j fileName n hj hn
        rw [hsame, hfile] at hlock
        cases hlock
  obtain ⟨hmove, hinv'⟩ := move_unlink hinvt hfreet (.unlink fileName)
  exact ⟨hmove, hinv', trivial⟩

theorem sat_readLeaseMetadata {repoDir branch : String} :
    Prog.Sat (worktreeRules pid i k)
      (fun metadata t => LeaseInv pid t ∧ t.lastOp = some (.readFile (branchLock branch)) ∧
        ∃ file, t.lock (branchLock branch) = some file ∧
          file.text.bind LeaseRecord.metadata = some metadata)
      (fun _ _ => True) (readLeaseMetadata repoDir branch) s := by
  refine Prog.sat_bind (Q := fun raw t => LeaseInv pid t ∧
    t.lastOp = some (.readFile (branchLock branch)) ∧
    raw = (t.lock (branchLock branch)).map LockFile.text) ?_ ?_
  · exact sat_lockRead fun t _ _ _ hinv => ⟨hinv, rfl, rfl⟩
  · rintro raw t ⟨hinv, hlast, hraw⟩
    cases hlock : t.lock (branchLock branch) with
    | none =>
      rw [hlock, Option.map_none] at hraw
      subst hraw
      trivial
    | some file =>
      rw [hlock, Option.map_some] at hraw
      subst hraw
      dsimp only
      unfold parseLeaseMetadata
      cases htext : file.text with
      | none => trivial
      | some record =>
        dsimp only
        cases hmetadata : record.metadata with
        | none => trivial
        | some metadata =>
          dsimp only
          split
          · trivial
          · exact ⟨hinv, hlast, file, hlock, by rw [htext]; exact hmetadata⟩

theorem unheld_of_dead {file : LockFile} {metadata : WorktreeLeaseMetadata}
    (hinv : LeaseInv pid s) (hlock : s.lock fileName = some file)
    (hmetadata : file.text.bind LeaseRecord.metadata = some metadata)
    (hdead : s.alive metadata.pid = false) : Unheld pid s fileName := by
  intro j hj
  cases hn : s.holding j fileName with
  | none => rfl
  | some n =>
    obtain ⟨file', hlock', rfl⟩ := hinv.held j fileName n hj hn
    obtain rfl : file = file' := Option.some.inj (hlock.symm.trans hlock')
    rw [hinv.names j fileName file hlock hn metadata hmetadata] at hdead
    rw [Alive, hdead] at hj
    cases hj

theorem sat_recoverStaleWorktreeLeaseIfNeeded {repoDir branch : String} :
    Prog.Sat (worktreeRules pid i k) (fun _ _ => True) (fun _ _ => True)
      (recoverStaleWorktreeLeaseIfNeeded repoDir branch) s := by
  refine Prog.sat_bind (Q := fun _ _ => True) (sat_lockRead fun _ _ _ _ _ => trivial) ?_
  intro found t _
  split
  · trivial
  refine Prog.sat_bind (Q := fun worktree u => LeaseInv pid u ∧
    (worktree = false → Unheld pid u (branchLock branch))) ?_ ?_
  · exact sat_lockRead fun u _ _ hallowed hinv => ⟨hinv, hallowed.stat _ rfl⟩
  rintro worktree u ⟨hinvu, hmissing⟩
  split
  · -- The worktree is missing.
    rename_i h
    have hfree := hmissing (by simpa using h)
    exact Prog.sat_bind (sat_removeLeaseFileByPath hinvu hfree) fun _ _ _ => trivial
  refine Prog.sat_bind sat_readLeaseMetadata ?_
  rintro metadata v ⟨-, hlast, file, hlock, hmetadata⟩
  refine Prog.sat_bind (Q := fun alive w => LeaseInv pid w ∧
    (alive = false → Unheld pid w (branchLock branch))) ?_ ?_
  · refine sat_lockRead fun w _ hinv hallowed hinv' => ⟨hinv', fun hdead => ?_⟩
    have hsame := hallowed.kill _ _ rfl hlast
    exact unheld_of_dead hinv' (hsame.trans hlock) hmetadata hdead
  rintro alive w ⟨hinvw, hdead⟩
  split
  · trivial
  · -- The owner is gone.
    rename_i h
    have hfree := hdead (by simpa using h)
    exact Prog.sat_bind (sat_removeLeaseFileByPath hinvw hfree) fun _ _ _ => trivial

theorem sat_checkWorktreeLeaseBeforeHubRetry {repoDir branch : String} :
    Prog.Sat (worktreeRules pid i k) (fun _ _ => True) (fun _ _ => True)
      (checkWorktreeLeaseBeforeHubRetry repoDir branch) s := by
  refine Prog.sat_bind sat_recoverStaleWorktreeLeaseIfNeeded fun recovery t _ => ?_
  cases recovery with
  | removed => trivial
  | absent => trivial
  | active => exact Prog.sat_bind sat_readLeaseMetadata fun _ _ _ => trivial

theorem sat_forEntries {body : String → LeaseProg ι Unit}
    (h : ∀ entry s, Prog.Sat (worktreeRules pid i k) (fun _ _ => True) (fun _ _ => True)
      (body entry) s) (entries : List String) :
    Prog.Sat (worktreeRules pid i k) (fun _ _ => True) (fun _ _ => True)
      (forEntries body entries) s := by
  induction entries generalizing s with
  | nil => trivial
  | cons entry entries ih => exact Prog.sat_bind (h entry s) fun _ _ _ => ih

theorem sat_pruneOrphanEntry (entry : String) :
    Prog.Sat (worktreeRules pid i k) (fun _ _ => True) (fun _ _ => True)
      (pruneOrphanEntry entry) s := by
  unfold pruneOrphanEntry
  cases hname : lockFileNameToLeaseName entry with
  | none => trivial
  | some leaseName =>
    have hentry := lockFileName_of_lockFileNameToLeaseName hname
    refine Prog.sat_bind (Q := fun worktree t => LeaseInv pid t ∧
      (worktree = false → Unheld pid t entry)) ?_ ?_
    · refine sat_lockRead fun t _ _ hallowed hinv => ⟨hinv, fun hmissing => ?_⟩
      rw [← hentry]
      exact hallowed.stat leaseName rfl hmissing
    · rintro worktree t ⟨hinv, hmissing⟩
      split
      · rename_i h
        exact sat_removeLeaseFileByPath hinv (hmissing (by simpa using h))
      · trivial

theorem sat_pruneStaleEntry {repoDir : String} (entry : String) :
    Prog.Sat (worktreeRules pid i k) (fun _ _ => True) (fun _ _ => True)
      (pruneStaleEntry repoDir entry) s := by
  unfold pruneStaleEntry
  split
  · trivial
  refine Prog.sat_bind (Q := fun _ _ => True) (sat_lockRead fun _ _ _ _ _ => trivial) ?_
  intro raw t _
  split
  · trivial
  split
  · trivial
  · refine Prog.sat_tryCatch
      (Prog.sat_bind sat_recoverStaleWorktreeLeaseIfNeeded fun _ _ _ => trivial) ?_
    intro error u _
    split <;> trivial

theorem sat_pruneStaleWorktreeLeases {repoDir : String} :
    Prog.Sat (worktreeRules pid i k) (fun _ _ => True) (fun _ _ => True)
      (pruneStaleWorktreeLeases repoDir) s := by
  have horphan : Prog.Sat (worktreeRules pid i k) (fun _ _ => True) (fun _ _ => True)
      pruneOrphanWorktreeLeases s :=
    Prog.sat_bind (Q := fun _ _ => True) (sat_lockRead fun _ _ _ _ _ => trivial)
      fun entries _ _ => sat_forEntries (fun entry _ => sat_pruneOrphanEntry entry) entries
  refine Prog.sat_bind horphan fun _ _ _ => ?_
  exact Prog.sat_bind (Q := fun _ _ => True) (sat_lockRead fun _ _ _ _ _ => trivial)
    fun entries _ _ => sat_forEntries (fun entry _ => sat_pruneStaleEntry entry) entries

/-! ### Taking and giving back -/

theorem move_writeFile {n : Nat} {text : LeaseRecord} (hinv : LeaseInv pid s)
    (hholding : s.holding i fileName = some n)
    (htext : ∀ metadata, text.metadata = some metadata → metadata.pid = pid i) (op : LeaseOp) :
    WorktreeMove pid i s { s.writeFile fileName n text with lastOp := some op } ∧
      LeaseInv pid { s.writeFile fileName n text with lastOp := some op } := by
  have hlock : ∀ f, (s.writeFile fileName n text).lock f =
      if f = fileName then
        (s.lock fileName).map fun file =>
          if file.inode = n then { file with text := some text } else file
      else s.lock f := fun f => lock_writeFile
  -- A file keeps its inode, and its text unless it is the one that was opened.
  have hcases : ∀ f file, (s.writeFile fileName n text).lock f = some file →
      ∃ old, s.lock f = some old ∧ old.inode = file.inode ∧
        (file.text = old.text ∨ f = fileName ∧ file.inode = n ∧ file.text = some text) := by
    intro f file hf
    rw [hlock] at hf
    split at hf
    · rename_i hname
      obtain ⟨old, hold, rfl⟩ := Option.map_eq_some_iff.mp hf
      refine ⟨old, by rw [hname]; exact hold, ?_⟩
      split
      · rename_i hinode
        exact ⟨rfl, Or.inr ⟨hname, hinode, rfl⟩⟩
      · exact ⟨rfl, Or.inl rfl⟩
    · exact ⟨file, hf, rfl, Or.inl rfl⟩
  have hkept : ∀ f old, s.lock f = some old →
      ∃ file, (s.writeFile fileName n text).lock f = some file ∧ file.inode = old.inode := by
    intro f old hold
    rw [hlock]
    split
    · rename_i hname
      rw [← hname, hold, Option.map_some]
      refine ⟨_, rfl, ?_⟩
      split <;> rfl
    · exact ⟨old, hold, rfl⟩
  obtain ⟨locks, heq⟩ := writeFile_eq (s := s) fileName n text
  rw [heq] at hcases hkept ⊢
  have hheld : ∀ j f m, Alive pid s j → s.holding j f = some m →
      ∃ file, ({ s with locks := locks } : LeaseWorld ι).lock f = some file ∧
        file.inode = m := by
    intro j f m hj hm
    obtain ⟨old, hold, hinode⟩ := hinv.held j f m hj hm
    obtain ⟨file, hfile, hsame⟩ := hkept f old hold
    exact ⟨file, hfile, hsame.trans hinode⟩
  constructor
  · exact {
      alive := rfl
      nextInode := Nat.le_refl _
      others := fun _ _ => rfl
      holding := fun _ _ _ h => Or.inl h
      kept := fun j f m hj hm => Or.inl (hheld j f m hj hm) }
  · exact {
      fresh := hinv.fresh
      inodes := by
        intro f file hf
        obtain ⟨old, hold, hinode, -⟩ := hcases f file hf
        rw [← hinode]
        exact hinv.inodes f old hold
      own := hinv.own
      names := by
        intro j f file hf hj metadata hmetadata
        obtain ⟨old, hold, hinode, hsame | ⟨-, hn, htextEq⟩⟩ := hcases f file hf
        · rw [hsame] at hmetadata
          rw [← hinode] at hj
          exact hinv.names j f old hold hj metadata hmetadata
        · -- The holder of the opened file is the fiber.
          have hj : s.holding j f = some n := by
            rw [← hn]
            exact hj
          rw [hinv.own j i f fileName n hj hholding]
          rw [htextEq, Option.bind_some] at hmetadata
          exact htext metadata hmetadata
      held := hheld }

variable [DecidableEq ι]

theorem move_openExclusive (hinv : LeaseInv pid s) (hfree : s.lock fileName = none)
    (op : LeaseOp) :
    WorktreeMove pid i s { s.openExclusive i fileName with lastOp := some op } ∧
      LeaseInv pid { s.openExclusive i fileName with lastOp := some op } ∧
      (s.openExclusive i fileName).holding i fileName = some s.nextInode := by
  have hlock : ∀ f, (s.openExclusive i fileName).lock f =
      if f = fileName then some { inode := s.nextInode, text := none } else s.lock f :=
    fun f => lock_openExclusive hfree
  have hholding : ∀ j f, (s.openExclusive i fileName).holding j f =
      if j = i ∧ f = fileName then some s.nextInode else s.holding j f := by
    intro j f
    unfold LeaseWorld.openExclusive
    rw [hfree, if_neg (by decide)]
    exact holding_hold
  have hnext : (s.openExclusive i fileName).nextInode = s.nextInode + 1 := by
    unfold LeaseWorld.openExclusive
    rw [hfree, if_neg (by decide)]
  have halive : (s.openExclusive i fileName).alive = s.alive := by
    unfold LeaseWorld.openExclusive
    rw [hfree, if_neg (by decide)]
    rfl
  have hheld : ∀ j f n, Alive pid s j → (s.openExclusive i fileName).holding j f = some n →
      ∃ file, (s.openExclusive i fileName).lock f = some file ∧ file.inode = n := by
    intro j f n hj hn
    rw [hholding] at hn
    rw [hlock]
    split at hn
    · rename_i h
      rw [if_pos h.2]
      exact ⟨_, rfl, Option.some.inj hn⟩
    · obtain ⟨file, hfile, hinode⟩ := hinv.held j f n hj hn
      have hne : f ≠ fileName := by
        rintro rfl
        rw [hfree] at hfile
        cases hfile
      rw [if_neg hne]
      exact ⟨file, hfile, hinode⟩
  have hcases : ∀ j f n, (s.openExclusive i fileName).holding j f = some n →
      (j = i ∧ f = fileName ∧ n = s.nextInode) ∨ s.holding j f = some n := by
    intro j f n hn
    rw [hholding] at hn
    split at hn
    · rename_i h
      exact Or.inl ⟨h.1, h.2, (Option.some.inj hn).symm⟩
    · exact Or.inr hn
  refine ⟨?_, ?_, by rw [hholding, if_pos ⟨rfl, rfl⟩]⟩
  · exact {
      alive := halive
      nextInode := by
        show s.nextInode ≤ (s.openExclusive i fileName).nextInode
        omega
      others := by
        intro j hj
        funext f
        exact (hholding j f).trans (if_neg fun h => hj h.1)
      holding := by
        intro j f n hn
        rcases hcases j f n hn with ⟨-, -, rfl⟩ | hn
        · exact Or.inr (Nat.le_refl _)
        · exact Or.inl hn
      kept := by
        intro j f n hj hn
        obtain ⟨file, hfile, hinode⟩ := hinv.held j f n hj hn
        have hne : f ≠ fileName := by
          rintro rfl
          rw [hfree] at hfile
          cases hfile
        exact Or.inl ⟨file, ((hlock f).trans (if_neg hne)).trans hfile, hinode⟩ }
  · exact {
      fresh := by
        intro j f n hn
        show n < (s.openExclusive i fileName).nextInode
        rcases hcases j f n hn with ⟨-, -, rfl⟩ | hn
        · omega
        · have hlt := hinv.fresh j f n hn
          omega
      inodes := by
        intro f file hf
        show file.inode < (s.openExclusive i fileName).nextInode
        have hf := (hlock f).symm.trans hf
        split at hf
        · rw [← Option.some.inj hf]
          dsimp only
          omega
        · have hlt := hinv.inodes f file hf
          omega
      own := by
        intro a b f g n ha hb
        rcases hcases a f n ha with ⟨haeq, -, hn⟩ | hold
        · rcases hcases b g n hb with ⟨hbeq, -, -⟩ | hold
          · rw [haeq, hbeq]
          · have hlt := hinv.fresh b g n hold
            omega
        · rcases hcases b g n hb with ⟨-, -, hn⟩ | hold'
          · have hlt := hinv.fresh a f n hold
            omega
          · exact hinv.own a b f g n hold hold'
      names := by
        intro j f file hf hn metadata hmetadata
        have hf := (hlock f).symm.trans hf
        split at hf
        · rw [← Option.some.inj hf] at hmetadata
          cases hmetadata
        · rename_i hne
          rcases hcases j f _ hn with ⟨-, rfl, -⟩ | hn
          · exact absurd rfl hne
          · exact hinv.names j f file hf hn metadata hmetadata
      held := fun j f n hj hn => hheld j f n (by rwa [Alive, ← halive]) hn }

theorem move_release (hinv : LeaseInv pid s) (halive : Alive pid s i)
    (hholding : s.holding i fileName ≠ none) (op : LeaseOp) :
    WorktreeMove pid i s { (s.unlink fileName).hold i fileName none with lastOp := some op } ∧
      LeaseInv pid { (s.unlink fileName).hold i fileName none with lastOp := some op } := by
  have hlock : ∀ f, ((s.unlink fileName).hold i fileName none).lock f =
      if f = fileName then none else s.lock f := fun f => lock_unlink
  have hhold : ∀ j f, ((s.unlink fileName).hold i fileName none).holding j f =
      if j = i ∧ f = fileName then none else s.holding j f := fun j f => holding_hold
  have hfile : ∀ f file, ((s.unlink fileName).hold i fileName none).lock f = some file →
      s.lock f = some file := by
    intro f file hf
    rw [hlock] at hf
    split at hf
    · cases hf
    · exact hf
  have hold : ∀ j f n, ((s.unlink fileName).hold i fileName none).holding j f = some n →
      s.holding j f = some n ∧ ¬ (j = i ∧ f = fileName) := by
    intro j f n hn
    rw [hhold] at hn
    split at hn
    · cases hn
    · rename_i h
      exact ⟨hn, h⟩
  obtain ⟨n, hn⟩ := Option.ne_none_iff_exists'.mp hholding
  -- Nobody else holds the lock file under this name.
  have hother : ∀ j m, Alive pid s j → s.holding j fileName = some m → j = i := by
    intro j m hj hm
    obtain ⟨file, hlockf, rfl⟩ := hinv.held i fileName n halive hn
    obtain ⟨file', hlockf', rfl⟩ := hinv.held j fileName m hj hm
    obtain rfl : file = file' := Option.some.inj (hlockf.symm.trans hlockf')
    exact hinv.own j i fileName fileName file.inode hm hn
  have hheld : ∀ j f m, Alive pid s j → s.holding j f = some m → ¬ (j = i ∧ f = fileName) →
      ∃ file, ((s.unlink fileName).hold i fileName none).lock f = some file ∧
        file.inode = m := by
    intro j f m hj hm hne
    have hnef : f ≠ fileName := by
      rintro rfl
      exact hne ⟨hother j m hj hm, rfl⟩
    rw [hlock, if_neg hnef]
    exact hinv.held j f m hj hm
  constructor
  · exact {
      alive := rfl
      nextInode := Nat.le_refl _
      others := by
        intro j hj
        funext f
        exact (hhold j f).trans (if_neg fun h => hj h.1)
      holding := fun j f m hm => Or.inl (hold j f m hm).1
      kept := by
        intro j f m hj hm
        by_cases hown : j = i ∧ f = fileName
        · exact Or.inr ⟨hown.1, (hhold j f).trans (if_pos hown)⟩
        · exact Or.inl (hheld j f m hj hm hown) }
  · exact {
      fresh := fun j f m hm => hinv.fresh j f m (hold j f m hm).1
      inodes := fun f file hf => hinv.inodes f file (hfile f file hf)
      own := fun a b f g m ha hb => hinv.own a b f g m (hold a f m ha).1 (hold b g m hb).1
      names := fun j f file hf hm =>
        hinv.names j f file (hfile f file hf) (hold j f _ hm).1
      held := fun j f m hj hm => hheld j f m hj (hold j f m hm).1 (hold j f m hm).2 }

theorem sat_createLeaseFileAtomic {caller : LeaseCaller ι} {repoDir branch : String}
    {metadata : WorktreeLeaseMetadata} (hcaller : caller.fiber = i)
    (hpid : metadata.pid = pid i) :
    Prog.Sat (worktreeRules pid i k) (fun _ t => t.holding i (branchLock branch) ≠ none)
      (fun _ _ => True) (createLeaseFileAtomic caller repoDir branch metadata) s := by
  subst hcaller
  refine Prog.sat_bind (Q := fun created t => ∀ n, created = some n →
    t.holding caller.fiber (branchLock branch) = some n) ?_ ?_
  · refine sat_lockStep fun t _ hinv _ => ?_
    cases hlock : t.lock (branchLock branch) with
    | some file =>
      have hsame : t.openExclusive caller.fiber (branchLock branch) = t := by
        unfold LeaseWorld.openExclusive
        rw [hlock, if_pos Option.isSome_some]
      rw [hsame]
      refine ⟨.of_eq rfl (fun _ => rfl) hinv rfl rfl,
        hinv.of_eq (fun _ => rfl) rfl rfl fun _ hj => hj, ?_⟩
      intro n hn
      cases hn
    | none =>
      obtain ⟨hmove, hinv', hholding⟩ := move_openExclusive (i := caller.fiber) hinv hlock
        (.openExclusive (branchLock branch))
      refine ⟨hmove, hinv', ?_⟩
      intro n hn
      rw [← Option.some.inj hn]
      exact hholding
  · intro created t hholding
    cases created with
    | none => trivial
    | some n =>
      refine sat_lockStep fun u hrely hinv _ => ?_
      have hown : u.holding caller.fiber (branchLock branch) = some n := by
        rw [hrely.own]
        exact hholding n rfl
      have htext : ∀ read, (serializeWorktreeLeaseMetadata metadata).metadata = some read →
          read.pid = pid caller.fiber := by
        intro read hread
        exact (pid_of_metadata_serialize hread).trans hpid
      obtain ⟨hmove, hinv'⟩ := move_writeFile hinv hown htext (.writeFile (branchLock branch))
      refine ⟨hmove, hinv', ?_⟩
      dsimp only
      rw [holding_writeFile, hown]
      exact Option.some_ne_none n

theorem sat_acquireWorktreeLease {caller : LeaseCaller ι} {repoDir branch : String}
    {owner : WorktreeLeaseOwnerInput} (hcaller : caller.fiber = i) (hpid : caller.pid = pid i) :
    Prog.Sat (worktreeRules pid i k)
      (fun lease t => t.holding i (branchLock lease.branch) ≠ none) (fun _ _ => True)
      (acquireWorktreeLease caller repoDir branch owner) s := by
  have hensure : ∀ u, Prog.Sat (worktreeRules pid i k) (fun _ _ => True) (fun _ _ => True)
      (ensureLeaseAvailableForAcquisition repoDir branch) u := fun u =>
    Prog.sat_bind sat_checkWorktreeLeaseBeforeHubRetry fun _ _ _ => trivial
  have htry : ∀ u, Prog.Sat (worktreeRules pid i k)
      (fun _ t => t.holding i (branchLock branch) ≠ none) (fun _ _ => True)
      (createLeaseFileAtomic caller repoDir branch
        (buildWorktreeLeaseMetadata caller branch owner)) u := fun u =>
    sat_createLeaseFileAtomic hcaller hpid
  refine Prog.sat_bind (hensure s) fun _ t _ => ?_
  refine Prog.sat_bind (Q := fun _ u => u.holding i (branchLock branch) ≠ none) ?_
    fun _ _ h => (Prog.sat_ret _).mpr h
  refine Prog.sat_tryCatch (htry t) fun error u _ => ?_
  split
  · exact Prog.sat_bind (hensure u) fun _ v _ => htry v
  · trivial

theorem sat_releaseWorktreeLease {caller : LeaseCaller ι} {branch : String}
    (hcaller : k.caller.fiber = i) (hpid : k.caller.pid = pid i) (hk : k.caller = caller)
    (hholding : s.holding i (branchLock branch) ≠ none) :
    Prog.Sat (worktreeRules pid i k) (fun _ _ => True) (fun _ _ => True)
      (releaseWorktreeLease caller branch) s := by
  subst hk hcaller
  refine sat_lockStep fun t hrely hinv hallowed => ?_
  have halive : Alive pid t k.caller.fiber := by
    rw [Alive, ← hpid]
    exact hallowed.alive
  have hown : t.holding k.caller.fiber (branchLock branch) ≠ none := by
    rw [hrely.own]
    exact hholding
  obtain ⟨hmove, hinv'⟩ := move_release hinv halive hown (.release (branchLock branch))
  exact ⟨hmove, hinv', trivial⟩

theorem sat_worktreeCode {repoDir : String}
    (hstart : (ArchLoop.worktreeRuns pid (WorktreeUndisturbed pid)).start i k s) :
    Prog.Sat (worktreeRules pid i k)
      (fun r t => ∀ lease, r = some lease → t.holding i (branchLock lease.branch) ≠ none)
      (fun _ _ => True) (worktreeCode repoDir i k) s := by
  obtain ⟨hcaller, hpid, hholding⟩ := hstart
  cases k with
  | acquire caller branch owner =>
    refine Prog.sat_bind (sat_acquireWorktreeLease hcaller hpid) fun lease t h => ?_
    intro lease' hlease
    rw [← Option.some.inj hlease]
    exact h
  | release caller branch =>
    refine Prog.sat_bind
      (sat_releaseWorktreeLease hcaller hpid rfl (hholding caller branch rfl)) ?_
    intro _ _ _ _ hlease
    cases hlease
  | pruneStale caller =>
    refine Prog.sat_bind sat_pruneStaleWorktreeLeases ?_
    intro _ _ _ _ hlease
    cases hlease
  | checkRetry caller branch =>
    refine Prog.sat_bind sat_checkWorktreeLeaseBeforeHubRetry ?_
    intro _ _ _ _ hlease
    cases hlease

variable (pid) in
theorem worktreeContract_holds (repoDir : String) :
    (worktreeContract pid).Holds (worktreeRuns pid (WorktreeUndisturbed pid))
      (worktreeCode repoDir) where
  rely_refl := fun i s => WorktreeRely.refl s
  rely_trans := fun i s t u h h' => h.trans h'
  guar_rely := by
    intro i k s t t' j hj _ hmove
    exact {
      alive := fun l hl => by rwa [Alive, ← hmove.alive]
      nextInode := hmove.nextInode
      own := hmove.others j hj
      holding := hmove.holding }
  env_keeps := by
    rintro s t hinv ⟨hlock, hnext, hholding, halive⟩
    refine ⟨hinv.of_eq hlock hnext hholding halive, fun j => ?_⟩
    exact {
      alive := halive
      nextInode := Nat.le_of_eq hnext.symm
      own := congrFun hholding j
      holding := by
        rw [hholding]
        exact fun _ _ _ h => Or.inl h }
  sat := by
    intro i k s _ hstart
    refine Prog.sat_mono (sat_worktreeCode hstart) ?_ ?_
    · intro r t h lease hr
      exact h lease (Except.ok.inj hr)
    · intro e t _ lease hr
      cases hr

/-! ### Who holds a lease -/

/-- In every undisturbed run, of any number of fibers in any processes:

- no two live fibers hold the lease of one branch,
- a call that returns a lease holds it then,
- the lock file that a live fiber holds stays there in each step, unless the step releases
  the lease. -/
theorem worktreeLease_exclusive {repoDir : String} {s₀ : LeaseWorld ι}
    (hidle : ∀ i fileName, s₀.holding i fileName = none)
    (hinodes : ∀ fileName file, s₀.lock fileName = some file → file.inode < s₀.nextInode)
    {c : Pool ι (WorktreeCall ι) (LeaseWorld ι) WorktreeLeaseError
      (Option AcquiredWorktreeLease)}
    (hr : Pool.Reach (worktreeRuns pid (WorktreeUndisturbed pid)) (worktreeCode repoDir)
      (Pool.idle s₀) c) :
    (∀ i j branch, Alive pid c.state i → Alive pid c.state j →
      c.state.holding i (branchLock branch) ≠ none →
      c.state.holding j (branchLock branch) ≠ none → i = j) ∧
    (∀ i k lease seen, c.threads i = some ⟨k, .ret (some lease), seen⟩ →
      c.state.holding i (branchLock lease.branch) ≠ none) ∧
    (∀ i c', (worktreeRuns pid (WorktreeUndisturbed pid)).Permits c (.step i) →
      c.next (worktreeCode repoDir) (.step i) = some c' →
      ∀ j fileName n, Alive pid c.state j → c.state.holding j fileName = some n →
      (∃ file, c'.state.lock fileName = some file ∧ file.inode = n) ∨
        j = i ∧ c'.state.holding j fileName = none) := by
  have hinv₀ : LeaseInv pid s₀ := {
    fresh := fun i f n h => by rw [hidle] at h; cases h
    inodes := hinodes
    own := fun i j f g n h => by rw [hidle] at h; cases h
    names := fun i f file _ h => by rw [hidle] at h; cases h
    held := fun i f n _ h => by rw [hidle] at h; cases h }
  have hok := (worktreeContract_holds pid repoDir).ok_reach (Contract.ok_idle hinv₀) hr
  refine ⟨?_, ?_, ?_⟩
  · intro i j branch hi hj hhi hhj
    obtain ⟨n, hn⟩ := Option.ne_none_iff_exists'.mp hhi
    obtain ⟨m, hm⟩ := Option.ne_none_iff_exists'.mp hhj
    -- Both hold the file that has the name.
    obtain ⟨file, hfile, rfl⟩ := hok.1.held i _ n hi hn
    obtain ⟨file', hfile', rfl⟩ := hok.1.held j _ m hj hm
    obtain rfl : file = file' := Option.some.inj (hfile.symm.trans hfile')
    exact hok.1.own i j _ _ file.inode hn hm
  · intro i k lease seen hth
    obtain ⟨hpost, hrely⟩ := hok.2 i _ hth
    rw [hrely.own]
    exact hpost lease rfl
  · intro i c' hp hnext j fileName n hj hn
    obtain ⟨th, hth, hmove⟩ := hok.step_guar hp hnext
    exact hmove.kept j fileName n hj hn

end

/-! ### Two processes -/

def samplePid (b : Bool) : Nat := if b then 2 else 1

/-- The lock file that the dead process 9 left for the branch `b`, and its worktree. -/
def sampleLocks : LeaseWorld Bool where
  locks := AList.singleton "b.lock" {
    inode := 0
    text := some (serializeWorktreeLeaseMetadata
      { owner := .direct, pid := 9, branch := "b", acquiredAt := "noon" }) }
  worktrees := fun name => name == "b"
  alive := fun pid => pid != 9
  nextInode := 1
  holding := fun _ _ => none
  lastOp := none

def sampleAcquireLease (b : Bool) : WorktreeCall Bool :=
  .acquire { fiber := b, pid := samplePid b, now := "noon" } "b" .direct

theorem sampleAcquireLease_start
    {allowed : WorktreeCall Bool → LeaseWorld Bool → LeaseWorld Bool → LeaseWorld Bool → Prop}
    (b : Bool) (s : LeaseWorld Bool) :
    (worktreeRuns samplePid allowed).start b (sampleAcquireLease b) s := by
  refine ⟨rfl, rfl, ?_⟩
  intro caller branch h
  cases h

/-- A process takes the lease over from the dead one, and no other live process holds it. -/
theorem worktreeLease_exclusive_sample :
    ∃ c, Pool.Reach (worktreeRuns samplePid (WorktreeUndisturbed samplePid))
        (worktreeCode "/repo") (Pool.idle sampleLocks) c ∧
      c.state.holding false (branchLock "b") ≠ none ∧
      ∀ j, Alive samplePid c.state j → c.state.holding j (branchLock "b") ≠ none → false = j := by
  have hreach : Pool.Reach (worktreeRuns samplePid (WorktreeUndisturbed samplePid))
      (worktreeCode "/repo") (Pool.idle sampleLocks) _ :=
    Pool.reach_of_exec
      (.start false (sampleAcquireLease false) :: List.replicate 7 (.step false) ++
        [.finish false]) rfl (by
        refine Pool.permitted_cons (sampleAcquireLease_start false _) rfl ?_
        iterate 7 refine Pool.permitted_cons ?_ rfl ?_; rotate_left
        refine Pool.permitted_cons trivial rfl trivial
        all_goals
          intro k upd rest seen h
          cases h
          refine ⟨rfl, ?_, fun _ _ _ _ => rfl, fun _ _ => rfl⟩
          intro name hname hmissing
          cases hname <;> cases hmissing)
  have hinodes : ∀ fileName file, sampleLocks.lock fileName = some file →
      file.inode < sampleLocks.nextInode := by
    intro fileName file hfile
    have hmem : ⟨fileName, file⟩ ∈ [(⟨"b.lock", _⟩ : Sigma fun _ : String => LockFile)] :=
      AList.mem_lookup_iff.mp hfile
    cases List.mem_singleton.mp hmem
    decide
  refine ⟨_, hreach, by decide, ?_⟩
  intro j hj hholding
  exact (worktreeLease_exclusive (fun _ _ => rfl) hinodes hreach).1 false j "b" rfl hj
    (by decide) hholding

/-- Both processes find the lock file of the dead one. The first to remove it takes the lease;
the other then removes the lock file of the first, and takes the lease too. -/
theorem bothRecover :
    ∃ c, Pool.Reach (worktreeRuns samplePid TakenAlive) (worktreeCode "/repo")
        (Pool.idle sampleLocks) c ∧
      Alive samplePid c.state false ∧ c.state.holding false (branchLock "b") ≠ none ∧
      Alive samplePid c.state true ∧ c.state.holding true (branchLock "b") ≠ none := by
  have hreach : Pool.Reach (worktreeRuns samplePid TakenAlive) (worktreeCode "/repo")
      (Pool.idle sampleLocks) _ :=
    Pool.reach_of_exec
      (.start false (sampleAcquireLease false) :: List.replicate 4 (.step false) ++
        .start true (sampleAcquireLease true) :: List.replicate 7 (.step true) ++
        [.finish true, .step false, .step false, .step false, .finish false]) rfl (by
        refine Pool.permitted_cons (sampleAcquireLease_start false _) rfl ?_
        iterate 4 refine Pool.permitted_cons ?_ rfl ?_; rotate_left
        refine Pool.permitted_cons (sampleAcquireLease_start true _) rfl ?_
        iterate 7 refine Pool.permitted_cons ?_ rfl ?_; rotate_left
        refine Pool.permitted_cons trivial rfl ?_
        iterate 3 refine Pool.permitted_cons ?_ rfl ?_; rotate_left
        refine Pool.permitted_cons trivial rfl trivial
        all_goals
          intro k upd rest seen h
          cases h
          rfl)
  exact ⟨_, hreach, rfl, by decide, rfl, by decide⟩

end ArchLoop
