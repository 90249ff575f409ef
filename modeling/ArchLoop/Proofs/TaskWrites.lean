import ArchLoop.Proofs.MigrationLayout

/-!
# `ArchLoop.Proofs.TaskWrites`: when a migration keeps every task write

A store is the list of the task writes in its database. Any number of processes call
`ensureHubTaskStoreMigrated`, each of them may stop after any of its steps, and `bd` accepts
writes between any two steps: in the store that the redirect names, or in the repository-local
store while there is no redirect.

`redirectWrite_lost` is a run that loses a write. A call stops after it has installed the
redirect, a write goes through the redirect, and the next call removes the managed store and
copies the quarantined one again.

`WritesKept` is what has to hold of the steps of a run: a write finds a database, a call takes
the lease while nobody else holds it, and it removes a managed store only if the quarantine has
all of its writes. In the runs whose steps meet it, each write that was accepted is in the
managed store from the moment that a call returns `migrated` or `verified`
(`taskWrites_kept`).
-/

set_option autoImplicit false

namespace ArchLoop

open ArchLoop.Lib

section
variable {ι ω : Type}

/-- The store that `bd` writes to. -/
def StoreWorld.active (s : StoreWorld ι (List ω)) : Store (List ω) :=
  if s.redirect then s.managed else s.repo

/-- One more write in a store. A store without a database gets one. -/
def addWrite (store : Store (List ω)) (w : ω) : Store (List ω) :=
  Function.update store .database (some (w :: (store .database).getD []))

/-- `bd` accepts a write. -/
def StoreWorld.bdWrite (s : StoreWorld ι (List ω)) (w : ω) : StoreWorld ι (List ω) :=
  if s.redirect then { s with managed := addWrite s.managed w, accepted := w :: s.accepted }
  else { s with repo := addWrite s.repo w, accepted := w :: s.accepted }

/-- Processes start and end, and other programs too. -/
def ProcessesMove (s t : StoreWorld ι (List ω)) : Prop :=
  ∃ life alive doltServerPid, LifeGoesOn s t ∧
    t = { s with life := life, alive := alive, doltServerPid := doltServerPid }

/-- `bd` changes its other files in the stores that it works on. -/
def FilesMove (s t : StoreWorld ι (List ω)) : Prop :=
  ∃ repo managed, t = { s with repo := repo, managed := managed } ∧
    repo .database = s.repo .database ∧ managed .database = s.managed .database ∧
    (s.repo.markerPresent = true → repo.markerPresent = true) ∧
    (s.managed.markerPresent = true → managed.markerPresent = true) ∧
    (s.redirect = false → managed = s.managed)

/-- What happens between the steps of the calls: `bd` accepts a write under the condition
`accepts` or changes its other files, or processes start and end. -/
inductive Outside (accepts : StoreWorld ι (List ω) → Prop) :
    StoreWorld ι (List ω) → StoreWorld ι (List ω) → Prop
  | write {s : StoreWorld ι (List ω)} (w : ω) (h : accepts s) : Outside accepts s (s.bdWrite w)
  | files {s t : StoreWorld ι (List ω)} (h : FilesMove s t) : Outside accepts s t
  | processes {s t : StoreWorld ι (List ω)} (h : ProcessesMove s t) : Outside accepts s t

/-- All runs: a running process makes its own calls. -/
def writeRuns (pid : ι → Nat) :
    Discipline ι (MigrationInput ι (List ω)) (StoreWorld ι (List ω)) where
  start := fun i k s => k.By pid i s
  env := Outside fun _ => True
  allowed := fun k _ t _ => t.life k.process = .running

/-- The step of a call from `t` to `t'` keeps the writes.

- `solo`: where it takes the lease, nobody else holds it.
- `spared`: where it removes the managed store, the quarantine has the writes of that. -/
structure WritesKept (input : MigrationInput ι (List ω)) (t t' : StoreWorld ι (List ω)) :
    Prop where
  running : t.life input.process = .running
  solo : t'.lastOp = some .writeLease → Alone input.process t
  spared : t'.lastOp = some .removeManaged → ∀ m q, t.managed .database = some m →
    t.quarantine .database = some q → m ⊆ q

/-- The runs in which each write finds a database and each step keeps the writes. -/
def keptRuns (pid : ι → Nat) :
    Discipline ι (MigrationInput ι (List ω)) (StoreWorld ι (List ω)) where
  start := fun i k s => k.By pid i s
  env := Outside fun s => s.active.databasePresent = true
  allowed := fun k _ t t' => WritesKept k t t'

def MigrationOutcome.isVerified : MigrationOutcome → Bool
  | .migrated _ _ _ _ => true
  | .notNeeded .verified _ _ => true
  | _ => false

/-- Each write that was accepted is in the managed store. -/
def AllInManaged (s : StoreWorld ι (List ω)) : Prop :=
  ∀ w ∈ s.accepted, ∃ db, s.managed .database = some db ∧ w ∈ db

def writesView (ω : Type) : MigrationView (List ω) where
  le := fun a b => a ⊆ b
  refl := fun a => List.Subset.refl a
  trans := fun _ _ _ => List.Subset.trans
  tracked := True
  calm := False

variable {s t : StoreWorld ι (List ω)} {w : ω}

theorem addWrite_database {store : Store (List ω)} :
    addWrite store w .database = some (w :: (store .database).getD []) :=
  Function.update_self ..

theorem has_addWrite {store : Store (List ω)} {entry : StoreEntry}
    (h : store.has entry = true) : (addWrite store w).has entry = true := by
  rw [addWrite, Store.has_update]
  split
  · rfl
  · exact h

theorem layoutInv_writeRepo (h : LayoutInv (writesView ω) s)
    (hdb : s.repo.databasePresent = true) :
    LayoutInv (writesView ω) { s with repo := addWrite s.repo w, accepted := w :: s.accepted } ∧
      HeldLayout s { s with repo := addWrite s.repo w, accepted := w :: s.accepted } := by
  have hfresh : s.quarantined = false := by
    cases hq : s.quarantined with
    | false => rfl
    | true =>
      have hgone := h.repoGone trivial hq
      exact absurd (hdb.symm.trans (Store.databaseAbsent_iff.mpr hgone)) (by decide)
  have hnone : s.quarantine .database = none := Store.databaseAbsent_iff.mp hfresh
  constructor
  · refine { fresh := fun _ => ?_, repoGone := fun _ hq => ?_, kept := fun q hq => ?_,
             verified := h.verified, exclusive := h.exclusive, unborn := h.unborn }
    · have hold := h.fresh hfresh
      obtain ⟨hmarker, hbase⟩ := Store.fullyInitialized_iff.mp hold.repo
      refine { redirect := hold.redirect, managed := hold.managed, repo := ?_,
               accepted := fun db hnew => ?_ }
      · exact Store.fullyInitialized_iff.mpr ⟨has_addWrite hmarker, has_addWrite hbase⟩
      · obtain ⟨old, hold'⟩ := Store.databasePresent_iff.mp hdb
        have hsub := hold.accepted old hold'
        dsimp only at hnew
        rw [addWrite_database, hold'] at hnew
        obtain rfl := Option.some.inj hnew
        exact List.cons_subset_cons w hsub
    · exact absurd (hfresh.symm.trans hq) (by decide)
    · cases hnone.symm.trans hq
  · exact { quarantine := rfl, redirect := rfl, verified := Iff.rfl, managed := id }

theorem layoutInv_writeManaged (h : LayoutInv (writesView ω) s) (hredirect : s.redirect = true)
    (hdb : s.managed.databasePresent = true) :
    LayoutInv (writesView ω)
        { s with managed := addWrite s.managed w, accepted := w :: s.accepted } ∧
      HeldLayout s { s with managed := addWrite s.managed w, accepted := w :: s.accepted } := by
  constructor
  · refine { fresh := fun hq => ?_, repoGone := h.repoGone, kept := fun q hq => ?_,
             verified := fun hverified => ?_, exclusive := h.exclusive, unborn := h.unborn }
    · exact absurd ((h.fresh hq).redirect.symm.trans hredirect) (by decide)
    · obtain ⟨old, hold⟩ := Store.databasePresent_iff.mp hdb
      obtain ⟨hq', haccepted⟩ := (h.kept q hq).1 old hold
      refine ⟨fun m hm => ?_, fun hm => ?_⟩
      · dsimp only at hm
        rw [addWrite_database, hold] at hm
        obtain rfl := Option.some.inj hm
        exact ⟨List.subset_cons_of_subset w hq', List.cons_subset_cons w haccepted⟩
      · dsimp only at hm
        rw [addWrite_database] at hm
        cases hm
    · obtain ⟨hredirect', hfull⟩ := h.verified hverified
      obtain ⟨hmarker, hbase⟩ := Store.fullyInitialized_iff.mp hfull
      exact ⟨hredirect', Store.fullyInitialized_iff.mpr
        ⟨has_addWrite hmarker, has_addWrite hbase⟩⟩
  · refine { quarantine := rfl, redirect := rfl, verified := Iff.rfl, managed := fun hfull => ?_ }
    obtain ⟨hmarker, hbase⟩ := Store.fullyInitialized_iff.mp hfull
    exact Store.fullyInitialized_iff.mpr ⟨has_addWrite hmarker, has_addWrite hbase⟩

theorem layoutInv_bdWrite (h : LayoutInv (writesView ω) s)
    (hdb : s.active.databasePresent = true) :
    LayoutInv (writesView ω) (s.bdWrite w) ∧ HeldLayout s (s.bdWrite w) ∧
      (s.bdWrite w).life = s.life ∧ (s.bdWrite w).inside = s.inside := by
  by_cases hredirect : s.redirect = true
  · rw [StoreWorld.active, if_pos hredirect] at hdb
    rw [StoreWorld.bdWrite, if_pos hredirect]
    obtain ⟨hinv, hheld⟩ := layoutInv_writeManaged h hredirect hdb
    exact ⟨hinv, hheld, rfl, rfl⟩
  · rw [StoreWorld.active, if_neg hredirect] at hdb
    rw [StoreWorld.bdWrite, if_neg hredirect]
    obtain ⟨hinv, hheld⟩ := layoutInv_writeRepo h hdb
    exact ⟨hinv, hheld, rfl, rfl⟩

theorem ProcessesMove.layout (h : ProcessesMove s t) (hs : LayoutInv (writesView ω) s) :
    LayoutInv (writesView ω) t ∧ LifeGoesOn s t ∧ t.inside = s.inside ∧ HeldLayout s t := by
  obtain ⟨life, alive, doltServerPid, hlife, rfl⟩ := h
  refine ⟨?_, hlife, rfl, ?_⟩
  · refine { fresh := fun hq => ?_, repoGone := hs.repoGone, kept := hs.kept,
             verified := hs.verified, exclusive := ?_, unborn := ?_ }
    · obtain ⟨hredirect, hmanaged, hrepo, haccepted⟩ := hs.fresh hq
      exact ⟨hredirect, hmanaged, hrepo, haccepted⟩
    · intro i hinside hrun j hj hinside' hrun'
      -- a process that holds the lease was running before
      have hbefore : ∀ k, s.inside k = true → life k = .running → s.life k = .running := by
        intro k hk hkrun
        rcases hlife k with heq | ⟨hunborn, -⟩ | ⟨hold, -⟩
        · exact heq.symm.trans hkrun
        · exact absurd ((hs.unborn k hunborn).symm.trans hk) (by decide)
        · exact hold
      exact hs.exclusive i hinside (hbefore i hinside hrun) j hj hinside'
        (hbefore j hinside' hrun')
    · intro i hi
      rcases hlife i with heq | ⟨-, hrun⟩ | ⟨-, hdead⟩
      · exact hs.unborn i (heq.symm.trans hi)
      · cases hrun.symm.trans hi
      · cases hdead.symm.trans hi
  · exact { quarantine := rfl, redirect := rfl, verified := Iff.rfl, managed := id }

theorem Store.fullyInitialized_of_eq {old new : Store (List ω)}
    (hmarker : old.markerPresent = true → new.markerPresent = true)
    (hdb : new .database = old .database) (h : old.fullyInitialized = true) :
    new.fullyInitialized = true := by
  obtain ⟨hold, hbase⟩ := Store.fullyInitialized_iff.mp h
  refine Store.fullyInitialized_iff.mpr ⟨hmarker hold, ?_⟩
  rw [Store.has, hdb]
  exact hbase

theorem FilesMove.layout (h : FilesMove s t) (hs : LayoutInv (writesView ω) s) :
    LayoutInv (writesView ω) t ∧ LifeGoesOn s t ∧ t.inside = s.inside ∧ HeldLayout s t := by
  obtain ⟨repo, managed, rfl, hrepo, hmanaged, hrepoMarker, hmanagedMarker, hempty⟩ := h
  refine ⟨?_, fun _ => Or.inl rfl, rfl, ?_⟩
  · refine { fresh := fun hq => ?_, repoGone := fun htracked hq => ?_, kept := fun q hq => ?_,
             verified := fun hverified => ?_, exclusive := hs.exclusive, unborn := hs.unborn }
    · obtain ⟨hredirect, hold, hfull, haccepted⟩ := hs.fresh hq
      refine ⟨hredirect, (hempty hredirect).trans hold,
        Store.fullyInitialized_of_eq hrepoMarker hrepo hfull, ?_⟩
      dsimp only
      rw [hrepo]
      exact haccepted
    · exact hrepo.trans (hs.repoGone htracked hq)
    · dsimp only at hq ⊢
      rw [hmanaged]
      exact hs.kept q hq
    · obtain ⟨hredirect, hfull⟩ := hs.verified hverified
      exact ⟨hredirect, Store.fullyInitialized_of_eq hmanagedMarker hmanaged hfull⟩
  · exact { quarantine := rfl, redirect := rfl, verified := Iff.rfl,
            managed := Store.fullyInitialized_of_eq hmanagedMarker hmanaged }

theorem keptRuns_layout (pid : ι → Nat) :
    LayoutRuns (writesView ω) (keptRuns (ι := ι) (ω := ω) pid) where
  start := fun i k s h => ⟨h.1, h.2.2⟩
  env := by
    intro s t hs h
    cases h with
    | write w hdb =>
      obtain ⟨hinv, hheld, hlife, hinside⟩ := layoutInv_bdWrite (w := w) hs hdb
      exact ⟨hinv, fun i => Or.inl (congrFun hlife i), hinside, hheld⟩
    | files hmove => exact hmove.layout hs
    | processes hmove => exact hmove.layout hs
  allowed := fun k s t t' h => ⟨h.running, h.solo, h.spared, False.elim⟩

theorem layoutInv_legacy (h : LegacyProject s)
    (haccepted : ∀ db, s.repo .database = some db → s.accepted ⊆ db) :
    LayoutInv (writesView ω) s where
  fresh := fun _ => ⟨h.redirect, h.managed, h.repo, haccepted⟩
  repoGone := by
    intro _ hq
    rw [StoreWorld.quarantined, h.quarantine] at hq
    cases hq
  kept := by
    intro q hq
    rw [h.quarantine] at hq
    cases hq
  verified := by
    intro hverified
    rw [StoreWorld.phases, h.journal] at hverified
    obtain ⟨record, hmem, -⟩ := mem_readJournalPhases.mp hverified
    cases hmem
  exclusive := fun i hi => absurd ((h.inside i).symm.trans hi) (by decide)
  unborn := fun i _ => h.inside i

theorem allInManaged_of_verified (h : LayoutInv (writesView ω) s)
    (hverified : .verified ∈ s.phases) : AllInManaged s := by
  obtain ⟨hredirect, hfull⟩ := h.verified hverified
  obtain ⟨m, hm⟩ := Store.databasePresent_iff.mp (Store.fullyInitialized_iff.mp hfull).2
  have hquarantined : s.quarantined = true := by
    cases hq : s.quarantined with
    | true => rfl
    | false => exact absurd ((h.fresh hq).redirect.symm.trans hredirect) (by decide)
  obtain ⟨q, hq⟩ := Store.databasePresent_iff.mp hquarantined
  exact fun w hw => ⟨m, hm, ((h.kept q hq).1 m hm).2 hw⟩

theorem verified_of_isVerified {outcome : MigrationOutcome} (h : outcome.isVerified = true)
    (hok : OutcomeOk (writesView ω) outcome s) : .verified ∈ s.phases := by
  cases outcome with
  | notNeeded reason phase beadsDir =>
    cases reason with
    | verified => exact hok
    | uninitialized => cases h
    | managed => cases h
    | redirect => cases h
    | legacy => cases h
  | migrated phase beadsDir backupDir journalPath => exact hok
  | deferred deferral => cases h
  | splitBrain => cases h

variable [DecidableEq ι]

/-- No write is lost. In the runs that keep the writes, once a call has returned `migrated` or
`verified`, all that `bd` has accepted is in the managed store. -/
theorem taskWrites_kept {site : StoreSite} {pid : ι → Nat} {s₀ : StoreWorld ι (List ω)}
    (hlegacy : LegacyProject s₀)
    (haccepted : ∀ db, s₀.repo .database = some db → s₀.accepted ⊆ db)
    {c : Pool ι (MigrationInput ι (List ω)) (StoreWorld ι (List ω)) MigrationError
      MigrationOutcome}
    (hreach : Pool.Reach (keptRuns pid) (migrationCode site) (Pool.idle s₀) c)
    {i : ι} {k : MigrationInput ι (List ω)} {outcome : MigrationOutcome}
    (hreturned : (i, k, .ok outcome) ∈ c.returns) (hverified : outcome.isVerified = true) :
    AllInManaged c.state := by
  have H := layout_holds (keptRuns_layout (ω := ω) pid) site
  have hstart : (layoutContract (writesView ω)).Ok (keptRuns pid)
      (Pool.idle s₀ : Pool ι _ _ MigrationError MigrationOutcome) :=
    Contract.ok_idle (layoutInv_legacy hlegacy haccepted)
  -- the record of the verification stays, so it is there long after the return
  have hrecorded : ∀ i k r, (i, k, r) ∈ c.returns → ∀ outcome : MigrationOutcome,
      r = .ok outcome → outcome.isVerified = true → .verified ∈ c.state.phases := by
    refine H.returns_keep (K := fun _ _ r s => ∀ outcome : MigrationOutcome, r = .ok outcome →
      outcome.isVerified = true → .verified ∈ s.phases) ?_ ?_ ?_ hstart
      (fun i k r h => by cases h) hreach
    · intro i k r s t hpost hrely outcome hr hv
      exact hrely.grows.verified (verified_of_isVerified hv (hpost outcome hr))
    · intro i k r s t hinv hK henv outcome hr hv
      obtain ⟨-, -, -, hheld⟩ := (keptRuns_layout (ω := ω) pid).env s t hinv henv
      exact hheld.verified.mpr (hK outcome hr hv)
    · intro i k r s t t' j l _ hK hguar outcome hr hv
      exact hguar.grows.verified (hK outcome hr hv)
  exact allInManaged_of_verified (H.ok_reach hstart hreach).1
    (hrecorded i k _ hreturned outcome rfl hverified)

end

/-! ### A project, and the run that loses a write -/

def sampleSite : StoreSite where
  repoRoot := "/repo"
  hubProjectDir := "/hub"

def sampleListing : DirListing where
  entries := [
    .runtime .embeddeddolt, .runtime .dolt, .runtime .issuesJsonl,
    .runtime .interactionsJsonl, .runtime .eventsJsonl, .runtime .backup, .runtime .exportState,
    .runtime .exportStateJson, .runtime .syncStateJson, .runtime .lastTouched, .runtime .bdSock,
    .runtime .bdSockStartlock, .runtime .exclusiveLock, .copied .metadataJson,
    .copied .configYaml, .copied .gitignore]
  complete := by
    intro entry
    cases entry with
    | runtime name => cases name <;> decide
    | copied name => cases name <;> decide

def sampleIssue (n : Nat) : ListedIssue :=
  { id := some (if n = 1 then "task-1" else "task-2"), status := some "open",
    dependencies := 0, comments := 0 }

def sampleBd : TaskRuntime (List Nat) where
  available := true
  list := fun _ store => (store .database).map fun writes => writes.map sampleIssue
  wherePath := fun path _ => some (some path)
  metadata := fun _ => { projectId := some "repo" }
  issuePrefix := fun _ => some "task"
  pidIn := fun _ => none
  sha256 := id
  hashStoreTree := fun writes => if writes = [1] then "a" else "b"
  localeLe := fun left right => left ≤ right

def sampleStore : Store (List Nat) := fun
  | .runtime .embeddeddolt => some [1]
  | .copied .metadataJson => some []
  | _ => none

def legacySample (ι : Type) : StoreWorld ι (List Nat) where
  repo := sampleStore
  managed := .empty
  quarantine := .empty
  redirect := false
  journal := []
  snapshot := none
  pending := none
  lease := none
  doltServerPid := none
  alive := fun _ => true
  life := fun _ => .running
  inside := fun _ => false
  lastOp := none
  boundary := none
  verifiedStore := none
  accepted := [1]

def sampleInputOf {ι : Type} (process : ι) (pid : Nat)
    (crashAfter : Option MigrationSideEffect) : MigrationInput ι (List Nat) where
  process := process
  pid := pid
  bd := sampleBd
  now := 0
  crashAfter := crashAfter
  listing := sampleListing

abbrev sampleInput (crashAfter : Option MigrationSideEffect) : MigrationInput Unit (List Nat) :=
  sampleInputOf () 1 crashAfter

theorem legacySample_legacy (ι : Type) : LegacyProject (legacySample ι) where
  repo := rfl
  managed := rfl
  quarantine := rfl
  redirect := rfl
  journal := rfl
  snapshot := rfl
  pending := rfl
  lease := rfl
  inside := fun _ => rfl
  verifiedStore := rfl

theorem legacySample_accepted (ι : Type) (db : List Nat)
    (h : (legacySample ι).repo .database = some db) : (legacySample ι).accepted ⊆ db := by
  obtain rfl := Option.some.inj h
  exact List.Subset.refl _

theorem sampleInput_running {crashAfter : Option MigrationSideEffect}
    {s : StoreWorld Unit (List Nat)} (h : s.life () = .running) :
    (ensureHubTaskStoreMigrated sampleSite (sampleInput crashAfter)).Along
      (fun t _ => t.life () = .running) s := by
  refine Prog.Always.along (I := fun s => s.life () = .running) keeps_life ?_ h
  intro s t hs hlife
  exact ⟨hs, by rw [hlife]; exact hs⟩

abbrev sampleMigration (crashAfter : Option MigrationSideEffect) (s : StoreWorld Unit (List Nat)) :
    Except MigrationError MigrationOutcome × StoreWorld Unit (List Nat) :=
  (ensureHubTaskStoreMigrated sampleSite (sampleInput crashAfter)).run s

abbrev migratedSample : Except MigrationError MigrationOutcome :=
  .ok (.migrated .verified .managed .quarantine sampleSite.journalPath)

/-- A crash-free call keeps the write of the sample. -/
theorem taskWrites_kept_sample :
    ∃ c, Pool.Reach (keptRuns fun _ => 1) (migrationCode sampleSite) (Pool.idle (legacySample Unit)) c ∧
      AllInManaged c.state ∧ c.state.managed .database = some [1] := by
  have hspared : (ensureHubTaskStoreMigrated sampleSite (sampleInput none)).Along
      (fun t t' => t'.lastOp = some .removeManaged → t.managed .database = none)
      (legacySample Unit) := by
    decide +kernel
  have hallowed : (ensureHubTaskStoreMigrated sampleSite (sampleInput none)).Along
      (fun t t' => ∀ _ : StoreWorld Unit (List Nat), WritesKept (sampleInput none) t t')
      (legacySample Unit) := by
    refine (sampleInput_running rfl).combine hspared fun t t' hrun hgone _ => ?_
    refine { running := hrun, solo := fun _ j hj => absurd rfl hj, spared := ?_ }
    intro hop m q hm _
    rw [hgone hop] at hm
    cases hm
  have hresult : (sampleMigration none (legacySample Unit)).1 = migratedSample := by decide +kernel
  have hreach : Pool.Reach (keptRuns fun _ => 1) (migrationCode sampleSite)
      (Pool.idle (legacySample Unit))
      { state := (sampleMigration none (legacySample Unit)).2
        threads := fun _ => none
        returns := [((), sampleInput none, (sampleMigration none (legacySample Unit)).1)] } :=
    Pool.reach_run _ _ rfl ⟨rfl, rfl, rfl⟩ hallowed
  rw [hresult] at hreach
  exact ⟨_, hreach, taskWrites_kept (legacySample_legacy Unit) (legacySample_accepted Unit) hreach
    List.mem_cons_self rfl, by decide +kernel⟩

/-- The state in which a call stops that has installed the redirect and not verified the
managed store. -/
def redirectUnverified : StoreWorld Unit (List Nat) :=
  (sampleMigration (some .installRedirect) (legacySample Unit)).2

/-- A write through the redirect of an interrupted migration is lost. The next call returns
`migrated`, and the managed store is again what the quarantine holds. -/
theorem redirectWrite_lost :
    LegacyProject (legacySample Unit) ∧
    (∀ db, (legacySample Unit).repo .database = some db → (legacySample Unit).accepted ⊆ db) ∧
    ∃ c, Pool.Reach (writeRuns fun _ => 1) (migrationCode sampleSite) (Pool.idle (legacySample Unit)) c ∧
      (∃ outcome, ((), sampleInput none, .ok outcome) ∈ c.returns ∧
        outcome.isVerified = true) ∧
      ¬ AllInManaged c.state := by
  refine ⟨legacySample_legacy Unit, legacySample_accepted Unit, ?_⟩
  have hsteps : ∀ (crashAfter : Option MigrationSideEffect) (s : StoreWorld Unit (List Nat)),
      s.life () = .running →
      (ensureHubTaskStoreMigrated sampleSite (sampleInput crashAfter)).Along
        (fun t _ => ∀ _ : StoreWorld Unit (List Nat), t.life () = .running) s :=
    fun _ _ h => (sampleInput_running h).combine (sampleInput_running h) fun _ _ hrun _ _ => hrun
  have hlife : (redirectUnverified.bdWrite 2).life () = .running := by decide +kernel
  have hcrash : Pool.Reach (writeRuns fun _ => 1) (migrationCode sampleSite)
      (Pool.idle (legacySample Unit))
      { state := redirectUnverified
        threads := fun _ => none
        returns := [((), sampleInput (some .installRedirect),
          (sampleMigration (some .installRedirect) (legacySample Unit)).1)] } :=
    Pool.reach_run _ _ rfl ⟨rfl, rfl, rfl⟩ (hsteps _ _ rfl)
  have hwrite := hcrash.tail ⟨.env (redirectUnverified.bdWrite 2), .write 2 trivial, rfl⟩
  have hagain := hwrite.trans (Pool.reach_run (writeRuns fun _ => 1) (migrationCode sampleSite)
    (i := ()) (k := sampleInput none) rfl ⟨rfl, rfl, hlife⟩ (hsteps _ _ hlife))
  refine ⟨_, hagain, ⟨.migrated .verified .managed .quarantine sampleSite.journalPath,
    List.mem_cons.mpr (Or.inl ?_), rfl⟩, ?_⟩
  · have hresult : (sampleMigration none (redirectUnverified.bdWrite 2)).1 = migratedSample := by
      decide +kernel
    exact congrArg (fun r => ((), sampleInput none, r)) hresult.symm
  · show ¬ AllInManaged (sampleMigration none (redirectUnverified.bdWrite 2)).2
    intro hall
    have haccepted : (sampleMigration none (redirectUnverified.bdWrite 2)).2.accepted = [2, 1] := by
      decide +kernel
    have hmanaged : (sampleMigration none (redirectUnverified.bdWrite 2)).2.managed .database
        = some [1] := by
      decide +kernel
    have hwrite : 2 ∈ (sampleMigration none (redirectUnverified.bdWrite 2)).2.accepted := by
      rw [haccepted]
      exact List.mem_cons_self
    obtain ⟨db, hdb, hmem⟩ := hall 2 hwrite
    have heq : [1] = db := Option.some.inj (hmanaged.symm.trans hdb)
    rw [← heq] at hmem
    exact absurd hmem (by decide)

end ArchLoop
