import ArchLoop.Proofs.TaskWrites

/-!
# `ArchLoop.Proofs.MigrationExclusion`: one migration at a time, and safe deferrals

Any number of live processes call `ensureHubTaskStoreMigrated` for one project, and their steps
interleave.

The lease is a file that a call reads and then overwrites. `bothMigrate` is a run in which two
live processes are between taking and releasing it: both read the file before either writes it.

`Uncontended` is what has to hold of the steps of a run. The lease that a call writes over
names no other live process; nobody else moves an entry between two steps of a call; and a call
that finds something quarantined finds the database there, no pending record that blocks it and
no other live process in the lease. In these runs one call at a time is under the lease, a
release removes no lease of another live process, and a call is deferred only while nothing is
quarantined and the store it names is complete (`migration_exclusive`).
-/

set_option autoImplicit false

namespace ArchLoop

open ArchLoop.Lib

section
variable {ι χ : Type}

/-- What happens between the steps of the calls: `bd` works on the store that is in use, and
processes start and end. -/
structure StoreInUse (pid : ι → Nat) (s t : StoreWorld ι χ) : Prop where
  moved : ∃ repo managed life alive doltServerPid accepted, t = { s with
    repo := repo, managed := managed, life := life, alive := alive,
    doltServerPid := doltServerPid, accepted := accepted }
  repo : s.repo.fullyInitialized = true → t.repo.fullyInitialized = true
  managed : s.managed.fullyInitialized = true → t.managed.fullyInitialized = true
  unused : s.redirect = false → t.managed = s.managed
  life : LifeGoesOn s t
  processes : ProcessesOk pid t

/-- The step of a call from `t` to `t'`, when its last step left `s`, is not disturbed.

- `free`: where it writes the lease, the file names no other live process.
- `calm`: nobody has moved an entry, and nothing stands in the way of a call that finds
  something quarantined. -/
structure Uncontended (input : MigrationInput ι χ) (s t t' : StoreWorld ι χ) : Prop where
  running : t.life input.process = .running
  free : t'.lastOp = some .writeLease → leaseOwner t.lease input.pid t.alive = none
  calm : CalmStep input s t t'

/-- The runs in which each process makes its own calls. `allowed` says which steps they
take. -/
def migrationRuns (pid : ι → Nat)
    (allowed : MigrationInput ι χ → StoreWorld ι χ → StoreWorld ι χ → StoreWorld ι χ → Prop) :
    Discipline ι (MigrationInput ι χ) (StoreWorld ι χ) where
  start := fun i k s => k.By pid i s
  env := StoreInUse pid
  allowed := allowed

def TakenRunning (input : MigrationInput ι χ) (_ t _ : StoreWorld ι χ) : Prop :=
  t.life input.process = .running

/-- The processes of a pool migrate one at a time, and defer only in time.

- `one`: one running process at most is between taking and releasing the lease.
- `release`: a step that releases the lease removes no lease of another live process.
- `deferred`: where a call comes to its end deferred, the quarantine is empty and the store
  that the outcome names is complete. -/
structure MigratesAlone (pid : ι → Nat) (D : Discipline ι (MigrationInput ι χ) (StoreWorld ι χ))
    (c : Pool ι (MigrationInput ι χ) (StoreWorld ι χ) MigrationError MigrationOutcome) :
    Prop where
  one : ∀ i j, c.state.inside i = true → c.state.life i = .running →
    c.state.inside j = true → c.state.life j = .running → i = j
  release : ∀ i k upd rest seen, c.threads i = some ⟨k, .act upd rest, seen⟩ →
    D.allowed k seen c.state (upd c.state) → (upd c.state).lastOp = some .releaseLease →
    ∀ owner, c.state.lease = some owner → owner ≠ pid i → c.state.alive owner = false
  deferred : ∀ i k deferral seen, c.threads i = some ⟨k, .ret (.deferred deferral), seen⟩ →
    ¬ Touched seen ∧ (seen.store deferral.beadsDir).fullyInitialized = true

/-- The deferrals are looked at, and not the writes. -/
def deferralView (χ : Type) : MigrationView χ where
  le := fun _ _ => True
  refl := fun _ => trivial
  trans := fun _ _ _ _ _ => trivial
  tracked := False
  calm := True

def layoutRuns (pid : ι → Nat) : Discipline ι (MigrationInput ι χ) (StoreWorld ι χ) :=
  migrationRuns pid fun k s t t' => LayoutAllowed (deferralView χ) k s t t'

variable {pid : ι → Nat} {s t : StoreWorld ι χ}

theorem StoreInUse.lease (h : StoreInUse pid s t) :
    t.lease = s.lease ∧ t.inside = s.inside ∧ LifeGoesOn s t ∧ ProcessesOk pid t := by
  have hlife := h.life
  have hprocesses := h.processes
  obtain ⟨repo, managed, life, alive, doltServerPid, accepted, rfl⟩ := h.moved
  exact ⟨rfl, rfl, hlife, hprocesses⟩

theorem StoreInUse.held (h : StoreInUse pid s t) : HeldLayout s t := by
  have hmanaged := h.managed
  obtain ⟨repo, managed, life, alive, doltServerPid, accepted, rfl⟩ := h.moved
  exact { quarantine := rfl, redirect := rfl, verified := Iff.rfl, managed := hmanaged }

theorem running_before (hs : LayoutInv (deferralView χ) s) (hlife : LifeGoesOn s t) {i : ι}
    (hinside : s.inside i = true) (hrun : t.life i = .running) : s.life i = .running := by
  rcases hlife i with heq | ⟨hunborn, -⟩ | ⟨hold, -⟩
  · exact heq.symm.trans hrun
  · exact absurd ((hs.unborn i hunborn).symm.trans hinside) (by decide)
  · exact hold

theorem StoreInUse.layout (h : StoreInUse pid s t) (hs : LayoutInv (deferralView χ) s) :
    LayoutInv (deferralView χ) t where
  fresh := by
    have hheld := h.held
    intro hq
    rw [StoreWorld.quarantined, hheld.quarantine] at hq
    obtain ⟨hredirect, hmanaged, hrepo, -⟩ := hs.fresh hq
    exact ⟨hheld.redirect.trans hredirect, (h.unused hredirect).trans hmanaged, h.repo hrepo,
      fun _ _ => trivial⟩
  repoGone := False.elim
  kept := fun _ _ => ⟨fun _ _ => ⟨trivial, trivial⟩, fun _ => trivial⟩
  verified := by
    have hheld := h.held
    rw [hheld.verified, hheld.redirect]
    intro hverified
    obtain ⟨hredirect, hfull⟩ := hs.verified hverified
    exact ⟨hredirect, hheld.managed hfull⟩
  exclusive := by
    obtain ⟨-, hinside, hlife, -⟩ := h.lease
    intro i hi hrun j hj hi' hrun'
    rw [hinside] at hi hi'
    exact hs.exclusive i hi (running_before hs hlife hi hrun) j hj hi'
      (running_before hs hlife hi' hrun')
  unborn := by
    obtain ⟨-, hinside, hlife, -⟩ := h.lease
    intro i hi
    rw [hinside]
    rcases hlife i with heq | ⟨-, hrun⟩ | ⟨-, hdead⟩
    · exact hs.unborn i (heq.symm.trans hi)
    · cases hrun.symm.trans hi
    · cases hdead.symm.trans hi

theorem layoutRuns_layout (pid : ι → Nat) :
    LayoutRuns (deferralView χ) (layoutRuns (χ := χ) pid) where
  start := fun _ _ _ h => ⟨h.1, h.2.2⟩
  env := by
    intro s t hs h
    obtain ⟨-, hinside, hlife, -⟩ := h.lease
    exact ⟨h.layout hs, hlife, hinside, h.held⟩
  allowed := fun _ _ _ _ h => h

theorem uncontended_lease (pid : ι → Nat) :
    LeaseRuns pid (migrationRuns (χ := χ) pid Uncontended) where
  start := fun _ _ _ h => h
  env := fun _ _ _ h => h.lease
  allowed := fun _ _ _ _ h => ⟨h.running, h.free⟩

theorem layoutInv_legacyProject (h : LegacyProject s) : LayoutInv (deferralView χ) s where
  fresh := fun _ => ⟨h.redirect, h.managed, h.repo, fun _ _ => trivial⟩
  repoGone := False.elim
  kept := fun _ _ => ⟨fun _ _ => ⟨trivial, trivial⟩, fun _ => trivial⟩
  verified := by
    intro hverified
    rw [StoreWorld.phases, h.journal] at hverified
    obtain ⟨record, hmem, -⟩ := mem_readJournalPhases.mp hverified
    cases hmem
  exclusive := fun i hi => absurd ((h.inside i).symm.trans hi) (by decide)
  unborn := fun i _ => h.inside i

variable [DecidableEq ι]

/-- The lease excludes, and deferrals come in time, in the runs whose steps are not
disturbed. -/
theorem migration_exclusive {site : StoreSite} {s₀ : StoreWorld ι χ}
    (hlegacy : LegacyProject s₀) (hprocesses : ProcessesOk pid s₀)
    {c : Pool ι (MigrationInput ι χ) (StoreWorld ι χ) MigrationError MigrationOutcome}
    (hreach : Pool.Reach (migrationRuns pid Uncontended) (migrationCode site) (Pool.idle s₀) c) :
    MigratesAlone pid (migrationRuns pid Uncontended) c := by
  have H := migrationLease_holds (uncontended_lease (χ := χ) pid) site
  have hidle : (migrationLeaseContract pid).Ok (migrationRuns pid Uncontended)
      (Pool.idle s₀ : Pool ι _ _ MigrationError MigrationOutcome) := by
    refine Contract.ok_idle { processes := hprocesses, unborn := fun i _ => hlegacy.inside i,
                              owner := fun i hi => ?_ }
    exact absurd ((hlegacy.inside i).symm.trans hi) (by decide)
  have hok := H.ok_reach hidle hreach
  -- nobody else holds a lease that is taken, so the layout contract covers the run too
  have hreach' : Pool.Reach (layoutRuns pid) (migrationCode site) (Pool.idle s₀) c := by
    refine H.reach_of (layoutRuns pid) (fun _ _ _ h => h) (fun _ _ _ h => h) ?_ hidle hreach
    rintro i k s t t' - hallowed ⟨rfl, hguar⟩
    exact { running := hallowed.running, solo := hguar.solo,
            spared := fun _ _ _ _ _ => trivial, calm := fun _ => hallowed.calm }
  have hlayout := (layout_holds (layoutRuns_layout (χ := χ) pid) site).ok_reach
    (Contract.ok_idle (layoutInv_legacyProject hlegacy)) hreach'
  refine { one := ?_, release := ?_, deferred := ?_ }
  · intro i j hi hrun hj hrun'
    by_contra hne
    exact hok.1.exclusive pid i hi hrun j (fun h => hne h.symm) hj hrun'
  · intro i k upd rest seen hth hallowed hop owner howner hne
    obtain ⟨-, hguar⟩ := (hok.2 i _ hth).1 c.state (hok.2 i _ hth).2 hok.1 hallowed |>.1
    have hown := hguar.own hop
    exact absurd (Option.some.inj (howner.symm.trans hown)) hne
  · intro i k deferral seen hth
    have hpost := (hlayout.2 i _ hth).1
    exact hpost (.deferred deferral) rfl trivial

end

/-! ### Two processes -/

def migratorPid (b : Bool) : Nat := if b then 2 else 1

abbrev migratorCall (b : Bool) : MigrationInput Bool (List Nat) :=
  sampleInputOf b (migratorPid b) none

theorem migrators_ok : ProcessesOk migratorPid (legacySample Bool) where
  alive := fun _ _ => rfl
  distinct := by
    intro i j _ _ h
    cases i <;> cases j <;> first | rfl | cases h

theorem migratorCall_start {b : Bool} {s : StoreWorld Bool (List Nat)}
    (h : s.life b = .running) (allowed) :
    (migrationRuns migratorPid allowed).start b (migratorCall b) s :=
  ⟨rfl, rfl, h⟩

/-- One process takes the lease while the other is idle. -/
theorem migration_exclusive_sample :
    ∃ c, Pool.Reach (migrationRuns migratorPid Uncontended) (migrationCode sampleSite)
        (Pool.idle (legacySample Bool)) c ∧
      c.state.inside false = true ∧
      MigratesAlone migratorPid (migrationRuns migratorPid Uncontended) c := by
  have hempty : ∀ s : StoreWorld Bool (List Nat), s.quarantine = .empty → ¬ Touched s := by
    rintro s hs ⟨entry, hentry⟩
    rw [hs] at hentry
    cases hentry
  have hreach : Pool.Reach (migrationRuns migratorPid Uncontended) (migrationCode sampleSite)
      (Pool.idle (legacySample Bool)) _ :=
    Pool.reach_of_exec (.start false (migratorCall false) :: List.replicate 7 (.step false)) rfl
      (by
        refine Pool.permitted_cons (migratorCall_start rfl _) rfl ?_
        iterate 7 refine Pool.permitted_cons ?_ rfl ?_; rotate_left
        exact trivial
        all_goals
          intro k upd rest seen h
          cases h
          refine { running := rfl, free := fun _ => rfl, calm := ?_ }
          exact { quarantine := rfl
                  pending := fun _ h => absurd h (hempty _ rfl)
                  lease := fun _ h => absurd h (hempty _ rfl) })
  exact ⟨_, hreach, rfl, migration_exclusive (legacySample_legacy Bool) migrators_ok hreach⟩

theorem bothMigrate :
    ∃ c, Pool.Reach (migrationRuns migratorPid TakenRunning) (migrationCode sampleSite)
        (Pool.idle (legacySample Bool)) c ∧
      ∀ b, c.state.inside b = true ∧ c.state.life b = .running := by
  have hreach : Pool.Reach (migrationRuns migratorPid TakenRunning) (migrationCode sampleSite)
      (Pool.idle (legacySample Bool)) _ :=
    Pool.reach_of_exec
      (.start false (migratorCall false) :: List.replicate 6 (.step false) ++
        .start true (migratorCall true) :: List.replicate 7 (.step true) ++ [.step false]) rfl
      (by
        refine Pool.permitted_cons (migratorCall_start rfl _) rfl ?_
        iterate 6 refine Pool.permitted_cons ?_ rfl ?_; rotate_left
        refine Pool.permitted_cons (migratorCall_start rfl _) rfl ?_
        iterate 8 refine Pool.permitted_cons ?_ rfl ?_; rotate_left
        exact trivial
        all_goals
          intro k upd rest seen h
          cases h
          rfl)
  refine ⟨_, hreach, ?_⟩
  intro b
  cases b <;> exact ⟨rfl, rfl⟩

/-- So the processes of a legacy project do not always migrate alone. -/
theorem migration_contended :
    LegacyProject (legacySample Bool) ∧ ProcessesOk migratorPid (legacySample Bool) ∧
    ¬ ∀ c, Pool.Reach (migrationRuns migratorPid TakenRunning) (migrationCode sampleSite)
        (Pool.idle (legacySample Bool)) c →
      MigratesAlone migratorPid (migrationRuns migratorPid TakenRunning) c := by
  refine ⟨legacySample_legacy Bool, migrators_ok, fun hall => ?_⟩
  obtain ⟨c, hreach, hboth⟩ := bothMigrate
  have hone := (hall c hreach).one false true (hboth false).1 (hboth false).2 (hboth true).1
    (hboth true).2
  cases hone

end ArchLoop
