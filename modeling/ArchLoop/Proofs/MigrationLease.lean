import ArchLoop.Proofs.MigrationMoves
import ArchLoop.Lib.Pool

/-!
# `ArchLoop.Proofs.MigrationLease`: who holds the migration lease

Any number of processes call `ensureHubTaskStoreMigrated`. Processes start and end between any
two steps, and a pid may be used again after its process has ended.

The lease is read and then written in two steps. `migrationLease_holds` is about runs in which
the write still finds no other live process in the file: then the lease names the process that
is between taking and releasing it, no two live processes are there at once, and a release
removes the lease of its own process.
-/

set_option autoImplicit false

namespace ArchLoop

open ArchLoop.Lib

section
variable {ι χ : Type} (pid : ι → Nat)

/-- The process table shows each running process, and no two of them have one pid. -/
structure ProcessesOk (s : StoreWorld ι χ) : Prop where
  alive : ∀ i, s.life i = .running → s.alive (pid i) = true
  distinct : ∀ i j, s.life i = .running → s.life j = .running → pid i = pid j → i = j

def LifeGoesOn (s t : StoreWorld ι χ) : Prop :=
  ∀ i, t.life i = s.life i ∨ (s.life i = .unborn ∧ t.life i = .running) ∨
    (s.life i = .running ∧ t.life i = .dead)

def MigrationInput.By (input : MigrationInput ι χ) (i : ι) (s : StoreWorld ι χ) : Prop :=
  input.process = i ∧ input.pid = pid i ∧ s.life i = .running

/-- What the lease file says.

- `unborn`: a process that has not started does not hold the lease.
- `owner`: the lease names the running process that is between taking and releasing it. -/
structure MigrationLeaseInv (s : StoreWorld ι χ) : Prop where
  processes : ProcessesOk pid s
  unborn : ∀ i, s.life i = .unborn → s.inside i = false
  owner : ∀ i, s.inside i = true → s.life i = .running → s.lease = some (pid i)

/-- No other running process is between taking and releasing the lease. -/
def Alone (i : ι) (s : StoreWorld ι χ) : Prop :=
  ∀ j, j ≠ i → s.inside j = true → s.life j ≠ .running

theorem MigrationLeaseInv.exclusive {s : StoreWorld ι χ} (h : MigrationLeaseInv pid s) (i : ι)
    (hi : s.inside i = true) (hrun : s.life i = .running) : Alone i s := by
  intro j hj hinside hlife
  have hpid : pid i = pid j :=
    Option.some.inj ((h.owner i hi hrun).symm.trans (h.owner j hinside hlife))
  exact hj (h.processes.distinct i j hrun hlife hpid).symm

/-- What a process relies on for itself: it does not come back once it has ended, and nobody
else takes or releases the lease in its name. -/
def OwnLife (i : ι) (s t : StoreWorld ι χ) : Prop :=
  s.life i ≠ .unborn →
    t.life i ≠ .unborn ∧ (t.life i = .running → s.life i = .running) ∧ t.inside i = s.inside i

theorem OwnLife.refl (i : ι) (s : StoreWorld ι χ) : OwnLife i s s :=
  fun h => ⟨h, id, rfl⟩

theorem OwnLife.trans {i : ι} {s t u : StoreWorld ι χ} (h : OwnLife i s t)
    (h' : OwnLife i t u) : OwnLife i s u := by
  intro hs
  obtain ⟨ht, hrun, hinside⟩ := h hs
  obtain ⟨hu, hrun', hinside'⟩ := h' ht
  exact ⟨hu, fun hlife => hrun (hrun' hlife), hinside'.trans hinside⟩

theorem OwnLife.of_env {s t : StoreWorld ι χ} (hlife : LifeGoesOn s t)
    (hinside : t.inside = s.inside) (i : ι) : OwnLife i s t := by
  intro hs
  rcases hlife i with heq | ⟨hunborn, -⟩ | ⟨hrun, hdead⟩
  · exact ⟨heq ▸ hs, fun h => heq ▸ h, congrFun hinside i⟩
  · exact absurd hunborn hs
  · refine ⟨?_, fun h => hrun, congrFun hinside i⟩
    rw [hdead]
    decide

/-- What a step of the process `i` does to the lease.

- `solo`: when it takes the lease, nobody else holds it.
- `own`: when it releases the lease, it is its own. -/
structure MigrationLeaseStep (i : ι) (s t : StoreWorld ι χ) : Prop where
  life : t.life = s.life
  alive : t.alive = s.alive
  others : ∀ j, j ≠ i → t.inside j = s.inside j
  solo : t.lastOp = some .writeLease → Alone i s
  own : t.lastOp = some .releaseLease → s.lease = some (pid i)

def migrationLeaseContract :
    Contract ι (MigrationInput ι χ) (StoreWorld ι χ) MigrationError MigrationOutcome where
  inv := MigrationLeaseInv pid
  rely := OwnLife
  guar := fun i k _ s t => k.process = i ∧ MigrationLeaseStep pid i s t
  post := fun _ _ _ _ => True

/-- The step of a call from `t` to `t'`: it is taken by a running process, and where it writes
the lease, the file names no other live process. -/
def LeaseStillFree (input : MigrationInput ι χ) (t t' : StoreWorld ι χ) : Prop :=
  t.life input.process = .running ∧
    (t'.lastOp = some .writeLease → leaseOwner t.lease input.pid t.alive = none)

/-- The conditions on runs under which the lease excludes. -/
structure LeaseRuns (D : Discipline ι (MigrationInput ι χ) (StoreWorld ι χ)) : Prop where
  start : ∀ i k s, D.start i k s → k.By pid i s
  env : ∀ s t, MigrationLeaseInv pid s → D.env s t →
    t.lease = s.lease ∧ t.inside = s.inside ∧ LifeGoesOn s t ∧ ProcessesOk pid t
  allowed : ∀ k s t t', D.allowed k s t t' → LeaseStillFree k t t'

variable {pid} {D : Discipline ι (MigrationInput ι χ) (StoreWorld ι χ)}
  {input : MigrationInput ι χ} {i : ι} {α : Type}

abbrev migrationLeaseRules (pid : ι → Nat)
    (D : Discipline ι (MigrationInput ι χ) (StoreWorld ι χ)) (i : ι)
    (input : MigrationInput ι χ) : Rules (StoreWorld ι χ) :=
  (migrationLeaseContract pid).rules D i input

/-- The process has started, and holds the lease or not. -/
def Holding (i : ι) (inside : Bool) (s : StoreWorld ι χ) : Prop :=
  s.life i ≠ .unborn ∧ s.inside i = inside

theorem Holding.rely {inside : Bool} {s t : StoreWorld ι χ} (h : Holding i inside s)
    (hrely : OwnLife i s t) : Holding i inside t := by
  obtain ⟨hborn, hinside⟩ := h
  obtain ⟨hborn', -, heq⟩ := hrely hborn
  exact ⟨hborn', heq.trans hinside⟩

theorem sat_unleased {p : MigrationProg ι χ α} (h : p.Always Unleased) {inside : Bool}
    {s : StoreWorld ι χ} (hs : Holding input.process inside s) :
    p.Sat (migrationLeaseRules pid D input.process input)
      (fun _ => Holding input.process inside) (fun _ => Holding input.process inside) s := by
  refine h.sat (fun s t t' hinv hK hstep => ⟨⟨rfl, ?_⟩, ?_, ?_⟩)
    (fun s t hrely _ hK => hK.rely hrely) hs
  · exact {
      life := hstep.life
      alive := hstep.alive
      others := fun j _ => congrFun hstep.inside j
      solo := fun hop => absurd hop hstep.op.1
      own := fun hop => absurd hop hstep.op.2 }
  · exact {
      processes := {
        alive := fun j hj => by
          rw [hstep.alive]
          exact hinv.processes.alive j (hstep.life ▸ hj)
        distinct := fun j l hj hl => hinv.processes.distinct j l (hstep.life ▸ hj)
          (hstep.life ▸ hl) }
      unborn := fun j hj => by
        rw [hstep.inside]
        exact hinv.unborn j (hstep.life ▸ hj)
      owner := fun j hj hrun => by
        rw [hstep.lease]
        exact hinv.owner j (hstep.inside ▸ hj) (hstep.life ▸ hrun) }
  · exact ⟨hstep.life ▸ hK.1, hstep.inside ▸ hK.2⟩

variable [DecidableEq ι]

@[simp] theorem setInside_self {s : StoreWorld ι χ} {b : Bool} :
    (s.setInside i b).inside i = b :=
  Function.update_self ..

theorem setInside_of_ne {s : StoreWorld ι χ} {b : Bool} {j : ι} (h : j ≠ i) :
    (s.setInside i b).inside j = s.inside j :=
  Function.update_of_ne h ..

theorem sat_acquireMigrationLease (H : LeaseRuns pid D) {inside : Bool} {s : StoreWorld ι χ}
    (hs : Holding input.process inside s) (hpid : input.pid = pid input.process) :
    (acquireMigrationLease input).Sat (migrationLeaseRules pid D input.process input)
      (fun acquired => Holding input.process (acquired || inside)) (fun _ _ => True) s := by
  refine Prog.sat_bind (Q := fun _ => Holding input.process inside) ?_ ?_
  · refine Prog.sat_mono (sat_unleased ?_ hs) (fun _ _ h => h) fun _ _ _ => trivial
    exact unleased_step (by simp) fun s => ⟨_, _, _, _, _, _, rfl⟩
  intro owner t ht
  split
  · exact ht
  intro u hrely hinv hallowed
  obtain ⟨hrun, hfree⟩ := H.allowed _ _ _ _ hallowed
  have hborn : Holding input.process inside u := ht.rely hrely
  have hfree' := hfree rfl
  have hsolo : Alone input.process u := by
    intro j hj hinside hlife
    -- the file names `j`, whose process is alive, so the write would not find it free
    have hlease := hinv.owner j hinside hlife
    have hne : pid j ≠ input.pid := by
      rw [hpid]
      exact fun heq => hj (hinv.processes.distinct j _ hlife hrun heq)
    have halive := hinv.processes.alive j hlife
    simp [leaseOwner, hlease, hne, halive] at hfree'
  refine ⟨⟨rfl, ?_⟩, ?_, ?_⟩
  · exact {
      life := rfl
      alive := rfl
      others := fun j hj => setInside_of_ne hj
      solo := fun _ => hsolo
      own := fun hop => by cases hop }
  · refine { processes := ⟨hinv.processes.alive, hinv.processes.distinct⟩,
             unborn := fun j hj => ?_, owner := fun j hj hlife => ?_ }
    · by_cases hji : j = input.process
      · subst hji
        exact absurd hj hborn.1
      · exact (setInside_of_ne hji).trans (hinv.unborn j hj)
    · by_cases hji : j = input.process
      · subst hji
        rw [← hpid]
      · exact absurd hlife (hsolo j hji ((setInside_of_ne hji).symm.trans hj))
  · exact ⟨hborn.1, setInside_self⟩

theorem sat_releaseMigrationLease (H : LeaseRuns pid D) {s : StoreWorld ι χ}
    (hs : Holding input.process true s) :
    (releaseMigrationLease input).Sat (migrationLeaseRules pid D input.process input)
      (fun _ _ => True) (fun _ _ => True) s := by
  intro t hrely hinv hallowed
  obtain ⟨hrun, -⟩ := H.allowed _ _ _ _ hallowed
  have hborn : Holding input.process true t := hs.rely hrely
  have hown := hinv.owner _ hborn.2 hrun
  have hsolo := MigrationLeaseInv.exclusive pid hinv _ hborn.2 hrun
  refine ⟨⟨rfl, ?_⟩, ?_, trivial⟩
  · exact {
      life := rfl
      alive := rfl
      others := fun j hj => setInside_of_ne hj
      solo := fun hop => by cases hop
      own := fun _ => hown }
  · refine { processes := ⟨hinv.processes.alive, hinv.processes.distinct⟩,
             unborn := fun j hj => ?_, owner := fun j hj hlife => ?_ }
    · by_cases hji : j = input.process
      · subst hji
        exact setInside_self
      · exact (setInside_of_ne hji).trans (hinv.unborn j hj)
    · by_cases hji : j = input.process
      · subst hji
        exact absurd (setInside_self.symm.trans hj) (by decide)
      · exact absurd hlife (hsolo j hji ((setInside_of_ne hji).symm.trans hj))

theorem sat_ensureHubTaskStoreMigrated (H : LeaseRuns pid D) (site : StoreSite) {inside : Bool}
    {s : StoreWorld ι χ} (hs : Holding input.process inside s)
    (hpid : input.pid = pid input.process) :
    (ensureHubTaskStoreMigrated site input).Sat
      (migrationLeaseRules pid D input.process input) (fun _ _ => True) (fun _ _ => True) s := by
  -- what happens before the lease is asked for, or without it, is off the lease
  have hoff : ∀ {β : Type} {p : MigrationProg ι χ β} {b : Bool} {t : StoreWorld ι χ},
      p.Always QuietMove → Holding input.process b t →
      p.Sat (migrationLeaseRules pid D input.process input)
        (fun _ => Holding input.process b) (fun _ _ => True) t := by
    intro β p b t hp ht
    exact Prog.sat_mono (sat_unleased (hp.mono fun _ _ => QuietMove.unleased) ht)
      (fun _ _ h => h) fun _ _ _ => trivial
  have hend : ∀ {β : Type} {p : MigrationProg ι χ β} {b : Bool} {t : StoreWorld ι χ},
      p.Always QuietMove → Holding input.process b t →
      p.Sat (migrationLeaseRules pid D input.process input)
        (fun _ _ => True) (fun _ _ => True) t := by
    intro β p b t hp ht
    exact Prog.sat_mono (hoff hp ht) (fun _ _ _ => trivial) fun _ _ _ => trivial
  unfold ensureHubTaskStoreMigrated
  split
  · trivial
  refine Prog.sat_bind (hoff quiet_look hs) fun resolution t ht => ?_
  cases resolution.redirectError with
  | some message => trivial
  | none =>
    refine Prog.sat_bind (hoff quiet_look ht) ?_
    intro splitBrain t ht
    split
    · exact hend quiet_recordSplitBrainOutcome ht
    refine Prog.sat_bind (hoff quiet_look ht) ?_
    intro inspection t ht
    split
    · trivial
    split
    · trivial
    refine Prog.sat_bind (Q := fun _ => Holding input.process inside) ?_ ?_
    · refine Prog.sat_mono (sat_unleased ?_ ht) (fun _ _ h => h) fun _ _ _ => trivial
      exact unleased_step (by simp) fun s => ⟨_, _, _, _, _, _, rfl⟩
    intro blocking t ht
    cases blocking with
    | some pending => trivial
    | none =>
      refine Prog.sat_bind (hoff quiet_captureBeforeLease ht) ?_
      intro stop t ht
      cases stop with
      | some outcome => trivial
      | none =>
        refine Prog.sat_bind (sat_acquireMigrationLease H ht hpid) ?_
        intro acquired t ht
        cases acquired with
        | false => exact Prog.sat_bind (hend quiet_deferMigration ht) fun _ _ _ => trivial
        | true =>
          refine Prog.sat_finallyDo_of (sat_unleased unleased_migrateUnderLease ht) ?_ ?_
          · exact fun _ _ hu => sat_releaseMigrationLease H hu
          · exact fun _ _ hu => sat_releaseMigrationLease H hu

abbrev migrationCode (site : StoreSite) (_ : ι) (input : MigrationInput ι χ) :
    MigrationProg ι χ MigrationOutcome :=
  ensureHubTaskStoreMigrated site input

theorem migrationLease_holds (H : LeaseRuns pid D) (site : StoreSite) :
    (migrationLeaseContract pid).Holds D (migrationCode site) where
  rely_refl := OwnLife.refl
  rely_trans := fun i s t u => OwnLife.trans
  guar_rely := by
    rintro i k s t t' j hj _ ⟨-, hguar⟩ hborn
    exact ⟨hguar.life ▸ hborn, fun h => hguar.life ▸ h, hguar.others j hj⟩
  env_keeps := by
    intro s t hinv henv
    obtain ⟨hlease, hinside, hlife, hprocesses⟩ := H.env s t hinv henv
    refine ⟨?_, OwnLife.of_env hlife hinside⟩
    refine { processes := hprocesses, unborn := fun i hi => ?_, owner := fun i hi hrun => ?_ }
    · rw [hinside]
      rcases hlife i with heq | ⟨-, hrun⟩ | ⟨-, hdead⟩
      · exact hinv.unborn i (heq.symm.trans hi)
      · cases hrun.symm.trans hi
      · cases hdead.symm.trans hi
    · rw [hlease]
      rw [hinside] at hi
      rcases hlife i with heq | ⟨hunborn, -⟩ | ⟨-, hdead⟩
      · exact hinv.owner i hi (heq.symm.trans hrun)
      · exact absurd ((hinv.unborn i hunborn).symm.trans hi) (by decide)
      · cases hdead.symm.trans hrun
  sat := by
    intro i k s hinv hstart
    obtain ⟨rfl, hpid, hrun⟩ := H.start i k s hstart
    have hborn : s.life k.process ≠ .unborn := by
      rw [hrun]
      decide
    exact Prog.sat_mono (sat_ensureHubTaskStoreMigrated H site ⟨hborn, rfl⟩ hpid)
      (fun _ _ _ => trivial) fun _ _ _ => trivial

end

end ArchLoop
