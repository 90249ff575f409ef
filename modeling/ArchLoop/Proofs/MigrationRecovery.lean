import ArchLoop.Proofs.MigrationVerification

/-!
# `ArchLoop.Proofs.MigrationRecovery`: calls after a crash

A call of `ensureHubTaskStoreMigrated` in a legacy project is stopped after any of its steps, and
calls without faults follow, with no other writer. `Converges` is the claim about the state
that the crash leaves: finitely many later calls end with `migrated`, and then the quarantine and
the managed store are those of a migration without a crash.

`Stranded` is the state between two renames of `quarantineLegacyStore` when the database is gone
and another runtime entry is still there. A later call takes the quarantine for complete and
never renames that entry. After the last journal record, a later call answers `not_needed`. In
each other state the next call migrates the store (`converges_iff`). `strandedEntry` is a crash
of the first kind.

`Halfway` is what each step of a call keeps, with the store before the migration as a parameter,
and `recovery_ensureHubTaskStoreMigrated` goes through the call with it.
-/

set_option autoImplicit false

namespace ArchLoop

open ArchLoop.Lib

section
variable {ι χ : Type}

/-! ### The claim -/

/-- How `bd` answers: from the database and the configuration, in whichever directory they
are, and with this directory as the location. -/
structure ReadsDatabase (bd : TaskRuntime χ) : Prop where
  available : bd.available = true
  list : ∀ (path other : String) (store copy : Store χ), copy .database = store .database →
    copy .metadata = store .metadata → copy .config = store .config →
    bd.list other copy = bd.list path store
  wherePath : ∀ path store, bd.wherePath path store = some none ∨
    bd.wherePath path store = some (some path)

/-- None of the pid files of the store names a live process. -/
def NoWriter (bd : TaskRuntime χ) (store : Store χ) (doltServerPid : Option χ)
    (alive : Nat → Bool) : Prop :=
  ∀ file, doltServerPid = some file ∨ store (.runtime .exclusiveLock) = some file →
    ∀ pid, bd.pidIn file = some pid → alive pid = false

structure CrashFree (input : MigrationInput ι χ) : Prop where
  before : input.crashBefore = none
  after : input.crashAfter = none

/-- A later call, with the processes that live during it. -/
structure LaterCall (ι χ : Type) where
  input : MigrationInput ι χ
  alive : Nat → Bool

/-- Nobody else works on the store during the call, and the crashed process is dead or makes the
call itself. -/
structure LaterCall.Undisturbed (call : LaterCall ι χ) (first : MigrationInput ι χ)
    (s₀ : StoreWorld ι χ) : Prop where
  bd : call.input.bd = first.bd
  crashFree : CrashFree call.input
  noWriter : NoWriter first.bd s₀.repo s₀.doltServerPid call.alive
  crashed : call.input.pid = first.pid ∨ call.alive first.pid = false

/-- The call that the first process makes again, alone. -/
def retry (first : MigrationInput ι χ) : LaterCall ι χ where
  input := { first with crashBefore := none, crashAfter := none }
  alive := fun _ => false

theorem retry_undisturbed (first : MigrationInput ι χ) (s₀ : StoreWorld ι χ) :
    (retry first).Undisturbed first s₀ where
  bd := rfl
  crashFree := ⟨rfl, rfl⟩
  noWriter := fun _ _ _ _ => rfl
  crashed := Or.inl rfl

/-- `migrated`. -/
def MigrationOutcome.isMigrated : MigrationOutcome → Bool
  | .migrated _ _ _ _ => true
  | _ => false

/-- A runtime entry was left in the repository-local store when the database was quarantined. -/
def Stranded (s : StoreWorld ι χ) : Prop :=
  s.quarantined = true ∧ ∃ name, s.repo.has (.runtime name) = true

variable [DecidableEq ι] (site : StoreSite)

def LaterCall.run (call : LaterCall ι χ) (s : StoreWorld ι χ) :
    Except MigrationError MigrationOutcome × StoreWorld ι χ :=
  (ensureHubTaskStoreMigrated site call.input).run { s with alive := call.alive }

def afterCalls (s : StoreWorld ι χ) (calls : List (LaterCall ι χ)) : StoreWorld ι χ :=
  calls.foldl (fun s call => (call.run site s).2) s

/-- The stores are those that a call without a crash leaves in the legacy project. -/
def SameStores (first : MigrationInput ι χ) (s₀ t : StoreWorld ι χ) : Prop :=
  ∀ input : MigrationInput ι χ, input.bd = first.bd → CrashFree input →
    t.quarantine = ((ensureHubTaskStoreMigrated site input).exec s₀).quarantine ∧
    t.managed = ((ensureHubTaskStoreMigrated site input).exec s₀).managed

/-- For some number of later calls, the last of them returns `migrated`, with the stores of a
migration without a crash. -/
def Converges (first : MigrationInput ι χ) (s₀ s₁ : StoreWorld ι χ) : Prop :=
  ∃ n, ∀ (earlier : List (LaterCall ι χ)) (last : LaterCall ι χ), earlier.length = n →
    (∀ call ∈ earlier ++ [last], call.Undisturbed first s₀) →
    ∃ outcome t, last.run site (afterCalls site s₁ earlier) = (.ok outcome, t) ∧
      outcome.isMigrated = true ∧ SameStores site first s₀ t

/-! ### Between the calls -/

structure LegacyOrigin (χ : Type) where
  store : Store χ
  identity : StoreIdentity
  doltServerPid : Option χ

def runtimePart (store : Store χ) : Store χ
  | .runtime name => store (.runtime name)
  | .copied _ => none

/-- The state during a migration that began with the redirect `r`.

- `split`: each runtime entry is in one of the two directories.
- `fresh`: before the quarantine of the database, nothing else has happened.
- `redirected`: a redirect that was installed since finds a marker. -/
structure Halfway (o : LegacyOrigin χ) (r : Bool) (s : StoreWorld ι χ) : Prop where
  copied : ∀ name, s.repo (.copied name) = o.store (.copied name)
  split : ∀ name,
    (s.repo (.runtime name) = o.store (.runtime name) ∧ s.quarantine (.runtime name) = none) ∨
    (s.repo (.runtime name) = none ∧ s.quarantine (.runtime name) = o.store (.runtime name))
  runtimeOnly : ∀ name, s.quarantine (.copied name) = none
  fresh : s.quarantined = false → s.managed = .empty ∧ s.redirect = false
  snapshot : ∀ identity, s.snapshot = some identity → identity = o.identity
  snapshotted : s.quarantined = true → s.snapshot = some o.identity
  pending : s.pending = none
  doltServerPid : s.doltServerPid = o.doltServerPid
  redirected : s.redirect = true → r = false → s.managed.markerPresent = true
  verified : .verified ∈ s.phases → s.redirect = true ∧ s.managed.fullyInitialized = true

structure StoresKept (s t : StoreWorld ι χ) : Prop where
  repo : t.repo = s.repo
  managed : t.managed = s.managed
  quarantine : t.quarantine = s.quarantine
  redirect : t.redirect = s.redirect
  snapshot : t.snapshot = s.snapshot
  pending : t.pending = s.pending
  lease : t.lease = s.lease
  doltServerPid : t.doltServerPid = s.doltServerPid
  alive : t.alive = s.alive
  verified : .verified ∈ t.phases ↔ .verified ∈ s.phases

omit [DecidableEq ι]

variable {o : LegacyOrigin χ} {r : Bool} {s t : StoreWorld ι χ} {input : MigrationInput ι χ}
  {α : Type} {site}

theorem Halfway.kept (h : Halfway o r s) (hkept : StoresKept s t) : Halfway o r t where
  copied := by
    rw [hkept.repo]
    exact h.copied
  split := by
    rw [hkept.repo, hkept.quarantine]
    exact h.split
  runtimeOnly := by
    rw [hkept.quarantine]
    exact h.runtimeOnly
  fresh := by
    rw [StoreWorld.quarantined, hkept.quarantine, hkept.managed, hkept.redirect]
    exact h.fresh
  snapshot := by
    rw [hkept.snapshot]
    exact h.snapshot
  snapshotted := by
    rw [StoreWorld.quarantined, hkept.quarantine, hkept.snapshot]
    exact h.snapshotted
  pending := hkept.pending.trans h.pending
  doltServerPid := hkept.doltServerPid.trans h.doltServerPid
  redirected := by
    rw [hkept.redirect, hkept.managed]
    exact h.redirected
  verified := by
    rw [hkept.verified, hkept.redirect, hkept.managed]
    exact h.verified

abbrev recoveryRules (o : LegacyOrigin χ) (r : Bool) : Rules (StoreWorld ι χ) :=
  .alone (Halfway o r) fun _ _ => True

/-- The rules of a call that leaves the quarantine as it is. -/
abbrev quarantineRules (ι : Type) {χ : Type} (q : Store χ) : Rules (StoreWorld ι χ) :=
  .alone (fun s => s.quarantine = q) fun _ _ => True

def Faulty (input : MigrationInput ι χ) (_ : MigrationError) (_ : StoreWorld ι χ) : Prop :=
  ¬ CrashFree input

def Lasting (G : StoreWorld ι χ → Prop) : Prop :=
  ∀ s t, StoresKept s t → G s → G t

theorem kept_op (s : StoreWorld ι χ) (op : MigrationOp) (inside : ι → Bool)
    (boundary : Option (MigrationSideEffect × FaultTiming))
    (verifiedStore : Option (Store χ × StoreIdentity)) :
    StoresKept s { s with
      inside := inside, boundary := boundary, verifiedStore := verifiedStore,
      lastOp := some op } where
  repo := rfl
  managed := rfl
  quarantine := rfl
  redirect := rfl
  snapshot := rfl
  pending := rfl
  lease := rfl
  doltServerPid := rfl
  alive := rfl
  verified := Iff.rfl

theorem recovery_look {op : MigrationOp} {answer : StoreWorld ι χ → α}
    {G : StoreWorld ι χ → Prop} {E : MigrationError → StoreWorld ι χ → Prop}
    (hG : Lasting G) (hs : Halfway o r s ∧ G s) {N : α → Prop} (hN : N (answer s)) :
    (migrationStep op id answer).Sat (recoveryRules o r)
      (fun a t => (Halfway o r t ∧ G t) ∧ N a) E s := by
  have hkept := kept_op s op s.inside s.boundary s.verifiedStore
  exact sat_aloneStep (hs.1.kept hkept) ⟨⟨hs.1.kept hkept, hG _ _ hkept hs.2⟩, hN⟩

theorem recovery_maybeCrash {sideEffect : MigrationSideEffect} {timing : FaultTiming}
    {G : StoreWorld ι χ → Prop} (hG : Lasting G) (hs : Halfway o r s ∧ G s) :
    (maybeCrash input sideEffect timing).Sat (recoveryRules o r)
      (fun _ t => Halfway o r t ∧ G t) (Faulty input) s := by
  have hkept := kept_op s (.boundary sideEffect timing) s.inside (some (sideEffect, timing))
    s.verifiedStore
  refine Prog.sat_bind (Q := fun _ t => Halfway o r t ∧ G t) (sat_aloneStep (hs.1.kept hkept)
    ⟨hs.1.kept hkept, hG _ _ hkept hs.2⟩) fun _ t ht => ?_
  cases timing with
  | before =>
    dsimp only
    split
    · rename_i hfault
      intro hfree
      cases hfree.before.symm.trans hfault
    · exact ht
  | after =>
    dsimp only
    split
    · rename_i hfault
      intro hfree
      cases hfree.after.symm.trans hfault
    · exact ht

theorem recovery_appendJournalPhase {phase : MigrationPhase} {fingerprint : Option String}
    {G : StoreWorld ι χ → Prop} {E : MigrationError → StoreWorld ι χ → Prop}
    (hphase : phase ≠ .verified) (hG : Lasting G) (hs : Halfway o r s ∧ G s) :
    (appendJournalPhase phase fingerprint).Sat (recoveryRules o r)
      (fun _ t => Halfway o r t ∧ G t) E s := by
  have hkept : StoresKept s { (if phase ∈ s.phases then s
      else { s with journal := s.journal ++ [{ phase := some phase, fingerprint }] }) with
      lastOp := some .journal } := by
    split
    · exact kept_op s .journal s.inside s.boundary s.verifiedStore
    · exact { repo := rfl, managed := rfl, quarantine := rfl, redirect := rfl, snapshot := rfl,
              pending := rfl, lease := rfl, doltServerPid := rfl, alive := rfl
              verified := (quiet_journal s fun h => hphase (Option.some.inj h)).verified }
  exact sat_aloneStep (hs.1.kept hkept) ⟨hs.1.kept hkept, hG _ _ hkept hs.2⟩

/-! ### The identity of the store -/

/-- Two stores with the same database and configuration. -/
structure SameData (store copy : Store χ) : Prop where
  database : copy .database = store .database
  metadata : copy .metadata = store .metadata
  config : copy .config = store .config

omit ι in
theorem capture_copy {bd : TaskRuntime χ} (hbd : ReadsDatabase bd) {path : String}
    {store copy : Store χ} (hsame : SameData store copy) {identity : StoreIdentity}
    (h : captureStoreIdentity bd path store = some identity) (other : String) :
    captureStoreIdentity bd other copy = some { identity with location := other } := by
  have hlocation : ∀ answer : Option String, answer = none ∨ answer = some other →
      (answer.filter (0 < ·.length)).getD other = other := by
    rintro answer (rfl | rfl)
    · rfl
    · rw [Option.filter]
      split <;> rfl
  unfold captureStoreIdentity at h ⊢
  rw [hbd.list path other store copy hsame.database hsame.metadata hsame.config]
  obtain ⟨issues, hissues, hrest⟩ := Option.bind_eq_some_iff.mp h
  obtain ⟨location, hwhere, hidentity⟩ := Option.map_eq_some_iff.mp hrest
  rw [hissues, Option.bind_some, hsame.metadata, hsame.config]
  subst hidentity
  rcases hbd.wherePath other copy with hnone | hsome
  · rw [hnone, Option.map_some, hlocation none (Or.inl rfl)]
    rfl
  · rw [hsome, Option.map_some, hlocation (some other) (Or.inr rfl)]
    rfl

/-- What a project was, as far as the calls read it.

- `reads`, `identity`: the store can be read.
- `full`: it is complete. -/
structure Readable (site : StoreSite) (bd : TaskRuntime χ) (o : LegacyOrigin χ) : Prop where
  reads : ReadsDatabase bd
  identity : captureStoreIdentity bd (site.path .repo) o.store = some o.identity
  full : o.store.fullyInitialized = true

/-- Before the quarantine of the database, the repository-local store is what it was, apart from
its other runtime entries. -/
theorem Halfway.repo_fresh (h : Halfway o r s) (hfull : o.store.fullyInitialized = true)
    (hq : s.quarantined = false) :
    SameData o.store s.repo ∧ s.repo.fullyInitialized = true := by
  have hdb : s.repo .database = o.store .database := by
    rcases h.split .embeddeddolt with ⟨hrepo, -⟩ | ⟨-, hquarantine⟩
    · exact hrepo
    · have hnone := Store.databaseAbsent_iff.mp hq
      obtain ⟨db, hdb⟩ := Store.databasePresent_iff.mp (Store.fullyInitialized_iff.mp hfull).2
      cases hnone.symm.trans (hquarantine.trans hdb)
  have hdata : SameData o.store s.repo := ⟨hdb, h.copied _, h.copied _⟩
  refine ⟨hdata, Store.fullyInitialized_iff.mpr ?_⟩
  rw [Store.has, Store.has, hdata.metadata, hdata.database]
  exact Store.fullyInitialized_iff.mp hfull

theorem Halfway.capture {bd : TaskRuntime χ} (h : Halfway o r s) (ho : Readable site bd o)
    (hq : s.quarantined = false) :
    captureStoreIdentity bd (site.path .repo) s.repo = some o.identity := by
  have hsame : SameData o.store o.store := ⟨rfl, rfl, rfl⟩
  have hself := capture_copy ho.reads hsame ho.identity (site.path .repo)
  have hcopy := capture_copy ho.reads (h.repo_fresh ho.full hq).1 ho.identity (site.path .repo)
  exact hcopy.trans (hself.symm.trans ho.identity)

/-! ### Up to the snapshot -/

/-- The state that a call begins with, and that it keeps up to the quarantine.

- `whole`: no entry has been left behind. -/
structure Resumable (input : MigrationInput ι χ) (o : LegacyOrigin χ) (r : Bool)
    (s : StoreWorld ι χ) : Prop where
  redirect : s.redirect = r
  unverified : .verified ∉ s.phases
  whole : s.quarantined = true → ∀ name, s.repo.has (.runtime name) = false
  noWriter : NoWriter input.bd o.store o.doltServerPid s.alive

theorem lasting_resumable : Lasting (Resumable input o r) := by
  intro s t hkept h
  refine { redirect := hkept.redirect.trans h.redirect, unverified := fun hverified => ?_,
           whole := ?_, noWriter := ?_ }
  · exact h.unverified (hkept.verified.mp hverified)
  · rw [StoreWorld.quarantined, hkept.quarantine, hkept.repo]
    exact h.whole
  · rw [hkept.alive]
    exact h.noWriter

def WithSnapshot (input : MigrationInput ι χ) (o : LegacyOrigin χ) (r : Bool)
    (s : StoreWorld ι χ) : Prop :=
  Resumable input o r s ∧ s.snapshot = some o.identity

theorem lasting_withSnapshot : Lasting (WithSnapshot input o r) :=
  fun s t hkept h => ⟨lasting_resumable s t hkept h.1, hkept.snapshot.trans h.2⟩

theorem Halfway.findActiveWriterPid (h : Halfway o r s)
    (hwriter : NoWriter input.bd o.store o.doltServerPid s.alive) :
    findActiveWriterPid input s = none := by
  have hlock : ∀ file, s.repo (.runtime .exclusiveLock) = some file →
      o.store (.runtime .exclusiveLock) = some file := by
    intro file hfile
    rcases h.split .exclusiveLock with ⟨hrepo, -⟩ | ⟨hrepo, -⟩
    · exact hrepo.symm.trans hfile
    · cases hrepo.symm.trans hfile
  refine List.find?_eq_none.mpr fun pid hpid => ?_
  obtain ⟨file, hmem, hread⟩ := List.mem_filterMap.mp hpid
  obtain ⟨content, hcontent, hpidIn⟩ := Option.bind_eq_some_iff.mp hread
  rw [hwriter content ?_ pid hpidIn]
  · exact Bool.false_ne_true
  · simp only [List.mem_cons, List.not_mem_nil, or_false] at hmem
    rcases hmem with rfl | rfl
    · exact Or.inl (h.doltServerPid.symm.trans hcontent)
    · exact Or.inr (hlock content hcontent)

theorem recovery_captureRepoIdentity {G : StoreWorld ι χ → Prop}
    {E : MigrationError → StoreWorld ι χ → Prop} (ho : Readable site input.bd o)
    (hG : Lasting G) (hs : Halfway o r s ∧ G s) (hq : s.quarantined = false) :
    (captureRepoIdentity site input).Sat (recoveryRules o r)
      (fun identity t => (Halfway o r t ∧ G t) ∧ identity = o.identity) E s := by
  refine Prog.sat_bind (recovery_look hG hs (N := fun identity => identity = some o.identity)
    (hs.1.capture ho hq)) fun identity t ht => ?_
  rw [ht.2]
  exact ⟨ht.1, rfl⟩

theorem recovery_recordLegacyActive {resolution : HubTaskStoreResolution}
    {snapshot : Option StoreIdentity} {G : StoreWorld ι χ → Prop} (hG : Lasting G)
    (hs : Halfway o r s ∧ Resumable input o r s ∧ G s) :
    (recordLegacyActive site input resolution snapshot).Sat (recoveryRules o r)
      (fun deferral t => deferral = none ∧ Halfway o r t ∧ Resumable input o r t ∧ G t)
      (Faulty input) s := by
  let K : StoreWorld ι χ → Prop := fun s => Resumable input o r s ∧ G s
  have hK : Lasting K := fun s t hkept h =>
    ⟨lasting_resumable s t hkept h.1, hG s t hkept h.2⟩
  refine Prog.sat_bind (recovery_look hK hs (N := fun _ => True) trivial) fun startPhase t ht => ?_
  split
  · refine Prog.sat_bind (recovery_look hK ht.1 (N := fun writer => writer = none) ?_)
      fun writer u hu => ?_
    · split
      · exact ht.1.1.findActiveWriterPid ht.1.2.1.noWriter
      · rfl
    · rw [hu.2, Option.isSome_none, if_neg Bool.false_ne_true]
      refine Prog.sat_bind (recovery_maybeCrash hK hu.1) fun _ v hv => ?_
      refine Prog.sat_bind (recovery_maybeCrash hK hv) fun _ w hw => ?_
      exact Prog.sat_bind (recovery_appendJournalPhase (by decide) hK hw) fun _ x hx => ⟨rfl, hx⟩
  · exact ⟨rfl, ht.1⟩

theorem recovery_prepareSnapshot {stored : Option StoreIdentity}
    (ho : Readable site input.bd o) (hs : Halfway o r s ∧ Resumable input o r s)
    (hstored : s.snapshot = stored) :
    (prepareSnapshot site input stored).Sat (recoveryRules o r)
      (fun snapshot t => snapshot = some o.identity ∧ Halfway o r t ∧ WithSnapshot input o r t)
      (Faulty input) s := by
  let K : StoreWorld ι χ → Prop := fun s => Resumable input o r s ∧ s.snapshot = stored
  have hK : Lasting K := fun s t hkept h =>
    ⟨lasting_resumable s t hkept h.1, hkept.snapshot.trans h.2⟩
  let F : StoreWorld ι χ → Prop := fun s => Resumable input o r s ∧ s.quarantined = false
  have hF : Lasting F := by
    intro s t hkept h
    refine ⟨lasting_resumable s t hkept h.1, ?_⟩
    rw [StoreWorld.quarantined, hkept.quarantine]
    exact h.2
  -- a snapshot is taken before the quarantine only, and without one there is none yet
  refine Prog.sat_bind (Q := fun progress t => (Halfway o r t ∧ K t) ∧
    (progress.1 = some .legacyActive ∨ (stored = none ∧ progress.2 = .legacy) →
      t.quarantined = false) ∧
    (¬ (progress.1 = some .legacyActive ∨ (stored = none ∧ progress.2 = .legacy)) →
      stored = some o.identity)) ?_ ?_
  · have hkept := kept_op s .read s.inside s.boundary s.verifiedStore
    refine sat_aloneStep (hs.1.kept hkept) ⟨⟨hs.1.kept hkept, hK _ _ hkept ⟨hs.2, hstored⟩⟩, ?_, ?_⟩
    · intro hcond
      cases hq : s.quarantined with
      | false => exact hq
      | true =>
        rcases hcond with hphase | ⟨hnone, -⟩
        · exact absurd hphase (derivePhase_of_quarantined hq).2.1
        · cases (hstored.trans hnone).symm.trans (hs.1.snapshotted hq)
    · intro hcond
      cases hq : s.quarantined with
      | true => exact hstored.symm.trans (hs.1.snapshotted hq)
      | false =>
        obtain ⟨hmanaged, hredirect⟩ := hs.1.fresh hq
        have hlegacy : resolveHubTaskStore site s = { kind := .legacy, beadsDir := .repo } :=
          resolve_legacy hredirect (by rw [hmanaged]; rfl) (hs.1.repo_fresh ho.full hq).2
        cases stored with
        | none => exact absurd (Or.inr ⟨rfl, by rw [hlegacy]⟩) hcond
        | some identity => rw [hs.1.snapshot identity hstored]
  · intro progress t ht
    split
    · rename_i hcond
      have hfresh : Halfway o r t ∧ F t := ⟨ht.1.1, ht.1.2.1, ht.2.1 hcond⟩
      refine Prog.sat_bind (Q := fun identity t => identity = o.identity ∧ Halfway o r t ∧
        WithSnapshot input o r t) ?_ ?_
      · refine Prog.sat_bind (recovery_maybeCrash hF hfresh) fun _ u hu => ?_
        refine Prog.sat_bind (Q := fun identity t => identity = o.identity ∧ Halfway o r t ∧
          WithSnapshot input o r t) ?_ ?_
        · refine Prog.sat_bind (recovery_captureRepoIdentity ho hF hu hu.2.2)
            fun identity v hv => ?_
          obtain ⟨⟨hv, hresume, hq⟩, rfl⟩ := hv
          have hnext : Halfway o r { v with
              snapshot := some o.identity, lastOp := some .writeSnapshot } :=
            { copied := hv.copied, split := hv.split, runtimeOnly := hv.runtimeOnly,
              fresh := hv.fresh, snapshot := fun _ h => (Option.some.inj h).symm,
              snapshotted := fun _ => rfl, pending := hv.pending,
              doltServerPid := hv.doltServerPid, redirected := hv.redirected,
              verified := hv.verified }
          refine Prog.sat_bind (sat_aloneStep (Q := fun _ t => Halfway o r t ∧
            WithSnapshot input o r t) hnext ⟨hnext, ?_, rfl⟩) fun _ w hw => ⟨rfl, hw⟩
          exact { redirect := hresume.redirect, unverified := hresume.unverified,
                  whole := hresume.whole, noWriter := hresume.noWriter }
        · rintro identity u ⟨rfl, hu⟩
          exact Prog.sat_bind (recovery_maybeCrash lasting_withSnapshot hu) fun _ v hv => ⟨rfl, hv⟩
      · rintro identity u ⟨rfl, hu⟩
        exact Prog.sat_bind (recovery_appendJournalPhase (by decide) lasting_withSnapshot hu)
          fun _ v hv => ⟨rfl, hv⟩
    · rename_i hcond
      have hsome := ht.2.2 hcond
      exact ⟨hsome, ht.1.1, ht.1.2.1, ht.1.2.2.trans hsome⟩

theorem recovery_checkSource {resolution : HubTaskStoreResolution}
    (ho : Readable site input.bd o) (hs : Halfway o r s ∧ WithSnapshot input o r s) :
    (checkSource site input resolution o.identity).Sat (recoveryRules o r)
      (fun deferral t => deferral = none ∧ Halfway o r t ∧ WithSnapshot input o r t)
      (Faulty input) s := by
  let F : StoreWorld ι χ → Prop := fun s => WithSnapshot input o r s ∧ s.quarantined = false
  have hF : Lasting F := by
    intro s t hkept h
    refine ⟨lasting_withSnapshot s t hkept h.1, ?_⟩
    rw [StoreWorld.quarantined, hkept.quarantine]
    exact h.2
  refine Prog.sat_bind (Q := fun check t => (Halfway o r t ∧ WithSnapshot input o r t) ∧
    (check = true → t.quarantined = false)) ?_ ?_
  · have hkept := kept_op s .read s.inside s.boundary s.verifiedStore
    refine sat_aloneStep (hs.1.kept hkept)
      ⟨⟨hs.1.kept hkept, lasting_withSnapshot _ _ hkept hs.2⟩, fun hcheck => ?_⟩
    have hfresh : s.quarantined = false := by simpa using (Bool.and_eq_true_iff.mp hcheck).2
    exact hfresh
  · intro check t ht
    split
    · rename_i hcheck
      have hfresh : Halfway o r t ∧ F t := ⟨ht.1.1, ht.1.2, ht.2 hcheck⟩
      refine Prog.sat_bind (Q := fun current t => current = .ok o.identity ∧ Halfway o r t ∧ F t)
        ?_ ?_
      · refine Prog.sat_attempt (Prog.sat_mono (recovery_captureRepoIdentity
          (E := fun _ _ => False) ho hF hfresh hfresh.2.2) ?_ ?_)
        · rintro identity u ⟨hu, rfl⟩
          exact ⟨rfl, hu⟩
        · exact fun _ _ h => h.elim
      · rintro current u ⟨rfl, hu⟩
        have hsame : identitiesMatch o.identity o.identity = true := by
          simp [identitiesMatch]
        dsimp only
        rw [if_pos hsame]
        exact ⟨rfl, hu.1, hu.2.1⟩
    · exact ⟨rfl, ht.1⟩

/-! ### The quarantine -/

theorem Halfway.rename (h : Halfway o r s) {name : RuntimeEntry}
    (hrepo : s.repo.has (.runtime name) = true) (hsnapshot : s.snapshot = some o.identity)
    (op : MigrationOp) : Halfway o r { s.rename (.runtime name) with lastOp := some op } where
  copied := by
    intro other
    dsimp only [StoreWorld.rename]
    rw [Function.update_of_ne (by simp)]
    exact h.copied other
  split := by
    intro other
    dsimp only [StoreWorld.rename]
    by_cases hother : other = name
    · subst hother
      right
      rw [Function.update_self, Function.update_self]
      rcases h.split other with ⟨hstore, -⟩ | ⟨hnone, -⟩
      · exact ⟨rfl, hstore⟩
      · rw [Store.has, hnone] at hrepo
        cases hrepo
    · have hne : StoreEntry.runtime other ≠ .runtime name := by simpa using hother
      rw [Function.update_of_ne hne, Function.update_of_ne hne]
      exact h.split other
  runtimeOnly := by
    intro other
    dsimp only [StoreWorld.rename]
    rw [Function.update_of_ne (by simp)]
    exact h.runtimeOnly other
  fresh := by
    intro hfresh
    refine h.fresh ?_
    rw [StoreWorld.quarantined, Store.databasePresent] at hfresh ⊢
    dsimp only [StoreWorld.rename] at hfresh
    rw [Store.has_update] at hfresh
    split at hfresh
    · exact absurd (hfresh.symm.trans hrepo) (by decide)
    · exact hfresh
  snapshot := h.snapshot
  snapshotted := fun _ => hsnapshot
  pending := h.pending
  doltServerPid := h.doltServerPid
  redirected := h.redirected
  verified := h.verified

/-- What each pass of the loop finds: the names that are left, and perhaps others that are in
the quarantine. -/
structure QuarantineLoop (o : LegacyOrigin χ) (r : Bool) (names : List RuntimeEntry)
    (s : StoreWorld ι χ) : Prop where
  halfway : Halfway o r s
  redirect : s.redirect = r
  unverified : .verified ∉ s.phases
  snapshot : s.snapshot = some o.identity
  left : ∀ name, s.repo.has (.runtime name) = true → name ∈ names
  there : ∀ name ∈ names,
    s.repo.has (.runtime name) = true ∨ s.quarantine.has (.runtime name) = true

theorem recovery_quarantineEntry {name : RuntimeEntry} {rest : List RuntimeEntry}
    {E : MigrationError → StoreWorld ι χ → Prop} (hs : QuarantineLoop o r (name :: rest) s) :
    (quarantineEntry name).Sat (recoveryRules o r) (fun _ => QuarantineLoop o r rest) E s := by
  refine Prog.sat_bind (Q := fun done t => done = true ∧ QuarantineLoop o r rest t) ?_ ?_
  · cases hq : s.quarantine.has (.runtime name) with
    | true =>
      have hkept := kept_op s (.rename name) s.inside s.boundary s.verifiedStore
      have hnext : QuarantineLoop o r rest { s with lastOp := some (.rename name) } := by
        refine { halfway := hs.halfway.kept hkept, redirect := hs.redirect,
                 unverified := hs.unverified, snapshot := hs.snapshot, left := ?_, there := ?_ }
        · intro other hother
          rcases List.mem_cons.mp (hs.left other hother) with rfl | hrest
          · -- an entry that is in the quarantine is in the repository no more
            rcases hs.halfway.split other with ⟨-, hnone⟩ | ⟨hnone, -⟩
            · rw [Store.has, hnone] at hq
              cases hq
            · have hhas : s.repo.has (.runtime other) = true := hother
              rw [Store.has, hnone] at hhas
              cases hhas
          · exact hrest
        · exact fun other hother => hs.there other (List.mem_cons_of_mem _ hother)
      refine sat_aloneStep ?_ ?_
      · rw [hq, Bool.true_or, if_pos rfl]
        exact hnext.halfway
      · refine ⟨by rw [hq, Bool.true_or], ?_⟩
        rw [hq, Bool.true_or, if_pos rfl]
        exact hnext
    | false =>
      have hrepo : s.repo.has (.runtime name) = true := by
        rcases hs.there name List.mem_cons_self with h | h
        · exact h
        · cases hq.symm.trans h
      have hnext : QuarantineLoop o r rest { s.rename (.runtime name) with
          lastOp := some (.rename name) } := by
        refine { halfway := hs.halfway.rename hrepo hs.snapshot _, redirect := hs.redirect,
                 unverified := hs.unverified, snapshot := hs.snapshot, left := ?_, there := ?_ }
        · intro other hother
          dsimp only [StoreWorld.rename] at hother
          rw [Store.has_update] at hother
          split at hother
          · cases hother
          · rename_i hne
            rcases List.mem_cons.mp (hs.left other hother) with rfl | hrest
            · exact absurd rfl hne
            · exact hrest
        · intro other hother
          dsimp only [StoreWorld.rename]
          rw [Store.has_update, Store.has_update]
          by_cases heq : StoreEntry.runtime other = .runtime name
          · rw [if_pos heq, if_pos heq]
            exact Or.inr hrepo
          · rw [if_neg heq, if_neg heq]
            exact hs.there other (List.mem_cons_of_mem _ hother)
      refine sat_aloneStep ?_ ?_
      · rw [hq, hrepo, Bool.not_true, Bool.or_false, if_neg Bool.false_ne_true]
        exact hnext.halfway
      · refine ⟨by rw [hrepo, Bool.or_true], ?_⟩
        rw [hq, hrepo, Bool.not_true, Bool.or_false, if_neg Bool.false_ne_true]
        exact hnext
  · rintro done t ⟨rfl, ht⟩
    exact ht

structure AllQuarantined (o : LegacyOrigin χ) (r : Bool) (s : StoreWorld ι χ) : Prop where
  redirect : s.redirect = r
  unverified : .verified ∉ s.phases
  snapshot : s.snapshot = some o.identity
  quarantine : s.quarantine = runtimePart o.store

theorem lasting_allQuarantined : Lasting (AllQuarantined (ι := ι) o r) := by
  intro s t hkept h
  exact { redirect := hkept.redirect.trans h.redirect
          unverified := fun hverified => h.unverified (hkept.verified.mp hverified)
          snapshot := hkept.snapshot.trans h.snapshot
          quarantine := hkept.quarantine.trans h.quarantine }

theorem Halfway.allQuarantined (h : Halfway o r s)
    (hleft : ∀ name, s.repo.has (.runtime name) = false) :
    s.quarantine = runtimePart o.store := by
  funext entry
  cases entry with
  | runtime name =>
    rcases h.split name with ⟨hrepo, hquarantine⟩ | ⟨-, hquarantine⟩
    · have hnone := Option.isNone_iff_eq_none.mp (Option.isSome_eq_false_iff.mp (hleft name))
      rw [hquarantine]
      exact hnone.symm.trans hrepo
    · exact hquarantine
  | copied name => exact h.runtimeOnly name

theorem recovery_quarantineStage (hs : Halfway o r s ∧ WithSnapshot input o r s) :
    (quarantineStage site input o.identity).Sat (recoveryRules o r)
      (fun _ t => Halfway o r t ∧ AllQuarantined o r t) (Faulty input) s := by
  have hkept := kept_op s .read s.inside s.boundary s.verifiedStore
  refine Prog.sat_bind (Q := fun progress t => (Halfway o r t ∧ WithSnapshot input o r t) ∧
    (¬ (progress.1 = some .snapshotPrepared ∨
      (progress.1 = some .legacyActive ∧ progress.2 = true)) → t.quarantined = true)) ?_ ?_
  · refine sat_aloneStep (hs.1.kept hkept)
      ⟨⟨hs.1.kept hkept, lasting_withSnapshot _ _ hkept hs.2⟩, fun hcond => ?_⟩
    cases hq : s.quarantined with
    | true => exact hq
    | false =>
      refine absurd (Or.inl (derivePhase_of_snapshot ?_ hq o.identity)) hcond
      rw [(hs.1.fresh hq).1]
      rfl
  · intro progress t ht
    split
    · refine Prog.sat_bind (Q := fun _ t => Halfway o r t ∧ AllQuarantined o r t) ?_ fun _ u hu =>
        recovery_appendJournalPhase (by decide) lasting_allQuarantined hu
      refine Prog.sat_bind (recovery_maybeCrash lasting_withSnapshot ht.1) fun _ u hu => ?_
      refine Prog.sat_bind (Q := fun _ t => Halfway o r t ∧ AllQuarantined o r t) ?_
        fun _ v hv => ?_
      · have hkept := kept_op u .read u.inside u.boundary u.verifiedStore
        refine Prog.sat_bind (sat_aloneStep (Q := fun names t => QuarantineLoop o r names t)
          (hu.1.kept hkept) ?_) fun names v hv => ?_
        · exact { halfway := hu.1.kept hkept, redirect := hu.2.1.redirect,
                  unverified := hu.2.1.unverified, snapshot := hu.2.2
                  left := fun name h => mem_listRuntimeEntries.mpr h
                  there := fun name h => Or.inl (mem_listRuntimeEntries.mp h) }
        · refine Prog.sat_mono (sat_forNames (K := QuarantineLoop o r)
            (fun name rest w hw => recovery_quarantineEntry hw) hv) ?_ fun _ _ h => h
          intro _ w hw
          refine ⟨hw.halfway, hw.redirect, hw.unverified, hw.snapshot,
            hw.halfway.allQuarantined fun name => ?_⟩
          rw [Bool.eq_false_iff]
          exact fun h => (List.not_mem_nil (hw.left name h)).elim
      · exact Prog.sat_bind (recovery_maybeCrash lasting_allQuarantined hv) fun _ _ h => h
    · rename_i hcond
      exact ⟨ht.1.1, ht.1.2.1.redirect, ht.1.2.1.unverified, ht.1.2.2,
        ht.1.1.allQuarantined (ht.1.2.1.whole (ht.2 hcond))⟩

/-! ### The copy -/

theorem AllQuarantined.quarantined (h : AllQuarantined o r s)
    (hfull : o.store.fullyInitialized = true) : s.quarantined = true := by
  rw [StoreWorld.quarantined, h.quarantine]
  exact (Store.fullyInitialized_iff.mp hfull).2

theorem Halfway.withManaged (h : Halfway o r s) (hall : AllQuarantined o r s)
    (hfull : o.store.fullyInitialized = true) (managed : Store χ)
    (verifiedStore : Option (Store χ × StoreIdentity)) (op : MigrationOp) :
    Halfway o r { s with managed := managed, verifiedStore := verifiedStore, lastOp := some op } ∧
      AllQuarantined o r
        { s with managed := managed, verifiedStore := verifiedStore, lastOp := some op } := by
  constructor
  · refine { copied := h.copied, split := h.split, runtimeOnly := h.runtimeOnly, fresh := ?_,
             snapshot := h.snapshot, snapshotted := h.snapshotted, pending := h.pending,
             doltServerPid := h.doltServerPid, redirected := ?_, verified := ?_ }
    · exact fun hfresh => absurd ((hall.quarantined hfull).symm.trans hfresh) (by decide)
    · intro hredirect hr
      have hinstalled : s.redirect = true := hredirect
      rw [hall.redirect, hr] at hinstalled
      cases hinstalled
    · exact fun hverified => absurd hverified hall.unverified
  · exact ⟨hall.redirect, hall.unverified, hall.snapshot, hall.quarantine⟩

/-- What each copy finds: an entry of the managed store is either the one of the store before
the migration, or it is one of those that are left to copy. -/
structure CopyLoop (o : LegacyOrigin χ) (r : Bool) (entries : List StoreEntry)
    (s : StoreWorld ι χ) : Prop where
  halfway : Halfway o r s
  all : AllQuarantined o r s
  managed : ∀ entry, s.managed entry = o.store entry ∨
    (s.managed entry = none ∧ entry ∈ entries)

omit ι in
theorem copiedStore_other {managed from_ : Store χ} {entry other : StoreEntry}
    (h : other ≠ entry) : copiedStore managed from_ entry other = managed other := by
  unfold copiedStore
  split
  · rfl
  · rw [Function.update_of_ne h]

omit ι in
theorem copiedStore_self {managed from_ : Store χ} {entry : StoreEntry}
    (h : managed entry = from_ entry ∨ managed entry = none) :
    copiedStore managed from_ entry entry = from_ entry := by
  unfold copiedStore
  cases hm : managed.has entry with
  | true =>
    rw [Bool.true_or, if_pos rfl]
    rcases h with heq | hnone
    · exact heq
    · rw [Store.has, hnone] at hm
      cases hm
  | false =>
    cases hf : from_.has entry with
    | false =>
      rw [Bool.not_false, Bool.or_true, if_pos rfl]
      rw [Store.has, Option.isSome_eq_false_iff, Option.isNone_iff_eq_none] at hm hf
      rw [hm, hf]
    | true =>
      rw [Bool.not_true, Bool.or_false, if_neg Bool.false_ne_true, Function.update_self]

theorem recovery_copyEntry {from_ : StoreDir} {entry : StoreEntry} {rest : List StoreEntry}
    {E : MigrationError → StoreWorld ι χ → Prop} (hfull : o.store.fullyInitialized = true)
    (hfrom : s.store from_ entry = o.store entry) (hs : CopyLoop o r (entry :: rest) s) :
    (copyEntry from_ entry).Sat (recoveryRules o r) (fun _ => CopyLoop o r rest) E s := by
  have hcopied : (if s.managed.has entry || !(s.store from_).has entry then s
      else { s with managed := Function.update s.managed entry (s.store from_ entry) }) =
      { s with managed := copiedStore s.managed (s.store from_) entry } := by
    unfold copiedStore
    split
    · rfl
    · rfl
  obtain ⟨hhalf, hall⟩ := hs.halfway.withManaged hs.all hfull
    (copiedStore s.managed (s.store from_) entry) s.verifiedStore (.copy entry)
  refine sat_aloneStep ?_ ?_
  · rw [hcopied]
    exact hhalf
  · rw [hcopied]
    refine ⟨hhalf, hall, fun other => ?_⟩
    dsimp only
    by_cases hother : other = entry
    · subst hother
      left
      rw [copiedStore_self, hfrom]
      rw [hfrom]
      rcases hs.managed other with h | ⟨h, -⟩
      · exact Or.inl h
      · exact Or.inr h
    · rw [copiedStore_other hother]
      rcases hs.managed other with h | ⟨h, hmem⟩
      · exact Or.inl h
      · exact Or.inr ⟨h, List.mem_of_ne_of_mem hother hmem⟩

/-- The managed store is the store before the migration. -/
structure StoreCopied (o : LegacyOrigin χ) (s : StoreWorld ι χ) : Prop where
  unverified : .verified ∉ s.phases
  quarantine : s.quarantine = runtimePart o.store
  managed : s.managed = o.store

theorem lasting_storeCopied : Lasting (StoreCopied (ι := ι) o) := by
  intro s t hkept h
  exact { unverified := fun hverified => h.unverified (hkept.verified.mp hverified)
          quarantine := hkept.quarantine.trans h.quarantine
          managed := hkept.managed.trans h.managed }

/-- The entries that the second loop of the copy is left with. -/
def copiedEntries (names : List StoreCopyName) : List StoreEntry := names.map .copied

theorem recovery_copyManagedStore {E : MigrationError → StoreWorld ι χ → Prop}
    (hfull : o.store.fullyInitialized = true)
    (hs : (Halfway o r s ∧ AllQuarantined o r s) ∧ s.managed = .empty) :
    (copyManagedStore input).Sat (recoveryRules o r)
      (fun _ t => Halfway o r t ∧ StoreCopied o t) E s := by
  have hkept := kept_op s .read s.inside s.boundary s.verifiedStore
  have hquarantine : ∀ t : StoreWorld ι χ, AllQuarantined o r t → ∀ name,
      t.store .quarantine (.runtime name) = o.store (.runtime name) := by
    intro t ht name
    show t.quarantine (.runtime name) = o.store (.runtime name)
    rw [ht.quarantine]
    rfl
  -- an entry that the quarantine lacks is missing before the migration, or it is copied later
  let K : List StoreEntry → StoreWorld ι χ → Prop := fun names t =>
    CopyLoop o r (names ++ copiedEntries storeCopyNames) t ∧
    ∀ entry ∈ names, ∃ name, entry = .runtime name
  refine Prog.sat_bind (Q := K) ?_ ?_
  · refine sat_aloneStep (hs.1.1.kept hkept) ⟨?_, ?_⟩
    · refine { halfway := hs.1.1.kept hkept, all := lasting_allQuarantined _ _ hkept hs.1.2
               managed := fun entry => ?_ }
      cases entry with
      | copied name =>
        refine Or.inr ⟨congrFun hs.2 _, List.mem_append_right _ ?_⟩
        exact List.mem_map.mpr ⟨name, by cases name <;> decide, rfl⟩
      | runtime name =>
        cases hhas : s.quarantine.has (.runtime name) with
        | true =>
          refine Or.inr ⟨congrFun hs.2 _, List.mem_append_left _ ?_⟩
          exact List.mem_filter.mpr ⟨input.listing.complete _, hhas⟩
        | false =>
          left
          rw [Store.has, Option.isSome_eq_false_iff, Option.isNone_iff_eq_none] at hhas
          exact (congrFun hs.2 _).trans (hhas.symm.trans (hquarantine s hs.1.2 name))
    · intro entry hentry
      obtain ⟨-, hhas⟩ := List.mem_filter.mp hentry
      cases entry with
      | runtime name => exact ⟨name, rfl⟩
      | copied name =>
        rw [Store.has, hs.1.1.runtimeOnly name] at hhas
        cases hhas
  · intro names t ht
    refine Prog.sat_bind (Q := fun _ t => CopyLoop o r (copiedEntries storeCopyNames) t) ?_ ?_
    · refine Prog.sat_mono (sat_forNames (K := K) ?_ ht) (fun _ _ h => h.1) fun _ _ h => h
      intro entry rest u hu
      obtain ⟨name, rfl⟩ := hu.2 entry List.mem_cons_self
      refine Prog.sat_mono (recovery_copyEntry hfull (hquarantine u hu.1.all name) hu.1)
        (fun _ _ h => ⟨h, fun other hother => hu.2 other (List.mem_cons_of_mem _ hother)⟩)
        fun _ _ h => h
    · intro _ u hu
      refine Prog.sat_mono (sat_forNames (K := fun names t => CopyLoop o r (copiedEntries names) t)
        (fun name rest v hv => ?_) hu) ?_ fun _ _ h => h
      · exact recovery_copyEntry hfull (hv.halfway.copied name) hv
      · intro _ v hv
        refine ⟨hv.halfway, hv.all.unverified, hv.all.quarantine, funext fun entry => ?_⟩
        rcases hv.managed entry with h | ⟨-, hmem⟩
        · exact h
        · cases hmem

theorem recovery_copyStage (hfull : o.store.fullyInitialized = true)
    (hs : Halfway o r s ∧ AllQuarantined o r s) :
    (copyStage site input o.identity).Sat (recoveryRules o r)
      (fun _ t => Halfway o r t ∧ StoreCopied o t) (Faulty input) s := by
  refine Prog.sat_bind (recovery_look lasting_allQuarantined hs (N := fun copy => copy = true)
    (needsCopy_of_unrecorded (hs.2.quarantined hfull) hs.2.unverified)) fun copy t ht => ?_
  rw [if_pos ht.2]
  refine Prog.sat_bind (Q := fun _ t => Halfway o r t ∧ StoreCopied o t) ?_ fun _ u hu =>
    recovery_appendJournalPhase (by decide) lasting_storeCopied hu
  refine Prog.sat_bind (recovery_maybeCrash lasting_allQuarantined ht.1) fun _ u hu => ?_
  refine Prog.sat_bind (Q := fun _ t => Halfway o r t ∧ StoreCopied o t) ?_ fun _ v hv => ?_
  · have hremoved := hu.1.withManaged hu.2 hfull .empty none .removeManaged
    exact Prog.sat_bind (sat_aloneStep (Q := fun _ t => (Halfway o r t ∧
      AllQuarantined o r t) ∧ t.managed = .empty) hremoved.1 ⟨hremoved, rfl⟩)
      fun _ v hv => recovery_copyManagedStore hfull hv
  · exact Prog.sat_bind (recovery_maybeCrash lasting_storeCopied hv) fun _ _ h => h

/-! ### The redirect and the verification -/

def Redirected (o : LegacyOrigin χ) (s : StoreWorld ι χ) : Prop :=
  StoreCopied o s ∧ s.redirect = true

theorem lasting_redirected : Lasting (Redirected (ι := ι) o) :=
  fun s t hkept h => ⟨lasting_storeCopied s t hkept h.1, hkept.redirect.trans h.2⟩

theorem StoreCopied.quarantined (h : StoreCopied o s)
    (hfull : o.store.fullyInitialized = true) : s.quarantined = true := by
  rw [StoreWorld.quarantined, h.quarantine]
  exact (Store.fullyInitialized_iff.mp hfull).2

theorem recovery_redirectStage (hfull : o.store.fullyInitialized = true)
    (hs : Halfway o r s ∧ StoreCopied o s) :
    (redirectStage site input o.identity).Sat (recoveryRules o r)
      (fun _ t => Halfway o r t ∧ Redirected o t) (Faulty input) s := by
  have hkept := kept_op s .read s.inside s.boundary s.verifiedStore
  refine Prog.sat_bind (Q := fun install t => (Halfway o r t ∧ StoreCopied o t) ∧
    (install = false → t.redirect = true)) ?_ ?_
  · refine sat_aloneStep (hs.1.kept hkept)
      ⟨⟨hs.1.kept hkept, lasting_storeCopied _ _ hkept hs.2⟩, fun hinstall => ?_⟩
    have hboth := Bool.or_eq_false_iff.mp (Bool.or_eq_false_iff.mp hinstall).1
    have hkind : (resolveHubTaskStore site s).kind = .redirect := by simpa using hboth.1
    exact resolve_kind_redirect.mp hkind
  · intro install t ht
    split
    · refine Prog.sat_bind (Q := fun _ t => Halfway o r t ∧ Redirected o t) ?_ fun _ u hu =>
        recovery_appendJournalPhase (by decide) lasting_redirected hu
      refine Prog.sat_bind (recovery_maybeCrash lasting_storeCopied ht.1) fun _ u hu => ?_
      refine Prog.sat_bind (Q := fun _ t => Halfway o r t ∧ Redirected o t) ?_ fun _ v hv => ?_
      · have hinstalled : Halfway o r { u with
            redirect := true, lastOp := some .installRedirect } := by
          refine { copied := hu.1.copied, split := hu.1.split, runtimeOnly := hu.1.runtimeOnly,
                   fresh := ?_, snapshot := hu.1.snapshot, snapshotted := hu.1.snapshotted,
                   pending := hu.1.pending, doltServerPid := hu.1.doltServerPid,
                   redirected := ?_, verified := ?_ }
          · exact fun hfresh =>
              absurd ((hu.2.quarantined hfull).symm.trans hfresh) (by decide)
          · intro _ _
            show u.managed.markerPresent = true
            rw [hu.2.managed]
            exact (Store.fullyInitialized_iff.mp hfull).1
          · exact fun hverified => absurd hverified hu.2.unverified
        exact sat_aloneStep hinstalled
          ⟨hinstalled, ⟨hu.2.unverified, hu.2.quarantine, hu.2.managed⟩, rfl⟩
      · exact Prog.sat_bind (recovery_maybeCrash lasting_redirected hv) fun _ _ h => h
    · rename_i hinstall
      exact ⟨ht.1.1, ht.1.2, ht.2 (Bool.eq_false_iff.mpr hinstall)⟩

theorem managedStoreError_copied (ho : Readable site input.bd o) :
    managedStoreError site input o.identity o.store = none := by
  have hsame : SameData o.store o.store := ⟨rfl, rfl, rfl⟩
  have hcapture := capture_copy ho.reads hsame ho.identity (site.path .managed)
  unfold managedStoreError
  rw [ho.full, hcapture]
  simp [identitiesMatch_location]

structure MigratedStores (o : LegacyOrigin χ) (s : StoreWorld ι χ) : Prop where
  quarantine : s.quarantine = runtimePart o.store
  managed : s.managed = o.store

theorem recovery_verifyStage (ho : Readable site input.bd o)
    (hs : Halfway o r s ∧ Redirected o s) :
    (verifyStage site input o.identity).Sat (recoveryRules o r)
      (fun _ t => Halfway o r t ∧ MigratedStores o t) (Faulty input) s := by
  refine Prog.sat_bind (Q := fun _ t => Halfway o r t ∧ Redirected o t) ?_ fun _ t ht => ?_
  · refine Prog.sat_bind (recovery_maybeCrash lasting_redirected hs) fun _ t ht => ?_
    refine Prog.sat_bind (Q := fun _ t => Halfway o r t ∧ Redirected o t) ?_ fun _ u hu => ?_
    · have herror : managedStoreError site input o.identity t.managed = none := by
        rw [ht.2.1.managed]
        exact managedStoreError_copied ho
      have hkept := kept_op t .verify t.inside t.boundary (some (t.managed, o.identity))
      refine Prog.sat_bind (Q := fun error t => error = none ∧ Halfway o r t ∧ Redirected o t)
        (sat_aloneStep ?_ ⟨herror, ?_⟩) ?_
      · rw [herror, Option.isSome_none, if_neg Bool.false_ne_true]
        exact ht.1.kept hkept
      · rw [herror, Option.isSome_none, if_neg Bool.false_ne_true]
        exact ⟨ht.1.kept hkept, lasting_redirected _ _ hkept ht.2⟩
      · rintro error u ⟨rfl, hu⟩
        exact hu
    · exact Prog.sat_bind (recovery_maybeCrash lasting_redirected hu) fun _ _ h => h
  · have hmanaged : t.managed.fullyInitialized = true := by
      rw [ht.2.1.managed]
      exact ho.full
    refine Prog.sat_bind (Q := fun _ t => Halfway o r t ∧ MigratedStores o t) ?_ fun _ u hu => ?_
    · have hrecorded : ∀ journal, Halfway o r { t with
          journal := journal, lastOp := some .journal } := fun journal =>
        { copied := ht.1.copied, split := ht.1.split, runtimeOnly := ht.1.runtimeOnly,
          fresh := ht.1.fresh, snapshot := ht.1.snapshot, snapshotted := ht.1.snapshotted,
          pending := ht.1.pending, doltServerPid := ht.1.doltServerPid,
          redirected := ht.1.redirected, verified := fun _ => ⟨ht.2.2, hmanaged⟩ }
      refine sat_aloneStep ?_ ?_
      · split
        · exact hrecorded t.journal
        · exact hrecorded _
      · split
        · exact ⟨hrecorded t.journal, ht.2.1.quarantine, ht.2.1.managed⟩
        · exact ⟨hrecorded _, ht.2.1.quarantine, ht.2.1.managed⟩
    · have hcleared : Halfway o r { u with pending := none, lastOp := some .clearPending } :=
        { copied := hu.1.copied, split := hu.1.split, runtimeOnly := hu.1.runtimeOnly,
          fresh := hu.1.fresh, snapshot := hu.1.snapshot, snapshotted := hu.1.snapshotted,
          pending := rfl, doltServerPid := hu.1.doltServerPid, redirected := hu.1.redirected,
          verified := hu.1.verified }
      exact sat_aloneStep hcleared ⟨hcleared, hu.2.quarantine, hu.2.managed⟩

/-! ### The call -/

theorem recovery_moveStore (ho : Readable site input.bd o)
    (hs : Halfway o r s ∧ WithSnapshot input o r s) :
    (moveStore site input o.identity).Sat (recoveryRules o r)
      (fun outcome t => outcome.isMigrated = true ∧ MigratedStores o t) (Faulty input) s := by
  refine Prog.sat_bind (recovery_quarantineStage hs) fun _ t ht => ?_
  refine Prog.sat_bind (recovery_copyStage ho.full ht) fun _ u hu => ?_
  refine Prog.sat_bind (recovery_redirectStage ho.full hu) fun _ v hv => ?_
  exact Prog.sat_bind (recovery_verifyStage ho hv) fun _ w hw => ⟨rfl, hw.2⟩

theorem recovery_migrateUnderLease {resolution : HubTaskStoreResolution}
    (ho : Readable site input.bd o) (hs : Halfway o r s ∧ Resumable input o r s) :
    (migrateUnderLease site input resolution).Sat (recoveryRules o r)
      (fun outcome t => outcome.isMigrated = true ∧ MigratedStores o t) (Faulty input) s := by
  have hkept := kept_op s .read s.inside s.boundary s.verifiedStore
  refine Prog.sat_bind (sat_aloneStep (Q := fun stored t =>
    (Halfway o r t ∧ Resumable input o r t) ∧ t.snapshot = stored) (hs.1.kept hkept)
    ⟨⟨hs.1.kept hkept, lasting_resumable _ _ hkept hs.2⟩, rfl⟩) fun stored t ht => ?_
  have hstored : Lasting fun t : StoreWorld ι χ => t.snapshot = stored :=
    fun s t hkept h => hkept.snapshot.trans h
  refine Prog.sat_bind (recovery_recordLegacyActive hstored ⟨ht.1.1, ht.1.2, ht.2⟩) ?_
  rintro deferral u ⟨rfl, hu, hresume, hstored⟩
  dsimp only
  refine Prog.sat_bind (recovery_prepareSnapshot ho ⟨hu, hresume⟩ hstored) ?_
  rintro snapshot v ⟨rfl, hv⟩
  refine Prog.sat_bind (Q := fun identity t => identity = o.identity ∧ Halfway o r t ∧
    WithSnapshot input o r t) ⟨rfl, hv⟩ ?_
  rintro identity w ⟨rfl, hw⟩
  refine Prog.sat_bind (recovery_checkSource ho hw) ?_
  rintro deferral x ⟨rfl, hx⟩
  exact recovery_moveStore ho hx

def LeaseFree (input : MigrationInput ι χ) (s : StoreWorld ι χ) : Prop :=
  leaseOwner s.lease input.pid s.alive = none

structure BeforeLease (input : MigrationInput ι χ) (o : LegacyOrigin χ) (r : Bool)
    (resolution : HubTaskStoreResolution) (s : StoreWorld ι χ) : Prop
    extends Resumable input o r s where
  leaseFree : LeaseFree input s
  legacy : s.quarantined = false → resolution.kind = .legacy

theorem lasting_beforeLease {resolution : HubTaskStoreResolution} :
    Lasting (BeforeLease input o r resolution) := by
  intro s t hkept h
  refine { toResumable := lasting_resumable s t hkept h.toResumable, leaseFree := ?_,
           legacy := ?_ }
  · rw [LeaseFree, hkept.lease, hkept.alive]
    exact h.leaseFree
  · rw [StoreWorld.quarantined, hkept.quarantine]
    exact h.legacy

theorem Halfway.lease (h : Halfway o r s) (inside : ι → Bool) (lease : Option Nat)
    (op : MigrationOp) :
    Halfway o r { s with inside := inside, lease := lease, lastOp := some op } :=
  { copied := h.copied, split := h.split, runtimeOnly := h.runtimeOnly, fresh := h.fresh,
    snapshot := h.snapshot, snapshotted := h.snapshotted, pending := h.pending,
    doltServerPid := h.doltServerPid, redirected := h.redirected, verified := h.verified }

theorem recovery_captureBeforeLease {resolution : HubTaskStoreResolution}
    {quarantinePresent : Bool} {G : StoreWorld ι χ → Prop}
    {E : MigrationError → StoreWorld ι χ → Prop} (ho : Readable site input.bd o)
    (hG : Lasting G) (hs : Halfway o r s ∧ G s) (hq : s.quarantined = quarantinePresent) :
    (captureBeforeLease site input resolution quarantinePresent).Sat (recoveryRules o r)
      (fun stop t => stop = none ∧ Halfway o r t ∧ G t) E s := by
  unfold captureBeforeLease
  split
  · rename_i hcond
    refine Prog.sat_bind (Q := fun captured t => captured = .ok o.identity ∧ Halfway o r t ∧ G t)
      ?_ ?_
    · refine Prog.sat_attempt (Prog.sat_mono (recovery_captureRepoIdentity
        (E := fun _ _ => False) ho hG hs (hq.trans hcond.2)) ?_ ?_)
      · rintro identity u ⟨hu, rfl⟩
        exact ⟨rfl, hu⟩
      · exact fun _ _ h => h.elim
    · rintro captured u ⟨rfl, hu⟩
      exact ⟨rfl, hu⟩
  · exact ⟨rfl, hs⟩

end

section
variable {ι χ : Type} [DecidableEq ι] {site : StoreSite} {o : LegacyOrigin χ} {r : Bool}
  {s : StoreWorld ι χ} {input : MigrationInput ι χ} {α : Type}

theorem recovery_attemptMigration {resolution : HubTaskStoreResolution}
    {phase : Option MigrationPhase} {quarantinePresent : Bool} (ho : Readable site input.bd o)
    (hs : Halfway o r s ∧ BeforeLease input o r resolution s)
    (hq : s.quarantined = quarantinePresent) :
    (attemptMigration site input resolution phase quarantinePresent).Sat (recoveryRules o r)
      (fun outcome t => outcome.isMigrated = true ∧ MigratedStores o t) (Faulty input) s := by
  let K : StoreWorld ι χ → Prop := fun s =>
    BeforeLease input o r resolution s ∧ s.quarantined = quarantinePresent
  have hK : Lasting K := by
    intro s t hkept h
    refine ⟨lasting_beforeLease s t hkept h.1, ?_⟩
    rw [StoreWorld.quarantined, hkept.quarantine]
    exact h.2
  refine Prog.sat_bind (recovery_look hK ⟨hs.1, hs.2, hq⟩ (N := fun blocking => blocking = none)
    (by rw [hs.1.pending]; rfl)) ?_
  rintro blocking t ⟨ht, rfl⟩
  dsimp only
  refine Prog.sat_bind (recovery_captureBeforeLease ho hK ht ht.2.2) ?_
  rintro stop u ⟨rfl, hu⟩
  dsimp only
  refine Prog.sat_bind (Q := fun acquired t => acquired = true ∧ Halfway o r t ∧
    Resumable input o r t) ?_ ?_
  · refine Prog.sat_bind (recovery_look hK hu (N := fun owner => owner = none) hu.2.1.leaseFree) ?_
    rintro owner v ⟨hv, rfl⟩
    rw [Option.isSome_none, if_neg Bool.false_ne_true]
    have hheld := hv.1.lease (Function.update v.inside input.process true) (some input.pid)
      .writeLease
    refine Prog.sat_bind (sat_aloneStep (Q := fun _ t => Halfway o r t ∧ Resumable input o r t)
      hheld ⟨hheld, ?_⟩) fun _ w hw => ⟨rfl, hw⟩
    have hresume := hv.2.1.toResumable
    exact { redirect := hresume.redirect, unverified := hresume.unverified,
            whole := hresume.whole, noWriter := hresume.noWriter }
  · rintro acquired v ⟨rfl, hv⟩
    rw [if_pos rfl]
    refine Prog.sat_finallyDo_of (recovery_migrateUnderLease ho hv) ?_ ?_
    · intro outcome w hw
      refine Prog.sat_alone_act.mpr fun hinv => ?_
      exact ⟨trivial, hinv.lease _ _ _, hw.1, hw.2.quarantine, hw.2.managed⟩
    · intro e w he
      refine Prog.sat_alone_act.mpr fun hinv => ?_
      exact ⟨trivial, hinv.lease _ _ _, he⟩

/-- A call goes through to `migrated`, unless it has fault injection, and each of its steps leaves
a state that a later call can begin with. -/
theorem recovery_ensureHubTaskStoreMigrated (ho : Readable site input.bd o)
    (hs : Halfway o r s ∧ Resumable input o r s)
    (hready : s.redirect = true → s.managed.markerPresent = true) (hfree : LeaseFree input s) :
    (ensureHubTaskStoreMigrated site input).Sat (recoveryRules o r)
      (fun outcome t => outcome.isMigrated = true ∧ MigratedStores o t) (Faulty input) s := by
  unfold ensureHubTaskStoreMigrated
  rw [ho.reads.available, Bool.not_true, if_neg Bool.false_ne_true]
  have hkept := kept_op s .read s.inside s.boundary s.verifiedStore
  refine Prog.sat_bind (Q := fun resolution t => resolution.redirectError = none ∧ Halfway o r t ∧
    BeforeLease input o r resolution t) (sat_aloneStep (hs.1.kept hkept) ⟨?_, ?_⟩) ?_
  · exact resolve_error_none.mpr hready
  · refine ⟨hs.1.kept hkept, lasting_resumable _ _ hkept hs.2, hfree, fun hq => ?_⟩
    have hfresh : s.quarantined = false := hq
    obtain ⟨hmanaged, hredirect⟩ := hs.1.fresh hfresh
    rw [resolve_legacy hredirect (by rw [hmanaged]; rfl) (hs.1.repo_fresh ho.full hfresh).2]
  · rintro resolution t ⟨herror, ht⟩
    rw [herror]
    dsimp only
    -- a redirect means that the database is in the quarantine, and only there
    refine Prog.sat_bind (recovery_look lasting_beforeLease ht
      (N := fun splitBrain => splitBrain = false) ?_) ?_
    · cases hredirect : t.redirect with
      | false =>
        have hkind : (resolveHubTaskStore site t).kind ≠ .redirect := by
          rw [Ne, resolve_kind_redirect, hredirect]
          exact Bool.false_ne_true
        simp [detectHubTaskStoreSplitBrain, hkind]
      | true =>
        have hquarantined : t.quarantined = true := by
          cases hq : t.quarantined with
          | true => rfl
          | false => cases (ht.1.fresh hq).2.symm.trans hredirect
        have hnone : t.repo .database = none :=
          Store.databaseAbsent_iff.mp (ht.2.whole hquarantined .embeddeddolt)
        simp [detectHubTaskStoreSplitBrain, hnone]
    rintro splitBrain u ⟨hu, rfl⟩
    rw [if_neg Bool.false_ne_true]
    have hkeptRead := kept_op u .read u.inside u.boundary u.verifiedStore
    refine Prog.sat_bind (Q := fun inspection t => (Halfway o r t ∧
      BeforeLease input o r resolution t) ∧ inspection.1 ≠ some .verified ∧
      t.quarantined = inspection.2) (sat_aloneStep (hu.1.kept hkeptRead) ⟨⟨hu.1.kept hkeptRead,
        lasting_beforeLease _ _ hkeptRead hu.2⟩, ?_, rfl⟩) ?_
    · exact fun hphase => hu.2.unverified (verified_of_derivePhase hphase)
    · rintro inspection v ⟨hv, hphase, hq⟩
      rw [if_neg fun h => hphase h.1,
        if_neg fun h => h.1 (hv.2.legacy (hq.trans h.2.2))]
      exact recovery_attemptMigration ho hv hq

/-! ### Calls that do not migrate -/

theorem recovery_verified (input : MigrationInput ι χ) (ho : Readable site input.bd o)
    (hs : Halfway o false s)
    (hverified : .verified ∈ s.phases) :
    (ensureHubTaskStoreMigrated site input).Sat (recoveryRules o false)
      (fun outcome t => outcome.isMigrated = false ∧ Halfway o false t ∧ .verified ∈ t.phases)
      (fun _ _ => False) s := by
  let K : StoreWorld ι χ → Prop := fun s => .verified ∈ s.phases
  have hK : Lasting K := fun s t hkept h => hkept.verified.mpr h
  unfold ensureHubTaskStoreMigrated
  rw [ho.reads.available, Bool.not_true, if_neg Bool.false_ne_true]
  refine Prog.sat_bind (recovery_look hK ⟨hs, hverified⟩ (N := fun resolution =>
    resolution.redirectError = none ∧ resolution.kind = .redirect) ?_) ?_
  · obtain ⟨hredirect, hfull⟩ := hs.verified hverified
    exact ⟨resolve_error_none.mpr fun _ => (Store.fullyInitialized_iff.mp hfull).1,
      resolve_kind_redirect.mpr hredirect⟩
  rintro resolution t ⟨ht, herror, hkind⟩
  rw [herror]
  dsimp only
  obtain ⟨hredirect, hfull⟩ := ht.1.verified ht.2
  refine Prog.sat_bind (recovery_look hK ht (N := fun splitBrain => splitBrain = false) ?_) ?_
  · have hnone : t.repo .database = none := by
      rcases ht.1.split .embeddeddolt with ⟨-, hquarantine⟩ | ⟨hrepo, -⟩
      · cases (ht.1.fresh (Store.databaseAbsent_iff.mpr hquarantine)).2.symm.trans hredirect
      · exact hrepo
    simp [detectHubTaskStoreSplitBrain, hnone]
  rintro splitBrain u ⟨hu, rfl⟩
  rw [if_neg Bool.false_ne_true]
  obtain ⟨hredirect', hfull'⟩ := hu.1.verified hu.2
  refine Prog.sat_bind (recovery_look hK hu (N := fun inspection =>
    inspection.1 = some .verified) ?_) ?_
  · rw [derivePhase_eq, if_pos ⟨hredirect', hfull'⟩, if_pos hu.2]
  · rintro inspection v ⟨hv, hphase⟩
    rw [if_pos ⟨hphase, by rw [hkind]; rfl⟩]
    exact ⟨rfl, hv⟩

omit [DecidableEq ι] in
theorem keeps_quarantine_step {op : MigrationOp} {upd : StoreWorld ι χ → StoreWorld ι χ}
    {answer : StoreWorld ι χ → α} (h : ∀ s, (upd s).quarantine = s.quarantine) :
    (migrationStep op upd answer).Keeps StoreWorld.quarantine :=
  always_migrationStep h

omit [DecidableEq ι] in
theorem keeps_quarantine_moveStore {identity : StoreIdentity} :
    ((copyStage site input identity).bind fun _ =>
      (redirectStage site input identity).bind fun _ =>
      (verifyStage site input identity).bind fun _ =>
      (.ret (.migrated .verified .managed .quarantine site.journalPath) :
        MigrationProg ι χ MigrationOutcome)).Keeps StoreWorld.quarantine := by
  have hquiet : ∀ s t : StoreWorld ι χ, QuietMove s t → t.quarantine = s.quarantine :=
    fun _ _ h => h.quarantine
  have hlook : ∀ {β : Type} {answer : StoreWorld ι χ → β},
      (look answer).Keeps StoreWorld.quarantine := quiet_look.mono hquiet
  have hjournal : ∀ phase fingerprint, (appendJournalPhase phase fingerprint :
      MigrationProg ι χ Unit).Keeps StoreWorld.quarantine := by
    intro phase fingerprint
    refine keeps_quarantine_step fun s => ?_
    split <;> rfl
  have hcopy : ∀ from_ entry, (copyEntry from_ entry :
      MigrationProg ι χ Unit).Keeps StoreWorld.quarantine := by
    intro from_ entry
    refine keeps_quarantine_step fun s => ?_
    split <;> rfl
  refine Prog.always_bind (Prog.always_bind hlook fun copy => ?_) fun _ => ?_
  · split
    · refine Prog.always_bind (always_withSideEffect hquiet ?_) fun _ => hjournal _ _
      refine Prog.always_bind (keeps_quarantine_step fun _ => rfl) fun _ => ?_
      refine Prog.always_bind hlook fun names => ?_
      exact Prog.always_bind (always_forNames (hcopy _) names) fun _ =>
        always_forNames (fun name => hcopy _ _) _
    · trivial
  refine Prog.always_bind (Prog.always_bind hlook fun install => ?_) fun _ => ?_
  · split
    · refine Prog.always_bind (always_withSideEffect hquiet ?_) fun _ => hjournal _ _
      exact keeps_quarantine_step fun _ => rfl
    · trivial
  refine Prog.always_bind ?_ fun _ => trivial
  refine Prog.always_bind (always_withSideEffect hquiet
    (quiet_verifyManagedStore.mono hquiet)) fun _ => ?_
  exact Prog.always_bind (hjournal _ _) fun _ => quiet_clearPending.mono hquiet

omit [DecidableEq ι] in
theorem sat_keepsQuarantine {p : MigrationProg ι χ α} {q : Store χ}
    (h : p.Keeps StoreWorld.quarantine) (hs : s.quarantine = q) :
    p.Sat (quarantineRules ι q) (fun _ t => t.quarantine = q) (fun _ t => t.quarantine = q) s :=
  h.sat_alone (K := fun s => s.quarantine = q)
    (fun _ _ _ hK hstep => ⟨trivial, hstep.trans hK, hstep.trans hK⟩) hs

omit [DecidableEq ι] in
theorem sat_quarantineStage_over {identity : StoreIdentity} {q : Store χ}
    (hq : q.databasePresent = true) (hs : s.quarantine = q) :
    (quarantineStage site input identity).Sat (quarantineRules ι q)
      (fun _ t => t.quarantine = q) (fun _ t => t.quarantine = q) s := by
  refine Prog.sat_bind (Q := fun progress t => t.quarantine = q ∧
    progress.1 ≠ some .legacyActive ∧ progress.1 ≠ some .snapshotPrepared)
    (sat_aloneStep hs ⟨hs, ?_⟩) ?_
  · have hquarantined : s.quarantined = true := by
      rw [StoreWorld.quarantined, hs]
      exact hq
    exact (derivePhase_of_quarantined hquarantined).2
  · rintro progress t ⟨ht, hactive, hprepared⟩
    have hskip : ¬ (progress.1 = some .snapshotPrepared ∨
        (progress.1 = some .legacyActive ∧ progress.2 = true)) := by
      rintro (h | ⟨h, -⟩)
      · exact hprepared h
      · exact hactive h
    rw [if_neg hskip]
    exact ht

omit [DecidableEq ι] in
theorem sat_migrateUnderLease_over {resolution : HubTaskStoreResolution} {q : Store χ}
    (hq : q.databasePresent = true) (hs : s.quarantine = q) :
    (migrateUnderLease site input resolution).Sat (quarantineRules ι q)
      (fun _ t => t.quarantine = q) (fun _ t => t.quarantine = q) s := by
  have hquiet : ∀ s t : StoreWorld ι χ, QuietMove s t → t.quarantine = s.quarantine :=
    fun _ _ h => h.quarantine
  refine Prog.sat_bind (sat_keepsQuarantine (quiet_look.mono hquiet) hs) fun stored t ht => ?_
  refine Prog.sat_bind (sat_keepsQuarantine (quiet_recordLegacyActive.mono hquiet) ht)
    fun deferral u hu => ?_
  cases deferral with
  | some outcome => exact hu
  | none =>
    refine Prog.sat_bind (sat_keepsQuarantine (quiet_prepareSnapshot.mono hquiet) hu)
      fun snapshot v hv => ?_
    refine Prog.sat_bind (sat_keepsQuarantine (quiet_requireSnapshot.mono hquiet) hv)
      fun identity w hw => ?_
    refine Prog.sat_bind (sat_keepsQuarantine (quiet_checkSource.mono hquiet) hw)
      fun deferral x hx => ?_
    cases deferral with
    | some outcome => exact hx
    | none =>
      refine Prog.sat_bind (sat_quarantineStage_over hq hx) fun _ y hy => ?_
      exact sat_keepsQuarantine keeps_quarantine_moveStore hy

theorem sat_ensureHubTaskStoreMigrated_over (site : StoreSite) (input : MigrationInput ι χ)
    {q : Store χ} (hq : q.databasePresent = true) (hs : s.quarantine = q) :
    (ensureHubTaskStoreMigrated site input).Sat (quarantineRules ι q)
      (fun _ t => t.quarantine = q) (fun _ t => t.quarantine = q) s := by
  have hquiet : ∀ s t : StoreWorld ι χ, QuietMove s t → t.quarantine = s.quarantine :=
    fun _ _ h => h.quarantine
  have hstep : ∀ {β : Type} {op : MigrationOp} {upd : StoreWorld ι χ → StoreWorld ι χ}
      {answer : StoreWorld ι χ → β}, (∀ s, (upd s).quarantine = s.quarantine) → ∀ {t},
      t.quarantine = q → (migrationStep op upd answer).Sat (quarantineRules ι q)
        (fun _ t => t.quarantine = q) (fun _ t => t.quarantine = q) t :=
    fun h _ ht => sat_keepsQuarantine (keeps_quarantine_step h) ht
  unfold ensureHubTaskStoreMigrated
  split
  · exact hs
  refine Prog.sat_bind (hstep (fun _ => rfl) hs) fun resolution t ht => ?_
  cases resolution.redirectError with
  | some message => exact ht
  | none =>
    refine Prog.sat_bind (hstep (fun _ => rfl) ht) fun splitBrain u hu => ?_
    split
    · exact sat_keepsQuarantine (quiet_recordSplitBrainOutcome.mono hquiet) hu
    refine Prog.sat_bind (hstep (fun _ => rfl) hu) fun inspection v hv => ?_
    split
    · exact hv
    split
    · exact hv
    refine Prog.sat_bind (hstep (fun _ => rfl) hv) fun blocking w hw => ?_
    cases blocking with
    | some pending => exact hw
    | none =>
      refine Prog.sat_bind (sat_keepsQuarantine (quiet_captureBeforeLease.mono hquiet) hw)
        fun stop x hx => ?_
      cases stop with
      | some outcome => exact hx
      | none =>
        refine Prog.sat_bind (Q := fun _ t => t.quarantine = q) ?_ fun acquired y hy => ?_
        · refine Prog.sat_bind (hstep (fun _ => rfl) hx) fun owner y hy => ?_
          split
          · exact hy
          · refine Prog.sat_bind (hstep ?_ hy) fun _ _ h => h
            exact fun _ => rfl
        · cases acquired with
          | false =>
            exact Prog.sat_bind (sat_keepsQuarantine (quiet_deferMigration.mono hquiet) hy)
              fun _ _ h => h
          | true =>
            exact Prog.sat_finallyDo (sat_migrateUnderLease_over hq hy)
              (fun _ _ h => sat_keepsQuarantine (keeps_quarantine_step fun _ => rfl) h)
              fun _ _ h => sat_keepsQuarantine (keeps_quarantine_step fun _ => rfl) h

/-! ### From the legacy project -/

omit [DecidableEq ι] in
theorem halfway_legacy (site : StoreSite) (h : LegacyProject s) (hbd : ReadsDatabase input.bd)
    (hreadable : (input.bd.list (site.path .repo) s.repo).isSome = true) :
    ∃ o : LegacyOrigin χ, o.store = s.repo ∧ o.doltServerPid = s.doltServerPid ∧
      Readable site input.bd o ∧ Halfway o false s := by
  obtain ⟨issues, hissues⟩ := Option.isSome_iff_exists.mp hreadable
  obtain ⟨identity, hidentity⟩ : ∃ identity,
      captureStoreIdentity input.bd (site.path .repo) s.repo = some identity := by
    unfold captureStoreIdentity
    rw [hissues, Option.bind_some]
    rcases hbd.wherePath (site.path .repo) s.repo with hnone | hsome
    · rw [hnone]
      exact ⟨_, rfl⟩
    · rw [hsome]
      exact ⟨_, rfl⟩
  refine ⟨⟨s.repo, identity, s.doltServerPid⟩, rfl, rfl, ⟨hbd, hidentity, h.repo⟩, ?_⟩
  have hnone : s.quarantined = false := by
    rw [StoreWorld.quarantined, h.quarantine]
    rfl
  refine { copied := fun _ => rfl, split := fun name => Or.inl ⟨rfl, ?_⟩, runtimeOnly := ?_,
           fresh := fun _ => ⟨h.managed, h.redirect⟩, snapshot := ?_, snapshotted := ?_,
           pending := h.pending, doltServerPid := rfl, redirected := ?_, verified := ?_ }
  · rw [h.quarantine]
    rfl
  · intro name
    rw [h.quarantine]
    rfl
  · intro other hother
    cases h.snapshot.symm.trans hother
  · exact fun hq => absurd (hnone.symm.trans hq) (by decide)
  · intro hredirect
    cases h.redirect.symm.trans hredirect
  · intro hverified
    rw [StoreWorld.phases, h.journal] at hverified
    obtain ⟨record, hmem, -⟩ := mem_readJournalPhases.mp hverified
    cases hmem

theorem lease_crashAfter (site : StoreSite) (input : MigrationInput ι χ) (n : Nat)
    (s : StoreWorld ι χ) :
    ((ensureHubTaskStoreMigrated site input).crashAfter n s).lease = s.lease ∨
    ((ensureHubTaskStoreMigrated site input).crashAfter n s).lease = none ∨
    ((ensureHubTaskStoreMigrated site input).crashAfter n s).lease = some input.pid := by
  have hframe : (ensureHubTaskStoreMigrated site input).Always fun s t : StoreWorld ι χ =>
      t.lease = s.lease ∨ t.lease = none ∨ t.lease = some input.pid :=
    always_ensureHubTaskStoreMigrated (fun _ _ h => Or.inl h.lease)
      (fun _ => Or.inr (Or.inr rfl)) fun _ => Or.inr (Or.inl rfl)
  refine hframe.crashAfter (fun _ => Or.inl rfl) (fun s t u hst htu => ?_) n s
  rcases htu with heq | hrest
  · rw [heq]
    exact hst
  · exact Or.inr hrest

omit [DecidableEq ι] in
theorem Halfway.resume (h : Halfway o false s) (hwhole : ¬ Stranded s)
    (hunverified : .verified ∉ s.phases) {alive : Nat → Bool}
    (hwriter : NoWriter input.bd o.store o.doltServerPid alive) :
    Halfway o s.redirect { s with alive := alive } ∧
      Resumable input o s.redirect { s with alive := alive } := by
  constructor
  · refine { copied := h.copied, split := h.split, runtimeOnly := h.runtimeOnly,
             fresh := h.fresh, snapshot := h.snapshot, snapshotted := h.snapshotted,
             pending := h.pending, doltServerPid := h.doltServerPid, redirected := ?_,
             verified := h.verified }
    intro hredirect hr
    have hinstalled : s.redirect = true := hredirect
    cases hr.symm.trans hinstalled
  · refine { redirect := rfl, unverified := hunverified, whole := ?_, noWriter := hwriter }
    intro hq name
    rw [Bool.eq_false_iff]
    exact fun hname => hwhole ⟨hq, name, hname⟩

theorem afterCalls_verified {first : MigrationInput ι χ} (ho : Readable site first.bd o)
    {s₀ : StoreWorld ι χ} {calls : List (LaterCall ι χ)}
    (hcalls : ∀ call ∈ calls, call.Undisturbed first s₀) (hs : Halfway o false s)
    (hverified : .verified ∈ s.phases) :
    Halfway o false (afterCalls site s calls) ∧ .verified ∈ (afterCalls site s calls).phases := by
  induction calls generalizing s with
  | nil => exact ⟨hs, hverified⟩
  | cons call rest ih =>
    have hcall := hcalls call List.mem_cons_self
    have hstart : Halfway o false { s with alive := call.alive } :=
      ⟨hs.copied, hs.split, hs.runtimeOnly, hs.fresh, hs.snapshot, hs.snapshotted, hs.pending,
        hs.doltServerPid, hs.redirected, hs.verified⟩
    have ho' : Readable site call.input.bd o := by
      rw [hcall.bd]
      exact ho
    obtain ⟨outcome, t, hrun, -, ht⟩ :=
      (recovery_verified call.input ho' hstart hverified).returns hstart
    have hnext : (call.run site s).2 = t := congrArg Prod.snd hrun
    rw [afterCalls, List.foldl_cons, hnext]
    exact ih (fun other hother => hcalls other (List.mem_cons_of_mem _ hother)) ht.1 ht.2

theorem afterCalls_over (site : StoreSite) {q : Store χ} (hq : q.databasePresent = true)
    (calls : List (LaterCall ι χ)) (hs : s.quarantine = q) :
    (afterCalls site s calls).quarantine = q := by
  induction calls generalizing s with
  | nil => exact hs
  | cons call rest ih =>
    rw [afterCalls, List.foldl_cons]
    refine ih ?_
    exact ((sat_ensureHubTaskStoreMigrated_over site call.input hq
      (s := { s with alive := call.alive }) hs).run hs).1

/-- A legacy project whose store `bd` can read, without another writer. -/
structure Migratable (site : StoreSite) (first : MigrationInput ι χ) (s₀ : StoreWorld ι χ) :
    Prop where
  legacy : LegacyProject s₀
  reads : ReadsDatabase first.bd
  readable : (first.bd.list (site.path .repo) s₀.repo).isSome = true
  noWriter : NoWriter first.bd s₀.repo s₀.doltServerPid s₀.alive

theorem Migratable.calls {first : MigrationInput ι χ} {s₀ : StoreWorld ι χ}
    (h : Migratable site first s₀) :
    ∃ o : LegacyOrigin χ, o.store = s₀.repo ∧ o.doltServerPid = s₀.doltServerPid ∧
      Readable site first.bd o ∧ Halfway o false s₀ ∧
      ∀ input : MigrationInput ι χ, input.bd = first.bd →
        (ensureHubTaskStoreMigrated site input).Sat (recoveryRules o false)
          (fun outcome t => outcome.isMigrated = true ∧ MigratedStores o t) (Faulty input) s₀ := by
  obtain ⟨o, hstore, hpid, ho, hstart⟩ := halfway_legacy site h.legacy h.reads h.readable
  refine ⟨o, hstore, hpid, ho, hstart, fun input hsame => ?_⟩
  have hnone : s₀.quarantined = false := by
    rw [StoreWorld.quarantined, h.legacy.quarantine]
    rfl
  have ho' : Readable site input.bd o := by
    rw [hsame]
    exact ho
  have hresume : Resumable input o false s₀ := by
    refine { redirect := h.legacy.redirect, unverified := fun hverified => ?_,
             whole := fun hq => absurd (hnone.symm.trans hq) (by decide), noWriter := ?_ }
    · cases h.legacy.redirect.symm.trans (hstart.verified hverified).1
    · rw [hsame, hstore, hpid]
      exact h.noWriter
  refine recovery_ensureHubTaskStoreMigrated ho' ⟨hstart, hresume⟩ (fun hredirect => ?_) ?_
  · cases h.legacy.redirect.symm.trans hredirect
  · rw [LeaseFree, h.legacy.lease]
    rfl

/-- A migration without a crash moves all of the store. -/
def MovesAll (site : StoreSite) (first : MigrationInput ι χ) (o : LegacyOrigin χ)
    (s₀ : StoreWorld ι χ) : Prop :=
  ∀ input : MigrationInput ι χ, input.bd = first.bd → CrashFree input →
    MigratedStores o ((ensureHubTaskStoreMigrated site input).exec s₀)

theorem movesAll_of_calls {first : MigrationInput ι χ} {s₀ : StoreWorld ι χ}
    (hstart : Halfway o false s₀)
    (hcalls : ∀ input : MigrationInput ι χ, input.bd = first.bd →
      (ensureHubTaskStoreMigrated site input).Sat (recoveryRules o false)
        (fun outcome t => outcome.isMigrated = true ∧ MigratedStores o t) (Faulty input) s₀) :
    MovesAll site first o s₀ := by
  intro input hsame hfree
  have hreturns := (Prog.sat_mono (hcalls input hsame) (fun _ _ h => h)
    fun e t hfaulty => hfaulty hfree).returns hstart
  exact (Prog.returns_mono hreturns fun _ _ h => h.2).exec

omit [DecidableEq ι] in
theorem retries_undisturbed (first : MigrationInput ι χ) (s₀ : StoreWorld ι χ) (m : Nat) :
    ∀ call ∈ List.replicate m (retry first) ++ [retry first], call.Undisturbed first s₀ := by
  intro call hcall
  have heq : call = retry first := by
    rcases List.mem_append.mp hcall with h | h
    · exact List.eq_of_mem_replicate h
    · exact List.mem_singleton.mp h
  rw [heq]
  exact retry_undisturbed first s₀

theorem Converges.not_stranded {first : MigrationInput ι χ} {s₀ : StoreWorld ι χ}
    (h : Converges site first s₀ s) (hall : MovesAll site first o s₀)
    (hs : Halfway o false s) : ¬ Stranded s := by
  rintro ⟨hq, name, hname⟩
  obtain ⟨m, hcalls⟩ := h
  obtain ⟨outcome, t, hrun, -, hsame⟩ := hcalls (List.replicate m (retry first)) (retry first)
    List.length_replicate (retries_undisturbed first s₀ m)
  have hafter := afterCalls_over site hq (List.replicate m (retry first))
    (rfl : s.quarantine = s.quarantine)
  have hlast := ((sat_ensureHubTaskStoreMigrated_over site (retry first).input hq
    (s := { afterCalls site s (List.replicate m (retry first)) with
      alive := (retry first).alive }) hafter).run hafter).1
  have hkept : t.quarantine = s.quarantine := by
    rw [← hlast]
    exact congrArg (fun result => result.2.quarantine) hrun.symm
  have hmoved := (hsame (retry first).input rfl ⟨rfl, rfl⟩).1
  rw [hkept, (hall (retry first).input rfl ⟨rfl, rfl⟩).quarantine] at hmoved
  have hentry : s.quarantine (.runtime name) = o.store (.runtime name) :=
    congrFun hmoved (.runtime name)
  rcases hs.split name with ⟨hrepo, hnone⟩ | ⟨hrepo, -⟩
  · rw [Store.has, hrepo, ← hentry, hnone] at hname
    cases hname
  · rw [Store.has, hrepo] at hname
    cases hname

theorem Converges.not_verified {first : MigrationInput ι χ} {s₀ : StoreWorld ι χ}
    (h : Converges site first s₀ s) (ho : Readable site first.bd o) (hs : Halfway o false s) :
    .verified ∉ s.phases := by
  intro hverified
  obtain ⟨m, hcalls⟩ := h
  have hretries := retries_undisturbed first s₀ m
  obtain ⟨outcome, t, hrun, hmigrated, -⟩ := hcalls (List.replicate m (retry first)) (retry first)
    List.length_replicate hretries
  obtain ⟨hhalf, hrecorded⟩ := afterCalls_verified ho
    (fun call hcall => hretries call (List.mem_append_left _ hcall)) hs hverified
  have hbegin : Halfway o false { afterCalls site s (List.replicate m (retry first)) with
      alive := (retry first).alive } :=
    ⟨hhalf.copied, hhalf.split, hhalf.runtimeOnly, hhalf.fresh, hhalf.snapshot,
      hhalf.snapshotted, hhalf.pending, hhalf.doltServerPid, hhalf.redirected, hhalf.verified⟩
  obtain ⟨other, u, hrun', hnot, -⟩ :=
    (recovery_verified (retry first).input ho hbegin hrecorded).returns hbegin
  cases hrun.symm.trans hrun'
  cases hmigrated.symm.trans hnot

theorem converges_of_resumable {first : MigrationInput ι χ} {s₀ : StoreWorld ι χ}
    (hstore : o.store = s₀.repo) (hpid : o.doltServerPid = s₀.doltServerPid)
    (ho : Readable site first.bd o) (hall : MovesAll site first o s₀) (hs : Halfway o false s)
    (hlease : s.lease = none ∨ s.lease = some first.pid) (hwhole : ¬ Stranded s)
    (hunverified : .verified ∉ s.phases) : Converges site first s₀ s := by
  refine ⟨0, fun earlier last hlength hcalls => ?_⟩
  obtain rfl := List.eq_nil_of_length_eq_zero hlength
  have hlast := hcalls last (List.mem_append_right _ List.mem_cons_self)
  have hwriter : NoWriter last.input.bd o.store o.doltServerPid last.alive := by
    rw [hlast.bd, hstore, hpid]
    exact hlast.noWriter
  have ho' : Readable site last.input.bd o := by
    rw [hlast.bd]
    exact ho
  obtain ⟨hhalf, hresume⟩ := hs.resume hwhole hunverified hwriter
  have hfree : LeaseFree last.input { s with alive := last.alive } := by
    show leaseOwner s.lease last.input.pid last.alive = none
    rcases hlease with h | h
    · rw [h]
      rfl
    · rw [h]
      rcases hlast.crashed with hpid' | hdead
      · simp [leaseOwner, hpid']
      · simp [leaseOwner, hdead]
  obtain ⟨outcome, t, hrun, hmigrated, hstores⟩ :=
    (Prog.sat_mono (recovery_ensureHubTaskStoreMigrated ho' ⟨hhalf, hresume⟩
      (fun hredirect => hs.redirected hredirect rfl) hfree) (fun _ _ h => h)
      fun e t hfaulty => hfaulty hlast.crashFree).returns hhalf
  refine ⟨outcome, t, hrun, hmigrated, fun input hsame hfree => ?_⟩
  have hmoved := hall input hsame hfree
  exact ⟨hstores.quarantine.trans hmoved.quarantine.symm,
    hstores.managed.trans hmoved.managed.symm⟩

/-- A migration converges after a crash in a legacy project if and only if the crash left no
runtime entry behind the database, and did not come after the record of the verification. -/
theorem converges_iff {first : MigrationInput ι χ} {s₀ : StoreWorld ι χ}
    (h : Migratable site first s₀) (n : Nat) :
    Converges site first s₀ ((ensureHubTaskStoreMigrated site first).crashAfter n s₀) ↔
      ¬ Stranded ((ensureHubTaskStoreMigrated site first).crashAfter n s₀) ∧
      .verified ∉ ((ensureHubTaskStoreMigrated site first).crashAfter n s₀).phases := by
  obtain ⟨o, hstore, hpid, ho, hstart, hcalls⟩ := h.calls
  have hall : MovesAll site first o s₀ := movesAll_of_calls hstart hcalls
  have hcrash := (hcalls first rfl).crashAfter hstart n
  have hlease := lease_crashAfter site first n s₀
  rw [h.legacy.lease] at hlease
  constructor
  · intro hconverges
    exact ⟨hconverges.not_stranded hall hcrash, hconverges.not_verified ho hcrash⟩
  · rintro ⟨hwhole, hunverified⟩
    refine converges_of_resumable hstore hpid ho hall hcrash ?_ hwhole hunverified
    rcases hlease with hnone | hnone | hown
    · exact Or.inl hnone
    · exact Or.inl hnone
    · exact Or.inr hown

end

/-! ### The sample project -/

/-- A legacy project with the database and the file of the issues. -/
def issuesSample : StoreWorld Unit (List Nat) :=
  { legacySample Unit with repo := Function.update sampleStore (.runtime .issuesJsonl) (some []) }

theorem issuesSample_legacy : LegacyProject issuesSample where
  repo := rfl
  managed := rfl
  quarantine := rfl
  redirect := rfl
  journal := rfl
  snapshot := rfl
  pending := rfl
  lease := rfl
  inside := fun _ => rfl
  verifiedStore := rfl

/-- The state of the sample after a number of steps of the first call. -/
def crashedSample (n : Nat) : StoreWorld Unit (List Nat) :=
  (ensureHubTaskStoreMigrated sampleSite (sampleInput none)).crashAfter n issuesSample

theorem sampleBd_reads : ReadsDatabase sampleBd where
  available := rfl
  list := by
    intro path other store copy hdatabase _ _
    show (copy .database).map _ = (store .database).map _
    rw [hdatabase]
  wherePath := fun path store => Or.inr rfl

theorem issuesSample_migratable : Migratable sampleSite (sampleInput none) issuesSample where
  legacy := issuesSample_legacy
  reads := sampleBd_reads
  readable := rfl
  noWriter := fun _ _ pid h => by cases h

theorem converges_iff_sample :
    Converges sampleSite (sampleInput none) issuesSample (crashedSample 40) ↔
      ¬ Stranded (crashedSample 40) ∧ .verified ∉ (crashedSample 40).phases :=
  converges_iff issuesSample_migratable 40

/-- A crash between the renames of the database and of the issues. A later call answers `migrated`,
but no number of calls brings the issues to the quarantine. -/
theorem strandedEntry :
    Migratable sampleSite (sampleInput none) issuesSample ∧ Stranded (crashedSample 25) ∧
      ((retry (sampleInput none)).run sampleSite (crashedSample 25)).2.quarantine.has
        (.runtime .issuesJsonl) = false ∧
      ¬ Converges sampleSite (sampleInput none) issuesSample (crashedSample 25) := by
  have hstranded : Stranded (crashedSample 25) :=
    ⟨by decide +kernel, .issuesJsonl, by decide +kernel⟩
  refine ⟨issuesSample_migratable, hstranded, by decide +kernel, fun h => ?_⟩
  obtain ⟨o, -, -, -, hstart, hcalls⟩ := issuesSample_migratable.calls
  exact h.not_stranded (movesAll_of_calls hstart hcalls)
    ((hcalls (sampleInput none) rfl).crashAfter hstart 25) hstranded

end ArchLoop
