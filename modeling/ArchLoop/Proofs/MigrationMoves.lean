import ArchLoop.TaskStoreMigration
import ArchLoop.Lib.Frame

/-!
# `ArchLoop.Proofs.MigrationMoves`: what each part of a migration leaves alone

Most of `ensureHubTaskStoreMigrated` looks at the layout or writes the journal, the snapshot
or the pending record. `QuietMove` says what such a step leaves alone, and there is one lemma for
each function that only takes such steps. What is left are the steps that move a store, set
the redirect, record the verification or touch the lease. `Unleased` is what every step does
except those on the lease.

The first part has the facts about the journal and about `derivePhase` that the proofs use.
-/

set_option autoImplicit false

namespace ArchLoop

open ArchLoop.Lib

/-! ### The journal -/

theorem mem_migrationPhases (phase : MigrationPhase) : phase ∈ migrationPhases := by
  cases phase <;> decide

theorem mem_readJournalPhases {journal : List JournalRecord} {phase : MigrationPhase} :
    phase ∈ readJournalPhases journal ↔ ∃ record ∈ journal, record.phase = some phase := by
  simp [readJournalPhases, mem_migrationPhases]

theorem mem_readJournalPhases_append {journal : List JournalRecord} {record : JournalRecord}
    {phase : MigrationPhase} :
    phase ∈ readJournalPhases (journal ++ [record]) ↔
      phase ∈ readJournalPhases journal ∨ record.phase = some phase := by
  simp only [mem_readJournalPhases, List.mem_append, List.mem_singleton]
  constructor
  · rintro ⟨r, hr | rfl, hphase⟩
    · exact Or.inl ⟨r, hr, hphase⟩
    · exact Or.inr hphase
  · rintro (⟨r, hr, hphase⟩ | hphase)
    · exact ⟨r, Or.inl hr, hphase⟩
    · exact ⟨record, Or.inr rfl, hphase⟩

/-! ### Phases and layouts -/

section
variable {ι χ : Type} {site : StoreSite} {s : StoreWorld ι χ} {snapshot : Option StoreIdentity}

theorem Store.fullyInitialized_iff {store : Store χ} :
    store.fullyInitialized = true ↔ store.has .metadata = true ∧ store.has .database = true :=
  Bool.and_eq_true_iff

theorem resolve_kind_redirect :
    (resolveHubTaskStore site s).kind = .redirect ↔ s.redirect = true := by
  unfold resolveHubTaskStore
  cases hredirect : s.redirect with
  | true =>
    rw [if_pos rfl]
    split <;> simp
  | false =>
    rw [if_neg Bool.false_ne_true]
    split
    · simp
    · split <;> simp

theorem resolve_error_none :
    (resolveHubTaskStore site s).redirectError = none ↔
      (s.redirect = true → s.managed.markerPresent = true) := by
  unfold resolveHubTaskStore
  cases hredirect : s.redirect with
  | true =>
    rw [if_pos rfl]
    split
    · simp_all
    · simp_all
  | false =>
    rw [if_neg Bool.false_ne_true]
    split
    · simp
    · split <;> simp

theorem resolve_kind_legacy (h : (resolveHubTaskStore site s).kind = .legacy) :
    s.redirect = false ∧ s.managed.fullyInitialized = false ∧
      s.repo.fullyInitialized = true ∧ (resolveHubTaskStore site s).beadsDir = .repo := by
  unfold resolveHubTaskStore at h ⊢
  cases hredirect : s.redirect with
  | true =>
    rw [hredirect, if_pos rfl] at h
    split at h <;> cases h
  | false =>
    rw [hredirect, if_neg Bool.false_ne_true] at h
    rw [if_neg Bool.false_ne_true]
    cases hmanaged : s.managed.fullyInitialized with
    | true => simp [hmanaged] at h
    | false =>
      cases hrepo : s.repo.fullyInitialized with
      | true => simp
      | false => simp [hmanaged, hrepo] at h

theorem resolve_legacy (hredirect : s.redirect = false)
    (hmanaged : s.managed.fullyInitialized = false) (hrepo : s.repo.fullyInitialized = true) :
    resolveHubTaskStore site s = { kind := .legacy, beadsDir := .repo } := by
  simp [resolveHubTaskStore, hredirect, hmanaged, hrepo]

theorem derivePhase_eq :
    derivePhase site s snapshot =
      if s.redirect = true ∧ s.managed.fullyInitialized = true then
        if .verified ∈ s.phases then some .verified
        else phaseForManagedLayout .redirectInstalled (hasDurableMigrationEvidence s snapshot)
      else if s.managed.fullyInitialized then
        phaseForManagedLayout .managedCopied (hasDurableMigrationEvidence s snapshot)
      else if s.quarantined then some .legacyQuarantined
      else if snapshot.isSome then some .snapshotPrepared
      else if (resolveHubTaskStore site s).kind = .legacy ∨ .legacyActive ∈ s.phases then
        some .legacyActive
      else highestPhase s.phases := by
  have hready : ((resolveHubTaskStore site s).kind = .redirect ∧
      (resolveHubTaskStore site s).redirectError = none ∧
      s.managed.fullyInitialized = true) ↔
      s.redirect = true ∧ s.managed.fullyInitialized = true := by
    rw [resolve_kind_redirect, resolve_error_none]
    constructor
    · rintro ⟨hredirect, -, hmanaged⟩
      exact ⟨hredirect, hmanaged⟩
    · rintro ⟨hredirect, hmanaged⟩
      exact ⟨hredirect, fun _ => (Store.fullyInitialized_iff.mp hmanaged).1, hmanaged⟩
  unfold derivePhase
  simp only [hready]
  by_cases h : s.redirect = true ∧ s.managed.fullyInitialized = true
  · simp [h]
  · simp [h]

theorem evidence_of_quarantined (h : s.quarantined = true) :
    hasDurableMigrationEvidence s snapshot = true := by
  simp [hasDurableMigrationEvidence, h]

theorem derivePhase_of_quarantined (h : s.quarantined = true) :
    derivePhase site s snapshot ≠ none ∧ derivePhase site s snapshot ≠ some .legacyActive ∧
      derivePhase site s snapshot ≠ some .snapshotPrepared := by
  rw [derivePhase_eq, evidence_of_quarantined h]
  split
  · split <;> simp [phaseForManagedLayout]
  · split
    · simp [phaseForManagedLayout]
    · simp

theorem derivePhase_of_snapshot (hmanaged : s.managed.fullyInitialized = false)
    (hquarantine : s.quarantined = false) (identity : StoreIdentity) :
    derivePhase site s (some identity) = some .snapshotPrepared := by
  rw [derivePhase_eq]
  simp [hmanaged, hquarantine]

theorem highestPhase_mem {phases : List MigrationPhase} {phase : MigrationPhase}
    (h : highestPhase phases = some phase) : phase ∈ phases := by
  -- what the fold has found is one of the phases that it has seen
  have hgen : ∀ (rest : List MigrationPhase) (start : Option MigrationPhase),
      rest.foldl higherPhase start = some phase → phase ∈ rest ∨ start = some phase := by
    intro rest
    induction rest with
    | nil => exact fun start h => Or.inr h
    | cons first rest ih =>
      intro start h
      rcases ih _ h with hmem | hstart
      · exact Or.inl (List.mem_cons_of_mem _ hmem)
      · cases start with
        | none =>
          obtain rfl := Option.some.inj hstart
          exact Or.inl List.mem_cons_self
        | some top =>
          simp only [higherPhase] at hstart
          split at hstart
          · obtain rfl := Option.some.inj hstart
            exact Or.inl List.mem_cons_self
          · exact Or.inr hstart
  rcases hgen phases none h with hmem | hnone
  · exact hmem
  · cases hnone

theorem verified_of_derivePhase (h : derivePhase site s snapshot = some .verified) :
    .verified ∈ s.phases := by
  rw [derivePhase_eq] at h
  have hlayout : ∀ phase b, phase ≠ .verified →
      phaseForManagedLayout phase b ≠ some .verified := by
    intro phase b hne heq
    cases b with
    | false => cases heq
    | true => exact hne (Option.some.inj heq)
  split at h
  · split at h
    · assumption
    · exact absurd h (hlayout _ _ (by decide))
  · split at h
    · exact absurd h (hlayout _ _ (by decide))
    · split at h
      · cases h
      · split at h
        · cases h
        · split at h
          · cases h
          · exact highestPhase_mem h

end

/-! ### QuietMove steps -/

/-- The operations that neither move a store nor touch the lease, and that the conditions on
runs do not speak of. -/
def MigrationOp.quiet : MigrationOp → Bool
  | .read | .journal | .writePending | .clearPending | .writeSnapshot | .removeSnapshot
  | .verify | .boundary _ _ => true
  | _ => false

section
variable {ι χ : Type}

/-- Two states with the same stores, redirect, verification record and lease. -/
structure SameLayout (s t : StoreWorld ι χ) : Prop where
  repo : t.repo = s.repo
  managed : t.managed = s.managed
  quarantine : t.quarantine = s.quarantine
  redirect : t.redirect = s.redirect
  lease : t.lease = s.lease
  alive : t.alive = s.alive
  life : t.life = s.life
  inside : t.inside = s.inside
  accepted : t.accepted = s.accepted
  verified : .verified ∈ t.phases ↔ .verified ∈ s.phases

structure QuietMove (s t : StoreWorld ι χ) : Prop extends SameLayout s t where
  op : ∃ op, t.lastOp = some op ∧ op.quiet = true

theorem sameLayout_op (s : StoreWorld ι χ) (op : MigrationOp) :
    SameLayout s { s with lastOp := some op } where
  repo := rfl
  managed := rfl
  quarantine := rfl
  redirect := rfl
  lease := rfl
  alive := rfl
  life := rfl
  inside := rfl
  accepted := rfl
  verified := Iff.rfl

/-- A step that leaves the lease and the process table alone. -/
structure Unleased (s t : StoreWorld ι χ) : Prop where
  lease : t.lease = s.lease
  alive : t.alive = s.alive
  life : t.life = s.life
  inside : t.inside = s.inside
  op : t.lastOp ≠ some .writeLease ∧ t.lastOp ≠ some .releaseLease

theorem QuietMove.unleased {s t : StoreWorld ι χ} (h : QuietMove s t) : Unleased s t where
  lease := h.lease
  alive := h.alive
  life := h.life
  inside := h.inside
  op := by
    obtain ⟨op, hop, hquiet⟩ := h.op
    rw [hop]
    constructor
    · rintro heq
      cases Option.some.inj heq
      cases hquiet
    · rintro heq
      cases Option.some.inj heq
      cases hquiet

variable {P : StoreWorld ι χ → StoreWorld ι χ → Prop} {α : Type}

theorem always_migrationStep {op : MigrationOp} {upd : StoreWorld ι χ → StoreWorld ι χ}
    {answer : StoreWorld ι χ → α} (h : ∀ s, P s { upd s with lastOp := some op }) :
    (migrationStep op upd answer).Always P :=
  fun s => ⟨h s, trivial⟩

theorem sat_aloneStep {inv : StoreWorld ι χ → Prop} {op : MigrationOp}
    {upd : StoreWorld ι χ → StoreWorld ι χ} {answer : StoreWorld ι χ → α}
    {Q : α → StoreWorld ι χ → Prop} {E : MigrationError → StoreWorld ι χ → Prop}
    {s : StoreWorld ι χ} (hinv : inv { upd s with lastOp := some op })
    (hnext : Q (answer s) { upd s with lastOp := some op }) :
    (migrationStep op upd answer).Sat (.alone inv fun _ _ => True) Q E s :=
  Prog.sat_alone_act.mpr fun _ => ⟨trivial, hinv, hnext⟩

theorem quiet_step {op : MigrationOp} {upd : StoreWorld ι χ → StoreWorld ι χ}
    {answer : StoreWorld ι χ → α} (hop : op.quiet = true)
    (h : ∀ s, ∃ snapshot pending boundary verifiedStore, upd s = { s with
      snapshot := snapshot, pending := pending, boundary := boundary,
      verifiedStore := verifiedStore }) :
    (migrationStep op upd answer).Always QuietMove := by
  refine always_migrationStep fun s => ?_
  obtain ⟨snapshot, pending, boundary, verifiedStore, heq⟩ := h s
  rw [heq]
  exact { repo := rfl, managed := rfl, quarantine := rfl, redirect := rfl, lease := rfl,
          alive := rfl, life := rfl, inside := rfl, accepted := rfl, verified := Iff.rfl,
          op := ⟨op, rfl, hop⟩ }

theorem quiet_look {answer : StoreWorld ι χ → α} : (look answer).Always QuietMove :=
  quiet_step rfl fun _ => ⟨_, _, _, _, rfl⟩

theorem same_read {op : MigrationOp} {answer : StoreWorld ι χ → α} :
    (migrationStep op id answer).Always SameLayout :=
  always_migrationStep fun s => sameLayout_op s op

theorem quiet_journal (s : StoreWorld ι χ) {record : JournalRecord}
    (h : record.phase ≠ some .verified) :
    QuietMove s { s with journal := s.journal ++ [record], lastOp := some .journal } where
  repo := rfl
  managed := rfl
  quarantine := rfl
  redirect := rfl
  lease := rfl
  alive := rfl
  life := rfl
  inside := rfl
  accepted := rfl
  verified := by
    simp only [StoreWorld.phases, mem_readJournalPhases_append, h, or_false]
  op := ⟨.journal, rfl, rfl⟩

theorem quiet_appendJournalRecord {record : JournalRecord}
    (h : record.phase ≠ some .verified) :
    (appendJournalRecord record : MigrationProg ι χ Unit).Always QuietMove :=
  always_migrationStep fun s => quiet_journal s h

theorem quiet_appendJournalPhase {phase : MigrationPhase} {fingerprint : Option String}
    (h : phase ≠ .verified) :
    (appendJournalPhase phase fingerprint : MigrationProg ι χ Unit).Always QuietMove := by
  refine always_migrationStep fun s => ?_
  split
  · exact { repo := rfl, managed := rfl, quarantine := rfl, redirect := rfl, lease := rfl,
            alive := rfl, life := rfl, inside := rfl, accepted := rfl, verified := Iff.rfl,
            op := ⟨.journal, rfl, rfl⟩ }
  · exact quiet_journal s fun heq => h (Option.some.inj heq)

theorem quiet_clearPending : (clearPending : MigrationProg ι χ Unit).Always QuietMove :=
  quiet_step rfl fun _ => ⟨_, _, _, _, rfl⟩

variable {site : StoreSite} {input : MigrationInput ι χ}

theorem quiet_deferMigration {beadsDir : StoreDir} {reason : MigrationPendingReason}
    {phase : MigrationPhase} :
    (deferMigration site input beadsDir reason phase).Always QuietMove := by
  refine Prog.always_bind quiet_look fun previous => ?_
  refine Prog.always_bind (Prog.always_bind ?_ fun _ => Prog.always_bind ?_ fun _ => trivial)
    fun pending => trivial
  · exact quiet_step rfl fun _ => ⟨_, _, _, _, rfl⟩
  · exact quiet_appendJournalRecord (by simp)

theorem quiet_maybeCrash {sideEffect : MigrationSideEffect} {timing : FaultTiming} :
    (maybeCrash input sideEffect timing).Always QuietMove := by
  refine Prog.always_bind (quiet_step rfl fun _ => ⟨_, _, _, _, rfl⟩) fun _ => ?_
  dsimp only
  split
  · split <;> trivial
  · split <;> trivial

theorem always_withSideEffect {sideEffect : MigrationSideEffect}
    {operation : MigrationProg ι χ α} (hquiet : ∀ s t, QuietMove s t → P s t)
    (h : operation.Always P) : (withSideEffect input sideEffect operation).Always P := by
  refine Prog.always_bind (quiet_maybeCrash.mono hquiet) fun _ => ?_
  refine Prog.always_bind h fun value => ?_
  exact Prog.always_bind (quiet_maybeCrash.mono hquiet) fun _ => trivial

theorem quiet_captureRepoIdentity : (captureRepoIdentity site input).Always QuietMove := by
  refine Prog.always_bind quiet_look fun identity => ?_
  cases identity with
  | some identity => trivial
  | none => trivial

theorem quiet_verifyManagedStore {expected : StoreIdentity} :
    (verifyManagedStore site input expected).Always QuietMove := by
  refine Prog.always_bind (quiet_step rfl fun s => ?_) fun error => ?_
  · split
    · exact ⟨_, _, _, _, rfl⟩
    · exact ⟨_, _, _, _, rfl⟩
  · cases error with
    | some e => trivial
    | none => trivial

theorem quiet_recordLegacyActive {resolution : HubTaskStoreResolution}
    {snapshot : Option StoreIdentity} :
    (recordLegacyActive site input resolution snapshot).Always QuietMove := by
  refine Prog.always_bind quiet_look fun startPhase => ?_
  split
  · refine Prog.always_bind quiet_look fun writer => ?_
    split
    · exact Prog.always_bind quiet_deferMigration fun _ => trivial
    · refine Prog.always_bind quiet_maybeCrash fun _ => ?_
      refine Prog.always_bind quiet_maybeCrash fun _ => ?_
      exact Prog.always_bind (quiet_appendJournalPhase (by decide)) fun _ => trivial
  · trivial

theorem quiet_prepareSnapshot {snapshot : Option StoreIdentity} :
    (prepareSnapshot site input snapshot).Always QuietMove := by
  refine Prog.always_bind quiet_look fun progress => ?_
  split
  · refine Prog.always_bind (always_withSideEffect (fun _ _ h => h) ?_) fun identity => ?_
    · refine Prog.always_bind quiet_captureRepoIdentity fun identity => ?_
      exact Prog.always_bind (quiet_step rfl fun _ => ⟨_, _, _, _, rfl⟩) fun _ => trivial
    · exact Prog.always_bind (quiet_appendJournalPhase (by decide)) fun _ => trivial
  · trivial

theorem quiet_requireSnapshot {snapshot : Option StoreIdentity} :
    (requireSnapshot snapshot : MigrationProg ι χ StoreIdentity).Always QuietMove := by
  cases snapshot with
  | some identity => trivial
  | none =>
    refine Prog.always_bind quiet_look fun stored => ?_
    cases stored with
    | some identity => trivial
    | none => trivial

theorem quiet_attempt {p : MigrationProg ι χ α} (h : p.Always P) : p.attempt.Always P :=
  Prog.always_tryCatch (Prog.always_bind h fun _ => trivial) fun _ => trivial

theorem quiet_checkSource {resolution : HubTaskStoreResolution}
    {sourceSnapshot : StoreIdentity} :
    (checkSource site input resolution sourceSnapshot).Always QuietMove := by
  refine Prog.always_bind quiet_look fun check => ?_
  split
  · refine Prog.always_bind (quiet_attempt quiet_captureRepoIdentity) fun current => ?_
    cases current with
    | error e => exact Prog.always_bind quiet_deferMigration fun _ => trivial
    | ok identity =>
      dsimp only
      split
      · trivial
      · refine Prog.always_bind (quiet_step rfl fun _ => ⟨_, _, _, _, rfl⟩) fun _ => ?_
        exact Prog.always_bind quiet_deferMigration fun _ => trivial
  · trivial

theorem quiet_recordSplitBrainOutcome {resolution : HubTaskStoreResolution} :
    (recordSplitBrainOutcome site resolution : MigrationProg ι χ MigrationOutcome).Always
      QuietMove :=
  Prog.always_bind (quiet_appendJournalRecord (by simp)) fun _ => trivial

theorem quiet_captureBeforeLease {resolution : HubTaskStoreResolution}
    {quarantinePresent : Bool} :
    (captureBeforeLease site input resolution quarantinePresent).Always QuietMove := by
  unfold captureBeforeLease
  split
  · refine Prog.always_bind (quiet_attempt quiet_captureRepoIdentity) fun captured => ?_
    cases captured with
    | ok identity => trivial
    | error e =>
      refine Prog.always_bind quiet_look fun stored => ?_
      split
      · exact Prog.always_bind quiet_deferMigration fun _ => trivial
      · trivial
  · trivial

/-! ### Steps off the lease -/

theorem unleased_step {op : MigrationOp} {upd : StoreWorld ι χ → StoreWorld ι χ}
    {answer : StoreWorld ι χ → α} (hop : op ≠ .writeLease ∧ op ≠ .releaseLease)
    (h : ∀ s, ∃ repo managed quarantine redirect journal verifiedStore, upd s = { s with
      repo := repo, managed := managed, quarantine := quarantine, redirect := redirect,
      journal := journal, verifiedStore := verifiedStore }) :
    (migrationStep op upd answer).Always Unleased := by
  refine always_migrationStep fun s => ?_
  obtain ⟨repo, managed, quarantine, redirect, journal, verifiedStore, heq⟩ := h s
  rw [heq]
  refine { lease := rfl, alive := rfl, life := rfl, inside := rfl, op := ⟨?_, ?_⟩ }
  · exact fun h => hop.1 (Option.some.inj h)
  · exact fun h => hop.2 (Option.some.inj h)

theorem always_forNames {β : Type} {body : β → MigrationProg ι χ Unit}
    (h : ∀ name, (body name).Always P) (names : List β) : (forNames body names).Always P := by
  induction names with
  | nil => trivial
  | cons name rest ih => exact Prog.always_bind (h name) fun _ => ih

theorem sat_forNames {β : Type} {rules : Rules (StoreWorld ι χ)}
    {E : MigrationError → StoreWorld ι χ → Prop} {body : β → MigrationProg ι χ Unit}
    {K : List β → StoreWorld ι χ → Prop}
    (hbody : ∀ name rest t, K (name :: rest) t →
      (body name).Sat rules (fun _ => K rest) E t) {names : List β} {s : StoreWorld ι χ}
    (hs : K names s) : (forNames body names).Sat rules (fun _ => K []) E s := by
  induction names generalizing s with
  | nil => exact hs
  | cons name rest ih => exact Prog.sat_bind (hbody name rest s hs) fun _ t ht => ih ht

theorem unleased_quarantineLegacyStore :
    (quarantineLegacyStore input).Always Unleased := by
  refine Prog.always_bind (quiet_look.mono fun _ _ => QuietMove.unleased) fun names => ?_
  refine always_forNames (fun name => ?_) names
  refine Prog.always_bind (unleased_step (by simp) fun s => ?_) fun done => ?_
  · split
    · exact ⟨_, _, _, _, _, _, rfl⟩
    · exact ⟨_, _, _, _, _, _, rfl⟩
  · split <;> trivial

theorem unleased_copyEntry {from_ : StoreDir} {entry : StoreEntry} :
    (copyEntry from_ entry : MigrationProg ι χ Unit).Always Unleased := by
  refine unleased_step (by simp) fun s => ?_
  split
  · exact ⟨_, _, _, _, _, _, rfl⟩
  · exact ⟨_, _, _, _, _, _, rfl⟩

theorem unleased_copyManagedStore : (copyManagedStore input).Always Unleased := by
  refine Prog.always_bind (quiet_look.mono fun _ _ => QuietMove.unleased) fun names => ?_
  refine Prog.always_bind (always_forNames (fun name => unleased_copyEntry) names) fun _ => ?_
  exact always_forNames (fun name => unleased_copyEntry) _

theorem unleased_moveStore {sourceSnapshot : StoreIdentity} :
    (moveStore site input sourceSnapshot).Always Unleased := by
  have hquiet : ∀ s t : StoreWorld ι χ, QuietMove s t → Unleased s t :=
    fun _ _ => QuietMove.unleased
  have hjournal : ∀ phase fingerprint,
      (appendJournalPhase phase fingerprint : MigrationProg ι χ Unit).Always Unleased := by
    intro phase fingerprint
    refine unleased_step (by simp) fun s => ?_
    split
    · exact ⟨_, _, _, _, _, _, rfl⟩
    · exact ⟨_, _, _, _, _, _, rfl⟩
  refine Prog.always_bind (Prog.always_bind (quiet_look.mono hquiet) fun progress => ?_)
    fun _ => ?_
  · split
    · exact Prog.always_bind (always_withSideEffect hquiet unleased_quarantineLegacyStore)
        fun _ => hjournal _ _
    · trivial
  refine Prog.always_bind (Prog.always_bind (quiet_look.mono hquiet) fun copy => ?_) fun _ => ?_
  · split
    · refine Prog.always_bind (always_withSideEffect hquiet ?_) fun _ => hjournal _ _
      exact Prog.always_bind (unleased_step (by simp) fun _ => ⟨_, _, _, _, _, _, rfl⟩) fun _ =>
        unleased_copyManagedStore
    · trivial
  refine Prog.always_bind (Prog.always_bind (quiet_look.mono hquiet) fun install => ?_)
    fun _ => ?_
  · split
    · refine Prog.always_bind (always_withSideEffect hquiet ?_) fun _ => hjournal _ _
      exact unleased_step (by simp) fun _ => ⟨_, _, _, _, _, _, rfl⟩
    · trivial
  refine Prog.always_bind ?_ fun _ => trivial
  refine Prog.always_bind (always_withSideEffect hquiet
    (quiet_verifyManagedStore.mono hquiet)) fun _ => ?_
  exact Prog.always_bind (hjournal _ _) fun _ => quiet_clearPending.mono hquiet

theorem unleased_migrateUnderLease {resolution : HubTaskStoreResolution} :
    (migrateUnderLease site input resolution).Always Unleased := by
  have hquiet : ∀ s t : StoreWorld ι χ, QuietMove s t → Unleased s t :=
    fun _ _ => QuietMove.unleased
  refine Prog.always_bind (quiet_look.mono hquiet) fun stored => ?_
  refine Prog.always_bind (quiet_recordLegacyActive.mono hquiet) fun deferral => ?_
  cases deferral with
  | some outcome => trivial
  | none =>
    refine Prog.always_bind (quiet_prepareSnapshot.mono hquiet) fun snapshot => ?_
    refine Prog.always_bind (quiet_requireSnapshot.mono hquiet) fun sourceSnapshot => ?_
    refine Prog.always_bind (quiet_checkSource.mono hquiet) fun deferral => ?_
    cases deferral with
    | some outcome => trivial
    | none => exact unleased_moveStore

/-- The whole call, when a relation admits the steps off the lease, taking it and releasing
it. -/
theorem always_ensureHubTaskStoreMigrated [DecidableEq ι]
    (hoff : ∀ s t, Unleased s t → P s t)
    (hwrite : ∀ s : StoreWorld ι χ, P s { s.setInside input.process true with
      lease := some input.pid, lastOp := some .writeLease })
    (hrelease : ∀ s : StoreWorld ι χ, P s { s.setInside input.process false with
      lease := none, lastOp := some .releaseLease }) :
    (ensureHubTaskStoreMigrated site input).Always P := by
  have hquiet : ∀ s t : StoreWorld ι χ, QuietMove s t → P s t :=
    fun s t h => hoff s t h.unleased
  have hread : ∀ {β : Type} {op : MigrationOp} {answer : StoreWorld ι χ → β},
      op ≠ .writeLease ∧ op ≠ .releaseLease → (migrationStep op id answer).Always P := by
    intro β op answer hop
    exact (unleased_step hop fun _ => ⟨_, _, _, _, _, _, rfl⟩).mono hoff
  unfold ensureHubTaskStoreMigrated
  split
  · trivial
  refine Prog.always_bind (quiet_look.mono hquiet) fun resolution => ?_
  cases resolution.redirectError with
  | some message => trivial
  | none =>
    refine Prog.always_bind (quiet_look.mono hquiet) fun splitBrain => ?_
    split
    · exact quiet_recordSplitBrainOutcome.mono hquiet
    refine Prog.always_bind (quiet_look.mono hquiet) fun inspection => ?_
    split
    · trivial
    split
    · trivial
    refine Prog.always_bind (hread (by simp)) fun blocking => ?_
    cases blocking with
    | some pending => trivial
    | none =>
      refine Prog.always_bind (quiet_captureBeforeLease.mono hquiet) fun stop => ?_
      cases stop with
      | some outcome => trivial
      | none =>
        refine Prog.always_bind (Prog.always_bind (hread (by simp)) fun owner => ?_) ?_
        · split
          · trivial
          · exact Prog.always_bind (always_migrationStep hwrite) fun _ => trivial
        intro acquired
        cases acquired with
        | false => exact Prog.always_bind (quiet_deferMigration.mono hquiet) fun _ => trivial
        | true =>
          exact Prog.always_finallyDo (unleased_migrateUnderLease.mono hoff)
            (always_migrationStep hrelease)

theorem keeps_life [DecidableEq ι] :
    (ensureHubTaskStoreMigrated site input).Keeps StoreWorld.life :=
  always_ensureHubTaskStoreMigrated (fun _ _ h => h.life) (fun _ => rfl) fun _ => rfl

end

end ArchLoop
