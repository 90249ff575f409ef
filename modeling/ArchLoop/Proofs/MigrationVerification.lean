import ArchLoop.Proofs.TaskWrites
import ArchLoop.Lib.Alone

/-!
# `ArchLoop.Proofs.MigrationVerification`: when the store in use is a verified one

Calls of `ensureHubTaskStoreMigrated` follow each other, with any inputs, and each of them may
stop after any of its steps: by a crash, by an error that it throws, or because the
verification fails. `ActiveVerified` is the claim about the state that is left: if the resolver
names the managed directory, its present content has been verified against the snapshot.

The resolver looks at the marker files and the redirect, and the verification comes after both.
`Unfinished` are the stops between the copy of `metadata.json` and a verification that passes.
After calls that did not stop there, a call leaves a verified store in use exactly when it does
not stop there either (`activeVerified_iff`). `copiedUnverified` is a stop of the other kind.
-/

set_option autoImplicit false

namespace ArchLoop

open ArchLoop.Lib

section
variable {ι χ : Type}

/-- `resolveHubTaskStore` names the managed directory, and without an error. -/
def ActiveManaged (site : StoreSite) (s : StoreWorld ι χ) : Prop :=
  (resolveHubTaskStore site s).kind = .managed ∨
    ((resolveHubTaskStore site s).kind = .redirect ∧
      (resolveHubTaskStore site s).redirectError = none)

/-- The present content of the managed store has been verified against the snapshot. -/
def VerifiedPresent (s : StoreWorld ι χ) : Prop :=
  ∃ identity, s.snapshot = some identity ∧ s.verifiedStore = some (s.managed, identity)

def ActiveVerified (site : StoreSite) (s : StoreWorld ι χ) : Prop :=
  ActiveManaged site s → VerifiedPresent s

/-- The verification was the last operation, and it has passed. -/
def Passed (site : StoreSite) (input : MigrationInput ι χ) (s : StoreWorld ι χ) : Prop :=
  s.lastOp = some .verify ∧
    ∃ identity, s.snapshot = some identity ∧ managedStoreError site input identity s.managed = none

/-- The call has copied `metadata.json`, and no verification of it has passed. -/
def Unfinished (site : StoreSite) (input : MigrationInput ι χ) (s : StoreWorld ι χ) : Prop :=
  match s.boundary with
  | some (.copyManaged, .before) =>
    (∃ entry, s.lastOp = some (.copy entry)) ∧ s.managed.markerPresent = true
  | some (.copyManaged, .after) => True
  | some (.installRedirect, _) => True
  | some (.verifyManaged, .before) => ¬ Passed site input s
  | _ => False

variable [DecidableEq ι]

/-- The state in which a call is stopped after `n` steps. -/
def stopAfter (site : StoreSite) (input : MigrationInput ι χ) (n : Nat) (s : StoreWorld ι χ) :
    StoreWorld ι χ :=
  (ensureHubTaskStoreMigrated site input).crashAfter n { s with boundary := none, lastOp := none }

/-- Calls that follow each other in a legacy project, none of which stops unfinished. The other
processes and their pid file may be anything between two calls. -/
inductive FinishedCalls (site : StoreSite) : StoreWorld ι χ → Prop
  | legacy {s : StoreWorld ι χ} (h : LegacyProject s) : FinishedCalls site s
  | call {s : StoreWorld ι χ} (h : FinishedCalls site s) (input : MigrationInput ι χ) (n : Nat)
      (hfinished : ¬ Unfinished site input (stopAfter site input n s)) :
      FinishedCalls site (stopAfter site input n s)
  | processes {s : StoreWorld ι χ} (h : FinishedCalls site s) (alive : Nat → Bool)
      (life : ι → ProcessLife) (doltServerPid : Option χ) :
      FinishedCalls site { s with alive := alive, life := life, doltServerPid := doltServerPid }

/-! ### Between the calls -/

/-- The layout that a call finds.

- `fresh`: before the quarantine of the database, nothing has been moved.
- `active`: a managed store with a marker is verified.
- `runtimeOnly`: the quarantine has runtime entries only. -/
structure SoundLayout (s : StoreWorld ι χ) : Prop where
  fresh : s.quarantined = false →
    s.managed = .empty ∧ s.redirect = false ∧ s.repo.databasePresent = true
  repoGone : s.quarantined = true → s.repo .database = none
  marker : s.repo.markerPresent = true
  runtimeOnly : ∀ name, s.quarantine (.copied name) = none
  active : s.managed.markerPresent = true → VerifiedPresent s
  verified : .verified ∈ s.phases → s.redirect = true ∧ s.managed.fullyInitialized = true

/-- A managed store in use that no verification has passed. -/
structure Exposed (s : StoreWorld ι χ) : Prop where
  managed : s.managed.fullyInitialized = true
  unverified : s.verifiedStore = none

/-- The layout is sound, unless the call stops unfinished. -/
def SoundUnlessUnfinished (site : StoreSite) (input : MigrationInput ι χ)
    (s : StoreWorld ι χ) : Prop :=
  (¬ Unfinished site input s ∧ SoundLayout s) ∨ (Unfinished site input s ∧ Exposed s)

variable {site : StoreSite} {input : MigrationInput ι χ} {s t : StoreWorld ι χ} {α : Type}

omit [DecidableEq ι] in
theorem activeManaged_iff :
    ActiveManaged site s ↔
      s.managed.markerPresent = true ∧
        (s.redirect = true ∨ s.managed.databasePresent = true) := by
  unfold ActiveManaged resolveHubTaskStore
  cases hredirect : s.redirect with
  | true =>
    cases hmarker : s.managed.markerPresent with
    | true => simp
    | false => simp
  | false =>
    cases hfull : s.managed.fullyInitialized with
    | true =>
      obtain ⟨hmarker, hdb⟩ := Store.fullyInitialized_iff.mp hfull
      have hmarker' : s.managed.markerPresent = true := hmarker
      have hdb' : s.managed.databasePresent = true := hdb
      simp [hmarker', hdb']
    | false =>
      have hboth : ¬ (s.managed.markerPresent = true ∧ s.managed.databasePresent = true) :=
        fun h => absurd (hfull.symm.trans (Bool.and_eq_true_iff.mpr h)) (by decide)
      cases hrepo : s.repo.fullyInitialized with
      | true => simpa using hboth
      | false => simpa using hboth

omit [DecidableEq ι] in
theorem activeVerified_of_sound (h : SoundUnlessUnfinished site input s) :
    ActiveVerified site s ↔ ¬ Unfinished site input s := by
  rcases h with ⟨hfinished, hsound⟩ | ⟨hunfinished, hexposed⟩
  · exact ⟨fun _ => hfinished, fun _ hactive => hsound.active (activeManaged_iff.mp hactive).1⟩
  · constructor
    · intro hactive _
      obtain ⟨hmarker, hdb⟩ := Store.fullyInitialized_iff.mp hexposed.managed
      obtain ⟨identity, -, hverified⟩ := hactive (activeManaged_iff.mpr ⟨hmarker, Or.inr hdb⟩)
      cases hexposed.unverified.symm.trans hverified
    · exact fun h => absurd hunfinished h

/-! ### Before the stores are moved -/

def earlyBoundary : Option (MigrationSideEffect × FaultTiming) → Bool
  | none => true
  | some (.recordLegacyActive, _) => true
  | some (.prepareSnapshot, _) => true
  | some (.quarantineLegacy, _) => true
  | _ => false

/-- A step that changes none of the stores and no verification, apart from the snapshot. -/
structure EarlyMove (s t : StoreWorld ι χ) : Prop where
  repo : t.repo = s.repo
  managed : t.managed = s.managed
  quarantine : t.quarantine = s.quarantine
  redirect : t.redirect = s.redirect
  verifiedStore : t.verifiedStore = s.verifiedStore
  verified : .verified ∈ t.phases ↔ .verified ∈ s.phases
  boundary : t.boundary = s.boundary ∨ earlyBoundary t.boundary = true

structure EarlyKept (s t : StoreWorld ι χ) : Prop extends EarlyMove s t where
  snapshot : t.snapshot = s.snapshot

omit [DecidableEq ι]

theorem early_step {op : MigrationOp} {upd : StoreWorld ι χ → StoreWorld ι χ}
    {answer : StoreWorld ι χ → α}
    (h : ∀ s, ∃ pending lease inside, upd s = { s with
      pending := pending, lease := lease, inside := inside }) :
    (migrationStep op upd answer).Always EarlyKept := by
  refine always_migrationStep fun s => ?_
  obtain ⟨pending, lease, inside, heq⟩ := h s
  rw [heq]
  exact { repo := rfl, managed := rfl, quarantine := rfl, redirect := rfl, verifiedStore := rfl,
          verified := Iff.rfl, boundary := Or.inl rfl, snapshot := rfl }

theorem early_look {answer : StoreWorld ι χ → α} : (look answer).Always EarlyKept :=
  early_step fun _ => ⟨_, _, _, rfl⟩

theorem early_journal {s : StoreWorld ι χ} {record : JournalRecord}
    (h : record.phase ≠ some .verified) :
    EarlyKept s { s with journal := s.journal ++ [record], lastOp := some .journal } where
  repo := rfl
  managed := rfl
  quarantine := rfl
  redirect := rfl
  verifiedStore := rfl
  verified := (quiet_journal s h).verified
  boundary := Or.inl rfl
  snapshot := rfl

theorem early_appendJournalRecord {record : JournalRecord} (h : record.phase ≠ some .verified) :
    (appendJournalRecord record : MigrationProg ι χ Unit).Always EarlyKept :=
  always_migrationStep fun _ => early_journal h

theorem early_appendJournalPhase {phase : MigrationPhase} {fingerprint : Option String}
    (h : phase ≠ .verified) :
    (appendJournalPhase phase fingerprint : MigrationProg ι χ Unit).Always EarlyKept := by
  refine always_migrationStep fun s => ?_
  split
  · exact { repo := rfl, managed := rfl, quarantine := rfl, redirect := rfl,
            verifiedStore := rfl, verified := Iff.rfl, boundary := Or.inl rfl, snapshot := rfl }
  · exact early_journal fun heq => h (Option.some.inj heq)

theorem early_deferMigration {beadsDir : StoreDir} {reason : MigrationPendingReason}
    {phase : MigrationPhase} :
    (deferMigration site input beadsDir reason phase).Always EarlyKept := by
  refine Prog.always_bind early_look fun previous => ?_
  refine Prog.always_bind (Prog.always_bind ?_ fun _ => Prog.always_bind ?_ fun _ => trivial)
    fun pending => trivial
  · exact early_step fun _ => ⟨_, _, _, rfl⟩
  · exact early_appendJournalRecord (by simp)

theorem early_maybeCrash {sideEffect : MigrationSideEffect} {timing : FaultTiming}
    (h : earlyBoundary (some (sideEffect, timing)) = true) :
    (maybeCrash input sideEffect timing).Always EarlyKept := by
  refine Prog.always_bind (always_migrationStep fun s => ?_) fun _ => ?_
  · exact { repo := rfl, managed := rfl, quarantine := rfl, redirect := rfl,
            verifiedStore := rfl, verified := Iff.rfl, boundary := Or.inr h, snapshot := rfl }
  · dsimp only
    split
    · split <;> trivial
    · split <;> trivial

theorem early_captureRepoIdentity : (captureRepoIdentity site input).Always EarlyKept := by
  refine Prog.always_bind early_look fun identity => ?_
  cases identity with
  | some identity => trivial
  | none => trivial

theorem early_recordLegacyActive {resolution : HubTaskStoreResolution}
    {snapshot : Option StoreIdentity} :
    (recordLegacyActive site input resolution snapshot).Always EarlyKept := by
  refine Prog.always_bind early_look fun startPhase => ?_
  split
  · refine Prog.always_bind early_look fun writer => ?_
    split
    · exact Prog.always_bind early_deferMigration fun _ => trivial
    · refine Prog.always_bind (early_maybeCrash rfl) fun _ => ?_
      refine Prog.always_bind (early_maybeCrash rfl) fun _ => ?_
      exact Prog.always_bind (early_appendJournalPhase (by decide)) fun _ => trivial
  · trivial

theorem early_captureBeforeLease {resolution : HubTaskStoreResolution}
    {quarantinePresent : Bool} :
    (captureBeforeLease site input resolution quarantinePresent).Always EarlyKept := by
  unfold captureBeforeLease
  split
  · refine Prog.always_bind (quiet_attempt early_captureRepoIdentity) fun captured => ?_
    cases captured with
    | ok identity => trivial
    | error e =>
      refine Prog.always_bind early_look fun stored => ?_
      split
      · exact Prog.always_bind early_deferMigration fun _ => trivial
      · trivial
  · trivial

theorem SoundLayout.of_op (h : SoundLayout s) {op : MigrationOp} :
    SoundLayout { s with lastOp := some op } :=
  ⟨h.fresh, h.repoGone, h.marker, h.runtimeOnly, h.active, h.verified⟩

/-- The position before the copy, and a sound layout. -/
structure EarlyStage (s : StoreWorld ι χ) : Prop where
  boundary : earlyBoundary s.boundary = true
  layout : SoundLayout s

theorem EarlyStage.finished (h : EarlyStage s) : ¬ Unfinished site input s := by
  have hearly := h.boundary
  unfold Unfinished
  split
  · rename_i heq
    rw [heq] at hearly
    cases hearly
  · rename_i heq
    rw [heq] at hearly
    cases hearly
  · rename_i heq
    rw [heq] at hearly
    cases hearly
  · rename_i heq
    rw [heq] at hearly
    cases hearly
  · exact id

theorem EarlyStage.sound (h : EarlyStage s) : SoundUnlessUnfinished site input s :=
  Or.inl ⟨h.finished, h.layout⟩

theorem EarlyMove.boundary_early (h : EarlyMove s t) (hs : earlyBoundary s.boundary = true) :
    earlyBoundary t.boundary = true := by
  rcases h.boundary with heq | hearly
  · rw [heq]
    exact hs
  · exact hearly

theorem EarlyStage.move (h : EarlyStage s) (hmove : EarlyMove s t)
    (hkept : s.quarantined = false ∨ t.snapshot = s.snapshot) : EarlyStage t where
  boundary := hmove.boundary_early h.boundary
  layout := by
    have hlayout := h.layout
    refine { fresh := ?_, repoGone := ?_, marker := ?_, runtimeOnly := ?_, active := ?_,
             verified := ?_ }
    · rw [StoreWorld.quarantined, hmove.quarantine, hmove.managed, hmove.redirect, hmove.repo]
      exact hlayout.fresh
    · rw [StoreWorld.quarantined, hmove.quarantine, hmove.repo]
      exact hlayout.repoGone
    · rw [hmove.repo]
      exact hlayout.marker
    · rw [hmove.quarantine]
      exact hlayout.runtimeOnly
    · intro hmarker
      rw [hmove.managed] at hmarker
      rcases hkept with hq | hsnapshot
      · rw [(hlayout.fresh hq).1] at hmarker
        cases hmarker
      · rw [VerifiedPresent, hsnapshot, hmove.verifiedStore, hmove.managed]
        exact hlayout.active hmarker
    · rw [hmove.verified, hmove.redirect, hmove.managed]
      exact hlayout.verified

abbrev soundRules (site : StoreSite) (input : MigrationInput ι χ) : Rules (StoreWorld ι χ) :=
  .alone (SoundUnlessUnfinished site input) fun _ _ => True

theorem sat_early {p : MigrationProg ι χ α} {G : StoreWorld ι χ → Prop}
    (hG : ∀ s t, EarlyKept s t → G s → G t) (h : p.Always EarlyKept)
    (hs : EarlyStage s ∧ G s) :
    p.Sat (soundRules site input) (fun _ t => EarlyStage t ∧ G t) (fun _ => EarlyStage) s := by
  refine Prog.sat_mono (h.sat_alone (K := fun s => EarlyStage s ∧ G s)
    (fun s t _ hK hstep => ?_) hs) (fun _ _ h => h) fun _ _ h => h.1
  have hnext := hK.1.move hstep.toEarlyMove (Or.inr hstep.snapshot)
  exact ⟨trivial, hnext.sound, hnext, hG s t hstep hK.2⟩

/-- The snapshot file, and the journal without a verification. -/
def Unrecorded (stored : Option StoreIdentity) (s : StoreWorld ι χ) : Prop :=
  s.snapshot = stored ∧ .verified ∉ s.phases

theorem Unrecorded.early {stored : Option StoreIdentity} (s t : StoreWorld ι χ)
    (h : EarlyKept s t) (hs : Unrecorded stored s) : Unrecorded stored t :=
  ⟨h.snapshot.trans hs.1, fun hverified => hs.2 (h.verified.mp hverified)⟩

theorem fresh_of_repo (h : SoundLayout s) (hdb : s.repo.databasePresent = true) :
    s.quarantined = false := by
  cases hq : s.quarantined with
  | false => rfl
  | true =>
    have hgone := Store.databaseAbsent_iff.mpr (h.repoGone hq)
    cases hgone.symm.trans hdb

theorem EarlyStage.withSnapshot (h : EarlyStage s) (op : MigrationOp)
    (snapshot : Option StoreIdentity) (hfresh : s.quarantined = false) :
    EarlyStage { s with snapshot := snapshot, lastOp := some op } :=
  h.move { repo := rfl, managed := rfl, quarantine := rfl, redirect := rfl, verifiedStore := rfl,
           verified := Iff.rfl, boundary := Or.inl rfl } (Or.inl hfresh)

/-- Nothing is quarantined and no verification is recorded. -/
def Untaken (s : StoreWorld ι χ) : Prop :=
  s.quarantined = false ∧ .verified ∉ s.phases

theorem Untaken.early (s t : StoreWorld ι χ) (h : EarlyKept s t) (hs : Untaken s) : Untaken t := by
  refine ⟨?_, fun hverified => hs.2 (h.verified.mp hverified)⟩
  rw [StoreWorld.quarantined, h.quarantine]
  exact hs.1

theorem sat_earlyLook {answer : StoreWorld ι χ → α} {E : MigrationError → StoreWorld ι χ → Prop}
    {N : α → StoreWorld ι χ → Prop} (hN : ∀ a s t, EarlyKept s t → N a s → N a t)
    (hs : EarlyStage s) (hfound : N (answer s) s) :
    (look answer).Sat (soundRules site input) (fun a t => EarlyStage t ∧ N a t) E s := by
  have hlook : (look answer).Always EarlyKept := early_look
  have hkept := (hlook s).1
  have hnext := hs.move hkept.toEarlyMove (Or.inr hkept.snapshot)
  exact sat_aloneStep hnext.sound ⟨hnext, hN _ s _ hkept hfound⟩

theorem sound_prepareSnapshot {stored : Option StoreIdentity}
    (hs : EarlyStage s ∧ Unrecorded stored s) :
    (prepareSnapshot site input stored).Sat (soundRules site input)
      (fun snapshot t => EarlyStage t ∧ Unrecorded snapshot t) (fun _ => EarlyStage) s := by
  refine Prog.sat_bind (sat_earlyLook (N := fun progress t => Unrecorded stored t ∧
    (progress.1 = some .legacyActive ∨ (stored = none ∧ progress.2 = .legacy) → Untaken t))
    ?_ hs.1 ?_) ?_
  · intro progress s t h hN
    exact ⟨hN.1.early s t h, fun hcond => (hN.2 hcond).early s t h⟩
  · refine ⟨hs.2, fun hcond => ⟨?_, hs.2.2⟩⟩
    rcases hcond with hphase | ⟨-, hlegacy⟩
    · cases hq : s.quarantined with
      | false => rfl
      | true => exact absurd hphase (derivePhase_of_quarantined hq).2.1
    · obtain ⟨-, -, hrepo, -⟩ := resolve_kind_legacy hlegacy
      exact fresh_of_repo hs.1.layout (Store.fullyInitialized_iff.mp hrepo).2
  · intro progress t ht
    split
    · rename_i hcond
      have hfresh : EarlyStage t ∧ Untaken t := ⟨ht.1, ht.2.2 hcond⟩
      refine Prog.sat_bind (Q := fun identity t => EarlyStage t ∧ Unrecorded (some identity) t)
        ?_ ?_
      · refine Prog.sat_bind (sat_early Untaken.early (early_maybeCrash rfl) hfresh)
          fun _ u hu => ?_
        refine Prog.sat_bind (Q := fun identity t =>
          EarlyStage t ∧ Unrecorded (some identity) t) ?_ ?_
        · refine Prog.sat_bind (sat_early Untaken.early early_captureRepoIdentity hu)
            fun identity v hv => ?_
          have hnext := hv.1.withSnapshot .writeSnapshot (some identity) hv.2.1
          exact Prog.sat_bind (sat_aloneStep (Q := fun _ t =>
            EarlyStage t ∧ Unrecorded (some identity) t) hnext.sound ⟨hnext, rfl, hv.2.2⟩)
            fun _ _ h => h
        · intro identity v hv
          exact Prog.sat_bind (sat_early Unrecorded.early (early_maybeCrash rfl) hv)
            fun _ _ h => h
      · intro identity u hu
        exact Prog.sat_bind (sat_early Unrecorded.early
          (early_appendJournalPhase (by decide)) hu) fun _ _ h => h
    · exact ⟨ht.1, ht.2.1⟩

theorem sound_requireSnapshot {snapshot : Option StoreIdentity}
    (hs : EarlyStage s ∧ Unrecorded snapshot s) :
    (requireSnapshot snapshot : MigrationProg ι χ StoreIdentity).Sat (soundRules site input)
      (fun identity t => EarlyStage t ∧ Unrecorded (some identity) t) (fun _ => EarlyStage) s := by
  cases snapshot with
  | some identity => exact hs
  | none =>
    refine Prog.sat_bind (sat_earlyLook (N := fun stored t => Unrecorded stored t) ?_ hs.1 ?_) ?_
    · exact fun _ => Unrecorded.early
    · exact ⟨rfl, hs.2.2⟩
    · intro stored t ht
      cases stored with
      | some identity => exact ht
      | none => exact ht.1

theorem sound_checkSource {resolution : HubTaskStoreResolution} {identity : StoreIdentity}
    (hs : EarlyStage s ∧ Unrecorded (some identity) s) :
    (checkSource site input resolution identity).Sat (soundRules site input)
      (fun deferral t => EarlyStage t ∧ (deferral = none → Unrecorded (some identity) t))
      (fun _ => EarlyStage) s := by
  have hdefer : ∀ (reason : MigrationPendingReason) (phase : MigrationPhase)
      {t : StoreWorld ι χ}, EarlyStage t →
      ((deferMigration site input resolution.beadsDir reason phase).bind fun outcome =>
        .ret (some outcome)).Sat (soundRules site input)
        (fun deferral t => EarlyStage t ∧ (deferral = none → Unrecorded (some identity) t))
        (fun _ => EarlyStage) t := by
    intro reason phase t ht
    refine Prog.sat_bind (sat_early (G := fun _ => True) (fun _ _ _ _ => trivial)
      early_deferMigration ⟨ht, trivial⟩) fun outcome u hu => ?_
    exact ⟨hu.1, fun h => (by cases h)⟩
  refine Prog.sat_bind (sat_earlyLook (N := fun check t =>
    Unrecorded (some identity) t ∧ (check = true → t.quarantined = false)) ?_ hs.1 ?_) ?_
  · intro check s t h hN
    refine ⟨hN.1.early s t h, fun hcheck => ?_⟩
    rw [StoreWorld.quarantined, h.quarantine]
    exact hN.2 hcheck
  · refine ⟨hs.2, fun hcheck => ?_⟩
    simpa using (Bool.and_eq_true_iff.mp hcheck).2
  · intro check t ht
    split
    · rename_i hcheck
      have hfresh : EarlyStage t ∧ Unrecorded (some identity) t ∧ Untaken t :=
        ⟨ht.1, ht.2.1, ht.2.2 hcheck, ht.2.1.2⟩
      have hkept : ∀ s t : StoreWorld ι χ, EarlyKept s t →
          Unrecorded (some identity) s ∧ Untaken s → Unrecorded (some identity) t ∧ Untaken t :=
        fun s t h hs => ⟨hs.1.early s t h, hs.2.early s t h⟩
      refine Prog.sat_bind (sat_early hkept (quiet_attempt early_captureRepoIdentity) hfresh)
        fun current u hu => ?_
      cases current with
      | error e => exact hdefer _ _ hu.1
      | ok now =>
        dsimp only
        split
        · exact ⟨hu.1, fun _ => hu.2.1⟩
        · have hnext := hu.1.withSnapshot .removeSnapshot none hu.2.2.1
          exact Prog.sat_bind (sat_aloneStep (Q := fun _ => EarlyStage) hnext.sound hnext)
            fun _ v hv => hdefer _ _ hv
    · exact ⟨ht.1, fun _ => ht.2.1⟩

/-! ### The quarantine -/

theorem SoundLayout.rename (h : SoundLayout s) {name : RuntimeEntry}
    (hrepo : s.repo.has (.runtime name) = true) (op : MigrationOp) :
    SoundLayout { s.rename (.runtime name) with lastOp := some op } where
  fresh := by
    intro hfresh
    rw [StoreWorld.quarantined, Store.databasePresent] at hfresh
    dsimp only [StoreWorld.rename] at hfresh
    rw [Store.has_update] at hfresh
    split at hfresh
    · exact absurd (hfresh.symm.trans hrepo) (by decide)
    · rename_i hne
      obtain ⟨hmanaged, hredirect, hdb⟩ := h.fresh hfresh
      refine ⟨hmanaged, hredirect, ?_⟩
      rw [Store.databasePresent]
      dsimp only [StoreWorld.rename]
      rw [Store.has_update, if_neg hne]
      exact hdb
  repoGone := by
    intro hgone
    dsimp only [StoreWorld.rename]
    rw [Function.update_apply]
    split
    · rfl
    · rename_i hne
      refine h.repoGone ?_
      rw [StoreWorld.quarantined, Store.databasePresent] at hgone ⊢
      dsimp only [StoreWorld.rename] at hgone
      rw [Store.has_update, if_neg hne] at hgone
      exact hgone
  marker := by
    have hmarker := h.marker
    rw [Store.markerPresent] at hmarker ⊢
    dsimp only [StoreWorld.rename]
    rw [Store.has_update, if_neg (by simp)]
    exact hmarker
  runtimeOnly := by
    intro other
    dsimp only [StoreWorld.rename]
    rw [Function.update_of_ne (by simp)]
    exact h.runtimeOnly other
  active := h.active
  verified := h.verified

/-- What each pass of the loop of `quarantineLegacyStore` finds. -/
def Renaming (identity : StoreIdentity) (names : List RuntimeEntry) (s : StoreWorld ι χ) :
    Prop :=
  EarlyStage s ∧ Unrecorded (some identity) s ∧
    (Quarantined s ∨ RuntimeEntry.embeddeddolt ∈ names)

theorem sound_quarantineEntry {identity : StoreIdentity} {name : RuntimeEntry}
    {rest : List RuntimeEntry} (hs : Renaming identity (name :: rest) s) :
    (quarantineEntry name).Sat (soundRules site input) (fun _ => Renaming identity rest)
      (fun _ => EarlyStage) s := by
  obtain ⟨hstage, hunrecorded, hknown⟩ := hs
  refine Prog.sat_bind (Q := fun done t => EarlyStage t ∧
    (done = true → Renaming identity rest t)) ?_ ?_
  · -- the entry is renamed only where the quarantine lacks it
    have hkeep : s.quarantine.has (.runtime name) = true →
        Quarantined s ∨ RuntimeEntry.embeddeddolt ∈ rest := by
      intro hq
      rcases hknown with h | hmem
      · exact Or.inl h
      · rcases List.mem_cons.mp hmem with rfl | hrest
        · exact Or.inl hq
        · exact Or.inr hrest
    cases hq : s.quarantine.has (.runtime name) with
    | true =>
      have hnext : EarlyStage { s with lastOp := some (.rename name) } :=
        ⟨hstage.boundary, hstage.layout.of_op⟩
      refine sat_aloneStep ?_ ?_
      · rw [hq, Bool.true_or, if_pos rfl]
        exact hnext.sound
      · rw [hq, Bool.true_or, if_pos rfl]
        exact ⟨hnext, fun _ => ⟨hnext, hunrecorded, hkeep hq⟩⟩
    | false =>
      cases hrepo : s.repo.has (.runtime name) with
      | false =>
        have hnext : EarlyStage { s with lastOp := some (.rename name) } :=
          ⟨hstage.boundary, hstage.layout.of_op⟩
        refine sat_aloneStep ?_ ?_
        · rw [hq, hrepo, Bool.not_false, Bool.or_true, if_pos rfl]
          exact hnext.sound
        · rw [hq, hrepo, Bool.not_false, Bool.or_true, if_pos rfl]
          exact ⟨hnext, fun h => (by cases h)⟩
      | true =>
        have hnext : EarlyStage { s.rename (.runtime name) with lastOp := some (.rename name) } :=
          ⟨hstage.boundary, hstage.layout.rename hrepo _⟩
        refine sat_aloneStep ?_ ?_
        · rw [hq, hrepo, Bool.not_true, Bool.or_false, if_neg Bool.false_ne_true]
          exact hnext.sound
        · rw [hq, hrepo, Bool.not_true, Bool.or_false, if_neg Bool.false_ne_true]
          refine ⟨hnext, fun _ => ⟨hnext, hunrecorded, ?_⟩⟩
          by_cases hname : name = .embeddeddolt
          · subst hname
            exact Or.inl (quarantined_rename hrepo _)
          · rcases hknown with h | hmem
            · left
              rw [Quarantined, StoreWorld.quarantined, Store.databasePresent]
              dsimp only [StoreWorld.rename]
              rw [Store.has_update, if_neg (by simpa using Ne.symm hname)]
              exact h
            · exact Or.inr (List.mem_of_ne_of_mem (Ne.symm hname) hmem)
  · intro done t ht
    split
    · rename_i hdone
      exact ht.2 hdone
    · exact ht.1

theorem Renaming.early {identity : StoreIdentity} {names : List RuntimeEntry}
    (s t : StoreWorld ι χ) (h : EarlyKept s t)
    (hs : Unrecorded (some identity) s ∧ (Quarantined s ∨ RuntimeEntry.embeddeddolt ∈ names)) :
    Unrecorded (some identity) t ∧ (Quarantined t ∨ RuntimeEntry.embeddeddolt ∈ names) := by
  refine ⟨hs.1.early s t h, ?_⟩
  rw [Quarantined, StoreWorld.quarantined, h.quarantine]
  exact hs.2

/-- The stage ends with the database in the quarantine. -/
def Moving (identity : StoreIdentity) (s : StoreWorld ι χ) : Prop :=
  Unrecorded (some identity) s ∧ Quarantined s

theorem Moving.early {identity : StoreIdentity} (s t : StoreWorld ι χ) (h : EarlyKept s t)
    (hs : Moving identity s) : Moving identity t := by
  refine ⟨hs.1.early s t h, ?_⟩
  rw [Quarantined, StoreWorld.quarantined, h.quarantine]
  exact hs.2

theorem sound_quarantineLegacyStore {identity : StoreIdentity}
    (hs : EarlyStage s ∧ Unrecorded (some identity) s) :
    (quarantineLegacyStore input).Sat (soundRules site input)
      (fun _ t => EarlyStage t ∧ Moving identity t) (fun _ => EarlyStage) s := by
  refine Prog.sat_bind (sat_earlyLook (N := fun names t =>
    Unrecorded (some identity) t ∧ (Quarantined t ∨ RuntimeEntry.embeddeddolt ∈ names))
    (fun _ => Renaming.early) hs.1 ?_) ?_
  · refine ⟨hs.2, ?_⟩
    cases hq : s.quarantined with
    | true => exact Or.inl hq
    | false =>
      obtain ⟨-, -, hdb⟩ := hs.1.layout.fresh hq
      exact Or.inr (mem_listRuntimeEntries.mpr hdb)
  · intro names t ht
    refine Prog.sat_mono (sat_forNames (K := Renaming identity)
      (fun name rest u hu => sound_quarantineEntry hu) ht) ?_ fun _ _ h => h
    rintro _ u ⟨hstage, hunrecorded, hq | hmem⟩
    · exact ⟨hstage, hunrecorded, hq⟩
    · cases hmem

theorem sound_quarantineStage {identity : StoreIdentity}
    (hs : EarlyStage s ∧ Unrecorded (some identity) s) :
    (quarantineStage site input identity).Sat (soundRules site input)
      (fun _ t => EarlyStage t ∧ Moving identity t) (fun _ => EarlyStage) s := by
  -- where nothing is quarantined yet, the snapshot at hand leads on to the quarantine
  refine Prog.sat_bind (sat_earlyLook (N := fun progress t => Unrecorded (some identity) t ∧
    (¬ (progress.1 = some .snapshotPrepared ∨
      (progress.1 = some .legacyActive ∧ progress.2 = true)) → Quarantined t)) ?_ hs.1 ?_) ?_
  · intro progress s t h hN
    refine ⟨hN.1.early s t h, fun hcond => ?_⟩
    rw [Quarantined, StoreWorld.quarantined, h.quarantine]
    exact hN.2 hcond
  · refine ⟨hs.2, fun hcond => ?_⟩
    cases hq : s.quarantined with
    | true => exact hq
    | false =>
      obtain ⟨hmanaged, -, -⟩ := hs.1.layout.fresh hq
      refine absurd (Or.inl (derivePhase_of_snapshot ?_ hq identity)) hcond
      rw [hmanaged]
      rfl
  · intro progress t ht
    split
    · refine Prog.sat_bind (Q := fun _ t => EarlyStage t ∧ Moving identity t) ?_ fun _ u hu => ?_
      · refine Prog.sat_bind (sat_early Unrecorded.early (early_maybeCrash rfl) ⟨ht.1, ht.2.1⟩)
          fun _ u hu => ?_
        refine Prog.sat_bind (sound_quarantineLegacyStore hu) fun _ v hv => ?_
        exact Prog.sat_bind (sat_early Moving.early (early_maybeCrash rfl) hv) fun _ _ h => h
      · exact sat_early Moving.early (early_appendJournalPhase (by decide)) hu
    · rename_i hcond
      exact ⟨ht.1, ht.2.1, ht.2.2 hcond⟩

/-! ### The copy -/

/-- The side effects of an unverified store in use. -/
def lateBoundary : Option (MigrationSideEffect × FaultTiming) → Bool
  | some (.copyManaged, .after) => true
  | some (.installRedirect, _) => true
  | some (.verifyManaged, .before) => true
  | _ => false

/-- An operation that is neither a copy nor the verification. -/
def MigrationOp.plain : MigrationOp → Bool
  | .copy _ => false
  | .verify => false
  | _ => true

theorem unfinished_iff {op : MigrationOp} (hop : s.lastOp = some op) (hplain : op.plain = true) :
    Unfinished site input s ↔ lateBoundary s.boundary = true := by
  have hcopy : ¬ ∃ entry, s.lastOp = some (.copy entry) := by
    rintro ⟨entry, h⟩
    cases Option.some.inj (hop.symm.trans h)
    cases hplain
  have hverify : s.lastOp ≠ some .verify := by
    intro h
    cases Option.some.inj (hop.symm.trans h)
    cases hplain
  unfold Unfinished
  split
  · rename_i heq
    rw [heq]
    simp [lateBoundary, hcopy]
  · rename_i heq
    simp [heq, lateBoundary]
  · rename_i heq
    simp [heq, lateBoundary]
  · rename_i heq
    simp [heq, lateBoundary, Passed, hverify]
  · rename_i h₂ h₃ h₄
    unfold lateBoundary
    split
    · rename_i heq
      exact absurd heq h₂
    · rename_i heq
      exact absurd heq (h₃ _)
    · rename_i heq
      exact absurd heq h₄
    · simp

/-- What an error of a call leaves: a sound layout, or a store in use that is not verified. -/
def CallSettled (s : StoreWorld ι χ) : Prop :=
  (lateBoundary s.boundary = false ∧ SoundLayout s) ∨
    (lateBoundary s.boundary = true ∧ Exposed s)

theorem CallSettled.sound {op : MigrationOp} (h : CallSettled s) (hop : s.lastOp = some op)
    (hplain : op.plain = true) : SoundUnlessUnfinished site input s := by
  unfold SoundUnlessUnfinished
  rw [unfinished_iff hop hplain]
  rcases h with ⟨hboundary, hsound⟩ | ⟨hboundary, hexposed⟩
  · exact Or.inl ⟨by simp [hboundary], hsound⟩
  · exact Or.inr ⟨hboundary, hexposed⟩

theorem EarlyStage.settled (h : EarlyStage s) : CallSettled s := by
  refine Or.inl ⟨?_, h.layout⟩
  have hearly := h.boundary
  unfold lateBoundary
  split
  · rename_i heq
    rw [heq] at hearly
    cases hearly
  · rename_i heq
    rw [heq] at hearly
    cases hearly
  · rename_i heq
    rw [heq] at hearly
    cases hearly
  · rfl

/-- The store is in the quarantine, and the verification is still to come. -/
structure MovedStore (identity : StoreIdentity) (s : StoreWorld ι χ) : Prop where
  quarantined : Quarantined s
  repoGone : s.repo .database = none
  marker : s.repo.markerPresent = true
  runtimeOnly : ∀ name, s.quarantine (.copied name) = none
  unrecorded : Unrecorded (some identity) s

theorem MovedStore.layout {identity : StoreIdentity} (h : MovedStore identity s)
    (hactive : s.managed.markerPresent = true → VerifiedPresent s) : SoundLayout s where
  fresh := fun hfresh => absurd (h.quarantined.symm.trans hfresh) (by decide)
  repoGone := fun _ => h.repoGone
  marker := h.marker
  runtimeOnly := h.runtimeOnly
  active := hactive
  verified := fun hverified => absurd hverified h.unrecorded.2

/-- Between the removal of the managed store and the end of the copy.

- `databaseFirst`: the marker is copied after the database. -/
structure Copying (identity : StoreIdentity) (s : StoreWorld ι χ) : Prop
    extends MovedStore identity s where
  boundary : s.boundary = some (.copyManaged, .before)
  unverified : s.verifiedStore = none
  databaseFirst : s.managed.markerPresent = true → s.managed.databasePresent = true

theorem Copying.sound {identity : StoreIdentity} (h : Copying identity s)
    (hcopy : s.managed.markerPresent = true → ∃ entry, s.lastOp = some (.copy entry)) :
    SoundUnlessUnfinished site input s := by
  have hiff : Unfinished site input s ↔ (∃ entry, s.lastOp = some (.copy entry)) ∧
      s.managed.markerPresent = true := by
    rw [Unfinished, h.boundary]
  cases hmarker : s.managed.markerPresent with
  | true =>
    refine Or.inr ⟨hiff.mpr ⟨hcopy hmarker, hmarker⟩, ?_, h.unverified⟩
    exact Store.fullyInitialized_iff.mpr ⟨hmarker, h.databaseFirst hmarker⟩
  | false =>
    refine Or.inl ⟨fun hunfinished => ?_, h.layout fun hm => ?_⟩
    · exact absurd (hmarker.symm.trans (hiff.mp hunfinished).2) (by decide)
    · exact absurd (hmarker.symm.trans hm) (by decide)

/-- What a copy of an entry leaves in the managed store. -/
def copiedStore (managed from_ : Store χ) (entry : StoreEntry) : Store χ :=
  if managed.has entry || !from_.has entry then managed
  else Function.update managed entry (from_ entry)

theorem has_copiedStore {managed from_ : Store χ} {entry other : StoreEntry} :
    (copiedStore managed from_ entry).has other =
      (managed.has other || (other == entry && from_.has other)) := by
  unfold copiedStore
  cases hm : managed.has entry with
  | true =>
    rw [Bool.true_or, if_pos rfl]
    by_cases heq : other = entry
    · subst heq
      rw [hm, Bool.true_or]
    · simp [heq]
  | false =>
    cases hf : from_.has entry with
    | false =>
      rw [Bool.not_false, Bool.or_true, if_pos rfl]
      by_cases heq : other = entry
      · subst heq
        simp [hf]
      · simp [heq]
    | true =>
      rw [Bool.not_true, Bool.or_false, if_neg Bool.false_ne_true, Store.has_update]
      by_cases heq : other = entry
      · subst heq
        rw [if_pos rfl]
        have hfrom : (from_ other).isSome = true := hf
        simp [hfrom, hf]
      · simp [heq]

theorem sound_copyEntry {identity : StoreIdentity} {from_ : StoreDir} {entry : StoreEntry}
    {E : MigrationError → StoreWorld ι χ → Prop} (hs : Copying identity s)
    (hfirst : (copiedStore s.managed (s.store from_) entry).markerPresent = true →
      (copiedStore s.managed (s.store from_) entry).databasePresent = true)
    {N : StoreWorld ι χ → Prop}
    (hN : ∀ t : StoreWorld ι χ, t.managed = copiedStore s.managed (s.store from_) entry → N t) :
    (copyEntry from_ entry).Sat (soundRules site input)
      (fun _ t => Copying identity t ∧ N t) E s := by
  have hcopied : (if s.managed.has entry || !(s.store from_).has entry then s
      else { s with managed := Function.update s.managed entry (s.store from_ entry) }) =
      { s with managed := copiedStore s.managed (s.store from_) entry } := by
    unfold copiedStore
    split
    · rfl
    · rfl
  have hnext : Copying identity { s with
      managed := copiedStore s.managed (s.store from_) entry, lastOp := some (.copy entry) } :=
    { quarantined := hs.quarantined, repoGone := hs.repoGone, marker := hs.marker,
      runtimeOnly := hs.runtimeOnly, unrecorded := hs.unrecorded, boundary := hs.boundary,
      unverified := hs.unverified, databaseFirst := hfirst }
  refine sat_aloneStep ?_ ?_
  · rw [hcopied]
    exact hnext.sound fun _ => ⟨entry, rfl⟩
  · rw [hcopied]
    exact ⟨hnext, hN _ rfl⟩

theorem sound_copyManagedStore {identity : StoreIdentity}
    (hs : Copying identity s ∧ s.managed.markerPresent = false) :
    (copyManagedStore input).Sat (soundRules site input)
      (fun _ t => Copying identity t ∧ t.managed.fullyInitialized = true)
      (fun _ => CallSettled) s := by
  refine Prog.sat_bind (Q := fun names t => Copying identity t ∧ t.managed.markerPresent = false ∧
    StoreEntry.database ∈ names) ?_ ?_
  · have hnext : Copying identity { s with lastOp := some .read } :=
      { quarantined := hs.1.quarantined, repoGone := hs.1.repoGone, marker := hs.1.marker,
        runtimeOnly := hs.1.runtimeOnly, unrecorded := hs.1.unrecorded,
        boundary := hs.1.boundary, unverified := hs.1.unverified,
        databaseFirst := hs.1.databaseFirst }
    refine sat_aloneStep (hnext.sound fun hm => absurd (hs.2.symm.trans hm) (by decide)) ?_
    refine ⟨hnext, hs.2, ?_⟩
    exact List.mem_filter.mpr ⟨input.listing.complete _, hs.1.quarantined⟩
  intro names t ht
  -- the quarantine has no marker, so the first loop copies none
  refine Prog.sat_bind (Q := fun _ t => Copying identity t ∧
    t.managed.databasePresent = true) ?_ ?_
  · refine Prog.sat_mono (sat_forNames (K := fun names t => Copying identity t ∧
      t.managed.markerPresent = false ∧
      (t.managed.databasePresent = true ∨ StoreEntry.database ∈ names)) ?_ ?_)
      ?_ fun _ _ h => h
    · rintro entry rest u ⟨hu, hmarker, hdb⟩
      have hnone : (copiedStore u.managed (u.store .quarantine) entry).markerPresent = false := by
        have hq : Store.has (u.store .quarantine) .metadata = false :=
          Option.isSome_eq_false_iff.mpr (Option.isNone_iff_eq_none.mpr (hu.runtimeOnly _))
        rw [Store.markerPresent, has_copiedStore, hq, Bool.and_false, Bool.or_false]
        exact hmarker
      refine sound_copyEntry hu (fun hm => absurd (hnone.symm.trans hm) (by decide)) ?_
      intro v hv
      rw [hv]
      refine ⟨hnone, ?_⟩
      rw [Store.databasePresent, has_copiedStore]
      rcases hdb with h | hmem
      · left
        rw [Bool.or_eq_true]
        exact Or.inl h
      · rcases List.mem_cons.mp hmem with rfl | hrest
        · left
          have hq : Store.has (u.store .quarantine) .database = true := hu.quarantined
          rw [hq]
          simp
        · exact Or.inr hrest
    · exact ⟨ht.1, ht.2.1, Or.inr ht.2.2⟩
    · rintro _ u ⟨hu, -, hdb | hmem⟩
      · exact ⟨hu, hdb⟩
      · cases hmem
  · intro _ u hu
    refine Prog.sat_mono (sat_forNames (K := fun names t => Copying identity t ∧
      t.managed.databasePresent = true ∧
      (t.managed.markerPresent = true ∨ StoreCopyName.metadataJson ∈ names)) ?_ ?_)
      ?_ fun _ _ h => h
    · rintro name rest v ⟨hv, hdb, hmarker⟩
      have hdb' : ∀ store : Store χ, store = copiedStore v.managed (v.store .repo) (.copied name) →
          store.databasePresent = true := by
        rintro store rfl
        rw [Store.databasePresent, has_copiedStore, Bool.or_eq_true]
        exact Or.inl hdb
      refine sound_copyEntry hv (fun _ => hdb' _ rfl) ?_
      intro w hw
      refine ⟨hdb' _ hw, ?_⟩
      rw [hw, Store.markerPresent, has_copiedStore]
      rcases hmarker with h | hmem
      · left
        rw [Bool.or_eq_true]
        exact Or.inl h
      · rcases List.mem_cons.mp hmem with rfl | hrest
        · left
          have hrepo : Store.has (v.store .repo) .metadata = true := hv.marker
          rw [hrepo]
          simp
        · exact Or.inr hrest
    · exact ⟨hu.1, hu.2, Or.inr (by decide)⟩
    · rintro _ v ⟨hv, hdb, hmarker | hmem⟩
      · exact ⟨hv, Store.fullyInitialized_iff.mpr ⟨hmarker, hdb⟩⟩
      · cases hmem

/-- A copied store that is in use before its verification. -/
structure Late (identity : StoreIdentity) (s : StoreWorld ι χ) : Prop
    extends MovedStore identity s where
  boundary : lateBoundary s.boundary = true
  exposed : Exposed s

theorem Late.settled {identity : StoreIdentity} (h : Late identity s) : CallSettled s :=
  Or.inr ⟨h.boundary, h.exposed⟩

structure LateMove (s t : StoreWorld ι χ) : Prop where
  repo : t.repo = s.repo
  managed : t.managed = s.managed
  quarantine : t.quarantine = s.quarantine
  redirect : s.redirect = true → t.redirect = true
  verifiedStore : t.verifiedStore = s.verifiedStore
  snapshot : t.snapshot = s.snapshot
  verified : .verified ∈ t.phases ↔ .verified ∈ s.phases
  boundary : t.boundary = s.boundary ∨ lateBoundary t.boundary = true
  op : ∃ op, t.lastOp = some op ∧ op.plain = true

theorem Late.move {identity : StoreIdentity} (h : Late identity s) (hmove : LateMove s t) :
    Late identity t where
  quarantined := by
    rw [Quarantined, StoreWorld.quarantined, hmove.quarantine]
    exact h.quarantined
  repoGone := by
    rw [hmove.repo]
    exact h.repoGone
  marker := by
    rw [hmove.repo]
    exact h.marker
  runtimeOnly := by
    rw [hmove.quarantine]
    exact h.runtimeOnly
  unrecorded := ⟨hmove.snapshot.trans h.unrecorded.1,
    fun hverified => h.unrecorded.2 (hmove.verified.mp hverified)⟩
  boundary := by
    rcases hmove.boundary with heq | hlate
    · rw [heq]
      exact h.boundary
    · exact hlate
  exposed := by
    refine ⟨?_, hmove.verifiedStore.trans h.exposed.unverified⟩
    rw [hmove.managed]
    exact h.exposed.managed

theorem sat_late {p : MigrationProg ι χ α} {identity : StoreIdentity}
    {G : StoreWorld ι χ → Prop} (hG : ∀ s t, LateMove s t → G s → G t) (h : p.Always LateMove)
    (hs : Late identity s ∧ G s) :
    p.Sat (soundRules site input) (fun _ t => Late identity t ∧ G t) (fun _ => CallSettled) s := by
  refine Prog.sat_mono (h.sat_alone (K := fun s => Late identity s ∧ G s)
    (fun s t _ hK hstep => ?_) hs) (fun _ _ h => h) fun _ _ h => h.1.settled
  have hnext := hK.1.move hstep
  obtain ⟨op, hop, hplain⟩ := hstep.op
  exact ⟨trivial, hnext.settled.sound hop hplain, hnext, hG s t hstep hK.2⟩

theorem late_appendJournalPhase {phase : MigrationPhase} {fingerprint : Option String}
    (h : phase ≠ .verified) :
    (appendJournalPhase phase fingerprint : MigrationProg ι χ Unit).Always LateMove := by
  refine always_migrationStep fun s => ?_
  split
  · exact { repo := rfl, managed := rfl, quarantine := rfl, redirect := id, verifiedStore := rfl,
            snapshot := rfl, verified := Iff.rfl, boundary := Or.inl rfl,
            op := ⟨.journal, rfl, rfl⟩ }
  · exact { repo := rfl, managed := rfl, quarantine := rfl, redirect := id, verifiedStore := rfl,
            snapshot := rfl
            verified := (quiet_journal s fun heq => h (Option.some.inj heq)).verified
            boundary := Or.inl rfl, op := ⟨.journal, rfl, rfl⟩ }

theorem late_maybeCrash {sideEffect : MigrationSideEffect} {timing : FaultTiming}
    (h : lateBoundary (some (sideEffect, timing)) = true) :
    (maybeCrash input sideEffect timing).Always LateMove := by
  refine Prog.always_bind (always_migrationStep fun s => ?_) fun _ => ?_
  · exact { repo := rfl, managed := rfl, quarantine := rfl, redirect := id, verifiedStore := rfl,
            snapshot := rfl, verified := Iff.rfl, boundary := Or.inr h,
            op := ⟨.boundary sideEffect timing, rfl, rfl⟩ }
  · dsimp only
    split
    · split <;> trivial
    · split <;> trivial

theorem needsCopy_of_unrecorded {identity : StoreIdentity} (hq : s.quarantined = true)
    (hunverified : .verified ∉ s.phases) : needsCopy site s identity = true := by
  have hphase : derivePhase site s (some identity) = some .legacyQuarantined ∨
      derivePhase site s (some identity) = some .managedCopied ∨
      derivePhase site s (some identity) = some .redirectInstalled := by
    rw [derivePhase_eq, evidence_of_quarantined hq, if_neg hunverified, if_pos hq]
    split
    · exact Or.inr (Or.inr rfl)
    · split
      · exact Or.inr (Or.inl rfl)
      · exact Or.inl rfl
  rcases hphase with h | h | h
  · simp [needsCopy, hq, hunverified, h]
  · simp [needsCopy, hq, hunverified, h]
  · simp [needsCopy, hq, hunverified, h]

theorem Moving.moved {identity : StoreIdentity} (hlayout : SoundLayout s)
    (h : Moving identity s) : MovedStore identity s where
  quarantined := h.2
  repoGone := hlayout.repoGone h.2
  marker := hlayout.marker
  runtimeOnly := hlayout.runtimeOnly
  unrecorded := h.1

theorem sound_copyStage {identity : StoreIdentity} (hs : EarlyStage s ∧ Moving identity s) :
    (copyStage site input identity).Sat (soundRules site input)
      (fun _ => Late identity) (fun _ => CallSettled) s := by
  refine Prog.sat_bind (sat_earlyLook (N := fun copy t => copy = true ∧ Moving identity t)
    (fun copy s t h hN => ⟨hN.1, hN.2.early s t h⟩) hs.1
    ⟨needsCopy_of_unrecorded hs.2.2 hs.2.1.2, hs.2⟩) ?_
  rintro copy t ⟨hstage, hcopy, hmoving⟩
  rw [if_pos hcopy]
  refine Prog.sat_bind (Q := fun _ => Late identity) ?_ fun _ u hu => ?_
  · have hmoved := hmoving.moved hstage.layout
    -- the position before the copy is still a sound one
    have hbefore : SoundLayout { t with
        boundary := some (.copyManaged, .before),
        lastOp := some (.boundary .copyManaged .before) } :=
      ⟨hstage.layout.fresh, hstage.layout.repoGone, hstage.layout.marker,
        hstage.layout.runtimeOnly, hstage.layout.active, hstage.layout.verified⟩
    refine Prog.sat_bind (Q := fun _ u => MovedStore identity u ∧ SoundLayout u ∧
      u.boundary = some (.copyManaged, .before)) ?_ ?_
    · refine Prog.sat_bind (sat_aloneStep (Q := fun _ u => MovedStore identity u ∧
        SoundLayout u ∧ u.boundary = some (.copyManaged, .before)) ?_ ⟨?_, hbefore, rfl⟩) ?_
      · exact CallSettled.sound (Or.inl ⟨rfl, hbefore⟩) rfl rfl
      · exact ⟨hmoved.quarantined, hmoved.repoGone, hmoved.marker, hmoved.runtimeOnly,
          hmoved.unrecorded⟩
      · rintro _ u ⟨hu, hsound, hboundary⟩
        dsimp only
        split
        · exact Or.inl ⟨by rw [hboundary]; rfl, hsound⟩
        · exact ⟨hu, hsound, hboundary⟩
    · rintro _ u ⟨hu, hsound, hboundary⟩
      refine Prog.sat_bind (Q := fun _ t => Copying identity t ∧
        t.managed.fullyInitialized = true) ?_ ?_
      · have hempty : Copying identity { u with
            managed := .empty, verifiedStore := none, lastOp := some .removeManaged } :=
          { quarantined := hu.quarantined, repoGone := hu.repoGone, marker := hu.marker,
            runtimeOnly := hu.runtimeOnly, unrecorded := hu.unrecorded, boundary := hboundary,
            unverified := rfl, databaseFirst := fun h => by cases h }
        exact Prog.sat_bind (sat_aloneStep (Q := fun _ t => Copying identity t ∧
          t.managed.markerPresent = false) (hempty.sound fun h => by cases h) ⟨hempty, rfl⟩)
          fun _ v hv => sound_copyManagedStore hv
      · rintro _ v ⟨hv, hfull⟩
        have hlate : Late identity { v with
            boundary := some (.copyManaged, .after),
            lastOp := some (.boundary .copyManaged .after) } :=
          { quarantined := hv.quarantined, repoGone := hv.repoGone, marker := hv.marker,
            runtimeOnly := hv.runtimeOnly, unrecorded := hv.unrecorded, boundary := rfl,
            exposed := ⟨hfull, hv.unverified⟩ }
        refine Prog.sat_bind (Q := fun _ => Late identity) ?_ fun _ _ h => h
        refine Prog.sat_bind (sat_aloneStep (Q := fun _ => Late identity)
          (hlate.settled.sound rfl rfl) hlate) fun _ w hw => ?_
        dsimp only
        split
        · exact hw.settled
        · exact hw
  · exact Prog.sat_mono (sat_late (G := fun _ => True) (fun _ _ _ _ => trivial)
      (late_appendJournalPhase (by decide)) ⟨hu, trivial⟩) (fun _ _ h => h.1) fun _ _ h => h

/-! ### The redirect and the verification -/

theorem sound_redirectStage {identity : StoreIdentity} (hs : Late identity s) :
    (redirectStage site input identity).Sat (soundRules site input)
      (fun _ t => Late identity t ∧ t.redirect = true) (fun _ => CallSettled) s := by
  have hkept : ∀ s t : StoreWorld ι χ, LateMove s t → s.redirect = true → t.redirect = true :=
    fun _ _ h => h.redirect
  refine Prog.sat_bind (Q := fun install t => Late identity t ∧
    (install = false → t.redirect = true)) ?_ ?_
  · have hnext : Late identity { s with lastOp := some .read } :=
      hs.move { repo := rfl, managed := rfl, quarantine := rfl, redirect := id,
                verifiedStore := rfl, snapshot := rfl, verified := Iff.rfl,
                boundary := Or.inl rfl, op := ⟨.read, rfl, rfl⟩ }
    refine sat_aloneStep (hnext.settled.sound rfl rfl) ⟨hnext, fun hinstall => ?_⟩
    have hboth := Bool.or_eq_false_iff.mp (Bool.or_eq_false_iff.mp hinstall).1
    have hkind : (resolveHubTaskStore site s).kind = .redirect := by simpa using hboth.1
    exact resolve_kind_redirect.mp hkind
  · intro install t ht
    split
    · refine Prog.sat_bind (Q := fun _ t => Late identity t ∧ t.redirect = true) ?_ fun _ u hu =>
        sat_late hkept (late_appendJournalPhase (by decide)) hu
      refine Prog.sat_bind (sat_late (G := fun _ => True) (fun _ _ _ _ => trivial)
        (late_maybeCrash rfl) ⟨ht.1, trivial⟩) fun _ u hu => ?_
      refine Prog.sat_bind (Q := fun _ t => Late identity t ∧ t.redirect = true) ?_ fun _ v hv => ?_
      · have hnext : Late identity { u with redirect := true, lastOp := some .installRedirect } :=
          hu.1.move { repo := rfl, managed := rfl, quarantine := rfl, redirect := fun _ => rfl,
                      verifiedStore := rfl, snapshot := rfl, verified := Iff.rfl,
                      boundary := Or.inl rfl, op := ⟨.installRedirect, rfl, rfl⟩ }
        exact sat_aloneStep (hnext.settled.sound rfl rfl) ⟨hnext, rfl⟩
      · exact Prog.sat_bind (sat_late hkept (late_maybeCrash rfl) hv) fun _ _ h => h
    · rename_i hinstall
      exact ⟨ht.1, ht.2 (Bool.eq_false_iff.mpr hinstall)⟩

/-- The verification has passed, and its side effect is over. -/
structure Completed (s : StoreWorld ι χ) : Prop where
  boundary : s.boundary = some (.verifyManaged, .after)
  layout : SoundLayout s
  quarantined : Quarantined s
  redirect : s.redirect = true
  managed : s.managed.fullyInitialized = true

theorem Completed.settled (h : Completed s) : CallSettled s :=
  Or.inl ⟨by rw [h.boundary]; rfl, h.layout⟩

theorem unfinished_verifying (h : s.boundary = some (.verifyManaged, .before)) :
    Unfinished site input s ↔ ¬ Passed site input s := by
  rw [Unfinished, h]

theorem sound_verifyManagedStore {identity : StoreIdentity}
    (hs : (Late identity s ∧ s.redirect = true) ∧ s.boundary = some (.verifyManaged, .before)) :
    (verifyManagedStore site input identity).Sat (soundRules site input)
      (fun _ t => SoundLayout t ∧ Quarantined t ∧ t.redirect = true ∧
        t.managed.fullyInitialized = true) (fun _ => CallSettled) s := by
  obtain ⟨⟨hlate, hredirect⟩, hboundary⟩ := hs
  refine Prog.sat_bind (Q := fun error t => (error.isSome = true → CallSettled t) ∧
    (error = none → SoundLayout t ∧ Quarantined t ∧ t.redirect = true ∧
      t.managed.fullyInitialized = true)) ?_ ?_
  · cases herror : managedStoreError site input identity s.managed with
    | some e =>
      have hexposed : Exposed { s with lastOp := some .verify } :=
        ⟨hlate.exposed.managed, hlate.exposed.unverified⟩
      refine sat_aloneStep ?_ ?_
      · rw [herror, Option.isSome_some, if_pos rfl]
        refine Or.inr ⟨(unfinished_verifying ?_).mpr ?_, hexposed⟩
        · exact hboundary
        · rintro ⟨-, other, hother, hpass⟩
          obtain rfl := Option.some.inj (hlate.unrecorded.1.symm.trans hother)
          cases herror.symm.trans hpass
      · rw [herror, Option.isSome_some, if_pos rfl]
        exact ⟨fun _ => Or.inr ⟨hlate.boundary, hexposed⟩, fun h => (by cases h)⟩
    | none =>
      have hlayout : SoundLayout { s with
          verifiedStore := some (s.managed, identity), lastOp := some .verify } :=
        { fresh := fun h => absurd (hlate.quarantined.symm.trans h) (by decide)
          repoGone := fun _ => hlate.repoGone
          marker := hlate.marker
          runtimeOnly := hlate.runtimeOnly
          active := fun _ => ⟨identity, hlate.unrecorded.1, rfl⟩
          verified := fun h => absurd h hlate.unrecorded.2 }
      refine sat_aloneStep ?_ ?_
      · rw [herror, Option.isSome_none, if_neg Bool.false_ne_true]
        refine Or.inl ⟨fun h => (unfinished_verifying ?_).mp h ?_, hlayout⟩
        · exact hboundary
        · exact ⟨rfl, identity, hlate.unrecorded.1, herror⟩
      · rw [herror, Option.isSome_none, if_neg Bool.false_ne_true]
        exact ⟨fun h => (by cases h),
          fun _ => ⟨hlayout, hlate.quarantined, hredirect, hlate.exposed.managed⟩⟩
  · intro error t ht
    cases error with
    | some e => exact ht.1 rfl
    | none => exact ht.2 rfl

theorem sat_completed {op : MigrationOp} {upd : StoreWorld ι χ → StoreWorld ι χ}
    {answer : StoreWorld ι χ → α} (hop : op.plain = true)
    (h : Completed { upd s with lastOp := some op }) :
    (migrationStep op upd answer).Sat (soundRules site input)
      (fun _ => Completed) (fun _ => CallSettled) s :=
  sat_aloneStep (h.settled.sound rfl hop) h

theorem sound_verifyStage {identity : StoreIdentity}
    (hs : Late identity s ∧ s.redirect = true) :
    (verifyStage site input identity).Sat (soundRules site input)
      (fun _ => CallSettled) (fun _ => CallSettled) s := by
  refine Prog.sat_bind (Q := fun _ => Completed) ?_ fun _ t ht => ?_
  · refine Prog.sat_bind (Q := fun _ t => (Late identity t ∧ t.redirect = true) ∧
      t.boundary = some (.verifyManaged, .before)) ?_ fun _ t ht => ?_
    · have hnext : Late identity { s with
          boundary := some (.verifyManaged, .before),
          lastOp := some (.boundary .verifyManaged .before) } :=
        hs.1.move { repo := rfl, managed := rfl, quarantine := rfl, redirect := id,
                    verifiedStore := rfl, snapshot := rfl, verified := Iff.rfl,
                    boundary := Or.inr rfl, op := ⟨_, rfl, rfl⟩ }
      refine Prog.sat_bind (sat_aloneStep (Q := fun _ t => (Late identity t ∧
        t.redirect = true) ∧ t.boundary = some (.verifyManaged, .before))
        (hnext.settled.sound rfl rfl) ⟨⟨hnext, hs.2⟩, rfl⟩) fun _ u hu => ?_
      dsimp only
      split
      · exact hu.1.1.settled
      · exact hu
    · refine Prog.sat_bind (sound_verifyManagedStore ht) fun _ u hu => ?_
      refine Prog.sat_bind (Q := fun _ => Completed) ?_ fun _ _ h => h
      refine Prog.sat_bind (sat_completed rfl ?_) fun _ v hv => ?_
      · exact { boundary := rfl, quarantined := hu.2.1, redirect := hu.2.2.1,
                managed := hu.2.2.2
                layout := ⟨hu.1.fresh, hu.1.repoGone, hu.1.marker, hu.1.runtimeOnly,
                  hu.1.active, hu.1.verified⟩ }
      · dsimp only
        split
        · exact hv.settled
        · exact hv
  · refine Prog.sat_bind (Q := fun _ => Completed) (sat_completed rfl ?_) fun _ u hu => ?_
    · -- the record of the verification finds the redirect and the store in place
      split
      · exact { boundary := ht.boundary, quarantined := ht.quarantined, redirect := ht.redirect,
                managed := ht.managed, layout := ht.layout.of_op }
      · exact { boundary := ht.boundary, quarantined := ht.quarantined, redirect := ht.redirect,
                managed := ht.managed
                layout := ⟨ht.layout.fresh, ht.layout.repoGone, ht.layout.marker,
                  ht.layout.runtimeOnly, ht.layout.active,
                  fun _ => ⟨ht.redirect, ht.managed⟩⟩ }
    · refine Prog.sat_mono (sat_completed rfl ?_) (fun _ _ h => h.settled) fun _ _ h => h
      exact { boundary := hu.boundary, quarantined := hu.quarantined, redirect := hu.redirect,
              managed := hu.managed
              layout := ⟨hu.layout.fresh, hu.layout.repoGone, hu.layout.marker,
                hu.layout.runtimeOnly, hu.layout.active, hu.layout.verified⟩ }

/-! ### The call -/

theorem sound_moveStore {identity : StoreIdentity}
    (hs : EarlyStage s ∧ Unrecorded (some identity) s) :
    (moveStore site input identity).Sat (soundRules site input)
      (fun _ => CallSettled) (fun _ => CallSettled) s := by
  have hearly : ∀ (e : MigrationError) (t : StoreWorld ι χ), EarlyStage t → CallSettled t :=
    fun _ _ h => h.settled
  refine Prog.sat_bind (Prog.sat_mono (sound_quarantineStage hs) (fun _ _ h => h) hearly)
    fun _ t ht => ?_
  refine Prog.sat_bind (sound_copyStage ht) fun _ u hu => ?_
  refine Prog.sat_bind (sound_redirectStage hu) fun _ v hv => ?_
  exact Prog.sat_bind (sound_verifyStage hv) fun _ _ h => h

theorem sound_migrateUnderLease {resolution : HubTaskStoreResolution}
    (hs : EarlyStage s ∧ .verified ∉ s.phases) :
    (migrateUnderLease site input resolution).Sat (soundRules site input)
      (fun _ => CallSettled) (fun _ => CallSettled) s := by
  have hearly : ∀ (e : MigrationError) (t : StoreWorld ι χ), EarlyStage t → CallSettled t :=
    fun _ _ h => h.settled
  refine Prog.sat_bind (sat_earlyLook (N := Unrecorded) (fun _ => Unrecorded.early) hs.1
    ⟨rfl, hs.2⟩) fun stored t ht => ?_
  refine Prog.sat_bind (Prog.sat_mono (sat_early Unrecorded.early early_recordLegacyActive ht)
    (fun _ _ h => h) hearly) fun deferral u hu => ?_
  cases deferral with
  | some outcome => exact hu.1.settled
  | none =>
    refine Prog.sat_bind (Prog.sat_mono (sound_prepareSnapshot hu) (fun _ _ h => h) hearly)
      fun snapshot v hv => ?_
    refine Prog.sat_bind (Prog.sat_mono (sound_requireSnapshot hv) (fun _ _ h => h) hearly)
      fun identity w hw => ?_
    refine Prog.sat_bind (Prog.sat_mono (sound_checkSource hw) (fun _ _ h => h) hearly)
      fun deferral x hx => ?_
    cases deferral with
    | some outcome => exact hx.1.settled
    | none => exact sound_moveStore ⟨hx.1, hx.2 rfl⟩

variable [DecidableEq ι]

omit [DecidableEq ι] in
theorem CallSettled.lease (h : CallSettled s) {inside : ι → Bool} {lease : Option Nat}
    {op : MigrationOp} :
    CallSettled { s with inside := inside, lease := lease, lastOp := some op } := by
  rcases h with ⟨hboundary, hsound⟩ | ⟨hboundary, hexposed⟩
  · exact Or.inl ⟨hboundary, hsound.fresh, hsound.repoGone, hsound.marker, hsound.runtimeOnly,
      hsound.active, hsound.verified⟩
  · exact Or.inr ⟨hboundary, hexposed.managed, hexposed.unverified⟩

theorem sound_releaseMigrationLease (hs : CallSettled s) :
    (releaseMigrationLease input).Sat (soundRules site input)
      (fun _ => CallSettled) (fun _ => CallSettled) s :=
  sat_aloneStep (hs.lease.sound rfl rfl) hs.lease

theorem early_acquireMigrationLease :
    (acquireMigrationLease input : MigrationProg ι χ Bool).Always EarlyKept := by
  refine Prog.always_bind (early_step fun _ => ⟨_, _, _, rfl⟩) fun owner => ?_
  split
  · trivial
  · exact Prog.always_bind (early_step fun _ => ⟨_, _, _, rfl⟩) fun _ => trivial

theorem sound_attemptMigration {resolution : HubTaskStoreResolution}
    {phase : Option MigrationPhase} {quarantinePresent : Bool}
    (hs : EarlyStage s ∧ .verified ∉ s.phases) :
    (attemptMigration site input resolution phase quarantinePresent).Sat (soundRules site input)
      (fun _ => CallSettled) (fun _ => CallSettled) s := by
  have hkept : ∀ s t : StoreWorld ι χ, EarlyKept s t → .verified ∉ s.phases →
      .verified ∉ t.phases := fun s t h hs hverified => hs (h.verified.mp hverified)
  have hearly : ∀ (e : MigrationError) (t : StoreWorld ι χ), EarlyStage t → CallSettled t :=
    fun _ _ h => h.settled
  refine Prog.sat_bind (Prog.sat_mono (sat_early hkept
    (early_step fun _ => ⟨_, _, _, rfl⟩) hs) (fun _ _ h => h) hearly) fun blocking t ht => ?_
  cases blocking with
  | some pending => exact ht.1.settled
  | none =>
    refine Prog.sat_bind (Prog.sat_mono (sat_early hkept early_captureBeforeLease ht)
      (fun _ _ h => h) hearly) fun stop u hu => ?_
    cases stop with
    | some outcome => exact hu.1.settled
    | none =>
      refine Prog.sat_bind (Prog.sat_mono (sat_early hkept early_acquireMigrationLease hu)
        (fun _ _ h => h) hearly) fun acquired v hv => ?_
      cases acquired with
      | false =>
        exact Prog.sat_bind (Prog.sat_mono (sat_early hkept early_deferMigration hv)
          (fun _ _ h => h) hearly) fun _ _ h => h.1.settled
      | true =>
        exact Prog.sat_finallyDo (sound_migrateUnderLease hv)
          (fun _ _ h => sound_releaseMigrationLease h)
          fun _ _ h => sound_releaseMigrationLease h

/-- Each step of a call from a sound layout leaves one, unless the call stops there
unfinished. -/
theorem sound_ensureHubTaskStoreMigrated (hs : EarlyStage s) :
    (ensureHubTaskStoreMigrated site input).Sat (soundRules site input)
      (fun _ => CallSettled) (fun _ => CallSettled) s := by
  have hearly : ∀ (e : MigrationError) (t : StoreWorld ι χ), EarlyStage t → CallSettled t :=
    fun _ _ h => h.settled
  have hkept : ∀ (kind : HubTaskStoreKind) (s t : StoreWorld ι χ), EarlyKept s t →
      (s.redirect = true → kind = .redirect) → t.redirect = true → kind = .redirect := by
    intro kind s t h hs hredirect
    exact hs (h.redirect.symm.trans hredirect)
  unfold ensureHubTaskStoreMigrated
  split
  · exact hs.settled
  refine Prog.sat_bind (sat_earlyLook (N := fun resolution t =>
    t.redirect = true → resolution.kind = .redirect) (fun resolution => hkept resolution.kind) hs
    fun hredirect => resolve_kind_redirect.mpr hredirect) fun resolution t ht => ?_
  cases resolution.redirectError with
  | some message => exact ht.1.settled
  | none =>
    refine Prog.sat_bind (Prog.sat_mono (sat_early (hkept resolution.kind) early_look ht)
      (fun _ _ h => h) hearly) fun splitBrain u hu => ?_
    split
    · exact Prog.sat_bind (Prog.sat_mono (sat_early (hkept resolution.kind)
        (early_appendJournalRecord (by simp)) hu) (fun _ _ h => h) hearly)
        fun _ _ h => h.1.settled
    -- where the verification is recorded, the call sees the redirect and stops
    refine Prog.sat_bind (sat_earlyLook (N := fun inspection t =>
      .verified ∈ t.phases → inspection.1 = some .verified ∧ resolution.kind = .redirect) ?_ hu.1
      ?_) fun inspection v hv => ?_
    · exact fun inspection s t h hN hverified => hN (h.verified.mp hverified)
    · intro hverified
      obtain ⟨hredirect, hfull⟩ := hu.1.layout.verified hverified
      refine ⟨?_, hu.2 hredirect⟩
      rw [derivePhase_eq, if_pos ⟨hredirect, hfull⟩, if_pos hverified]
    split
    · exact hv.1.settled
    · rename_i hnot
      split
      · exact hv.1.settled
      · refine sound_attemptMigration ⟨hv.1, fun hverified => hnot ?_⟩
        obtain ⟨hphase, hkind⟩ := hv.2 hverified
        rw [hkind]
        exact ⟨hphase, rfl⟩

omit [DecidableEq ι] in
theorem soundLayout_legacy (h : LegacyProject s) : SoundLayout s where
  fresh := fun _ => ⟨h.managed, h.redirect, (Store.fullyInitialized_iff.mp h.repo).2⟩
  repoGone := by
    intro hq
    rw [StoreWorld.quarantined, h.quarantine] at hq
    cases hq
  marker := (Store.fullyInitialized_iff.mp h.repo).1
  runtimeOnly := by
    intro name
    rw [h.quarantine]
    rfl
  active := by
    intro hmarker
    rw [h.managed] at hmarker
    cases hmarker
  verified := by
    intro hverified
    rw [StoreWorld.phases, h.journal] at hverified
    obtain ⟨record, hmem, -⟩ := mem_readJournalPhases.mp hverified
    cases hmem

theorem SoundLayout.stopAfter (h : SoundLayout s) (site : StoreSite) (input : MigrationInput ι χ)
    (n : Nat) : SoundUnlessUnfinished site input (stopAfter site input n s) := by
  have hstage : EarlyStage { s with boundary := none, lastOp := none } :=
    ⟨rfl, h.fresh, h.repoGone, h.marker, h.runtimeOnly, h.active, h.verified⟩
  exact (sound_ensureHubTaskStoreMigrated hstage).crashAfter hstage.sound n

theorem FinishedCalls.sound (h : FinishedCalls site s) : SoundLayout s := by
  induction h with
  | legacy h => exact soundLayout_legacy h
  | call h input n hfinished ih =>
    rcases ih.stopAfter site input n with ⟨-, hsound⟩ | ⟨hunfinished, -⟩
    · exact hsound
    · exact absurd hunfinished hfinished
  | processes h alive life doltServerPid ih =>
    exact ⟨ih.fresh, ih.repoGone, ih.marker, ih.runtimeOnly, ih.active, ih.verified⟩

/-- After calls that did not stop unfinished, the store in use is a verified one, and a further
call leaves it so exactly when it does not stop unfinished either. -/
theorem activeVerified_iff (h : FinishedCalls site s) :
    ActiveVerified site s ∧ ∀ (input : MigrationInput ι χ) (n : Nat),
      (ActiveVerified site (stopAfter site input n s) ↔
        ¬ Unfinished site input (stopAfter site input n s)) := by
  refine ⟨fun hactive => h.sound.active (activeManaged_iff.mp hactive).1, fun input n => ?_⟩
  exact activeVerified_of_sound (h.sound.stopAfter site input n)

end

/-! ### The sample project -/

def copiedSample : StoreWorld Unit (List Nat) :=
  stopAfter sampleSite (sampleInput (some .copyManaged)) 100 (legacySample Unit)

theorem activeVerified_iff_sample :
    ActiveVerified sampleSite (legacySample Unit) ∧
      (ActiveVerified sampleSite copiedSample ↔
        ¬ Unfinished sampleSite (sampleInput (some .copyManaged)) copiedSample) := by
  obtain ⟨hstart, hcall⟩ := activeVerified_iff
    (FinishedCalls.legacy (legacySample_legacy Unit) : FinishedCalls sampleSite _)
  exact ⟨hstart, hcall (sampleInput (some .copyManaged)) 100⟩

/-- A call that crashes after the copy leaves a managed store in use that no verification has
seen. -/
theorem copiedUnverified :
    LegacyProject (legacySample Unit) ∧
      (resolveHubTaskStore sampleSite copiedSample).kind = .managed ∧
      copiedSample.verifiedStore.isSome = false ∧
      ¬ ActiveVerified sampleSite copiedSample := by
  have hkind : (resolveHubTaskStore sampleSite copiedSample).kind = .managed := by
    decide +kernel
  have hverified : copiedSample.verifiedStore.isSome = false := by
    decide +kernel
  refine ⟨legacySample_legacy Unit, hkind, hverified, fun h => ?_⟩
  obtain ⟨identity, -, hpresent⟩ := h (Or.inl hkind)
  rw [hpresent] at hverified
  cases hverified

end ArchLoop
