import ArchLoop.TaskStore

/-!
# `ArchLoop.TaskStoreMigration`: moving the task store under the hub

`ensureHubTaskStoreMigrated` moves the repository-local Beads store to the directory that
archLoop manages (`hubTaskStoreMigration.ts`): it takes a snapshot of the identity of the
store, renames the runtime entries into the quarantine, copies them to the managed directory,
installs the redirect, and verifies the copy against the snapshot. Each stage leaves a journal
record, and a later call resumes from the layout, the snapshot and the journal.

A rename, a copy of one entry, a write of a file and a look at the layout are one step each, so
a call may stop between any two of them and others may step in between. The fault injection of
the source is part of the input.

The git excludes, `fsync` and the errors of the file system are left out, except that a rename
fails when its source is gone.
-/

set_option autoImplicit false

namespace ArchLoop

open ArchLoop.Lib

/-! ### Inputs, outcomes and errors -/

/-- The entries of a directory in the order in which the file system lists them. -/
structure DirListing where
  entries : List StoreEntry
  complete : ∀ entry, entry ∈ entries

/-- A call of `ensureHubTaskStoreMigrated`.

- `process`, `pid`: the process that makes it.
- `bd`: what its environment answers.
- `now`: the time.
- `crashBefore`, `crashAfter`: the fault injection.
- `listing`: the order of `readdirSync`. -/
structure MigrationInput (ι χ : Type) where
  process : ι
  pid : Nat
  bd : TaskRuntime χ
  now : Nat
  crashBefore : Option MigrationSideEffect := none
  crashAfter : Option MigrationSideEffect := none
  listing : DirListing

inductive NotNeededReason where
  | uninitialized
  | managed
  | redirect
  | verified
  | legacy
  deriving DecidableEq, Repr

structure DeferredMigration where
  reason : MigrationPendingReason
  phase : MigrationPhase
  beadsDir : StoreDir
  pendingUntil : Nat
  journalPath : String
  deriving DecidableEq, Repr

/-- `HubTaskStoreMigrationOutcome`. -/
inductive MigrationOutcome where
  | notNeeded (reason : NotNeededReason) (phase : Option MigrationPhase) (beadsDir : StoreDir)
  | migrated (phase : MigrationPhase) (beadsDir backupDir : StoreDir) (journalPath : String)
  | deferred (outcome : DeferredMigration)
  | splitBrain (beadsDir legacyBeadsDir managedBeadsDir : StoreDir)
      (integrityError journalPath : String)
  deriving DecidableEq, Repr

/-- What a call throws: a `TaskBoardError`, the injected crash, an error of `bd`, or the error
of a rename whose source is gone. -/
inductive MigrationError where
  | taskBoard (message : String)
  | crash (sideEffect : MigrationSideEffect) (timing : FaultTiming)
  | bd
  | noEntry (name : RuntimeEntry)
  deriving DecidableEq, Repr

def runtimeMissingMessage : String :=
  "archLoop task-store migration requires the archLoop task runtime. Install dependencies, " ++
  "set ARCHLOOP_BD_PATH, or ensure the bundled Beads runtime is available."

/-- `MISSING_SOURCE_SNAPSHOT_MESSAGE`. -/
def missingSourceSnapshotMessage : String :=
  "Hub Beads migration could not prepare a source snapshot. Inspect the Hub project task-store " ++
  "migration journal and snapshot under task-store-migration/; this is not a task failure and " ++
  "does not require `archloop tasks recover`."

def formatHubTaskStoreSplitBrainMessage (legacyBeadsDir managedBeadsDir : String) : String :=
  "Hub Beads task-store split brain detected: both " ++ legacyBeadsDir ++ " and " ++
  managedBeadsDir ++ " were modified independently after redirect. Automatic task-store writes " ++
  "are stopped. Inspect both databases and keep the intended history; do not merge or delete " ++
  "either store automatically. This is not a task failure and does not require a recovery " ++
  "command."

def managedMissingMessage : String :=
  "Hub Beads migration verification failed: the managed store is missing after copy. The " ++
  "original data remains in the recoverable backup."

def locationMismatchMessage (actual expected : String) : String :=
  "Hub Beads migration verification failed: Beads location is " ++ actual ++ ", expected " ++
  expected ++ "."

def formatIdentityMismatch (expected actual : StoreIdentity) : String :=
  let shownPrefix := fun identity : StoreIdentity =>
    if identity.storePrefix = "" then "(none)" else identity.storePrefix
  "Hub Beads migration verification failed: the managed store does not match the quarantined " ++
  "legacy snapshot (tasks " ++ toString actual.taskCount ++ "/" ++ toString expected.taskCount ++
  ", prefix " ++ shownPrefix actual ++ "/" ++ shownPrefix expected ++ "). The original data " ++
  "remains in the recoverable backup. Do not treat this as a task failure; inspect the Hub " ++
  "project task-store migration journal and retry the same command."

/-! ### Single operations -/

section
variable {ι χ : Type}

/-- A program on the stores. -/
abbrev MigrationProg (ι χ : Type) : Type → Type := Prog (StoreWorld ι χ) MigrationError

/-- One atomic operation. -/
def migrationStep {α : Type} (op : MigrationOp) (upd : StoreWorld ι χ → StoreWorld ι χ)
    (answer : StoreWorld ι χ → α) : MigrationProg ι χ α :=
  .act (fun s => { upd s with lastOp := some op }) fun s => .ret (answer s)

def look {α : Type} (answer : StoreWorld ι χ → α) : MigrationProg ι χ α :=
  migrationStep .read id answer

def appendJournalRecord (record : JournalRecord) : MigrationProg ι χ Unit :=
  migrationStep .journal (fun s => { s with journal := s.journal ++ [record] }) fun _ => ()

/-- `appendJournalPhase`: a phase is recorded once. -/
def appendJournalPhase (phase : MigrationPhase) (fingerprint : Option String) :
    MigrationProg ι χ Unit :=
  migrationStep .journal (fun s =>
    if phase ∈ s.phases then s
    else { s with journal := s.journal ++ [{ phase := some phase, fingerprint }] }) fun _ => ()

def readPending : MigrationProg ι χ (Option PendingRecord) :=
  look fun s => s.pending

def clearPending : MigrationProg ι χ Unit :=
  migrationStep .clearPending (fun s => { s with pending := none }) fun _ => ()

/-! ### Deferral -/

/-- `MIGRATION_BACKOFF_MAX_MS`. -/
def migrationBackoffMaxMs : Nat := 120000

/-- `MIGRATION_BACKOFF_MS`. -/
def migrationBackoffMs : List Nat := [2000, 10000, 30000, migrationBackoffMaxMs]

variable (site : StoreSite) (input : MigrationInput ι χ)

def recordPending (reason : MigrationPendingReason) (phase : MigrationPhase)
    (previous : Option PendingRecord) : MigrationProg ι χ PendingRecord :=
  let attempt := (previous.map PendingRecord.attempt).getD 0 + 1
  let delay := (migrationBackoffMs[attempt - 1]?).getD migrationBackoffMaxMs
  let pending : PendingRecord :=
    { reason, attempt, ownerPid := input.pid, nextRetryAt := input.now + delay, phase }
  (migrationStep .writePending (fun s => { s with pending := some pending }) fun _ => ()).bind
    fun _ =>
  (appendJournalRecord { status := some .taskStoreMigrationPending, reason := some reason }).bind
    fun _ =>
  .ret pending

def deferMigration (beadsDir : StoreDir) (reason : MigrationPendingReason)
    (phase : MigrationPhase) : MigrationProg ι χ DeferredMigration :=
  readPending.bind fun previous =>
  (recordPending input reason phase previous).bind fun pending =>
  .ret { reason, phase, beadsDir, pendingUntil := pending.nextRetryAt,
         journalPath := site.journalPath }

def deferredOutcomeFromPending (pending : PendingRecord) (beadsDir : StoreDir)
    (reason : MigrationPendingReason) : DeferredMigration :=
  { reason, phase := pending.phase, beadsDir, pendingUntil := pending.nextRetryAt,
    journalPath := site.journalPath }

/-- The record keeps this call from going on. -/
def PendingRecord.blocks (pending : PendingRecord) (pid now : Nat) (alive : Nat → Bool) : Bool :=
  now < pending.nextRetryAt || (pending.ownerPid ≠ pid && alive pending.ownerPid)

/-- The reason with which a call is deferred that a pending record blocks. -/
def PendingRecord.blockReason (pending : PendingRecord) (now : Nat) : MigrationPendingReason :=
  if now < pending.nextRetryAt then pending.reason else .migrationContention

/-! ### The lease -/

/-- The pid of another live process that a lease names. -/
def leaseOwner (lease : Option Nat) (pid : Nat) (alive : Nat → Bool) : Option Nat :=
  lease.filter fun owner => owner ≠ pid && alive owner

/-- Whether the process is between taking the lease and releasing it, replaced. -/
def StoreWorld.setInside [DecidableEq ι] (s : StoreWorld ι χ) (process : ι) (inside : Bool) :
    StoreWorld ι χ :=
  { s with inside := Function.update s.inside process inside }

variable [DecidableEq ι]

/-- Whether the lease was taken. -/
def acquireMigrationLease : MigrationProg ι χ Bool :=
  (migrationStep .readLease id fun s => leaseOwner s.lease input.pid s.alive).bind fun owner =>
  if owner.isSome then .ret false
  else
    (migrationStep .writeLease
      (fun s => { s.setInside input.process true with lease := some input.pid })
      fun _ => ()).bind fun _ =>
    .ret true

def releaseMigrationLease : MigrationProg ι χ Unit :=
  migrationStep .releaseLease
    (fun s => { s.setInside input.process false with lease := none }) fun _ => ()

/-! ### Side effects -/

def maybeCrash (sideEffect : MigrationSideEffect) (timing : FaultTiming) :
    MigrationProg ι χ Unit :=
  (migrationStep (.boundary sideEffect timing)
    (fun s => { s with boundary := some (sideEffect, timing) }) fun _ => ()).bind fun _ =>
  let fault := match timing with
    | .before => input.crashBefore
    | .after => input.crashAfter
  if fault = some sideEffect then .raise (.crash sideEffect timing) else .ret ()

def withSideEffect {α : Type} (sideEffect : MigrationSideEffect)
    (operation : MigrationProg ι χ α) : MigrationProg ι χ α :=
  (maybeCrash input sideEffect .before).bind fun _ =>
  operation.bind fun value =>
  (maybeCrash input sideEffect .after).bind fun _ =>
  .ret value

/-- The program that goes through a list. -/
def forNames {α : Type} (body : α → MigrationProg ι χ Unit) :
    List α → MigrationProg ι χ Unit
  | [] => .ret ()
  | name :: rest => (body name).bind fun _ => forNames body rest

/-- The runtime entries of a directory, in the order of the listing. -/
def listRuntimeEntries (listing : DirListing) (store : Store χ) : List RuntimeEntry :=
  listing.entries.filterMap fun
    | .runtime name => if store.has (.runtime name) then some name else none
    | .copied _ => none

/-- The repository-local entry moves to the quarantine. -/
def StoreWorld.rename (s : StoreWorld ι χ) (entry : StoreEntry) : StoreWorld ι χ :=
  { s with
    repo := Function.update s.repo entry none
    quarantine := Function.update s.quarantine entry (s.repo entry) }

/-- One pass of the loop of `quarantineLegacyStore`: an entry that the quarantine has stays. -/
def quarantineEntry (name : RuntimeEntry) : MigrationProg ι χ Unit :=
  (migrationStep (.rename name)
    (fun s =>
      if s.quarantine.has (.runtime name) || !s.repo.has (.runtime name) then s
      else s.rename (.runtime name))
    fun s => s.quarantine.has (.runtime name) || s.repo.has (.runtime name)).bind fun done =>
  if done then .ret () else .raise (.noEntry name)

def quarantineLegacyStore : MigrationProg ι χ Unit :=
  (look fun s => listRuntimeEntries input.listing s.repo).bind fun names =>
  forNames quarantineEntry names

/-- The entry of a directory is copied to the managed one, unless that has it. -/
def copyEntry (from_ : StoreDir) (entry : StoreEntry) : MigrationProg ι χ Unit :=
  migrationStep (.copy entry)
    (fun s =>
      if s.managed.has entry || !(s.store from_).has entry then s
      else { s with managed := Function.update s.managed entry (s.store from_ entry) })
    fun _ => ()

def copyManagedStore : MigrationProg ι χ Unit :=
  (look fun s => input.listing.entries.filter s.quarantine.has).bind fun names =>
  (forNames (copyEntry .quarantine) names).bind fun _ =>
  forNames (fun name => copyEntry .repo (.copied name)) storeCopyNames

def removeManagedStore : MigrationProg ι χ Unit :=
  migrationStep .removeManaged (fun s => { s with managed := .empty, verifiedStore := none })
    fun _ => ()

def installHubTaskStoreRedirect : MigrationProg ι χ Unit :=
  migrationStep .installRedirect (fun s => { s with redirect := true }) fun _ => ()

/-- What is wrong with a managed store, if anything is. -/
def managedStoreError (expected : StoreIdentity) (managed : Store χ) : Option MigrationError :=
  if !managed.fullyInitialized then some (.taskBoard managedMissingMessage)
  else
    match captureStoreIdentity input.bd (site.path .managed) managed with
    | none => some .bd
    | some actual =>
      if !(site.path .managed).toList.isPrefixOf actual.location.toList then
        some (.taskBoard (locationMismatchMessage actual.location (site.path .managed)))
      else if !identitiesMatch expected actual then
        some (.taskBoard (formatIdentityMismatch expected actual))
      else none

def verifyManagedStore (expected : StoreIdentity) : MigrationProg ι χ Unit :=
  (migrationStep .verify
    (fun s =>
      if (managedStoreError site input expected s.managed).isSome then s
      else { s with verifiedStore := some (s.managed, expected) })
    fun s => managedStoreError site input expected s.managed).bind fun error =>
  match error with
  | some e => .raise e
  | none => .ret ()

/-! ### Under the lease -/

/-- `findActiveWriterPid`. -/
def findActiveWriterPid (s : StoreWorld ι χ) : Option Nat :=
  ([s.doltServerPid, s.repo (.runtime .exclusiveLock)].filterMap
    fun file => file.bind input.bd.pidIn).find? s.alive

/-- The identity of the repository-local store, or the error of `bd`. -/
def captureRepoIdentity : MigrationProg ι χ StoreIdentity :=
  (look fun s => captureStoreIdentity input.bd (site.path .repo) s.repo).bind fun identity =>
  match identity with
  | some identity => .ret identity
  | none => .raise .bd

/-- The start of a migration: deferred when a writer is active, otherwise recorded. -/
def recordLegacyActive (resolution : HubTaskStoreResolution) (snapshot : Option StoreIdentity) :
    MigrationProg ι χ (Option DeferredMigration) :=
  (look fun s => derivePhase site s snapshot).bind fun startPhase =>
  if startPhase = none ∨ startPhase = some .legacyActive then
    (look fun s =>
      if resolution.kind = .legacy then findActiveWriterPid input s else none).bind fun writer =>
    if writer.isSome then
      (deferMigration site input resolution.beadsDir .activeWriter .legacyActive).bind
        fun outcome =>
      .ret (some outcome)
    else
      (maybeCrash input .recordLegacyActive .before).bind fun _ =>
      (maybeCrash input .recordLegacyActive .after).bind fun _ =>
      (appendJournalPhase .legacyActive none).bind fun _ =>
      .ret none
  else .ret none

/-- The snapshot that the call goes on with. -/
def prepareSnapshot (snapshot : Option StoreIdentity) :
    MigrationProg ι χ (Option StoreIdentity) :=
  (look fun s => (derivePhase site s snapshot, (resolveHubTaskStore site s).kind)).bind
    fun progress =>
  if progress.1 = some .legacyActive ∨ (snapshot = none ∧ progress.2 = .legacy) then
    (withSideEffect input .prepareSnapshot
      ((captureRepoIdentity site input).bind fun identity =>
      (migrationStep .writeSnapshot (fun s => { s with snapshot := some identity })
        fun _ => ()).bind fun _ =>
      .ret identity)).bind fun identity =>
    (appendJournalPhase .snapshotPrepared (some identity.fingerprint)).bind fun _ =>
    .ret (some identity)
  else .ret snapshot

def requireSnapshot (snapshot : Option StoreIdentity) : MigrationProg ι χ StoreIdentity :=
  match snapshot with
  | some identity => .ret identity
  | none =>
    (look StoreWorld.snapshot).bind fun stored =>
    match stored with
    | some identity => .ret identity
    | none => .raise (.taskBoard missingSourceSnapshotMessage)

/-- The check that the source is still what the snapshot says. -/
def checkSource (resolution : HubTaskStoreResolution) (sourceSnapshot : StoreIdentity) :
    MigrationProg ι χ (Option DeferredMigration) :=
  (look fun s => s.repo.databasePresent && !s.quarantined).bind fun check =>
  if check then
    (captureRepoIdentity site input).attempt.bind fun current =>
    match current with
    | .error _ =>
      (deferMigration site input resolution.beadsDir .unsafeSnapshot .snapshotPrepared).bind
        fun outcome =>
      .ret (some outcome)
    | .ok identity =>
      if identitiesMatch sourceSnapshot identity then .ret none
      else
        (migrationStep .removeSnapshot (fun s => { s with snapshot := none })
          fun _ => ()).bind fun _ =>
        (deferMigration site input resolution.beadsDir .sourceFingerprintChanged
          .legacyActive).bind fun outcome =>
        .ret (some outcome)
  else .ret none

def quarantineStage (sourceSnapshot : StoreIdentity) : MigrationProg ι χ Unit :=
  (look fun s =>
    (derivePhase site s (some sourceSnapshot), s.repo.databasePresent)).bind fun progress =>
  if progress.1 = some .snapshotPrepared ∨
      (progress.1 = some .legacyActive ∧ progress.2 = true) then
    (withSideEffect input .quarantineLegacy (quarantineLegacyStore input)).bind fun _ =>
    appendJournalPhase .legacyQuarantined (some sourceSnapshot.fingerprint)
  else .ret ()

/-- The layout asks for a copy of the quarantined store. -/
def needsCopy (s : StoreWorld ι χ) (sourceSnapshot : StoreIdentity) : Bool :=
  let phase := derivePhase site s (some sourceSnapshot)
  s.quarantined && .verified ∉ s.phases &&
  (phase = some .legacyQuarantined || phase = some .managedCopied ||
    phase = some .redirectInstalled || !s.managed.fullyInitialized)

def copyStage (sourceSnapshot : StoreIdentity) : MigrationProg ι χ Unit :=
  (look fun s => needsCopy site s sourceSnapshot).bind fun copy =>
  if copy then
    (withSideEffect input .copyManaged
      (removeManagedStore.bind fun _ => copyManagedStore input)).bind fun _ =>
    appendJournalPhase .managedCopied (some sourceSnapshot.fingerprint)
  else .ret ()

/-- The layout asks for the redirect. -/
def needsRedirect (s : StoreWorld ι χ) (sourceSnapshot : StoreIdentity) : Bool :=
  let resolution := resolveHubTaskStore site s
  resolution.kind ≠ .redirect || resolution.redirectError.isSome ||
  derivePhase site s (some sourceSnapshot) = some .managedCopied

def redirectStage (sourceSnapshot : StoreIdentity) : MigrationProg ι χ Unit :=
  (look fun s => needsRedirect site s sourceSnapshot).bind fun install =>
  if install then
    (withSideEffect input .installRedirect installHubTaskStoreRedirect).bind fun _ =>
    appendJournalPhase .redirectInstalled (some sourceSnapshot.fingerprint)
  else .ret ()

def verifyStage (sourceSnapshot : StoreIdentity) : MigrationProg ι χ Unit :=
  (withSideEffect input .verifyManaged (verifyManagedStore site input sourceSnapshot)).bind
    fun _ =>
  (appendJournalPhase .verified (some sourceSnapshot.fingerprint)).bind fun _ =>
  clearPending

/-- From the quarantine to the verified store. -/
def moveStore (sourceSnapshot : StoreIdentity) : MigrationProg ι χ MigrationOutcome :=
  (quarantineStage site input sourceSnapshot).bind fun _ =>
  (copyStage site input sourceSnapshot).bind fun _ =>
  (redirectStage site input sourceSnapshot).bind fun _ =>
  (verifyStage site input sourceSnapshot).bind fun _ =>
  .ret (.migrated .verified .managed .quarantine site.journalPath)

/-- What a call does while it holds the lease. -/
def migrateUnderLease (resolution : HubTaskStoreResolution) :
    MigrationProg ι χ MigrationOutcome :=
  (look StoreWorld.snapshot).bind fun stored =>
  (recordLegacyActive site input resolution stored).bind fun deferral =>
  match deferral with
  | some outcome => .ret (.deferred outcome)
  | none =>
    (prepareSnapshot site input stored).bind fun snapshot =>
    (requireSnapshot snapshot).bind fun sourceSnapshot =>
    (checkSource site input resolution sourceSnapshot).bind fun deferral =>
    match deferral with
    | some outcome => .ret (.deferred outcome)
    | none => moveStore site input sourceSnapshot

/-! ### The call -/

def notNeededReasonForKind (kind : HubTaskStoreKind) : NotNeededReason :=
  match kind with
  | .uninitialized => .uninitialized
  | .managed => .managed
  | _ => .redirect

def recordSplitBrainOutcome (resolution : HubTaskStoreResolution) :
    MigrationProg ι χ MigrationOutcome :=
  (appendJournalRecord { status := some .taskStoreSplitBrain }).bind fun _ =>
  .ret (.splitBrain resolution.beadsDir .repo .managed
    (formatHubTaskStoreSplitBrainMessage (site.path .repo) (site.path .managed))
    site.journalPath)

/-- The outcome of a call that stops before it asks for the lease because the repository-local
store cannot be read. -/
def captureBeforeLease (resolution : HubTaskStoreResolution) (quarantinePresent : Bool) :
    MigrationProg ι χ (Option MigrationOutcome) :=
  if resolution.kind = .legacy ∧ quarantinePresent = false then
    (captureRepoIdentity site input).attempt.bind fun captured =>
    match captured with
    | .ok _ => .ret none
    | .error _ =>
      (look StoreWorld.snapshot).bind fun stored =>
      if stored.isSome then
        (deferMigration site input resolution.beadsDir .unsafeSnapshot .snapshotPrepared).bind
          fun outcome =>
        .ret (some (.deferred outcome))
      else .ret (some (.notNeeded .legacy none resolution.beadsDir))
  else .ret none

/-- The migration that a call decides on from what it has looked at. -/
def attemptMigration (resolution : HubTaskStoreResolution) (phase : Option MigrationPhase)
    (quarantinePresent : Bool) : MigrationProg ι χ MigrationOutcome :=
  (migrationStep .readPending id fun s =>
    s.pending.filter fun pending => pending.blocks input.pid input.now s.alive).bind fun blocking =>
  match blocking with
  | some pending =>
    .ret (.deferred (deferredOutcomeFromPending site pending resolution.beadsDir
      (pending.blockReason input.now)))
  | none =>
    (captureBeforeLease site input resolution quarantinePresent).bind fun stop =>
    match stop with
    | some outcome => .ret outcome
    | none =>
      (acquireMigrationLease input).bind fun acquired =>
      if acquired then
        (migrateUnderLease site input resolution).finallyDo (releaseMigrationLease input)
      else
        (deferMigration site input resolution.beadsDir .migrationContention
          (phase.getD .legacyActive)).bind fun outcome =>
        .ret (.deferred outcome)

def ensureHubTaskStoreMigrated : MigrationProg ι χ MigrationOutcome :=
  if !input.bd.available then .raise (.taskBoard runtimeMissingMessage)
  else
    (look fun s => resolveHubTaskStore site s).bind fun resolution =>
    match resolution.redirectError with
    | some message => .raise (.taskBoard message)
    | none =>
      (look fun s => detectHubTaskStoreSplitBrain site s input.bd).bind fun splitBrain =>
      if splitBrain then recordSplitBrainOutcome site resolution
      else
        (look fun s => (derivePhase site s s.snapshot, s.quarantined)).bind fun inspection =>
        if inspection.1 = some .verified ∧ isHubOwnedTaskStoreKind resolution.kind then
          .ret (.notNeeded .verified (some .verified) resolution.beadsDir)
        else if resolution.kind ≠ .legacy ∧ inspection.1 = none ∧ inspection.2 = false then
          .ret (.notNeeded (notNeededReasonForKind resolution.kind) none resolution.beadsDir)
        else attemptMigration site input resolution inspection.1 inspection.2

/-! ### A project before its migration -/

/-- A repository-local store that is complete, and no trace of a migration. -/
structure LegacyProject (s : StoreWorld ι χ) : Prop where
  repo : s.repo.fullyInitialized = true
  managed : s.managed = .empty
  quarantine : s.quarantine = .empty
  redirect : s.redirect = false
  journal : s.journal = []
  snapshot : s.snapshot = none
  pending : s.pending = none
  lease : s.lease = none
  inside : ∀ i, s.inside i = false
  verifiedStore : s.verifiedStore = none

end

end ArchLoop
