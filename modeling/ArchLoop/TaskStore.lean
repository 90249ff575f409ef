import ArchLoop.Lib.Prog
import Mathlib.Data.List.Sort
import Mathlib.Logic.Function.Basic

/-!
# `ArchLoop.TaskStore`: the Beads stores of a repository

A repository keeps its tasks in a Beads store: a directory with a database, some files that
`bd` writes beside it, and three configuration files. There are up to three such directories:
the repository-local one, the one that archLoop manages, and the quarantine that a migration
from the first to the second leaves behind (`hubTaskStoreResolver.ts`).

`StoreWorld` is what the processes of a project share: the three directories, the redirect
file, the files of the migration and the process table. `resolveHubTaskStore`, `derivePhase`
and `captureStoreIdentity` are what a caller reads from it.

A directory is the content of each of its entries. Contents are of any type `χ`, and
`TaskRuntime` has what is read from them: the answers of `bd`, the parsed configuration files
and the hashes. A redirect file names the managed directory.
-/

set_option autoImplicit false

namespace ArchLoop

open ArchLoop.Lib

/-! ### Stores -/

/-- `RUNTIME_ENTRY_NAMES`. -/
inductive RuntimeEntry where
  | embeddeddolt
  | dolt
  | issuesJsonl
  | interactionsJsonl
  | eventsJsonl
  | backup
  | exportState
  | exportStateJson
  | syncStateJson
  | lastTouched
  | bdSock
  | bdSockStartlock
  | exclusiveLock
  deriving DecidableEq, Repr

/-- `STORE_COPY_NAMES`. -/
inductive StoreCopyName where
  | metadataJson
  | configYaml
  | gitignore
  deriving DecidableEq, Repr

/-- An entry of a store directory. -/
inductive StoreEntry where
  | runtime (name : RuntimeEntry)
  | copied (name : StoreCopyName)
  deriving DecidableEq, Repr

abbrev StoreEntry.database : StoreEntry := .runtime .embeddeddolt

abbrev StoreEntry.metadata : StoreEntry := .copied .metadataJson

abbrev StoreEntry.config : StoreEntry := .copied .configYaml

/-- In the order of `STORE_COPY_NAMES`. -/
def storeCopyNames : List StoreCopyName := [.metadataJson, .configYaml, .gitignore]

/-- A store directory, by the contents of its entries. -/
abbrev Store (χ : Type) := StoreEntry → Option χ

namespace Store

variable {χ : Type} (store : Store χ)

/-- The directory without entries. -/
def empty : Store χ := fun _ => none

def has (entry : StoreEntry) : Bool := (store entry).isSome

/-- `isBeadsStoreMarkerPresent`. -/
def markerPresent : Bool := store.has .metadata

/-- `isBeadsStoreDatabasePresent`. -/
def databasePresent : Bool := store.has .database

/-- `isBeadsStoreFullyInitialized`. -/
def fullyInitialized : Bool := store.markerPresent && store.databasePresent

end Store

/-- The directories that are Beads stores. -/
inductive StoreDir where
  | repo
  | managed
  | quarantine
  deriving DecidableEq, Repr

/-- Where a project lives. -/
structure StoreSite where
  repoRoot : String
  hubProjectDir : String
  deriving DecidableEq, Repr

def StoreSite.path (site : StoreSite) : StoreDir → String
  | .repo => site.repoRoot ++ "/.beads"
  | .managed => site.hubProjectDir ++ "/.beads"
  | .quarantine => site.repoRoot ++ "/.beads/.hub-quarantine"

def StoreSite.redirectPath (site : StoreSite) : String := site.path .repo ++ "/redirect"

def StoreSite.journalPath (site : StoreSite) : String :=
  site.hubProjectDir ++ "/task-store-migration/journal.jsonl"

/-! ### What is read from a store -/

/-- The keys of `metadata.json` that identify a database. -/
structure StoreMetadata where
  projectId : Option String := none
  doltDatabase : Option String := none
  database : Option String := none
  deriving DecidableEq, Repr

/-- An issue as `bd list --json` prints it, by what is read from it. The last two are the
`countUnknownEntries` of its dependencies and comments. -/
structure ListedIssue where
  id : Option String
  status : Option String
  dependencies : Nat
  comments : Nat
  deriving DecidableEq, Repr

/-- What a process reads from the contents of a store.

- `available`: whether there is a `bd` executable.
- `list`, `wherePath`: the answers of `bd list` and `bd where` for a directory and its
  content. `none` is a command that fails, `some none` an answer without a path.
- `metadata`, `issuePrefix`, `pidIn`: the parsed `metadata.json`, `config.yaml` and pid files.
- `sha256`, `hashStoreTree`: the hash of a text and of a directory tree.
- `localeLe`: the order of `localeCompare`. -/
structure TaskRuntime (χ : Type) where
  available : Bool
  list : String → Store χ → Option (List ListedIssue)
  wherePath : String → Store χ → Option (Option String)
  metadata : χ → StoreMetadata
  issuePrefix : χ → Option String
  pidIn : χ → Option Nat
  sha256 : String → String
  hashStoreTree : χ → String
  localeLe : String → String → Bool

structure StoreIdentity where
  location : String
  databaseIdentity : String
  storePrefix : String
  taskIds : List String
  taskCount : Nat
  dependencyCount : Nat
  commentCount : Nat
  workingState : List (String × Nat)
  fingerprint : String
  deriving DecidableEq, Repr

/-- One more issue in a status. -/
def countStatus (workingState : List (String × Nat)) (status : String) : List (String × Nat) :=
  if workingState.any (·.1 = status) then
    workingState.map fun entry => if entry.1 = status then (status, entry.2 + 1) else entry
  else workingState ++ [(status, 1)]

def databaseIdentity (metadata : StoreMetadata) : String :=
  String.intercalate ":" ([metadata.projectId.getD "", metadata.doltDatabase.getD "",
    metadata.database.getD ""].filter (0 < ·.length))

/-- The UTF-16 code units of a character. -/
def utf16CodeUnits (c : Char) : List Nat :=
  if c.toNat < 0x10000 then [c.toNat]
  else [0xD800 + (c.toNat - 0x10000) / 0x400, 0xDC00 + (c.toNat - 0x10000) % 0x400]

def codeUnitsLe : List Nat → List Nat → Bool
  | [], _ => true
  | _ :: _, [] => false
  | a :: as, b :: bs => a < b || (a == b && codeUnitsLe as bs)

/-- The order of `Array.prototype.sort`. -/
def sortLe (left right : String) : Bool :=
  codeUnitsLe (left.toList.flatMap utf16CodeUnits) (right.toList.flatMap utf16CodeUnits)

/-- The text whose hash is the fingerprint of an identity. -/
def fingerprintText {χ : Type} (bd : TaskRuntime χ) (issues : List ListedIssue)
    (identity : StoreIdentity) : String :=
  identity.databaseIdentity ++ "\n" ++ identity.storePrefix ++ "\n" ++
  String.intercalate "," identity.taskIds ++ "\n" ++ toString issues.length ++ "\n" ++
  toString identity.dependencyCount ++ "\n" ++ toString identity.commentCount ++ "\n" ++
  String.intercalate "," ((identity.workingState.insertionSort fun left right =>
    bd.localeLe left.1 right.1).map fun entry => entry.1 ++ ":" ++ toString entry.2)

/-- The identity of the store with this content at a path, or `none` when `bd` fails. -/
def captureStoreIdentity {χ : Type} (bd : TaskRuntime χ) (path : String) (store : Store χ) :
    Option StoreIdentity :=
  (bd.list path store).bind fun issues =>
  (bd.wherePath path store).map fun location =>
    let taskIds := (issues.filterMap fun issue => issue.id.filter (0 < ·.length)).insertionSort
      fun left right => sortLe left right
    let identity : StoreIdentity := {
      location := (location.filter (0 < ·.length)).getD path
      databaseIdentity := databaseIdentity (((store .metadata).map bd.metadata).getD {})
      storePrefix := ((store .config).bind bd.issuePrefix).getD ""
      taskIds := taskIds
      taskCount := taskIds.length
      dependencyCount := issues.foldl (fun count issue => count + issue.dependencies) 0
      commentCount := issues.foldl (fun count issue => count + issue.comments) 0
      workingState := issues.foldl (fun counts issue =>
        countStatus counts (issue.status.getD "unknown")) []
      fingerprint := "" }
    { identity with fingerprint := bd.sha256 (fingerprintText bd issues identity) }

def identitiesMatch (expected actual : StoreIdentity) : Bool :=
  expected.fingerprint == actual.fingerprint &&
  expected.databaseIdentity == actual.databaseIdentity &&
  expected.storePrefix == actual.storePrefix &&
  expected.taskCount == actual.taskCount &&
  expected.dependencyCount == actual.dependencyCount &&
  expected.commentCount == actual.commentCount &&
  String.intercalate "\x00" expected.taskIds == String.intercalate "\x00" actual.taskIds

theorem identitiesMatch_location (identity : StoreIdentity) (location : String) :
    identitiesMatch identity { identity with location := location } = true := by
  simp [identitiesMatch]

/-! ### The files of a migration -/

/-- `HUB_TASK_STORE_MIGRATION_PHASES`. -/
inductive MigrationPhase where
  | legacyActive
  | snapshotPrepared
  | legacyQuarantined
  | managedCopied
  | redirectInstalled
  | verified
  deriving DecidableEq, Repr

/-- In the order of `HUB_TASK_STORE_MIGRATION_PHASES`. -/
def migrationPhases : List MigrationPhase :=
  [.legacyActive, .snapshotPrepared, .legacyQuarantined, .managedCopied, .redirectInstalled,
    .verified]

/-- `HUB_TASK_STORE_MIGRATION_PENDING_REASONS`. -/
inductive MigrationPendingReason where
  | activeWriter
  | sourceFingerprintChanged
  | unsafeSnapshot
  | migrationContention
  deriving DecidableEq, Repr

inductive JournalStatus where
  | taskStoreMigrationPending
  | taskStoreSplitBrain
  deriving DecidableEq, Repr

structure JournalRecord where
  phase : Option MigrationPhase := none
  status : Option JournalStatus := none
  reason : Option MigrationPendingReason := none
  fingerprint : Option String := none
  deriving DecidableEq, Repr

/-- `pending.json`. Times are in milliseconds. -/
structure PendingRecord where
  reason : MigrationPendingReason
  attempt : Nat
  ownerPid : Nat
  nextRetryAt : Nat
  phase : MigrationPhase
  deriving DecidableEq, Repr

def readJournalPhases (journal : List JournalRecord) : List MigrationPhase :=
  migrationPhases.filter fun phase => journal.any (·.phase = some phase)

/-- `PHASE_RANK`. -/
def phaseRank (phase : MigrationPhase) : Nat := migrationPhases.idxOf phase

/-- One pass of the loop of `highestPhase`. -/
def higherPhase (highest : Option MigrationPhase) (phase : MigrationPhase) :
    Option MigrationPhase :=
  match highest with
  | none => some phase
  | some top => if phaseRank top < phaseRank phase then some phase else some top

def highestPhase (phases : List MigrationPhase) : Option MigrationPhase :=
  phases.foldl higherPhase none

/-! ### The shared state -/

/-- `HUB_TASK_STORE_MIGRATION_SIDE_EFFECTS`. -/
inductive MigrationSideEffect where
  | recordLegacyActive
  | prepareSnapshot
  | quarantineLegacy
  | copyManaged
  | installRedirect
  | verifyManaged
  deriving DecidableEq, Repr

inductive FaultTiming where
  | before
  | after
  deriving DecidableEq, Repr

/-- The operations of a migration on the shared state. -/
inductive MigrationOp where
  | read
  | readPending
  | readLease
  | writeLease
  | releaseLease
  | journal
  | writePending
  | clearPending
  | writeSnapshot
  | removeSnapshot
  | rename (name : RuntimeEntry)
  | removeManaged
  | copy (entry : StoreEntry)
  | installRedirect
  | verify
  | boundary (sideEffect : MigrationSideEffect) (timing : FaultTiming)
  deriving DecidableEq, Repr

/-- Whether a process has not started yet, runs, or has ended. -/
inductive ProcessLife where
  | unborn
  | running
  | dead
  deriving DecidableEq, Repr

/-- What the processes of a project share.

- `repo`, `managed`, `quarantine`: the store directories.
- `redirect`: whether the repository has a redirect file.
- `journal`, `snapshot`, `pending`, `lease`: the files of the migration. The lease is the pid
  that it names.
- `doltServerPid`: the file `dolt-server.pid` of the repository-local store.
- `alive`: whether signal 0 reaches the process with this pid.
- `life`: the processes that call the migration.

Five components are auxiliary, and no program reads them:

- `inside`: whether the process is between taking the lease and releasing it.
- `lastOp`: the operation that was done last.
- `boundary`: the side effect that a call began or ended last.
- `verifiedStore`: the content for which the present managed store was verified, with the
  snapshot.
- `accepted`: the content of a database that holds every write that `bd` has accepted. -/
structure StoreWorld (ι χ : Type) where
  repo : Store χ
  managed : Store χ
  quarantine : Store χ
  redirect : Bool
  journal : List JournalRecord
  snapshot : Option StoreIdentity
  pending : Option PendingRecord
  lease : Option Nat
  doltServerPid : Option χ
  alive : Nat → Bool
  life : ι → ProcessLife
  inside : ι → Bool
  lastOp : Option MigrationOp
  boundary : Option (MigrationSideEffect × FaultTiming)
  verifiedStore : Option (Store χ × StoreIdentity)
  accepted : χ

namespace StoreWorld

variable {ι χ : Type} (s : StoreWorld ι χ)

def store : StoreDir → Store χ
  | .repo => s.repo
  | .managed => s.managed
  | .quarantine => s.quarantine

/-- The database has been quarantined. -/
def quarantined : Bool := s.quarantine.databasePresent

def phases : List MigrationPhase := readJournalPhases s.journal

end StoreWorld

/-! ### Resolution -/

inductive HubTaskStoreKind where
  | uninitialized
  | legacy
  | managed
  | redirect
  deriving DecidableEq, Repr

def isHubOwnedTaskStoreKind (kind : HubTaskStoreKind) : Bool :=
  kind == .managed || kind == .redirect

structure HubTaskStoreResolution where
  kind : HubTaskStoreKind
  beadsDir : StoreDir
  redirectError : Option String := none
  deriving DecidableEq, Repr

def formatInvalidHubTaskStoreRedirectMessage (redirectPath redirectTarget : String) : String :=
  "Hub Beads redirect at " ++ redirectPath ++ " is invalid or inaccessible (" ++
  redirectTarget ++ "). Fix the redirect path, or run `archloop tasks init` to recreate the " ++
  "Hub-owned task store."

section
variable {ι χ : Type} (site : StoreSite) (s : StoreWorld ι χ)

def resolveHubTaskStore : HubTaskStoreResolution :=
  if s.redirect then
    if s.managed.markerPresent then { kind := .redirect, beadsDir := .managed }
    else {
      kind := .redirect
      beadsDir := .repo
      redirectError := some
        (formatInvalidHubTaskStoreRedirectMessage site.redirectPath (site.path .managed)) }
  else if s.managed.fullyInitialized then { kind := .managed, beadsDir := .managed }
  else if s.repo.fullyInitialized then { kind := .legacy, beadsDir := .repo }
  else { kind := .uninitialized, beadsDir := .managed }

/-- `hasDurableMigrationEvidence`. -/
def hasDurableMigrationEvidence (snapshot : Option StoreIdentity) : Bool :=
  !s.phases.isEmpty || snapshot.isSome || s.quarantined

def phaseForManagedLayout (layoutPhase : MigrationPhase) (migrationEvidence : Bool) :
    Option MigrationPhase :=
  if migrationEvidence then some layoutPhase else none

/-- The phase that the layout shows to a caller that holds this snapshot. -/
def derivePhase (snapshot : Option StoreIdentity) : Option MigrationPhase :=
  let resolution := resolveHubTaskStore site s
  let managedReady := s.managed.fullyInitialized
  let redirectReady :=
    resolution.kind = .redirect ∧ resolution.redirectError = none ∧ managedReady
  let migrationEvidence := hasDurableMigrationEvidence s snapshot
  if redirectReady ∧ .verified ∈ s.phases then some .verified
  else if redirectReady then phaseForManagedLayout .redirectInstalled migrationEvidence
  else if managedReady then phaseForManagedLayout .managedCopied migrationEvidence
  else if s.quarantined then some .legacyQuarantined
  else if snapshot.isSome then some .snapshotPrepared
  else if resolution.kind = .legacy ∨ .legacyActive ∈ s.phases then some .legacyActive
  else highestPhase s.phases

/-- Both directories have a database, and they differ. The answer is whether the repository's
writes and the redirect's writes have gone to different places. -/
def detectHubTaskStoreSplitBrain (bd : TaskRuntime χ) : Bool :=
  let resolution := resolveHubTaskStore site s
  resolution.kind = .redirect && resolution.redirectError.isNone &&
  match s.repo .database, s.managed .database with
  | some leftover, some managed => bd.hashStoreTree leftover ≠ bd.hashStoreTree managed
  | _, _ => false

end

end ArchLoop
