import ArchLoop.Lib.JsonLines
import ArchLoop.Transaction

/-!
# `ArchLoop.JournalFile`: the octets of a landing journal

The file layer of `hubLandingTransaction.ts`. `Transaction` has the journal as a list of records;
here it is the file `journal.jsonl`, of which a crash may leave any part. A record is appended as
one line of JSON, and the reader skips the lines that it does not understand. A file that does not
exist is read as an empty one.

The records have all their fields here. `reduceHubLandingTransaction` folds them, and its part
that `Transaction` knows is the fold of `Transaction`.
-/

set_option autoImplicit false

namespace ArchLoop.JournalFile

open ArchLoop.Lib ArchLoop.Lib.JsonText

/-! ### Records -/

/-- `HubLandingTransactionRecord`, with all its fields. -/
structure HubLandingJournalRecord extends HubLandingTransactionRecord where
  createdAt : String
  candidateRef : Option String := none
  verificationArtifactPath : Option String := none
  receiptRef : Option String := none
  filteredBeadsRuntimePaths : Option (List String) := none
  deriving DecidableEq

/-- The object that `JSON.stringify` makes of a record. -/
def HubLandingJournalRecord.toJson (record : HubLandingJournalRecord) : Value :=
  .ofFields [
    ("type", some (.string "checkpoint")),
    ("checkpoint", some (.string record.checkpoint.text)),
    ("transactionId", some (.string record.transactionId)),
    ("taskId", some (.string record.taskId)),
    ("createdAt", some (.string record.createdAt)),
    ("sourceOid", record.sourceOid.map .string),
    ("baseOid", record.baseOid.map .string),
    ("candidateOid", record.candidateOid.map .string),
    ("candidateRef", record.candidateRef.map .string),
    ("verifierFingerprint", record.verifierFingerprint.map .string),
    ("verificationArtifactPath", record.verificationArtifactPath.map .string),
    ("publishTargetOid", record.publishTargetOid.map .string),
    ("fenceOid", record.fenceOid.map .string),
    ("receiptRef", record.receiptRef.map .string),
    ("receiptOid", record.receiptOid.map .string),
    ("filteredBeadsRuntimePaths",
      record.filteredBeadsRuntimePaths.map fun paths => .array (paths.map .string))]

/-- `HUB_LANDING_CHECKPOINTS`. -/
def HUB_LANDING_CHECKPOINTS : List HubLandingCheckpoint :=
  [.opened, .basePinned, .candidateCreated, .candidateVerified, .targetLanded, .taskClosed,
    .cleaned]

/-- `isCheckpoint`, with the checkpoint that the text names. -/
def checkpointOf (text : String) : Option HubLandingCheckpoint :=
  HUB_LANDING_CHECKPOINTS.find? fun checkpoint => checkpoint.text == text

/-- `isGitOid`. -/
def isGitOid (text : String) : Bool :=
  text.toList.length == 40 && text.toList.all fun c => (hexValue c).isSome

/-- The trimmed text, unless nothing is left of it. -/
def trimmed (text : String) : Option String :=
  if trim text = "" then none else some (trim text)

/-- `readString`. -/
def readString (record : Value) (key : String) : Option String :=
  ((record.get key).bind Value.text?).bind trimmed

/-- `readStringArray`. -/
def readStringArray (record : Value) (key : String) : Option (List String) :=
  ((record.get key).bind Value.items?).bind fun items =>
    let texts := (items.filterMap Value.text?).filter fun item => trim item ≠ ""
    if texts = [] then none else some texts

/-- `parseHubLandingTransactionRecord`. -/
def parseHubLandingTransactionRecord (record : Value) : Option HubLandingJournalRecord := do
  guard ((record.get "type").bind Value.text? = some "checkpoint")
  let checkpoint ← ((record.get "checkpoint").bind Value.text?).bind checkpointOf
  let transactionId ← readString record "transactionId"
  let taskId ← readString record "taskId"
  let createdAt ← readString record "createdAt"
  let sourceOid := readString record "sourceOid"
  let baseOid := readString record "baseOid"
  let candidateOid := readString record "candidateOid"
  let publishTargetOid := readString record "publishTargetOid"
  let fenceOid := readString record "fenceOid"
  let receiptOid := readString record "receiptOid"
  guard ([sourceOid, baseOid, candidateOid, publishTargetOid, fenceOid, receiptOid].all
    fun oid => oid.all isGitOid)
  return {
    checkpoint, transactionId, taskId, createdAt, sourceOid, baseOid, candidateOid
    candidateRef := readString record "candidateRef"
    verifierFingerprint := readString record "verifierFingerprint"
    verificationArtifactPath := readString record "verificationArtifactPath"
    publishTargetOid, fenceOid
    receiptRef := readString record "receiptRef"
    receiptOid
    filteredBeadsRuntimePaths := readStringArray record "filteredBeadsRuntimePaths" }

/-! ### The fold -/

/-- `HubLandingTransactionState`, with all its fields. -/
structure HubLandingJournalState extends HubLandingTransactionState where
  records : List HubLandingJournalRecord
  candidateRef : Option String
  verificationArtifactPath : Option String
  receiptRef : Option String
  filteredBeadsRuntimePaths : Option (List String)
  openedAt : String
  updatedAt : String
  deriving DecidableEq

/-- The state after the first of the valid records. -/
def initialJournalState (records : List HubLandingJournalRecord)
    (first : HubLandingJournalRecord) : HubLandingJournalState where
  toHubLandingTransactionState := initialTransactionState first.toHubLandingTransactionRecord
  records := records
  candidateRef := first.candidateRef
  verificationArtifactPath := first.verificationArtifactPath
  receiptRef := first.receiptRef
  filteredBeadsRuntimePaths := first.filteredBeadsRuntimePaths
  openedAt := first.createdAt
  updatedAt := first.createdAt

/-- The state after one more record. -/
def HubLandingJournalState.advance (state : HubLandingJournalState)
    (record : HubLandingJournalRecord) : HubLandingJournalState where
  toHubLandingTransactionState :=
    state.toHubLandingTransactionState.advance record.toHubLandingTransactionRecord
  records := state.records
  candidateRef := record.candidateRef <|> state.candidateRef
  verificationArtifactPath := record.verificationArtifactPath <|> state.verificationArtifactPath
  receiptRef := record.receiptRef <|> state.receiptRef
  filteredBeadsRuntimePaths :=
    record.filteredBeadsRuntimePaths <|> state.filteredBeadsRuntimePaths
  openedAt := state.openedAt
  updatedAt := record.createdAt

/-- `reduceHubLandingTransaction`. -/
def reduceHubLandingTransaction : List HubLandingJournalRecord → Option HubLandingJournalState
  | [] => none
  | first :: rest =>
    let valid := rest.filter fun record => record.transactionId == first.transactionId
    some (valid.foldl HubLandingJournalState.advance (initialJournalState (first :: valid) first))

/-! ### The file -/

/-- `readHubLandingJournal`. -/
def readHubLandingJournal (journal : List UInt8) : List HubLandingJournalRecord :=
  JsonLines.read parseHubLandingTransactionRecord journal

/-- `loadHubLandingTransaction`. -/
def loadHubLandingTransaction (journal : List UInt8) : Option HubLandingJournalState :=
  reduceHubLandingTransaction (readHubLandingJournal journal)

/-- `appendHubLandingCheckpoint`: the file with one more line, and the state that is read of it.
It throws when there is none. -/
def appendHubLandingCheckpoint (journal : List UInt8) (record : HubLandingJournalRecord) :
    List UInt8 × Option HubLandingJournalState :=
  let written := journal ++ JsonLines.lineOf record.toJson
  (written, loadHubLandingTransaction written)

end ArchLoop.JournalFile
