import ArchLoop.World

/-!
# `ArchLoop.Transaction`: the journal of a landing transaction

The model of `hubLandingTransaction.ts`. A transaction's journal is a list of checkpoint
records, and `reduceHubLandingTransaction` folds it into one state: the checkpoint of
highest rank, and the last value that a record gave for each other field.

The facts that the rest uses:

- `reduce_append`: appending a record folds it into the state before.
- `advance_rank`: the rank of the state is then the maximum of the ranks.
-/

set_option autoImplicit false

namespace ArchLoop

open ArchLoop.Lib

/-- The fields that `reduceHubLandingTransaction` keeps of a journal. -/
structure HubLandingTransactionState where
  transactionId : TransactionId
  taskId : TaskId
  checkpoint : HubLandingCheckpoint
  sourceOid : Option Oid
  baseOid : Option Oid
  candidateOid : Option Oid
  verifierFingerprint : Option String
  publishTargetOid : Option Oid
  fenceOid : Option Oid
  receiptOid : Option Oid
  deriving DecidableEq, Repr

/-- The characters that `[^A-Za-z0-9._-]` does not match. -/
def isSafeIdChar (c : Char) : Bool :=
  c.isAlphanum || c == '.' || c == '_' || c == '-'

/-- `replace(/[^…]+/g, "-")`: each run of characters that are not safe becomes one dash. The
flag says whether the character before belonged to such a run. -/
def replaceUnsafeRuns (safe : Char → Bool) : Bool → List Char → List Char
  | _, [] => []
  | inRun, c :: cs =>
    if safe c then c :: replaceUnsafeRuns safe false cs
    else if inRun then replaceUnsafeRuns safe true cs
    else '-' :: replaceUnsafeRuns safe true cs

/-- A task id as it stands in transaction ids and ticket ids. -/
def safeTaskId (taskId : TaskId) : String :=
  String.ofList (replaceUnsafeRuns isSafeIdChar false taskId.toList)

/-- The id of the transaction that lands the source commit of a task on a base commit. -/
def resolveHubLandingTransactionId (git : Git) (taskId : TaskId) (sourceOid baseOid : Oid) :
    TransactionId :=
  let digest := String.ofList ((git.sha256 s!"{taskId}\x00{sourceOid}\x00{baseOid}").toList.take 16)
  s!"ltx-{safeTaskId taskId}-{digest}"

/-- The state after the first record of a journal. -/
def initialTransactionState (record : HubLandingTransactionRecord) :
    HubLandingTransactionState where
  transactionId := record.transactionId
  taskId := record.taskId
  checkpoint := record.checkpoint
  sourceOid := record.sourceOid
  baseOid := record.baseOid
  candidateOid := record.candidateOid
  verifierFingerprint := record.verifierFingerprint
  publishTargetOid := record.publishTargetOid
  fenceOid := record.fenceOid
  receiptOid := record.receiptOid

/-- The state after one more record. -/
def HubLandingTransactionState.advance (state : HubLandingTransactionState)
    (record : HubLandingTransactionRecord) : HubLandingTransactionState :=
  { state with
    checkpoint :=
      if record.checkpoint.rank ≥ state.checkpoint.rank then record.checkpoint
      else state.checkpoint
    sourceOid := record.sourceOid <|> state.sourceOid
    baseOid := record.baseOid <|> state.baseOid
    candidateOid := record.candidateOid <|> state.candidateOid
    verifierFingerprint := record.verifierFingerprint <|> state.verifierFingerprint
    publishTargetOid := record.publishTargetOid <|> state.publishTargetOid
    fenceOid := record.fenceOid <|> state.fenceOid
    receiptOid := record.receiptOid <|> state.receiptOid }

/-- The state that the records of a journal fold into. Records of another transaction than
the first one's are skipped. -/
def reduceHubLandingTransaction :
    List HubLandingTransactionRecord → Option HubLandingTransactionState
  | [] => none
  | first :: rest =>
    some ((rest.filter fun record => record.transactionId == first.transactionId).foldl
      HubLandingTransactionState.advance (initialTransactionState first))

/-- The state of the transaction in the world. -/
def HubWorld.transactionState (s : HubWorld) (transactionId : TransactionId) :
    Option HubLandingTransactionState :=
  reduceHubLandingTransaction (s.journal transactionId)

/-- One read of the journal, reduced. -/
def loadHubLandingTransaction (transactionId : TransactionId) :
    Hub (Option HubLandingTransactionState) :=
  .reads fun s => s.transactionState transactionId

/-- The world with one more line in the journal of the record's transaction. -/
def HubWorld.appendRecord (s : HubWorld) (record : HubLandingTransactionRecord) : HubWorld :=
  { s with
    journal := Function.update s.journal record.transactionId
      (s.journal record.transactionId ++ [record]) }

/-- Makes the transaction's directory and appends the record durably. -/
def appendHubLandingCheckpoint (record : HubLandingTransactionRecord) : Hub Unit := do
  Prog.modify fun s => { s with transactionIds := s.withTransaction record.transactionId }
  Prog.modify fun s => s.appendRecord record

/-! ### The fold -/

@[simp] theorem advance_transactionId (state : HubLandingTransactionState)
    (record : HubLandingTransactionRecord) :
    (state.advance record).transactionId = state.transactionId := rfl

@[simp] theorem advance_taskId (state : HubLandingTransactionState)
    (record : HubLandingTransactionRecord) :
    (state.advance record).taskId = state.taskId := rfl

theorem advance_rank (state : HubLandingTransactionState)
    (record : HubLandingTransactionRecord) :
    (state.advance record).checkpoint.rank
      = max state.checkpoint.rank record.checkpoint.rank := by
  simp only [HubLandingTransactionState.advance]
  split <;> omega

theorem reduce_append {records : List HubLandingTransactionRecord}
    {state : HubLandingTransactionState} {record : HubLandingTransactionRecord}
    (h : reduceHubLandingTransaction records = some state)
    (hid : record.transactionId = state.transactionId) :
    reduceHubLandingTransaction (records ++ [record]) = some (state.advance record) := by
  cases records with
  | nil => cases h
  | cons first rest =>
    have hfold : ∀ (l : List HubLandingTransactionRecord) (st : HubLandingTransactionState),
        (l.foldl HubLandingTransactionState.advance st).transactionId = st.transactionId := by
      intro l
      induction l with
      | nil => intro st; rfl
      | cons r l ih => intro st; rw [List.foldl_cons, ih, advance_transactionId]
    simp only [reduceHubLandingTransaction, Option.some.injEq] at h
    have hfirst : state.transactionId = first.transactionId := by
      rw [← h, hfold]
      rfl
    rw [List.cons_append]
    simp only [reduceHubLandingTransaction, List.filter_append, List.foldl_append, h]
    simp [hid, hfirst]

theorem reduce_singleton (record : HubLandingTransactionRecord) :
    reduceHubLandingTransaction [record] = some (initialTransactionState record) := rfl

theorem reduce_eq_none {records : List HubLandingTransactionRecord} :
    reduceHubLandingTransaction records = none ↔ records = [] := by
  cases records <;> simp [reduceHubLandingTransaction]

/-- `rankOf`: the rank of a checkpoint that may be missing, with `-1` read as `0` and every
rank one higher. -/
def rankOf (checkpoint : Option HubLandingCheckpoint) : Nat :=
  match checkpoint with
  | none => 0
  | some c => c.rank + 1

@[simp] theorem rankOf_none : rankOf none = 0 := rfl

@[simp] theorem rankOf_some (c : HubLandingCheckpoint) : rankOf (some c) = c.rank + 1 := rfl

/-! ### What a journal append changes -/

/-- Only journals and the list of transactions differ. -/
def JournalWrite (s t : HubWorld) : Prop :=
  ∃ ids journal, t = { s with transactionIds := ids, journal := journal }

theorem appendHubLandingCheckpoint_writes (record : HubLandingTransactionRecord) :
    (appendHubLandingCheckpoint record).Makes JournalWrite := by
  refine Prog.makes_bind ?_ fun _ => ?_
  · exact Prog.makes_modify.mpr fun s => ⟨_, _, rfl⟩
  · exact Prog.makes_modify.mpr fun s => ⟨_, _, rfl⟩

end ArchLoop
