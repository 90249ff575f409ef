import ArchLoop.JournalFile

/-!
# `ArchLoop.Proofs.JournalFile`: a journal behind a torn line

`parse_toJson` says which records come back from their own line, and `appendSurvives_iff` when an
append leaves all that was readable, with the new record behind it: exactly when the file ends with
a whole line. Otherwise the record shares a line with what a crash left there, and the reader skips
both.
-/

set_option autoImplicit false

namespace ArchLoop.JournalFile

open ArchLoop.Lib ArchLoop.Lib.JsonText

/-! ### Lines of the journal -/

theorem get_toJson (record : HubLandingJournalRecord) :
    (record.toJson.get "type" = some (.string "checkpoint") ∧
    record.toJson.get "checkpoint" = some (.string record.checkpoint.text) ∧
    record.toJson.get "transactionId" = some (.string record.transactionId) ∧
    record.toJson.get "taskId" = some (.string record.taskId) ∧
    record.toJson.get "createdAt" = some (.string record.createdAt)) ∧
    (record.toJson.get "sourceOid" = record.sourceOid.map .string ∧
    record.toJson.get "baseOid" = record.baseOid.map .string ∧
    record.toJson.get "candidateOid" = record.candidateOid.map .string ∧
    record.toJson.get "candidateRef" = record.candidateRef.map .string ∧
    record.toJson.get "verifierFingerprint" = record.verifierFingerprint.map .string ∧
    record.toJson.get "verificationArtifactPath" = record.verificationArtifactPath.map .string ∧
    record.toJson.get "publishTargetOid" = record.publishTargetOid.map .string ∧
    record.toJson.get "fenceOid" = record.fenceOid.map .string ∧
    record.toJson.get "receiptRef" = record.receiptRef.map .string ∧
    record.toJson.get "receiptOid" = record.receiptOid.map .string) ∧
    record.toJson.get "filteredBeadsRuntimePaths" =
      record.filteredBeadsRuntimePaths.map fun paths => .array (paths.map .string) := by
  have hget : ∀ name, record.toJson.get name = _ :=
    fun name => Value.get_ofFields (by simp) name
  simp only [hget]
  simp [List.lookup_cons]

theorem printable_toJson (record : HubLandingJournalRecord) : Printable record.toJson := by
  have htext : ∀ {text : Option String} {value : Value},
      value ∈ text.map Value.string → Printable value := by
    intro text value hvalue
    obtain ⟨_, -, rfl⟩ := Option.map_eq_some_iff.mp hvalue
    trivial
  refine printable_ofFields fun field hfield value hvalue => ?_
  simp only [List.mem_cons, List.not_mem_nil, or_false] at hfield
  rcases hfield with rfl | rfl | rfl | rfl | rfl | rfl | rfl | rfl | rfl | rfl | rfl | rfl | rfl |
    rfl | rfl | rfl
  case inr.inr.inr.inr.inr.inr.inr.inr.inr.inr.inr.inr.inr.inr.inr =>
    obtain ⟨paths, -, rfl⟩ := Option.map_eq_some_iff.mp hvalue
    refine printableItems_iff.mpr fun item hitem => ?_
    obtain ⟨_, -, rfl⟩ := List.mem_map.mp hitem
    trivial
  all_goals first | exact htext hvalue | (cases hvalue; trivial)

theorem isLine_toJson (record : HubLandingJournalRecord) : JsonLines.IsLine record.toJson where
  members := ⟨"type", _, _, 't', "ype".toList, rfl, by decide, by decide⟩
  printable := printable_toJson record

/-! ### Records that come back -/

/-- Trimming leaves the text as it is, and something of it. -/
def IsTrimmed (text : String) : Prop := text ≠ "" ∧ trim text = text

theorem trimmed_eq_self {text : String} : trimmed text = some text ↔ IsTrimmed text := by
  unfold trimmed IsTrimmed
  constructor
  · intro h
    split at h
    · cases h
    · rename_i hne
      have heq := Option.some.inj h
      exact ⟨heq ▸ hne, heq⟩
  · rintro ⟨hne, heq⟩
    rw [heq, if_neg hne]

/-- The fields of the record are as the reader gives them back.

- `transactionId`, `taskId`, `createdAt`: there is a text, without blanks around it.
- `oids`: the same of the object ids, of forty hexadecimal digits each.
- `texts`: the same of the other texts.
- `paths`: there is a path when there is a list of them, and none is blank. -/
structure IsReadable (record : HubLandingJournalRecord) : Prop where
  transactionId : IsTrimmed record.transactionId
  taskId : IsTrimmed record.taskId
  createdAt : IsTrimmed record.createdAt
  oids : ∀ oid ∈ [record.sourceOid, record.baseOid, record.candidateOid, record.publishTargetOid,
    record.fenceOid, record.receiptOid], ∀ text ∈ oid, isGitOid text = true
  texts : ∀ text ∈ [record.candidateRef, record.verifierFingerprint,
    record.verificationArtifactPath, record.receiptRef], ∀ t ∈ text, IsTrimmed t
  paths : ∀ paths ∈ record.filteredBeadsRuntimePaths,
    paths ≠ [] ∧ ∀ path ∈ paths, trim path ≠ ""

theorem not_isBlank_of_hexValue {c : Char} (h : (hexValue c).isSome = true) :
    isBlank c = false := by
  have hrange : 48 ≤ c.toNat ∧ c.toNat ≤ 57 ∨ 97 ≤ c.toNat ∧ c.toNat ≤ 102 ∨
      65 ≤ c.toNat ∧ c.toNat ≤ 70 := by
    unfold hexValue at h
    split at h
    · rename_i hdigit
      rw [Char.isDigit, Bool.and_eq_true, decide_eq_true_eq, decide_eq_true_eq] at hdigit
      exact Or.inl hdigit
    split at h
    · rename_i hlower
      exact Or.inr (Or.inl hlower)
    split at h
    · rename_i hupper
      exact Or.inr (Or.inr hupper)
    · cases h
  unfold isBlank
  simp only [Bool.or_eq_false_iff, Bool.and_eq_false_iff, decide_eq_false_iff_not,
    beq_eq_false_iff_ne]
  omega

theorem isTrimmed_of_isGitOid {text : String} (h : isGitOid text = true) : IsTrimmed text := by
  rw [isGitOid, Bool.and_eq_true, beq_iff_eq, List.all_eq_true] at h
  obtain ⟨hlength, hhex⟩ := h
  have hblank : ∀ c ∈ text.toList, isBlank c = false :=
    fun c hc => not_isBlank_of_hexValue (hhex c hc)
  have hne : text ≠ "" := by
    rintro rfl
    simp at hlength
  refine ⟨hne, ?_⟩
  have htrim := trim_ofList (l := text.toList) (fun c hc => hblank c (List.mem_of_mem_head? hc))
    fun c hc => hblank c (List.mem_of_mem_getLast? hc)
  rwa [String.ofList_toList] at htrim

theorem bind_trimmed_eq_self {text : Option String} :
    text.bind trimmed = text ↔ ∀ t ∈ text, IsTrimmed t := by
  cases text with
  | none => simp
  | some text => simp [trimmed_eq_self]

theorem checkpointOf_text (checkpoint : HubLandingCheckpoint) :
    checkpointOf checkpoint.text = some checkpoint := by
  cases checkpoint <;> decide

theorem readString_toJson {record : HubLandingJournalRecord} {key : String}
    {text : Option String} (h : record.toJson.get key = text.map .string) :
    readString record.toJson key = text.bind trimmed := by
  rw [readString, h]
  cases text <;> rfl

theorem filterMap_text (texts : List String) :
    (texts.map Value.string).filterMap Value.text? = texts := by
  rw [List.filterMap_map]
  exact List.filterMap_some

def readPaths (paths : List String) : Option (List String) :=
  let kept := paths.filter fun path => trim path ≠ ""
  if kept = [] then none else some kept

theorem readPaths_eq_self {paths : Option (List String)} :
    paths.bind readPaths = paths ↔ ∀ l ∈ paths, l ≠ [] ∧ ∀ path ∈ l, trim path ≠ "" := by
  cases paths with
  | none => simp
  | some l =>
    rw [Option.bind_some, readPaths]
    simp only [Option.mem_some_iff, forall_eq']
    constructor
    · intro h
      split at h
      · cases h
      · rename_i hne
        have hkept := Option.some.inj h
        rw [hkept] at hne
        exact ⟨hne, fun path hpath => by simpa using List.filter_eq_self.mp hkept path hpath⟩
    · rintro ⟨hne, hpaths⟩
      have hkept : (l.filter fun path => trim path ≠ "") = l :=
        List.filter_eq_self.mpr fun path hpath => by simpa using hpaths path hpath
      rw [hkept, if_neg hne]

theorem parse_toJson (record : HubLandingJournalRecord) :
    parseHubLandingTransactionRecord record.toJson = (do
      let transactionId ← trimmed record.transactionId
      let taskId ← trimmed record.taskId
      let createdAt ← trimmed record.createdAt
      if [record.sourceOid, record.baseOid, record.candidateOid, record.publishTargetOid,
        record.fenceOid, record.receiptOid].all fun oid => (oid.bind trimmed).all isGitOid
      then some {
        checkpoint := record.checkpoint
        transactionId, taskId, createdAt
        sourceOid := record.sourceOid.bind trimmed
        baseOid := record.baseOid.bind trimmed
        candidateOid := record.candidateOid.bind trimmed
        candidateRef := record.candidateRef.bind trimmed
        verifierFingerprint := record.verifierFingerprint.bind trimmed
        verificationArtifactPath := record.verificationArtifactPath.bind trimmed
        publishTargetOid := record.publishTargetOid.bind trimmed
        fenceOid := record.fenceOid.bind trimmed
        receiptRef := record.receiptRef.bind trimmed
        receiptOid := record.receiptOid.bind trimmed
        filteredBeadsRuntimePaths := record.filteredBeadsRuntimePaths.bind readPaths }
      else none) := by
  obtain ⟨⟨htype, hcheckpoint, htransaction, htask, hcreated⟩, ⟨hsource, hbase, hcandidate, href,
    hfingerprint, hartifact, htarget, hfence, hreceiptRef, hreceipt⟩, hpaths⟩ := get_toJson record
  have hchecked : ((record.toJson.get "checkpoint").bind Value.text?).bind checkpointOf =
      some record.checkpoint := by
    rw [hcheckpoint]
    exact checkpointOf_text record.checkpoint
  have hread : readStringArray record.toJson "filteredBeadsRuntimePaths" =
      record.filteredBeadsRuntimePaths.bind readPaths := by
    rw [readStringArray, hpaths]
    cases record.filteredBeadsRuntimePaths with
    | none => rfl
    | some paths =>
      rw [Option.map_some, Option.bind_some, Value.items?, Option.bind_some, filterMap_text]
      rfl
  have hgiven : ∀ {key text : String}, record.toJson.get key = some (.string text) →
      readString record.toJson key = trimmed text := by
    intro key text hkey
    have htext : record.toJson.get key = (some text).map .string := hkey
    exact readString_toJson htext
  unfold parseHubLandingTransactionRecord
  rw [hchecked, hread, hgiven htransaction, hgiven htask, hgiven hcreated, readString_toJson hsource,
    readString_toJson hbase, readString_toJson hcandidate,
    readString_toJson href, readString_toJson hfingerprint, readString_toJson hartifact,
    readString_toJson htarget, readString_toJson hfence, readString_toJson hreceiptRef,
    readString_toJson hreceipt, htype]
  have hguard : ∀ {p : Prop} [Decidable p] (r : HubLandingJournalRecord),
      (do guard p; return r : Option HubLandingJournalRecord) = if p then some r else none := by
    intro p _ r
    by_cases hp : p
    · simp [guard, hp]
    · simp [guard, hp]
  simp only [hguard]
  rfl

theorem all_isGitOid {oids : List (Option Oid)} (h : ∀ oid ∈ oids, oid.bind trimmed = oid) :
    (oids.all fun oid => (oid.bind trimmed).all isGitOid) = true ↔
      ∀ oid ∈ oids, ∀ text ∈ oid, isGitOid text = true := by
  rw [List.all_eq_true]
  refine forall₂_congr fun oid hoid => ?_
  rw [h oid hoid]
  cases oid with
  | none => simp
  | some text => simp

theorem parse_toJson_eq_self {record : HubLandingJournalRecord} :
    parseHubLandingTransactionRecord record.toJson = some record ↔ IsReadable record := by
  rw [parse_toJson]
  obtain ⟨⟨checkpoint, transactionId, taskId, sourceOid, baseOid, candidateOid, fingerprint,
    publishTargetOid, fenceOid, receiptOid⟩, createdAt, candidateRef, artifactPath, receiptRef,
    paths⟩ := record
  dsimp only
  constructor
  · intro h
    obtain ⟨_, htransaction, h⟩ := Option.bind_eq_some_iff.mp h
    obtain ⟨_, htask, h⟩ := Option.bind_eq_some_iff.mp h
    obtain ⟨_, hcreated, h⟩ := Option.bind_eq_some_iff.mp h
    split_ifs at h with hchecked
    simp only [Option.some.injEq, HubLandingJournalRecord.mk.injEq,
      HubLandingTransactionRecord.mk.injEq, true_and] at h
    obtain ⟨⟨rfl, rfl, hsource, hbase, hcandidate, hfingerprint, htarget, hfence, hreceipt⟩, rfl,
      href, hartifact, hreceiptRef, hpaths⟩ := h
    refine ⟨trimmed_eq_self.mp htransaction, trimmed_eq_self.mp htask,
      trimmed_eq_self.mp hcreated, ?_, ?_, readPaths_eq_self.mp hpaths⟩
    · refine (all_isGitOid ?_).mp hchecked
      simp only [List.mem_cons, List.not_mem_nil, or_false]
      rintro oid (rfl | rfl | rfl | rfl | rfl | rfl)
      · exact hsource
      · exact hbase
      · exact hcandidate
      · exact htarget
      · exact hfence
      · exact hreceipt
    · simp only [List.mem_cons, List.not_mem_nil, or_false]
      rintro text (rfl | rfl | rfl | rfl)
      · exact bind_trimmed_eq_self.mp href
      · exact bind_trimmed_eq_self.mp hfingerprint
      · exact bind_trimmed_eq_self.mp hartifact
      · exact bind_trimmed_eq_self.mp hreceiptRef
  · intro h
    have hoids := h.oids
    have htexts := h.texts
    simp only [List.mem_cons, List.not_mem_nil, or_false, forall_eq_or_imp, forall_eq]
      at hoids htexts
    obtain ⟨hsource, hbase, hcandidate, htarget, hfence, hreceipt⟩ := hoids
    obtain ⟨href, hfingerprint, hartifact, hreceiptRef⟩ := htexts
    have hoid : ∀ {oid : Option Oid}, (∀ text ∈ oid, isGitOid text = true) →
        oid.bind trimmed = oid :=
      fun hall => bind_trimmed_eq_self.mpr fun text ht => isTrimmed_of_isGitOid (hall text ht)
    have hchecked : ([sourceOid, baseOid, candidateOid, publishTargetOid, fenceOid,
        receiptOid].all fun oid => (oid.bind trimmed).all isGitOid) = true :=
      (all_isGitOid fun oid hmem => hoid (h.oids oid hmem)).mpr h.oids
    have htransaction : trimmed transactionId = some transactionId :=
      trimmed_eq_self.mpr h.transactionId
    have htask : trimmed taskId = some taskId := trimmed_eq_self.mpr h.taskId
    have hcreated : trimmed createdAt = some createdAt := trimmed_eq_self.mpr h.createdAt
    have hpaths : paths.bind readPaths = paths := readPaths_eq_self.mpr h.paths
    rw [htransaction, htask, hcreated]
    simp only [Option.bind_eq_bind, Option.bind_some, hchecked, if_true]
    rw [hoid hsource, hoid hbase, hoid hcandidate, hoid htarget, hoid hfence, hoid hreceipt,
      bind_trimmed_eq_self.mpr href, bind_trimmed_eq_self.mpr hfingerprint,
      bind_trimmed_eq_self.mpr hartifact, bind_trimmed_eq_self.mpr hreceiptRef, hpaths]

/-! ### The fold -/

theorem foldl_toHubLandingTransactionState (records : List HubLandingJournalRecord)
    (state : HubLandingJournalState) :
    (records.foldl HubLandingJournalState.advance state).toHubLandingTransactionState =
      (records.map HubLandingJournalRecord.toHubLandingTransactionRecord).foldl
        HubLandingTransactionState.advance state.toHubLandingTransactionState := by
  induction records generalizing state with
  | nil => rfl
  | cons record records ih => exact ih (state.advance record)

theorem reduce_toHubLandingTransactionState (records : List HubLandingJournalRecord) :
    (reduceHubLandingTransaction records).map (fun s => s.toHubLandingTransactionState) =
      ArchLoop.reduceHubLandingTransaction
        (records.map HubLandingJournalRecord.toHubLandingTransactionRecord) := by
  cases records with
  | nil => rfl
  | cons first rest =>
    rw [reduceHubLandingTransaction, Option.map_some, List.map_cons,
      ArchLoop.reduceHubLandingTransaction, foldl_toHubLandingTransactionState, List.filter_map]
    rfl

theorem rank_append {records : List HubLandingTransactionRecord}
    {record : HubLandingTransactionRecord} {old new : HubLandingTransactionState}
    (hold : ArchLoop.reduceHubLandingTransaction records = some old)
    (hnew : ArchLoop.reduceHubLandingTransaction (records ++ [record]) = some new) :
    old.checkpoint.rank ≤ new.checkpoint.rank := by
  cases records with
  | nil => cases hold
  | cons first rest =>
    rw [ArchLoop.reduceHubLandingTransaction, Option.some.injEq] at hold
    rw [List.cons_append, ArchLoop.reduceHubLandingTransaction, Option.some.injEq,
      List.filter_append, List.foldl_append, hold] at hnew
    by_cases hid : record.transactionId = first.transactionId
    · rw [List.filter_cons_of_pos (by simp [hid]), List.filter_nil, List.foldl_cons,
        List.foldl_nil] at hnew
      have hrank := advance_rank old record
      rw [← hnew, hrank]
      omega
    · rw [List.filter_cons_of_neg (by simp [hid]), List.filter_nil, List.foldl_nil] at hnew
      rw [hnew]

theorem rank_reduce_append {records : List HubLandingJournalRecord}
    {record : HubLandingJournalRecord} {old new : HubLandingJournalState}
    (hold : reduceHubLandingTransaction records = some old)
    (hnew : reduceHubLandingTransaction (records ++ [record]) = some new) :
    old.checkpoint.rank ≤ new.checkpoint.rank := by
  have holdState := reduce_toHubLandingTransactionState records
  have hnewState := reduce_toHubLandingTransactionState (records ++ [record])
  rw [hold] at holdState
  rw [hnew, List.map_append] at hnewState
  exact rank_append holdState.symm hnewState.symm

/-! ### The append -/

/-- All that was readable is read with the new record behind it, the state is the fold of that
list, and the rank does not fall. -/
def AppendSurvives (journal : List UInt8) (record : HubLandingJournalRecord) : Prop :=
  let appended := appendHubLandingCheckpoint journal record
  readHubLandingJournal appended.1 = readHubLandingJournal journal ++ [record] ∧
    (∃ state, appended.2 = some state ∧
      reduceHubLandingTransaction (readHubLandingJournal journal ++ [record]) = some state ∧
      ∀ old, loadHubLandingTransaction journal = some old →
        old.checkpoint.rank ≤ state.checkpoint.rank)

theorem length_read_torn {journal : List UInt8} (record : HubLandingJournalRecord)
    (htorn : ∃ c ∈ JsonLines.tailOf journal, isWhitespace c = false) :
    (readHubLandingJournal (appendHubLandingCheckpoint journal record).1).length ≤
      (readHubLandingJournal journal).length := by
  have hread : readHubLandingJournal (appendHubLandingCheckpoint journal record).1 =
      JsonLines.readLines parseHubLandingTransactionRecord (JsonLines.wholeLines journal) :=
    JsonLines.read_append_torn (isLine_toJson record) htorn
  rw [hread, readHubLandingJournal, JsonLines.read_eq, List.length_append]
  omega

theorem read_whole {journal : List UInt8} (record : HubLandingJournalRecord)
    (hwhole : ∀ c ∈ JsonLines.tailOf journal, isWhitespace c = true) :
    readHubLandingJournal (appendHubLandingCheckpoint journal record).1 =
      readHubLandingJournal journal ++
        (parseHubLandingTransactionRecord record.toJson).toList :=
  JsonLines.read_append (isLine_toJson record) hwhole

/-- An append survives exactly when the file ends with a whole line, or whitespace behind it, and
the record is one that the reader gives back. -/
theorem appendSurvives_iff (journal : List UInt8) (record : HubLandingJournalRecord) :
    AppendSurvives journal record ↔
      (∀ c ∈ JsonLines.tailOf journal, isWhitespace c = true) ∧ IsReadable record := by
  constructor
  · rintro ⟨hread, -⟩
    have hwhole : ∀ c ∈ JsonLines.tailOf journal, isWhitespace c = true := by
      by_contra htorn
      have htorn' : ∃ c ∈ JsonLines.tailOf journal, isWhitespace c = false := by simpa using htorn
      have hlength := length_read_torn record htorn'
      rw [hread, List.length_append, List.length_singleton] at hlength
      omega
    refine ⟨hwhole, parse_toJson_eq_self.mp ?_⟩
    have hlast := (read_whole record hwhole).symm.trans hread
    rw [List.append_right_inj] at hlast
    exact Option.toList_eq_singleton_iff.mp hlast
  · rintro ⟨hwhole, hreadable⟩
    have hread : readHubLandingJournal (appendHubLandingCheckpoint journal record).1 =
        readHubLandingJournal journal ++ [record] := by
      rw [read_whole record hwhole, parse_toJson_eq_self.mpr hreadable]
      rfl
    obtain ⟨state, hstate⟩ : ∃ state,
        reduceHubLandingTransaction (readHubLandingJournal journal ++ [record]) = some state := by
      cases readHubLandingJournal journal with
      | nil => exact ⟨_, rfl⟩
      | cons first rest => exact ⟨_, rfl⟩
    refine ⟨hread, state, ?_, hstate, fun old hold => rank_reduce_append hold hstate⟩
    rw [← hstate, ← hread]
    rfl

/-- A record of a transaction that was just opened. -/
def openedRecord : HubLandingJournalRecord where
  checkpoint := .opened
  transactionId := "ltx-t1"
  taskId := "t1"
  createdAt := "2024-01-01T00:00:00.000Z"

/-- A crash after the first octet of a line hides the next record. -/
theorem torn_journal_loses : ¬ ∀ journal record, AppendSurvives journal record := by
  intro hall
  obtain ⟨hread, -⟩ := hall [0x7B] openedRecord
  have htail : JsonLines.tailOf [0x7B] = ['{'] := by decide +kernel
  have htorn : ∃ c ∈ JsonLines.tailOf [0x7B], isWhitespace c = false := by
    rw [htail]
    exact ⟨'{', List.mem_singleton_self _, rfl⟩
  have hlength := length_read_torn openedRecord htorn
  rw [hread, List.length_append, List.length_singleton] at hlength
  omega

end ArchLoop.JournalFile
