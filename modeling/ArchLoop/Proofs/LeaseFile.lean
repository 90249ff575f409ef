import ArchLoop.LeaseFile

/-!
# The two readers of a lock file

The writer puts the owner of a lease beside the other keys: `"owner": "hub"`, `"taskId": ...`. The
reader of `WorktreeLease.ts` finds it there (`parseLeaseText_leaseContent`). The reader of
`worktreeLeaseStore.ts` expects an object under `owner` and finds a text, so it reads the lease
without its owner (`parseWorktreeLeaseFile_leaseContent`), whatever the lease is. No lease that
was written is found by its task, then, but only by its branch
(`findWorktreeLeaseForTask_written`).

The readers also disagree on which texts are leases: `leaseReaders_agree_iff` has the exact
condition.
-/

set_option autoImplicit false

namespace ArchLoop.LeaseFile

open ArchLoop.Lib ArchLoop.Lib.JsonText

/-! ### Reading what was written -/

section Written

variable {metadata : WorktreeLeaseMetadata}

theorem printable_leaseMembers (metadata : WorktreeLeaseMetadata) :
    Printable (.object (leaseMembers metadata)) := by
  show PrintableMembers (leaseMembers metadata)
  rw [printableMembers_iff]
  unfold leaseMembers
  have hpid : Printable (.ofInt metadata.pid) := isNumber_decimal _
  cases metadata.owner with
  | direct => simp [Printable, hpid]
  | hub taskId flowId batchId => simp [Printable, hpid]

theorem parse_leaseContent (metadata : WorktreeLeaseMetadata) :
    parse (leaseContent metadata) = some (.object (leaseMembers metadata)) :=
  parse_print_break (printable_leaseMembers metadata)

theorem leaseRecordOf_leaseMembers (hpid : metadata.pid < 2 ^ 53) :
    leaseRecordOf (.object (leaseMembers metadata)) =
      serializeWorktreeLeaseMetadata metadata := by
  have hread : Double.integer? (.ofInt metadata.pid) = some (metadata.pid : Int) :=
    Double.integer?_ofInt hpid
  -- All keys are looked up in a list, and only the number is read from its digits.
  have hkeys : leaseRecordOf (.object (leaseMembers metadata)) =
      { serializeWorktreeLeaseMetadata metadata with
        pid := Double.integer? (.ofInt metadata.pid) } := by
    obtain ⟨owner, pid, branch, acquiredAt⟩ := metadata
    cases owner with
    | direct => rfl
    | hub taskId flowId batchId => rfl
  rw [hkeys, hread]
  obtain ⟨owner, pid, branch, acquiredAt⟩ := metadata
  cases owner with
  | direct => rfl
  | hub taskId flowId batchId => rfl

theorem parseWorktreeLeaseOwner_leaseMembers (metadata : WorktreeLeaseMetadata) :
    parseWorktreeLeaseOwner ((Value.object (leaseMembers metadata)).get "owner") = none := by
  have howner : ∃ text, (Value.object (leaseMembers metadata)).get "owner" =
      some (.string text) := by
    unfold leaseMembers
    cases metadata.owner with
    | direct => exact ⟨"direct", rfl⟩
    | hub taskId flowId batchId => exact ⟨"hub", rfl⟩
  obtain ⟨text, htext⟩ := howner
  rw [htext]
  rfl

theorem owner_parseWorktreeLeaseFile (lockFileName : String) (alive : ℚ → Bool)
    (metadata : WorktreeLeaseMetadata) :
    (parseWorktreeLeaseFile lockFileName (leaseContent metadata) alive).owner = none := by
  have howner := parseWorktreeLeaseOwner_leaseMembers metadata
  unfold parseWorktreeLeaseFile
  rw [parse_leaseContent]
  dsimp only
  cases hfields : storeFields (.object (leaseMembers metadata)) with
  | none => exact howner
  | some fields => exact howner

structure Named (metadata : WorktreeLeaseMetadata) : Prop where
  branch : metadata.branch ≠ ""
  acquiredAt : metadata.acquiredAt ≠ ""
  owner : ∀ taskId flowId batchId, metadata.owner = .hub taskId flowId batchId →
    taskId ≠ "" ∧ flowId ≠ "" ∧ batchId ≠ ""

/-- The reader that belongs to the writer has the whole lease back. -/
theorem parseLeaseText_leaseContent (repoDir : String) (hnamed : Named metadata)
    (hpos : 0 < metadata.pid) (hpid : metadata.pid < 2 ^ 53) :
    parseLeaseText (leaseContent metadata) repoDir metadata.branch true = .ok metadata := by
  have hback : (serializeWorktreeLeaseMetadata metadata).metadata = some metadata := by
    obtain ⟨hbranch, htime, hids⟩ := hnamed
    obtain ⟨owner, pid, branch, acquiredAt⟩ := metadata
    have hposInt : (0 : Int) < pid := by exact_mod_cast hpos
    cases owner with
    | direct =>
      simp_all [serializeWorktreeLeaseMetadata, LeaseRecord.metadata, LeaseRecord.directMetadata,
        isPositiveInteger, isNonEmptyString, Option.filter]
    | hub taskId flowId batchId =>
      obtain ⟨htask, hflow, hbatch⟩ := hids taskId flowId batchId rfl
      simp_all [serializeWorktreeLeaseMetadata, LeaseRecord.metadata, LeaseRecord.directMetadata,
        LeaseRecord.hubMetadata, isPositiveInteger, isNonEmptyString, Option.filter]
  unfold parseLeaseText parseLeaseMetadata
  rw [parse_leaseContent, Option.map_some, leaseRecordOf_leaseMembers hpid]
  dsimp only
  rw [hback]
  simp

theorem parseLeaseText_leaseContent_sample :
    let lease : WorktreeLeaseMetadata :=
      { owner := .direct, pid := 4711, branch := "dev", acquiredAt := "2026-06-22" }
    parseLeaseText (leaseContent lease) "/repo" "dev" true = .ok lease :=
  parseLeaseText_leaseContent "/repo"
    ⟨by decide, by decide, fun _ _ _ howner => by cases howner⟩ (by decide) (by decide)

/-- The reader of the store has the branch, the process and the time back, and no owner. -/
theorem parseWorktreeLeaseFile_leaseContent (lockFileName : String) (alive : ℚ → Bool)
    (hbranch : trim metadata.branch = metadata.branch ∧ metadata.branch ≠ "")
    (htime : trim metadata.acquiredAt = metadata.acquiredAt ∧ metadata.acquiredAt ≠ "")
    (hpid : metadata.pid < 2 ^ 53) :
    parseWorktreeLeaseFile lockFileName (leaseContent metadata) alive =
      { lockFileName
        worktreeName := (lockFileNameToLeaseName lockFileName).getD lockFileName
        branch := metadata.branch
        pid := metadata.pid
        acquiredAt := metadata.acquiredAt
        owner := none
        state := if alive metadata.pid then .active else .stale
        malformed := false } := by
  have hread : Double.double? (.ofInt metadata.pid) = some (metadata.pid : ℚ) :=
    Double.double?_ofInt hpid
  have htext : ∀ {text : String}, trim text = text ∧ text ≠ "" →
      readString (some (.string text)) = some text := by
    rintro text ⟨htrim, hne⟩
    show (if trim text = "" then none else some (trim text)) = some text
    rw [htrim, if_neg hne]
  have hfields : storeFields (.object (leaseMembers metadata)) =
      some (metadata.branch, (metadata.pid : ℚ), metadata.acquiredAt) := by
    have hkeys : storeFields (.object (leaseMembers metadata)) =
        (readString (some (.string metadata.branch))).bind fun branch =>
        (Double.double? (.ofInt metadata.pid)).bind fun pid =>
        (readString (some (.string metadata.acquiredAt))).bind fun acquiredAt =>
        some (branch, pid, acquiredAt) := by
      obtain ⟨owner, pid, branch, acquiredAt⟩ := metadata
      cases owner with
      | direct => rfl
      | hub taskId flowId batchId => rfl
    rw [hkeys, htext hbranch, hread, htext htime]
    rfl
  unfold parseWorktreeLeaseFile
  rw [parse_leaseContent]
  dsimp only
  rw [hfields, parseWorktreeLeaseOwner_leaseMembers]

theorem parseWorktreeLeaseFile_leaseContent_sample :
    parseWorktreeLeaseFile "dev.lock" (leaseContent
      { owner := .hub "bd-1" "no-review" "batch-1", pid := 4711, branch := "dev"
        acquiredAt := "2026-06-22" }) (fun _ => true) =
    { lockFileName := "dev.lock"
      worktreeName := (lockFileNameToLeaseName "dev.lock").getD "dev.lock"
      branch := "dev", pid := 4711, acquiredAt := "2026-06-22", owner := none
      state := .active, malformed := false } :=
  parseWorktreeLeaseFile_leaseContent "dev.lock" (fun _ => true)
    ⟨by decide, by decide⟩ ⟨by decide, by decide⟩ (by decide)

/-- Among leases that were written, a task finds one by its branch or by its worktree only. -/
theorem findWorktreeLeaseForTask_written (taskId : TaskId) (title : String)
    (claimBranch : Option String) (alive : ℚ → Bool)
    (files : List (String × WorktreeLeaseMetadata)) :
    let branch := resolveTaskBranch taskId title claimBranch
    findWorktreeLeaseForTask taskId title claimBranch
      (files.map fun file => parseWorktreeLeaseFile file.1 (leaseContent file.2) alive) =
    (files.map fun file => parseWorktreeLeaseFile file.1 (leaseContent file.2) alive).find?
      fun lease => lease.branch == branch || lease.worktreeName == branchToWorktreeName branch := by
  intro branch
  unfold findWorktreeLeaseForTask
  induction files with
  | nil => rfl
  | cons file files ih =>
    rw [List.map_cons, List.find?_cons, List.find?_cons, ih, owner_parseWorktreeLeaseFile]
    rfl

end Written

/-! ### Which texts are leases -/

section Verdicts

variable {raw : List Char} {value : Value}

/-- Whether the reader of `WorktreeLease.ts` takes a text for a lease. -/
def LeaseAccepts (raw : List Char) (repoDir branch : String) (requireBranchMatch : Bool) : Prop :=
  ∃ metadata, parseLeaseText raw repoDir branch requireBranchMatch = .ok metadata

/-- Whether the reader of the store takes a text for a lease. -/
def StoreAccepts (raw : List Char) (lockFileName : String) (alive : ℚ → Bool) : Prop :=
  (parseWorktreeLeaseFile lockFileName raw alive).malformed = false

/-- A value has what makes a lease of it for the store: a branch and a time with more than blanks,
and a finite number for the process. -/
def HasStoreKeys (value : Value) : Prop :=
  (∃ text, (value.get "branch").bind Value.text? = some text ∧ trim text ≠ "") ∧
  ((value.get "pid").bind Double.double?).isSome = true ∧
  ∃ text, (value.first ["acquiredAt", "acquired_at"]).bind Value.text? = some text ∧
    trim text ≠ ""

/-- When the two readers agree on a value. If it is the metadata of a lease, the store wants a
branch and a time that are not blank, and the other reader may want one branch. Any other value
must not have what the store looks for. -/
def AlikeValue (value : Value) (branch : String) (requireBranchMatch : Bool) : Prop :=
  match (leaseRecordOf value).metadata with
  | some metadata =>
    (requireBranchMatch = true → metadata.branch = branch) ↔
      trim metadata.branch ≠ "" ∧ trim metadata.acquiredAt ≠ ""
  | none => ¬HasStoreKeys value

theorem readString_isSome_iff {member : Option Value} :
    (readString member).isSome = true ↔
      ∃ text, member.bind Value.text? = some text ∧ trim text ≠ "" := by
  unfold readString
  cases member.bind Value.text? with
  | none => simp
  | some text =>
    by_cases hblank : trim text = ""
    · simp [hblank]
    · simp [hblank]

theorem storeFields_isSome_iff : (storeFields value).isSome = true ↔ HasStoreKeys value := by
  unfold HasStoreKeys storeFields
  rw [← readString_isSome_iff, ← readString_isSome_iff]
  cases readString (value.get "branch") with
  | none => simp
  | some branch =>
    cases (value.get "pid").bind Double.double? with
    | none => simp
    | some pid =>
      cases readString (value.first ["acquiredAt", "acquired_at"]) with
      | none => simp
      | some acquiredAt => simp

theorem storeAccepts_iff {lockFileName : String} {alive : ℚ → Bool} :
    StoreAccepts raw lockFileName alive ↔
      ∃ value, parse raw = some value ∧ (storeFields value).isSome = true := by
  unfold StoreAccepts parseWorktreeLeaseFile
  cases parse raw with
  | none => simp
  | some value =>
    cases hfields : storeFields value with
    | none => simp [hfields]
    | some fields => simp [hfields]

theorem leaseAccepts_iff {repoDir branch : String} {requireBranchMatch : Bool} :
    LeaseAccepts raw repoDir branch requireBranchMatch ↔
      ∃ value metadata, parse raw = some value ∧
        (leaseRecordOf value).metadata = some metadata ∧
        (requireBranchMatch = true → metadata.branch = branch) := by
  unfold LeaseAccepts parseLeaseText parseLeaseMetadata
  cases parse raw with
  | none => simp
  | some value =>
    cases hmetadata : (leaseRecordOf value).metadata with
    | none => simp [hmetadata]
    | some metadata =>
      cases requireBranchMatch with
      | false => simp [hmetadata]
      | true =>
        by_cases hbranch : metadata.branch = branch
        · simp [hmetadata, hbranch]
        · simp [hmetadata, hbranch]

theorem fields_of_metadata {record : LeaseRecord} {metadata : WorktreeLeaseMetadata}
    (h : record.metadata = some metadata) :
    record.branch = some metadata.branch ∧ record.acquiredAt = some metadata.acquiredAt ∧
      record.pid.isSome = true := by
  have htext : ∀ {text : Option String} {found : String},
      isNonEmptyString text = some found → text = some found :=
    fun h => (Option.filter_eq_some_iff.mp h).1
  have hnumber : ∀ {pid : Option Int} {found : Nat},
      isPositiveInteger pid = some found → pid.isSome = true := by
    intro pid found h
    cases pid with
    | none => cases h
    | some pid => rfl
  rcases Option.or_eq_some_iff.mp h with h | ⟨-, h⟩
  · unfold LeaseRecord.directMetadata at h
    split at h
    · obtain ⟨pid, hpid, h⟩ := Option.bind_eq_some_iff.mp h
      obtain ⟨branch, hbranch, h⟩ := Option.bind_eq_some_iff.mp h
      obtain ⟨acquiredAt, htime, rfl⟩ := Option.map_eq_some_iff.mp h
      exact ⟨htext hbranch, htext htime, hnumber hpid⟩
    · cases h
  · unfold LeaseRecord.hubMetadata at h
    split at h
    · obtain ⟨taskId, -, h⟩ := Option.bind_eq_some_iff.mp h
      obtain ⟨flowId, -, h⟩ := Option.bind_eq_some_iff.mp h
      obtain ⟨batchId, -, h⟩ := Option.bind_eq_some_iff.mp h
      obtain ⟨branch, hbranch, h⟩ := Option.bind_eq_some_iff.mp h
      obtain ⟨pid, hpid, h⟩ := Option.bind_eq_some_iff.mp h
      obtain ⟨acquiredAt, htime, rfl⟩ := Option.map_eq_some_iff.mp h
      exact ⟨htext hbranch, htext htime, hnumber hpid⟩
    · cases h

theorem storeFields_of_metadata {metadata : WorktreeLeaseMetadata}
    (h : (leaseRecordOf value).metadata = some metadata) :
    (storeFields value).isSome = true ↔
      trim metadata.branch ≠ "" ∧ trim metadata.acquiredAt ≠ "" := by
  obtain ⟨hbranch, htime, hpid⟩ := fields_of_metadata h
  have hbranch' : (value.get "branch").bind Value.text? = some metadata.branch := hbranch
  have htime' : (value.get "acquiredAt").bind Value.text? = some metadata.acquiredAt := htime
  -- A time that is a text is not looked for under its other name.
  have hfirst : (value.first ["acquiredAt", "acquired_at"]).bind Value.text? =
      some metadata.acquiredAt := by
    unfold Value.first
    cases hget : value.get "acquiredAt" with
    | none =>
      rw [hget] at htime'
      cases htime'
    | some member =>
      rw [hget] at htime'
      cases member with
      | string text => exact htime'
      | null | bool b | number written | array items | object members => cases htime'
  have hdouble : ((value.get "pid").bind Double.double?).isSome = true := by
    have hinteger : ((value.get "pid").bind Double.integer?).isSome = true := hpid
    cases hget : value.get "pid" with
    | none =>
      rw [hget] at hinteger
      cases hinteger
    | some member =>
      rw [hget, Option.bind_some] at hinteger
      unfold Double.integer? at hinteger
      rw [Option.bind_some]
      cases hread : Double.double? member with
      | none =>
        rw [hread] at hinteger
        cases hinteger
      | some q => rfl
  rw [storeFields_isSome_iff]
  unfold HasStoreKeys
  rw [hbranch', hfirst, hdouble]
  simp

theorem alike_iff {lockFileName repoDir branch : String} {alive : ℚ → Bool}
    {requireBranchMatch : Bool} :
    (LeaseAccepts raw repoDir branch requireBranchMatch ↔ StoreAccepts raw lockFileName alive) ↔
      ∀ value, parse raw = some value → AlikeValue value branch requireBranchMatch := by
  rw [leaseAccepts_iff, storeAccepts_iff]
  cases hparse : parse raw with
  | none => simp
  | some value =>
    have hvalue : (∀ other, some value = some other →
        AlikeValue other branch requireBranchMatch) ↔
        AlikeValue value branch requireBranchMatch := by
      simp
    rw [hvalue]
    unfold AlikeValue
    cases hmetadata : (leaseRecordOf value).metadata with
    | some metadata =>
      have hstore := storeFields_of_metadata hmetadata
      simp [hmetadata, hstore]
    | none =>
      have hstore : (storeFields value).isSome = true ↔ HasStoreKeys value :=
        storeFields_isSome_iff
      simp [hmetadata, hstore]

end Verdicts

/-! ### Both readers -/

def ownerOf : WorktreeLeaseOwnerInput → WorktreeLeaseOwner
  | .direct => { kind := .direct }
  | .hub taskId flowId batchId =>
    { kind := .hub, taskId := some taskId, flowId := some flowId, batchId := some batchId }

/-- Both readers have the lease back from its text. -/
structure ReadBack (metadata : WorktreeLeaseMetadata) (repoDir lockFileName : String)
    (alive : ℚ → Bool) : Prop where
  lease : parseLeaseText (leaseContent metadata) repoDir metadata.branch true = .ok metadata
  wellFormed : (parseWorktreeLeaseFile lockFileName (leaseContent metadata) alive).malformed =
    false
  branch : (parseWorktreeLeaseFile lockFileName (leaseContent metadata) alive).branch =
    metadata.branch
  pid : (parseWorktreeLeaseFile lockFileName (leaseContent metadata) alive).pid = metadata.pid
  acquiredAt : (parseWorktreeLeaseFile lockFileName (leaseContent metadata) alive).acquiredAt =
    metadata.acquiredAt
  owner : (parseWorktreeLeaseFile lockFileName (leaseContent metadata) alive).owner =
    some (ownerOf metadata.owner)

/-- No lease that is written is read back by both readers, and on any other text they agree
exactly under `AlikeValue`. -/
theorem leaseReaders_agree_iff {ι : Type} (caller : LeaseCaller ι) (branch : String)
    (owner : WorktreeLeaseOwnerInput) (repoDir lockFileName : String) (alive : ℚ → Bool)
    (raw : List Char) (expected : String) (requireBranchMatch : Bool) :
    ¬ReadBack (buildWorktreeLeaseMetadata caller branch owner) repoDir lockFileName alive ∧
    ((LeaseAccepts raw repoDir expected requireBranchMatch ↔
      StoreAccepts raw lockFileName alive) ↔
      ∀ value, parse raw = some value → AlikeValue value expected requireBranchMatch) := by
  constructor
  · intro hback
    have howner := hback.owner
    rw [owner_parseWorktreeLeaseFile] at howner
    cases howner
  · exact alike_iff

def hubLease : WorktreeLeaseMetadata :=
  buildWorktreeLeaseMetadata { fiber := (), pid := 4711, now := "2026-06-22T10:00:00.000Z" }
    "archloop/bd-1-task" (.hub "bd-1" "no-review" "batch-1")

/-- The reader of the store finds no owner in the lease of a task. -/
theorem hubLease_not_readBack :
    (parseWorktreeLeaseFile "archloop-bd-1-task.lock" (leaseContent hubLease)
      fun _ => true).owner = none ∧
    ¬ReadBack hubLease "/repo" "archloop-bd-1-task.lock" fun _ => true := by
  have howner : (parseWorktreeLeaseFile "archloop-bd-1-task.lock" (leaseContent hubLease)
      fun _ => true).owner = none := by
    have hparse : parse (leaseContent hubLease) = some (.object (leaseMembers hubLease)) :=
      parse_leaseContent hubLease
    unfold parseWorktreeLeaseFile
    rw [hparse]
    dsimp only
    split
    · rfl
    · rfl
  refine ⟨howner, ?_⟩
  intro hback
  have hfound := hback.owner
  rw [howner] at hfound
  cases hfound

end ArchLoop.LeaseFile
