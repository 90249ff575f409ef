import ArchLoop.Proofs.CandidateGenerations
import ArchLoop.Proofs.Evidence

/-!
# `ArchLoop.Proofs.ClosedEvidence`: when evidence of a close is real

`collectEvidence` reads the closes of the task store where the caller has passed a reader.
Without one it takes a journal that has reached `task_closed` for a close, and `cleaned` ranks
above `task_closed`. Each landing attempt that gives way to another owner or to a drift ends with
`cleaned`, so such a candidate counts as closed.

`collectEvidenceBy` is the function with and without the reader, and with the reader of the task
store it is the `collectEvidence` that reconciliation uses (`collectEvidenceBy_store`).
`evidenceHonest_iff` says when the evidence of a transaction is `EvidenceHonest`: the journal of
an unclosed transaction has not reached `cleaned` where the reader is missing, and where it is
there, the refs of a transaction that was only cleaned up show an incident.
-/

set_option autoImplicit false

namespace ArchLoop

open ArchLoop.Lib

/-! ### Evidence with and without a reader -/

/-- `HubLandingTaskCloseReader`: what it reads of a task is the task's close, or nothing where the
board cannot be loaded. -/
structure HubLandingTaskCloseReader (s : HubWorld) where
  read : TaskId → Option HubLandingBeadsCloseEvidence
  reads : ∀ taskId evidence, read taskId = some evidence → s.tasks taskId = some evidence

def storeReader (s : HubWorld) : HubLandingTaskCloseReader s where
  read := s.tasks
  reads _ _ h := h

namespace HubWorld

variable (git : Git) (s : HubWorld) (policy : Option HubLandingPolicy)
  (readTaskClose : Option (HubLandingTaskCloseReader s)) (transactionId : TransactionId)

def closeCandidateOid : Option Oid :=
  s.evidenceCandidateOid transactionId <|>
    (s.receipt transactionId).map (·.receipt.candidateOid)

/-- `closedFromBeads`, with what `readTaskBackedBeadsClose` reads. -/
def closedFromBeadsBy : Bool :=
  match s.evidenceTaskId transactionId with
  | some taskId =>
    isHubLandingTaskBacked (some taskId) &&
      isMatchingHubLandingBeadsClose (readTaskClose.bind fun reader => reader.read taskId)
        transactionId (s.closeCandidateOid transactionId)
  | none => false

/-- `closedFromJournal`. -/
def closedFromJournal : Bool :=
  readTaskClose.isNone && decide (s.journalRank transactionId ≥ rankOf (some .taskClosed))

/-- `closed`. -/
def closedEvidenceBy : Bool :=
  s.closedFromBeadsBy readTaskClose transactionId ||
    s.closedFromJournal readTaskClose transactionId ||
    s.closedFromHostContribution git policy transactionId

/-- `cleaned`. -/
def cleanedEvidenceBy : Bool :=
  (s.worktree transactionId).isNone &&
    (s.landedEvidence git policy transactionId ||
      s.closedEvidenceBy git policy readTaskClose transactionId ||
      (s.transactionState transactionId).map (·.checkpoint) == some .cleaned)

def evidenceCheckpointsBy : List (Option HubLandingCheckpoint) :=
  [(s.transactionState transactionId).map (·.checkpoint),
    if (s.evidenceCandidateOid transactionId).isSome then some .candidateCreated else none,
    if s.verificationReusable git transactionId then some .candidateVerified else none,
    if s.landedEvidence git policy transactionId then some .targetLanded else none,
    if s.closedEvidenceBy git policy readTaskClose transactionId then some .taskClosed else none,
    if s.cleanedEvidenceBy git policy readTaskClose transactionId then some .cleaned else none]

/-- `collectEvidence`. -/
def collectEvidenceBy : HubLandingTransactionEvidence :=
  let journal := s.transactionState transactionId
  let manifest := s.manifest transactionId
  let incident := s.integrityIncident git policy transactionId
  let landed := s.landedEvidence git policy transactionId
  let closed := s.closedEvidenceBy git policy readTaskClose transactionId
  let worktreePresent := (s.worktree transactionId).isSome
  let checkpoint := maxCheckpoint (s.evidenceCheckpointsBy git policy readTaskClose transactionId)
  { transactionId := transactionId
    taskId := s.evidenceTaskId transactionId
    taskBacked := isHubLandingTaskBacked (s.evidenceTaskId transactionId)
    journalCheckpoint := journal.map (·.checkpoint)
    evidenceCheckpoint := checkpoint
    sourceOid := journal.bind (·.sourceOid) <|> manifest.map (·.sourceOid)
    baseOid := journal.bind (·.baseOid) <|> manifest.map (·.baseOid)
    candidateOid := s.evidenceCandidateOid transactionId
    verifierFingerprint :=
      if s.verificationReusable git transactionId then some s.verifier.verifierFingerprint
      else journal.bind (·.verifierFingerprint)
    verificationReusable := s.verificationReusable git transactionId
    landed := landed
    closed := closed
    cleaned := s.cleanedEvidenceBy git policy readTaskClose transactionId
    worktreePresent := worktreePresent
    receiptOid := (s.receipt transactionId).map (·.oid)
    publishTargetOid := s.evidenceTargetOid policy
    integrityIncident := incident
    pending := isPendingReconciliation incident checkpoint landed closed worktreePresent
    nextAction := if incident.isSome then integrityAction else pendingAction }

/-- With the reader of the store this is the evidence of a reconciliation. -/
theorem collectEvidenceBy_store :
    s.collectEvidenceBy git policy (some (storeReader s)) transactionId =
      s.collectEvidence git policy transactionId := by
  have hclosed : s.closedEvidenceBy git policy (some (storeReader s)) transactionId =
      s.closedEvidence git policy transactionId := by
    have hbeads : s.closedFromBeadsBy (some (storeReader s)) transactionId =
        s.closedFromBeads transactionId := rfl
    have hjournal : s.closedFromJournal (some (storeReader s)) transactionId = false := rfl
    rw [closedEvidenceBy, hbeads, hjournal, Bool.or_false]
    rfl
  have hcleaned : s.cleanedEvidenceBy git policy (some (storeReader s)) transactionId =
      s.cleanedEvidence git policy transactionId := by
    rw [cleanedEvidenceBy, hclosed]
    rfl
  simp only [collectEvidenceBy, evidenceCheckpointsBy, hclosed, hcleaned]
  rfl

end HubWorld

/-! ### Statement -/

namespace HubWorld

variable (s : HubWorld) (transactionId : TransactionId)

/-- The task of the transaction was closed for it: the journal records the close, or the task
store has it with the transaction and the candidate. -/
def ReallyClosed : Prop :=
  (∃ record ∈ s.journal transactionId, record.checkpoint = .taskClosed) ∨
  ∃ taskId, s.evidenceTaskId transactionId = some taskId ∧
    isMatchingHubLandingBeadsClose (s.tasks taskId) transactionId
      (s.closeCandidateOid transactionId) = true

def journalCheckpoint : Option HubLandingCheckpoint :=
  (s.transactionState transactionId).map (·.checkpoint)

/-- The candidate of a task was cleaned up, and that is all that became of it.

- `taskBacked`: the transaction is one of a task.
- `cleaned`: the journal stands at `cleaned`.
- `unlanded`, `unreceipted`: neither the journal nor the refs know of a landing.
- `unclosed`: the task was not closed. -/
structure OnlyCleaned : Prop where
  taskBacked : isHubLandingTaskBacked (s.evidenceTaskId transactionId) = true
  cleaned : s.journalCheckpoint transactionId = some .cleaned
  unlanded : ∀ record ∈ s.journal transactionId, record.checkpoint ≠ .targetLanded
  unreceipted : s.receipt transactionId = none
  unclosed : ¬s.ReallyClosed transactionId

/-- The candidate ref names another candidate than the journal or the manifest. -/
def CandidatesDisagree : Prop :=
  ∃ refOid, s.candidateRef transactionId = some refOid ∧
    ((∃ oid, (s.transactionState transactionId).bind (·.candidateOid) = some oid ∧ oid ≠ refOid) ∨
      ∃ manifest, s.manifest transactionId = some manifest ∧ manifest.candidateOid ≠ refOid)

end HubWorld

/-- The evidence counts the transaction as complete: it shows no incident and waits for
nothing. -/
def HubLandingTransactionEvidence.Complete (evidence : HubLandingTransactionEvidence) : Prop :=
  evidence.integrityIncident = none ∧ evidence.pending = false

/-- What the evidence says of a close is so.

- `closed`: a task that it calls closed was closed.
- `cleaned`: a candidate that was only cleaned up is not called closed, landed or complete. -/
structure EvidenceHonest (s : HubWorld) (evidence : HubLandingTransactionEvidence) : Prop where
  closed : evidence.taskBacked = true → evidence.closed = true →
    s.ReallyClosed evidence.transactionId
  cleaned : s.OnlyCleaned evidence.transactionId →
    evidence.closed = false ∧ evidence.landed = false ∧ ¬evidence.Complete

/-! ### The journal -/

theorem reduce_checkpoint_mem {records : List HubLandingTransactionRecord}
    {state : HubLandingTransactionState}
    (h : reduceHubLandingTransaction records = some state) :
    ∃ record ∈ records, record.checkpoint = state.checkpoint := by
  have hfold : ∀ (l : List HubLandingTransactionRecord) (start : HubLandingTransactionState),
      (l.foldl HubLandingTransactionState.advance start).checkpoint = start.checkpoint ∨
        ∃ record ∈ l, record.checkpoint =
          (l.foldl HubLandingTransactionState.advance start).checkpoint := by
    intro l
    induction l with
    | nil => intro start; exact Or.inl rfl
    | cons record l ih =>
      intro start
      rcases ih (start.advance record) with hkept | ⟨later, hlater, heq⟩
      · by_cases hrank : start.checkpoint.rank ≤ record.checkpoint.rank
        · rw [advance_checkpoint_of_le hrank] at hkept
          exact Or.inr ⟨record, by simp, hkept.symm⟩
        · rw [advance_checkpoint_of_lt (by omega)] at hkept
          exact Or.inl hkept
      · exact Or.inr ⟨later, List.mem_cons_of_mem _ hlater, heq⟩
  cases records with
  | nil => cases h
  | cons first rest =>
    simp only [reduceHubLandingTransaction, Option.some.injEq] at h
    rcases hfold (rest.filter fun record => record.transactionId == first.transactionId)
      (initialTransactionState first) with hkept | ⟨record, hrecord, heq⟩
    · rw [h] at hkept
      exact ⟨first, by simp, hkept.symm⟩
    · rw [h] at heq
      exact ⟨record, List.mem_cons_of_mem _ (List.mem_filter.mp hrecord).1, heq⟩

namespace HubWorld

variable {git : Git} {s : HubWorld} {policy : Option HubLandingPolicy}
  {readTaskClose : Option (HubLandingTaskCloseReader s)} {transactionId : TransactionId}

theorem closed_or_cleaned_of_journalRank
    (h : s.journalRank transactionId ≥ rankOf (some .taskClosed)) :
    (∃ record ∈ s.journal transactionId, record.checkpoint = .taskClosed) ∨
      s.journalCheckpoint transactionId = some .cleaned := by
  rw [journalRank] at h
  cases hstate : s.transactionState transactionId with
  | none =>
    rw [hstate] at h
    simp at h
  | some state =>
    rw [hstate, Option.map_some, rankOf_some, rankOf_some] at h
    obtain ⟨record, hrecord, heq⟩ := reduce_checkpoint_mem hstate
    cases hcheckpoint : state.checkpoint <;> rw [hcheckpoint] at h heq
    case taskClosed => exact Or.inl ⟨record, hrecord, heq⟩
    case cleaned => exact Or.inr (by simp [journalCheckpoint, hstate, hcheckpoint])
    all_goals simp [HubLandingCheckpoint.rank] at h

theorem reallyClosed_of_beads (h : s.closedFromBeadsBy readTaskClose transactionId = true) :
    s.ReallyClosed transactionId := by
  unfold closedFromBeadsBy at h
  cases htask : s.evidenceTaskId transactionId with
  | none => simp [htask] at h
  | some taskId =>
    simp only [htask, Bool.and_eq_true] at h
    refine Or.inr ⟨taskId, htask, ?_⟩
    cases hread : readTaskClose.bind fun reader => reader.read taskId with
    | none => simp [hread, isMatchingHubLandingBeadsClose] at h
    | some evidence =>
      obtain ⟨reader, -, hreader⟩ := Option.bind_eq_some_iff.mp hread
      rw [reader.reads taskId evidence hreader]
      rw [hread] at h
      exact h.2

theorem closedFromHostContribution_of_taskBacked
    (h : isHubLandingTaskBacked (s.evidenceTaskId transactionId) = true) :
    s.closedFromHostContribution git policy transactionId = false := by
  simp [closedFromHostContribution, h]

theorem landedEvidence_of_unreceipted (h : s.receipt transactionId = none) :
    s.landedEvidence git policy transactionId = false := by
  simp [landedEvidence, h]

theorem candidateOidMismatchIncident_isSome_iff {source : String} {recordedOid refOid : Option Oid} :
    (candidateOidMismatchIncident source recordedOid refOid).isSome = true ↔
      ∃ recorded ref, recordedOid = some recorded ∧ refOid = some ref ∧ recorded ≠ ref := by
  unfold candidateOidMismatchIncident
  cases recordedOid with
  | none => simp
  | some recorded =>
    cases refOid with
    | none => simp
    | some ref =>
      by_cases h : recorded = ref
      · simp [h]
      · simp [h]

theorem integrityIncident_isSome_iff (h : s.receipt transactionId = none) :
    (s.integrityIncident git policy transactionId).isSome = true ↔
      s.CandidatesDisagree transactionId := by
  have hlost : s.receiptLostIncident git policy transactionId = none := by
    simp [receiptLostIncident, h]
  have hmismatch : s.receiptMismatchIncident transactionId = none := by
    simp [receiptMismatchIncident, h]
  have hor : ∀ a b : Option String, (a <|> b).isSome = true ↔ a.isSome = true ∨ b.isSome = true := by
    intro a b
    cases a <;> simp
  simp only [integrityIncident, hlost, hmismatch, hor, candidateOidMismatchIncident_isSome_iff,
    Option.isSome_none, Bool.false_eq_true, false_or, CandidatesDisagree]
  constructor
  · rintro (⟨oid, ref, hoid, href, hne⟩ | ⟨oid, ref, hoid, href, hne⟩)
    · exact ⟨ref, href, Or.inl ⟨oid, hoid, hne⟩⟩
    · obtain ⟨manifest, hmanifest, rfl⟩ := Option.map_eq_some_iff.mp hoid
      exact ⟨ref, href, Or.inr ⟨manifest, hmanifest, hne⟩⟩
  · rintro ⟨ref, href, ⟨oid, hoid, hne⟩ | ⟨manifest, hmanifest, hne⟩⟩
    · exact Or.inl ⟨oid, ref, hoid, href, hne⟩
    · exact Or.inr ⟨manifest.candidateOid, ref, by simp [hmanifest], href, hne⟩

end HubWorld

/-! ### When the evidence is honest -/

section
variable {git : Git} {s : HubWorld} {policy : Option HubLandingPolicy}
  {readTaskClose : Option (HubLandingTaskCloseReader s)} {transactionId : TransactionId}

theorem not_pending_of_cleaned {incident : Option String} {present : Bool}
    (hcleaned : s.journalCheckpoint transactionId = some .cleaned) :
    isPendingReconciliation incident
      (maxCheckpoint (s.evidenceCheckpointsBy git policy readTaskClose transactionId))
      false false present = false := by
  have hrank : rankOf (some .cleaned) ≤
      rankOf (maxCheckpoint (s.evidenceCheckpointsBy git policy readTaskClose transactionId)) := by
    rw [← hcleaned]
    exact rankOf_maxCheckpoint_le_iff.mp (Nat.le_refl _) _ List.mem_cons_self
  simp only [isPendingReconciliation, Bool.false_and, Bool.or_self, Bool.and_false,
    Bool.false_eq_true, if_false, ite_eq_left_iff, if_neg (Nat.not_lt.mpr hrank)]
  simp

/-- The evidence of a transaction is honest exactly when, for a transaction of a task,

- without a reader, a journal that stands at `cleaned` is one of a closed task, and
- with a reader, the candidate ref of one that was only cleaned up disagrees with the journal or
  the manifest. -/
theorem evidenceHonest_iff (git : Git) (policy : Option HubLandingPolicy) (s : HubWorld)
    (readTaskClose : Option (HubLandingTaskCloseReader s)) (transactionId : TransactionId) :
    EvidenceHonest s (s.collectEvidenceBy git policy readTaskClose transactionId) ↔
      (isHubLandingTaskBacked (s.evidenceTaskId transactionId) = true →
        (readTaskClose = none → s.journalCheckpoint transactionId = some .cleaned →
          s.ReallyClosed transactionId) ∧
        (readTaskClose ≠ none → s.OnlyCleaned transactionId →
          s.CandidatesDisagree transactionId)) := by
  constructor
  · intro h hbacked
    constructor
    · intro hreader hcleaned
      refine h.closed hbacked ?_
      have hrank : s.journalRank transactionId ≥ rankOf (some .taskClosed) := by
        rw [HubWorld.journalRank]
        rw [HubWorld.journalCheckpoint] at hcleaned
        rw [hcleaned]
        decide
      show s.closedEvidenceBy git policy readTaskClose transactionId = true
      have hjournal : s.closedFromJournal readTaskClose transactionId = true := by
        rw [HubWorld.closedFromJournal, hreader, decide_eq_true hrank]
        rfl
      rw [HubWorld.closedEvidenceBy, hjournal, Bool.or_true, Bool.true_or]
    · intro _ honly
      obtain ⟨hclosed, hlanded, hcomplete⟩ := h.cleaned honly
      by_contra hagree
      have hincident : s.integrityIncident git policy transactionId = none := by
        rw [← @HubWorld.integrityIncident_isSome_iff git s policy transactionId
          honly.unreceipted] at hagree
        simpa using hagree
      refine hcomplete ⟨hincident, ?_⟩
      show isPendingReconciliation _ _ (s.landedEvidence git policy transactionId)
        (s.closedEvidenceBy git policy readTaskClose transactionId) _ = false
      have hlanded' : s.landedEvidence git policy transactionId = false := hlanded
      have hclosed' : s.closedEvidenceBy git policy readTaskClose transactionId = false := hclosed
      rw [hlanded', hclosed']
      exact not_pending_of_cleaned honly.cleaned
  · intro h
    have hclosed : isHubLandingTaskBacked (s.evidenceTaskId transactionId) = true →
        s.closedEvidenceBy git policy readTaskClose transactionId = true →
        s.ReallyClosed transactionId := by
      intro hbacked hclosed
      rw [HubWorld.closedEvidenceBy, HubWorld.closedFromHostContribution_of_taskBacked hbacked,
        Bool.or_false, Bool.or_eq_true] at hclosed
      rcases hclosed with hbeads | hjournal
      · exact HubWorld.reallyClosed_of_beads hbeads
      · rw [HubWorld.closedFromJournal, Bool.and_eq_true, decide_eq_true_eq,
          Option.isNone_iff_eq_none] at hjournal
        obtain ⟨hreader, hrank⟩ := hjournal
        rcases HubWorld.closed_or_cleaned_of_journalRank hrank with hrecord | hcleaned
        · exact Or.inl hrecord
        · exact (h hbacked).1 hreader hcleaned
    refine ⟨hclosed, fun honly => ?_⟩
    change s.OnlyCleaned transactionId at honly
    refine ⟨?_, HubWorld.landedEvidence_of_unreceipted honly.unreceipted, ?_⟩
    · show s.closedEvidenceBy git policy readTaskClose transactionId = false
      by_contra hnot
      exact honly.unclosed (hclosed honly.taskBacked (by simpa using hnot))
    · rintro ⟨hincident, -⟩
      cases hreader : readTaskClose with
      | none => exact honly.unclosed ((h honly.taskBacked).1 hreader honly.cleaned)
      | some reader =>
        have hdisagree := (h honly.taskBacked).2 (by simp [hreader]) honly
        have hsome := (@HubWorld.integrityIncident_isSome_iff git s policy transactionId
          honly.unreceipted).mpr hdisagree
        have hnone : s.integrityIncident git policy transactionId = none := hincident
        rw [hnone] at hsome
        cases hsome

end

/-! A verified candidate whose landing gave way to another owner: its worktree is removed. -/

/-- The world after `rejectLeaseLandingAttempt`. -/
def rejectedWorld : HubWorld :=
  ((CandidateCall.cleanup {
    transactionId := repairedId, taskId := "task", branch := "task-branch", sourceOid := "b"
    baseOid := "a", candidateOid := "ab" }).program sampleGit).crashAfter 10 verifiedWorld

theorem rejectedWorld_reached : CandidateReached sampleGit repairedId rejectedWorld :=
  .call verifiedWorld_reached _ _

theorem rejectedWorld_unclosed : ¬rejectedWorld.ReallyClosed repairedId := by
  have hjournal : ¬∃ record ∈ rejectedWorld.journal repairedId, record.checkpoint = .taskClosed := by
    decide +kernel
  rintro (hrecord | ⟨taskId, -, hmatches⟩)
  · exact hjournal hrecord
  · -- Nothing is closed in the task store.
    have hnone : rejectedWorld.tasks taskId = none := rfl
    rw [hnone] at hmatches
    simp [isMatchingHubLandingBeadsClose] at hmatches

theorem rejectedWorld_onlyCleaned : rejectedWorld.OnlyCleaned repairedId where
  taskBacked := by decide +kernel
  cleaned := by decide +kernel
  unlanded := by decide +kernel
  unreceipted := by decide +kernel
  unclosed := rejectedWorld_unclosed

/-- Without a reader the rejected candidate is called closed, and with one complete. -/
theorem rejectedWorld_misreported :
    CandidateReached sampleGit repairedId rejectedWorld ∧
      rejectedWorld.OnlyCleaned repairedId ∧
      ¬EvidenceHonest rejectedWorld
        (rejectedWorld.collectEvidenceBy sampleGit rejectedWorld.policy none repairedId) ∧
      ¬EvidenceHonest rejectedWorld
        (rejectedWorld.collectEvidenceBy sampleGit rejectedWorld.policy
          (some (storeReader rejectedWorld)) repairedId) := by
  refine ⟨rejectedWorld_reached, rejectedWorld_onlyCleaned, fun h => ?_, fun h => ?_⟩
  · exact rejectedWorld_unclosed (h.closed (by decide +kernel) (by decide +kernel))
  · refine (h.cleaned rejectedWorld_onlyCleaned).2.2 ⟨?_, ?_⟩
    · decide +kernel
    · decide +kernel

end ArchLoop
