import ArchLoop.Landing
import ArchLoop.Sample
import Mathlib.Data.List.Induction

/-!
# `ArchLoop.Proofs.CandidateGenerations`: the checkpoint and the candidate of a journal

A journal reduces to the checkpoint of highest rank and to the candidate that its last record
with one names. Both should be about one generation (`ReportsCurrent`): some record has reached
the checkpoint with that very candidate. A later generation that is recorded behind the
checkpoint of an earlier one takes the candidate over and leaves the checkpoint where it was.

- `reportsCurrent_append`: one record keeps `ReportsCurrent` exactly when it `Fits` the journal
  before it.
- `reportsCurrent_prefixes`: the same over a journal as it grew, by induction on its end.
- `appendsOnly_program`: the landing functions only append records that name their candidate
  (`NamesCandidate`), so every journal that they leave meets the two facts above.
-/

set_option autoImplicit false

namespace ArchLoop

open ArchLoop.Lib

/-! ### Statement -/

inductive CandidateCall where
  | create (input : CreateHubLandingCandidateInput)
  | snapshot (candidate : HubLandingCandidate)
  | bind (input : BindHubLandingVerificationInput)
  | cleanup (candidate : HubLandingCandidate)
  | commit (policy : HubLandingPolicy) (input : CommitHubLandingTargetInput)

def CandidateCall.program (git : Git) : CandidateCall → Hub Unit
  | .create input => do
    let _candidate ← createHubLandingCandidate git input
    return ()
  | .snapshot candidate => do
    let _candidate ← snapshotHubLandingCandidateGeneration git candidate
    return ()
  | .bind input => bindHubLandingVerification git input
  | .cleanup candidate => cleanupHubLandingCandidate candidate
  | .commit policy input => do
    let _commit ← commitHubLandingTarget git policy input
    return ()

/-- The worlds that the calls reach from one where the transaction has no journal. Each call may
end, throw or be stopped after any of its steps, and between two calls everything but the
journal of the transaction may change. -/
inductive CandidateReached (git : Git) (id : TransactionId) : HubWorld → Prop where
  | start {s : HubWorld} (hempty : s.journal id = []) : CandidateReached git id s
  | call {s : HubWorld} (hs : CandidateReached git id s) (op : CandidateCall) (n : Nat) :
      CandidateReached git id ((op.program git).crashAfter n s)
  | others {s t : HubWorld} (hs : CandidateReached git id s) (hsame : t.journal id = s.journal id) :
      CandidateReached git id t

/-- From `candidate_created` on, the checkpoint that a journal reports was reached by the
candidate that it reports. -/
def ReportsCurrent (records : List HubLandingTransactionRecord) : Prop :=
  ∀ state, reduceHubLandingTransaction records = some state →
    HubLandingCheckpoint.candidateCreated.rank ≤ state.checkpoint.rank →
    ∃ record ∈ records,
      record.checkpoint = state.checkpoint ∧ record.candidateOid = state.candidateOid

theorem reportsCurrent_toList (records : List HubLandingTransactionRecord) :
    (∀ state ∈ (reduceHubLandingTransaction records).toList,
      HubLandingCheckpoint.candidateCreated.rank ≤ state.checkpoint.rank →
      ∃ record ∈ records,
        record.checkpoint = state.checkpoint ∧ record.candidateOid = state.candidateOid) ↔
    ReportsCurrent records := by
  simp only [ReportsCurrent, Option.mem_toList]

instance (records : List HubLandingTransactionRecord) : Decidable (ReportsCurrent records) :=
  decidable_of_iff _ (reportsCurrent_toList records)

/-- What a record has to be for the journal to take it: the journal has not got further than
the record, or not to a candidate, or the record names no candidate, or the candidate that it
names has been where the journal is. -/
def Fits (records : List HubLandingTransactionRecord) (record : HubLandingTransactionRecord) :
    Prop :=
  ∀ state, reduceHubLandingTransaction records = some state →
    state.checkpoint.rank ≤ record.checkpoint.rank ∨
    state.checkpoint.rank < HubLandingCheckpoint.candidateCreated.rank ∨
    record.candidateOid = none ∨
    ∃ earlier ∈ records,
      earlier.checkpoint = state.checkpoint ∧ earlier.candidateOid = record.candidateOid

/-! ### One record -/

/-- A record of `candidate_created` or later names a candidate. -/
def NamesCandidate (record : HubLandingTransactionRecord) : Prop :=
  HubLandingCheckpoint.candidateCreated.rank ≤ record.checkpoint.rank →
    record.candidateOid ≠ none

theorem advance_checkpoint_of_le {state : HubLandingTransactionState}
    {record : HubLandingTransactionRecord}
    (h : state.checkpoint.rank ≤ record.checkpoint.rank) :
    (state.advance record).checkpoint = record.checkpoint :=
  if_pos h

theorem advance_checkpoint_of_lt {state : HubLandingTransactionState}
    {record : HubLandingTransactionRecord}
    (h : record.checkpoint.rank < state.checkpoint.rank) :
    (state.advance record).checkpoint = state.checkpoint :=
  if_neg (by omega)

theorem advance_candidateOid (state : HubLandingTransactionState)
    (record : HubLandingTransactionRecord) :
    (state.advance record).candidateOid = (record.candidateOid <|> state.candidateOid) := rfl

theorem reportsCurrent_singleton (record : HubLandingTransactionRecord) :
    ReportsCurrent [record] := by
  intro state hstate _
  rw [reduce_singleton, Option.some.injEq] at hstate
  subst hstate
  exact ⟨record, by simp, rfl, rfl⟩

theorem reportsCurrent_append {records : List HubLandingTransactionRecord}
    {record : HubLandingTransactionRecord} (hcurrent : ReportsCurrent records)
    (hids : ∀ state, reduceHubLandingTransaction records = some state →
      record.transactionId = state.transactionId)
    (hnames : NamesCandidate record) :
    ReportsCurrent (records ++ [record]) ↔ Fits records record := by
  cases hreduce : reduceHubLandingTransaction records with
  | none =>
    have hnil : records = [] := reduce_eq_none.mp hreduce
    subst hnil
    have hfits : Fits [] record := fun state hstate => by cases hstate
    exact ⟨fun _ => hfits, fun _ => reportsCurrent_singleton record⟩
  | some state =>
    have happend := reduce_append hreduce (hids state hreduce)
    by_cases hrank : state.checkpoint.rank ≤ record.checkpoint.rank
    · -- The record sets the checkpoint, and from `candidate_created` on the candidate, too.
      have hfits : Fits records record := by
        intro other hother
        rw [hreduce, Option.some.injEq] at hother
        subst hother
        exact Or.inl hrank
      have hnew : ReportsCurrent (records ++ [record]) := by
        intro other hother hcreated
        rw [happend, Option.some.injEq] at hother
        subst hother
        have hcheckpoint := advance_checkpoint_of_le hrank
        rw [hcheckpoint] at hcreated
        obtain ⟨oid, hoid⟩ := Option.ne_none_iff_exists'.mp (hnames hcreated)
        refine ⟨record, by simp, hcheckpoint.symm, ?_⟩
        rw [advance_candidateOid, hoid]
        rfl
      exact ⟨fun _ => hfits, fun _ => hnew⟩
    · have hbehind : record.checkpoint.rank < state.checkpoint.rank := by omega
      have hcheckpoint := advance_checkpoint_of_lt hbehind
      constructor
      · intro hnew other hother
        rw [hreduce, Option.some.injEq] at hother
        subst hother
        by_cases hcreated :
            state.checkpoint.rank < HubLandingCheckpoint.candidateCreated.rank
        · exact Or.inr (Or.inl hcreated)
        cases hoid : record.candidateOid with
        | none => exact Or.inr (Or.inr (Or.inl rfl))
        | some oid =>
          obtain ⟨r, hr, hrcheckpoint, hroid⟩ :=
            hnew _ happend (by rw [hcheckpoint]; omega)
          rw [advance_candidateOid, hoid] at hroid
          rw [hcheckpoint] at hrcheckpoint
          -- The new record itself is behind, so the witness is an earlier one.
          rcases List.mem_append.mp hr with hr | hr
          · exact Or.inr (Or.inr (Or.inr ⟨r, hr, hrcheckpoint, hroid⟩))
          · rw [List.mem_singleton] at hr
            subst hr
            rw [hrcheckpoint] at hbehind
            omega
      · intro hfits other hother hcreated
        rw [happend, Option.some.injEq] at hother
        subst hother
        rw [hcheckpoint] at hcreated ⊢
        rw [advance_candidateOid]
        have hkept : ∀ r ∈ records, r ∈ records ++ [record] := fun r hr =>
          List.mem_append_left _ hr
        cases hoid : record.candidateOid with
        | none =>
          obtain ⟨r, hr, hrcheckpoint, hroid⟩ := hcurrent state hreduce hcreated
          exact ⟨r, hkept r hr, hrcheckpoint, hroid⟩
        | some oid =>
          rcases hfits state hreduce with h | h | h | ⟨r, hr, hrcheckpoint, hroid⟩
          · omega
          · omega
          · rw [hoid] at h
            cases h
          · rw [hoid] at hroid
            exact ⟨r, hkept r hr, hrcheckpoint, hroid⟩

/-! ### A journal as it grew -/

/-- The records of one transaction, each with its candidate. -/
structure CandidateRecords (id : TransactionId) (records : List HubLandingTransactionRecord) :
    Prop where
  ids : ∀ record ∈ records, record.transactionId = id
  names : ∀ record ∈ records, NamesCandidate record

theorem CandidateRecords.reduce_id {id : TransactionId}
    {records : List HubLandingTransactionRecord} (h : CandidateRecords id records)
    {state : HubLandingTransactionState}
    (hreduce : reduceHubLandingTransaction records = some state) : state.transactionId = id := by
  induction records using List.reverseRecOn generalizing state with
  | nil => cases hreduce
  | append_singleton before record ih =>
    have hbefore : CandidateRecords id before :=
      ⟨fun r hr => h.ids r (List.mem_append_left _ hr),
        fun r hr => h.names r (List.mem_append_left _ hr)⟩
    have hid : record.transactionId = id := h.ids record (by simp)
    cases hold : reduceHubLandingTransaction before with
    | none =>
      have hnil : before = [] := reduce_eq_none.mp hold
      subst hnil
      rw [List.nil_append, reduce_singleton, Option.some.injEq] at hreduce
      rw [← hreduce]
      exact hid
    | some old =>
      have hold' : old.transactionId = id := ih hbefore hold
      rw [reduce_append hold (hid.trans hold'.symm), Option.some.injEq] at hreduce
      rw [← hreduce, advance_transactionId]
      exact hold'

/-- Every stage of a journal is current exactly when every record fitted the journal that it
was appended to. -/
theorem reportsCurrent_prefixes {id : TransactionId}
    {records : List HubLandingTransactionRecord} (h : CandidateRecords id records) :
    (∀ stage, stage <+: records → ReportsCurrent stage) ↔
      ∀ before record after, records = before ++ record :: after → Fits before record := by
  -- By induction on the end: the last record decides about the last stage alone.
  induction records using List.reverseRecOn with
  | nil =>
    constructor
    · intro _ before record after heq
      simp at heq
    · intro _ stage hstage state hreduce
      rw [List.prefix_nil.mp hstage] at hreduce
      cases hreduce
  | append_singleton before record ih =>
    have hbefore : CandidateRecords id before :=
      ⟨fun r hr => h.ids r (List.mem_append_left _ hr),
        fun r hr => h.names r (List.mem_append_left _ hr)⟩
    have hid : record.transactionId = id := h.ids record (by simp)
    have hstep : ReportsCurrent before →
        (ReportsCurrent (before ++ [record]) ↔ Fits before record) := fun hcurrent =>
      reportsCurrent_append hcurrent (fun state hstate => by rw [hid, hbefore.reduce_id hstate])
        (h.names record (by simp))
    constructor
    · intro hstages b r a heq
      have hearlier := (ih hbefore).mp fun stage hstage =>
        hstages stage (hstage.trans (List.prefix_append _ _))
      rcases List.eq_nil_or_concat a with rfl | ⟨a', last, rfl⟩
      · obtain ⟨rfl, hr⟩ := List.append_inj' heq rfl
        rw [← List.head_eq_of_cons_eq hr]
        exact (hstep (hstages before (List.prefix_append _ _))).mp
          (hstages _ (List.prefix_refl _))
      · have hsplit : before ++ [record] = (b ++ r :: a') ++ [last] := by
          rw [heq]
          simp
        obtain ⟨hb, -⟩ := List.append_inj' hsplit rfl
        exact hearlier b r a' hb
    · intro hfits stage hstage
      have hearlier := (ih hbefore).mpr fun b r a heq =>
        hfits b r (a ++ [record]) (by rw [heq]; simp)
      rcases List.prefix_concat_iff.mp hstage with rfl | hstage
      · exact (hstep (hearlier before (List.prefix_refl _))).mpr
          (hfits before record [] rfl)
      · exact hearlier stage hstage

/-! ### What the calls append -/

/-- The journal of the transaction stays, or grows by one record that names its candidate. -/
def JournalMove (id : TransactionId) (s t : HubWorld) : Prop :=
  t.journal id = s.journal id ∨
    ∃ record, record.transactionId = id ∧ NamesCandidate record ∧
      t.journal id = s.journal id ++ [record]

structure AppendsOnly {α : Type} (id : TransactionId) (p : Hub α) : Prop where
  always : p.Always (JournalMove id)

namespace AppendsOnly

variable {id : TransactionId} {α β : Type}

theorem ret (a : α) : AppendsOnly id (.ret a : Hub α) := ⟨trivial⟩

theorem raise (e : HubError) : AppendsOnly id (.raise e : Hub α) := ⟨trivial⟩

theorem reads (f : HubWorld → α) : AppendsOnly id (Prog.reads f : Hub α) :=
  ⟨Prog.always_reads.mpr fun _ => Or.inl rfl⟩

theorem modify {f : HubWorld → HubWorld} (h : ∀ s, (f s).journal id = s.journal id) :
    AppendsOnly id (Prog.modify f : Hub Unit) :=
  ⟨Prog.always_modify.mpr fun s => Or.inl (h s)⟩

theorem bind {p : Hub α} {f : α → Hub β} (hp : AppendsOnly id p)
    (hf : ∀ a, AppendsOnly id (f a)) : AppendsOnly id (p.bind f) :=
  ⟨Prog.always_bind hp.always fun a => (hf a).always⟩

theorem tryCatch {p : Hub α} {handler : HubError → Hub α} (hp : AppendsOnly id p)
    (hh : ∀ e, AppendsOnly id (handler e)) : AppendsOnly id (p.tryCatch handler) :=
  ⟨Prog.always_tryCatch hp.always fun e => (hh e).always⟩

theorem when {c : Bool} {p : Hub Unit} (hp : AppendsOnly id p) :
    AppendsOnly id (Prog.when c p) :=
  ⟨Prog.always_when hp.always⟩

theorem revParse (ref : String) (read : HubWorld → Option Oid) :
    AppendsOnly id (ArchLoop.revParse ref read) :=
  ⟨revParse_always (fun _ => Or.inl rfl) ref read⟩

theorem of_keeps {p : Hub α} (h : p.Keeps fun s => s.journal id) : AppendsOnly id p :=
  ⟨h.mono fun _ _ hsame => Or.inl hsame⟩

end AppendsOnly

section
variable {git : Git} {id : TransactionId}

theorem appendsOnly_append {record : HubLandingTransactionRecord}
    (hnames : NamesCandidate record) :
    AppendsOnly id (appendHubLandingCheckpoint record) := by
  refine .bind (.modify fun s => rfl) fun _ => ⟨Prog.always_modify.mpr fun s => ?_⟩
  by_cases hid : record.transactionId = id
  · subst hid
    exact Or.inr ⟨record, rfl, hnames, Function.update_self ..⟩
  · exact Or.inl (Function.update_of_ne (fun h => hid h.symm) _ _)

theorem namesCandidate_of_some {record : HubLandingTransactionRecord} {oid : Oid}
    (h : record.candidateOid = some oid) : NamesCandidate record := by
  intro _
  rw [h]
  exact Option.some_ne_none oid

theorem namesCandidate_of_lt {record : HubLandingTransactionRecord}
    (h : record.checkpoint.rank < HubLandingCheckpoint.candidateCreated.rank) :
    NamesCandidate record := by
  intro hle
  omega

theorem appendsOnly_recordCandidateCreatedCheckpoint (manifest : HubLandingCandidateManifest) :
    AppendsOnly id (recordCandidateCreatedCheckpoint manifest) :=
  appendsOnly_append (namesCandidate_of_some rfl)

theorem appendsOnly_writeCandidateManifestAndRef (manifest : HubLandingCandidateManifest) :
    AppendsOnly id (writeCandidateManifestAndRef manifest) :=
  .bind (.modify fun _ => rfl) fun _ => .modify fun _ => rfl

theorem appendsOnly_runInWorktree (transactionId : TransactionId) (agent : HubWorktreeAgent) :
    AppendsOnly id (runInWorktree transactionId agent) := by
  refine ⟨fun s => ⟨Or.inl rfl, ?_⟩⟩
  dsimp only
  split <;> trivial

theorem appendsOnly_ensureHubLandingPolicy (call : HubCall) (hostTargetBranch : String) :
    AppendsOnly id (ensureHubLandingPolicy git call hostTargetBranch) := by
  refine .bind (.reads _) fun existing => ?_
  cases existing with
  | some policy =>
    refine .bind (.revParse _ _) fun headOid => .bind (.modify fun _ => rfl) fun _ => ?_
    exact .bind (.modify fun _ => rfl) fun _ => .ret _
  | none =>
    refine .bind (.revParse _ _) fun headOid => .bind (.modify fun _ => rfl) fun _ => ?_
    refine .bind (.modify fun _ => rfl) fun _ => ?_
    exact .bind (.modify fun _ => rfl) fun _ => .ret _

theorem appendsOnly_restoreCandidateFromEvidence (transactionId : TransactionId)
    (expectedCandidateOid : Option Oid) :
    AppendsOnly id (restoreCandidateFromEvidence transactionId expectedCandidateOid) := by
  refine .bind (.reads _) fun manifest => .bind (.reads _) fun refOid => ?_
  split
  · exact .ret _
  split
  · exact .ret _
  split
  · exact .ret _
  split
  · refine .bind (.reads _) fun known => ?_
    split
    · exact .bind (.modify fun _ => rfl) fun _ => .ret _
    · exact .ret _
  · exact .ret _

theorem appendsOnly_mergeInWorktree (input : CreateHubLandingCandidateInput)
    (transactionId : TransactionId) (sourceOid : Oid) :
    AppendsOnly id (mergeInWorktree git input transactionId sourceOid) := by
  unfold mergeInWorktree
  split
  · exact .tryCatch (appendsOnly_runInWorktree _ _) fun _ => .raise _
  · refine .tryCatch (appendsOnly_runInWorktree _ _) fun e => ?_
    exact .bind (.modify fun _ => rfl) fun _ => .raise _

/-- A fresh candidate: `opened` and `base_pinned` before it is known, `candidate_created` with
it. -/
theorem appendsOnly_buildHubLandingCandidate (input : CreateHubLandingCandidateInput)
    (transactionId : TransactionId) (sourceOid baseOid : Oid) :
    AppendsOnly id (buildHubLandingCandidate git input transactionId sourceOid baseOid) := by
  have hopened : HubLandingCheckpoint.opened.rank < HubLandingCheckpoint.candidateCreated.rank := by
    decide
  have hpinned :
      HubLandingCheckpoint.basePinned.rank < HubLandingCheckpoint.candidateCreated.rank := by
    decide
  refine .bind (appendsOnly_append (namesCandidate_of_lt hopened)) fun _ => ?_
  refine .bind (appendsOnly_append (namesCandidate_of_lt hpinned)) fun _ => ?_
  refine .bind (.reads _) fun existing => .bind (.when (.modify fun _ => rfl)) fun _ => ?_
  refine .bind (.modify fun _ => rfl) fun _ => ?_
  refine .bind (appendsOnly_mergeInWorktree _ _ _) fun _ => .bind (.modify fun _ => rfl) fun _ => ?_
  refine .bind (.revParse _ _) fun candidateOid => ?_
  refine .bind (appendsOnly_writeCandidateManifestAndRef _) fun _ => ?_
  exact .bind (appendsOnly_recordCandidateCreatedCheckpoint _) fun _ => .ret _

theorem appendsOnly_createHubLandingCandidate (input : CreateHubLandingCandidateInput) :
    AppendsOnly id (createHubLandingCandidate git input) := by
  refine .bind (appendsOnly_ensureHubLandingPolicy _ _) fun policy => ?_
  refine .bind (.revParse _ _) fun sourceOid => ?_
  refine .bind ?_ fun baseOid => .bind (.reads _) fun existing => ?_
  · unfold pinnedBaseOid
    split
    · exact .ret _
    · exact .revParse _ _
  refine .bind (.reads _) fun currentRefOid => .bind ?_ fun _ => ?_
  · unfold throwIfJournalMismatch
    split
    · split
      · exact .raise _
      · exact .ret _
    · exact .ret _
  refine .bind (appendsOnly_restoreCandidateFromEvidence _ _) fun restored => ?_
  cases restored with
  | some candidateOid =>
    refine .bind ?_ fun _ => .bind ?_ fun _ => .ret _
    · exact .bind (.reads _) fun existing => .when (.modify fun _ => rfl)
    · exact .when (appendsOnly_append (namesCandidate_of_some rfl))
  | none => exact appendsOnly_buildHubLandingCandidate _ _ _ _

theorem appendsOnly_snapshot (candidate : HubLandingCandidate) :
    AppendsOnly id (snapshotHubLandingCandidateGeneration git candidate) := by
  refine .bind (.modify fun _ => rfl) fun _ => .bind (.revParse _ _) fun candidateOid => ?_
  split
  · exact .ret _
  · refine .bind (appendsOnly_writeCandidateManifestAndRef _) fun _ => ?_
    exact .bind (appendsOnly_recordCandidateCreatedCheckpoint _) fun _ => .ret _

theorem appendsOnly_bindHubLandingVerification (input : BindHubLandingVerificationInput) :
    AppendsOnly id (bindHubLandingVerification git input) := by
  refine .bind (.reads _) fun parts => .bind (.reads _) fun existing => ?_
  refine .bind (.when (.modify fun _ => rfl)) fun _ => ?_
  exact appendsOnly_append (namesCandidate_of_some rfl)

theorem appendsOnly_cleanupHubLandingCandidate (candidate : HubLandingCandidate) :
    AppendsOnly id (cleanupHubLandingCandidate candidate) := by
  refine .bind (.reads _) fun existing => .bind (.when (.modify fun _ => rfl)) fun _ => ?_
  exact appendsOnly_append (namesCandidate_of_some rfl)

theorem appendsOnly_toTargetLandedCommit (policy : HubLandingPolicy)
    (input : CommitHubLandingTargetInput) (fenceOid receiptOid publishTargetOid : Oid) :
    AppendsOnly id (toTargetLandedCommit policy input fenceOid receiptOid publishTargetOid) := by
  refine .bind (appendsOnly_append (namesCandidate_of_some rfl)) fun _ => .bind ?_ fun _ => .ret _
  refine .of_keeps ((enqueueHubCheckoutProjection_writes _ _ _ _).always.mono ?_)
  rintro s _ ⟨items, rfl⟩
  rfl

theorem appendsOnly_assertVerifiedCandidate (candidate : HubLandingCandidate)
    (verifierFingerprint : String) :
    AppendsOnly id (assertVerifiedCandidate candidate verifierFingerprint) := by
  refine .bind (.reads _) fun artifact => ?_
  cases artifact with
  | none => exact .raise _
  | some artifact =>
    dsimp only
    split
    · exact .raise _
    split
    · exact .raise _
    split
    · exact .raise _
    · exact .ret _

theorem appendsOnly_throwIfPinnedLandingOidsMismatch (candidate : HubLandingCandidate)
    (oids : HubLandingOidEvidence) :
    AppendsOnly id (throwIfPinnedLandingOidsMismatch candidate oids) := by
  unfold throwIfPinnedLandingOidsMismatch
  dsimp only
  split
  · exact .raise _
  split
  · exact .raise _
  · exact .ret _

theorem appendsOnly_commitExistingReceipt (policy : HubLandingPolicy)
    (input : CommitHubLandingTargetInput) (existing : HubStoredReceipt) :
    AppendsOnly id (commitExistingReceipt git policy input existing) := by
  unfold commitExistingReceipt
  dsimp only
  split
  · exact .raise _
  refine .bind (.reads _) fun fenceOid => .bind (.revParse _ _) fun publishTargetOid => ?_
  refine .bind (.reads _) fun inAncestry => ?_
  split
  · exact .raise _
  · exact appendsOnly_toTargetLandedCommit _ _ _ _ _

theorem appendsOnly_recoverFailedLandingCas (policy : HubLandingPolicy)
    (input : CommitHubLandingTargetInput) (oids : HubLandingOidEvidence) :
    AppendsOnly id (recoverFailedLandingCas policy input oids) := by
  refine .bind (.reads _) fun raced => ?_
  split
  · refine .bind (.revParse _ _) fun publishTargetOid => .bind (.reads _) fun fenceAfter => ?_
    exact appendsOnly_toTargetLandedCommit _ _ _ _ _
  · refine .bind (.reads _) fun observedTargetOid => .bind (.reads _) fun observedFenceOid => ?_
    exact .raise _

theorem appendsOnly_commitHubLandingTarget (policy : HubLandingPolicy)
    (input : CommitHubLandingTargetInput) :
    AppendsOnly id (commitHubLandingTarget git policy input) := by
  refine .bind (appendsOnly_assertVerifiedCandidate _ _) fun _ => .bind (.reads _) fun receipt => ?_
  cases receipt with
  | some existing => exact appendsOnly_commitExistingReceipt _ _ _
  | none =>
    refine .bind (.revParse _ _) fun observedTargetOid => ?_
    refine .bind (.revParse _ _) fun observedFenceOid => ?_
    refine .bind (appendsOnly_throwIfPinnedLandingOidsMismatch _ _) fun _ => ?_
    refine .bind (.reads _) fun bootId => .bind ⟨fun s => ⟨?_, trivial⟩⟩ fun passed => ?_
    · dsimp only
      split
      · exact Or.inl rfl
      · exact Or.inl rfl
    · split
      · exact appendsOnly_toTargetLandedCommit _ _ _ _ _
      · exact appendsOnly_recoverFailedLandingCas _ _ _

theorem appendsOnly_program (op : CandidateCall) : AppendsOnly id (op.program git) := by
  cases op with
  | create input => exact .bind (appendsOnly_createHubLandingCandidate _) fun _ => .ret _
  | snapshot candidate => exact .bind (appendsOnly_snapshot _) fun _ => .ret _
  | bind input => exact appendsOnly_bindHubLandingVerification _
  | cleanup candidate => exact appendsOnly_cleanupHubLandingCandidate _
  | commit policy input => exact .bind (appendsOnly_commitHubLandingTarget _ _) fun _ => .ret _

end

/-! ### The journals that the calls leave -/

/-- The journal of the transaction has grown by records that name their candidates. -/
def JournalGrows (id : TransactionId) (s t : HubWorld) : Prop :=
  ∃ more, CandidateRecords id more ∧ t.journal id = s.journal id ++ more

theorem candidateRecords_nil (id : TransactionId) : CandidateRecords id [] where
  ids _ h := by cases h
  names _ h := by cases h

theorem CandidateRecords.append {id : TransactionId}
    {l₁ l₂ : List HubLandingTransactionRecord} (h₁ : CandidateRecords id l₁)
    (h₂ : CandidateRecords id l₂) : CandidateRecords id (l₁ ++ l₂) where
  ids r hr := (List.mem_append.mp hr).elim (h₁.ids r) (h₂.ids r)
  names r hr := (List.mem_append.mp hr).elim (h₁.names r) (h₂.names r)

theorem JournalMove.grows {id : TransactionId} {s t : HubWorld} (h : JournalMove id s t) :
    JournalGrows id s t := by
  rcases h with hsame | ⟨record, hid, hnames, heq⟩
  · exact ⟨[], candidateRecords_nil id, by rw [hsame, List.append_nil]⟩
  · refine ⟨[record], ⟨fun r hr => ?_, fun r hr => ?_⟩, heq⟩
    · rw [List.mem_singleton.mp hr]
      exact hid
    · rw [List.mem_singleton.mp hr]
      exact hnames

section
variable {git : Git} {id : TransactionId}

theorem AppendsOnly.crashAfter {α : Type} {p : Hub α} (h : AppendsOnly id p) (n : Nat)
    (s : HubWorld) : JournalGrows id s (p.crashAfter n s) := by
  refine (h.always.mono fun _ _ hmove => hmove.grows).crashAfter ?_ ?_ n s
  · intro s
    exact ⟨[], candidateRecords_nil id, (List.append_nil _).symm⟩
  · rintro s t u ⟨m₁, h₁, ht⟩ ⟨m₂, h₂, hu⟩
    exact ⟨m₁ ++ m₂, h₁.append h₂, by rw [hu, ht, List.append_assoc]⟩

theorem CandidateReached.records {s : HubWorld} (h : CandidateReached git id s) :
    CandidateRecords id (s.journal id) := by
  induction h with
  | start hempty =>
    rw [hempty]
    exact candidateRecords_nil id
  | call _ op n ih =>
    obtain ⟨more, hmore, heq⟩ := (appendsOnly_program op).crashAfter n _
    rw [heq]
    exact ih.append hmore
  | others _ hsame ih =>
    rw [hsame]
    exact ih

/-- A stage of the journal that a call leaves is one that it found, or the call left it when it
was stopped earlier. -/
theorem AppendsOnly.stage {α : Type} {p : Hub α} (h : AppendsOnly id p) {n : Nat} {s : HubWorld}
    {stage : List HubLandingTransactionRecord}
    (hstage : stage <+: (p.crashAfter n s).journal id) :
    stage <+: s.journal id ∨ ∃ m, (p.crashAfter m s).journal id = stage := by
  have halways := h.always
  clear h
  induction p generalizing n s with
  | ret a =>
    have hsame : (Prog.ret a : Hub α).crashAfter n s = s := by simp [Prog.crashAfter]
    rw [hsame] at hstage
    exact Or.inl hstage
  | raise e =>
    have hsame : (Prog.raise e : Hub α).crashAfter n s = s := by simp [Prog.crashAfter]
    rw [hsame] at hstage
    exact Or.inl hstage
  | act upd next ih =>
    cases n with
    | zero => exact Or.inl (by simpa using hstage)
    | succ n =>
      have hlater : ∀ m, (Prog.act upd next).crashAfter (m + 1) s
          = (next s).crashAfter m (upd s) := fun m => rfl
      rw [hlater] at hstage
      rcases ih s hstage (halways s).2 with hfound | ⟨m, hm⟩
      · rcases (halways s).1 with hsame | ⟨record, -, -, heq⟩
        · rw [hsame] at hfound
          exact Or.inl hfound
        · rw [heq] at hfound
          rcases List.prefix_concat_iff.mp hfound with hnow | hbefore
          · refine Or.inr ⟨1, ?_⟩
            rw [hlater 0, Prog.crashAfter_zero, hnow, heq]
          · exact Or.inl hbefore
      · exact Or.inr ⟨m + 1, hm⟩

theorem CandidateReached.stage {s : HubWorld} (h : CandidateReached git id s)
    {stage : List HubLandingTransactionRecord} (hstage : stage <+: s.journal id) :
    ∃ t, CandidateReached git id t ∧ t.journal id = stage := by
  induction h with
  | @start s hempty =>
    rw [hempty] at hstage
    exact ⟨s, .start hempty, by rw [hempty, List.prefix_nil.mp hstage]⟩
  | call hs op n ih =>
    rcases (appendsOnly_program op).stage hstage with hfound | ⟨m, hm⟩
    · exact ih hfound
    · exact ⟨_, .call hs op m, hm⟩
  | others _ hsame ih =>
    rw [hsame] at hstage
    exact ih hstage

end

/-! ### When a journal is about the current candidate -/

/-- The stages of a reached journal are journals of reached worlds. All of them report the
current candidate exactly when each record fitted the journal that it was appended to. -/
theorem reportsCurrent_iff (git : Git) (id : TransactionId) (s : HubWorld)
    (h : CandidateReached git id s) :
    (∀ stage, stage <+: s.journal id → ∃ t, CandidateReached git id t ∧ t.journal id = stage) ∧
    ((∀ stage, stage <+: s.journal id → ReportsCurrent stage) ↔
      ∀ before record after, s.journal id = before ++ record :: after → Fits before record) :=
  ⟨fun _ hstage => h.stage hstage, reportsCurrent_prefixes h.records⟩

/-! A candidate that was restored after its verification, and is then repaired. -/

def repairedId : TransactionId := resolveHubLandingTransactionId sampleGit "task" "b" "a"

/-- The project before the run: the publish target is `"a"`, the branch of the task is `"b"`. -/
def unlandedWorld : HubWorld where
  head := some "a"
  publishTarget := some "a"
  fence := some "fence"
  branches branch := if branch = "task-branch" then some "b" else none
  verifier := sampleVerifier

/-- The world after the candidate was created and verified. -/
def verifiedWorld : HubWorld :=
  let created := ((CandidateCall.create { taskId := "task", branch := "task-branch" }).program
    sampleGit).crashAfter 40 unlandedWorld
  ((CandidateCall.bind {
    transactionId := repairedId, taskId := "task", candidateOid := "ab"
    verifierFingerprint := "verifier" }).program sampleGit).crashAfter 10 created

/-- The world after a repair has committed in the candidate's worktree. -/
def repairedWorld : HubWorld :=
  { verifiedWorld with
    worktree := Function.update verifiedWorld.worktree repairedId (some { head := "abc" }) }

/-- The world after the snapshot of the repaired generation. -/
def snapshotWorld : HubWorld :=
  ((CandidateCall.snapshot {
    transactionId := repairedId, taskId := "task", branch := "task-branch", sourceOid := "b"
    baseOid := "a", candidateOid := "ab" }).program sampleGit).crashAfter 10 repairedWorld

theorem verifiedWorld_reached : CandidateReached sampleGit repairedId verifiedWorld :=
  .call (.call (.start rfl) _ _) _ _

theorem snapshotWorld_reached : CandidateReached sampleGit repairedId snapshotWorld :=
  .call (.others (t := repairedWorld) verifiedWorld_reached rfl) _ _

/-- After the snapshot the journal says that a candidate is verified which never was. -/
theorem snapshot_unverified :
    CandidateReached sampleGit repairedId snapshotWorld ∧
      ¬ReportsCurrent (snapshotWorld.journal repairedId) :=
  ⟨snapshotWorld_reached, by decide +kernel⟩

/-- The statement for the run up to the verification. -/
theorem reportsCurrent_iff_verified :
    (∀ stage, stage <+: verifiedWorld.journal repairedId →
      ∃ t, CandidateReached sampleGit repairedId t ∧ t.journal repairedId = stage) ∧
    ((∀ stage, stage <+: verifiedWorld.journal repairedId → ReportsCurrent stage) ↔
      ∀ before record after, verifiedWorld.journal repairedId = before ++ record :: after →
        Fits before record) :=
  reportsCurrent_iff sampleGit repairedId verifiedWorld verifiedWorld_reached

end ArchLoop
