import ArchLoop.Proofs.Isolation

/-!
# `ArchLoop.Proofs.Superseded`: several transactions of one task

A task gets one transaction for each base that its candidate was built on. When one of them
has landed and closed the task, the others are superseded. After a reconciliation none of the
task's transactions should be pending, and none of its worktrees should remain.

A reconciliation closes and cleans up only what landed or closed. So a superseded transaction
stays as it was (`SupersededAlong`), and it counts as settled only when something else had
cleaned it up before (`Superseded`). The worktree of the landed transaction goes when the loop
reaches it, which an incident before it prevents (`afterPasses_worktree`).
`superseded_settled_iff` puts the two together.
-/

set_option autoImplicit false

namespace ArchLoop

open ArchLoop.Lib

/-! ### The end of a journal -/

/-- Records that are no cleanup do not bring a journal to `cleaned`, and do not take it from
there. -/
theorem reduce_cleaned_iff (new : List HubLandingTransactionRecord)
    (h : ∀ r ∈ new, r.checkpoint ≠ .cleaned) (records : List HubLandingTransactionRecord) :
    (reduceHubLandingTransaction (records ++ new)).map (·.checkpoint) = some .cleaned ↔
      (reduceHubLandingTransaction records).map (·.checkpoint) = some .cleaned := by
  induction new generalizing records with
  | nil => rw [List.append_nil]
  | cons r new ih =>
    have hr : r.checkpoint ≠ .cleaned := h r List.mem_cons_self
    rw [show records ++ r :: new = (records ++ [r]) ++ new by simp,
      ih fun r' hr' => h r' (List.mem_cons_of_mem _ hr')]
    cases records with
    | nil => simp [reduceHubLandingTransaction, initialTransactionState, hr]
    | cons first rest =>
      simp only [List.cons_append, reduceHubLandingTransaction, List.filter_append,
        List.foldl_append, Option.map_some, Option.some.injEq]
      by_cases hid : r.transactionId = first.transactionId
      · rw [List.filter_cons_of_pos (by simpa using hid), List.filter_nil, List.foldl_cons,
          List.foldl_nil]
        generalize List.foldl HubLandingTransactionState.advance (initialTransactionState first) _
          = state
        -- `cleaned` has the highest rank, and no other checkpoint has it.
        show (state.advance r).checkpoint = .cleaned ↔ state.checkpoint = .cleaned
        cases hstate : state.checkpoint <;> cases hcheckpoint : r.checkpoint <;>
          simp_all [HubLandingTransactionState.advance, HubLandingCheckpoint.rank]
      · rw [List.filter_cons_of_neg (by simpa using hid), List.filter_nil]
        rfl

section
variable {git : Git} {policy : HubLandingPolicy} {call : HubCall} {id : TransactionId}
  {s : HubWorld}

theorem plannedRecords_not_cleaned
    (h : s.cleanedEvidence git (some policy) id = true →
      (s.transactionState id).map (·.checkpoint) = some .cleaned) :
    ∀ r ∈ s.plannedRecords git policy id, r.checkpoint ≠ .cleaned := by
  intro r hr hcleaned
  unfold HubWorld.plannedRecords at hr
  dsimp only at hr
  split at hr
  · obtain ⟨checkpoint, hwrite, rfl⟩ := List.mem_map.mp hr
    obtain rfl : checkpoint = .cleaned := hcleaned
    obtain ⟨hproven, hrank⟩ := List.mem_filter.mp hwrite
    have hevidence : s.cleanedEvidence git (some policy) id = true := by
      by_contra hnot
      have hfalse : (s.collectEvidence git (some policy) id).cleaned = false := by
        simpa [HubWorld.collectEvidence] using hnot
      unfold provenCheckpoints at hproven
      rw [hfalse] at hproven
      revert hproven
      split <;> split <;> split <;> split <;> simp
    simp [h hevidence] at hrank
  · cases hr

/-! ### What a pass does -/

/-- The transaction is listed already, and the list stays as it is. -/
def KeepsListed (id : TransactionId) (s t : HubWorld) : Prop :=
  id ∈ s.transactionIds → t.transactionIds = s.transactionIds

theorem KeepsListed.of_eq {t : HubWorld} (h : t.transactionIds = s.transactionIds) :
    KeepsListed id s t := fun _ => h

theorem KeepsListed.trans {t u : HubWorld} (h₁ : KeepsListed id s t) (h₂ : KeepsListed id t u) :
    KeepsListed id s u := by
  intro hid
  have ht : t.transactionIds = s.transactionIds := h₁ hid
  rw [← ht]
  exact h₂ (ht.symm ▸ hid)

theorem keepsListed_reads {α : Type} (f : HubWorld → α) :
    (Prog.reads f : Hub α).Makes (KeepsListed id) :=
  Prog.makes_reads.mpr fun _ => .of_eq rfl

theorem keepsListed_append {record : HubLandingTransactionRecord}
    (h : record.transactionId = id) :
    (appendHubLandingCheckpoint record).Makes (KeepsListed id) := by
  subst h
  refine Prog.makes_bind (Prog.makes_modify.mpr fun s hid => ?_) fun _ => ?_
  · show s.withTransaction record.transactionId = s.transactionIds
    exact if_pos hid
  · exact Prog.makes_modify.mpr fun s => .of_eq rfl

theorem keepsListed_enqueuePublication (policy : HubLandingPolicy) (transactionId : TransactionId)
    (taskId : TaskId) (candidateOid : Oid) (now : Timestamp) :
    (enqueueHubPublication git policy transactionId taskId candidateOid now).Makes
      (KeepsListed id) := by
  refine (enqueueHubPublication_writes git policy _ _ _ _).mono ?_
  rintro s _ ⟨items, rfl⟩
  exact .of_eq rfl

theorem keepsListed_closeHubLandingTask {input : HubLandingTaskCloseInput} (now : Timestamp)
    (h : input.transactionId = id) :
    (closeHubLandingTask git input now).Makes (KeepsListed id) := by
  refine Prog.makes_bind (Prog.makes_when ?_) fun _ => ?_
  · refine Prog.makes_bind (keepsListed_reads _) fun existing => ?_
    exact Prog.makes_when (Prog.makes_modify.mpr fun s => .of_eq rfl)
  refine Prog.makes_bind (keepsListed_append h) fun _ => ?_
  refine (enqueueHubPublicationAfterShipped_writes git _ _ _ _).mono ?_
  rintro s _ ⟨items, rfl⟩
  exact .of_eq rfl

theorem keepsListed_finishTransaction {evidence : HubLandingTransactionEvidence}
    (h : evidence.transactionId = id) :
    (finishTransaction git policy call evidence).Makes (KeepsListed id) := by
  unfold finishTransaction
  cases hcandidate : toCandidate evidence with
  | none => exact Prog.makes_ret _
  | some candidate =>
    have hid : candidate.transactionId = id := by
      rw [← h]
      unfold toCandidate at hcandidate
      split at hcandidate
      · obtain rfl := Option.some.inj hcandidate
        rfl
      · cases hcandidate
    refine Prog.makes_bind ?_ fun _ => Prog.makes_bind ?_ fun _ => ?_
    · unfold closeLanded
      split
      · exact keepsListed_closeHubLandingTask call.now hid
      · exact Prog.makes_ret _
    · unfold cleanupFinished
      split
      · refine Prog.makes_bind (keepsListed_reads _) fun present => Prog.makes_bind ?_ fun _ => ?_
        · exact Prog.makes_when (Prog.makes_modify.mpr fun s => .of_eq rfl)
        · exact keepsListed_append hid
      · exact Prog.makes_ret _
    · unfold projectLanded
      split
      · refine Prog.makes_bind ?_ fun _ => Prog.makes_bind
          (keepsListed_enqueuePublication policy _ _ _ _) fun _ => Prog.makes_ret _
        refine (enqueueHubCheckoutProjection_writes _ _ _ _).mono ?_
        rintro s _ ⟨items, rfl⟩
        exact .of_eq rfl
      · exact Prog.makes_ret _

theorem keepsListed_appendRecords (records : List HubLandingTransactionRecord)
    (h : ∀ r ∈ records, r.transactionId = id) :
    (appendRecords records).Makes (KeepsListed id) := by
  induction records with
  | nil => exact Prog.makes_ret _
  | cons record records ih =>
    refine Prog.makes_bind (keepsListed_append (h record List.mem_cons_self)) fun _ => ?_
    exact ih fun r hr => h r (List.mem_cons_of_mem _ hr)

theorem returns_pass_listed (call : HubCall) (s : HubWorld) :
    (reconcileTransaction git policy call id).Returns s fun _ t => KeepsListed id s t := by
  refine Prog.returns_reads_bind.mpr ?_
  split
  · exact Prog.returns_ret (.of_eq rfl)
  refine Prog.returns_reads_bind.mpr ?_
  refine Prog.Makes.returns (P := KeepsListed id) ?_ (fun _ => .of_eq rfl)
    (fun _ _ _ => KeepsListed.trans) s
  refine Prog.makes_bind ?_ fun _ => Prog.makes_bind (keepsListed_finishTransaction rfl) fun _ =>
    Prog.makes_ret _
  unfold reconstructCheckpoints
  split
  · refine Prog.makes_bind (keepsListed_appendRecords _ ?_) fun _ => Prog.makes_ret _
    intro r hr
    obtain ⟨checkpoint, -, rfl⟩ := List.mem_map.mp hr
    rfl
  · exact Prog.makes_ret _

theorem Recorded.rest {records : List HubLandingTransactionRecord} {t : HubWorld}
    (h : Recorded id records s t) : t.worktree = s.worktree ∧ t.tasks = s.tasks := by
  obtain ⟨_, -, -, rfl⟩ := h
  exact ⟨rfl, rfl⟩

theorem Idle.rest {t : HubWorld} (h : Idle s t) : t.worktree = s.worktree ∧ t.tasks = s.tasks := by
  obtain ⟨_, _, _, rfl⟩ := h
  exact ⟨rfl, rfl⟩

theorem returns_closeHubLandingTask_tasks (input : HubLandingTaskCloseInput) (now : Timestamp)
    (s : HubWorld) :
    (closeHubLandingTask git input now).Returns s fun _ t =>
      t.worktree = s.worktree ∧ (t.tasks = s.tasks ∨
        isMatchingHubLandingBeadsClose (t.tasks input.taskId) input.transactionId
          (some input.candidateOid) = true) := by
  have hclose : (Prog.when (isHubLandingTaskBacked input.taskId) (closeTaskOnce input)).Returns s
      fun _ t => t.worktree = s.worktree ∧ (t.tasks = s.tasks ∨
        isMatchingHubLandingBeadsClose (t.tasks input.taskId) input.transactionId
          (some input.candidateOid) = true) := by
    refine Prog.returns_when (fun _ => ?_) fun _ => ⟨rfl, Or.inl rfl⟩
    refine Prog.returns_reads_bind.mpr (Prog.returns_when (fun _ => ?_) fun _ => ⟨rfl, Or.inl rfl⟩)
    refine Prog.returns_modify ⟨rfl, Or.inr ?_⟩
    simp [isMatchingHubLandingBeadsClose]
  refine Prog.returns_bind hclose fun _ t ht => ?_
  refine Prog.returns_bind (returns_appendHubLandingCheckpoint _ t) fun _ u hu => ?_
  have hpublish := (makes_outbox_idle (enqueueHubPublicationAfterShipped_writes git
    input.transactionId input.taskId input.candidateOid now)).returns
    Idle.refl (fun _ _ _ => Idle.trans) u
  refine Prog.returns_mono hpublish fun _ v hv => ?_
  rw [hv.rest.1, hv.rest.2, hu.rest.1, hu.rest.2]
  exact ht

theorem returns_pass_open (call : HubCall)
    (hincident : s.integrityIncident git (some policy) id = none)
    (hlanded : s.landedEvidence git (some policy) id = false)
    (hclosed : s.closedEvidence git (some policy) id = false) :
    (reconcileTransaction git policy call id).Returns s fun _ t =>
      t.worktree = s.worktree ∧ t.tasks = s.tasks ∧
        t.journal id = s.journal id ++ s.plannedRecords git policy id := by
  refine returns_reconcileTransaction (fun h => ?_) fun _ t ht => ?_
  · rw [hincident] at h
    cases h
  refine Prog.returns_mono (returns_finishTransaction rfl t) ?_
  rintro _ u ⟨records, -, -, hidle⟩
  have hfinishes : (s.collectEvidence git (some policy) id).finishes = false := by
    simp [HubLandingTransactionEvidence.finishes, HubWorld.collectEvidence, hlanded, hclosed]
  have hu : Idle t u := hidle hfinishes
  have hjournal : u.journal id = t.journal id := (hu.sameEvidence id).journal
  rw [hu.rest.1, hu.rest.2, ht.rest.1, ht.rest.2, hjournal]
  obtain ⟨_, -, -, rfl⟩ := ht
  exact ⟨rfl, rfl, Function.update_self _ _ _⟩

theorem returns_cleanupFinished_worktree {evidence : HubLandingTransactionEvidence}
    {candidate : HubLandingCandidate} (hid : candidate.transactionId = id)
    (hlanded : evidence.landed = true)
    (hpresent : evidence.worktreePresent = (s.worktree id).isSome) :
    (cleanupFinished evidence candidate).Returns s fun _ t =>
      t.worktree id = none ∧ t.tasks = s.tasks := by
  subst hid
  unfold cleanupFinished
  split
  · have hremove : (Prog.when (s.worktree candidate.transactionId).isSome
        (removeWorktree candidate.transactionId)).Returns s fun _ t =>
          t.worktree candidate.transactionId = none ∧ t.tasks = s.tasks := by
      refine Prog.returns_when (fun _ => Prog.returns_modify ⟨?_, rfl⟩) fun h => ⟨?_, rfl⟩
      · exact Function.update_self _ _ _
      · simpa using h
    refine Prog.returns_reads_bind.mpr (Prog.returns_bind hremove fun _ t ht => ?_)
    refine Prog.returns_mono (returns_appendHubLandingCheckpoint _ t) fun _ u hu => ?_
    rw [hu.rest.1, hu.rest.2]
    exact ht
  · rename_i hnot
    exact Prog.returns_ret ⟨by simpa [hlanded, hpresent] using hnot, rfl⟩

/-- A pass on a landed transaction removes its worktree. The task is closed as before, or by
the transaction. -/
theorem returns_pass_landed (call : HubCall) {task : TaskId} {candidateOid : Oid}
    (hincident : s.integrityIncident git (some policy) id = none)
    (hlanded : s.landedEvidence git (some policy) id = true)
    (htask : s.evidenceTaskId id = some task)
    (hcandidate : s.evidenceCandidateOid id = some candidateOid) :
    (reconcileTransaction git policy call id).Returns s fun _ t =>
      t.worktree id = none ∧ (t.tasks = s.tasks ∨
        isMatchingHubLandingBeadsClose (t.tasks task) id (some candidateOid) = true) := by
  refine returns_reconcileTransaction (fun h => ?_) fun _ t ht => ?_
  · rw [hincident] at h
    cases h
  obtain ⟨candidate, hto, hid, htaskId, hoid⟩ : ∃ candidate,
      toCandidate (s.collectEvidence git (some policy) id) = some candidate ∧
        candidate.transactionId = id ∧ candidate.taskId = task ∧
        candidate.candidateOid = candidateOid := by
    simp [toCandidate, HubWorld.collectEvidence, htask, hcandidate]
  have hclose : (closeLanded git call (s.collectEvidence git (some policy) id) candidate).Returns t
      fun _ u => u.worktree = t.worktree ∧ (u.tasks = t.tasks ∨
        isMatchingHubLandingBeadsClose (u.tasks task) id (some candidateOid) = true) := by
    subst hid htaskId hoid
    unfold closeLanded
    split
    · exact returns_closeHubLandingTask_tasks _ _ t
    · exact Prog.returns_ret ⟨rfl, Or.inl rfl⟩
  unfold finishTransaction
  rw [hto]
  refine Prog.returns_bind hclose fun _ u hu => ?_
  have hpresent : (s.collectEvidence git (some policy) id).worktreePresent =
      (u.worktree id).isSome := by
    rw [hu.1, ht.rest.1]
    rfl
  refine Prog.returns_bind (returns_cleanupFinished_worktree hid hlanded hpresent) fun _ v hv => ?_
  refine Prog.returns_mono ((makes_projectLanded _ _).returns Idle.refl
    (fun _ _ _ => Idle.trans) v) fun _ w hw => ?_
  rw [hw.rest.1, hw.rest.2, hv.2, ← ht.rest.2]
  exact ⟨hv.1, hu.2⟩

/-! ### What a pass leaves -/

theorem PassWrites.evidenceCandidateOid {records : List HubLandingTransactionRecord} {t : HubWorld}
    (h : PassWrites id (s.evidenceCandidateOid id) records s t) (v : TransactionId) :
    t.evidenceCandidateOid v = s.evidenceCandidateOid v := by
  unfold HubWorld.evidenceCandidateOid HubWorld.transactionState
  rw [h.candidateRef, h.manifest, h.journal]
  by_cases hv : v = id
  · subst hv
    rw [Function.update_self]
    rcases reduce_candidateOid records h.candidate (s.journal v) with hsame | hevidence
    · rw [hsame]
    · rw [hevidence]
      unfold HubWorld.evidenceCandidateOid HubWorld.transactionState
      cases s.candidateRef v <;> cases s.manifest v <;> rfl
  · rw [Function.update_of_ne hv]

theorem PassWrites.landedEvidence {records : List HubLandingTransactionRecord} {t : HubWorld}
    (h : PassWrites id (s.evidenceCandidateOid id) records s t)
    (hincident : s.integrityIncident git (some policy) id = none) (v : TransactionId) :
    t.landedEvidence git (some policy) v = s.landedEvidence git (some policy) v := by
  have hin : t.candidateInTarget git (some policy) v = s.candidateInTarget git (some policy) v := by
    unfold HubWorld.candidateInTarget HubWorld.evidenceTargetOid HubWorld.isAncestor
    rw [h.evidenceCandidateOid v, h.publishTarget, h.hasObject]
  have hnone : (t.integrityIncident git (some policy) v).isNone =
      (s.integrityIncident git (some policy) v).isNone := by
    rw [← Option.not_isSome, ← Option.not_isSome, h.incident_isSome hincident v]
  rw [HubWorld.landedEvidence, HubWorld.landedEvidence, h.receipt, hin, hnone]

theorem returns_pass_others (call : HubCall)
    (hincident : s.integrityIncident git (some policy) id = none) :
    (reconcileTransaction git policy call id).Returns s fun _ t =>
      (∀ v, t.evidenceTaskId v = s.evidenceTaskId v) ∧
      (∀ v, v ≠ id → t.worktree v = s.worktree v ∧ t.journal v = s.journal v) ∧
      ∀ k, s.evidenceTaskId id ≠ some k → t.tasks k = s.tasks k := by
  cases htask : s.evidenceTaskId id with
  | some task =>
    refine Prog.returns_mono (returns_reconcileTransaction_move task ?_) ?_
    · intro k hk
      exact (Option.some.inj (htask.symm.trans hk)).symm
    · intro _ t ht
      refine ⟨fun v => ?_, fun v hv => ⟨ht.1.worktree hv, ht.1.journal hv⟩, fun k hk => ?_⟩
      · by_cases hv : v = id
        · subst hv
          rcases ht.2 v with hsame | hnamed
          · exact hsame
          · rw [hnamed, htask]
        · exact ht.1.evidenceTaskId hv
      · exact ht.1.tasks fun h => hk (by rw [h])
  | none =>
    -- Without a task there is nothing to do.
    have hidle : s.hasWork git policy id = false := by
      have hfinishes : (s.collectEvidence git (some policy) id).finishes = false := by
        simp [HubLandingTransactionEvidence.finishes, toCandidate, HubWorld.collectEvidence, htask]
      have hplanned : s.plannedRecords git policy id = [] := by
        simp [HubWorld.plannedRecords, HubWorld.collectEvidence, htask]
      simp [HubWorld.hasWork, hplanned, hfinishes]
    refine Prog.returns_mono (returns_pass call hincident) ?_
    rintro _ t ⟨records, -, -, h⟩
    have ht : Idle s t := h hidle
    have hsame := fun v => ht.sameEvidence v
    refine ⟨fun v => ?_, fun v _ => ⟨(hsame v).worktree, (hsame v).journal⟩, fun k _ => ?_⟩
    · exact evidenceTaskId_congr (hsame v).journal (hsame v).manifest (hsame v).receipt
    · rw [ht.rest.2]

/-! ### The close of a task -/

theorem closedFromBeads_congr {t : HubWorld} {v : TransactionId}
    (htask : t.evidenceTaskId v = s.evidenceTaskId v)
    (hcandidate : t.evidenceCandidateOid v = s.evidenceCandidateOid v)
    (hreceipt : t.receipt v = s.receipt v)
    (htasks : ∀ k, s.evidenceTaskId v = some k → t.tasks k = s.tasks k) :
    t.closedFromBeads v = s.closedFromBeads v := by
  unfold HubWorld.closedFromBeads
  rw [htask, hcandidate, hreceipt]
  cases hk : s.evidenceTaskId v with
  | none => rfl
  | some k =>
    dsimp only
    rw [htasks k hk]

theorem closedFromBeads_unique {v w : TransactionId} {k : TaskId}
    (hv : s.evidenceTaskId v = some k) (hw : s.evidenceTaskId w = some k)
    (hclosedv : s.closedFromBeads v = true) (hclosedw : s.closedFromBeads w = true) : v = w := by
  unfold HubWorld.closedFromBeads at hclosedv hclosedw
  rw [hv] at hclosedv
  rw [hw] at hclosedw
  simp only [Bool.and_eq_true] at hclosedv hclosedw
  have hname : ∀ {u : TransactionId} {oid : Option Oid},
      isMatchingHubLandingBeadsClose (s.tasks k) u oid = true →
        (s.tasks k).bind (·.transactionId) = some u := by
    intro u oid h
    unfold isMatchingHubLandingBeadsClose at h
    split at h
    · rename_i e oid' he
      rw [he]
      simp only [Bool.and_eq_true, beq_iff_eq] at h
      exact h.1.2
    · cases h
  exact Option.some.inj ((hname hclosedv.2).symm.trans (hname hclosedw.2))

theorem backed_of_closedFromBeads {v : TransactionId} {k : TaskId}
    (hv : s.evidenceTaskId v = some k) (hclosed : s.closedFromBeads v = true) :
    isHubLandingTaskBacked (some k) = true := by
  unfold HubWorld.closedFromBeads at hclosed
  rw [hv] at hclosed
  simp only [Bool.and_eq_true] at hclosed
  exact hclosed.1

theorem closedEvidence_eq {v : TransactionId} {k : TaskId} (hv : s.evidenceTaskId v = some k)
    (hbacked : isHubLandingTaskBacked (some k) = true) :
    s.closedEvidence git (some policy) v = s.closedFromBeads v := by
  simp [HubWorld.closedEvidence, HubWorld.closedFromHostContribution, hv, hbacked]

theorem evidenceCandidateOid_of_landed {v : TransactionId}
    (h : s.landedEvidence git (some policy) v = true) :
    ∃ oid, s.evidenceCandidateOid v = some oid := by
  cases hoid : s.evidenceCandidateOid v with
  | some oid => exact ⟨oid, rfl⟩
  | none =>
    simp [HubWorld.landedEvidence, HubWorld.candidateInTarget, hoid] at h

/-! ### The transactions of one task -/

/-- The journal of the transaction has come to its end. -/
def HubWorld.JournalCleaned (s : HubWorld) (v : TransactionId) : Prop :=
  (s.transactionState v).map (·.checkpoint) = some .cleaned

instance (s : HubWorld) (v : TransactionId) : Decidable (s.JournalCleaned v) :=
  inferInstanceAs (Decidable (_ = _))

/-- The world `x` is one of a reconciliation that began in `u`. What did not land stays as it
was, and the task is closed for something that landed. -/
structure SupersededAlong (git : Git) (policy : HubLandingPolicy) (k : TaskId)
    (u x : HubWorld) : Prop where
  listed : x.transactionIds = u.transactionIds
  taskId : ∀ v, x.evidenceTaskId v = u.evidenceTaskId v
  incident : ∀ v, (x.integrityIncident git (some policy) v).isSome =
    (u.integrityIncident git (some policy) v).isSome
  landed : ∀ v, x.landedEvidence git (some policy) v = u.landedEvidence git (some policy) v
  kept : ∀ v, u.evidenceTaskId v = some k → u.landedEvidence git (some policy) v = false →
    x.worktree v = u.worktree v ∧ (x.JournalCleaned v ↔ u.JournalCleaned v)
  closed : ∃ v ∈ u.transactionIds, u.evidenceTaskId v = some k ∧
    u.landedEvidence git (some policy) v = true ∧ x.closedFromBeads v = true

namespace SupersededAlong

variable {k : TaskId} {u x : HubWorld}

theorem not_closed (h : SupersededAlong git policy k u x) {v : TransactionId}
    (hv : u.evidenceTaskId v = some k) (hlanded : u.landedEvidence git (some policy) v = false) :
    x.closedFromBeads v = false := by
  obtain ⟨w, -, hw, hlandedw, hclosed⟩ := h.closed
  by_contra hnot
  have hsame : v = w := closedFromBeads_unique ((h.taskId v).trans hv) ((h.taskId w).trans hw)
    (by simpa using hnot) hclosed
  rw [hsame, hlandedw] at hlanded
  cases hlanded

theorem backed (h : SupersededAlong git policy k u x) :
    isHubLandingTaskBacked (some k) = true := by
  obtain ⟨w, -, hw, -, hclosed⟩ := h.closed
  exact backed_of_closedFromBeads ((h.taskId w).trans hw) hclosed

theorem closedEvidence (h : SupersededAlong git policy k u x) {v : TransactionId}
    (hv : u.evidenceTaskId v = some k) :
    x.closedEvidence git (some policy) v = x.closedFromBeads v :=
  closedEvidence_eq ((h.taskId v).trans hv) h.backed

theorem cleanedEvidence (h : SupersededAlong git policy k u x) {v : TransactionId}
    (hv : u.evidenceTaskId v = some k) (hlanded : u.landedEvidence git (some policy) v = false)
    (hcleaned : x.cleanedEvidence git (some policy) v = true) : x.JournalCleaned v := by
  simp only [HubWorld.cleanedEvidence, h.landed, hlanded, h.closedEvidence hv,
    h.not_closed hv hlanded, Bool.false_or, Bool.and_eq_true, beq_iff_eq] at hcleaned
  exact hcleaned.2

theorem returns_pass_superseded (h : SupersededAlong git policy k u x) (call : HubCall)
    (hv : u.evidenceTaskId id = some k) (hlanded : u.landedEvidence git (some policy) id = false)
    (hincident : x.integrityIncident git (some policy) id = none) :
    (reconcileTransaction git policy call id).Returns x fun _ t =>
      t.worktree = x.worktree ∧ t.tasks = x.tasks ∧
        (t.JournalCleaned id ↔ x.JournalCleaned id) := by
  have hclosed : x.closedEvidence git (some policy) id = false := by
    rw [h.closedEvidence hv, h.not_closed hv hlanded]
  have hlandedx : x.landedEvidence git (some policy) id = false := by rw [h.landed, hlanded]
  refine Prog.returns_mono (returns_pass_open call hincident hlandedx hclosed) ?_
  rintro _ t ⟨hworktree, htasks, hjournal⟩
  refine ⟨hworktree, htasks, ?_⟩
  have hplanned := plannedRecords_not_cleaned (h.cleanedEvidence hv hlanded)
  unfold HubWorld.JournalCleaned HubWorld.transactionState
  rw [hjournal]
  exact reduce_cleaned_iff _ hplanned _

theorem pass_closed (h : SupersededAlong git policy k u x) (call : HubCall)
    (hlisted : id ∈ u.transactionIds)
    (hincident : x.integrityIncident git (some policy) id = none) :
    ∃ v ∈ u.transactionIds, u.evidenceTaskId v = some k ∧
      u.landedEvidence git (some policy) v = true ∧
      ((reconcileTransaction git policy call id).exec x).closedFromBeads v = true := by
  obtain ⟨records, hwrites, -, -⟩ := (returns_pass call hincident).exec
  obtain ⟨htaskId, -, hothers⟩ := (returns_pass_others call hincident).exec
  obtain ⟨w, hmem, hw, hlandedw, hclosed⟩ := h.closed
  -- Where the task's close is the same, it is closed for the same transaction.
  have hsame : ((reconcileTransaction git policy call id).exec x).tasks k = x.tasks k →
      ((reconcileTransaction git policy call id).exec x).closedFromBeads w = true := by
    intro htasks
    rw [← hclosed]
    refine closedFromBeads_congr (htaskId w) (hwrites.evidenceCandidateOid w)
      (congrFun hwrites.receipt w) fun k' hk' => ?_
    rw [h.taskId, hw] at hk'
    rw [← Option.some.inj hk', htasks]
  by_cases hid : u.evidenceTaskId id = some k
  · cases hlanded : u.landedEvidence git (some policy) id with
    | false =>
      have hpass := (h.returns_pass_superseded call hid hlanded hincident).exec
      exact ⟨w, hmem, hw, hlandedw, hsame (congrFun hpass.2.1 k)⟩
    | true =>
      have hlandedx : x.landedEvidence git (some policy) id = true := by rw [h.landed, hlanded]
      obtain ⟨oid, hoid⟩ : ∃ oid, x.evidenceCandidateOid id = some oid :=
        evidenceCandidateOid_of_landed hlandedx
      obtain ⟨-, htasks | hmatching⟩ := (returns_pass_landed call hincident hlandedx
        ((h.taskId id).trans hid) hoid).exec
      · exact ⟨w, hmem, hw, hlandedw, hsame (congrFun htasks k)⟩
      · refine ⟨id, hlisted, hid, hlanded, ?_⟩
        unfold HubWorld.closedFromBeads
        rw [htaskId, h.taskId, hid, hwrites.evidenceCandidateOid, hoid]
        simp [h.backed, hmatching]
  · refine ⟨w, hmem, hw, hlandedw, hsame (hothers k ?_)⟩
    rwa [h.taskId]

theorem pass (h : SupersededAlong git policy k u x) (call : HubCall)
    (hid : id ∈ u.transactionIds)
    (hincident : x.integrityIncident git (some policy) id = none) :
    SupersededAlong git policy k u ((reconcileTransaction git policy call id).exec x) := by
  obtain ⟨records, hwrites, -, -⟩ := (returns_pass call hincident).exec
  obtain ⟨htaskId, hothers, -⟩ := (returns_pass_others call hincident).exec
  have hlisted : KeepsListed id x ((reconcileTransaction git policy call id).exec x) :=
    (returns_pass_listed call x).exec
  refine ⟨?_, ?_, ?_, ?_, ?_, h.pass_closed call hid hincident⟩
  · rw [hlisted (h.listed.symm ▸ hid), h.listed]
  · intro v
    rw [htaskId, h.taskId]
  · intro v
    rw [hwrites.incident_isSome hincident, h.incident]
  · intro v
    rw [hwrites.landedEvidence hincident, h.landed]
  · intro v hv hlanded
    by_cases hvid : v = id
    · subst hvid
      have hpass := (h.returns_pass_superseded call hv hlanded hincident).exec
      rw [hpass.1, hpass.2.2]
      exact h.kept v hv hlanded
    · obtain ⟨hworktree, hjournal⟩ := hothers v hvid
      unfold HubWorld.JournalCleaned HubWorld.transactionState at *
      rw [hworktree, hjournal]
      exact h.kept v hv hlanded

theorem afterPasses (h : SupersededAlong git policy k u x) (call : HubCall)
    (ids : List TransactionId) (hids : ∀ id ∈ ids, id ∈ u.transactionIds) :
    SupersededAlong git policy k u (x.afterPasses git policy call ids) := by
  induction ids generalizing x with
  | nil => exact h
  | cons id ids ih =>
    unfold HubWorld.afterPasses
    split
    · exact h
    · rename_i hincident
      have hpass := h.pass call (hids id List.mem_cons_self)
        (Option.not_isSome_iff_eq_none.mp hincident)
      exact ih hpass fun v hv => hids v (List.mem_cons_of_mem _ hv)

/-- The worktree of a landed transaction goes when the loop reaches the transaction. An incident
of a transaction before it ends the loop. -/
theorem afterPasses_worktree (h : SupersededAlong git policy k u x) (call : HubCall)
    {w : TransactionId} (hw : u.evidenceTaskId w = some k)
    (hlanded : u.landedEvidence git (some policy) w = true) (ids : List TransactionId)
    (hids : ∀ id ∈ ids, id ∈ u.transactionIds) (hsorted : ids.Pairwise (· ≤ ·)) :
    (x.afterPasses git policy call ids).worktree w = none ↔
      x.worktree w = none ∨
        (w ∈ ids ∧ ∀ v ∈ ids, v ≤ w → u.integrityIncident git (some policy) v = none) := by
  have hnone : ∀ {y : HubWorld}, SupersededAlong git policy k u y → ∀ v,
      y.integrityIncident git (some policy) v = none ↔
        u.integrityIncident git (some policy) v = none := by
    intro y hy v
    rw [← Option.not_isSome_iff_eq_none, ← Option.not_isSome_iff_eq_none, hy.incident]
  induction ids generalizing x with
  | nil => simp [HubWorld.afterPasses]
  | cons id ids ih =>
    obtain ⟨hfirst, hrest⟩ := List.pairwise_cons.mp hsorted
    unfold HubWorld.afterPasses
    split
    · rename_i hincident
      refine ⟨Or.inl, fun hor => hor.resolve_right ?_⟩
      rintro ⟨hmem, hbefore⟩
      have hle : id ≤ w := by
        rcases List.mem_cons.mp hmem with rfl | hmem
        · exact String.le_refl _
        · exact hfirst w hmem
      have hid := (hnone h id).mpr (hbefore id List.mem_cons_self hle)
      rw [hid] at hincident
      cases hincident
    · rename_i hincident
      have hidnone := Option.not_isSome_iff_eq_none.mp hincident
      have hpass := h.pass call (hids id List.mem_cons_self) hidnone
      refine (ih hpass (fun v hv => hids v (List.mem_cons_of_mem _ hv)) hrest).trans ?_
      by_cases hid : w = id
      · -- The pass on the transaction itself.
        subst hid
        have hlandedx : x.landedEvidence git (some policy) w = true := by rw [h.landed, hlanded]
        obtain ⟨oid, hoid⟩ := evidenceCandidateOid_of_landed hlandedx
        have hgone :=
          (returns_pass_landed call hidnone hlandedx ((h.taskId w).trans hw) hoid).exec.1
        refine iff_of_true (Or.inl hgone) (Or.inr ⟨List.mem_cons_self, fun v hv hle => ?_⟩)
        rcases List.mem_cons.mp hv with rfl | hv
        · exact (hnone h v).mp hidnone
        · rw [String.le_antisymm hle (hfirst v hv)]
          exact (hnone h w).mp hidnone
      · rw [((returns_pass_others call hidnone).exec.2.1 w hid).1]
        refine or_congr_right ?_
        simp only [List.mem_cons, hid, false_or, forall_eq_or_imp]
        refine and_congr_right fun _ => ?_
        exact (and_iff_right fun _ => (hnone h id).mp hidnone).symm

/-- A transaction that did not land is pending until its journal is cleaned or it has an
incident. -/
theorem pending_iff (h : SupersededAlong git policy k u x) {v : TransactionId}
    (hv : u.evidenceTaskId v = some k) (hlanded : u.landedEvidence git (some policy) v = false) :
    (x.collectEvidence git (some policy) v).pending = false ↔
      x.JournalCleaned v ∨ (x.integrityIncident git (some policy) v).isSome := by
  have hlandedx : x.landedEvidence git (some policy) v = false := by rw [h.landed, hlanded]
  have hclosed : x.closedEvidence git (some policy) v = false := by
    rw [h.closedEvidence hv, h.not_closed hv hlanded]
  have hrank : rankOf (some .cleaned) ≤ rankOf (x.evidenceCheckpoint git (some policy) v) ↔
      x.JournalCleaned v := by
    constructor
    · intro hle
      by_contra hnot
      have hcleaned : x.cleanedEvidence git (some policy) v = false := by
        by_contra hcleaned
        exact hnot (h.cleanedEvidence hv hlanded (by simpa using hcleaned))
      -- No checkpoint that the evidence proves comes after `task_closed`.
      have hbound : rankOf (x.evidenceCheckpoint git (some policy) v) ≤
          rankOf (some .taskClosed) := by
        refine rankOf_maxCheckpoint_le_iff.mpr ?_
        rw [hlandedx, hclosed, hcleaned]
        simp only [List.forall_mem_cons, Bool.false_eq_true, if_false, rankOf_none, Nat.zero_le]
        refine ⟨?_, ?_, ?_⟩
        · unfold HubWorld.JournalCleaned at hnot
          cases hjournal : (x.transactionState v).map (·.checkpoint) with
          | none => decide
          | some c =>
            rw [hjournal] at hnot
            cases c <;> first | decide | exact absurd rfl hnot
        · split <;> decide
        · split <;> decide
      exact absurd (hle.trans hbound) (by decide)
    · intro hjournal
      refine rankOf_le_evidenceCheckpoint ?_
      unfold HubWorld.JournalCleaned at hjournal
      simp [hjournal]
  show isPendingReconciliation (x.integrityIncident git (some policy) v)
    (x.evidenceCheckpoint git (some policy) v) (x.landedEvidence git (some policy) v)
    (x.closedEvidence git (some policy) v) (x.worktree v).isSome = false ↔ _
  rw [← hrank, hlandedx, hclosed]
  unfold isPendingReconciliation
  cases (x.integrityIncident git (some policy) v).isSome <;> simp

end SupersededAlong

end

/-! ### The whole call -/

/-- No transaction of the task is pending, and none has a worktree. -/
def HubWorld.TaskSettled (git : Git) (policy : HubLandingPolicy) (k : TaskId) (s : HubWorld) :
    Prop :=
  ∀ v ∈ s.transactionIds, s.evidenceTaskId v = some k →
    (s.collectEvidence git (some policy) v).pending = false ∧ s.worktree v = none

/-- The transaction did not land, its worktree is gone, and its journal says so or it is set
aside by an incident. -/
def HubWorld.CleanedUp (git : Git) (policy : HubLandingPolicy) (s : HubWorld)
    (v : TransactionId) : Prop :=
  s.landedEvidence git (some policy) v = false ∧ s.worktree v = none ∧
    (s.JournalCleaned v ∨ (s.integrityIncident git (some policy) v).isSome)

section
variable {git : Git} {policy : HubLandingPolicy} {k : TaskId} {u x : HubWorld}

theorem pending_iff_of_landed {v : TransactionId}
    (hlanded : x.landedEvidence git (some policy) v = true) (hworktree : x.worktree v = none) :
    (x.collectEvidence git (some policy) v).pending = false ↔
      x.closedEvidence git (some policy) v = true := by
  have hincident : x.integrityIncident git (some policy) v = none := by
    simp only [HubWorld.landedEvidence, Bool.and_eq_true, Option.isNone_iff_eq_none] at hlanded
    exact hlanded.2
  have hcleaned : x.cleanedEvidence git (some policy) v = true := by
    simp [HubWorld.cleanedEvidence, hworktree, hlanded]
  show isPendingReconciliation (x.integrityIncident git (some policy) v)
    (x.evidenceCheckpoint git (some policy) v) (x.landedEvidence git (some policy) v)
    (x.closedEvidence git (some policy) v) (x.worktree v).isSome = false ↔ _
  rw [hincident, hlanded, hworktree]
  unfold isPendingReconciliation
  rw [evidenceCheckpoint_of_cleaned hcleaned]
  cases x.closedEvidence git (some policy) v <;> simp

/-- Along a reconciliation, the task is settled when its landed transaction has no worktree and
all others were cleaned up before. -/
theorem SupersededAlong.taskSettled_iff (h : SupersededAlong git policy k u x)
    {w : TransactionId} (hmem : w ∈ u.transactionIds) (hw : u.evidenceTaskId w = some k)
    (hlanded : u.landedEvidence git (some policy) w = true) :
    x.TaskSettled git policy k ↔
      (∀ v ∈ u.transactionIds, v ≠ w → u.evidenceTaskId v = some k →
        u.CleanedUp git policy v) ∧ x.worktree w = none := by
  have hlandedx : ∀ {v}, u.landedEvidence git (some policy) v = true →
      x.landedEvidence git (some policy) v = true := by
    intro v hv
    rw [h.landed, hv]
  constructor
  · intro hsettled
    have hall : ∀ v ∈ u.transactionIds, u.evidenceTaskId v = some k →
        (x.collectEvidence git (some policy) v).pending = false ∧ x.worktree v = none := by
      intro v hv htask
      exact hsettled v (h.listed.symm ▸ hv) ((h.taskId v).trans htask)
    -- What landed and is not pending is closed.
    have hclosed : ∀ v ∈ u.transactionIds, u.evidenceTaskId v = some k →
        u.landedEvidence git (some policy) v = true → x.closedFromBeads v = true := by
      intro v hv htask hlandedv
      obtain ⟨hpending, hworktree⟩ := hall v hv htask
      rw [← h.closedEvidence htask]
      exact (pending_iff_of_landed (hlandedx hlandedv) hworktree).mp hpending
    refine ⟨fun v hv hne htask => ?_, (hall w hmem hw).2⟩
    obtain ⟨hpending, hworktree⟩ := hall v hv htask
    cases hlandedv : u.landedEvidence git (some policy) v with
    | true =>
      have hsame : v = w := closedFromBeads_unique ((h.taskId v).trans htask)
        ((h.taskId w).trans hw) (hclosed v hv htask hlandedv) (hclosed w hmem hw hlanded)
      exact absurd hsame hne
    | false =>
      obtain ⟨hkept, hjournal⟩ := h.kept v htask hlandedv
      rw [h.pending_iff htask hlandedv, hjournal, h.incident] at hpending
      exact ⟨hlandedv, by rw [← hkept, hworktree], hpending⟩
  · rintro ⟨hothers, hworktree⟩ v hv htask
    rw [h.listed] at hv
    rw [h.taskId] at htask
    by_cases hvw : v = w
    · subst hvw
      refine ⟨?_, hworktree⟩
      rw [pending_iff_of_landed (hlandedx hlanded) hworktree, h.closedEvidence htask]
      -- Only this transaction landed, so the task is closed for it.
      obtain ⟨w', hmem', hw', hlanded', hclosed⟩ := h.closed
      by_cases hsame : w' = v
      · rw [← hsame, hclosed]
      · rw [(hothers w' hmem' hsame hw').1] at hlanded'
        cases hlanded'
    · obtain ⟨hlandedv, hgone, hsettled⟩ := hothers v hv hvw htask
      obtain ⟨hkept, hjournal⟩ := h.kept v htask hlandedv
      refine ⟨?_, by rw [hkept, hgone]⟩
      rw [h.pending_iff htask hlandedv, hjournal, h.incident]
      exact hsettled

end

/-- After a reconciliation that begins with a landed transaction which has closed its task, the
task is settled if and only if all its other transactions were cleaned up before, and no
incident keeps the loop from the landed one's worktree. -/
theorem superseded_settled_iff (git : Git) (input : HubLandingReconciliationInput)
    {s u : HubWorld} {policy : HubLandingPolicy} {legacyHistory : List HubLegacyLandingEvidence}
    {k : TaskId} {w : TransactionId}
    (hprepare : (prepareReconciliation git input).run s = (.ok (policy, legacyHistory), u))
    (hlisted : w ∈ u.transactionIds) (htask : u.evidenceTaskId w = some k)
    (hlanded : u.landedEvidence git (some policy) w = true)
    (hclosed : u.closedFromBeads w = true) :
    ((reconcileHubLandingTransactions git input).exec s).TaskSettled git policy k ↔
      (∀ v ∈ u.transactionIds, v ≠ w → u.evidenceTaskId v = some k → u.CleanedUp git policy v) ∧
        (u.worktree w = none ∨
          ∀ v ∈ u.transactionIds, v ≤ w → u.integrityIncident git (some policy) v = none) := by
  have hcall : (reconcileHubLandingTransactions git input).exec s =
      u.afterPasses git policy input.call u.listHubLandingTransactionIds := by
    rw [reconcile_split, Prog.exec, Prog.run_bind_ok hprepare]
    exact reconcileListed_exec policy legacyHistory u
  have hstart : SupersededAlong git policy k u u :=
    ⟨rfl, fun _ => rfl, fun _ => rfl, fun _ => rfl, fun _ _ _ => ⟨rfl, Iff.rfl⟩,
      w, hlisted, htask, hlanded, hclosed⟩
  have hids : ∀ id ∈ u.listHubLandingTransactionIds, id ∈ u.transactionIds :=
    fun _ hid => mem_listed.mp hid
  have hworktree := hstart.afterPasses_worktree input.call htask hlanded _ hids
    (List.pairwise_insertionSort (fun a b : TransactionId => a ≤ b) _)
  rw [hcall, (hstart.afterPasses input.call _ hids).taskSettled_iff hlisted htask hlanded,
    hworktree]
  simp only [mem_listed, hlisted, true_and]

/-! ### A verified transaction that another one superseded -/

/-- The transaction `tx-b` has landed and closed the task `a`. The older `tx-a` was built for
the same task on another base: it is cleaned up, or verified with its worktree still there. -/
def sampleSuperseded (cleaned : Bool) : HubWorld where
  head := some "h"
  publishTarget := some "h"
  fence := some "fence"
  policy := some { hostTargetBranch := "main", publishPolicy := .off }
  transactionIds := ["tx-a", "tx-b"]
  candidateRef := fun id => if id = "tx-a" then some "x" else if id = "tx-b" then some "h" else none
  receipt := fun id => if id = "tx-b" then some (sampleReceipt "tx-b" "a" "h") else none
  worktree := fun id =>
    if id = "tx-a" ∧ cleaned = false then some { head := "x" }
    else if id = "tx-b" then some { head := "h" }
    else none
  journal := fun id =>
    if id = "tx-a" then
      [{ checkpoint := if cleaned then .cleaned else .candidateVerified
         transactionId := "tx-a", taskId := "a", candidateOid := some "x" }]
    else []
  tasks := fun id =>
    if id = "a" then
      some { closed := true, transactionId := some "tx-b", candidateOid := some "h" }
    else none

/-- With `tx-a` cleaned up, the reconciliation settles the task. -/
theorem superseded_settled_iff_sample :
    ((reconcileHubLandingTransactions sampleGit {}).exec (sampleSuperseded true)).TaskSettled
      sampleGit { hostTargetBranch := "main", publishPolicy := .off } "a" := by
  refine (superseded_settled_iff sampleGit {} (w := "tx-b") rfl (by decide) (by decide) (by decide)
    (by decide)).mpr ⟨?_, Or.inr (by decide)⟩
  intro v hv hne _
  obtain rfl : v = "tx-a" := by
    simpa [sampleSuperseded, hne] using hv
  exact ⟨by decide, by decide, Or.inl (by decide)⟩

/-- A verified transaction stays pending, though another one has landed and closed its task. -/
theorem verifiedTransaction_staysPending :
    ¬ ∀ (git : Git) (input : HubLandingReconciliationInput) (s u : HubWorld)
      (policy : HubLandingPolicy) (legacyHistory : List HubLegacyLandingEvidence) (k : TaskId)
      (w : TransactionId),
      (prepareReconciliation git input).run s = (.ok (policy, legacyHistory), u) →
      w ∈ u.transactionIds → u.evidenceTaskId w = some k →
      u.landedEvidence git (some policy) w = true → u.closedFromBeads w = true →
      ((reconcileHubLandingTransactions git input).exec s).TaskSettled git policy k := by
  intro h
  have hsettled := h sampleGit {} (sampleSuperseded false) _ _ _ "a" "tx-b" rfl (by decide)
    (by decide) (by decide) (by decide)
  have hpending := (hsettled "tx-a" (by decide) (by decide)).1
  exact absurd hpending (by decide)

end ArchLoop
