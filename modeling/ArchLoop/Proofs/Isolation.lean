import ArchLoop.Lib.Unnoticed
import ArchLoop.Proofs.Evidence
import ArchLoop.Sample

/-!
# `ArchLoop.Proofs.Isolation`: transactions behind an integrity incident

One call of `reconcileHubLandingTransactions` should bring each transaction without an
incident to the state that it would reach if the transactions with incidents were not there.
`Isolated` compares the call with `reconcileWithoutIncidents`, which takes these transactions
out of the project before its loop.

The loop ends at the first incident. So the two calls differ when a transaction behind it in
the order of ids still has work to do (`leftBehind`), and `reconciliation_isolated_iff` says
that they differ only then.

The comparison of the two runs rests on `Lib/Unnoticed.lean`: a pass on a transaction does not
notice that others were taken out (`unnoticed_reconcileTransaction`). What is left is one
world and two lists of ids. A pass without work leaves the world as it is up to the outboxes,
and a pass with work makes the journal of its transaction longer (`returns_pass`). No pass
causes or removes an incident (`incident_pass`).
-/

set_option autoImplicit false

namespace ArchLoop

open ArchLoop.Lib

/-- The world in which the transactions that `absent` names have left nothing. -/
def HubWorld.withoutTransactions (s : HubWorld) (absent : TransactionId → Bool) : HubWorld :=
  { s with
    transactionIds := s.transactionIds.filter fun id => !absent id
    candidateRef := fun id => if absent id then none else s.candidateRef id
    receipt := fun id => if absent id then none else s.receipt id
    worktree := fun id => if absent id then none else s.worktree id
    journal := fun id => if absent id then [] else s.journal id
    manifest := fun id => if absent id then none else s.manifest id
    artifact := fun id => if absent id then none else s.artifact id }

/-! ### What the evidence of a transaction reads -/

/-- The two worlds are the same in all that the evidence of the transaction reads. -/
structure SameEvidence (id : TransactionId) (s t : HubWorld) : Prop where
  journal : t.journal id = s.journal id
  manifest : t.manifest id = s.manifest id
  candidateRef : t.candidateRef id = s.candidateRef id
  receipt : t.receipt id = s.receipt id
  artifact : t.artifact id = s.artifact id
  worktree : t.worktree id = s.worktree id
  publishTarget : t.publishTarget = s.publishTarget
  hasObject : t.hasObject = s.hasObject
  verifier : t.verifier = s.verifier
  tasks : t.tasks = s.tasks

namespace SameEvidence

variable {id : TransactionId} {s t : HubWorld}

theorem transactionState (h : SameEvidence id s t) :
    t.transactionState id = s.transactionState id := by
  rw [HubWorld.transactionState, h.journal, HubWorld.transactionState]

theorem evidenceCandidateOid (h : SameEvidence id s t) :
    t.evidenceCandidateOid id = s.evidenceCandidateOid id := by
  unfold HubWorld.evidenceCandidateOid
  rw [h.candidateRef, h.manifest, h.transactionState]

theorem candidateInTarget (h : SameEvidence id s t) (git : Git)
    (policy : Option HubLandingPolicy) :
    t.candidateInTarget git policy id = s.candidateInTarget git policy id := by
  unfold HubWorld.candidateInTarget HubWorld.evidenceTargetOid HubWorld.isAncestor
  rw [h.evidenceCandidateOid, h.publishTarget, h.hasObject]

theorem integrityIncident (h : SameEvidence id s t) (git : Git)
    (policy : Option HubLandingPolicy) :
    t.integrityIncident git policy id = s.integrityIncident git policy id := by
  unfold HubWorld.integrityIncident HubWorld.receiptLostIncident HubWorld.receiptMismatchIncident
  rw [h.receipt, h.evidenceCandidateOid, h.transactionState, h.manifest, h.candidateRef,
    h.candidateInTarget git policy]

theorem landedEvidence (h : SameEvidence id s t) (git : Git)
    (policy : Option HubLandingPolicy) :
    t.landedEvidence git policy id = s.landedEvidence git policy id := by
  unfold HubWorld.landedEvidence
  rw [h.receipt, h.candidateInTarget git policy, h.integrityIncident git policy]

theorem closedEvidence (h : SameEvidence id s t) (git : Git)
    (policy : Option HubLandingPolicy) :
    t.closedEvidence git policy id = s.closedEvidence git policy id := by
  have htask : t.evidenceTaskId id = s.evidenceTaskId id :=
    evidenceTaskId_congr h.journal h.manifest h.receipt
  unfold HubWorld.closedEvidence HubWorld.closedFromBeads HubWorld.closedFromHostContribution
    HubWorld.journalRank
  rw [htask, h.tasks, h.evidenceCandidateOid, h.receipt, h.landedEvidence git policy,
    h.transactionState]

theorem collectEvidence (h : SameEvidence id s t) (git : Git)
    (policy : Option HubLandingPolicy) :
    t.collectEvidence git policy id = s.collectEvidence git policy id := by
  have htask : t.evidenceTaskId id = s.evidenceTaskId id :=
    evidenceTaskId_congr h.journal h.manifest h.receipt
  have hreusable : t.verificationReusable git id = s.verificationReusable git id := by
    unfold HubWorld.verificationReusable
    rw [h.evidenceCandidateOid, h.artifact, h.verifier]
  have hcleaned : t.cleanedEvidence git policy id = s.cleanedEvidence git policy id := by
    unfold HubWorld.cleanedEvidence
    rw [h.worktree, h.landedEvidence git policy, h.closedEvidence git policy, h.transactionState]
  have htarget : t.evidenceTargetOid policy = s.evidenceTargetOid policy := by
    unfold HubWorld.evidenceTargetOid
    rw [h.publishTarget]
  unfold HubWorld.collectEvidence HubWorld.evidenceCheckpoint
  rw [htask, hreusable, hcleaned, htarget, h.transactionState, h.manifest, h.receipt, h.worktree,
    h.verifier, h.evidenceCandidateOid, h.integrityIncident git policy,
    h.landedEvidence git policy, h.closedEvidence git policy]

end SameEvidence

/-! ### A pass does not notice absent transactions -/

section
variable {absent : TransactionId → Bool} {id : TransactionId}

private theorem update_present {τ : Type} (h : absent id = false) (f : TransactionId → τ)
    (empty value : τ) :
    Function.update (fun v => if absent v then empty else f v) id value =
      fun v => if absent v then empty else Function.update f id value v := by
  funext v
  by_cases hv : v = id
  · subst hv
    simp [h]
  · simp [hv]

theorem withTransaction_withoutTransactions (h : absent id = false) (s : HubWorld) :
    (s.withoutTransactions absent).withTransaction id =
      (s.withTransaction id).filter fun v => !absent v := by
  unfold HubWorld.withTransaction
  by_cases hmem : id ∈ s.transactionIds
  · have hmem' : id ∈ (s.withoutTransactions absent).transactionIds :=
      List.mem_filter.mpr ⟨hmem, by simp [h]⟩
    rw [if_pos hmem, if_pos hmem']
    rfl
  · have hmem' : id ∉ (s.withoutTransactions absent).transactionIds := fun hid =>
      hmem (List.mem_filter.mp hid).1
    rw [if_neg hmem, if_neg hmem', List.filter_append]
    simp [h, HubWorld.withoutTransactions]

theorem sameEvidence_withoutTransactions (h : absent id = false) (s : HubWorld) :
    SameEvidence id s (s.withoutTransactions absent) where
  journal := if_neg (by simp [h])
  manifest := if_neg (by simp [h])
  candidateRef := if_neg (by simp [h])
  receipt := if_neg (by simp [h])
  artifact := if_neg (by simp [h])
  worktree := if_neg (by simp [h])
  publishTarget := rfl
  hasObject := rfl
  verifier := rfl
  tasks := rfl

/-- The change that takes the absent transactions out. -/
abbrev Absent (absent : TransactionId → Bool) (s : HubWorld) : HubWorld :=
  s.withoutTransactions absent

theorem unnoticed_append {record : HubLandingTransactionRecord}
    (h : absent record.transactionId = false) :
    (appendHubLandingCheckpoint record).Unnoticed (Absent absent) := by
  refine Prog.unnoticed_bind (Prog.unnoticed_modify fun s => ?_) fun _ =>
    Prog.unnoticed_modify fun s => ?_
  · show ({ Absent absent s with transactionIds := _ } : HubWorld) = _
    rw [withTransaction_withoutTransactions h]
    rfl
  · have hjournal : Function.update (Absent absent s).journal record.transactionId
        ((Absent absent s).journal record.transactionId ++ [record]) =
        fun v => if absent v then [] else Function.update s.journal record.transactionId
          (s.journal record.transactionId ++ [record]) v := by
      rw [show (Absent absent s).journal record.transactionId = s.journal record.transactionId
        from if_neg (by simp [h])]
      exact update_present h _ _ _
    exact congrArg (fun journal => { Absent absent s with journal := journal }) hjournal

theorem unnoticed_appendRecords (records : List HubLandingTransactionRecord)
    (h : ∀ r ∈ records, absent r.transactionId = false) :
    (appendRecords records).Unnoticed (Absent absent) := by
  induction records with
  | nil => trivial
  | cons record records ih =>
    refine Prog.unnoticed_bind (unnoticed_append (h record List.mem_cons_self)) fun _ => ?_
    exact ih fun r hr => h r (List.mem_cons_of_mem _ hr)

theorem unnoticed_enqueuePublication (git : Git) (policy : HubLandingPolicy)
    (transactionId : TransactionId) (taskId : TaskId) (candidateOid : Oid) (now : Timestamp) :
    (enqueueHubPublication git policy transactionId taskId candidateOid now).Unnoticed
      (Absent absent) := by
  have hwrite : ∀ item, (writeOutboxItem item).Unnoticed (Absent absent) := fun item =>
    Prog.unnoticed_bind (Prog.unnoticed_modify fun _ => rfl) fun _ => trivial
  unfold enqueueHubPublication
  split
  · trivial
  split
  · refine Prog.unnoticed_bind (Prog.unnoticed_reads fun _ => rfl) fun existing => ?_
    cases existing with
    | some item => trivial
    | none => exact Prog.unnoticed_bind (hwrite _) fun _ => trivial
  split
  · trivial
  · refine Prog.unnoticed_bind (Prog.unnoticed_reads fun _ => rfl) fun tip => ?_
    refine Prog.unnoticed_bind (Prog.unnoticed_reads fun _ => rfl) fun existing => ?_
    cases existing with
    | some item => trivial
    | none =>
      refine Prog.unnoticed_bind (Prog.unnoticed_reads fun _ => rfl) fun sibling => ?_
      cases sibling with
      | some item => trivial
      | none => exact Prog.unnoticed_bind (hwrite _) fun _ => trivial

theorem unnoticed_closeHubLandingTask (git : Git) {input : HubLandingTaskCloseInput}
    (now : Timestamp) (h : absent input.transactionId = false) :
    (closeHubLandingTask git input now).Unnoticed (Absent absent) := by
  refine Prog.unnoticed_bind (Prog.unnoticed_when ?_) fun _ => ?_
  · refine Prog.unnoticed_bind (Prog.unnoticed_reads fun _ => rfl) fun existing => ?_
    exact Prog.unnoticed_when (Prog.unnoticed_modify fun _ => rfl)
  refine Prog.unnoticed_bind (unnoticed_append h) fun _ => ?_
  refine Prog.unnoticed_bind (Prog.unnoticed_reads fun _ => rfl) fun policy => ?_
  cases policy with
  | none => trivial
  | some policy =>
    exact Prog.unnoticed_bind (unnoticed_enqueuePublication _ _ _ _ _ _) fun _ => trivial

theorem unnoticed_cleanup {candidate : HubLandingCandidate}
    (h : absent candidate.transactionId = false) :
    (cleanupHubLandingCandidate candidate).Unnoticed (Absent absent) := by
  refine Prog.unnoticed_bind (Prog.unnoticed_reads fun s => if_neg (by simp [h])) fun existing => ?_
  refine Prog.unnoticed_bind (Prog.unnoticed_when (Prog.unnoticed_modify fun s => ?_)) fun _ =>
    unnoticed_append h
  exact congrArg (fun worktree => { Absent absent s with worktree := worktree })
    (update_present h s.worktree none none)

theorem unnoticed_finishTransaction (git : Git) (policy : HubLandingPolicy) (call : HubCall)
    {evidence : HubLandingTransactionEvidence} (h : absent evidence.transactionId = false) :
    (finishTransaction git policy call evidence).Unnoticed (Absent absent) := by
  unfold finishTransaction
  split
  · trivial
  · rename_i candidate hcandidate
    have hid : candidate.transactionId = evidence.transactionId := by
      unfold toCandidate at hcandidate
      split at hcandidate
      · obtain rfl := Option.some.inj hcandidate
        rfl
      · cases hcandidate
    rw [← hid] at h
    refine Prog.unnoticed_bind ?_ fun _ => Prog.unnoticed_bind ?_ fun _ => ?_
    · unfold closeLanded
      split
      · exact unnoticed_closeHubLandingTask git call.now h
      · trivial
    · unfold cleanupFinished
      split
      · exact unnoticed_cleanup h
      · trivial
    · unfold projectLanded
      split
      · refine Prog.unnoticed_bind ?_ fun _ => Prog.unnoticed_bind
          (unnoticed_enqueuePublication _ _ _ _ _ _) fun _ => trivial
        refine Prog.unnoticed_bind (Prog.unnoticed_reads fun _ => rfl) fun known => ?_
        split
        · refine Prog.unnoticed_bind (Prog.unnoticed_reads fun _ => rfl) fun oid => ?_
          exact Prog.unnoticed_modify fun _ => rfl
        · trivial
      · trivial

theorem unnoticed_reconcileTransaction (git : Git) (policy : HubLandingPolicy) (call : HubCall)
    (h : absent id = false) :
    (reconcileTransaction git policy call id).Unnoticed (Absent absent) := by
  intro s
  have hevidence := (sameEvidence_withoutTransactions h s).collectEvidence git (some policy)
  refine ⟨rfl, ?_, ?_⟩
  · show Prog.bind (.ret ((s.withoutTransactions absent).collectEvidence git (some policy) id)) _ =
      Prog.bind (.ret (s.collectEvidence git (some policy) id)) _
    rw [hevidence]
  show Prog.Unnoticed _ (if (s.collectEvidence git (some policy) id).integrityIncident.isSome
    then _ else _)
  split
  · trivial
  · refine Prog.unnoticed_bind (Prog.unnoticed_reads fun t => ?_) fun journal => ?_
    · exact (sameEvidence_withoutTransactions h t).transactionState
    · refine Prog.unnoticed_bind ?_ fun _ => Prog.unnoticed_bind
        (unnoticed_finishTransaction git policy call h) fun _ => trivial
      unfold reconstructCheckpoints
      split
      · refine Prog.unnoticed_bind (unnoticed_appendRecords _ ?_) fun _ => trivial
        intro r hr
        obtain ⟨checkpoint, -, rfl⟩ := List.mem_map.mp hr
        exact h
      · trivial

theorem unnoticed_reconcileTransactions (git : Git) (policy : HubLandingPolicy) (call : HubCall)
    (ids : List TransactionId) (count : Nat) (h : ∀ id ∈ ids, absent id = false) :
    (reconcileTransactions git policy call ids count).Unnoticed (Absent absent) := by
  induction ids generalizing count with
  | nil => trivial
  | cons id ids ih =>
    refine Prog.unnoticed_bind
      (unnoticed_reconcileTransaction git policy call (h id List.mem_cons_self)) ?_
    intro reconciled
    cases reconciled with
    | incident evidence => trivial
    | reconstructed written => exact ih _ fun v hv => h v (List.mem_cons_of_mem _ hv)

end

/-! ### What a pass writes -/

/-- The records are appended to the journal of the transaction, and nothing changes that its
incident depends on besides. -/
structure PassWrites (id : TransactionId) (candidateOid : Option Oid)
    (records : List HubLandingTransactionRecord) (s t : HubWorld) : Prop where
  candidate : ∀ r ∈ records, r.candidateOid = candidateOid
  journal : t.journal = Function.update s.journal id (s.journal id ++ records)
  manifest : t.manifest = s.manifest
  candidateRef : t.candidateRef = s.candidateRef
  receipt : t.receipt = s.receipt
  publishTarget : t.publishTarget = s.publishTarget
  hasObject : t.hasObject = s.hasObject

namespace PassWrites

variable {id : TransactionId} {candidateOid : Option Oid}
  {records records' : List HubLandingTransactionRecord} {s t u : HubWorld}

theorem trans (h₁ : PassWrites id candidateOid records s t)
    (h₂ : PassWrites id candidateOid records' t u) :
    PassWrites id candidateOid (records ++ records') s u where
  candidate := by
    intro r hr
    rcases List.mem_append.mp hr with hr | hr
    · exact h₁.candidate r hr
    · exact h₂.candidate r hr
  journal := by
    rw [h₂.journal, h₁.journal, Function.update_self, Function.update_idem, List.append_assoc]
  manifest := h₂.manifest.trans h₁.manifest
  candidateRef := h₂.candidateRef.trans h₁.candidateRef
  receipt := h₂.receipt.trans h₁.receipt
  publishTarget := h₂.publishTarget.trans h₁.publishTarget
  hasObject := h₂.hasObject.trans h₁.hasObject

theorem of_recorded (h : Recorded id records s t)
    (hoid : ∀ r ∈ records, r.candidateOid = candidateOid) :
    PassWrites id candidateOid records s t := by
  obtain ⟨ids, -, -, rfl⟩ := h
  exact ⟨hoid, rfl, rfl, rfl, rfl, rfl, rfl⟩

theorem of_same (hjournal : t.journal = s.journal) (hmanifest : t.manifest = s.manifest)
    (href : t.candidateRef = s.candidateRef) (hreceipt : t.receipt = s.receipt)
    (htarget : t.publishTarget = s.publishTarget) (hobject : t.hasObject = s.hasObject) :
    PassWrites id candidateOid [] s t where
  candidate := fun _ h => nomatch h
  journal := by rw [List.append_nil, Function.update_eq_self, hjournal]
  manifest := hmanifest
  candidateRef := href
  receipt := hreceipt
  publishTarget := htarget
  hasObject := hobject

theorem refl (id : TransactionId) (candidateOid : Option Oid) (s : HubWorld) :
    PassWrites id candidateOid [] s s := .of_same rfl rfl rfl rfl rfl rfl

theorem length_le (h : PassWrites id candidateOid records s t) (v : TransactionId) :
    (s.journal v).length ≤ (t.journal v).length := by
  rw [h.journal]
  by_cases hv : v = id
  · subst hv
    rw [Function.update_self, List.length_append]
    omega
  · rw [Function.update_of_ne hv]

theorem length_lt (h : PassWrites id candidateOid records s t) (hne : records ≠ []) :
    (s.journal id).length < (t.journal id).length := by
  rw [h.journal, Function.update_self, List.length_append]
  have := List.length_pos_iff.mpr hne
  omega

end PassWrites

/-- Only the outboxes and the list of transactions differ. -/
def Idle (s t : HubWorld) : Prop :=
  ∃ ids publications checkouts,
    t = { s with
      transactionIds := ids, publicationOutbox := publications, checkoutOutbox := checkouts }

theorem Idle.refl (s : HubWorld) : Idle s s :=
  ⟨s.transactionIds, s.publicationOutbox, s.checkoutOutbox, rfl⟩

theorem Idle.trans {s t u : HubWorld} (h₁ : Idle s t) (h₂ : Idle t u) : Idle s u := by
  obtain ⟨_, _, _, rfl⟩ := h₁
  obtain ⟨ids, publications, checkouts, rfl⟩ := h₂
  exact ⟨ids, publications, checkouts, rfl⟩

theorem Idle.sameEvidence {s t : HubWorld} (h : Idle s t) (id : TransactionId) :
    SameEvidence id s t := by
  obtain ⟨_, _, _, rfl⟩ := h
  exact ⟨rfl, rfl, rfl, rfl, rfl, rfl, rfl, rfl, rfl, rfl⟩

theorem Idle.passWrites {s t : HubWorld} (h : Idle s t) (id : TransactionId)
    (candidateOid : Option Oid) : PassWrites id candidateOid [] s t := by
  obtain ⟨_, _, _, rfl⟩ := h
  exact .of_same rfl rfl rfl rfl rfl rfl

def HubLandingTransactionEvidence.finishes (evidence : HubLandingTransactionEvidence) : Bool :=
  (toCandidate evidence).isSome &&
    (evidence.landed && !evidence.closed ||
      evidence.worktreePresent && (evidence.landed || evidence.closed))

/-- A pass on the transaction would write checkpoints, close its task or remove its worktree. -/
def HubWorld.hasWork (git : Git) (s : HubWorld) (policy : HubLandingPolicy)
    (id : TransactionId) : Bool :=
  let evidence := s.collectEvidence git (some policy) id
  evidence.integrityIncident.isNone &&
    (!(s.plannedRecords git policy id).isEmpty || evidence.finishes)

section
variable {git : Git} {policy : HubLandingPolicy} {call : HubCall} {id : TransactionId}

theorem makes_outbox_idle {α : Type} {p : Hub α} (h : p.Makes OutboxWrite) : p.Makes Idle := by
  refine h.mono ?_
  rintro s _ ⟨items, rfl⟩
  exact ⟨s.transactionIds, items, s.checkoutOutbox, rfl⟩

theorem makes_projectLanded (evidence : HubLandingTransactionEvidence)
    (candidate : HubLandingCandidate) :
    (projectLanded git policy call evidence candidate).Makes Idle := by
  unfold projectLanded
  split
  · refine Prog.makes_bind ?_ fun _ => Prog.makes_bind
      (makes_outbox_idle (enqueueHubPublication_writes _ _ _ _ _ _)) fun _ => Prog.makes_ret _
    refine (enqueueHubCheckoutProjection_writes _ _ _ _).mono ?_
    rintro s _ ⟨items, rfl⟩
    exact ⟨s.transactionIds, s.publicationOutbox, items, rfl⟩
  · exact Prog.makes_ret _

theorem returns_passWrites {α : Type} {p : Hub α} (id : TransactionId)
    (candidateOid : Option Oid)
    (h : p.Makes (PassWrites id candidateOid [])) (s : HubWorld) :
    p.Returns s fun _ t => PassWrites id candidateOid [] s t :=
  h.returns (.refl id candidateOid) (fun _ _ _ h₁ h₂ => h₁.trans h₂) s

theorem returns_closeLanded (evidence : HubLandingTransactionEvidence)
    {candidate : HubLandingCandidate} (hid : candidate.transactionId = id) (s : HubWorld) :
    (closeLanded git call evidence candidate).Returns s fun _ t =>
      if evidence.landed && !evidence.closed then
        ∃ r, PassWrites id (some candidate.candidateOid) [r] s t
      else t = s := by
  unfold closeLanded
  split
  · refine Prog.returns_bind (returns_passWrites id (some candidate.candidateOid) ?_ s)
      fun _ t ht => ?_
    · refine Prog.makes_when (Prog.makes_bind (Prog.makes_reads.mpr (.refl _ _)) fun existing => ?_)
      exact Prog.makes_when (Prog.makes_modify.mpr fun s => .of_same rfl rfl rfl rfl rfl rfl)
    refine Prog.returns_bind (returns_appendHubLandingCheckpoint _ t) fun _ u hu => ?_
    have hpublish := (makes_outbox_idle (enqueueHubPublicationAfterShipped_writes git
      candidate.transactionId candidate.taskId candidate.candidateOid call.now)).returns
      Idle.refl (fun _ _ _ => Idle.trans) u
    refine Prog.returns_mono hpublish fun _ v hv => ?_
    rw [show _ = id from hid] at hu
    exact ⟨_, (ht.trans (.of_recorded hu (by simp))).trans (hv.passWrites id _)⟩
  · exact Prog.returns_ret rfl

theorem returns_cleanupFinished (evidence : HubLandingTransactionEvidence)
    {candidate : HubLandingCandidate} (hid : candidate.transactionId = id) (s : HubWorld) :
    (cleanupFinished evidence candidate).Returns s fun _ t =>
      if evidence.worktreePresent && (evidence.landed || evidence.closed) then
        ∃ r, PassWrites id (some candidate.candidateOid) [r] s t
      else t = s := by
  unfold cleanupFinished
  split
  · refine Prog.returns_reads_bind.mpr ?_
    refine Prog.returns_bind (returns_passWrites id (some candidate.candidateOid) ?_ s)
      fun _ t ht => ?_
    · exact Prog.makes_when (Prog.makes_modify.mpr fun s => .of_same rfl rfl rfl rfl rfl rfl)
    refine Prog.returns_mono (returns_appendHubLandingCheckpoint _ t) fun _ u hu => ?_
    rw [show _ = id from hid] at hu
    exact ⟨_, ht.trans (.of_recorded hu (by simp))⟩
  · exact Prog.returns_ret rfl

theorem returns_finishTransaction {evidence : HubLandingTransactionEvidence}
    (hid : evidence.transactionId = id) (s : HubWorld) :
    (finishTransaction git policy call evidence).Returns s fun _ t =>
      ∃ records, PassWrites id evidence.candidateOid records s t ∧
        (evidence.finishes = true → records ≠ []) ∧ (evidence.finishes = false → Idle s t) := by
  unfold finishTransaction HubLandingTransactionEvidence.finishes
  cases hcandidate : toCandidate evidence with
  | none => exact Prog.returns_ret ⟨[], .refl _ _ s, (fun h => nomatch h), fun _ => .refl s⟩
  | some candidate =>
    have hsame : candidate.transactionId = id ∧
        evidence.candidateOid = some candidate.candidateOid := by
      unfold toCandidate at hcandidate
      split at hcandidate
      · rename_i task oid htask hoid
        obtain rfl := Option.some.inj hcandidate
        exact ⟨hid, hoid⟩
      · cases hcandidate
    rw [hsame.2]
    refine Prog.returns_bind (returns_closeLanded evidence hsame.1 s) fun _ t ht => ?_
    refine Prog.returns_bind (returns_cleanupFinished evidence hsame.1 t) fun _ u hu => ?_
    refine Prog.returns_mono ((makes_projectLanded evidence candidate).returns Idle.refl
      (fun _ _ _ => Idle.trans) u) fun _ v hv => ?_
    have hprojected := hv.passWrites id (some candidate.candidateOid)
    -- Close and cleanup each append a record or do nothing.
    cases hclose : evidence.landed && !evidence.closed <;>
      cases hclean : evidence.worktreePresent && (evidence.landed || evidence.closed) <;>
      simp only [hclose, hclean, Bool.false_eq_true, if_false, if_true] at ht hu
    · obtain rfl := ht
      obtain rfl := hu
      exact ⟨_, hprojected, (fun h => by simp at h), fun _ => hv⟩
    · obtain rfl := ht
      obtain ⟨r, hr⟩ := hu
      exact ⟨_, hr.trans hprojected, (fun _ => by simp), fun h => by simp at h⟩
    · obtain ⟨r, hr⟩ := ht
      obtain rfl := hu
      exact ⟨_, hr.trans hprojected, (fun _ => by simp), fun h => by simp at h⟩
    · obtain ⟨r, hr⟩ := ht
      obtain ⟨r', hr'⟩ := hu
      exact ⟨_, (hr.trans hr').trans hprojected, (fun _ => by simp), fun h => by simp at h⟩

/-- A pass on a transaction without an incident. With work it appends to the journal, and
without it only the outboxes may differ. -/
theorem returns_pass (call : HubCall) {s : HubWorld}
    (hincident : s.integrityIncident git (some policy) id = none) :
    (reconcileTransaction git policy call id).Returns s fun _ t =>
      ∃ records, PassWrites id (s.evidenceCandidateOid id) records s t ∧
        (s.hasWork git policy id = true → records ≠ []) ∧
        (s.hasWork git policy id = false → Idle s t) := by
  refine returns_reconcileTransaction (fun h => ?_) fun _ t ht => ?_
  · rw [hincident] at h
    exact nomatch h
  have hplanned : PassWrites id (s.evidenceCandidateOid id) (s.plannedRecords git policy id) s t :=
    .of_recorded ht fun r hr => (mem_plannedRecords hr).2.2
  have hnone : (s.collectEvidence git (some policy) id).integrityIncident.isNone = true := by
    rw [show (s.collectEvidence git (some policy) id).integrityIncident = _ from hincident]
    rfl
  refine Prog.returns_mono (returns_finishTransaction rfl t) ?_
  rintro _ u ⟨records, hwrites, hfinishes, hidle⟩
  refine ⟨_, hplanned.trans hwrites, ?_, ?_⟩
  · intro hwork hnil
    obtain ⟨hnone', hnil'⟩ := List.append_eq_nil_iff.mp hnil
    simp only [HubWorld.hasWork, hnone, hnone', Bool.true_and, List.isEmpty_nil, Bool.not_true,
      Bool.false_or] at hwork
    exact hfinishes hwork hnil'
  · intro hwork
    simp only [HubWorld.hasWork, hnone, Bool.true_and, Bool.or_eq_false_iff, Bool.not_eq_false',
      List.isEmpty_iff] at hwork
    obtain ⟨hempty, hfinish⟩ := hwork
    rw [hempty] at ht
    have hrecorded : Idle s t := by
      obtain ⟨ids, -, -, rfl⟩ := ht
      refine ⟨ids, s.publicationOutbox, s.checkoutOutbox, ?_⟩
      rw [List.append_nil, Function.update_eq_self]
    exact hrecorded.trans (hidle hfinish)

/-! ### Incidents stay as they are -/

theorem reduce_candidateOid {candidateOid : Option Oid}
    (new : List HubLandingTransactionRecord) (h : ∀ r ∈ new, r.candidateOid = candidateOid)
    (records : List HubLandingTransactionRecord) :
    (reduceHubLandingTransaction (records ++ new)).bind (·.candidateOid) =
        (reduceHubLandingTransaction records).bind (·.candidateOid) ∨
      (reduceHubLandingTransaction (records ++ new)).bind (·.candidateOid) = candidateOid := by
  induction new generalizing records with
  | nil => exact Or.inl (by rw [List.append_nil])
  | cons r new ih =>
    have hone : (reduceHubLandingTransaction (records ++ [r])).bind (·.candidateOid) =
          (reduceHubLandingTransaction records).bind (·.candidateOid) ∨
        (reduceHubLandingTransaction (records ++ [r])).bind (·.candidateOid) = candidateOid := by
      have hr := h r List.mem_cons_self
      cases records with
      | nil => exact Or.inr hr
      | cons first rest =>
        simp only [List.cons_append, reduceHubLandingTransaction, List.filter_append,
          List.foldl_append, Option.bind_some]
        by_cases hid : r.transactionId = first.transactionId
        · rw [List.filter_cons_of_pos (by simpa using hid), List.filter_nil]
          cases hoid : r.candidateOid with
          | none => exact Or.inl (by simp [HubLandingTransactionState.advance, hoid])
          | some oid =>
            refine Or.inr ?_
            rw [← hr, hoid]
            simp [HubLandingTransactionState.advance, hoid]
        · rw [List.filter_cons_of_neg (by simpa using hid), List.filter_nil]
          exact Or.inl rfl
    have hrest := ih (fun r' hr' => h r' (List.mem_cons_of_mem _ hr')) (records ++ [r])
    rw [List.append_assoc, List.singleton_append] at hrest
    rcases hrest with hrest | hrest
    · rw [hrest]
      exact hone
    · exact Or.inr hrest

theorem integrityIncident_congr {s t : HubWorld} {v : TransactionId}
    (hjournal : (t.transactionState v).bind (·.candidateOid) =
      (s.transactionState v).bind (·.candidateOid))
    (hmanifest : t.manifest = s.manifest) (href : t.candidateRef = s.candidateRef)
    (hreceipt : t.receipt = s.receipt) (htarget : t.publishTarget = s.publishTarget)
    (hobject : t.hasObject = s.hasObject) :
    t.integrityIncident git (some policy) v = s.integrityIncident git (some policy) v := by
  have hcandidate : t.evidenceCandidateOid v = s.evidenceCandidateOid v := by
    unfold HubWorld.evidenceCandidateOid
    rw [href, hmanifest, hjournal]
  have hin : t.candidateInTarget git (some policy) v = s.candidateInTarget git (some policy) v := by
    unfold HubWorld.candidateInTarget HubWorld.evidenceTargetOid HubWorld.isAncestor
    rw [hcandidate, htarget, hobject]
  unfold HubWorld.integrityIncident HubWorld.receiptLostIncident HubWorld.receiptMismatchIncident
  rw [hreceipt, hcandidate, hjournal, hmanifest, href, hin]

theorem integrityIncident_of_evidence {s t : HubWorld}
    (hjournal : (t.transactionState id).bind (·.candidateOid) = s.evidenceCandidateOid id)
    (hmanifest : t.manifest = s.manifest) (href : t.candidateRef = s.candidateRef)
    (hreceipt : t.receipt = s.receipt) (htarget : t.publishTarget = s.publishTarget)
    (hobject : t.hasObject = s.hasObject)
    (hincident : s.integrityIncident git (some policy) id = none) :
    t.integrityIncident git (some policy) id = none := by
  have hcandidate : t.evidenceCandidateOid id = s.evidenceCandidateOid id := by
    unfold HubWorld.evidenceCandidateOid
    rw [href, hmanifest, hjournal]
    unfold HubWorld.evidenceCandidateOid
    cases s.candidateRef id <;> cases (s.manifest id) <;> rfl
  have hin : t.candidateInTarget git (some policy) id =
      s.candidateInTarget git (some policy) id := by
    unfold HubWorld.candidateInTarget HubWorld.evidenceTargetOid HubWorld.isAncestor
    rw [hcandidate, htarget, hobject]
  have hmismatch : candidateOidMismatchIncident "journal" (s.evidenceCandidateOid id)
      (s.candidateRef id) = none := by
    unfold HubWorld.evidenceCandidateOid
    cases s.candidateRef id with
    | none => cases ((s.manifest id).map (·.candidateOid) <|> _ : Option Oid) <;> rfl
    | some ref => exact if_pos rfl
  simp only [HubWorld.integrityIncident, HubWorld.receiptLostIncident,
    HubWorld.receiptMismatchIncident, Option.orElse_eq_orElse, Option.orElse_eq_or,
    Option.or_eq_none_iff] at hincident ⊢
  rw [hreceipt, hcandidate, hjournal, hmanifest, href, hin]
  exact ⟨hincident.1, hincident.2.1, hmismatch, hincident.2.2.2⟩

theorem PassWrites.incident_isSome {s t : HubWorld}
    {records : List HubLandingTransactionRecord}
    (h : PassWrites id (s.evidenceCandidateOid id) records s t)
    (hincident : s.integrityIncident git (some policy) id = none) (v : TransactionId) :
    (t.integrityIncident git (some policy) v).isSome =
      (s.integrityIncident git (some policy) v).isSome := by
  by_cases hv : v = id
  · subst hv
    have hjournal := reduce_candidateOid records h.candidate (s.journal v)
    rw [show s.journal v ++ records = t.journal v by rw [h.journal, Function.update_self]]
      at hjournal
    rcases hjournal with hjournal | hjournal
    · rw [integrityIncident_congr hjournal h.manifest h.candidateRef h.receipt h.publishTarget
        h.hasObject]
    · rw [hincident, integrityIncident_of_evidence hjournal h.manifest h.candidateRef h.receipt
        h.publishTarget h.hasObject hincident]
  · have hjournal : t.transactionState v = s.transactionState v := by
      unfold HubWorld.transactionState
      rw [h.journal, Function.update_of_ne hv]
    rw [integrityIncident_congr (by rw [hjournal]) h.manifest h.candidateRef h.receipt
      h.publishTarget h.hasObject]

end

/-! ### The two calls -/

/-- What `reconcileHubLandingTransactions` does before it lists the transactions. -/
def prepareReconciliation (git : Git) (input : HubLandingReconciliationInput) :
    Hub (HubLandingPolicy × List HubLegacyLandingEvidence) := do
  let policy ← ensureHubLandingPolicy git input.call input.hostTargetBranch
  let legacyHistory ← adoptBeforeReconciling git policy input
  return (policy, legacyHistory)

def reconcileListed (git : Git) (input : HubLandingReconciliationInput)
    (policy : HubLandingPolicy) (legacyHistory : List HubLegacyLandingEvidence) :
    Hub HubLandingReconciliationOutcome := do
  let ids ← Prog.reads fun s => s.listHubLandingTransactionIds
  match ← reconcileTransactions git policy input.call ids 0 with
  | .incident before => return summarize [before] 0 legacyHistory
  | .reconstructed count =>
    let (transactions, legacyAfter) ← inspectHubLandingTransactions git input
    return summarize transactions count
      (if legacyAfter.isEmpty then legacyHistory else legacyAfter)

theorem reconcile_split (git : Git) (input : HubLandingReconciliationInput) :
    reconcileHubLandingTransactions git input =
      (prepareReconciliation git input).bind fun prepared =>
        reconcileListed git input prepared.1 prepared.2 := by
  unfold prepareReconciliation
  simp only [Prog.bind_eq, Prog.bind_assoc]
  rfl

/-- The world without the transactions that have an integrity incident. -/
def HubWorld.withoutIncidents (git : Git) (policy : HubLandingPolicy) (s : HubWorld) : HubWorld :=
  s.withoutTransactions fun id => (s.integrityIncident git (some policy) id).isSome

/-- The call in a project from which the transactions with an incident are gone when the loop
begins. The legacy history is adopted as in the real call. -/
def reconcileWithoutIncidents (git : Git) (input : HubLandingReconciliationInput) :
    Hub HubLandingReconciliationOutcome :=
  (prepareReconciliation git input).bind fun prepared =>
    (Prog.modify fun s => s.withoutIncidents git prepared.1).bind fun _ =>
      reconcileListed git input prepared.1 prepared.2

/-- Two worlds agree on how far the transaction is: its journal, its worktree and the close of
its task, which is the one that the evidence names in `u`. -/
structure SameProgress (u : HubWorld) (id : TransactionId) (s t : HubWorld) : Prop where
  journal : s.journal id = t.journal id
  worktree : s.worktree id = t.worktree id
  task : ∀ task, u.evidenceTaskId id = some task → s.tasks task = t.tasks task

/-- The call brings each transaction without an incident as far as it would bring it without
the others. -/
def Isolated (git : Git) (input : HubLandingReconciliationInput) (s : HubWorld) : Prop :=
  ∀ policy legacyHistory u,
    (prepareReconciliation git input).run s = (.ok (policy, legacyHistory), u) →
      ∀ id ∈ u.transactionIds, u.integrityIncident git (some policy) id = none →
        SameProgress u id ((reconcileHubLandingTransactions git input).exec s)
          ((reconcileWithoutIncidents git input).exec s)

/-- The transactions of the list with work to do that come after the first incident. -/
def HubWorld.behindIncident (git : Git) (policy : HubLandingPolicy) (call : HubCall) :
    List TransactionId → HubWorld → List TransactionId
  | [], _ => []
  | id :: ids, s =>
    if (s.integrityIncident git (some policy) id).isSome then ids.filter (s.hasWork git policy)
    else behindIncident git policy call ids ((reconcileTransaction git policy call id).exec s)

def leftBehind (git : Git) (input : HubLandingReconciliationInput) (s : HubWorld) :
    List TransactionId :=
  match (prepareReconciliation git input).run s with
  | (.ok (policy, _), u) =>
    u.behindIncident git policy input.call u.listHubLandingTransactionIds
  | (.error _, _) => []

/-! ### The loop -/

def HubWorld.afterPasses (git : Git) (policy : HubLandingPolicy) (call : HubCall) :
    List TransactionId → HubWorld → HubWorld
  | [], s => s
  | id :: ids, s =>
    if (s.integrityIncident git (some policy) id).isSome then s
    else afterPasses git policy call ids ((reconcileTransaction git policy call id).exec s)

section
variable {git : Git} {policy : HubLandingPolicy} {call : HubCall}

theorem reconcileTransaction_incident {id : TransactionId} {s : HubWorld}
    (h : (s.integrityIncident git (some policy) id).isSome) :
    (reconcileTransaction git policy call id).run s =
      (.ok (.incident (s.collectEvidence git (some policy) id)), s) := by
  have hincident : (s.collectEvidence git (some policy) id).integrityIncident.isSome := h
  show Prog.run (if (s.collectEvidence git (some policy) id).integrityIncident.isSome then _
    else _) s = _
  rw [if_pos hincident]
  rfl

theorem reconcileTransaction_reconstructed (call : HubCall) {id : TransactionId} {s : HubWorld}
    (h : s.integrityIncident git (some policy) id = none) :
    ∃ count, (reconcileTransaction git policy call id).run s =
      (.ok (.reconstructed count), (reconcileTransaction git policy call id).exec s) := by
  have hbranch : (reconcileTransaction git policy call id).run s =
      ((loadHubLandingTransaction id).bind fun journal =>
        (reconstructCheckpoints (s.collectEvidence git (some policy) id) journal).bind fun count =>
          (finishTransaction git policy call (s.collectEvidence git (some policy) id)).bind
            fun _ => .ret (.reconstructed count)).run s := by
    show Prog.run (if (s.collectEvidence git (some policy) id).integrityIncident.isSome then _
      else _) s = _
    rw [if_neg (by simpa [HubWorld.collectEvidence] using h)]
    rfl
  obtain ⟨reconciled, t, hrun, -⟩ := returns_pass call h
  have hexec : (reconcileTransaction git policy call id).exec s = t := by rw [Prog.exec, hrun]
  rw [hbranch] at hrun
  obtain ⟨journal, t₁, -, hrest⟩ := Prog.run_bind_eq_ok.mp hrun
  obtain ⟨count, t₂, -, hrest⟩ := Prog.run_bind_eq_ok.mp hrest
  obtain ⟨_, t₃, -, hrest⟩ := Prog.run_bind_eq_ok.mp hrest
  cases hrest
  exact ⟨count, by rw [hbranch, hrun, hexec]⟩

theorem reconcileTransactions_exec (ids : List TransactionId) (count : Nat) (s : HubWorld) :
    (reconcileTransactions git policy call ids count).exec s =
      s.afterPasses git policy call ids := by
  induction ids generalizing count s with
  | nil => rfl
  | cons id ids ih =>
    unfold reconcileTransactions HubWorld.afterPasses Prog.exec
    split
    · rename_i hincident
      rw [Prog.bind_eq, Prog.run_bind_ok (reconcileTransaction_incident hincident)]
      rfl
    · rename_i hincident
      obtain ⟨written, hrun⟩ := reconcileTransaction_reconstructed call
        (Option.not_isSome_iff_eq_none.mp hincident)
      rw [Prog.bind_eq, Prog.run_bind_ok hrun]
      exact ih _ _

theorem SameEvidence.hasWork {s t : HubWorld} {id : TransactionId} (h : SameEvidence id s t) :
    t.hasWork git policy id = s.hasWork git policy id := by
  unfold HubWorld.hasWork HubWorld.plannedRecords
  rw [h.collectEvidence git (some policy), h.transactionState]

theorem incident_none_of_hasWork {s : HubWorld} {id : TransactionId}
    (h : s.hasWork git policy id = true) : s.integrityIncident git (some policy) id = none := by
  unfold HubWorld.hasWork at h
  simp only [Bool.and_eq_true, Option.isNone_iff_eq_none] at h
  exact h.1

theorem afterPasses_length (ids : List TransactionId) (s : HubWorld) (v : TransactionId) :
    (s.journal v).length ≤ ((s.afterPasses git policy call ids).journal v).length := by
  induction ids generalizing s with
  | nil => exact le_rfl
  | cons id ids ih =>
    unfold HubWorld.afterPasses
    split
    · exact le_rfl
    · rename_i hincident
      obtain ⟨records, hwrites, -⟩ := Prog.Returns.exec (R := fun t =>
        ∃ records, PassWrites id (s.evidenceCandidateOid id) records s t ∧ _)
        (returns_pass call (Option.not_isSome_iff_eq_none.mp hincident))
      exact le_trans (hwrites.length_le v) (ih _)

theorem afterPasses_idle (ids : List TransactionId) (s : HubWorld)
    (h : ∀ id ∈ ids, s.hasWork git policy id = false) :
    Idle s (s.afterPasses git policy call ids) := by
  induction ids generalizing s with
  | nil => exact .refl s
  | cons id ids ih =>
    unfold HubWorld.afterPasses
    split
    · exact .refl s
    · rename_i hincident
      obtain ⟨-, -, -, hidle⟩ :=
        (returns_pass call (Option.not_isSome_iff_eq_none.mp hincident)).exec
      have hpass := hidle (h id List.mem_cons_self)
      refine hpass.trans (ih _ fun v hv => ?_)
      rw [(hpass.sameEvidence v).hasWork]
      exact h v (List.mem_cons_of_mem _ hv)

/-- A loop over transactions without incidents, one of them with work, makes a journal
longer. -/
theorem afterPasses_grows (call : HubCall) (ids : List TransactionId) (s : HubWorld)
    (hnone : ∀ id ∈ ids, s.integrityIncident git (some policy) id = none)
    (hwork : ∃ id ∈ ids, s.hasWork git policy id = true) :
    ∃ id ∈ ids, (s.journal id).length <
      ((s.afterPasses git policy call ids).journal id).length := by
  induction ids generalizing s with
  | nil =>
    obtain ⟨id, hmem, -⟩ := hwork
    exact nomatch hmem
  | cons id ids ih =>
    have hid := hnone id List.mem_cons_self
    obtain ⟨records, hwrites, hrecords, hidle⟩ := (returns_pass call hid).exec
    unfold HubWorld.afterPasses
    rw [if_neg (by simp [hid])]
    cases hwork' : s.hasWork git policy id with
    | true =>
      refine ⟨id, List.mem_cons_self, ?_⟩
      exact lt_of_lt_of_le (hwrites.length_lt (hrecords hwork')) (afterPasses_length _ _ id)
    | false =>
      -- The pass changes no evidence, so the work is with one of the others still.
      have hpass := hidle hwork'
      have hrest : ∃ v ∈ ids, ((reconcileTransaction git policy call id).exec s).hasWork git
          policy v = true := by
        obtain ⟨v, hv, hwork⟩ := hwork
        refine ⟨v, ?_, by rw [(hpass.sameEvidence v).hasWork, hwork]⟩
        rcases List.mem_cons.mp hv with rfl | hv
        · rw [hwork'] at hwork
          exact nomatch hwork
        · exact hv
      obtain ⟨v, hv, hlt⟩ := ih _ (fun v hv => by
        rw [(hpass.sameEvidence v).integrityIncident, hnone v (List.mem_cons_of_mem _ hv)]) hrest
      rw [(hpass.sameEvidence v).journal] at hlt
      exact ⟨v, List.mem_cons_of_mem _ hv, hlt⟩

/-- The loop over all transactions and the loop over those without an incident, from one
world: they differ in the outboxes only, unless transactions are left behind. One of these has
a longer journal in the second loop. -/
theorem afterPasses_compare (call : HubCall) (absent : TransactionId → Bool)
    (ids : List TransactionId)
    (s : HubWorld) (habsent : ∀ v, absent v = (s.integrityIncident git (some policy) v).isSome) :
    if s.behindIncident git policy call ids = [] then
      Idle (s.afterPasses git policy call ids)
        (s.afterPasses git policy call (ids.filter fun v => !absent v))
    else ∃ id ∈ ids, absent id = false ∧
      ((s.afterPasses git policy call ids).journal id).length <
        ((s.afterPasses git policy call (ids.filter fun v => !absent v)).journal id).length := by
  induction ids generalizing s with
  | nil => exact Idle.refl s
  | cons id ids ih =>
    cases hid : absent id with
    | true =>
      have hincident : (s.integrityIncident git (some policy) id).isSome = true := by
        rw [← habsent, hid]
      rw [List.filter_cons_of_neg (by simp [hid])]
      unfold HubWorld.behindIncident
      rw [if_pos hincident, show s.afterPasses git policy call (id :: ids) = s by
        rw [HubWorld.afterPasses, if_pos hincident]]
      split
      · rename_i hempty
        refine afterPasses_idle _ s fun v hv => ?_
        have hnot := List.filter_eq_nil_iff.mp hempty v (List.mem_filter.mp hv).1
        simpa using hnot
      · rename_i hne
        obtain ⟨b, hb⟩ := List.exists_mem_of_ne_nil _ hne
        obtain ⟨hmem, hwork⟩ := List.mem_filter.mp hb
        have hpresent : ∀ v, s.integrityIncident git (some policy) v = none ↔
            absent v = false := by
          intro v
          rw [habsent v]
          exact Option.not_isSome_iff_eq_none.symm.trans (by simp)
        have hb' : b ∈ ids.filter fun v => !absent v :=
          List.mem_filter.mpr ⟨hmem, by simp [(hpresent b).mp (incident_none_of_hasWork hwork)]⟩
        obtain ⟨v, hv, hlt⟩ := afterPasses_grows call _ s (fun v hv =>
          (hpresent v).mpr (by simpa using (List.mem_filter.mp hv).2)) ⟨b, hb', hwork⟩
        obtain ⟨hv, hpresentv⟩ := List.mem_filter.mp hv
        exact ⟨v, List.mem_cons_of_mem _ hv, by simpa using hpresentv, hlt⟩
    | false =>
      have hincident : s.integrityIncident git (some policy) id = none := by
        rw [← Option.not_isSome_iff_eq_none, ← habsent, hid]
        exact fun h => nomatch h
      obtain ⟨records, hwrites, -, -⟩ := (returns_pass call hincident).exec
      rw [List.filter_cons_of_pos (by simp [hid])]
      have hbehind : s.behindIncident git policy call (id :: ids) =
          ((reconcileTransaction git policy call id).exec s).behindIncident git policy call ids :=
        if_neg (by simp [hincident])
      have hpasses : ∀ l, s.afterPasses git policy call (id :: l) =
          ((reconcileTransaction git policy call id).exec s).afterPasses git policy call l :=
        fun l => if_neg (by simp [hincident])
      rw [hbehind, hpasses, hpasses]
      have hih := ih _ fun v => (habsent v).trans (hwrites.incident_isSome hincident v).symm
      split
      · rename_i hempty
        rwa [if_pos hempty] at hih
      · rename_i hne
        rw [if_neg hne] at hih
        obtain ⟨v, hv, hpresent, hlt⟩ := hih
        exact ⟨v, List.mem_cons_of_mem _ hv, hpresent, hlt⟩

end

/-! ### The two calls compared -/

theorem listed_withoutTransactions (absent : TransactionId → Bool) (s : HubWorld) :
    (s.withoutTransactions absent).listHubLandingTransactionIds =
      s.listHubLandingTransactionIds.filter fun id => !absent id := by
  have hsorted := List.pairwise_insertionSort (fun a b : TransactionId => a ≤ b)
  refine List.Perm.eq_of_pairwise' (hsorted _) ((hsorted s.transactionIds).filter _) ?_
  refine (List.perm_insertionSort _ _).trans ?_
  exact ((List.perm_insertionSort _ s.transactionIds).filter _).symm

theorem mem_listed {s : HubWorld} {id : TransactionId} :
    id ∈ s.listHubLandingTransactionIds ↔ id ∈ s.transactionIds :=
  List.mem_insertionSort _

section
variable {git : Git} {input : HubLandingReconciliationInput}

theorem reconcileListed_exec (policy : HubLandingPolicy)
    (legacyHistory : List HubLegacyLandingEvidence) (s : HubWorld) :
    (reconcileListed git input policy legacyHistory).exec s =
      s.afterPasses git policy input.call s.listHubLandingTransactionIds := by
  rw [← reconcileTransactions_exec _ 0 s]
  unfold reconcileListed Prog.exec
  rw [Prog.bind_eq, Prog.run_bind_ok (Prog.run_reads _ s), Prog.bind_eq, Prog.run_bind]
  rcases (reconcileTransactions git policy input.call s.listHubLandingTransactionIds 0).run s with
    ⟨_ | reconciled, t⟩
  · rfl
  · cases reconciled with
    | incident before => rfl
    | reconstructed count => rfl

theorem unnoticed_ensureHubLandingPolicy (git : Git) (absent : TransactionId → Bool)
    (call : HubCall) (hostTargetBranch : String) :
    (ensureHubLandingPolicy git call hostTargetBranch).Unnoticed (Absent absent) := by
  have hhead : (revParse "HEAD" fun s => s.head).Unnoticed (Absent absent) := by
    intro s
    refine ⟨rfl, rfl, ?_⟩
    dsimp only
    split <;> trivial
  refine Prog.unnoticed_bind (Prog.unnoticed_reads fun _ => rfl) fun existing => ?_
  cases existing with
  | some policy =>
    refine Prog.unnoticed_bind hhead fun head => ?_
    refine Prog.unnoticed_bind (Prog.unnoticed_modify fun _ => rfl) fun _ => ?_
    exact Prog.unnoticed_bind (Prog.unnoticed_modify fun _ => rfl) fun _ => trivial
  | none =>
    refine Prog.unnoticed_bind hhead fun head => ?_
    refine Prog.unnoticed_bind (Prog.unnoticed_modify fun _ => rfl) fun _ => ?_
    refine Prog.unnoticed_bind (Prog.unnoticed_modify fun _ => rfl) fun _ => ?_
    exact Prog.unnoticed_bind (Prog.unnoticed_modify fun _ => rfl) fun _ => trivial

/-- Without a task board, the call that `Isolated` compares with is the real call in a project
that never had the transactions with an incident. -/
theorem reconcileWithoutIncidents_emptyBoard (hboard : input.tasks = [])
    {policy : HubLandingPolicy} {s u : HubWorld}
    (hensure : (ensureHubLandingPolicy git input.call input.hostTargetBranch).run s =
      (.ok policy, u)) :
    (reconcileWithoutIncidents git input).exec s =
      (reconcileHubLandingTransactions git input).exec
        (s.withoutTransactions fun id => (u.integrityIncident git (some policy) id).isSome) := by
  have hprepare : ∀ {s u : HubWorld},
      (ensureHubLandingPolicy git input.call input.hostTargetBranch).run s = (.ok policy, u) →
      (prepareReconciliation git input).run s = (.ok (policy, []), u) := by
    intro s u h
    unfold prepareReconciliation adoptBeforeReconciling
    rw [Prog.bind_eq, Prog.run_bind_ok h, hboard]
    rfl
  have hwithout := (unnoticed_ensureHubLandingPolicy git
    (fun id => (u.integrityIncident git (some policy) id).isSome) input.call
    input.hostTargetBranch).run s
  rw [hensure] at hwithout
  rw [reconcile_split, reconcileWithoutIncidents, Prog.exec, Prog.exec,
    Prog.run_bind_ok (hprepare hensure), Prog.run_bind_ok (hprepare hwithout)]
  rfl

/-- The transactions without an incident get as far as they would get without the others if
and only if none of them is left behind. -/
theorem reconciliation_isolated_iff (git : Git) (input : HubLandingReconciliationInput)
    (s : HubWorld) : Isolated git input s ↔ leftBehind git input s = [] := by
  unfold Isolated leftBehind
  cases hprepare : (prepareReconciliation git input).run s with
  | mk prepared u =>
    cases prepared with
    | error e =>
      refine iff_of_true ?_ rfl
      intro policy legacyHistory u' h
      exact nomatch h
    | ok prepared =>
      obtain ⟨policy, legacyHistory⟩ := prepared
      have hcall : (reconcileHubLandingTransactions git input).exec s =
          u.afterPasses git policy input.call u.listHubLandingTransactionIds := by
        rw [reconcile_split, Prog.exec, Prog.run_bind_ok hprepare]
        exact reconcileListed_exec policy legacyHistory u
      -- The absent transactions are not among those that the second loop takes.
      let absent : TransactionId → Bool := fun id =>
        (u.integrityIncident git (some policy) id).isSome
      have hwithout : (reconcileWithoutIncidents git input).exec s =
          (u.afterPasses git policy input.call (u.listHubLandingTransactionIds.filter
            fun id => !absent id)).withoutTransactions absent := by
        have hloop := (unnoticed_reconcileTransactions git policy input.call
          (u.listHubLandingTransactionIds.filter fun id => !absent id) 0
          fun id hid => by simpa using (List.mem_filter.mp hid).2).exec u
        rw [reconcileTransactions_exec, reconcileTransactions_exec] at hloop
        refine Eq.trans ?_ hloop
        rw [← listed_withoutTransactions, reconcileWithoutIncidents, Prog.exec,
          Prog.run_bind_ok hprepare]
        exact reconcileListed_exec policy legacyHistory (u.withoutTransactions absent)
      have hcompare := afterPasses_compare input.call absent u.listHubLandingTransactionIds u
        fun _ => rfl
      rw [hcall, hwithout]
      constructor
      · intro hisolated
        by_contra hne
        rw [if_neg hne] at hcompare
        obtain ⟨id, hid, hpresent, hlt⟩ := hcompare
        have hnone : u.integrityIncident git (some policy) id = none := by
          simpa [absent] using hpresent
        have hjournal := (hisolated policy legacyHistory u rfl id (mem_listed.mp hid) hnone).journal
        rw [hjournal, show (HubWorld.withoutTransactions _ absent).journal id = _ from
          if_neg (by simp [hpresent])] at hlt
        exact lt_irrefl _ hlt
      · intro hempty policy' legacyHistory' u' hrun id _ hnone
        cases hrun
        rw [if_pos hempty] at hcompare
        obtain ⟨ids, publications, checkouts, hidle⟩ := hcompare
        have hpresent : absent id = false := by simp [absent, hnone]
        rw [hidle]
        refine ⟨?_, ?_, fun _ _ => rfl⟩
        · exact (if_neg (by simp [hpresent])).symm
        · exact (if_neg (by simp [hpresent])).symm

end

/-! ### A landed transaction behind an incident -/

def sampleReceipt (transactionId : TransactionId) (taskId : TaskId) (candidateOid : Oid) :
    HubStoredReceipt where
  oid := "receipt"
  receipt :=
    { transactionId := transactionId, taskId := taskId, candidateOid := candidateOid
      sourceOid := "s", baseOid := "b", verifierFingerprint := "v", landedAt := 0 }

/-- The transaction `tx-a` has a receipt, but the publish target has lost its candidate. The
transaction `tx-b` has landed, and its task is open. -/
def sampleIncidentWorld : HubWorld where
  head := some "h"
  publishTarget := some "h"
  fence := some "fence"
  policy := some { hostTargetBranch := "main", publishPolicy := .off }
  transactionIds := ["tx-a", "tx-b"]
  candidateRef := fun id => if id = "tx-a" then some "x" else if id = "tx-b" then some "h" else none
  receipt := fun id =>
    if id = "tx-a" then some (sampleReceipt "tx-a" "a" "x")
    else if id = "tx-b" then some (sampleReceipt "tx-b" "b" "h")
    else none

/-- The call leaves the task of `tx-b` open. Without `tx-a` it would close it. -/
theorem landedTransaction_leftBehind :
    ¬ Isolated sampleGit {} sampleIncidentWorld := by
  intro h
  have htask := (h _ _ _ rfl "tx-b" (by decide) (by decide)).task "b" (by decide)
  exact absurd htask (by decide)

end ArchLoop
