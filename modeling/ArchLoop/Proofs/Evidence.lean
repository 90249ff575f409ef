import ArchLoop.Proofs.Frames

/-!
# `ArchLoop.Proofs.Evidence`: which task a transaction belongs to

Reconciliation takes the task of a transaction from its journal, its manifest or its receipt
(`evidenceTaskId`), and adopts only tasks that no transaction names. The results on crashes
need to know who can change that name, so this module says it once:

- `reduce_consistent`: a journal in which all records name one task and one candidate reduces
  to a state with these.
- `TransactionMove.evidenceTaskId`: a move of one transaction leaves the names of the others.
- `Names`: adopting a task names no other task.

It also has the parts of a reconciliation that its results share: the policy that is there
already (`returns_ensureHubLandingPolicy`) and the loop (`returns_reconcileTransactions`).
-/

set_option autoImplicit false

namespace ArchLoop

open ArchLoop.Lib

/-! ### Journals -/

theorem reduce_taskId (first : HubLandingTransactionRecord)
    (rest : List HubLandingTransactionRecord) :
    (reduceHubLandingTransaction (first :: rest)).map (·.taskId) = some first.taskId := by
  have hfold : ∀ (records : List HubLandingTransactionRecord)
      (state : HubLandingTransactionState),
      (records.foldl HubLandingTransactionState.advance state).taskId = state.taskId := by
    intro records
    induction records with
    | nil => intro state; rfl
    | cons record records ih =>
      intro state
      rw [List.foldl_cons, ih, advance_taskId]
  simp only [reduceHubLandingTransaction, Option.map_some, hfold]
  rfl

/-- All records belong to the transaction, and name the task and the candidate. -/
def JournalOf (id : TransactionId) (task : TaskId) (candidateOid : Oid)
    (records : List HubLandingTransactionRecord) : Prop :=
  ∀ r ∈ records, r.transactionId = id ∧ r.taskId = task ∧ r.candidateOid = some candidateOid

theorem reduce_consistent {id : TransactionId} {task : TaskId} {candidateOid : Oid}
    {records : List HubLandingTransactionRecord} (h : JournalOf id task candidateOid records)
    (hne : records ≠ []) :
    ∃ state, reduceHubLandingTransaction records = some state ∧ state.taskId = task ∧
      state.candidateOid = some candidateOid := by
  cases records with
  | nil => exact absurd rfl hne
  | cons first rest =>
    have hfold : ∀ (records : List HubLandingTransactionRecord)
        (state : HubLandingTransactionState),
        (∀ r ∈ records, r.candidateOid = some candidateOid) →
        state.candidateOid = some candidateOid →
        (records.foldl HubLandingTransactionState.advance state).candidateOid
          = some candidateOid := by
      intro records
      induction records with
      | nil => intro state _ hstate; exact hstate
      | cons record records ih =>
        intro state hrecords hstate
        refine ih _ (fun r hr => hrecords r (List.mem_cons_of_mem _ hr)) ?_
        simp [HubLandingTransactionState.advance, hrecords record List.mem_cons_self]
    obtain ⟨-, htask, hoid⟩ := h first List.mem_cons_self
    have hstate := reduce_taskId first rest
    simp only [reduceHubLandingTransaction, Option.map_some, Option.some.injEq] at hstate
    refine ⟨_, rfl, hstate.trans htask, hfold _ _ ?_ hoid⟩
    intro r hr
    exact (h r (List.mem_cons_of_mem _ (List.mem_of_mem_filter hr))).2.2

/-! ### The task of a transaction -/

theorem evidenceTaskId_congr {s t : HubWorld} {id : TransactionId}
    (hjournal : t.journal id = s.journal id) (hmanifest : t.manifest id = s.manifest id)
    (hreceipt : t.receipt id = s.receipt id) : t.evidenceTaskId id = s.evidenceTaskId id := by
  simp only [HubWorld.evidenceTaskId, HubWorld.transactionState, hjournal, hmanifest, hreceipt]

theorem evidenceTaskId_of_journal {s : HubWorld} {id : TransactionId}
    {first : HubLandingTransactionRecord} (h : (s.journal id).head? = some first) :
    s.evidenceTaskId id = some first.taskId := by
  obtain ⟨rest, hjournal⟩ := List.head?_eq_some_iff.mp h
  simp only [HubWorld.evidenceTaskId, HubWorld.transactionState, hjournal, reduce_taskId]
  rfl

theorem evidenceTaskId_eq_none {s : HubWorld} {id : TransactionId} :
    s.evidenceTaskId id = none ↔
      s.journal id = [] ∧ s.manifest id = none ∧ s.receipt id = none := by
  simp [HubWorld.evidenceTaskId, HubWorld.transactionState, reduce_eq_none]

theorem TransactionMove.evidenceTaskId {id : TransactionId} {task : TaskId} {s t : HubWorld}
    (h : TransactionMove id task s t) {u : TransactionId} (hu : u ≠ id) :
    t.evidenceTaskId u = s.evidenceTaskId u :=
  evidenceTaskId_congr (h.journal hu) (h.manifest hu) (congrFun h.receipt u)

/-- Each transaction keeps its task, or belongs to the given one now. -/
def Names (task : TaskId) (s t : HubWorld) : Prop :=
  ∀ u, t.evidenceTaskId u = s.evidenceTaskId u ∨ t.evidenceTaskId u = some task

namespace Names

variable {task : TaskId} {s t u : HubWorld}

theorem refl (task : TaskId) (s : HubWorld) : Names task s s := fun _ => Or.inl rfl

theorem trans (h₁ : Names task s t) (h₂ : Names task t u) : Names task s u := by
  intro v
  rcases h₂ v with h | h
  · rw [h]
    exact h₁ v
  · exact Or.inr h

theorem of_same (hjournal : t.journal = s.journal) (hmanifest : t.manifest = s.manifest)
    (hreceipt : t.receipt = s.receipt) : Names task s t :=
  fun v => Or.inl <|
    evidenceTaskId_congr (congrFun hjournal v) (congrFun hmanifest v) (congrFun hreceipt v)

theorem of_append {record : HubLandingTransactionRecord} (h : record.taskId = task)
    (s : HubWorld) : Names task s (s.appendRecord record) := by
  intro v
  by_cases hv : v = record.transactionId
  · subst hv
    cases hjournal : s.journal record.transactionId with
    | nil =>
      refine Or.inr ?_
      rw [← h]
      refine evidenceTaskId_of_journal ?_
      simp [HubWorld.appendRecord, hjournal]
    | cons first rest =>
      refine Or.inl ?_
      have hfirst : (s.journal record.transactionId).head? = some first := by simp [hjournal]
      rw [evidenceTaskId_of_journal hfirst]
      refine evidenceTaskId_of_journal ?_
      simp [HubWorld.appendRecord, hjournal]
  · refine Or.inl (evidenceTaskId_congr ?_ rfl rfl)
    exact Function.update_of_ne hv _ _

end Names

theorem names_manifest {manifest : HubLandingCandidateManifest} (s : HubWorld) :
    Names manifest.taskId s
      { s with manifest := Function.update s.manifest manifest.transactionId (some manifest) } := by
  intro v
  by_cases hv : v = manifest.transactionId
  · subst hv
    cases hjournal : s.journal manifest.transactionId with
    | nil =>
      refine Or.inr ?_
      simp [HubWorld.evidenceTaskId, HubWorld.transactionState, hjournal,
        reduceHubLandingTransaction]
    | cons first rest =>
      refine Or.inl ?_
      have hfirst : (s.journal manifest.transactionId).head? = some first := by simp [hjournal]
      rw [evidenceTaskId_of_journal hfirst]
      exact evidenceTaskId_of_journal hfirst
  · exact Or.inl (evidenceTaskId_congr rfl (Function.update_of_ne hv _ _) rfl)

section
variable {task : TaskId}

theorem names_reads {α : Type} (f : HubWorld → α) :
    (Prog.reads f : Hub α).Makes (Names task) :=
  Prog.makes_reads.mpr (Names.refl task)

theorem names_appendHubLandingCheckpoint {record : HubLandingTransactionRecord}
    (h : record.taskId = task) : (appendHubLandingCheckpoint record).Makes (Names task) := by
  refine Prog.makes_bind ?_ fun _ => ?_
  · exact Prog.makes_modify.mpr fun s => .of_same rfl rfl rfl
  · exact Prog.makes_modify.mpr fun s => .of_append h s

theorem names_writeCandidateManifestAndRef {manifest : HubLandingCandidateManifest}
    (h : manifest.taskId = task) :
    (writeCandidateManifestAndRef manifest).Makes (Names task) := by
  subst h
  refine Prog.makes_bind ?_ fun _ => ?_
  · exact Prog.makes_modify.mpr fun s => names_manifest s
  · exact Prog.makes_modify.mpr fun s => .of_same rfl rfl rfl

theorem names_bindHubLandingVerification {git : Git} {input : BindHubLandingVerificationInput}
    (h : input.taskId = task) : (bindHubLandingVerification git input).Makes (Names task) := by
  refine Prog.makes_bind (names_reads _) fun parts => ?_
  refine Prog.makes_bind (names_reads _) fun existing => Prog.makes_bind ?_ fun _ => ?_
  · exact Prog.makes_when (Prog.makes_modify.mpr fun s => .of_same rfl rfl rfl)
  · exact names_appendHubLandingCheckpoint h

theorem names_closeHubLandingTask {git : Git} {input : HubLandingTaskCloseInput}
    {now : Timestamp} (h : input.taskId = task) :
    (closeHubLandingTask git input now).Makes (Names task) := by
  refine Prog.makes_bind ?_ fun _ => Prog.makes_bind ?_ fun _ => ?_
  · refine Prog.makes_when (Prog.makes_bind (names_reads _) fun existing => ?_)
    exact Prog.makes_when (Prog.makes_modify.mpr fun s => .of_same rfl rfl rfl)
  · exact names_appendHubLandingCheckpoint h
  · refine (enqueueHubPublicationAfterShipped_writes git _ _ _ _).mono ?_
    rintro s _ ⟨items, rfl⟩
    exact .of_same rfl rfl rfl

theorem names_adoptSource {git : Git} {call : HubCall} {sourceOid targetOid : Oid} :
    (adoptSource git call task sourceOid targetOid).Makes (Names task) := by
  refine Prog.makes_bind (names_reads _) fun existing => Prog.makes_bind ?_ fun _ => ?_
  · refine Prog.makes_when ?_
    refine Prog.makes_bind (names_appendHubLandingCheckpoint rfl) fun _ => ?_
    refine Prog.makes_bind (names_appendHubLandingCheckpoint rfl) fun _ => ?_
    refine Prog.makes_bind (names_appendHubLandingCheckpoint rfl) fun _ => ?_
    exact names_writeCandidateManifestAndRef rfl
  · refine Prog.makes_bind (names_reads _) fun parts => ?_
    refine Prog.makes_bind (names_bindHubLandingVerification rfl) fun _ => ?_
    refine Prog.makes_bind (names_appendHubLandingCheckpoint rfl) fun _ => ?_
    exact names_closeHubLandingTask rfl

end

/-! ### The highest checkpoint -/

theorem rankOf_maxCheckpoint_le_iff {checkpoints : List (Option HubLandingCheckpoint)} {n : Nat} :
    rankOf (maxCheckpoint checkpoints) ≤ n ↔ ∀ c ∈ checkpoints, rankOf c ≤ n := by
  have hfold : ∀ (l : List (Option HubLandingCheckpoint)) (highest : Option HubLandingCheckpoint),
      rankOf (l.foldl (fun highest next =>
          if rankOf next > rankOf highest then next else highest) highest) ≤ n ↔
        rankOf highest ≤ n ∧ ∀ c ∈ l, rankOf c ≤ n := by
    intro l
    induction l with
    | nil => intro highest; simp
    | cons next l ih =>
      intro highest
      rw [List.foldl_cons, ih, List.forall_mem_cons, ← and_assoc]
      refine and_congr_left fun _ => ?_
      split <;> omega
  unfold maxCheckpoint
  rw [hfold, rankOf_none]
  simp

theorem rankOf_le_evidenceCheckpoint {git : Git} {s : HubWorld}
    {policy : Option HubLandingPolicy} {id : TransactionId}
    {c : Option HubLandingCheckpoint}
    (h : c ∈ [(s.transactionState id).map (·.checkpoint),
      if (s.evidenceCandidateOid id).isSome then some .candidateCreated else none,
      if s.verificationReusable git id then some .candidateVerified else none,
      if s.landedEvidence git policy id then some .targetLanded else none,
      if s.closedEvidence git policy id then some .taskClosed else none,
      if s.cleanedEvidence git policy id then some .cleaned else none]) :
    rankOf c ≤ rankOf (s.evidenceCheckpoint git policy id) :=
  rankOf_maxCheckpoint_le_iff.mp (Nat.le_refl _) c h

theorem rankOf_le_cleaned (c : Option HubLandingCheckpoint) : rankOf c ≤ rankOf (some .cleaned) := by
  cases c with
  | none => exact Nat.zero_le _
  | some c => cases c <;> decide

theorem evidenceCheckpoint_of_cleaned {git : Git} {s : HubWorld}
    {policy : Option HubLandingPolicy} {id : TransactionId}
    (h : s.cleanedEvidence git policy id = true) :
    rankOf (s.evidenceCheckpoint git policy id) = rankOf (some .cleaned) := by
  refine Nat.le_antisymm (rankOf_le_cleaned _) (rankOf_le_evidenceCheckpoint ?_)
  simp [h]

/-! ### The parts of a reconciliation -/

section
variable {git : Git}

theorem returns_revParse_bind {α : Type} {ref : String} {read : HubWorld → Option Oid} {oid : Oid}
    {g : Oid → Hub α} {s : HubWorld} {Q : α → HubWorld → Prop} (h : read s = some oid)
    (hg : (g oid).Returns s Q) : ((revParse ref read).bind g).Returns s Q := by
  obtain ⟨a, t, hrun, hQ⟩ := hg
  refine ⟨a, t, ?_, hQ⟩
  rw [← hrun]
  simp only [revParse, Prog.act_bind, Prog.run_act, id_eq, h, Prog.ret_bind]

theorem returns_ensureHubLandingPolicy {call : HubCall} {hostTargetBranch : String}
    {s : HubWorld} {policy : HubLandingPolicy} (hpolicy : s.policy = some policy)
    (hhead : s.head.isSome) (htarget : s.publishTarget.isSome) :
    (ensureHubLandingPolicy git call hostTargetBranch).Returns s fun p t =>
      p = policy ∧ ∃ fence, t = { s with fence := fence } := by
  obtain ⟨headOid, hhead⟩ := Option.isSome_iff_exists.mp hhead
  obtain ⟨targetOid, htarget⟩ := Option.isSome_iff_exists.mp htarget
  refine Prog.returns_reads_bind.mpr ?_
  rw [hpolicy]
  refine returns_revParse_bind hhead ?_
  refine Prog.returns_modify_bind.mpr (Prog.returns_modify_bind.mpr (Prog.returns_ret ?_))
  have hpin : (s.publishTarget <|> some headOid) = s.publishTarget := by
    rw [htarget]
    rfl
  refine ⟨rfl, s.fence <|> some (git.hashFence ⟨call.uuid, call.pid, none, call.now⟩), ?_⟩
  simp only [hpin, hpolicy]

theorem returns_reconcileTransactions {policy : HubLandingPolicy} {call : HubCall}
    {I : HubWorld → Prop} (ids : List TransactionId) (count : Nat)
    (hpass : ∀ id ∈ ids, ∀ s, I s →
      (reconcileTransaction git policy call id).Returns s fun _ => I) {s : HubWorld} (hs : I s) :
    (reconcileTransactions git policy call ids count).Returns s fun _ => I := by
  induction ids generalizing count s with
  | nil => exact Prog.returns_ret hs
  | cons id ids ih =>
    refine Prog.returns_bind (hpass id List.mem_cons_self s hs) ?_
    intro reconciled t ht
    cases reconciled with
    | incident evidence => exact Prog.returns_ret ht
    | reconstructed written =>
      exact ih _ (fun u hu => hpass u (List.mem_cons_of_mem _ hu)) ht

/-- The records are appended to the journal of the transaction, which is listed then. -/
def Recorded (id : TransactionId) (records : List HubLandingTransactionRecord) (s t : HubWorld) :
    Prop :=
  ∃ ids, (∀ u ∈ s.transactionIds, u ∈ ids) ∧ (records ≠ [] → id ∈ ids) ∧
    t = { s with
      transactionIds := ids
      journal := Function.update s.journal id (s.journal id ++ records) }

theorem Recorded.refl (id : TransactionId) (s : HubWorld) : Recorded id [] s s := by
  refine ⟨s.transactionIds, fun _ h => h, fun h => absurd rfl h, ?_⟩
  rw [List.append_nil, Function.update_eq_self]

theorem Recorded.trans {id : TransactionId} {records records' : List HubLandingTransactionRecord}
    {s t u : HubWorld} (h₁ : Recorded id records s t) (h₂ : Recorded id records' t u) :
    Recorded id (records ++ records') s u := by
  obtain ⟨ids, hids, hlisted, rfl⟩ := h₁
  obtain ⟨ids', hids', hlisted', rfl⟩ := h₂
  refine ⟨ids', fun v hv => hids' v (hids v hv), ?_, ?_⟩
  · intro hne
    by_cases hrecords : records = []
    · rw [hrecords, List.nil_append] at hne
      exact hlisted' hne
    · exact hids' id (hlisted hrecords)
  · simp only [Function.update_self, Function.update_idem, List.append_assoc]

theorem returns_appendHubLandingCheckpoint (record : HubLandingTransactionRecord)
    (s : HubWorld) :
    (appendHubLandingCheckpoint record).Returns s fun _ t =>
      Recorded record.transactionId [record] s t := by
  refine Prog.returns_modify_bind.mpr (Prog.returns_modify ?_)
  refine ⟨_, fun u hu => HubWorld.mem_withTransaction.mpr (Or.inl hu), fun _ => ?_, rfl⟩
  exact HubWorld.mem_withTransaction.mpr (Or.inr rfl)

theorem returns_appendRecords {id : TransactionId} (records : List HubLandingTransactionRecord)
    (h : ∀ r ∈ records, r.transactionId = id) (s : HubWorld) :
    (appendRecords records).Returns s fun _ t => Recorded id records s t := by
  induction records generalizing s with
  | nil => exact Prog.returns_ret (.refl id s)
  | cons record records ih =>
    refine Prog.returns_bind (returns_appendHubLandingCheckpoint record s) fun _ t ht => ?_
    rw [h record List.mem_cons_self] at ht
    refine Prog.returns_mono (ih (fun r hr => h r (List.mem_cons_of_mem _ hr)) t) ?_
    intro _ u hu
    exact ht.trans hu

/-- The records that a pass on the transaction reconstructs. -/
def HubWorld.plannedRecords (git : Git) (s : HubWorld) (policy : HubLandingPolicy)
    (id : TransactionId) : List HubLandingTransactionRecord :=
  let evidence := s.collectEvidence git (some policy) id
  match evidence.taskId with
  | some task =>
    (checkpointWrites evidence (s.transactionState id)).map (reconstructedRecord evidence task)
  | none => []

/-- A planned record belongs to the transaction, and names the task and the candidate of its
evidence. -/
theorem mem_plannedRecords {s : HubWorld} {policy : HubLandingPolicy} {id : TransactionId}
    {r : HubLandingTransactionRecord} (h : r ∈ s.plannedRecords git policy id) :
    r.transactionId = id ∧ s.evidenceTaskId id = some r.taskId ∧
      r.candidateOid = s.evidenceCandidateOid id := by
  unfold HubWorld.plannedRecords at h
  dsimp only at h
  split at h
  · rename_i task htask
    obtain ⟨checkpoint, -, rfl⟩ := List.mem_map.mp h
    exact ⟨rfl, htask, rfl⟩
  · cases h

theorem returns_reconstructCheckpoints {evidence : HubLandingTransactionEvidence}
    (h : evidence.integrityIncident = none) (journal : Option HubLandingTransactionState)
    (s : HubWorld) :
    (reconstructCheckpoints evidence journal).Returns s fun _ t =>
      Recorded evidence.transactionId
        (match evidence.taskId with
        | some task => (checkpointWrites evidence journal).map (reconstructedRecord evidence task)
        | none => []) s t := by
  unfold reconstructCheckpoints
  rw [h]
  cases evidence.taskId with
  | none => exact Prog.returns_ret (.refl _ s)
  | some task =>
    cases hcheckpoint : evidence.evidenceCheckpoint with
    | none =>
      -- Without a proven checkpoint there is nothing to write.
      have hwrites : checkpointWrites evidence journal = [] := by
        simp [checkpointWrites, hcheckpoint]
      dsimp only
      rw [hwrites]
      exact Prog.returns_ret (.refl _ s)
    | some checkpoint =>
      refine Prog.returns_bind (returns_appendRecords _ ?_ s) fun _ t ht => Prog.returns_ret ht
      intro r hr
      obtain ⟨checkpoint, -, rfl⟩ := List.mem_map.mp hr
      rfl

/-- A pass on a transaction: nothing at an incident, else the planned records and what finishes
the transaction. -/
theorem returns_reconcileTransaction {policy : HubLandingPolicy} {call : HubCall}
    {id : TransactionId} {s : HubWorld} {Q : HubWorld → Prop}
    (hincident : (s.integrityIncident git (some policy) id).isSome → Q s)
    (hpass : s.integrityIncident git (some policy) id = none →
      ∀ t, Recorded id (s.plannedRecords git policy id) s t →
        (finishTransaction git policy call (s.collectEvidence git (some policy) id)).Returns t
          fun _ => Q) :
    (reconcileTransaction git policy call id).Returns s fun _ => Q := by
  refine Prog.returns_reads_bind.mpr ?_
  split
  · rename_i h
    exact Prog.returns_ret (hincident h)
  · rename_i h
    have hnone : s.integrityIncident git (some policy) id = none := by
      simpa [HubWorld.collectEvidence] using h
    refine Prog.returns_reads_bind.mpr ?_
    refine Prog.returns_bind (returns_reconstructCheckpoints hnone _ s) fun _ t ht => ?_
    exact Prog.returns_bind (hpass hnone t ht) fun _ u hu => Prog.returns_ret hu

theorem Recorded.names {id : TransactionId} {task : TaskId}
    {records : List HubLandingTransactionRecord} {s t : HubWorld}
    (h : Recorded id records s t) (htask : ∀ r ∈ records, r.taskId = task) : Names task s t := by
  obtain ⟨ids, -, -, rfl⟩ := h
  intro v
  by_cases hv : v = id
  · subst hv
    cases hold : s.journal v with
    | cons first rest =>
      refine Or.inl ?_
      have hfirst : (s.journal v).head? = some first := by rw [hold, List.head?_cons]
      rw [evidenceTaskId_of_journal hfirst]
      refine evidenceTaskId_of_journal ?_
      simp only [Function.update_self, List.cons_append, List.head?_cons]
    | nil =>
      cases records with
      | nil =>
        refine Or.inl (evidenceTaskId_congr ?_ rfl rfl)
        simp only [Function.update_self, List.append_nil, hold]
      | cons record records =>
        refine Or.inr ?_
        rw [← htask record List.mem_cons_self]
        refine evidenceTaskId_of_journal ?_
        simp only [Function.update_self, List.nil_append, List.head?_cons]
  · refine Or.inl (evidenceTaskId_congr ?_ rfl rfl)
    exact Function.update_of_ne hv _ _

theorem Recorded.move {id : TransactionId} {task : TaskId}
    {records : List HubLandingTransactionRecord} {s t : HubWorld} (h : Recorded id records s t) :
    TransactionMove id task s t := by
  obtain ⟨ids, hids, -, rfl⟩ := h
  refine ⟨?_, hids, [], by simp, fun _ h => nomatch h⟩
  simp only [HubWorld.without, Function.update_idem]

theorem names_finishTransaction {policy : HubLandingPolicy} {call : HubCall} {task : TaskId}
    {evidence : HubLandingTransactionEvidence}
    (htask : ∀ k, evidence.taskId = some k → k = task) :
    (finishTransaction git policy call evidence).Makes (Names task) := by
  unfold finishTransaction toCandidate
  split
  · exact Prog.makes_ret _
  · rename_i candidate hcandidate
    split at hcandidate
    · rename_i k oid hk hoid
      obtain rfl := Option.some.inj hcandidate
      refine Prog.makes_bind ?_ fun _ => Prog.makes_bind ?_ fun _ => ?_
      · unfold closeLanded
        split
        · exact names_closeHubLandingTask (htask k hk)
        · exact Prog.makes_ret _
      · unfold cleanupFinished
        split
        · refine Prog.makes_bind (names_reads _) fun present => Prog.makes_bind ?_ fun _ => ?_
          · exact Prog.makes_when (Prog.makes_modify.mpr fun s => .of_same rfl rfl rfl)
          · exact names_appendHubLandingCheckpoint (htask k hk)
        · exact Prog.makes_ret _
      · unfold projectLanded
        split
        · refine Prog.makes_bind ?_ fun _ => Prog.makes_bind ?_ fun _ => Prog.makes_ret _
          · refine (enqueueHubCheckoutProjection_writes _ _ _ _).mono ?_
            rintro s _ ⟨items, rfl⟩
            exact .of_same rfl rfl rfl
          · refine (enqueueHubPublication_writes git policy _ _ _ _).mono ?_
            rintro s _ ⟨items, rfl⟩
            exact .of_same rfl rfl rfl
        · exact Prog.makes_ret _
    · cases hcandidate

theorem finishTransaction_idle {policy : HubLandingPolicy} {call : HubCall}
    {evidence : HubLandingTransactionEvidence} (hlanded : evidence.landed = false)
    (hworktree : evidence.worktreePresent = false) :
    finishTransaction git policy call evidence = .ret () := by
  unfold finishTransaction
  split
  · rfl
  · simp [closeLanded, cleanupFinished, projectLanded, hlanded, hworktree]

/-- A pass moves one transaction and names no other task: with the task of its evidence, or
with any task when it has none. -/
theorem returns_reconcileTransaction_move {policy : HubLandingPolicy} {call : HubCall}
    {id : TransactionId} (task : TaskId) {s : HubWorld}
    (htask : ∀ k, s.evidenceTaskId id = some k → k = task) :
    (reconcileTransaction git policy call id).Returns s fun _ t =>
      TransactionMove id task s t ∧ Names task s t := by
  refine returns_reconcileTransaction (fun _ => ⟨.refl _ _ s, .refl _ s⟩) fun _ t ht => ?_
  have hnames : Names task s t :=
    ht.names fun r hr => htask _ (mem_plannedRecords hr).2.1
  have hmove : (finishTransaction git policy call
      (s.collectEvidence git (some policy) id)).Makes (TransactionMove id task) :=
    move_finishTransaction rfl htask
  have hfinish : (finishTransaction git policy call
      (s.collectEvidence git (some policy) id)).Makes (Names task) :=
    names_finishTransaction htask
  refine Prog.returns_mono ((hmove.and hfinish).returns
    (fun u => ⟨.refl _ _ u, .refl _ u⟩) ?_ t) ?_
  · rintro u v w ⟨h₁, h₂⟩ ⟨h₃, h₄⟩
    exact ⟨h₁.trans h₃, h₂.trans h₄⟩
  · rintro _ u ⟨h₁, h₂⟩
    exact ⟨ht.move.trans h₁, hnames.trans h₂⟩

/-! ### The tasks that are adopted -/

theorem mem_taskIdsFromTransactions {s : HubWorld} {policy : Option HubLandingPolicy}
    {task : TaskId} :
    task ∈ taskIdsFromTransactions (s.collectAllEvidence git policy) ↔
      ∃ u ∈ s.transactionIds, s.evidenceTaskId u = some task := by
  simp only [taskIdsFromTransactions, HubWorld.collectAllEvidence, List.mem_filterMap,
    List.mem_map, HubWorld.listHubLandingTransactionIds, List.mem_insertionSort]
  constructor
  · rintro ⟨_, ⟨u, hu, rfl⟩, h⟩
    exact ⟨u, hu, h⟩
  · rintro ⟨u, hu, h⟩
    exact ⟨_, ⟨u, hu, rfl⟩, h⟩

theorem classifyTask_taskId {s : HubWorld} {task : HubLegacyLandingTask}
    {events : List HubTaskEvent} {targetOids : List Oid} {entry : HubLegacyLandingEvidence}
    (h : s.classifyTask git task events targetOids = some entry) : entry.taskId = task.id := by
  unfold HubWorld.classifyTask at h
  dsimp only at h
  split at h
  · split at h
    · cases h
      rfl
    · cases h
  · obtain ⟨event, -, rfl⟩ := Option.map_eq_some_iff.mp h
    unfold HubWorld.classifyMergedTask
    dsimp only
    split
    · rfl
    · rfl
    · split
      · rfl
      · split <;> rfl

theorem mem_classifyHubLegacyLandingHistory {s : HubWorld} {tasks : List HubLegacyLandingTask}
    {events : List HubTaskEvent} {policy : Option HubLandingPolicy} {existing : List TaskId}
    {entry : HubLegacyLandingEvidence} :
    entry ∈ s.classifyHubLegacyLandingHistory git tasks events policy existing ↔
      ∃ task ∈ tasks, task.id = entry.taskId ∧ task.id ∉ existing ∧
        s.classifyTask git task events (s.resolveTargetOids policy) = some entry := by
  simp only [HubWorld.classifyHubLegacyLandingHistory, List.mem_filterMap]
  constructor
  · rintro ⟨task, htask, h⟩
    split at h
    · cases h
    · rename_i hnew
      exact ⟨task, htask, (classifyTask_taskId h).symm, hnew, h⟩
  · rintro ⟨task, htask, -, hnew, h⟩
    exact ⟨task, htask, by rw [if_neg hnew, h]⟩

end

end ArchLoop
