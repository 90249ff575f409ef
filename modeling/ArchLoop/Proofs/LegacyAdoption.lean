import ArchLoop.Proofs.Evidence
import ArchLoop.Sample

/-!
# `ArchLoop.Proofs.LegacyAdoption`: crashes while a legacy task is adopted

`adoptContainedTask` writes journal records first, then the manifest, the candidate ref and
the artifact, and last the close. Two facts meet in its crash windows:

- a journal record makes the transaction name the task, so no later reconciliation adopts the
  task again;
- an adopted transaction has no receipt, so no later reconciliation closes its task.

`Started` is the state of the transaction between the first record and the close, and
`returns_reconcile_waits` says that a later reconciliation leaves it there.
`adoptionCrash_recovers_iff` is the result: a later reconciliation finishes the adoption if
and only if the crash came before the first record or after the close.
-/

set_option autoImplicit false

namespace ArchLoop

open ArchLoop.Lib

/-! ### The transaction before and after its first record -/

structure NotStarted (id : TransactionId) (s : HubWorld) : Prop where
  journal : s.journal id = []
  manifest : s.manifest id = none
  candidateRef : s.candidateRef id = none
  receipt : s.receipt id = none
  worktree : s.worktree id = none

/-- The adoption of the source commit for the task has written its first record.

- `journal`, `nonempty`, `listed`: the journal names the task and the source commit.
- `manifest`, `candidateRef`: these name the source commit, if they are there.
- `receipt`, `worktree`: an adoption makes neither. -/
structure Started (id : TransactionId) (task : TaskId) (source : Oid) (s : HubWorld) : Prop where
  journal : JournalOf id task source (s.journal id)
  nonempty : s.journal id ≠ []
  listed : id ∈ s.transactionIds
  manifest : ∀ m, s.manifest id = some m → m.candidateOid = source
  candidateRef : ∀ oid, s.candidateRef id = some oid → oid = source
  receipt : s.receipt id = none
  worktree : s.worktree id = none

/-- Beads records the close for the transaction and the source commit. -/
def Closed (id : TransactionId) (task : TaskId) (source : Oid) (s : HubWorld) : Prop :=
  isMatchingHubLandingBeadsClose (s.tasks task) id (some source) = true

section
variable {id : TransactionId} {task : TaskId} {source : Oid} {s t : HubWorld}

theorem Started.congr (h : Started id task source s) (hjournal : t.journal id = s.journal id)
    (hids : ∀ u ∈ s.transactionIds, u ∈ t.transactionIds)
    (hmanifest : t.manifest id = s.manifest id)
    (hcandidateRef : t.candidateRef id = s.candidateRef id)
    (hreceipt : t.receipt id = s.receipt id) (hworktree : t.worktree id = s.worktree id) :
    Started id task source t where
  journal := by rw [hjournal]; exact h.journal
  nonempty := by rw [hjournal]; exact h.nonempty
  listed := hids id h.listed
  manifest := by rw [hmanifest]; exact h.manifest
  candidateRef := by rw [hcandidateRef]; exact h.candidateRef
  receipt := hreceipt.trans h.receipt
  worktree := hworktree.trans h.worktree

theorem Started.recorded (h : Started id task source s)
    {records : List HubLandingTransactionRecord} (hrecords : JournalOf id task source records)
    (hmove : Recorded id records s t) : Started id task source t := by
  obtain ⟨ids, hids, -, rfl⟩ := hmove
  have hjournal : Function.update s.journal id (s.journal id ++ records) id
      = s.journal id ++ records := Function.update_self ..
  refine { h with journal := ?_, nonempty := ?_, listed := hids id h.listed }
  · dsimp only
    rw [hjournal]
    intro r hr
    rcases List.mem_append.mp hr with hr | hr
    · exact h.journal r hr
    · exact hrecords r hr
  · dsimp only
    rw [hjournal]
    simp [h.nonempty]

end

/-! ### The evidence of an adopted transaction -/

section
variable {git : Git} {id : TransactionId} {task : TaskId} {source : Oid} {s : HubWorld}

theorem Started.evidenceTaskId (h : Started id task source s) :
    s.evidenceTaskId id = some task := by
  obtain ⟨state, hstate, htask, -⟩ := reduce_consistent h.journal h.nonempty
  simp only [HubWorld.evidenceTaskId, HubWorld.transactionState, hstate, Option.map_some, htask]
  rfl

theorem Started.evidenceCandidateOid (h : Started id task source s) :
    s.evidenceCandidateOid id = some source := by
  obtain ⟨state, hstate, -, hoid⟩ := reduce_consistent h.journal h.nonempty
  simp only [HubWorld.evidenceCandidateOid, HubWorld.transactionState, hstate]
  cases href : s.candidateRef id with
  | some oid =>
    rw [h.candidateRef oid href]
    rfl
  | none =>
    cases hmanifest : s.manifest id with
    | some m =>
      rw [Option.map_some, h.manifest m hmanifest]
      rfl
    | none => exact hoid

theorem Started.integrityIncident (h : Started id task source s)
    (policy : Option HubLandingPolicy) : s.integrityIncident git policy id = none := by
  obtain ⟨state, hstate, -, hoid⟩ := reduce_consistent h.journal h.nonempty
  have hmismatch : ∀ name oid, oid = some source →
      candidateOidMismatchIncident name oid (s.candidateRef id) = none := by
    rintro name oid rfl
    cases href : s.candidateRef id with
    | none => rfl
    | some ref => simp [candidateOidMismatchIncident, h.candidateRef ref href]
  have hmanifest : candidateOidMismatchIncident "manifest"
      ((s.manifest id).map (·.candidateOid)) (s.candidateRef id) = none := by
    cases hm : s.manifest id with
    | none => rfl
    | some m => exact hmismatch _ _ (congrArg some (h.manifest m hm))
  simp only [HubWorld.integrityIncident, HubWorld.receiptLostIncident,
    HubWorld.receiptMismatchIncident, h.receipt, HubWorld.transactionState, hstate,
    Option.bind_some, hmismatch _ _ hoid, hmanifest]
  rfl

theorem landedEvidence_of_no_receipt {policy : Option HubLandingPolicy}
    (h : s.receipt id = none) : s.landedEvidence git policy id = false := by
  simp [HubWorld.landedEvidence, h]

theorem Started.not_pending (h : Started id task source s)
    (hbacked : isHubLandingTaskBacked (some task) = true) (hclosed : Closed id task source s)
    (policy : Option HubLandingPolicy) : (s.collectEvidence git policy id).pending = false := by
  have hclosed' : s.closedEvidence git policy id = true := by
    simp only [HubWorld.closedEvidence, HubWorld.closedFromBeads, h.evidenceTaskId,
      h.evidenceCandidateOid, hbacked, Bool.true_and, Bool.or_eq_true]
    exact Or.inl hclosed
  have hcleaned : s.cleanedEvidence git policy id = true := by
    simp [HubWorld.cleanedEvidence, h.worktree, hclosed']
  simp [HubWorld.collectEvidence, isPendingReconciliation, h.integrityIncident, h.worktree,
    landedEvidence_of_no_receipt h.receipt, evidenceCheckpoint_of_cleaned hcleaned]

end

/-! ### The adoption, step by step -/

/-- The step keeps a started adoption, and the close that Beads records for it. -/
def KeepsStarted (id : TransactionId) (task : TaskId) (source : Oid) (s t : HubWorld) : Prop :=
  Started id task source s →
    Started id task source t ∧ (Closed id task source s → Closed id task source t)

section
variable {git : Git} {id : TransactionId} {task : TaskId} {source : Oid}

theorem KeepsStarted.of_congr {s t : HubWorld} (hjournal : t.journal id = s.journal id)
    (hids : ∀ u ∈ s.transactionIds, u ∈ t.transactionIds)
    (hmanifest : t.manifest id = s.manifest id)
    (hcandidateRef : t.candidateRef id = s.candidateRef id)
    (hreceipt : t.receipt id = s.receipt id) (hworktree : t.worktree id = s.worktree id)
    (htasks : t.tasks task = s.tasks task) : KeepsStarted id task source s t := by
  intro h
  refine ⟨h.congr hjournal hids hmanifest hcandidateRef hreceipt hworktree, fun hclosed => ?_⟩
  unfold Closed
  rw [htasks]
  exact hclosed

theorem started_reads {α : Type} (f : HubWorld → α) :
    (Prog.reads f : Hub α).Makes (KeepsStarted id task source) :=
  Prog.makes_reads.mpr fun _ h => ⟨h, fun hclosed => hclosed⟩

theorem started_mkdir (record : HubLandingTransactionRecord) :
    (Prog.modify fun s => { s with
      transactionIds := s.withTransaction record.transactionId } : Hub Unit).Makes
        (KeepsStarted id task source) :=
  Prog.makes_modify.mpr fun _ =>
    .of_congr rfl (fun _ hu => HubWorld.mem_withTransaction.mpr (Or.inl hu)) rfl rfl rfl rfl rfl

theorem started_append {record : HubLandingTransactionRecord} (hid : record.transactionId = id)
    (htask : record.taskId = task) (hoid : record.candidateOid = some source) :
    (appendHubLandingCheckpoint record).Makes (KeepsStarted id task source) := by
  refine Prog.makes_bind (started_mkdir record) fun _ => Prog.makes_modify.mpr fun s h => ?_
  have hone : JournalOf id task source [record] := by
    intro r hr
    rw [List.mem_singleton.mp hr]
    exact ⟨hid, htask, hoid⟩
  refine ⟨h.recorded hone ?_, fun hclosed => hclosed⟩
  refine ⟨s.transactionIds, fun _ hu => hu, fun _ => h.listed, ?_⟩
  simp only [HubWorld.appendRecord, hid]

theorem started_writeCandidateManifestAndRef {manifest : HubLandingCandidateManifest}
    (hid : manifest.transactionId = id) (hoid : manifest.candidateOid = source) :
    (writeCandidateManifestAndRef manifest).Makes (KeepsStarted id task source) := by
  subst hid hoid
  refine Prog.makes_bind ?_ fun _ => ?_
  · refine Prog.makes_modify.mpr fun s h => ⟨{ h with manifest := ?_ }, fun hclosed => hclosed⟩
    intro m hm
    dsimp only at hm
    rw [Function.update_self] at hm
    exact congrArg _ (Option.some.inj hm).symm
  · refine Prog.makes_modify.mpr fun s h => ⟨{ h with candidateRef := ?_, listed := ?_ },
      fun hclosed => hclosed⟩
    · exact HubWorld.mem_withTransaction.mpr (Or.inl h.listed)
    · intro oid hoid
      dsimp only at hoid
      rw [Function.update_self] at hoid
      exact (Option.some.inj hoid).symm

theorem started_bindHubLandingVerification {input : BindHubLandingVerificationInput}
    (hid : input.transactionId = id) (htask : input.taskId = task)
    (hoid : input.candidateOid = source) :
    (bindHubLandingVerification git input).Makes (KeepsStarted id task source) := by
  refine Prog.makes_bind (started_reads _) fun parts => ?_
  refine Prog.makes_bind (started_reads _) fun existing => Prog.makes_bind ?_ fun _ => ?_
  · exact Prog.makes_when (Prog.makes_modify.mpr fun s =>
      .of_congr rfl (fun _ hu => hu) rfl rfl rfl rfl rfl)
  · exact started_append hid htask (congrArg some hoid)

/-- The rules of an adoption alone: in each crash state it has not started, or has. -/
abbrev adoptionRules (id : TransactionId) (task : TaskId) (source : Oid) : Rules HubWorld :=
  .alone (fun t => NotStarted id t ∨ Started id task source t) fun _ _ => True

theorem sat_started {α : Type} {p : Hub α} {s : HubWorld}
    (hp : p.Makes (KeepsStarted id task source)) (hs : Started id task source s) :
    Prog.Sat (adoptionRules id task source) (fun _ => Started id task source) (fun _ _ => False)
      p s :=
  hp.sat_alone (fun _ _ _ hK hP => ⟨trivial, Or.inr (hP hK).1, (hP hK).1⟩) hs

theorem sat_closed {α : Type} {p : Hub α} {s : HubWorld}
    (hp : p.Makes (KeepsStarted id task source))
    (hs : Started id task source s ∧ Closed id task source s) :
    Prog.Sat (adoptionRules id task source)
      (fun _ t => Started id task source t ∧ Closed id task source t) (fun _ _ => False) p s :=
  hp.sat_alone (K := fun t => Started id task source t ∧ Closed id task source t)
    (fun _ _ _ hK hP => ⟨trivial, Or.inr (hP hK.1).1, (hP hK.1).1, (hP hK.1).2 hK.2⟩) hs

theorem sat_firstRecord {record : HubLandingTransactionRecord} {s : HubWorld}
    (hid : record.transactionId = id) (htask : record.taskId = task)
    (hoid : record.candidateOid = some source) (h : NotStarted id s) :
    Prog.Sat (adoptionRules id task source) (fun _ => Started id task source) (fun _ _ => False)
      (appendHubLandingCheckpoint record) s := by
  subst hid
  refine Prog.sat_alone_act.mpr fun _ => ?_
  have hmkdir : NotStarted record.transactionId
      { s with transactionIds := s.withTransaction record.transactionId } := { h with }
  refine ⟨trivial, Or.inl hmkdir, Prog.sat_alone_act.mpr fun _ => ?_⟩
  have hstarted : Started record.transactionId task source (HubWorld.appendRecord
      { s with transactionIds := s.withTransaction record.transactionId } record) := by
    refine {
      journal := ?_, nonempty := ?_, listed := ?_, manifest := ?_, candidateRef := ?_
      receipt := h.receipt, worktree := h.worktree }
    · simp only [HubWorld.appendRecord, Function.update_self, h.journal, List.nil_append]
      intro r hr
      rw [List.mem_singleton.mp hr]
      exact ⟨rfl, htask, hoid⟩
    · simp [HubWorld.appendRecord]
    · exact HubWorld.mem_withTransaction.mpr (Or.inr rfl)
    · intro m hm
      cases h.manifest.symm.trans hm
    · intro oid hoid
      cases h.candidateRef.symm.trans hoid
  exact ⟨trivial, Or.inr hstarted, hstarted⟩

theorem sat_closeTaskOnce {input : HubLandingTaskCloseInput} {s : HubWorld}
    (hid : input.transactionId = id) (htask : input.taskId = task)
    (hoid : input.candidateOid = source) (h : Started id task source s) :
    Prog.Sat (adoptionRules id task source)
      (fun _ t => Started id task source t ∧ Closed id task source t) (fun _ _ => False)
      (closeTaskOnce input) s := by
  subst hid htask hoid
  refine Prog.sat_alone_act.mpr fun hinv => ⟨trivial, hinv, ?_⟩
  refine Prog.sat_when ?_ fun hmatching => ⟨h, by simpa [Closed] using hmatching⟩
  intro _
  refine Prog.sat_alone_act.mpr fun _ => ?_
  have hclose : Started input.transactionId input.taskId input.candidateOid
      { s with
        tasks := Function.update s.tasks input.taskId
          (some {
            closed := true, transactionId := some input.transactionId
            candidateOid := some input.candidateOid })
        trace := s.trace ++ [.taskClose input] } :=
    h.congr rfl (fun _ hu => hu) rfl rfl rfl rfl
  refine ⟨trivial, Or.inr hclose, hclose, ?_⟩
  simp [Closed, isMatchingHubLandingBeadsClose]

/-- The adoption keeps, in each of its crash states, that it has not started or has. It ends
with the close recorded. -/
theorem sat_adoptSource {call : HubCall} {target : Oid} {s : HubWorld}
    (hid : resolveHubLandingTransactionId git task source target = id)
    (hbacked : isHubLandingTaskBacked (some task) = true) (h : NotStarted id s) :
    Prog.Sat (adoptionRules id task source)
      (fun _ t => Started id task source t ∧ Closed id task source t) (fun _ _ => False)
      (adoptSource git call task source target) s := by
  unfold adoptSource
  rw [hid]
  refine Prog.sat_reads_bind.mpr ?_
  rintro s rfl hinv -
  refine ⟨trivial, hinv, ?_⟩
  have hfirst : (s.transactionState id).isNone = true := by
    simp [HubWorld.transactionState, h.journal, reduceHubLandingTransaction]
  refine Prog.sat_bind (Q := fun _ => Started id task source) ?_ fun _ t ht => ?_
  · -- The opening records, the manifest and the ref.
    refine Prog.sat_when (fun _ => ?_) fun hnone => ?_
    · refine Prog.sat_bind (sat_firstRecord rfl rfl rfl h) fun _ t ht => ?_
      refine Prog.sat_bind (sat_started (started_append rfl rfl rfl) ht) fun _ t ht => ?_
      refine Prog.sat_bind (sat_started (started_append rfl rfl rfl) ht) fun _ t ht => ?_
      exact sat_started (started_writeCandidateManifestAndRef rfl rfl) ht
    · rw [hfirst] at hnone
      cases hnone
  · -- The artifact, `target_landed` and the close.
    refine Prog.sat_bind (sat_started (started_reads _) ht) fun parts t ht => ?_
    refine Prog.sat_bind (sat_started (started_bindHubLandingVerification rfl rfl rfl) ht)
      fun _ t ht => ?_
    refine Prog.sat_bind (sat_started (started_append rfl rfl rfl) ht) fun _ t ht => ?_
    rw [closeHubLandingTask, hbacked, Prog.when_true]
    refine Prog.sat_bind (sat_closeTaskOnce rfl rfl rfl ht) fun _ t ht => ?_
    refine Prog.sat_bind (sat_closed (started_append rfl rfl rfl) ht) fun _ t ht => ?_
    refine sat_closed ?_ ht
    refine (enqueueHubPublicationAfterShipped_writes git _ _ _ _).mono ?_
    rintro s _ ⟨items, rfl⟩
    exact .of_congr rfl (fun _ hu => hu) rfl rfl rfl rfl rfl

end

/-! ### What the rest of a reconciliation leaves alone -/

def NamedOnlyBy (id : TransactionId) (task : TaskId) (s : HubWorld) : Prop :=
  ∀ u, u ≠ id → s.evidenceTaskId u ≠ some task

/-- The policy, the publish target and `HEAD` are there. -/
structure Pinned (policy : HubLandingPolicy) (s : HubWorld) : Prop where
  policy : s.policy = some policy
  head : s.head.isSome
  publishTarget : s.publishTarget.isSome

/-- What concerns the transaction and the task is the same, and so is what a classification
reads. -/
structure Elsewhere (id : TransactionId) (task : TaskId) (s t : HubWorld) : Prop where
  journal : t.journal id = s.journal id
  ids : ∀ u ∈ s.transactionIds, u ∈ t.transactionIds
  manifest : t.manifest id = s.manifest id
  candidateRef : t.candidateRef id = s.candidateRef id
  receipt : t.receipt id = s.receipt id
  worktree : t.worktree id = s.worktree id
  tasks : t.tasks task = s.tasks task
  named : NamedOnlyBy id task s → NamedOnlyBy id task t
  pinned : ∀ policy, Pinned policy s → Pinned policy t

namespace Elsewhere

variable {id : TransactionId} {task : TaskId} {source : Oid} {s t u : HubWorld}

theorem refl (id : TransactionId) (task : TaskId) (s : HubWorld) : Elsewhere id task s s :=
  ⟨rfl, fun _ h => h, rfl, rfl, rfl, rfl, rfl, fun h => h, fun _ h => h⟩

theorem trans (h₁ : Elsewhere id task s t) (h₂ : Elsewhere id task t u) :
    Elsewhere id task s u where
  journal := h₂.journal.trans h₁.journal
  ids v hv := h₂.ids v (h₁.ids v hv)
  manifest := h₂.manifest.trans h₁.manifest
  candidateRef := h₂.candidateRef.trans h₁.candidateRef
  receipt := h₂.receipt.trans h₁.receipt
  worktree := h₂.worktree.trans h₁.worktree
  tasks := h₂.tasks.trans h₁.tasks
  named h := h₂.named (h₁.named h)
  pinned policy h := h₂.pinned policy (h₁.pinned policy h)

theorem of_move {v : TransactionId} {k : TaskId} (hv : id ≠ v) (hk : task ≠ k)
    (hmove : TransactionMove v k s t) (hnames : Names k s t) : Elsewhere id task s t where
  journal := hmove.journal hv
  ids := hmove.ids
  manifest := hmove.manifest hv
  candidateRef := hmove.candidateRef hv
  receipt := congrFun hmove.receipt id
  worktree := hmove.worktree hv
  tasks := hmove.tasks hk
  named h w hw := by
    rcases hnames w with heq | heq
    · rw [heq]
      exact h w hw
    · rw [heq]
      exact fun h => hk (Option.some.inj h).symm
  pinned policy h := ⟨hmove.policy.trans h.policy, by rw [hmove.head]; exact h.head,
    by rw [hmove.publishTarget]; exact h.publishTarget⟩

theorem of_fence (fence : Option Oid) : Elsewhere id task s { s with fence := fence } :=
  ⟨rfl, fun _ h => h, rfl, rfl, rfl, rfl, rfl, fun h => h, fun _ h => ⟨h.1, h.2, h.3⟩⟩

theorem started (h : Elsewhere id task s t) (hs : Started id task source s) :
    Started id task source t :=
  hs.congr h.journal h.ids h.manifest h.candidateRef h.receipt h.worktree

theorem notStarted (h : Elsewhere id task s t) (hs : NotStarted id s) : NotStarted id t :=
  ⟨h.journal.trans hs.journal, h.manifest.trans hs.manifest,
    h.candidateRef.trans hs.candidateRef, h.receipt.trans hs.receipt,
    h.worktree.trans hs.worktree⟩

theorem closed (h : Elsewhere id task s t) : Closed id task source t ↔ Closed id task source s := by
  unfold Closed
  rw [h.tasks]

end Elsewhere

/-- The ids of other tasks of the board are not the transaction's. -/
def IdOf (git : Git) (tasks : List HubLegacyLandingTask) (id : TransactionId) (task : TaskId) :
    Prop :=
  ∀ other ∈ tasks, ∀ source target,
    resolveHubLandingTransactionId git other.id source target = id → other.id = task

section
variable {git : Git} {id : TransactionId} {task : TaskId} {source : Oid} {s : HubWorld}

theorem returns_adoptContainedTask_elsewhere (call : HubCall) {entry : HubLegacyLandingEvidence}
    (htask : entry.taskId ≠ task)
    (hid : ∀ source target, resolveHubLandingTransactionId git entry.taskId source target ≠ id)
    (s : HubWorld) :
    (adoptContainedTask git call entry).Returns s fun _ t => Elsewhere id task s t := by
  unfold adoptContainedTask
  split
  · rename_i source target branch _ _ _
    have hmove : (adoptSource git call entry.taskId source target).Makes (TransactionMove
        (resolveHubLandingTransactionId git entry.taskId source target) entry.taskId) :=
      move_adoptSource rfl
    have hboth := (hmove.and names_adoptSource).mono fun _ _ h =>
      Elsewhere.of_move (hid source target).symm htask.symm h.1 h.2
    refine Prog.returns_bind (hboth.returns (.refl id task) (fun _ _ _ => .trans) s) ?_
    exact fun _ t ht => Prog.returns_ret ht
  · exact Prog.returns_ret (.refl id task s)

theorem returns_adoptClassified_elsewhere (call : HubCall)
    (entries : List HubLegacyLandingEvidence)
    (h : ∀ e ∈ entries, e.taskId ≠ task ∧
      ∀ source target, resolveHubLandingTransactionId git e.taskId source target ≠ id)
    (s : HubWorld) :
    (adoptClassified git call entries).Returns s fun _ t => Elsewhere id task s t := by
  induction entries generalizing s with
  | nil => exact Prog.returns_ret (.refl id task s)
  | cons entry entries ih =>
    have hrest := ih fun e he => h e (List.mem_cons_of_mem _ he)
    obtain ⟨htask, hid⟩ := h entry List.mem_cons_self
    unfold adoptClassified
    split
    · refine Prog.returns_bind (returns_adoptContainedTask_elsewhere call htask hid s) fun _ t ht => ?_
      refine Prog.returns_bind (hrest t) fun _ u hu => Prog.returns_ret (ht.trans hu)
    · exact Prog.returns_bind (hrest s) fun _ u hu => Prog.returns_ret hu

theorem returns_reconcileTransaction_elsewhere {policy : HubLandingPolicy} {call : HubCall}
    {u : TransactionId} (hu : id ≠ u) (hnamed : NamedOnlyBy id task s) :
    (reconcileTransaction git policy call u).Returns s fun _ t => Elsewhere id task s t := by
  obtain ⟨k, hk, htask⟩ : ∃ k, task ≠ k ∧ ∀ k', s.evidenceTaskId u = some k' → k' = k := by
    cases hev : s.evidenceTaskId u with
    | some k =>
      refine ⟨k, ?_, fun k' h => (Option.some.inj h).symm⟩
      rintro rfl
      exact hnamed u hu.symm hev
    | none =>
      by_cases hempty : task = ""
      · exact ⟨"task", by rw [hempty]; decide, fun _ h => nomatch h⟩
      · exact ⟨"", hempty, fun _ h => nomatch h⟩
  refine Prog.returns_mono (returns_reconcileTransaction_move _ htask) ?_
  rintro _ t ⟨hmove, hnames⟩
  exact .of_move hu hk hmove hnames

/-- Reconciliations of one board and event log, one after the other. -/
def reconciledWith (git : Git) (input : HubLandingReconciliationInput) :
    List HubCall → HubWorld → HubWorld
  | [], s => s
  | call :: calls, s =>
    reconciledWith git input calls
      ((reconcileHubLandingTransactions git { input with call := call }).exec s)

/-- The transaction waits for its close, or has it, in a state that reconciliation can work
on. -/
structure Waits (policy : HubLandingPolicy) (id : TransactionId) (task : TaskId) (source : Oid)
    (s : HubWorld) : Prop where
  started : Started id task source s
  named : NamedOnlyBy id task s
  pinned : Pinned policy s

theorem Waits.elsewhere {policy : HubLandingPolicy} {t : HubWorld}
    (h : Waits policy id task source s) (helse : Elsewhere id task s t) :
    Waits policy id task source t :=
  ⟨helse.started h.started, helse.named h.named, helse.pinned policy h.pinned⟩

/-- A pass of the loop on the transaction itself only appends records: there is no receipt, so
the task is not closed. -/
theorem returns_reconcileTransaction_waits {policy : HubLandingPolicy} {call : HubCall}
    (h : Waits policy id task source s) :
    (reconcileTransaction git policy call id).Returns s fun _ t =>
      Waits policy id task source t ∧ t.tasks task = s.tasks task := by
  refine returns_reconcileTransaction (fun _ => ⟨h, rfl⟩) fun _ t ht => ?_
  have hidle : finishTransaction git policy call (s.collectEvidence git (some policy) id)
      = .ret () := by
    refine finishTransaction_idle (landedEvidence_of_no_receipt h.started.receipt) ?_
    simp [HubWorld.collectEvidence, h.started.worktree]
  rw [hidle]
  have hrecords : JournalOf id task source (s.plannedRecords git policy id) := by
    intro r hr
    obtain ⟨hrid, hrtask, hroid⟩ := mem_plannedRecords hr
    rw [h.started.evidenceTaskId] at hrtask
    rw [h.started.evidenceCandidateOid] at hroid
    exact ⟨hrid, (Option.some.inj hrtask).symm, hroid⟩
  have hmove : TransactionMove id task s t := ht.move
  have hstarted : Started id task source t := h.started.recorded hrecords ht
  obtain ⟨ids, -, -, rfl⟩ := ht
  refine Prog.returns_ret ⟨⟨hstarted, ?_, h.pinned.1, h.pinned.2, h.pinned.3⟩, rfl⟩
  intro u hu
  rw [hmove.evidenceTaskId hu]
  exact h.named u hu

theorem returns_reconcileTransactions_waits {policy : HubLandingPolicy} {call : HubCall}
    (ids : List TransactionId) (h : Waits policy id task source s) :
    (reconcileTransactions git policy call ids 0).Returns s fun _ t =>
      Waits policy id task source t ∧ t.tasks task = s.tasks task := by
  refine returns_reconcileTransactions
    (I := fun t => Waits policy id task source t ∧ t.tasks task = s.tasks task) ids 0 ?_ ⟨h, rfl⟩
  rintro u - t ⟨ht, htasks⟩
  by_cases hu : id = u
  · subst hu
    refine Prog.returns_mono (returns_reconcileTransaction_waits ht) ?_
    rintro _ w ⟨hw, hw'⟩
    exact ⟨hw, hw'.trans htasks⟩
  · refine Prog.returns_mono (returns_reconcileTransaction_elsewhere hu ht.named) ?_
    intro _ w hw
    exact ⟨ht.elsewhere hw, hw.tasks.trans htasks⟩

theorem classified_elsewhere {policy : HubLandingPolicy} {input : HubLandingReconciliationInput}
    (hid : IdOf git input.tasks id task) (h : Started id task source s) :
    ∀ e ∈ s.classifyHubLegacyLandingHistory git input.tasks input.events (some policy)
        (taskIdsFromTransactions (s.collectAllEvidence git (some policy))),
      e.taskId ≠ task ∧
        ∀ source target, resolveHubLandingTransactionId git e.taskId source target ≠ id := by
  intro e he
  obtain ⟨other, hother, htask, hnew, -⟩ := mem_classifyHubLegacyLandingHistory.mp he
  have hne : e.taskId ≠ task := by
    rintro rfl
    refine hnew (mem_taskIdsFromTransactions.mpr ⟨id, h.listed, ?_⟩)
    rw [h.evidenceTaskId, htask]
  refine ⟨hne, fun source target heq => hne ?_⟩
  rw [← htask]
  exact hid other hother source target (htask.symm ▸ heq)

theorem returns_reconcileListed_waits {policy : HubLandingPolicy}
    {input : HubLandingReconciliationInput} {legacyHistory : List HubLegacyLandingEvidence}
    (h : Waits policy id task source s) :
    (do
      let ids ← Prog.reads fun s => s.listHubLandingTransactionIds
      match ← reconcileTransactions git policy input.call ids 0 with
      | .incident before => return summarize [before] 0 legacyHistory
      | .reconstructed count =>
        let (transactions, legacyAfter) ← inspectHubLandingTransactions git input
        return summarize transactions count
          (if legacyAfter.isEmpty then legacyHistory else legacyAfter) : Hub _).Returns s
      fun _ t => Waits policy id task source t ∧ t.tasks task = s.tasks task := by
  refine Prog.returns_reads_bind.mpr ?_
  refine Prog.returns_bind (returns_reconcileTransactions_waits _ h) ?_
  rintro reconciled u ⟨hu, htasks⟩
  cases reconciled with
  | incident evidence => exact Prog.returns_ret ⟨hu, htasks⟩
  | reconstructed count => exact Prog.returns_reads_bind.mpr (Prog.returns_ret ⟨hu, htasks⟩)

/-- A reconciliation that finds a transaction waiting leaves it waiting, and leaves the close
of its task alone. -/
theorem returns_reconcile_waits {policy : HubLandingPolicy}
    {input : HubLandingReconciliationInput} (hid : IdOf git input.tasks id task)
    (h : Waits policy id task source s) :
    (reconcileHubLandingTransactions git input).Returns s fun _ t =>
      Waits policy id task source t ∧ t.tasks task = s.tasks task := by
  refine Prog.returns_bind
    (returns_ensureHubLandingPolicy h.pinned.policy h.pinned.head h.pinned.publishTarget) ?_
  rintro p _ ⟨rfl, fence, rfl⟩
  have hfence : Waits p id task source { s with fence := fence } :=
    h.elsewhere (.of_fence fence)
  refine Prog.returns_bind (Q := fun _ t => Waits p id task source t ∧
    t.tasks task = s.tasks task) ?_ fun _ t ht => ?_
  · unfold adoptBeforeReconciling
    split
    · exact Prog.returns_ret ⟨hfence, rfl⟩
    · refine Prog.returns_reads_bind.mpr (Prog.returns_reads_bind.mpr ?_)
      refine Prog.returns_mono (returns_adoptClassified_elsewhere _ _
        (classified_elsewhere hid hfence.started) _) ?_
      exact fun _ t ht => ⟨hfence.elsewhere ht, ht.tasks⟩
  · refine Prog.returns_mono (returns_reconcileListed_waits ht.1) ?_
    exact fun _ u hu => ⟨hu.1, hu.2.trans ht.2⟩

theorem reconciledWith_waits {policy : HubLandingPolicy} {input : HubLandingReconciliationInput}
    (hid : IdOf git input.tasks id task) (calls : List HubCall)
    (h : Waits policy id task source s) :
    Waits policy id task source (reconciledWith git input calls s) ∧
      (reconciledWith git input calls s).tasks task = s.tasks task := by
  induction calls generalizing s with
  | nil => exact ⟨h, rfl⟩
  | cons call calls ih =>
    have hone : (reconcileHubLandingTransactions git { input with call := call }).Returns s
        fun _ t => Waits policy id task source t ∧ t.tasks task = s.tasks task :=
      returns_reconcile_waits hid h
    have hwaits := hone.exec
    obtain ⟨hrest, htasks⟩ := ih hwaits.1
    exact ⟨hrest, htasks.trans hwaits.2⟩

end

/-! ### An adoption that has not started -/

section
variable {git : Git} {id : TransactionId} {task : TaskId} {source target : Oid} {s t : HubWorld}

/-- Nothing is stored under the id, and no transaction names the task. -/
structure Fresh (policy : HubLandingPolicy) (id : TransactionId) (task : TaskId)
    (s : HubWorld) : Prop where
  notStarted : NotStarted id s
  named : NamedOnlyBy id task s
  pinned : Pinned policy s

theorem Fresh.elsewhere {policy : HubLandingPolicy} (h : Fresh policy id task s)
    (helse : Elsewhere id task s t) : Fresh policy id task t :=
  ⟨helse.notStarted h.notStarted, helse.named h.named, helse.pinned policy h.pinned⟩

/-- An entry for the adoption of the source commit on the target. -/
structure Adopts (entry : HubLegacyLandingEvidence) (task : TaskId) (source target : Oid) :
    Prop where
  decision : entry.decision = .ancestryContained
  taskId : entry.taskId = task
  sourceOid : entry.sourceOid = some source
  targetOid : entry.targetOid = some target
  branch : entry.branch.isSome

theorem adoptContainedTask_of_adopts (git : Git) (call : HubCall)
    {entry : HubLegacyLandingEvidence} (h : Adopts entry task source target) :
    ∃ adopted, adoptContainedTask git call entry
      = (adoptSource git call task source target).bind fun _ => .ret adopted := by
  obtain ⟨branch, hbranch⟩ := Option.isSome_iff_exists.mp h.branch
  unfold adoptContainedTask
  rw [h.sourceOid, h.targetOid, hbranch, h.taskId]
  exact ⟨_, rfl⟩

theorem returns_adoptContainedTask_fresh {policy : HubLandingPolicy} {call : HubCall}
    {entry : HubLegacyLandingEvidence} (hentry : Adopts entry task source target)
    (hid : resolveHubLandingTransactionId git task source target = id)
    (hbacked : isHubLandingTaskBacked (some task) = true) (h : Fresh policy id task s) :
    (adoptContainedTask git call entry).Returns s fun _ t =>
      Waits policy id task source t ∧ Closed id task source t := by
  obtain ⟨adopted, heq⟩ := adoptContainedTask_of_adopts git call hentry
  rw [heq]
  have hmove : (adoptSource git call task source target).Makes (TransactionMove id task) :=
    move_adoptSource hid
  have hreturns : (adoptSource git call task source target).Returns s fun _ t =>
      Started id task source t ∧ Closed id task source t :=
    (sat_adoptSource hid hbacked h.notStarted).returns (Or.inl h.notStarted)
  have hmoved := hmove.returns (.refl id task) (fun _ _ _ => .trans) s
  refine Prog.returns_bind (Prog.returns_and hreturns hmoved) ?_
  rintro _ t ⟨⟨hstarted, hclosed⟩, hst⟩
  refine Prog.returns_ret ⟨⟨hstarted, ?_, ?_⟩, hclosed⟩
  · intro u hu
    rw [hst.evidenceTaskId hu]
    exact h.named u hu
  · refine ⟨hst.policy.trans h.pinned.policy, ?_, ?_⟩
    · rw [hst.head]
      exact h.pinned.head
    · rw [hst.publishTarget]
      exact h.pinned.publishTarget

theorem returns_adoptClassified_fresh {policy : HubLandingPolicy} {call : HubCall}
    (hid : resolveHubLandingTransactionId git task source target = id)
    (hbacked : isHubLandingTaskBacked (some task) = true)
    {entry : HubLegacyLandingEvidence} (hentry : Adopts entry task source target)
    (entries : List HubLegacyLandingEvidence) (hmem : entry ∈ entries)
    (hnodup : (entries.map (·.taskId)).Nodup)
    (hapart : ∀ e ∈ entries, e.taskId ≠ task →
      ∀ source target, resolveHubLandingTransactionId git e.taskId source target ≠ id)
    (h : Fresh policy id task s) :
    (adoptClassified git call entries).Returns s fun _ t =>
      Waits policy id task source t ∧ Closed id task source t := by
  induction entries generalizing s with
  | nil => cases hmem
  | cons first rest ih =>
    rw [List.map_cons, List.nodup_cons] at hnodup
    obtain ⟨hfirst, hnodup⟩ := hnodup
    have hrest : ∀ e ∈ rest, e.taskId ≠ task →
        ∀ source target, resolveHubLandingTransactionId git e.taskId source target ≠ id :=
      fun e he => hapart e (List.mem_cons_of_mem _ he)
    by_cases htask : first.taskId = task
    · -- The entry is the first one, and the others are of other tasks.
      have hothers : ∀ e ∈ rest, e.taskId ≠ task := by
        intro e he heq
        exact hfirst (htask.trans heq.symm ▸ List.mem_map_of_mem he)
      obtain rfl : entry = first := by
        rcases List.mem_cons.mp hmem with heq | hin
        · exact heq
        · exact absurd hentry.taskId (hothers entry hin)
      rw [adoptClassified, if_pos hentry.decision]
      refine Prog.returns_bind (returns_adoptContainedTask_fresh hentry hid hbacked h) ?_
      rintro _ t ⟨hwaits, hclosed⟩
      have helse := returns_adoptClassified_elsewhere call rest
        (fun e he => ⟨hothers e he, hrest e he (hothers e he)⟩) t
      refine Prog.returns_bind helse fun _ u hu => Prog.returns_ret ?_
      exact ⟨hwaits.elsewhere hu, hu.closed.mpr hclosed⟩
    · -- The first entry is of another task.
      have hin : entry ∈ rest := by
        rcases List.mem_cons.mp hmem with heq | hin
        · exact absurd (heq ▸ hentry.taskId) htask
        · exact hin
      have hone := returns_adoptContainedTask_elsewhere call htask
        (hapart first List.mem_cons_self htask) s
      unfold adoptClassified
      split
      · refine Prog.returns_bind hone fun _ t ht => ?_
        refine Prog.returns_bind (ih hin hnodup hrest (h.elsewhere ht)) ?_
        exact fun _ u hu => Prog.returns_ret hu
      · refine Prog.returns_bind (ih hin hnodup hrest h) ?_
        exact fun _ u hu => Prog.returns_ret hu

end

/-! ### What is classified -/

section
variable {git : Git} {s t : HubWorld}

theorem classifyHubLegacyLandingHistory_congr (hbranches : t.branches = s.branches)
    (hpublishTarget : t.publishTarget = s.publishTarget) (hhead : t.head = s.head)
    (hobjects : t.hasObject = s.hasObject) (tasks : List HubLegacyLandingTask)
    (events : List HubTaskEvent) (policy : Option HubLandingPolicy) (existing : List TaskId) :
    t.classifyHubLegacyLandingHistory git tasks events policy existing
      = s.classifyHubLegacyLandingHistory git tasks events policy existing := by
  have htargets : t.resolveTargetOids policy = s.resolveTargetOids policy := by
    simp only [HubWorld.resolveTargetOids, hbranches, hpublishTarget, hhead]
  have hancestor : ∀ a b, t.mergeBaseIsAncestor git a b = s.mergeBaseIsAncestor git a b := by
    intro a b
    simp only [HubWorld.mergeBaseIsAncestor, hobjects]
  simp only [HubWorld.classifyHubLegacyLandingHistory, HubWorld.classifyTask,
    HubWorld.classifyMergedTask, htargets, hbranches, hancestor]

theorem classifyTask_contained {task : HubLegacyLandingTask} {events : List HubTaskEvent}
    {targetOids : List Oid} {entry : HubLegacyLandingEvidence}
    (h : s.classifyTask git task events targetOids = some entry)
    (hdecision : entry.decision = .ancestryContained) :
    ∃ source target, Adopts entry task.id source target := by
  unfold HubWorld.classifyTask at h
  dsimp only at h
  split at h
  · split at h
    · cases h
      cases hdecision
    · cases h
  · obtain ⟨event, -, rfl⟩ := Option.map_eq_some_iff.mp h
    revert hdecision
    unfold HubWorld.classifyMergedTask
    dsimp only
    split
    · exact fun h => nomatch h
    · exact fun h => nomatch h
    · split
      · exact fun _ => ⟨_, _, rfl, rfl, rfl, rfl, rfl⟩
      · split <;> exact fun h => nomatch h

theorem classified_nodup {tasks : List HubLegacyLandingTask} {events : List HubTaskEvent}
    {policy : Option HubLandingPolicy} {existing : List TaskId}
    (h : (tasks.map (·.id)).Nodup) :
    ((s.classifyHubLegacyLandingHistory git tasks events policy existing).map
      (·.taskId)).Nodup := by
  have hsub : List.Sublist ((s.classifyHubLegacyLandingHistory git tasks events policy
      existing).map (·.taskId)) (tasks.map (·.id)) := by
    unfold HubWorld.classifyHubLegacyLandingHistory
    dsimp only
    clear h
    induction tasks with
    | nil => simp
    | cons task tasks ih =>
      rw [List.filterMap_cons]
      split
      · exact ih.cons _
      · rename_i entry hentry
        have htask : entry.taskId = task.id := by
          split at hentry
          · cases hentry
          · exact classifyTask_taskId hentry
        rw [List.map_cons, List.map_cons, htask]
        exact ih.cons_cons _
  exact h.sublist hsub

end

/-! ### The result -/

/-- The state of a hub whose reconciliation adopts legacy tasks.

- `pinned`: the reconciliation has its policy, its target and `HEAD`.
- `nodup`, `backed`: the ids of the board are distinct Beads tasks.
- `listed`, `bare`: what is stored for a transaction is under its directory, and begins with
  its journal.
- `owner`, `apart`: the hashes in transaction ids tell the tasks of the board apart. -/
structure AdoptionSetting (git : Git) (tasks : List HubLegacyLandingTask)
    (policy : HubLandingPolicy) (s : HubWorld) : Prop where
  pinned : Pinned policy s
  nodup : (tasks.map (·.id)).Nodup
  backed : ∀ task ∈ tasks, isHubLandingTaskBacked (some task.id) = true
  listed : ∀ u, u ∉ s.transactionIds → s.evidenceTaskId u = none
  bare : ∀ u, s.evidenceTaskId u = none → s.candidateRef u = none ∧ s.worktree u = none
  owner : ∀ task ∈ tasks, ∀ source target k,
    s.evidenceTaskId (resolveHubLandingTransactionId git task.id source target) = some k →
      k = task.id
  apart : ∀ a ∈ tasks, ∀ b ∈ tasks, ∀ source target source' target',
    resolveHubLandingTransactionId git a.id source target
      = resolveHubLandingTransactionId git b.id source' target' → a.id = b.id

/-- The entries that a reconciliation of the state adopts or reports. -/
def HubWorld.legacyEntries (git : Git) (s : HubWorld) (input : HubLegacyLandingInput)
    (policy : HubLandingPolicy) : List HubLegacyLandingEvidence :=
  s.classifyHubLegacyLandingHistory git input.tasks input.events (some policy)
    (taskIdsFromTransactions (s.collectAllEvidence git (some policy)))

/-- The task is closed with the metadata of the transaction, which is not pending. -/
def Recovered (git : Git) (id : TransactionId) (task : TaskId) (source : Oid)
    (s : HubWorld) : Prop :=
  Closed id task source s ∧ (s.collectEvidence git s.policy id).pending = false

section
variable {git : Git} {id : TransactionId} {task : TaskId} {source target : Oid} {s t : HubWorld}
  {policy : HubLandingPolicy} {input : HubLandingReconciliationInput}
  {entry : HubLegacyLandingEvidence}

theorem Waits.recovered_iff (h : Waits policy id task source s)
    (hbacked : isHubLandingTaskBacked (some task) = true) :
    Recovered git id task source s ↔ Closed id task source s := by
  refine ⟨And.left, fun hclosed => ⟨hclosed, ?_⟩⟩
  exact h.started.not_pending hbacked hclosed _

theorem AdoptionSetting.fresh (h : AdoptionSetting git input.tasks policy s)
    (hentry : entry ∈ s.legacyEntries git input.toHubLegacyLandingInput policy)
    (htask : entry.taskId = task)
    (hid : resolveHubLandingTransactionId git task source target = id) :
    Fresh policy id task s := by
  obtain ⟨board, hboard, hboardId, hnew, -⟩ := mem_classifyHubLegacyLandingHistory.mp hentry
  rw [hboardId, htask] at hnew
  have hnone : ∀ u, s.evidenceTaskId u ≠ some task := by
    intro u hu
    by_cases hlisted : u ∈ s.transactionIds
    · exact hnew (mem_taskIdsFromTransactions.mpr ⟨u, hlisted, hu⟩)
    · rw [h.listed u hlisted] at hu
      cases hu
  have hfree : s.evidenceTaskId id = none := by
    cases hev : s.evidenceTaskId id with
    | none => rfl
    | some k =>
      rw [← hid, ← htask, ← hboardId] at hev
      have hk := h.owner board hboard source target k hev
      rw [hk, hboardId, htask, hid] at hev
      exact absurd hev (hnone id)
  obtain ⟨hjournal, hmanifest, hreceipt⟩ := evidenceTaskId_eq_none.mp hfree
  obtain ⟨hcandidateRef, hworktree⟩ := h.bare id hfree
  exact ⟨⟨hjournal, hmanifest, hcandidateRef, hreceipt, hworktree⟩, fun u _ => hnone u, h.pinned⟩

/-- A reconciliation that finds the transaction fresh, and its task in the classification,
adopts the task. -/
theorem returns_reconcile_fresh (hnodup : (input.tasks.map (·.id)).Nodup)
    (hidOf : IdOf git input.tasks id task)
    (hid : resolveHubLandingTransactionId git task source target = id)
    (hbacked : isHubLandingTaskBacked (some task) = true)
    (hentry : Adopts entry task source target)
    (hmem : entry ∈ s.legacyEntries git input.toHubLegacyLandingInput policy)
    (h : Fresh policy id task s) :
    (reconcileHubLandingTransactions git input).Returns s fun _ t =>
      Waits policy id task source t ∧ Closed id task source t := by
  refine Prog.returns_bind
    (returns_ensureHubLandingPolicy h.pinned.policy h.pinned.head h.pinned.publishTarget) ?_
  rintro p _ ⟨rfl, fence, rfl⟩
  have hboard : input.tasks.isEmpty = false := by
    obtain ⟨board, hin, -⟩ := mem_classifyHubLegacyLandingHistory.mp hmem
    cases htasks : input.tasks with
    | nil =>
      rw [htasks] at hin
      cases hin
    | cons first rest => rfl
  have hfence : Fresh p id task { s with fence := fence } := h.elsewhere (.of_fence fence)
  refine Prog.returns_bind (Q := fun _ t => Waits p id task source t ∧ Closed id task source t)
    ?_ fun _ t ht => ?_
  · rw [adoptBeforeReconciling, hboard]
    refine Prog.returns_reads_bind.mpr (Prog.returns_reads_bind.mpr ?_)
    refine returns_adoptClassified_fresh hid hbacked hentry _ hmem (classified_nodup hnodup) ?_
      hfence
    intro e he hne source' target' heq
    obtain ⟨board, hin, hboardId, -⟩ := mem_classifyHubLegacyLandingHistory.mp he
    rw [← hboardId] at heq hne
    exact hne (hidOf board hin source' target' heq)
  · refine Prog.returns_mono (returns_reconcileListed_waits ht.1) ?_
    rintro _ u ⟨hwaits, htasks⟩
    refine ⟨hwaits, ?_⟩
    unfold Closed
    rw [htasks]
    exact ht.2

theorem legacyEntries_move (hmove : TransactionMove id task s t)
    (hfresh : NamedOnlyBy id task s) (hnotStarted : NotStarted id t)
    (htask : entry.taskId = task)
    (hmem : entry ∈ s.legacyEntries git input.toHubLegacyLandingInput policy) :
    entry ∈ t.legacyEntries git input.toHubLegacyLandingInput policy := by
  unfold HubWorld.legacyEntries at hmem ⊢
  rw [classifyHubLegacyLandingHistory_congr hmove.branches hmove.publishTarget hmove.head
    hmove.hasObject]
  obtain ⟨board, hboard, hboardId, -, hclassified⟩ :=
    mem_classifyHubLegacyLandingHistory.mp hmem
  refine mem_classifyHubLegacyLandingHistory.mpr ⟨board, hboard, hboardId, ?_, hclassified⟩
  rw [hboardId, htask]
  intro hin
  obtain ⟨u, -, hu⟩ := mem_taskIdsFromTransactions.mp hin
  by_cases hne : u = id
  · rw [hne, evidenceTaskId_eq_none.mpr
      ⟨hnotStarted.journal, hnotStarted.manifest, hnotStarted.receipt⟩] at hu
    cases hu
  · rw [hmove.evidenceTaskId hne] at hu
    exact hfresh u hne hu

theorem adoptionCrash_state (call : HubCall) (hentry : Adopts entry task source target)
    (hid : resolveHubLandingTransactionId git task source target = id)
    (hbacked : isHubLandingTaskBacked (some task) = true) (h : NotStarted id s) (n : Nat) :
    TransactionMove id task s ((adoptContainedTask git call entry).crashAfter n s) ∧
      (NotStarted id ((adoptContainedTask git call entry).crashAfter n s) ∨
        Started id task source ((adoptContainedTask git call entry).crashAfter n s)) := by
  obtain ⟨adopted, heq⟩ := adoptContainedTask_of_adopts git call hentry
  rw [heq]
  have hmakes : ((adoptSource git call task source target).bind fun _ =>
      (.ret adopted : Hub _)).Makes (TransactionMove id task) :=
    Prog.makes_bind (move_adoptSource hid) fun _ => Prog.makes_ret adopted
  have hsat : Prog.Sat (adoptionRules id task source) (fun _ _ => True) (fun _ _ => False)
      ((adoptSource git call task source target).bind fun _ => (.ret adopted : Hub _)) s :=
    Prog.sat_bind (sat_adoptSource hid hbacked h) fun _ _ _ => trivial
  exact ⟨hmakes.always.crashAfter (.refl id task) (fun _ _ _ => .trans) n s,
    hsat.crashAfter (Or.inl h) n⟩

theorem Waits.recoveredWith_iff (hidOf : IdOf git input.tasks id task)
    (hbacked : isHubLandingTaskBacked (some task) = true) (calls : List HubCall)
    (h : Waits policy id task source s) :
    Recovered git id task source (reconciledWith git input calls s) ↔
      Closed id task source s := by
  obtain ⟨hlater, htasks⟩ := reconciledWith_waits hidOf calls h
  rw [hlater.recovered_iff hbacked, Closed, htasks]
  rfl

/-- What an entry of the classification says about its task. -/
structure AdoptedEntry (git : Git) (input : HubLegacyLandingInput) (policy : HubLandingPolicy)
    (s : HubWorld) (entry : HubLegacyLandingEvidence) (source target : Oid) : Prop where
  mem : entry ∈ s.legacyEntries git input policy
  decision : entry.decision = .ancestryContained
  sourceOid : entry.sourceOid = some source
  targetOid : entry.targetOid = some target

theorem AdoptedEntry.adopts
    (h : AdoptedEntry git input.toHubLegacyLandingInput policy s entry source target) :
    Adopts entry entry.taskId source target := by
  obtain ⟨_, -, -, -, hclassified⟩ := mem_classifyHubLegacyLandingHistory.mp h.mem
  obtain ⟨_, _, hadopts⟩ := classifyTask_contained hclassified h.decision
  exact ⟨h.decision, rfl, h.sourceOid, h.targetOid, hadopts.branch⟩

theorem AdoptionSetting.board (h : AdoptionSetting git input.tasks policy s)
    (hentry : entry ∈ s.legacyEntries git input.toHubLegacyLandingInput policy) :
    isHubLandingTaskBacked (some entry.taskId) = true ∧
      ∀ source target, IdOf git input.tasks
        (resolveHubLandingTransactionId git entry.taskId source target) entry.taskId := by
  obtain ⟨board, hboard, hboardId, -⟩ := mem_classifyHubLegacyLandingHistory.mp hentry
  rw [← hboardId]
  refine ⟨h.backed board hboard, fun source target other hother source' target' heq => ?_⟩
  exact h.apart other hother board hboard _ _ _ _ heq

/-- The state that a crash leaves: the transaction is still fresh and its task classified, or
it waits for its close. -/
theorem adoptionCrash_fresh_or_waits (call : HubCall)
    (h : AdoptionSetting git input.tasks policy s)
    (hentry : AdoptedEntry git input.toHubLegacyLandingInput policy s entry source target)
    (hid : resolveHubLandingTransactionId git entry.taskId source target = id) (n : Nat) :
    (Fresh policy id entry.taskId ((adoptContainedTask git call entry).crashAfter n s) ∧
      entry ∈ ((adoptContainedTask git call entry).crashAfter n s).legacyEntries git
        input.toHubLegacyLandingInput policy) ∨
    Waits policy id entry.taskId source ((adoptContainedTask git call entry).crashAfter n s) := by
  have hfresh : Fresh policy id entry.taskId s := h.fresh hentry.mem rfl hid
  obtain ⟨hmove, hcrash⟩ := adoptionCrash_state call hentry.adopts hid (h.board hentry.mem).1
    hfresh.notStarted n
  have hnamed : NamedOnlyBy id entry.taskId
      ((adoptContainedTask git call entry).crashAfter n s) := by
    intro u hu
    rw [hmove.evidenceTaskId hu]
    exact hfresh.named u hu
  have hpinned : Pinned policy ((adoptContainedTask git call entry).crashAfter n s) :=
    ⟨hmove.policy.trans h.pinned.policy, hmove.head ▸ h.pinned.head,
      hmove.publishTarget ▸ h.pinned.publishTarget⟩
  rcases hcrash with hnot | hstarted
  · exact Or.inl ⟨⟨hnot, hnamed, hpinned⟩,
      legacyEntries_move hmove hfresh.named hnot rfl hentry.mem⟩
  · exact Or.inr ⟨hstarted, hnamed, hpinned⟩

/-- A legacy adoption that crashes is finished by some later reconciliations if and only if the
crash came before the first record of its journal, or after Beads recorded the close. -/
theorem adoptionCrash_recovers_iff (call : HubCall)
    (h : AdoptionSetting git input.tasks policy s)
    (hentry : AdoptedEntry git input.toHubLegacyLandingInput policy s entry source target)
    (n : Nat) :
    (∃ calls, calls ≠ [] ∧
      Recovered git (resolveHubLandingTransactionId git entry.taskId source target) entry.taskId
        source (reconciledWith git input calls
          ((adoptContainedTask git call entry).crashAfter n s))) ↔
    ((adoptContainedTask git call entry).crashAfter n s).journal
        (resolveHubLandingTransactionId git entry.taskId source target) = [] ∨
      Closed (resolveHubLandingTransactionId git entry.taskId source target) entry.taskId source
        ((adoptContainedTask git call entry).crashAfter n s) := by
  obtain ⟨hbacked, hidOf⟩ := h.board hentry.mem
  have hcrash := adoptionCrash_fresh_or_waits call h hentry rfl n
  generalize (adoptContainedTask git call entry).crashAfter n s = crashed at hcrash ⊢
  specialize hidOf source target
  generalize hid : resolveHubLandingTransactionId git entry.taskId source target = id at *
  rcases hcrash with ⟨hfresh, hmem⟩ | hwaits
  · -- The next reconciliation adopts the task again.
    refine iff_of_true ⟨[call], by simp, ?_⟩ (Or.inl hfresh.notStarted.journal)
    have hreturns : (reconcileHubLandingTransactions git { input with call := call }).Returns
        crashed fun _ t =>
          Waits policy id entry.taskId source t ∧ Closed id entry.taskId source t :=
      returns_reconcile_fresh h.nodup hidOf hid hbacked hentry.adopts hmem hfresh
    have hrecovers := hreturns.exec
    exact (hrecovers.1.recovered_iff hbacked).mpr hrecovers.2
  · -- No reconciliation closes the task.
    constructor
    · rintro ⟨calls, -, hrecovered⟩
      exact Or.inr ((hwaits.recoveredWith_iff hidOf hbacked calls).mp hrecovered)
    · rintro (hjournal | hclosed)
      · exact absurd hjournal hwaits.started.nonempty
      · exact ⟨[call], by simp, (hwaits.recoveredWith_iff hidOf hbacked [call]).mpr hclosed⟩

end

/-! ### A crash after the first record -/

def sampleAdoptionInput : HubLandingReconciliationInput where
  tasks := [{ id := "t", title := "t", hubStatus := .waitingForMerge }]
  events := [⟨.mergeStarted, "t", "branch", 0⟩]

def sampleAdoptionPolicy : HubLandingPolicy where
  hostTargetBranch := "main"
  publishPolicy := .off

def sampleAdoptionWorld : HubWorld where
  head := some "ab"
  branches := fun branch => if branch = "branch" then some "a" else some "ab"
  publishTarget := some "ab"
  fence := some "fence"
  policy := some sampleAdoptionPolicy

def sampleAdoptionEntry : HubLegacyLandingEvidence :=
  let task := "t"
  let source := "a"
  acceptLegacy {
    taskId := task, decision := .ancestryContained, accepted := true
    hadMergeSucceededEvent := false, branch := some "branch"
    sourceOid := some source, targetOid := some "ab"
    message := s!"Accepted historical evidence for {task}: source {source} is contained in the configured target. A mutating run will adopt this into a landing transaction without redoing preserved work." }

theorem sampleAdoptionSetting : AdoptionSetting sampleGit sampleAdoptionInput.tasks
    sampleAdoptionPolicy sampleAdoptionWorld where
  pinned := ⟨rfl, rfl, rfl⟩
  nodup := by decide
  backed := by decide
  listed _ _ := rfl
  bare _ _ := ⟨rfl, rfl⟩
  owner _ _ _ _ _ h := nomatch h
  apart := by
    intro a ha b hb _ _ _ _ _
    rw [sampleAdoptionInput] at ha hb
    rw [List.mem_singleton.mp ha, List.mem_singleton.mp hb]

theorem sampleAdoptedEntry : AdoptedEntry sampleGit sampleAdoptionInput.toHubLegacyLandingInput
    sampleAdoptionPolicy sampleAdoptionWorld sampleAdoptionEntry "a" "ab" :=
  ⟨List.mem_singleton.mpr rfl, rfl, rfl, rfl⟩

/-- A crash before the first record. -/
theorem adoptionCrash_recovers_sample :
    ∃ calls, calls ≠ [] ∧
      Recovered sampleGit (resolveHubLandingTransactionId sampleGit "t" "a" "ab") "t" "a"
        (reconciledWith sampleGit sampleAdoptionInput calls
          ((adoptContainedTask sampleGit {} sampleAdoptionEntry).crashAfter 2
            sampleAdoptionWorld)) :=
  (adoptionCrash_recovers_iff {} sampleAdoptionSetting sampleAdoptedEntry 2).mpr (Or.inl rfl)

/-- A crash after the first record is never made good. -/
theorem adoptionCrash_stuck :
    ¬ ∀ n, ∃ calls, calls ≠ [] ∧
      Recovered sampleGit (resolveHubLandingTransactionId sampleGit "t" "a" "ab") "t" "a"
        (reconciledWith sampleGit sampleAdoptionInput calls
          ((adoptContainedTask sampleGit {} sampleAdoptionEntry).crashAfter n
            sampleAdoptionWorld)) := by
  intro hall
  obtain ⟨calls, -, hrecovered⟩ := hall 3
  obtain ⟨hbacked, hidOf⟩ := sampleAdoptionSetting.board sampleAdoptedEntry.mem
  rcases adoptionCrash_fresh_or_waits {} sampleAdoptionSetting sampleAdoptedEntry rfl 3 with
    ⟨hfresh, -⟩ | hwaits
  · cases hfresh.notStarted.journal
  · cases (hwaits.recoveredWith_iff (hidOf "a" "ab") hbacked calls).mp hrecovered

end ArchLoop
