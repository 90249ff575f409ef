import ArchLoop.Lib.Alone
import ArchLoop.Reconciliation

/-!
# `ArchLoop.Proofs.Frames`: what the functions leave alone

`TransactionMove id task s t` says that `t` differs from `s` only in what belongs to the
transaction `id`, in the close of `task`, and in the outboxes. The functions that
reconciliation calls for a transaction make only such moves, and never throw. So the queue,
the receipts, the refs and all other transactions stay as they were.

`PublicationMove` is the same for the publication functions, which change the outbox, the
remotes and what was fetched from them.
-/

set_option autoImplicit false

namespace ArchLoop

open ArchLoop.Lib

/-- The world with what belongs to the transaction and to the task's close blanked out, and
with it the outboxes, the trace and the list of transactions. -/
def HubWorld.without (s : HubWorld) (id : TransactionId) (task : TaskId) : HubWorld :=
  { s with
    transactionIds := []
    journal := Function.update s.journal id []
    manifest := Function.update s.manifest id none
    candidateRef := Function.update s.candidateRef id none
    artifact := Function.update s.artifact id none
    worktree := Function.update s.worktree id none
    tasks := Function.update s.tasks task none
    publicationOutbox := []
    checkoutOutbox := []
    trace := [] }

/-- Only the transaction, the close of the task and the outboxes differ.

- `same`: the rest of the world is the same.
- `ids`: no transaction disappears.
- `trace`: the only new effects are closes of the task for the transaction. -/
structure TransactionMove (id : TransactionId) (task : TaskId) (s t : HubWorld) : Prop where
  same : t.without id task = s.without id task
  ids : ∀ u ∈ s.transactionIds, u ∈ t.transactionIds
  trace : ∃ calls : List HubLandingTaskCloseInput, t.trace = s.trace ++ calls.map .taskClose ∧
    ∀ c ∈ calls, c.transactionId = id ∧ c.taskId = task

namespace TransactionMove

variable {id : TransactionId} {task : TaskId} {s t u : HubWorld}

theorem refl (id : TransactionId) (task : TaskId) (s : HubWorld) : TransactionMove id task s s :=
  ⟨rfl, fun _ h => h, [], by simp, fun _ h => nomatch h⟩

theorem trans (h₁ : TransactionMove id task s t) (h₂ : TransactionMove id task t u) :
    TransactionMove id task s u := by
  obtain ⟨calls₁, ht, hcalls₁⟩ := h₁.trace
  obtain ⟨calls₂, hu, hcalls₂⟩ := h₂.trace
  refine ⟨h₂.same.trans h₁.same, fun v hv => h₂.ids v (h₁.ids v hv), calls₁ ++ calls₂, ?_, ?_⟩
  · rw [hu, ht, List.map_append, List.append_assoc]
  · intro c hc
    rcases List.mem_append.mp hc with hc | hc
    · exact hcalls₁ c hc
    · exact hcalls₂ c hc

theorem of_same (hsame : t.without id task = s.without id task)
    (hids : t.transactionIds = s.transactionIds) (htrace : t.trace = s.trace) :
    TransactionMove id task s t := by
  refine ⟨hsame, ?_, [], ?_, fun _ h => nomatch h⟩
  · intro v hv
    rw [hids]
    exact hv
  · rw [htrace]
    simp

/-! What a move leaves alone. -/

theorem field {τ : Type} {f : HubWorld → τ} (h : TransactionMove id task s t)
    (hf : ∀ w : HubWorld, f (w.without id task) = f w) : f t = f s := by
  rw [← hf t, h.same, hf s]

theorem journal (h : TransactionMove id task s t) {v : TransactionId} (hv : v ≠ id) :
    t.journal v = s.journal v :=
  h.field (f := fun w => w.journal v) fun _ => Function.update_of_ne hv _ _

theorem manifest (h : TransactionMove id task s t) {v : TransactionId} (hv : v ≠ id) :
    t.manifest v = s.manifest v :=
  h.field (f := fun w => w.manifest v) fun _ => Function.update_of_ne hv _ _

theorem candidateRef (h : TransactionMove id task s t) {v : TransactionId} (hv : v ≠ id) :
    t.candidateRef v = s.candidateRef v :=
  h.field (f := fun w => w.candidateRef v) fun _ => Function.update_of_ne hv _ _

theorem worktree (h : TransactionMove id task s t) {v : TransactionId} (hv : v ≠ id) :
    t.worktree v = s.worktree v :=
  h.field (f := fun w => w.worktree v) fun _ => Function.update_of_ne hv _ _

theorem tasks (h : TransactionMove id task s t) {k : TaskId} (hk : k ≠ task) :
    t.tasks k = s.tasks k :=
  h.field (f := fun w => w.tasks k) fun _ => Function.update_of_ne hk _ _

theorem receipt (h : TransactionMove id task s t) : t.receipt = s.receipt :=
  h.field fun _ => rfl

theorem publishTarget (h : TransactionMove id task s t) : t.publishTarget = s.publishTarget :=
  h.field fun _ => rfl

theorem hasObject (h : TransactionMove id task s t) : t.hasObject = s.hasObject :=
  h.field fun _ => rfl

theorem queue (h : TransactionMove id task s t) : t.queue = s.queue :=
  h.field fun _ => rfl

theorem policy (h : TransactionMove id task s t) : t.policy = s.policy :=
  h.field fun _ => rfl

theorem branches (h : TransactionMove id task s t) : t.branches = s.branches :=
  h.field fun _ => rfl

theorem head (h : TransactionMove id task s t) : t.head = s.head :=
  h.field fun _ => rfl

end TransactionMove

/-! ### The steps -/

section
variable {id : TransactionId} {task : TaskId}

theorem move_reads {α : Type} (f : HubWorld → α) :
    (Prog.reads f : Hub α).Makes (TransactionMove id task) :=
  Prog.makes_reads.mpr (TransactionMove.refl id task)

theorem move_appendHubLandingCheckpoint {record : HubLandingTransactionRecord}
    (h : record.transactionId = id) :
    (appendHubLandingCheckpoint record).Makes (TransactionMove id task) := by
  subst h
  refine Prog.makes_bind ?_ fun _ => ?_
  · refine Prog.makes_modify.mpr fun s => ⟨rfl, ?_, [], by simp, fun _ h => nomatch h⟩
    exact fun u hu => HubWorld.mem_withTransaction.mpr (Or.inl hu)
  · refine Prog.makes_modify.mpr fun s => .of_same ?_ rfl rfl
    simp only [HubWorld.without, HubWorld.appendRecord, Function.update_idem]

theorem move_writeCandidateManifestAndRef {manifest : HubLandingCandidateManifest}
    (h : manifest.transactionId = id) :
    (writeCandidateManifestAndRef manifest).Makes (TransactionMove id task) := by
  subst h
  refine Prog.makes_bind ?_ fun _ => ?_
  · refine Prog.makes_modify.mpr fun s => .of_same ?_ rfl rfl
    simp only [HubWorld.without, Function.update_idem]
  · refine Prog.makes_modify.mpr fun s => ⟨?_, ?_, [], by simp, fun _ h => nomatch h⟩
    · simp only [HubWorld.without, Function.update_idem]
    · exact fun u hu => HubWorld.mem_withTransaction.mpr (Or.inl hu)

theorem move_bindHubLandingVerification {git : Git} {input : BindHubLandingVerificationInput}
    (h : input.transactionId = id) :
    (bindHubLandingVerification git input).Makes (TransactionMove id task) := by
  refine Prog.makes_bind (move_reads _) fun parts => ?_
  refine Prog.makes_bind (move_reads _) fun existing => ?_
  refine Prog.makes_bind ?_ fun _ => ?_
  · refine Prog.makes_when (Prog.makes_modify.mpr fun s => .of_same ?_ rfl rfl)
    simp only [HubWorld.without, h, Function.update_idem]
  · exact move_appendHubLandingCheckpoint h

def OutboxWrite (s t : HubWorld) : Prop :=
  ∃ items, t = { s with publicationOutbox := items }

theorem OutboxWrite.refl (s : HubWorld) : OutboxWrite s s := ⟨s.publicationOutbox, rfl⟩

theorem OutboxWrite.move {s t : HubWorld} (h : OutboxWrite s t) : TransactionMove id task s t := by
  obtain ⟨items, rfl⟩ := h
  exact .of_same rfl rfl rfl

theorem writeOutboxItem_writes (item : HubPublicationOutboxItem) :
    (writeOutboxItem item).Makes OutboxWrite :=
  Prog.makes_bind (Prog.makes_modify.mpr fun _ => ⟨_, rfl⟩) fun _ => Prog.makes_ret _

theorem enqueueHubPublication_writes (git : Git) (policy : HubLandingPolicy)
    (transactionId : TransactionId) (taskId : TaskId) (candidateOid : Oid) (now : Timestamp) :
    (enqueueHubPublication git policy transactionId taskId candidateOid now).Makes
      OutboxWrite := by
  have hread : ∀ {α : Type} (f : HubWorld → α), (Prog.reads f : Hub α).Makes OutboxWrite :=
    fun f => Prog.makes_reads.mpr OutboxWrite.refl
  unfold enqueueHubPublication
  split
  · exact Prog.makes_ret _
  split
  · refine Prog.makes_bind (hread _) fun existing => ?_
    cases existing with
    | some item => exact Prog.makes_ret _
    | none => exact Prog.makes_bind (writeOutboxItem_writes _) fun _ => Prog.makes_ret _
  split
  · exact Prog.makes_ret _
  · refine Prog.makes_bind (hread _) fun tip => ?_
    refine Prog.makes_bind (hread _) fun existing => ?_
    cases existing with
    | some item => exact Prog.makes_ret _
    | none =>
      refine Prog.makes_bind (hread _) fun sibling => ?_
      cases sibling with
      | some item => exact Prog.makes_ret _
      | none => exact Prog.makes_bind (writeOutboxItem_writes _) fun _ => Prog.makes_ret _

theorem enqueueHubPublicationAfterShipped_writes (git : Git) (transactionId : TransactionId)
    (taskId : TaskId) (candidateOid : Oid) (now : Timestamp) :
    (enqueueHubPublicationAfterShipped git transactionId taskId candidateOid now).Makes
      OutboxWrite := by
  refine Prog.makes_bind (Prog.makes_reads.mpr OutboxWrite.refl) fun policy => ?_
  cases policy with
  | none => exact Prog.makes_ret _
  | some policy =>
    exact Prog.makes_bind (enqueueHubPublication_writes git policy _ _ _ _) fun _ =>
      Prog.makes_ret _

theorem move_closeHubLandingTask {git : Git} {input : HubLandingTaskCloseInput}
    {now : Timestamp} (hid : input.transactionId = id) (htask : input.taskId = task) :
    (closeHubLandingTask git input now).Makes (TransactionMove id task) := by
  refine Prog.makes_bind ?_ fun _ => Prog.makes_bind ?_ fun _ => ?_
  · refine Prog.makes_when (Prog.makes_bind (move_reads _) fun existing => ?_)
    refine Prog.makes_when (Prog.makes_modify.mpr fun s => ?_)
    refine ⟨?_, fun _ h => h, [input], rfl, ?_⟩
    · simp only [HubWorld.without, htask, Function.update_idem]
    · intro c hc
      rw [List.mem_singleton.mp hc]
      exact ⟨hid, htask⟩
  · exact move_appendHubLandingCheckpoint hid
  · exact (enqueueHubPublicationAfterShipped_writes git _ _ _ _).mono fun _ _ h => h.move

theorem move_cleanupHubLandingCandidate {candidate : HubLandingCandidate}
    (h : candidate.transactionId = id) :
    (cleanupHubLandingCandidate candidate).Makes (TransactionMove id task) := by
  refine Prog.makes_bind (move_reads _) fun present => ?_
  refine Prog.makes_bind ?_ fun _ => ?_
  · refine Prog.makes_when (Prog.makes_modify.mpr fun s => .of_same ?_ rfl rfl)
    simp only [HubWorld.without, h, Function.update_idem]
  · exact move_appendHubLandingCheckpoint h

theorem move_enqueueHubCheckoutProjection (policy : HubLandingPolicy)
    (transactionId : TransactionId) (taskId : TaskId) (candidateOid : Oid) :
    (enqueueHubCheckoutProjection policy transactionId taskId candidateOid).Makes
      (TransactionMove id task) := by
  refine (enqueueHubCheckoutProjection_writes policy transactionId taskId candidateOid).mono ?_
  rintro s _ ⟨items, rfl⟩
  exact .of_same rfl rfl rfl

/-! ### The functions of a reconciliation -/

theorem move_appendRecords {records : List HubLandingTransactionRecord}
    (h : ∀ r ∈ records, r.transactionId = id) :
    (appendRecords records).Makes (TransactionMove id task) := by
  induction records with
  | nil => exact Prog.makes_ret _
  | cons record records ih =>
    refine Prog.makes_bind (move_appendHubLandingCheckpoint (h record (by simp))) fun _ => ?_
    exact ih fun r hr => h r (List.mem_cons_of_mem _ hr)

theorem move_reconstructCheckpoints {evidence : HubLandingTransactionEvidence}
    {journal : Option HubLandingTransactionState} (h : evidence.transactionId = id) :
    (reconstructCheckpoints evidence journal).Makes (TransactionMove id task) := by
  unfold reconstructCheckpoints
  split
  · refine Prog.makes_bind (move_appendRecords ?_) fun _ => Prog.makes_ret _
    intro r hr
    obtain ⟨checkpoint, -, rfl⟩ := List.mem_map.mp hr
    exact h
  · exact Prog.makes_ret _

theorem move_finishTransaction {git : Git} {policy : HubLandingPolicy} {call : HubCall}
    {evidence : HubLandingTransactionEvidence} (hid : evidence.transactionId = id)
    (htask : ∀ k, evidence.taskId = some k → k = task) :
    (finishTransaction git policy call evidence).Makes (TransactionMove id task) := by
  unfold finishTransaction toCandidate
  split
  · exact Prog.makes_ret _
  · rename_i candidate hcandidate
    split at hcandidate
    · rename_i k oid hk hoid
      obtain rfl := Option.some.inj hcandidate
      refine Prog.makes_bind ?_ fun _ => Prog.makes_bind ?_ fun _ => ?_
      · unfold closeLanded
        split
        · exact move_closeHubLandingTask hid (htask k hk)
        · exact Prog.makes_ret _
      · unfold cleanupFinished
        split
        · exact move_cleanupHubLandingCandidate hid
        · exact Prog.makes_ret _
      · unfold projectLanded
        split
        · refine Prog.makes_bind (move_enqueueHubCheckoutProjection _ _ _ _) fun _ => ?_
          refine Prog.makes_bind ?_ fun _ => Prog.makes_ret _
          exact (enqueueHubPublication_writes git policy _ _ _ _).mono fun _ _ h => h.move
        · exact Prog.makes_ret _
    · cases hcandidate

theorem move_adoptSource {git : Git} {call : HubCall} {sourceOid targetOid : Oid}
    (h : resolveHubLandingTransactionId git task sourceOid targetOid = id) :
    (adoptSource git call task sourceOid targetOid).Makes (TransactionMove id task) := by
  unfold adoptSource
  rw [h]
  refine Prog.makes_bind (move_reads _) fun existing => Prog.makes_bind ?_ fun _ => ?_
  · refine Prog.makes_when ?_
    refine Prog.makes_bind (move_appendHubLandingCheckpoint rfl) fun _ => ?_
    refine Prog.makes_bind (move_appendHubLandingCheckpoint rfl) fun _ => ?_
    refine Prog.makes_bind (move_appendHubLandingCheckpoint rfl) fun _ => ?_
    exact move_writeCandidateManifestAndRef rfl
  · refine Prog.makes_bind (move_reads _) fun parts => ?_
    refine Prog.makes_bind (move_bindHubLandingVerification rfl) fun _ => ?_
    refine Prog.makes_bind (move_appendHubLandingCheckpoint rfl) fun _ => ?_
    exact move_closeHubLandingTask rfl rfl

end

/-! ### Publication -/

/-- Only the outbox, the remotes and the fetched objects differ, and each new effect is a
push. -/
def PublicationMove (s t : HubWorld) : Prop :=
  ∃ items remotes hasObject pushes,
    t = { s with
      publicationOutbox := items, remotes := remotes, hasObject := hasObject
      trace := s.trace ++ pushes } ∧
    ∀ e ∈ pushes, ∃ item replaced, e = .remotePush item replaced

namespace PublicationMove

theorem refl (s : HubWorld) : PublicationMove s s :=
  ⟨s.publicationOutbox, s.remotes, s.hasObject, [], by simp, fun _ h => nomatch h⟩

theorem of_outboxWrite {s t : HubWorld} (h : OutboxWrite s t) : PublicationMove s t := by
  obtain ⟨items, rfl⟩ := h
  exact ⟨items, s.remotes, s.hasObject, [], by simp, fun _ h => nomatch h⟩

theorem of_fetch {s : HubWorld} (hasObject : Oid → Bool) :
    PublicationMove s { s with hasObject := hasObject } :=
  ⟨s.publicationOutbox, s.remotes, hasObject, [], by simp, fun _ h => nomatch h⟩

end PublicationMove

section
variable {git : Git}

theorem publish_reads {α : Type} (f : HubWorld → α) :
    (Prog.reads f : Hub α).Makes PublicationMove :=
  Prog.makes_reads.mpr PublicationMove.refl

theorem publish_writeOutboxItem (item : HubPublicationOutboxItem) :
    (writeOutboxItem item).Makes PublicationMove :=
  (writeOutboxItem_writes item).mono fun _ _ => .of_outboxWrite

theorem publish_trySucceedFromRemoteObservation (item : HubPublicationOutboxItem) :
    (trySucceedFromRemoteObservation git item).Makes PublicationMove := by
  refine Prog.makes_bind (publish_reads _) fun observed => ?_
  split
  · refine Prog.makes_bind (publish_reads _) fun contains => ?_
    split
    · exact Prog.makes_bind (publish_writeOutboxItem _) fun _ => Prog.makes_ret _
    · exact Prog.makes_ret _
  · exact Prog.makes_ret _

theorem publish_pushCandidate (item : HubPublicationOutboxItem) (lease : Oid) :
    (pushCandidate git item lease).Makes PublicationMove := by
  intro s
  refine ⟨?_, trivial⟩
  beta_reduce
  split
  · refine ⟨s.publicationOutbox, _, s.hasObject, [_], rfl, ?_⟩
    intro e he
    exact ⟨item, _, List.mem_singleton.mp he⟩
  · exact .refl s

theorem publish_pushCandidateWithCrashWindows (item : HubPublicationOutboxItem) (lease : Oid) :
    (pushCandidateWithCrashWindows git item lease).Makes PublicationMove := by
  refine Prog.makes_bind (publish_pushCandidate item lease) fun failure => ?_
  cases failure with
  | some stderr =>
    refine Prog.makes_bind (publish_trySucceedFromRemoteObservation item) fun recovered => ?_
    cases recovered with
    | some item => exact Prog.makes_ret _
    | none => exact publish_writeOutboxItem _
  | none =>
    refine Prog.makes_bind (publish_writeOutboxItem _) fun acknowledged => ?_
    refine Prog.makes_bind (publish_trySucceedFromRemoteObservation _) fun confirmed => ?_
    cases confirmed with
    | some item => exact Prog.makes_ret _
    | none => exact publish_writeOutboxItem _

theorem publish_projectOneItem (item : HubPublicationOutboxItem) :
    (projectOneItem git item).Makes PublicationMove := by
  unfold projectOneItem
  split
  · exact Prog.makes_ret _
  split
  · exact publish_writeOutboxItem _
  split
  · exact publish_writeOutboxItem _
  refine Prog.makes_bind (publish_reads _) fun observed => ?_
  cases observed with
  | error reason => exact publish_writeOutboxItem _
  | ok tip =>
    refine Prog.makes_bind ?_ fun _ => ?_
    · cases tip with
      | none => exact Prog.makes_ret _
      | some oid =>
        refine Prog.makes_bind (publish_reads _) fun known => ?_
        split
        · refine Prog.makes_modify.mpr fun s => ?_
          split
          · exact .of_fetch _
          · exact .refl s
        · exact Prog.makes_ret _
    · refine Prog.makes_bind (publish_reads _) fun contains => ?_
      split
      · exact publish_writeOutboxItem _
      split
      · exact publish_writeOutboxItem _
      refine Prog.makes_bind (publish_reads _) fun diverged => ?_
      split
      · exact publish_writeOutboxItem _
      · exact publish_pushCandidateWithCrashWindows _ _

theorem publish_projectItems (items : List HubPublicationOutboxItem) :
    (projectItems git items).Makes PublicationMove := by
  induction items with
  | nil => exact Prog.makes_ret _
  | cons item items ih =>
    refine Prog.makes_bind (publish_projectOneItem item) fun projected => ?_
    exact Prog.makes_bind ih fun rest => Prog.makes_ret _

theorem publish_projectHubPublicationOutbox :
    (projectHubPublicationOutbox git).Makes PublicationMove :=
  Prog.makes_bind (publish_reads _) fun items => publish_projectItems items

end

end ArchLoop
