import ArchLoop.Proofs.DeliveryHold

/-!
# `ArchLoop.Proofs.QueueFrames`: what a merge does without writing the queue

Merging, verifying and landing a candidate leave the queue file alone: only the operations of
`Queue.lean` write it. There is one lemma for each function, and
`mergeTask_keeps_queue`, `verifyWithBoundedRepair_keeps_queue` and `landWithLease_keeps_queue`
are the ones that a caller needs.
-/

set_option autoImplicit false

namespace ArchLoop

open ArchLoop.Lib

/-! ### Building a candidate -/

section
variable {git : Git} {α : Type}

theorem keepsQueue_reads (f : HubWorld → α) :
    (Prog.reads f : Hub α).Keeps HubWorld.queue :=
  Prog.always_reads.mpr fun _ => rfl

theorem keepsQueue_modify {f : HubWorld → HubWorld} (h : ∀ s, (f s).queue = s.queue) :
    (Prog.modify f : Hub Unit).Keeps HubWorld.queue :=
  Prog.always_modify.mpr h

theorem keepsQueue_revParse (ref : String) (read : HubWorld → Option Oid) :
    (revParse ref read).Keeps HubWorld.queue :=
  revParse_always (P := fun s t => t.queue = s.queue) (fun _ => rfl) ref read

theorem appendHubLandingCheckpoint_keeps_queue (record : HubLandingTransactionRecord) :
    (appendHubLandingCheckpoint record).Keeps HubWorld.queue := by
  refine (appendHubLandingCheckpoint_writes record).always.mono ?_
  rintro s _ ⟨ids, journal, rfl⟩
  rfl

theorem runInWorktree_keeps_queue (transactionId : TransactionId) (agent : HubWorktreeAgent) :
    (runInWorktree transactionId agent).Keeps HubWorld.queue := by
  intro s
  refine ⟨rfl, ?_⟩
  dsimp only
  split <;> trivial

theorem cleanupQuietly_keeps_queue (candidate : HubLandingCandidate) :
    (cleanupQuietly candidate).Keeps HubWorld.queue := by
  have hmove : (cleanupHubLandingCandidate candidate).Makes
      (TransactionMove candidate.transactionId candidate.taskId) :=
    move_cleanupHubLandingCandidate rfl
  exact Prog.always_tryCatch (keeps_queue_of_move hmove) fun _ => Prog.always_ret ()

theorem writeCandidateManifestAndRef_keeps_queue (manifest : HubLandingCandidateManifest) :
    (writeCandidateManifestAndRef manifest).Keeps HubWorld.queue :=
  Prog.always_bind (keepsQueue_modify fun _ => rfl) fun _ => keepsQueue_modify fun _ => rfl

theorem restoreCandidateFromEvidence_keeps_queue (transactionId : TransactionId)
    (expectedCandidateOid : Option Oid) :
    (restoreCandidateFromEvidence transactionId expectedCandidateOid).Keeps HubWorld.queue := by
  refine Prog.always_bind (keepsQueue_reads _) fun manifest => ?_
  refine Prog.always_bind (keepsQueue_reads _) fun refOid => ?_
  split
  · exact Prog.always_ret _
  · split
    · exact Prog.always_ret _
    · split
      · exact Prog.always_ret _
      · split
        · refine Prog.always_bind (keepsQueue_reads _) fun hasObject => ?_
          split
          · exact Prog.always_bind (keepsQueue_modify fun _ => rfl) fun _ => Prog.always_ret _
          · exact Prog.always_ret _
        · exact Prog.always_ret _

theorem ensureCandidateWorktree_keeps_queue (transactionId : TransactionId)
    (candidateOid : Oid) :
    (ensureCandidateWorktree transactionId candidateOid).Keeps HubWorld.queue :=
  Prog.always_bind (keepsQueue_reads _) fun _ =>
    Prog.always_when (keepsQueue_modify fun _ => rfl)

theorem mergeInWorktree_keeps_queue (input : CreateHubLandingCandidateInput)
    (transactionId : TransactionId) (sourceOid : Oid) :
    (mergeInWorktree git input transactionId sourceOid).Keeps HubWorld.queue := by
  unfold mergeInWorktree
  split
  · exact Prog.always_tryCatch (runInWorktree_keeps_queue _ _) fun _ => Prog.always_raise _
  · refine Prog.always_tryCatch (runInWorktree_keeps_queue _ _) fun _ => ?_
    exact Prog.always_bind (keepsQueue_modify fun _ => rfl) fun _ => Prog.always_raise _

theorem buildHubLandingCandidate_keeps_queue (input : CreateHubLandingCandidateInput)
    (transactionId : TransactionId) (sourceOid baseOid : Oid) :
    (buildHubLandingCandidate git input transactionId sourceOid baseOid).Keeps
      HubWorld.queue := by
  refine Prog.always_bind (appendHubLandingCheckpoint_keeps_queue _) fun _ => ?_
  refine Prog.always_bind (appendHubLandingCheckpoint_keeps_queue _) fun _ => ?_
  refine Prog.always_bind (keepsQueue_reads _) fun _ => ?_
  refine Prog.always_bind (Prog.always_when (keepsQueue_modify fun _ => rfl)) fun _ => ?_
  refine Prog.always_bind (keepsQueue_modify fun _ => rfl) fun _ => ?_
  refine Prog.always_bind (mergeInWorktree_keeps_queue _ _ _) fun _ => ?_
  refine Prog.always_bind (keepsQueue_modify fun _ => rfl) fun _ => ?_
  refine Prog.always_bind (keepsQueue_revParse _ _) fun candidateOid => ?_
  refine Prog.always_bind (writeCandidateManifestAndRef_keeps_queue _) fun _ => ?_
  exact Prog.always_bind (appendHubLandingCheckpoint_keeps_queue _) fun _ => Prog.always_ret _

theorem createHubLandingCandidate_keeps_queue (input : CreateHubLandingCandidateInput) :
    (createHubLandingCandidate git input).Keeps HubWorld.queue := by
  refine Prog.always_bind (ensureHubLandingPolicy_keeps_queue _ _) fun _ => ?_
  refine Prog.always_bind (keepsQueue_revParse _ _) fun sourceOid => ?_
  refine Prog.always_bind ?_ fun baseOid => ?_
  · unfold pinnedBaseOid
    split
    · exact Prog.always_ret _
    · exact keepsQueue_revParse _ _
  refine Prog.always_bind (keepsQueue_reads _) fun existing => ?_
  refine Prog.always_bind (keepsQueue_reads _) fun currentRefOid => ?_
  refine Prog.always_bind ?_ fun _ => ?_
  · unfold throwIfJournalMismatch
    split
    · split
      · exact Prog.always_raise _
      · exact Prog.always_ret _
    · exact Prog.always_ret _
  refine Prog.always_bind (restoreCandidateFromEvidence_keeps_queue _ _) fun restored => ?_
  cases restored with
  | none => exact buildHubLandingCandidate_keeps_queue _ _ _ _
  | some candidateOid =>
    refine Prog.always_bind (ensureCandidateWorktree_keeps_queue _ _) fun _ => ?_
    refine Prog.always_bind (Prog.always_when ?_) fun _ => Prog.always_ret _
    exact appendHubLandingCheckpoint_keeps_queue _

theorem createTaskCandidate_keeps_queue (session : MergeTaskSession)
    (predecessorOid : Option Oid) :
    (createTaskCandidate git session predecessorOid).Keeps HubWorld.queue :=
  Prog.always_bind (keepsQueue_reads _) fun _ => createHubLandingCandidate_keeps_queue _

theorem rebuildCandidate_keeps_queue (session : MergeTaskSession) (predecessorOid : Option Oid)
    (candidate : HubLandingCandidate) :
    (rebuildCandidate git session predecessorOid candidate).Keeps HubWorld.queue :=
  Prog.always_bind (cleanupQuietly_keeps_queue _) fun _ => createTaskCandidate_keeps_queue _ _

theorem mergeTask_keeps_queue (session : MergeTaskSession) (predecessorOid : Option Oid) :
    (mergeTask git session predecessorOid).Keeps HubWorld.queue := by
  have hcreate : (createTaskCandidate git session predecessorOid).Keeps HubWorld.queue :=
    createTaskCandidate_keeps_queue _ _
  have hattempt := Prog.always_tryCatch
    (Prog.always_bind hcreate fun candidate => Prog.always_ret (Except.ok (ε := HubError) candidate))
    fun e => Prog.always_ret (Except.error e)
  refine Prog.always_bind hattempt fun merged => ?_
  cases merged with
  | ok candidate => exact Prog.always_ret _
  | error e =>
    refine Prog.always_bind ?_ fun _ => Prog.always_ret _
    unfold removeFailedWorktree
    split
    · exact keepsQueue_modify fun _ => rfl
    · exact Prog.always_ret _

/-! ### Verifying and landing it -/

theorem snapshotHubLandingCandidateGeneration_keeps_queue (candidate : HubLandingCandidate) :
    (snapshotHubLandingCandidateGeneration git candidate).Keeps HubWorld.queue := by
  refine Prog.always_bind (keepsQueue_modify fun _ => rfl) fun _ => ?_
  refine Prog.always_bind (keepsQueue_revParse _ _) fun candidateOid => ?_
  split
  · exact Prog.always_ret _
  · refine Prog.always_bind (writeCandidateManifestAndRef_keeps_queue _) fun _ => ?_
    exact Prog.always_bind (appendHubLandingCheckpoint_keeps_queue _) fun _ => Prog.always_ret _

theorem runVerifier_keeps_queue (verifier : HubFlowAgent) (transactionId : TransactionId) :
    (runVerifier verifier transactionId).Keeps HubWorld.queue := by
  intro s
  refine ⟨?_, trivial⟩
  dsimp only
  split <;> rfl

theorem repairLoop_keeps_queue (session : MergeTaskSession) (passes : Nat)
    (candidate : HubLandingCandidate) (failure : Option String) :
    (repairLoop git session passes candidate failure).Keeps HubWorld.queue := by
  have hexhaust : ∀ candidate message,
      (exhaustVerificationRepair session candidate message).Keeps HubWorld.queue :=
    fun candidate _ =>
      Prog.always_bind (cleanupQuietly_keeps_queue candidate) fun _ => Prog.always_ret _
  induction passes generalizing candidate failure with
  | zero =>
    cases failure with
    | none => exact Prog.always_ret _
    | some message => exact hexhaust candidate message
  | succ passes ih =>
    cases failure with
    | none => exact Prog.always_ret _
    | some message =>
      refine Prog.always_bind (keepsQueue_reads _) fun remaining => ?_
      split
      · refine Prog.always_bind (keepsQueue_modify fun _ => rfl) fun _ => ?_
        refine Prog.always_bind (fun s => ⟨rfl, trivial⟩) fun repaired => ?_
        cases repaired with
        | some _ => exact ih candidate (some message)
        | none =>
          refine Prog.always_bind (snapshotHubLandingCandidateGeneration_keeps_queue _) ?_
          intro snapshot
          exact Prog.always_bind (runVerifier_keeps_queue _ _) fun failure => ih snapshot failure
      · exact hexhaust candidate message

theorem verifyWithBoundedRepair_keeps_queue (session : MergeTaskSession)
    (candidate : HubLandingCandidate) :
    (verifyWithBoundedRepair git session candidate).Keeps HubWorld.queue :=
  Prog.always_bind (runVerifier_keeps_queue _ _) fun _ => repairLoop_keeps_queue _ _ _ _

theorem bindVerification_keeps_queue (session : MergeTaskSession)
    (candidate : HubLandingCandidate) (verifierFingerprint : String) :
    (bindVerification git session candidate verifierFingerprint).Keeps HubWorld.queue := by
  have hmove : (bindVerification git session candidate verifierFingerprint).Makes
      (TransactionMove candidate.transactionId candidate.taskId) :=
    move_bindHubLandingVerification rfl
  exact keeps_queue_of_move hmove

theorem invalidateHubLandingCandidate_keeps_queue (transactionId : TransactionId) :
    (invalidateHubLandingCandidate transactionId).Keeps HubWorld.queue :=
  keepsQueue_modify fun _ => rfl

theorem toTargetLandedCommit_keeps_queue (policy : HubLandingPolicy)
    (input : CommitHubLandingTargetInput) (fenceOid receiptOid publishTargetOid : Oid) :
    (toTargetLandedCommit policy input fenceOid receiptOid publishTargetOid).Keeps
      HubWorld.queue := by
  refine (toTargetLandedCommit_writes _ _ _ _ _).mono ?_
  rintro s _ ⟨ids, journal, items, rfl⟩
  rfl

theorem commitExistingReceipt_keeps_queue (policy : HubLandingPolicy)
    (input : CommitHubLandingTargetInput) (existing : HubStoredReceipt) :
    (commitExistingReceipt git policy input existing).Keeps HubWorld.queue := by
  unfold commitExistingReceipt
  dsimp only
  split
  · exact Prog.always_raise _
  · refine Prog.always_bind (keepsQueue_reads _) fun fenceOid => ?_
    refine Prog.always_bind (keepsQueue_revParse _ _) fun publishTargetOid => ?_
    refine Prog.always_bind (keepsQueue_reads _) fun inAncestry => ?_
    split
    · exact Prog.always_raise _
    · exact toTargetLandedCommit_keeps_queue _ _ _ _ _

theorem recoverFailedLandingCas_keeps_queue (policy : HubLandingPolicy)
    (input : CommitHubLandingTargetInput) (oids : HubLandingOidEvidence) :
    (recoverFailedLandingCas policy input oids).Keeps HubWorld.queue := by
  refine Prog.always_bind (keepsQueue_reads _) fun raced => ?_
  split
  · refine Prog.always_bind (keepsQueue_revParse _ _) fun publishTargetOid => ?_
    refine Prog.always_bind (keepsQueue_reads _) fun fenceAfter => ?_
    exact toTargetLandedCommit_keeps_queue _ _ _ _ _
  · refine Prog.always_bind (keepsQueue_reads _) fun observedTargetOid => ?_
    exact Prog.always_bind (keepsQueue_reads _) fun observedFenceOid => Prog.always_raise _

theorem assertVerifiedCandidate_keeps_queue (candidate : HubLandingCandidate)
    (fingerprint : String) :
    (assertVerifiedCandidate candidate fingerprint).Keeps HubWorld.queue := by
  refine Prog.always_bind (keepsQueue_reads _) fun artifact => ?_
  cases artifact with
  | none => exact Prog.always_raise _
  | some a =>
    dsimp only
    split_ifs
    all_goals trivial

theorem commitHubLandingTarget_keeps_queue (policy : HubLandingPolicy)
    (input : CommitHubLandingTargetInput) :
    (commitHubLandingTarget git policy input).Keeps HubWorld.queue := by
  refine Prog.always_bind (assertVerifiedCandidate_keeps_queue _ _) fun _ => ?_
  refine Prog.always_bind (keepsQueue_reads _) fun receipt => ?_
  cases receipt with
  | some existing => exact commitExistingReceipt_keeps_queue _ _ _
  | none =>
    refine Prog.always_bind (keepsQueue_revParse _ _) fun observedTargetOid => ?_
    refine Prog.always_bind (keepsQueue_revParse _ _) fun observedFenceOid => ?_
    refine Prog.always_bind ?_ fun _ => ?_
    · unfold throwIfPinnedLandingOidsMismatch
      split_ifs
      all_goals trivial
    refine Prog.always_bind (keepsQueue_reads _) fun bootId => ?_
    refine Prog.always_bind ?_ fun passed => ?_
    · intro s
      refine ⟨?_, trivial⟩
      dsimp only
      split <;> rfl
    split
    · exact toTargetLandedCommit_keeps_queue _ _ _ _ _
    · exact recoverFailedLandingCas_keeps_queue _ _ _

theorem commitCandidateWithLease_keeps_queue (policy : HubLandingPolicy)
    (input : LandHubCandidateInput) (lease : Option HubLandingLease) :
    (commitCandidateWithLease git policy input lease).Keeps HubWorld.queue :=
  Prog.always_bind (commitHubLandingTarget_keeps_queue _ _) fun _ => Prog.always_ret _

theorem landUnderLease_keeps_queue (policy : HubLandingPolicy) (input : LandHubCandidateInput)
    (lease : HubLandingLease) :
    (landUnderLease git policy input lease).Keeps HubWorld.queue := by
  refine Prog.always_bind (keepsQueue_reads _) fun currentLease => ?_
  split
  · exact Prog.always_ret _
  · split
    · exact Prog.always_ret _
    · refine Prog.always_tryCatch (commitCandidateWithLease_keeps_queue _ _ _) fun e => ?_
      split
      · exact Prog.always_ret _
      · exact Prog.always_raise _

theorem landHubCandidateWithLease_keeps_queue (policy : HubLandingPolicy)
    (input : LandHubCandidateInput) :
    (landHubCandidateWithLease git policy input).Keeps HubWorld.queue := by
  have hwrite : ∀ s t, LeaseWrite s t → t.queue = s.queue := by
    rintro s _ ⟨lease, rfl⟩
    rfl
  refine Prog.always_bind (keepsQueue_reads _) fun existing => ?_
  split
  · exact commitCandidateWithLease_keeps_queue _ _ _
  · refine Prog.always_bind ?_ fun acquired => ?_
    · unfold leaseForLanding
      split
      · exact Prog.always_ret _
      · exact (acquireHubLandingLease_writes _).mono hwrite
    cases acquired with
    | pendingContention owner oids message => exact Prog.always_ret _
    | acquired lease =>
      exact Prog.always_finallyDo (landUnderLease_keeps_queue _ _ _)
        ((releaseHubLandingLease_writes _).mono hwrite)

theorem landWithLease_keeps_queue (session : MergeTaskSession)
    (candidate : HubLandingCandidate) :
    (landWithLease git session candidate).Keeps HubWorld.queue :=
  Prog.always_bind (keepsQueue_reads _) fun _ => landHubCandidateWithLease_keeps_queue _ _

/-! ### Publishing and closing -/

theorem enqueueHubPublication_keeps_queue (policy : HubLandingPolicy)
    (transactionId : TransactionId) (taskId : TaskId) (candidateOid : Oid) (now : Timestamp) :
    (enqueueHubPublication git policy transactionId taskId candidateOid now).Keeps
      HubWorld.queue := by
  refine (enqueueHubPublication_writes _ _ _ _ _ _).always.mono ?_
  rintro s _ ⟨items, rfl⟩
  rfl

theorem projectHubPublicationOutbox_keeps_queue :
    (projectHubPublicationOutbox git).Keeps HubWorld.queue := by
  refine publish_projectHubPublicationOutbox.always.mono ?_
  rintro s _ ⟨_, _, _, _, rfl, -⟩
  rfl

theorem driveUntilDelivered_keeps_queue (polls : Nat) :
    (driveUntilDelivered git polls).Keeps HubWorld.queue := by
  induction polls with
  | zero =>
    refine Prog.always_bind projectHubPublicationOutbox_keeps_queue fun items => ?_
    split <;> exact Prog.always_ret _
  | succ polls ih =>
    refine Prog.always_bind projectHubPublicationOutbox_keeps_queue fun items => ?_
    split
    · exact Prog.always_ret _
    · exact ih

theorem driveHubRequiredPublication_keeps_queue (policy : HubLandingPolicy) (polls : Nat) :
    (driveHubRequiredPublication git policy polls).Keeps HubWorld.queue := by
  unfold driveHubRequiredPublication
  split
  · exact driveUntilDelivered_keeps_queue polls
  · exact Prog.always_bind projectHubPublicationOutbox_keeps_queue fun _ => Prog.always_ret _

theorem closePublishedTask_keeps_queue (session : MergeTaskSession)
    (candidate : HubLandingCandidate) (policy : Option HubLandingPolicy) :
    (closePublishedTask git session candidate policy).Keeps HubWorld.queue := by
  refine Prog.always_bind ?_ fun _ => ?_
  · refine Prog.always_bind (keepsQueue_reads _) fun refusal => ?_
    cases refusal with
    | some message => exact Prog.always_raise _
    | none => exact keepsQueue_modify fun _ => rfl
  refine Prog.always_bind (appendHubLandingCheckpoint_keeps_queue _) fun _ => ?_
  refine Prog.always_bind (Prog.always_when ?_) fun _ => ?_
  · refine Prog.always_bind ?_ fun _ => ?_
    · refine (enqueueHubPublicationAfterShipped_writes _ _ _ _ _).always.mono ?_
      rintro s _ ⟨items, rfl⟩
      rfl
    · exact Prog.always_bind syncHubPublications_keeps_queue fun _ => Prog.always_ret _
  refine Prog.always_bind ?_ fun _ => Prog.always_ret _
  unfold runTaskBranchCleanup
  split
  · exact keepsQueue_modify fun _ => rfl
  · exact Prog.always_ret _

end

end ArchLoop
