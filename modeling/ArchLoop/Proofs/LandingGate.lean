import ArchLoop.BatchMerge
import ArchLoop.Proofs.QueueInvariant
import ArchLoop.Sample

/-!
# `ArchLoop.Proofs.LandingGate`: when the queue lets a ticket land

`mayLand` filters and sorts the tickets. Here it is compared with `MayLand`, which says the
same by order alone: nothing publishes before the ticket, and the ticket is the first of
those that are ready. `mayLand_iff` proves the two equal on each well-formed queue.

The batch merge asks the gate without a shipped set. `letsLand_iff` shows that this answer
alone decides whether a pass of `finalizeLandedCandidate` is turned away because of the
queue's head, and `letsLand_agrees_iff` says exactly when it is the answer for the true
shipped set.
-/

set_option autoImplicit false

namespace ArchLoop

open ArchLoop.Lib
open HubLandingQueueState

/-! ### The first ticket of a list -/

theorem firstBySequence_eq_none {tickets : List HubLandingQueueTicket} :
    firstBySequence tickets = none ↔ tickets = [] := by
  unfold firstBySequence
  rw [List.head?_eq_none_iff, ← List.length_eq_zero_iff, List.length_insertionSort,
    List.length_eq_zero_iff]

theorem firstBySequence_some {tickets : List HubLandingQueueTicket}
    {t : HubLandingQueueTicket} (h : firstBySequence tickets = some t) :
    t ∈ tickets ∧ ∀ u ∈ tickets, t.sequence ≤ u.sequence := by
  unfold firstBySequence at h
  have hsorted := List.pairwise_insertionSort
    (fun a b : HubLandingQueueTicket => a.sequence ≤ b.sequence) tickets
  obtain ⟨rest, hrest⟩ := List.head?_eq_some_iff.mp h
  rw [hrest] at hsorted
  have hmem : ∀ u, u ∈ tickets ↔ u ∈ t :: rest := by
    intro u
    rw [← hrest, List.mem_insertionSort]
  refine ⟨(hmem t).mpr List.mem_cons_self, ?_⟩
  intro u hu
  rcases List.mem_cons.mp ((hmem u).mp hu) with rfl | hu
  · exact Nat.le_refl _
  · exact List.rel_of_pairwise_cons hsorted hu

/-! ### The gate by order -/

/-- The ticket is ready: it is eligible and its blockers are shipped. -/
def Ready (shipped : TaskId → Bool) (t : HubLandingQueueTicket) : Prop :=
  t.status.eligible = true ∧ ∀ b ∈ t.blockerTaskIds, shipped b = true

/-- Some ticket before `mine` is publishing. -/
def HeldByDelivery (queue : HubLandingQueueState) (mine : HubLandingQueueTicket) : Prop :=
  ∃ t ∈ queue.tickets, t.sequence < mine.sequence ∧ t.status = .publishing

/-- Some ticket before `mine` is ready. -/
def ReadyBefore (queue : HubLandingQueueState) (shipped : TaskId → Bool)
    (mine : HubLandingQueueTicket) : Prop :=
  ∃ t ∈ queue.tickets, t.sequence < mine.sequence ∧ Ready shipped t

/-- What the gate is for: the ticket may land when it is ready, no earlier ticket holds it
for delivery, and none of the ready tickets comes before it. -/
def MayLand (queue : HubLandingQueueState) (shipped : TaskId → Bool)
    (mine : HubLandingQueueTicket) : Prop :=
  ¬ HeldByDelivery queue mine ∧ Ready shipped mine ∧
    ∀ t ∈ queue.tickets, Ready shipped t → mine.sequence ≤ t.sequence

theorem ready_iff {shipped : TaskId → Bool} {t : HubLandingQueueTicket} :
    (t.status.eligible && blockersShipped t shipped) = true ↔ Ready shipped t := by
  simp only [Ready, blockersShipped, Bool.and_eq_true, List.all_eq_true]

theorem resolveHubLandingQueueHead_some {queue : HubLandingQueueState}
    {shipped : TaskId → Bool} {head : HubLandingQueueTicket}
    (h : resolveHubLandingQueueHead (some queue) shipped = some head) :
    head ∈ queue.tickets ∧ Ready shipped head ∧
      ∀ t ∈ queue.tickets, Ready shipped t → head.sequence ≤ t.sequence := by
  obtain ⟨hmem, hmin⟩ := firstBySequence_some h
  obtain ⟨hmem, hready⟩ := List.mem_filter.mp hmem
  refine ⟨hmem, ready_iff.mp hready, ?_⟩
  intro t ht hr
  exact hmin t (List.mem_filter.mpr ⟨ht, ready_iff.mpr hr⟩)

theorem resolveHubLandingQueueHead_isSome {queue : HubLandingQueueState}
    {shipped : TaskId → Bool} {t : HubLandingQueueTicket} (ht : t ∈ queue.tickets)
    (hr : Ready shipped t) :
    ∃ head, resolveHubLandingQueueHead (some queue) shipped = some head := by
  refine Option.ne_none_iff_exists'.mp ?_
  intro hnone
  have hmem : t ∈ queue.tickets.filter fun ticket =>
      ticket.status.eligible && blockersShipped ticket shipped :=
    List.mem_filter.mpr ⟨ht, ready_iff.mpr hr⟩
  rw [firstBySequence_eq_none.mp hnone] at hmem
  cases hmem

theorem findEarlierRequiredDeliveryHold_isNone {queue : HubLandingQueueState} (hwf : queue.Wf)
    {mine : HubLandingQueueTicket} (hmine : mine ∈ queue.tickets) :
    (findEarlierRequiredDeliveryHold (some queue) mine.taskId).isNone = true ↔
      ¬ HeldByDelivery queue mine := by
  simp only [findEarlierRequiredDeliveryHold, hwf.findTicket_eq hmine, Option.isNone_iff_eq_none,
    firstBySequence_eq_none, List.filter_eq_nil_iff, Bool.and_eq_true, decide_eq_true_eq,
    beq_iff_eq, HeldByDelivery, not_exists, not_and]

theorem mayLand_iff {queue : HubLandingQueueState} (hwf : queue.Wf)
    {mine : HubLandingQueueTicket} (hmine : mine ∈ queue.tickets)
    (shipped : Option (TaskId → Bool)) :
    mayLand (some queue) mine.taskId shipped = true ↔
      MayLand queue (shipped.getD fun _ => false) mine := by
  unfold mayLand MayLand
  rw [Bool.and_eq_true, findEarlierRequiredDeliveryHold_isNone hwf hmine]
  refine and_congr_right fun _ => ?_
  generalize shipped.getD (fun _ => false) = S
  constructor
  · intro h
    obtain ⟨head, hhead, htask⟩ := Option.map_eq_some_iff.mp (beq_iff_eq.mp h)
    obtain ⟨hmem, hready, hmin⟩ := resolveHubLandingQueueHead_some hhead
    obtain rfl := hwf.eq_of_taskId hmem hmine htask
    exact ⟨hready, hmin⟩
  · rintro ⟨hready, hmin⟩
    obtain ⟨head, hhead⟩ := resolveHubLandingQueueHead_isSome hmine hready
    obtain ⟨hmem, hready', hmin'⟩ := resolveHubLandingQueueHead_some hhead
    have hseq : head.sequence = mine.sequence :=
      Nat.le_antisymm (hmin' mine hmine hready) (hmin head hmem hready')
    have heq : head = mine := eq_of_pairwise_ne hwf.sequences hmem hmine hseq
    rw [hhead, heq]
    simp

theorem mayLand_iff_not_before {queue : HubLandingQueueState} {shipped : TaskId → Bool}
    {mine : HubLandingQueueTicket} (hready : Ready shipped mine) :
    MayLand queue shipped mine ↔
      ¬ HeldByDelivery queue mine ∧ ¬ ReadyBefore queue shipped mine := by
  unfold MayLand ReadyBefore
  refine and_congr_right fun _ => ?_
  constructor
  · rintro ⟨-, hmin⟩ ⟨t, ht, hlt, hr⟩
    exact absurd (hmin t ht hr) (Nat.not_le.mpr hlt)
  · intro h
    refine ⟨hready, ?_⟩
    intro t ht hr
    by_contra hlt
    exact h ⟨t, ht, Nat.not_le.mp hlt, hr⟩

/-- When nothing is known to be shipped, the ready tickets are the eligible ones without
blockers. -/
theorem ready_none_iff {t : HubLandingQueueTicket} :
    Ready (fun _ => false) t ↔ t.status.eligible = true ∧ t.blockerTaskIds = [] := by
  simp [Ready, List.eq_nil_iff_forall_not_mem]

/-- Where the gate without a shipped set answers as the one with it.

- `ineligible`: the task's ticket is in no eligible status, so both refuse.
- `held`: an earlier ticket holds the task for delivery, so both refuse.
- `preceded`: some ready ticket precedes the task's, and either the task's has blockers or one
  of the preceding eligible tickets has none, so both refuse.
- `free`: the task's ticket has no blockers and nothing ready precedes it, so both admit. -/
inductive GateAgrees (queue : HubLandingQueueState) (shipped : TaskId → Bool)
    (mine : HubLandingQueueTicket) : Prop where
  | ineligible (h : mine.status.eligible = false)
  | held (h : HeldByDelivery queue mine)
  | preceded (h : ReadyBefore queue shipped mine)
      (hblockers : mine.blockerTaskIds = [] →
        ∃ t ∈ queue.tickets, t.sequence < mine.sequence ∧ t.status.eligible = true ∧
          t.blockerTaskIds = [])
  | free (hblockers : mine.blockerTaskIds = []) (h : ¬ ReadyBefore queue shipped mine)

/-- For a ready ticket, the answers without a shipped set and with it agree exactly where
`GateAgrees` says. -/
theorem mayLand_agrees_of_ready {queue : HubLandingQueueState} {mine : HubLandingQueueTicket}
    {shipped : TaskId → Bool} (hready : Ready shipped mine) :
    (MayLand queue (fun _ => false) mine ↔ MayLand queue shipped mine) ↔
      GateAgrees queue shipped mine := by
  -- A ticket that precedes with no blockers precedes for every shipped set.
  have hmono : ReadyBefore queue (fun _ => false) mine → ReadyBefore queue shipped mine := by
    rintro ⟨t, ht, hlt, hr⟩
    obtain ⟨heligible, hblockers⟩ := ready_none_iff.mp hr
    exact ⟨t, ht, hlt, heligible, by simp [hblockers]⟩
  have hbefore : ReadyBefore queue (fun _ => false) mine ↔
      ∃ t ∈ queue.tickets, t.sequence < mine.sequence ∧ t.status.eligible = true ∧
        t.blockerTaskIds = [] := by
    simp only [ReadyBefore, ready_none_iff]
  rw [mayLand_iff_not_before hready]
  by_cases hheld : HeldByDelivery queue mine
  · constructor
    · intro _
      exact .held hheld
    · intro _
      exact ⟨fun h => absurd hheld h.1, fun h => absurd hheld h.1⟩
  by_cases hblockers : mine.blockerTaskIds = []
  · have hready₀ : Ready (fun _ => false) mine := ready_none_iff.mpr ⟨hready.1, hblockers⟩
    rw [mayLand_iff_not_before hready₀]
    constructor
    · intro h
      by_cases hb : ReadyBefore queue shipped mine
      · refine .preceded hb fun _ => hbefore.mp ?_
        by_contra hb₀
        exact (h.mp ⟨hheld, hb₀⟩).2 hb
      · exact .free hblockers hb
    · rintro (h | h | ⟨hb, hb₀⟩ | ⟨-, hb⟩)
      · rw [hready.1] at h
        cases h
      · exact absurd h hheld
      · exact ⟨fun h => absurd (hbefore.mpr (hb₀ hblockers)) h.2, fun h => absurd hb h.2⟩
      · exact ⟨fun _ => ⟨hheld, hb⟩, fun _ => ⟨hheld, fun h => hb (hmono h)⟩⟩
  · have hrefused : ¬ MayLand queue (fun _ => false) mine := by
      rintro ⟨-, h, -⟩
      exact hblockers (ready_none_iff.mp h).2
    constructor
    · intro h
      refine .preceded ?_ fun h => absurd h hblockers
      by_contra hb
      exact hrefused (h.mpr ⟨hheld, hb⟩)
    · rintro (h | h | ⟨hb, -⟩ | ⟨h, -⟩)
      · rw [hready.1] at h
        cases h
      · exact absurd h hheld
      · exact ⟨fun h => absurd h hrefused, fun h => absurd hb h.2⟩
      · exact absurd h hblockers

theorem mayLand_none_agrees_iff {queue : HubLandingQueueState} {mine : HubLandingQueueTicket}
    {shipped : TaskId → Bool} (hshipped : ∀ b ∈ mine.blockerTaskIds, shipped b = true) :
    (MayLand queue (fun _ => false) mine ↔ MayLand queue shipped mine) ↔
      GateAgrees queue shipped mine := by
  cases heligible : mine.status.eligible with
  | true => exact mayLand_agrees_of_ready ⟨heligible, hshipped⟩
  | false =>
    have hrefused : ∀ S, ¬ MayLand queue S mine := by
      rintro S ⟨-, ⟨h, -⟩, -⟩
      rw [heligible] at h
      cases h
    exact ⟨fun _ => .ineligible heligible, fun _ =>
      ⟨fun h => absurd h (hrefused _), fun h => absurd h (hrefused _)⟩⟩

/-! ### The gate of the batch merge -/

/-- The error is none of a ticket that has to wait in the queue. -/
def HubError.NotAboutQueue : HubError → Prop
  | .pending .notQueueHead _ _ => False
  | .pending .targetQuietWait _ _ => False
  | _ => True

/-- A result that does not say that the queue's head blocks the task. -/
def LandingRound.NotBlocked : LandingRound → Prop
  | .failed result => result.reason ≠ some .queueHeadBlocked
  | _ => True

section
variable {git : Git}

theorem ends_reads {α : Type} {E : HubError → Prop} (f : HubWorld → α) :
    (Prog.reads f : Hub α).Ends (fun _ => True) E :=
  fun _ => trivial

/-- The errors that carry no landing kind are in `E`. -/
structure PlainErrors (E : HubError → Prop) : Prop where
  error : ∀ message, E (.error message)
  git : ∀ command, E (.git command)

theorem plainErrors_notAboutQueue : PlainErrors HubError.NotAboutQueue where
  error _ := trivial
  git _ := trivial

theorem ends_revParse {E : HubError → Prop} (hE : PlainErrors E) (ref : String)
    (read : HubWorld → Option Oid) : (revParse ref read).Ends (fun _ => True) E := by
  intro s
  dsimp only
  split
  · trivial
  · exact hE.git _

theorem ends_of_makes {α : Type} {P : HubWorld → HubWorld → Prop} {E : HubError → Prop}
    {p : Hub α} (h : p.Makes P) : p.Ends (fun _ => True) E := by
  induction p with
  | ret a => trivial
  | raise e => cases h
  | act upd next ih => exact fun s => ih s (h s).2

theorem ends_toTargetLandedCommit {E : HubError → Prop} (policy : HubLandingPolicy)
    (input : CommitHubLandingTargetInput) (fenceOid receiptOid publishTargetOid : Oid) :
    (toTargetLandedCommit policy input fenceOid receiptOid publishTargetOid).Ends
      (fun _ => True) E := by
  refine Prog.ends_bind (ends_of_makes (appendHubLandingCheckpoint_writes _)) fun _ _ => ?_
  refine Prog.ends_bind (ends_of_makes (enqueueHubCheckoutProjection_writes _ _ _ _)) fun _ _ => ?_
  trivial

theorem ends_assertVerifiedCandidate {E : HubError → Prop} (hE : PlainErrors E)
    (candidate : HubLandingCandidate) (fingerprint : String) :
    (assertVerifiedCandidate candidate fingerprint).Ends (fun _ => True) E := by
  refine Prog.ends_bind (ends_reads _) fun artifact _ => ?_
  cases artifact with
  | none => exact hE.error _
  | some a =>
    dsimp only
    by_cases hcand : a.candidateOid = candidate.candidateOid <;>
      by_cases hfp : a.verifierFingerprint = fingerprint <;>
      by_cases hexit : a.exitCode = 0 <;> simp [hcand, hfp, hexit, hE.error]

theorem ends_commitExistingReceipt {E : HubError → Prop} (hE : PlainErrors E)
    (policy : HubLandingPolicy) (input : CommitHubLandingTargetInput)
    (existing : HubStoredReceipt) :
    (commitExistingReceipt git policy input existing).Ends (fun _ => True) E := by
  unfold commitExistingReceipt
  by_cases hcand : existing.receipt.candidateOid = input.candidate.candidateOid
  · simp only [hcand, ne_eq, not_true_eq_false, if_false, Prog.bind_eq]
    refine Prog.ends_bind (ends_reads _) fun fenceOid _ => ?_
    refine Prog.ends_bind (ends_revParse hE _ _) fun target _ => ?_
    refine Prog.ends_bind (ends_reads _) fun inAncestry _ => ?_
    cases inAncestry with
    | false => exact hE.error _
    | true => exact ends_toTargetLandedCommit policy input _ _ _
  · simp [hcand, hE.error]

theorem ends_recoverFailedLandingCas (policy : HubLandingPolicy)
    (input : CommitHubLandingTargetInput) (oids : HubLandingOidEvidence) :
    (recoverFailedLandingCas policy input oids).Ends (fun _ => True) HubError.NotAboutQueue := by
  refine Prog.ends_bind (ends_reads _) fun raced _ => ?_
  split
  · refine Prog.ends_bind (ends_revParse plainErrors_notAboutQueue _ _) fun target _ => ?_
    refine Prog.ends_bind (ends_reads _) fun fence _ => ?_
    exact ends_toTargetLandedCommit policy input _ _ _
  · refine Prog.ends_bind (ends_reads _) fun target _ => ?_
    refine Prog.ends_bind (ends_reads _) fun fence _ => ?_
    show HubError.NotAboutQueue (failedLandingCasError _ _)
    unfold failedLandingCasError staleOwnerError targetDriftError
    split
    · trivial
    · split <;> trivial

theorem ends_throwIfPinnedLandingOidsMismatch (candidate : HubLandingCandidate)
    (oids : HubLandingOidEvidence) :
    (throwIfPinnedLandingOidsMismatch candidate oids).Ends (fun _ => True)
      HubError.NotAboutQueue := by
  unfold throwIfPinnedLandingOidsMismatch
  by_cases htarget : oids.observedTargetOid = oids.expectedTargetOid <;>
    by_cases hfence : oids.observedFenceOid = oids.expectedFenceOid <;>
    simp [htarget, hfence, targetDriftError, staleOwnerError, HubError.NotAboutQueue]

theorem ends_commitHubLandingTarget (policy : HubLandingPolicy)
    (input : CommitHubLandingTargetInput) :
    (commitHubLandingTarget git policy input).Ends (fun _ => True) HubError.NotAboutQueue := by
  refine Prog.ends_bind (ends_assertVerifiedCandidate plainErrors_notAboutQueue _ _) fun _ _ => ?_
  refine Prog.ends_bind (ends_reads _) fun existing _ => ?_
  cases existing with
  | some existing => exact ends_commitExistingReceipt plainErrors_notAboutQueue policy input existing
  | none =>
    refine Prog.ends_bind (ends_revParse plainErrors_notAboutQueue _ _) fun observedTargetOid _ => ?_
    refine Prog.ends_bind (ends_revParse plainErrors_notAboutQueue _ _) fun observedFenceOid _ => ?_
    refine Prog.ends_bind (ends_throwIfPinnedLandingOidsMismatch _ _) fun _ _ => ?_
    refine Prog.ends_bind (ends_reads _) fun bootId _ => ?_
    refine Prog.ends_bind (Q := fun _ => True) (fun _ => trivial) fun passed _ => ?_
    cases passed with
    | true => exact ends_toTargetLandedCommit policy input _ _ _
    | false => exact ends_recoverFailedLandingCas policy input _

/-- The result of an attempt is not about the queue. -/
def HubLandingAttemptResult.NotAboutQueue (attempt : HubLandingAttemptResult) : Prop :=
  ∀ message, attempt.kind ≠ .pending .notQueueHead message ∧
    attempt.kind ≠ .pending .targetQuietWait message

theorem ends_commitCandidateWithLease (policy : HubLandingPolicy) (input : LandHubCandidateInput)
    (lease : Option HubLandingLease) :
    (commitCandidateWithLease git policy input lease).Ends
      HubLandingAttemptResult.NotAboutQueue HubError.NotAboutQueue := by
  refine Prog.ends_bind (ends_commitHubLandingTarget policy _) fun commit _ => ?_
  exact fun message => ⟨nofun, nofun⟩

theorem ends_landUnderLease (policy : HubLandingPolicy) (input : LandHubCandidateInput)
    (lease : HubLandingLease) :
    (landUnderLease git policy input lease).Ends
      HubLandingAttemptResult.NotAboutQueue HubError.NotAboutQueue := by
  refine Prog.ends_bind (ends_reads _) fun currentLease _ => ?_
  split
  · exact fun message => ⟨nofun, nofun⟩
  split
  · exact fun message => ⟨nofun, nofun⟩
  · refine Prog.ends_tryCatch (ends_commitCandidateWithLease policy input _) fun e he => ?_
    cases e with
    | pending kind message oids =>
      intro message'
      constructor
      · intro h
        cases h
        exact he
      · intro h
        cases h
        exact he
    | error message => trivial
    | git command => trivial
    | worktree transactionId message => trivial

theorem ends_leaseForLanding (input : LandHubCandidateInput) :
    (leaseForLanding input).Ends (fun _ => True) HubError.NotAboutQueue := by
  unfold leaseForLanding
  cases input.lease with
  | some lease => trivial
  | none =>
    refine Prog.ends_bind (ends_reads _) fun identity _ => ?_
    refine Prog.ends_bind (ends_revParse plainErrors_notAboutQueue _ _) fun target _ => ?_
    refine Prog.ends_bind (ends_revParse plainErrors_notAboutQueue _ _) fun fence _ => ?_
    refine Prog.ends_bind (ends_reads _) fun holder _ => ?_
    cases holder with
    | some owner => trivial
    | none =>
      refine Prog.ends_bind (Q := fun _ => True) (fun _ => trivial) fun _ _ => ?_
      refine Prog.ends_bind (ends_reads _) fun confirmed _ => ?_
      split <;> trivial

theorem ends_releaseHubLandingLease {E : HubError → Prop} (ownerNonce : Option String) :
    (releaseHubLandingLease ownerNonce).Ends (fun _ => True) E := by
  refine Prog.ends_bind (ends_reads _) fun current _ => ?_
  cases current with
  | none => trivial
  | some lease =>
    dsimp only
    split
    · trivial
    · exact fun _ => trivial

/-- No landing attempt says that its ticket has to wait in the queue. Only the gate and the
loop of the caller do. -/
theorem ends_landHubCandidateWithLease (policy : HubLandingPolicy)
    (input : LandHubCandidateInput) :
    (landHubCandidateWithLease git policy input).Ends
      HubLandingAttemptResult.NotAboutQueue HubError.NotAboutQueue := by
  refine Prog.ends_bind (ends_reads _) fun existing _ => ?_
  split
  · exact ends_commitCandidateWithLease policy input _
  · refine Prog.ends_bind (ends_leaseForLanding input) fun acquired _ => ?_
    cases acquired with
    | pendingContention owner oids message => exact fun message' => ⟨nofun, nofun⟩
    | acquired lease =>
      exact Prog.ends_finallyDo (ends_landUnderLease policy input lease)
        (ends_releaseHubLandingLease _)

theorem ends_failLandedCandidate (session : MergeTaskSession) (candidate : HubLandingCandidate)
    (e : HubError) :
    (failLandedCandidate session candidate e).Ends (fun result => result.reason = none)
      (fun _ => True) := by
  refine Prog.ends_bind (Prog.ends_true _) fun _ _ => ?_
  split <;> rfl

/-- The outcome is no verified candidate only with the reason of a failed verification. -/
def VerifyOutcome.FailsAsVerification : VerifyOutcome → Prop
  | .verified _ => True
  | .failed result => result.reason = some .verificationFailed

/-- The verification ends with a verified candidate, or with the result of
`exhaustVerificationRepair`. -/
theorem ends_repairLoop {Q : VerifyOutcome → Prop} (session : MergeTaskSession)
    (hverified : ∀ candidate, Q (.verified candidate))
    (hfailed : ∀ candidate message, Q (.failed (session.result .verificationFailed
      (some candidate) (some message) (some .verificationFailed))))
    (passes : Nat) (candidate : HubLandingCandidate) (failure : Option String) :
    (repairLoop git session passes candidate failure).Ends Q (fun _ => True) := by
  have hexhaust : ∀ candidate message,
      (exhaustVerificationRepair session candidate message).Ends Q (fun _ => True) :=
    fun candidate message => Prog.ends_bind (Prog.ends_true _) fun _ _ => hfailed candidate message
  induction passes generalizing candidate failure with
  | zero =>
    cases failure with
    | none => exact hverified candidate
    | some message => exact hexhaust candidate message
  | succ passes ih =>
    cases failure with
    | none => exact hverified candidate
    | some message =>
      refine Prog.ends_bind (ends_reads _) fun remaining _ => ?_
      split
      · refine Prog.ends_bind (Prog.ends_true _) fun _ _ => ?_
        refine Prog.ends_bind (Prog.ends_true _) fun repaired _ => ?_
        cases repaired with
        | some _ => exact ih candidate _
        | none =>
          refine Prog.ends_bind (Prog.ends_true _) fun snapshot _ => ?_
          exact Prog.ends_bind (Prog.ends_true _) fun failure _ => ih snapshot failure
      · exact hexhaust candidate message

theorem ends_verifyWithBoundedRepair {Q : VerifyOutcome → Prop} (session : MergeTaskSession)
    (hverified : ∀ candidate, Q (.verified candidate))
    (hfailed : ∀ candidate message, Q (.failed (session.result .verificationFailed
      (some candidate) (some message) (some .verificationFailed))))
    (candidate : HubLandingCandidate) :
    (verifyWithBoundedRepair git session candidate).Ends Q (fun _ => True) :=
  Prog.ends_bind (Prog.ends_true _) fun _ _ => ends_repairLoop session hverified hfailed _ _ _

theorem ends_settleTargetDrift (session : MergeTaskSession) (predecessorOid : Option Oid)
    (candidate : HubLandingCandidate) (observedTargetOid : Oid) (fingerprint : String) :
    (settleTargetDrift git session predecessorOid candidate observedTargetOid fingerprint).Ends
      LandingRound.NotBlocked (fun _ => True) := by
  refine Prog.ends_bind (Prog.ends_true _) fun quiet _ => ?_
  split
  · refine Prog.ends_bind (Prog.ends_true _) fun _ _ => ?_
    exact fun h => nomatch h
  refine Prog.ends_bind (Prog.ends_true _) fun _ _ => ?_
  refine Prog.ends_bind (Prog.ends_true _) fun _ _ => ?_
  refine Prog.ends_bind (Prog.ends_true _) fun _ _ => ?_
  refine Prog.ends_bind (Prog.ends_true _) fun rebuilt _ => ?_
  cases rebuilt with
  | error e =>
    refine Prog.ends_bind (ends_failLandedCandidate session candidate e) fun result hresult => ?_
    show result.reason ≠ some .queueHeadBlocked
    rw [hresult]
    exact fun h => nomatch h
  | ok rebuilt =>
    refine Prog.ends_bind (Q := VerifyOutcome.FailsAsVerification) ?_ fun outcome houtcome => ?_
    · exact ends_verifyWithBoundedRepair session (fun _ => trivial) (fun _ _ => rfl) rebuilt
    · cases outcome with
      | verified verified => exact Prog.ends_bind (Prog.ends_true _) fun _ _ => trivial
      | failed result =>
        show result.reason ≠ some .queueHeadBlocked
        rw [show result.reason = some .verificationFailed from houtcome]
        exact fun h => nomatch h

theorem ends_settleAttempt (session : MergeTaskSession) (predecessorOid : Option Oid)
    (candidate : HubLandingCandidate) (fingerprint : String) (attempt : HubLandingAttemptResult)
    (h : attempt.NotAboutQueue) :
    (settleAttempt git session predecessorOid candidate fingerprint attempt).Ends
      LandingRound.NotBlocked (fun _ => True) := by
  unfold settleAttempt
  split
  · refine Prog.ends_bind (Prog.ends_true _) fun _ _ => ?_
    exact Prog.ends_bind (Prog.ends_true _) fun _ _ => trivial
  · exact Prog.ends_bind (Prog.ends_true _) fun _ _ h => nomatch h
  · exact Prog.ends_bind (Prog.ends_true _) fun _ _ h => nomatch h
  · rename_i message hkind
    exact absurd hkind (h message).1
  · exact fun h => nomatch h
  · exact ends_settleTargetDrift session predecessorOid candidate _ fingerprint

theorem ends_landingAttempt (session : MergeTaskSession) (predecessorOid : Option Oid)
    (fingerprint : String) (candidate : HubLandingCandidate) :
    (landingAttempt git session predecessorOid fingerprint candidate).Ends
      LandingRound.NotBlocked (fun _ => True) := by
  refine Prog.ends_bind (Q := fun attempt => ∀ a, attempt = .ok a → a.NotAboutQueue)
    ?_ fun attempt hattempt => ?_
  · refine Prog.ends_tryCatch (R := HubError.NotAboutQueue) ?_ fun e _ a h => nomatch h
    refine Prog.ends_bind (Q := HubLandingAttemptResult.NotAboutQueue) ?_ ?_
    · refine Prog.ends_bind (ends_reads _) fun parts _ => ?_
      exact ends_landHubCandidateWithLease _ _
    · intro attempt h a heq
      cases heq
      exact h
  · cases attempt with
    | ok attempt => exact ends_settleAttempt session _ candidate _ attempt (hattempt attempt rfl)
    | error e =>
      refine Prog.ends_bind (ends_failLandedCandidate session candidate e) fun result hresult => ?_
      show result.reason ≠ some .queueHeadBlocked
      rw [hresult]
      exact fun h => nomatch h

end

/-- The pass of the landing loop of `finalizeLandedCandidate` that begins in the state lets the
candidate land: it is not turned away because of the queue's head. -/
def LetsLand (git : Git) (session : MergeTaskSession) (predecessorOid : Option Oid)
    (fingerprint : String) (candidate : HubLandingCandidate) (s : HubWorld) : Prop :=
  ∀ result t, (landingRound git session predecessorOid fingerprint candidate).run s =
    (.ok (.failed result), t) → result.reason ≠ some .queueHeadBlocked

/-- A pass lets the candidate land exactly when the gate, asked without a shipped set,
admits its ticket. -/
theorem letsLand_iff {git : Git} {session : MergeTaskSession} {predecessorOid : Option Oid}
    {fingerprint : String} {candidate : HubLandingCandidate} {s : HubWorld} :
    LetsLand git session predecessorOid fingerprint candidate s ↔
      mayLand s.queue session.task.id none = true := by
  have hrun : (landingRound git session predecessorOid fingerprint candidate).run s =
      if mayLand s.queue session.task.id none then
        (landingAttempt git session predecessorOid fingerprint candidate).run s
      else
        (.ok (queueHeadBlocked session candidate (queueHeadBlockedMessage session.task.id)), s) := by
    show Prog.run (if mayLand s.queue session.task.id none then _ else _) s = _
    split <;> rfl
  unfold LetsLand
  rw [hrun]
  constructor
  · intro h
    by_contra hgate
    rw [if_neg hgate] at h
    exact h _ s rfl rfl
  · intro hgate result t h
    rw [if_pos hgate] at h
    exact (ends_landingAttempt session predecessorOid fingerprint candidate).run_ok h

/-- Take a task whose blockers are shipped, in any state with a well-formed queue. The pass of
`finalizeLandedCandidate` that begins there lets the task's candidate land exactly when it may
land by the true shipped set, if and only if `GateAgrees` holds. -/
theorem letsLand_agrees_iff (git : Git) (session : MergeTaskSession)
    (predecessorOid : Option Oid) (fingerprint : String) (candidate : HubLandingCandidate)
    {s : HubWorld} {q : HubLandingQueueState} (hq : s.queue = some q) (hwf : q.Wf)
    {mine : HubLandingQueueTicket} (hmine : q.findTicket session.task.id = some mine)
    {shipped : TaskId → Bool} (hshipped : ∀ b ∈ mine.blockerTaskIds, shipped b = true) :
    (LetsLand git session predecessorOid fingerprint candidate s ↔ MayLand q shipped mine) ↔
      GateAgrees q shipped mine := by
  obtain ⟨hmem, htask⟩ := findTicket_some hmine
  have hgate : mayLand s.queue session.task.id none = true ↔ MayLand q (fun _ => false) mine := by
    rw [hq, ← htask]
    exact mayLand_iff hwf hmem none
  rw [letsLand_iff, hgate]
  exact mayLand_none_agrees_iff hshipped

/-! ### Two tickets that may land -/

def sampleTicket (taskId : TaskId) (sequence : Nat) (status : HubLandingTicketStatus)
    (blockerTaskIds : List TaskId := []) : HubLandingQueueTicket where
  ticketId := resolveTicketId taskId sequence
  sequence := sequence
  taskId := taskId
  assignedAt := 0
  status := status
  blockerTaskIds := blockerTaskIds

/-- A batch with the task `b`, whose blocker `a` is done. Its merge appends to the history,
and its verifier passes. -/
def sampleBatch : RunHubBatchMergeInput where
  board :=
    [{ id := "a", hubStatus := .done }, { id := "b", blockers := ["a"], claimBranch := "task" }]
  selectedTasks := [{ id := "b", blockers := ["a"], claimBranch := "task" }]
  merge := fun _ _ w => ({ w with head := w.head ++ "b" }, none)
  verifier := fun _ w => (w, none)

def sampleBatchWorld : HubWorld where
  head := some "a"
  branches := fun branch => if branch = "main" then some "a" else some "b"
  publishTarget := some "a"
  fence := some "fence"

def sampleSession : MergeTaskSession where
  input := sampleBatch
  task := { id := "b", blockers := ["a"], claimBranch := "task" }
  policy := { hostTargetBranch := "main", publishPolicy := .off }

def sampleTaskCandidate : HubLandingCandidate where
  transactionId := "tx"
  taskId := "b"
  branch := "task"
  sourceOid := "b"
  baseOid := "a"
  candidateOid := "ab"

def sampleFreeTicket : HubLandingQueueTicket := sampleTicket "b" 1 .verified

def sampleBlockedTicket : HubLandingQueueTicket :=
  { sampleTicket "b" 1 .verified ["a"] with
    sourceOid := some "b", predecessorOid := some "a", candidateOid := some "ab"
    transactionId := some "ltx-b-b\x00b\x00a" }

theorem mayLand_alone {t : HubLandingQueueTicket} {n : Nat} {shipped : TaskId → Bool}
    (h : Ready shipped t) : MayLand ⟨n, [t]⟩ shipped t := by
  refine ⟨?_, h, ?_⟩
  · rintro ⟨u, hu, hlt, -⟩
    rw [List.mem_singleton.mp hu] at hlt
    omega
  · intro u hu _
    rw [List.mem_singleton.mp hu]

/-- A ticket without blockers is alone in the queue: its candidate is let through. -/
theorem letsLand_agrees_iff_sample :
    LetsLand sampleGit sampleSession none "verifier" sampleTaskCandidate
      { sampleBatchWorld with queue := some ⟨2, [sampleFreeTicket]⟩ } := by
  have hwf : HubLandingQueueState.Wf ⟨2, [sampleFreeTicket]⟩ :=
    { tasks := List.pairwise_singleton _ _
      sequences := List.pairwise_singleton _ _
      fresh := by simp [sampleFreeTicket, sampleTicket]
      ids := by simp [sampleFreeTicket, sampleTicket] }
  have hready : Ready (fun taskId => taskId == "a") sampleFreeTicket := ⟨rfl, fun _ h => nomatch h⟩
  have hagrees : GateAgrees ⟨2, [sampleFreeTicket]⟩ (fun taskId => taskId == "a")
      sampleFreeTicket := by
    refine .free rfl ?_
    rintro ⟨t, ht, hlt, -⟩
    rw [List.mem_singleton.mp ht] at hlt
    omega
  have h := letsLand_agrees_iff sampleGit sampleSession none "verifier" sampleTaskCandidate
    (s := { sampleBatchWorld with queue := some ⟨2, [sampleFreeTicket]⟩ }) rfl hwf rfl hready.2
  exact (h.mpr hagrees).mpr (mayLand_alone hready)

/-- The batch refuses its only task, whose only blocker is shipped: nothing precedes the
ticket, and it may land. -/
theorem shippedBlocker_refused :
    ∃ results t, (runHubBatchMerge sampleGit sampleBatch).run sampleBatchWorld =
        (.ok results, t) ∧
      results.map (·.reason) = [some .queueHeadBlocked] ∧
      t.queue = some ⟨2, [sampleBlockedTicket]⟩ ∧
      MayLand ⟨2, [sampleBlockedTicket]⟩ (fun taskId => taskId == "a") sampleBlockedTicket := by
  refine ⟨_, _, rfl, rfl, rfl, mayLand_alone ⟨rfl, ?_⟩⟩
  simp [sampleBlockedTicket, sampleTicket]

end ArchLoop
