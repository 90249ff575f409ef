import ArchLoop.Proofs.QueueFrames

/-!
# `ArchLoop.Proofs.TicketStatus`: the ticket and the outcome of a merged task

`processMergeTask` reports an outcome and leaves the ticket of its task in some status. The
two agree (`TicketAgrees`) when the ticket has failed exactly for a semantic failure, which
then is not the queue's head, and when a pending task keeps an eligible ticket with its
sequence.

The code marks the ticket as failed in two places: after a merge that brought no candidate,
whatever its error, and after the first verification. Once the ticket is marked verified,
nothing fails it any more. So there are two ways to disagree, and `ticketDisagrees` looks for
them: the merge ends with a transient error, or a pass of the landing loop ends the task with
a failure (`passFails`). `processMergeTask_ticket_iff` proves that there are no others.

The proof follows the run. Between the queue operations the ticket stays as it is
(`QueueFrames`), and `updateTicket_ticketOf` says what each of them leaves. From the step
lemma `landingRound_place`, `landingLoop_place` follows by induction on the passes.
-/

set_option autoImplicit false

namespace ArchLoop

open ArchLoop.Lib

/-! ### The ticket of a task over the queue operations -/

def HubWorld.ticketOf (s : HubWorld) (taskId : TaskId) : Option HubLandingQueueTicket :=
  s.queue.bind fun q => q.findTicket taskId

section
variable {s t : HubWorld} {taskId : TaskId} {mine : HubLandingQueueTicket}

theorem ticketOf_of_queue (h : t.queue = s.queue) : t.ticketOf taskId = s.ticketOf taskId := by
  rw [HubWorld.ticketOf, h]
  rfl

theorem ticketOf_of_run {α : Type} {p : Hub α} (hp : p.Keeps HubWorld.queue)
    {result : Except HubError α} (hrun : p.run s = (result, t)) :
    t.ticketOf taskId = s.ticketOf taskId :=
  ticketOf_of_queue (hp.of_run hrun)

theorem findTicket_replaceTicket {q : HubLandingQueueState} {ticket : HubLandingQueueTicket}
    (hmine : q.findTicket taskId = some mine) (hsame : SameTicket ticket mine) :
    (q.replaceTicket ticket).findTicket taskId = some ticket := by
  obtain ⟨-, htask⟩ := findTicket_some hmine
  have htaskId : ticket.taskId = taskId := hsame.taskId.trans htask
  obtain ⟨next, tickets⟩ := q
  show (tickets.map _).find? _ = _
  replace hmine : tickets.find? (fun entry => entry.taskId == taskId) = some mine := hmine
  -- An entry in front of the task's own may carry its ticket id. It is replaced as well.
  induction tickets with
  | nil => exact nomatch hmine
  | cons entry rest ih =>
    by_cases hid : entry.ticketId = ticket.ticketId
    · simp [hid, htaskId]
    · have hne : entry.taskId ≠ taskId := by
        intro heq
        rw [List.find?_cons_of_pos (by simpa using heq), Option.some.injEq] at hmine
        exact hid (by rw [hmine, hsame.ticketId])
      rw [List.find?_cons_of_neg (by simpa using hne)] at hmine
      rw [List.map_cons, if_neg hid, List.find?_cons_of_neg (by simpa using hne)]
      exact ih hmine

theorem returns_updateTicket {patch : HubLandingQueueTicket → HubLandingQueueTicket}
    (hkeeps : KeepsIdentity patch) (hmine : s.ticketOf taskId = some mine) :
    (updateTicket taskId patch).Returns s fun _ t => t.ticketOf taskId = some (patch mine) := by
  obtain ⟨q, hq, hfind⟩ := Option.bind_eq_some_iff.mp hmine
  have hpatch : s.queue.bind (fun q => q.patchTicket taskId patch) =
      some (q.replaceTicket (patch mine), patch mine) := by
    rw [hq, Option.bind_some, HubLandingQueueState.patchTicket, hfind, Option.map_some]
  refine ⟨some (patch mine), { s with queue := some (q.replaceTicket (patch mine)) }, ?_, ?_⟩
  · simp only [updateTicket, readHubLandingQueue, Prog.bind_eq, Prog.run_bind, Prog.run_reads,
      hpatch]
    rfl
  · exact findTicket_replaceTicket hfind (hkeeps mine)

theorem keepsIdentity_withStatus (status : HubLandingTicketStatus) :
    KeepsIdentity (withStatus status) := fun _ => ⟨rfl, rfl, rfl⟩

theorem keepsIdentity_settled (status : HubLandingTicketStatus) :
    KeepsIdentity (settled status) := fun _ => ⟨rfl, rfl, rfl⟩

theorem makes_removeArtifacts (tickets : List HubLandingQueueTicket) :
    (removeArtifacts tickets).Makes fun _ _ => True := by
  induction tickets with
  | nil => exact Prog.makes_ret ()
  | cons ticket rest ih =>
    unfold removeArtifacts
    cases ticket.transactionId with
    | none => exact ih
    | some transactionId =>
      exact Prog.makes_bind (Prog.makes_modify.mpr fun _ => trivial) fun _ => ih

theorem returns_invalidateSuffix (reason : String) (now : Timestamp)
    (hmine : s.ticketOf taskId = some mine) :
    (invalidateHubLandingSpeculativeSuffix taskId reason now).Returns s
      fun _ t => t.ticketOf taskId = some mine := by
  obtain ⟨q, hq, hfind⟩ := Option.bind_eq_some_iff.mp hmine
  obtain ⟨_, u, hremove, -⟩ := (makes_removeArtifacts (q.tickets.filter (behindOrigin mine))).returns
    (fun _ => trivial) (fun _ _ _ _ _ => trivial) s
  refine ⟨(q.tickets.filter (behindOrigin mine)).map fun ticket =>
    invalidatedTicket ticket now reason,
    { u with queue := some (invalidateSuffix q mine now reason) }, ?_, ?_⟩
  · simp only [invalidateHubLandingSpeculativeSuffix, readHubLandingQueue, Prog.bind_eq,
      Prog.pure_eq, Prog.run_bind, Prog.run_reads, hq, hfind, hremove]
    rfl
  -- A ticket does not lie behind itself, and a withdrawn one still belongs to its task.
  show (q.tickets.map _).find? _ = _
  have hpred : (fun entry : HubLandingQueueTicket => entry.taskId == taskId) ∘
      (fun ticket => if behindOrigin mine ticket then invalidatedTicket ticket now reason
        else ticket) = fun entry => entry.taskId == taskId := by
    funext entry
    show ((if behindOrigin mine entry then _ else _ : HubLandingQueueTicket).taskId == _) = _
    split <;> rfl
  rw [List.find?_map, hpred]
  show (q.findTicket taskId).map _ = _
  rw [hfind, Option.map_some, if_neg (by simp [behindOrigin])]

end

/-! ### Agreement -/

def HubBatchMergeOutcome.isSemanticFailure : HubBatchMergeOutcome → Bool
  | .mergeFailed | .verificationFailed => true
  | .merged | .pending | .pendingDelivery | .closeFailed | .skipped => false

/-- The world `t` after a task with the ticket `mine` ended with the outcome: its ticket has
failed exactly for a semantic failure, which does not stay the head of the queue, and a pending
task keeps an eligible ticket with its sequence. -/
def TicketAgrees (mine : HubLandingQueueTicket) (outcome : HubBatchMergeOutcome)
    (t : HubWorld) : Prop :=
  ∃ ticket, t.ticketOf mine.taskId = some ticket ∧
    (ticket.status = .failed ↔ outcome.isSemanticFailure = true) ∧
    (outcome.isSemanticFailure = true →
      ∀ shipped, resolveHubLandingQueueHead t.queue shipped ≠ some ticket) ∧
    (outcome = .pending → ticket.status.eligible = true ∧ ticket.sequence = mine.sequence)

/-- The ticket of the task is eligible and has the sequence. -/
def InPlace (taskId : TaskId) (sequence : Nat) (s : HubWorld) : Prop :=
  ∃ ticket, s.ticketOf taskId = some ticket ∧ ticket.status.eligible = true ∧
    ticket.sequence = sequence

theorem InPlace.of_ticketOf {taskId : TaskId} {n : Nat} {s t : HubWorld}
    (hs : InPlace taskId n s) (h : t.ticketOf taskId = s.ticketOf taskId) : InPlace taskId n t := by
  obtain ⟨ticket, hticket, hplace⟩ := hs
  exact ⟨ticket, h.trans hticket, hplace⟩

theorem eligible_of_head {queue : Option HubLandingQueueState} {shipped : TaskId → Bool}
    {ticket : HubLandingQueueTicket}
    (h : resolveHubLandingQueueHead queue shipped = some ticket) :
    ticket.status.eligible = true := by
  cases queue with
  | none => exact nomatch h
  | some q => exact (resolveHubLandingQueueHead_some h).2.1.1

section
variable {mine : HubLandingQueueTicket} {outcome : HubBatchMergeOutcome} {t : HubWorld}

/-- A task whose ticket is in its place agrees with the outcome pending, and with no
failure. -/
theorem InPlace.agrees_iff (h : InPlace mine.taskId mine.sequence t)
    (houtcome : outcome = .pending ∨ outcome.isSemanticFailure = true) :
    TicketAgrees mine outcome t ↔ outcome = .pending := by
  obtain ⟨ticket, hticket, heligible, hsequence⟩ := h
  have hnot : ticket.status ≠ .failed := by
    intro hfailed
    rw [hfailed] at heligible
    exact nomatch heligible
  constructor
  · rintro ⟨ticket', hticket', hfailed, -⟩
    obtain rfl : ticket = ticket' := Option.some.inj (hticket.symm.trans hticket')
    rcases houtcome with hpending | hsemantic
    · exact hpending
    · exact absurd (hfailed.mpr hsemantic) hnot
  · rintro rfl
    refine ⟨ticket, hticket, ⟨fun hfailed => absurd hfailed hnot, fun h => nomatch h⟩, ?_, ?_⟩
    · exact fun h => nomatch h
    · exact fun _ => ⟨heligible, hsequence⟩

theorem ticketAgrees_failed_iff {ticket : HubLandingQueueTicket}
    (hticket : t.ticketOf mine.taskId = some ticket) (hfailed : ticket.status = .failed) :
    TicketAgrees mine outcome t ↔ outcome.isSemanticFailure = true := by
  constructor
  · rintro ⟨ticket', hticket', hiff, -⟩
    obtain rfl : ticket = ticket' := Option.some.inj (hticket.symm.trans hticket')
    exact hiff.mp hfailed
  · intro hsemantic
    refine ⟨ticket, hticket, iff_of_true hfailed hsemantic, ?_, ?_⟩
    · intro _ shipped hhead
      have heligible := eligible_of_head hhead
      rw [hfailed] at heligible
      exact nomatch heligible
    · rintro rfl
      exact nomatch hsemantic

theorem ticketAgrees_landed {ticket : HubLandingQueueTicket}
    (hticket : t.ticketOf mine.taskId = some ticket) (hstatus : ticket.status ≠ .failed)
    (houtcome : outcome ≠ .pending ∧ outcome.isSemanticFailure = false) :
    TicketAgrees mine outcome t := by
  have hnot : ¬ outcome.isSemanticFailure = true := by simp [houtcome.2]
  exact ⟨ticket, hticket, iff_of_false hstatus hnot, fun h => absurd h hnot,
    fun h => absurd h houtcome.1⟩

end

/-! ### Where ticket and outcome part -/

section
variable (git : Git) (session : MergeTaskSession) (predecessorOid : Option Oid)

/-- Rebuilding the candidate after a drift ends the task with a failure: the rebuild throws an
error that is not transient, or the rebuilt candidate uses up its repairs. -/
def rebuildFails (candidate : HubLandingCandidate) (s : HubWorld) : Bool :=
  match (rebuildCandidate git session predecessorOid candidate).run
      ((invalidateHubLandingCandidate candidate.transactionId).exec s) with
  | (.error e, _) => !isTransientHubLandingError e
  | (.ok rebuilt, t) =>
    match (verifyWithBoundedRepair git session rebuilt).run t with
    | (.ok (.failed _), _) => true
    | _ => false

/-- What a drift does to the queue before the rebuild. -/
def withdrawDrifted (observedTargetOid : Oid) : Hub Unit := do
  let _ticket ← recordHubLandingDriftRebuild session.task.id observedTargetOid
    session.input.call.now
  let _invalidated ← invalidateHubLandingSpeculativeSuffix session.task.id "target_drift"
    session.input.call.now
  return ()

/-- The ticket has drifted too often for another rebuild. -/
def driftLimitReached (s : HubWorld) : Bool :=
  decide (((s.ticketOf session.task.id).map (·.activationDriftRebuilds)).getD 0 ≥
    HUB_LANDING_TARGET_DRIFT_REBUILD_LIMIT)

/-- A pass of the landing loop ends the task with a failure: the landing attempt throws an
error that is not transient, or it finds a drift and the rebuild fails. -/
def passFails (candidate : HubLandingCandidate) (s : HubWorld) : Bool :=
  mayLand s.queue session.task.id none &&
    match (landWithLease git session candidate).run s with
    | (.error e, _) => !isTransientHubLandingError e
    | (.ok attempt, t) =>
      match attempt.kind with
      | .pending .targetDrift _ =>
        !driftLimitReached session t &&
          rebuildFails git session predecessorOid candidate
            ((withdrawDrifted session attempt.oids.observedTargetOid).exec t)
      | _ => false

/-- A pass among the next ones ends the task with a failure. -/
def landingFails (verifierFingerprint : String) : Nat → HubLandingCandidate → HubWorld → Bool
  | 0, _, _ => false
  | rounds + 1, candidate, s =>
    passFails git session predecessorOid candidate s ||
      match (landingRound git session predecessorOid verifierFingerprint candidate).run s with
      | (.ok (.rebuilt rebuilt), t) => landingFails verifierFingerprint rounds rebuilt t
      | _ => false

/-- What `landVerifiedTask` does before the landing. -/
def beginLanding (candidate : HubLandingCandidate) : Hub String := do
  let _ticket ← markHubLandingQueueVerified session.task.id
  let parts ← computeHubVerifierParts
  bindVerification git session candidate parts.verifierFingerprint
  return parts.verifierFingerprint

/-- Landing a verified candidate ends the task with a failure. -/
def landVerifiedFails (candidate : HubLandingCandidate) (s : HubWorld) : Bool :=
  match (beginLanding git session candidate).run s with
  | (.ok verifierFingerprint, t) =>
    landingFails git session predecessorOid verifierFingerprint
      (HUB_LANDING_TARGET_DRIFT_REBUILD_LIMIT + 1) candidate t
  | (.error _, _) => false

/-- The task is one whose ticket and outcome part: its merge ends with a transient error, or
its first candidate is verified and the landing ends with a failure. -/
def ticketDisagrees (s : HubWorld) : Bool :=
  match (mergeTask git session predecessorOid).run s with
  | (.ok (.error e), _) => isTransientHubLandingError e
  | (.ok (.ok candidate), t) =>
    match (verifyWithBoundedRepair git session candidate).run
        ((recordHubLandingQueueCandidate candidate).exec t) with
    | (.ok (.verified verified), u) => landVerifiedFails git session predecessorOid verified u
    | _ => false
  | (.error _, _) => false

end

/-! ### The landing loop -/

section
variable {git : Git} {session : MergeTaskSession} {predecessorOid : Option Oid}

/-- What a pass of the landing loop leaves of a task, by whether it `fails`. -/
def LandingRound.Leaves (taskId : TaskId) (sequence : Nat) (fails : Bool) :
    LandingRound → HubWorld → Prop
  | .landed _, t => fails = false ∧ ∃ ticket, t.ticketOf taskId = some ticket ∧
      ticket.status = .landed
  | .failed result, t => InPlace taskId sequence t ∧
      if fails then result.outcome.isSemanticFailure = true else result.outcome = .pending
  | .rebuilt _, t => fails = false ∧ InPlace taskId sequence t

theorem failLandedCandidate_run {candidate : HubLandingCandidate} {e : HubError} {s t : HubWorld}
    {result : HubBatchMergeTaskResult}
    (hrun : (failLandedCandidate session candidate e).run s = (.ok result, t)) :
    t.queue = s.queue ∧
      if !isTransientHubLandingError e then result.outcome.isSemanticFailure = true
      else result.outcome = .pending := by
  obtain ⟨_, u, hclean, hrun⟩ := Prog.run_bind_eq_ok.mp hrun
  have hqueue : u.queue = s.queue := (cleanupQuietly_keeps_queue candidate).of_run hclean
  cases htransient : isTransientHubLandingError e with
  | true =>
    rw [if_pos htransient] at hrun
    cases hrun
    exact ⟨hqueue, rfl⟩
  | false =>
    rw [if_neg (by simp [htransient])] at hrun
    cases hrun
    exact ⟨hqueue, rfl⟩

theorem verifyFailed_outcome {candidate : HubLandingCandidate} {s t : HubWorld}
    {result : HubBatchMergeTaskResult}
    (hrun : (verifyWithBoundedRepair git session candidate).run s = (.ok (.failed result), t)) :
    result.outcome = .verificationFailed :=
  (ends_verifyWithBoundedRepair
    (Q := fun outcome => ∀ r, outcome = .failed r → r.outcome = .verificationFailed) session
    (by simp) (by simp [MergeTaskSession.result]) candidate).run_ok hrun result rfl

theorem returns_withdrawDrifted {observedTargetOid : Oid} {n : Nat} {s : HubWorld}
    (hplace : InPlace session.task.id n s) :
    (withdrawDrifted session observedTargetOid).Returns s
      fun _ t => InPlace session.task.id n t := by
  obtain ⟨mine, hmine, -, hsequence⟩ := hplace
  refine Prog.returns_bind (Prog.returns_reads_bind.mpr
    (returns_updateTicket (fun _ => ⟨rfl, rfl, rfl⟩) hmine)) fun _ t ht => ?_
  refine Prog.returns_bind (returns_invalidateSuffix _ _ ht) fun _ u hu => ?_
  exact Prog.returns_ret ⟨_, hu, rfl, hsequence⟩

theorem returns_enterQuietWait {observedTargetOid : Oid} {now : Timestamp} {n : Nat}
    {s : HubWorld} (hplace : InPlace session.task.id n s) :
    (enterHubLandingQuietWait session.task.id observedTargetOid now).Returns s
      fun _ t => InPlace session.task.id n t := by
  obtain ⟨mine, hmine, -, hsequence⟩ := hplace
  refine Prog.returns_mono (returns_updateTicket (fun _ => ⟨rfl, rfl, rfl⟩) hmine) fun _ t ht => ?_
  exact ⟨_, ht, rfl, hsequence⟩

/-- Step lemma for the rebuild after a drift. -/
theorem rebuildAfterTargetDrift_place {candidate : HubLandingCandidate} {fingerprint : String}
    {n : Nat} {s t : HubWorld} {round : LandingRound} (hplace : InPlace session.task.id n s)
    (hrun : (rebuildAfterTargetDrift git session predecessorOid candidate fingerprint).run s =
      (.ok round, t)) :
    round.Leaves session.task.id n (rebuildFails git session predecessorOid candidate s) t := by
  obtain ⟨_, s', hinvalidate, hrun⟩ := Prog.run_bind_eq_ok.mp hrun
  have hs' : InPlace session.task.id n s' :=
    hplace.of_ticketOf (ticketOf_of_run (invalidateHubLandingCandidate_keeps_queue _) hinvalidate)
  have hexec : (invalidateHubLandingCandidate candidate.transactionId).exec s = s' := by
    rw [Prog.exec, hinvalidate]
  unfold rebuildFails
  rw [hexec]
  cases hrebuild : (rebuildCandidate git session predecessorOid candidate).run s' with
  | mk attempted u =>
    have hu : InPlace session.task.id n u :=
      hs'.of_ticketOf (ticketOf_of_run (rebuildCandidate_keeps_queue _ _ _) hrebuild)
    rw [Prog.bind_eq, Prog.run_bind_ok (Prog.run_attempt _ s'), hrebuild] at hrun
    cases attempted with
    | error e =>
      obtain ⟨result, v, hfail, hrun⟩ := Prog.run_bind_eq_ok.mp hrun
      obtain ⟨hqueue, houtcome⟩ := failLandedCandidate_run hfail
      cases hrun
      exact ⟨hu.of_ticketOf (ticketOf_of_queue hqueue), houtcome⟩
    | ok rebuilt =>
      obtain ⟨outcome, v, hverify, hrun⟩ := Prog.run_bind_eq_ok.mp hrun
      have hv : InPlace session.task.id n v :=
        hu.of_ticketOf (ticketOf_of_run (verifyWithBoundedRepair_keeps_queue _ _) hverify)
      dsimp only
      rw [hverify]
      cases outcome with
      | failed result =>
        cases hrun
        refine ⟨hv, ?_⟩
        rw [if_pos rfl, verifyFailed_outcome hverify]
        rfl
      | verified verified =>
        obtain ⟨_, w, hbind, hrun⟩ := Prog.run_bind_eq_ok.mp hrun
        cases hrun
        exact ⟨rfl, hv.of_ticketOf (ticketOf_of_run (bindVerification_keeps_queue _ _ _) hbind)⟩

/-- Step lemma for a drift: the limit is looked at first. -/
theorem settleTargetDrift_place {candidate : HubLandingCandidate} {observedTargetOid : Oid}
    {fingerprint : String} {n : Nat} {s t : HubWorld} {round : LandingRound}
    (hplace : InPlace session.task.id n s)
    (hrun : (settleTargetDrift git session predecessorOid candidate observedTargetOid
      fingerprint).run s = (.ok round, t)) :
    round.Leaves session.task.id n (!driftLimitReached session s &&
      rebuildFails git session predecessorOid candidate
        ((withdrawDrifted session observedTargetOid).exec s)) t := by
  have hlimit : (shouldEnterHubLandingQuietWait session.task.id).run s =
      (.ok (driftLimitReached session s), s) := rfl
  unfold settleTargetDrift at hrun
  rw [Prog.bind_eq, Prog.run_bind_ok hlimit] at hrun
  cases hreached : driftLimitReached session s with
  | true =>
    rw [hreached, if_pos rfl] at hrun
    obtain ⟨_, u, henter, hrun⟩ := Prog.run_bind_eq_ok.mp hrun
    obtain ⟨_, -, hu⟩ := (returns_enterQuietWait hplace).of_run henter
    cases hrun
    exact ⟨hu, rfl⟩
  | false =>
    rw [hreached, if_neg (fun h => nomatch h)] at hrun
    have hsplit : ((withdrawDrifted session observedTargetOid).bind fun _ =>
        rebuildAfterTargetDrift git session predecessorOid candidate fingerprint).run s =
          (.ok round, t) := by
      rw [← hrun]
      simp only [withdrawDrifted, Prog.bind_eq, Prog.bind_assoc]
      rfl
    obtain ⟨_, u, hwithdraw, hrun⟩ := Prog.run_bind_eq_ok.mp hsplit
    obtain ⟨_, -, hu⟩ := (returns_withdrawDrifted hplace).of_run hwithdraw
    have hexec : (withdrawDrifted session observedTargetOid).exec s = u := by
      rw [Prog.exec, hwithdraw]
    rw [hexec]
    exact rebuildAfterTargetDrift_place hu hrun

/-- Step lemma for a landing attempt. -/
theorem landingAttempt_place {candidate : HubLandingCandidate} {fingerprint : String} {n : Nat}
    {s t : HubWorld} {round : LandingRound} (hplace : InPlace session.task.id n s)
    (hgate : mayLand s.queue session.task.id none = true)
    (hrun : (landingAttempt git session predecessorOid fingerprint candidate).run s =
      (.ok round, t)) :
    round.Leaves session.task.id n (passFails git session predecessorOid candidate s) t := by
  unfold passFails
  rw [hgate, Bool.true_and]
  cases hland : (landWithLease git session candidate).run s with
  | mk attempted u =>
    have hu : InPlace session.task.id n u :=
      hplace.of_ticketOf (ticketOf_of_run (landWithLease_keeps_queue _ _) hland)
    unfold landingAttempt at hrun
    rw [Prog.bind_eq, Prog.run_bind_ok (Prog.run_attempt _ s), hland] at hrun
    -- The candidate's worktree goes in several branches. The queue is not written there.
    have hclean : ∀ {result : Except HubError Unit} {v : HubWorld},
        (cleanupQuietly candidate).run u = (result, v) → InPlace session.task.id n v :=
      fun hrun => hu.of_ticketOf (ticketOf_of_run (cleanupQuietly_keeps_queue candidate) hrun)
    cases attempted with
    | error e =>
      obtain ⟨result, v, hfail, hrun⟩ := Prog.run_bind_eq_ok.mp hrun
      obtain ⟨hqueue, houtcome⟩ := failLandedCandidate_run hfail
      cases hrun
      exact ⟨hu.of_ticketOf (ticketOf_of_queue hqueue), houtcome⟩
    | ok attempt =>
      dsimp only at hrun ⊢
      unfold settleAttempt at hrun
      cases hkind : attempt.kind with
      | landed commit =>
        rw [hkind] at hrun
        obtain ⟨_, v, hcleaned, hrun⟩ := Prog.run_bind_eq_ok.mp hrun
        obtain ⟨_, w, hmark, hrun⟩ := Prog.run_bind_eq_ok.mp hrun
        obtain ⟨mine, hmine, -⟩ := hclean hcleaned
        obtain ⟨_, -, hw⟩ :=
          (returns_updateTicket (keepsIdentity_settled .landed) hmine).of_run hmark
        cases hrun
        exact ⟨rfl, _, hw, rfl⟩
      | pending kind message =>
        rw [hkind] at hrun
        cases kind with
        | pendingContention =>
          obtain ⟨_, v, hcleaned, hrun⟩ := Prog.run_bind_eq_ok.mp hrun
          cases hrun
          exact ⟨hclean hcleaned, rfl⟩
        | staleOwnerRejected =>
          obtain ⟨_, v, hcleaned, hrun⟩ := Prog.run_bind_eq_ok.mp hrun
          cases hrun
          exact ⟨hclean hcleaned, rfl⟩
        | notQueueHead =>
          cases hrun
          exact ⟨hu, rfl⟩
        | targetQuietWait =>
          cases hrun
          exact ⟨hu, rfl⟩
        | targetDrift => exact settleTargetDrift_place hu hrun

/-- Step lemma of the landing loop. -/
theorem landingRound_place {candidate : HubLandingCandidate} {fingerprint : String} {n : Nat}
    {s t : HubWorld} {round : LandingRound} (hplace : InPlace session.task.id n s)
    (hrun : (landingRound git session predecessorOid fingerprint candidate).run s =
      (.ok round, t)) :
    round.Leaves session.task.id n (passFails git session predecessorOid candidate s) t := by
  have hgate : (canLandHubLandingTicket session.task.id none).run s =
      (.ok (mayLand s.queue session.task.id none), s) := rfl
  unfold landingRound at hrun
  rw [Prog.bind_eq, Prog.run_bind_ok hgate] at hrun
  cases hopen : mayLand s.queue session.task.id none with
  | true =>
    rw [hopen, if_pos rfl] at hrun
    exact landingAttempt_place hplace hopen hrun
  | false =>
    rw [hopen, if_neg (fun h => nomatch h)] at hrun
    cases hrun
    refine ⟨hplace, ?_⟩
    rw [passFails, hopen]
    rfl

/-- What the landing loop leaves, by whether a pass `fails`. -/
def FinalizeLandingResult.Leaves (taskId : TaskId) (sequence : Nat) (fails : Bool) :
    FinalizeLandingResult → HubWorld → Prop
  | .landed _, t => fails = false ∧ ∃ ticket, t.ticketOf taskId = some ticket ∧
      ticket.status = .landed
  | .failed result, t => InPlace taskId sequence t ∧
      if fails then result.outcome.isSemanticFailure = true else result.outcome = .pending

/-- Run lemma of the landing loop, by induction on the passes that are left. -/
theorem landingLoop_place {fingerprint : String} {n : Nat} {rounds : Nat}
    {candidate : HubLandingCandidate} {s t : HubWorld} {final : FinalizeLandingResult}
    (hplace : InPlace session.task.id n s)
    (hrun : (landingLoop git session predecessorOid fingerprint rounds candidate).run s =
      (.ok final, t)) :
    final.Leaves session.task.id n
      (landingFails git session predecessorOid fingerprint rounds candidate s) t := by
  induction rounds generalizing candidate s with
  | zero => exact nomatch hrun
  | succ rounds ih =>
    obtain ⟨round, u, hround, hrun⟩ := Prog.run_bind_eq_ok.mp hrun
    have hleaves := landingRound_place hplace hround
    unfold landingFails
    rw [hround]
    cases round with
    | landed landed =>
      cases hrun
      obtain ⟨hfails, hticket⟩ := hleaves
      exact ⟨by rw [hfails]; rfl, hticket⟩
    | failed result =>
      cases hrun
      rw [Bool.or_false]
      exact hleaves
    | rebuilt rebuilt =>
      obtain ⟨hfails, hu⟩ := hleaves
      rw [hfails, Bool.false_or]
      exact ih hu hrun

/-! ### Closing -/

def NotFailed (taskId : TaskId) (s : HubWorld) : Prop :=
  ∃ ticket, s.ticketOf taskId = some ticket ∧ ticket.status ≠ .failed

/-- A program alone that keeps, wherever it ends, that the ticket has not failed. -/
abbrev KeepsTicket {α : Type} (taskId : TaskId) (p : Hub α) : Prop :=
  ∀ s, NotFailed taskId s → p.Sat (.alone (fun _ => True) fun _ _ => True)
    (fun _ => NotFailed taskId) (fun _ => NotFailed taskId) s

theorem keepsTicket_of_queue {α : Type} {taskId : TaskId} {p : Hub α}
    (hp : p.Keeps HubWorld.queue) : KeepsTicket taskId p := by
  intro s hs
  refine hp.sat_step ?_ hs
  rintro s _ t rfl - - ⟨ticket, hticket, hstatus⟩ hqueue
  exact ⟨trivial, trivial, ticket, (ticketOf_of_queue hqueue).trans hticket, hstatus⟩

theorem keepsTicket_settle {taskId : TaskId} {status : HubLandingTicketStatus}
    (h : status ≠ .failed) : KeepsTicket taskId (updateTicket taskId (settled status)) := by
  rintro s ⟨mine, hmine, -⟩
  refine Prog.sat_mono (returns_updateTicket (keepsIdentity_settled status) hmine).sat
    (fun _ t ht => ?_) fun _ _ h => h
  exact ⟨_, ht, h⟩

theorem keepsTicket_bind {α β : Type} {taskId : TaskId} {p : Hub α} {f : α → Hub β}
    (hp : KeepsTicket taskId p) (hf : ∀ a, KeepsTicket taskId (f a)) :
    KeepsTicket taskId (p.bind f) := fun s hs =>
  Prog.sat_bind (hp s hs) fun a t ht => hf a t ht

theorem keepsTicket_ret {α : Type} {taskId : TaskId} (a : α) :
    KeepsTicket taskId (.ret a : Hub α) := fun _ hs => hs

theorem keepsTicket_awaitPublication {candidate : HubLandingCandidate}
    {policy : HubLandingPolicy} :
    KeepsTicket session.task.id
      (awaitRequiredPublicationBeforeClose git session candidate policy) := by
  have hsync : KeepsTicket session.task.id (syncHubPublications git) :=
    keepsTicket_of_queue syncHubPublications_keeps_queue
  refine keepsTicket_bind (keepsTicket_of_queue (keepsQueue_modify fun _ => rfl)) fun _ => ?_
  refine keepsTicket_bind (keepsTicket_settle (fun h => nomatch h)) fun _ => ?_
  refine keepsTicket_bind (keepsTicket_of_queue (enqueueHubPublication_keeps_queue _ _ _ _ _))
    fun _ => ?_
  refine keepsTicket_bind hsync fun _ => ?_
  refine keepsTicket_bind (keepsTicket_of_queue (driveHubRequiredPublication_keeps_queue _ _))
    fun outcome => ?_
  refine keepsTicket_bind hsync fun _ => ?_
  split
  · exact keepsTicket_ret _
  · exact keepsTicket_bind (keepsTicket_settle (fun h => nomatch h)) fun _ => keepsTicket_ret _

theorem keepsTicket_closePublishedTask {candidate : HubLandingCandidate}
    {policy : Option HubLandingPolicy} :
    KeepsTicket session.task.id (closePublishedTask git session candidate policy) :=
  keepsTicket_of_queue (closePublishedTask_keeps_queue _ _ _)

theorem keepsTicket_closeLandedTask {candidate : HubLandingCandidate} :
    KeepsTicket session.task.id (closeLandedTask git session candidate) := by
  refine keepsTicket_bind (keepsTicket_of_queue (keepsQueue_reads _)) fun policy => ?_
  intro s hs
  refine Prog.sat_tryCatch (R := fun _ => NotFailed session.task.id) ?_ fun _ _ ht => ht
  refine keepsTicket_bind ?_ (fun waited => ?_) s hs
  · unfold awaitPublicationOf
    split
    · split
      · exact keepsTicket_awaitPublication
      · exact keepsTicket_ret _
    · exact keepsTicket_ret _
  · cases waited with
    | some pendingDelivery => exact keepsTicket_ret _
    | none => exact keepsTicket_closePublishedTask

theorem ends_closeLandedTask (candidate : HubLandingCandidate) :
    (closeLandedTask git session candidate).Ends
      (fun result => result.outcome ≠ .pending ∧ result.outcome.isSemanticFailure = false)
      (fun _ => True) := by
  have hclosed : ∀ outcome : HubBatchMergeOutcome, outcome = .merged ∨ outcome = .closeFailed ∨
      outcome = .pendingDelivery → outcome ≠ .pending ∧ outcome.isSemanticFailure = false := by
    rintro _ (rfl | rfl | rfl) <;> exact ⟨(fun h => nomatch h), rfl⟩
  refine Prog.ends_bind (Prog.ends_true _) fun policy _ => ?_
  refine Prog.ends_tryCatch (R := fun _ => True) ?_ fun _ _ => hclosed _ (.inr (.inl rfl))
  refine Prog.ends_bind (Q := fun waited => ∀ result, waited = some result →
    result.outcome = .pendingDelivery) ?_ fun waited hwaited => ?_
  · unfold awaitPublicationOf
    split
    · split
      · refine Prog.ends_bind (Prog.ends_true _) fun _ _ => ?_
        refine Prog.ends_bind (Prog.ends_true _) fun _ _ => ?_
        refine Prog.ends_bind (Prog.ends_true _) fun _ _ => ?_
        refine Prog.ends_bind (Prog.ends_true _) fun _ _ => ?_
        refine Prog.ends_bind (Prog.ends_true _) fun outcome _ => ?_
        refine Prog.ends_bind (Prog.ends_true _) fun _ _ => ?_
        split
        · rintro _ ⟨⟩
          rfl
        · exact Prog.ends_bind (Prog.ends_true _) fun _ _ _ h => nomatch h
      · exact fun _ h => nomatch h
    · exact fun _ h => nomatch h
  · cases waited with
    | some pendingDelivery => exact hclosed _ (.inr (.inr (hwaited _ rfl)))
    | none =>
      refine Prog.ends_bind (Prog.ends_true _) fun _ _ => ?_
      refine Prog.ends_bind (Prog.ends_true _) fun _ _ => ?_
      refine Prog.ends_bind (Prog.ends_true _) fun _ _ => ?_
      exact Prog.ends_bind (Prog.ends_true _) fun _ _ => hclosed _ (.inl rfl)

/-! ### The task -/

theorem landVerifiedTask_split (candidate : HubLandingCandidate) :
    landVerifiedTask git session predecessorOid candidate =
      (beginLanding git session candidate).bind fun verifierFingerprint =>
        (finalizeLandedCandidate git session predecessorOid verifierFingerprint candidate).bind
          fun final =>
            match final with
            | .failed result => .ret result
            | .landed landed => closeLandedTask git session landed := by
  simp only [beginLanding, Prog.bind_eq, Prog.bind_assoc]
  rfl

theorem quietWaitOver_run {taskId : TaskId} {observedTargetOid : Oid} {now : Timestamp}
    {s : HubWorld} {ticket : HubLandingQueueTicket} (hticket : s.ticketOf taskId = some ticket)
    (hstatus : ticket.status = .verified) :
    (quietWaitOver taskId observedTargetOid now).run s = (.ok true, s) := by
  have hfilter : (s.ticketOf taskId).filter (·.status == .targetQuietWait) = none := by
    rw [hticket, Option.filter_eq_none_iff]
    rintro _ ⟨⟩
    rw [hstatus]
    exact fun h => nomatch h
  have hresume : (resumeHubLandingQuietWaitIfStable taskId observedTargetOid now).run s =
      (.ok .notWaiting, s) := by
    simp only [resumeHubLandingQuietWaitIfStable, findHubLandingQueueTicket, readHubLandingQueue,
      Prog.bind_eq, Prog.pure_eq, Prog.run_bind, Prog.run_reads, Prog.run_ret]
    rw [HubWorld.ticketOf] at hfilter
    rw [hfilter]
    rfl
  unfold quietWaitOver
  rw [Prog.bind_eq, Prog.run_bind_ok hresume]
  rfl

theorem beginLanding_ticketOf {candidate : HubLandingCandidate} {mine : HubLandingQueueTicket}
    {s t : HubWorld} {fingerprint : String} (hmine : s.ticketOf session.task.id = some mine)
    (hrun : (beginLanding git session candidate).run s = (.ok fingerprint, t)) :
    t.ticketOf session.task.id = some (withStatus .verified mine) := by
  obtain ⟨_, u, hmark, hrun⟩ := Prog.run_bind_eq_ok.mp hrun
  obtain ⟨_, -, hu⟩ :=
    (returns_updateTicket (keepsIdentity_withStatus .verified) hmine).of_run hmark
  refine (ticketOf_of_run (Prog.always_bind (keepsQueue_reads _) fun parts => ?_) hrun).trans hu
  exact Prog.always_bind (bindVerification_keeps_queue _ _ _) fun _ => Prog.always_ret _

/-- Landing a verified candidate: ticket and outcome agree unless the landing fails. -/
theorem landVerifiedTask_ticket_iff {candidate : HubLandingCandidate}
    {mine current : HubLandingQueueTicket} {s t : HubWorld} {result : HubBatchMergeTaskResult}
    (htask : mine.taskId = session.task.id) (hcurrent : s.ticketOf session.task.id = some current)
    (hsequence : current.sequence = mine.sequence)
    (hrun : (landVerifiedTask git session predecessorOid candidate).run s = (.ok result, t)) :
    TicketAgrees mine result.outcome t ↔
      landVerifiedFails git session predecessorOid candidate s = false := by
  rw [landVerifiedTask_split] at hrun
  obtain ⟨fingerprint, u, hbegin, hrun⟩ := Prog.run_bind_eq_ok.mp hrun
  obtain ⟨final, v, hfinal, hrun⟩ := Prog.run_bind_eq_ok.mp hrun
  have hverified := beginLanding_ticketOf hcurrent hbegin
  have hloop : (landingLoop git session predecessorOid fingerprint
      (HUB_LANDING_TARGET_DRIFT_REBUILD_LIMIT + 1) candidate).run u = (.ok final, v) := by
    unfold finalizeLandedCandidate at hfinal
    rw [Prog.bind_eq, Prog.run_bind_ok (quietWaitOver_run hverified rfl)] at hfinal
    exact hfinal
  have hplace : InPlace session.task.id mine.sequence u := ⟨_, hverified, rfl, hsequence⟩
  have hleaves := landingLoop_place hplace hloop
  unfold landVerifiedFails
  rw [hbegin]
  dsimp only
  cases final with
  | landed landed =>
    obtain ⟨hfails, ticket, hticket, hstatus⟩ := hleaves
    rw [hfails]
    refine iff_of_true ?_ rfl
    have hnot : NotFailed session.task.id v := by
      refine ⟨ticket, hticket, ?_⟩
      rw [hstatus]
      exact fun h => nomatch h
    have hkeeps : KeepsTicket session.task.id (closeLandedTask git session landed) :=
      keepsTicket_closeLandedTask
    have hclosed := (hkeeps v hnot).run trivial
    rw [hrun] at hclosed
    obtain ⟨-, ticket', hticket', hstatus'⟩ := hclosed
    rw [← htask] at hticket'
    exact ticketAgrees_landed hticket' hstatus' ((ends_closeLandedTask landed).run_ok hrun)
  | failed failed =>
    obtain ⟨hv, houtcome⟩ := hleaves
    cases hrun
    rw [← htask] at hv
    cases hfails : landingFails git session predecessorOid fingerprint
        (HUB_LANDING_TARGET_DRIFT_REBUILD_LIMIT + 1) candidate u with
    | true =>
      rw [hfails, if_pos rfl] at houtcome
      rw [hv.agrees_iff (.inr houtcome)]
      refine iff_of_false ?_ (fun h => nomatch h)
      intro hpending
      rw [hpending] at houtcome
      exact nomatch houtcome
    | false =>
      rw [hfails, if_neg (fun h => nomatch h)] at houtcome
      rw [hv.agrees_iff (.inl houtcome)]
      exact iff_of_true houtcome rfl

theorem returns_failQueueTicket {s : HubWorld} {mine : HubLandingQueueTicket}
    (hmine : s.ticketOf session.task.id = some mine) :
    (failQueueTicket session).Returns s
      fun _ t => t.ticketOf session.task.id = some (withStatus .failed mine) := by
  refine Prog.returns_bind (returns_updateTicket (keepsIdentity_withStatus .failed) hmine)
    fun _ u hu => ?_
  exact Prog.returns_bind (returns_invalidateSuffix _ _ hu) fun _ v hv => Prog.returns_ret hv

theorem ends_createTaskCandidate :
    (createTaskCandidate git session predecessorOid).Ends
      (fun candidate => candidate.taskId = session.task.id) (fun _ => True) := by
  refine Prog.ends_bind (Prog.ends_true _) fun merge _ => ?_
  refine Prog.ends_bind (Prog.ends_true _) fun policy _ => ?_
  refine Prog.ends_bind (Prog.ends_true _) fun sourceOid _ => ?_
  refine Prog.ends_bind (Prog.ends_true _) fun baseOid _ => ?_
  refine Prog.ends_bind (Prog.ends_true _) fun existing _ => ?_
  refine Prog.ends_bind (Prog.ends_true _) fun currentRefOid _ => ?_
  refine Prog.ends_bind (Prog.ends_true _) fun _ _ => ?_
  refine Prog.ends_bind (Prog.ends_true _) fun restored _ => ?_
  cases restored with
  | some candidateOid =>
    refine Prog.ends_bind (Prog.ends_true _) fun _ _ => ?_
    exact Prog.ends_bind (Prog.ends_true _) fun _ _ => rfl
  | none =>
    -- The candidate is the last thing that the build returns, after ten steps.
    iterate 10 refine Prog.ends_bind (Prog.ends_true _) fun _ _ => ?_
    rfl

theorem mergeTask_taskId {s t : HubWorld} {candidate : HubLandingCandidate}
    (hrun : (mergeTask git session predecessorOid).run s = (.ok (.ok candidate), t)) :
    candidate.taskId = session.task.id := by
  unfold mergeTask at hrun
  rw [Prog.bind_eq, Prog.run_bind_ok (Prog.run_attempt _ s)] at hrun
  cases hmerge : (createTaskCandidate git session predecessorOid).run s with
  | mk merged u =>
    rw [hmerge] at hrun
    cases merged with
    | ok merged =>
      cases hrun
      exact ends_createTaskCandidate.run_ok hmerge
    | error e =>
      obtain ⟨_, _, -, hrun⟩ := Prog.run_bind_eq_ok.mp hrun
      exact nomatch hrun

/-- A merge without a candidate is a failure unless its error is transient. -/
theorem settleUnsuccessfulMerge_failure (e : HubError) :
    (settleUnsuccessfulMerge session e).outcome.isSemanticFailure = true ↔
      isTransientHubLandingError e = false := by
  unfold settleUnsuccessfulMerge
  split
  · simp [MergeTaskSession.result, HubBatchMergeOutcome.isSemanticFailure, *]
  · simp_all [MergeTaskSession.result, HubBatchMergeOutcome.isSemanticFailure]

/-- Take any state in which the task has a ticket, as in each batch that assigned it one. When
`processMergeTask` returns there, ticket and outcome agree if and only if the task is not one
that `ticketDisagrees` finds. -/
theorem processMergeTask_ticket_iff {mine : HubLandingQueueTicket} {s t : HubWorld}
    {result : HubBatchMergeTaskResult} (hmine : s.ticketOf session.task.id = some mine)
    (hrun : (processMergeTask git session predecessorOid).run s = (.ok result, t)) :
    TicketAgrees mine result.outcome t ↔
      ticketDisagrees git session predecessorOid s = false := by
  have htask : mine.taskId = session.task.id := by
    obtain ⟨q, -, hfind⟩ := Option.bind_eq_some_iff.mp hmine
    exact (findTicket_some hfind).2
  obtain ⟨merged, u, hmerge, hrun⟩ := Prog.run_bind_eq_ok.mp hrun
  have hu : u.ticketOf session.task.id = some mine :=
    (ticketOf_of_run (mergeTask_keeps_queue _ _) hmerge).trans hmine
  unfold ticketDisagrees
  rw [hmerge]
  cases merged with
  | error e =>
    obtain ⟨_, v, hfail, hrun⟩ := Prog.run_bind_eq_ok.mp hrun
    obtain ⟨_, -, hv⟩ := (returns_failQueueTicket hu).of_run hfail
    cases hrun
    rw [← htask] at hv
    rw [ticketAgrees_failed_iff hv rfl]
    exact settleUnsuccessfulMerge_failure e
  | ok candidate =>
    obtain ⟨_, v, hrecord, hrun⟩ := Prog.run_bind_eq_ok.mp hrun
    have hv : v.ticketOf session.task.id =
        some (withCandidate candidate.sourceOid candidate.baseOid candidate.candidateOid
          candidate.transactionId mine) := by
      unfold recordHubLandingQueueCandidate at hrecord
      rw [mergeTask_taskId hmerge] at hrecord
      have hkeeps : KeepsIdentity (withCandidate candidate.sourceOid candidate.baseOid
          candidate.candidateOid candidate.transactionId) := fun _ => ⟨rfl, rfl, rfl⟩
      obtain ⟨_, -, hv⟩ := (returns_updateTicket hkeeps hu).of_run hrecord
      exact hv
    have hexec : (recordHubLandingQueueCandidate candidate).exec u = v := by
      rw [Prog.exec, hrecord]
    obtain ⟨outcome, w, hverify, hrun⟩ := Prog.run_bind_eq_ok.mp hrun
    have hw := (ticketOf_of_run (verifyWithBoundedRepair_keeps_queue _ _) hverify).trans hv
    dsimp only
    rw [hexec, hverify]
    cases outcome with
    | verified verified => exact landVerifiedTask_ticket_iff htask hw rfl hrun
    | failed failed =>
      obtain ⟨_, x, hfail, hrun⟩ := Prog.run_bind_eq_ok.mp hrun
      obtain ⟨_, -, hx⟩ := (returns_failQueueTicket hw).of_run hfail
      cases hrun
      rw [← htask] at hx
      rw [ticketAgrees_failed_iff hx rfl, verifyFailed_outcome hverify]
      exact iff_of_true rfl rfl

end

/-! ### A task that lands, and one that fails after a drift -/

def sampleTicketWorld : HubWorld :=
  { sampleBatchWorld with queue := some ⟨2, [sampleFreeTicket]⟩ }

/-- The task lands, is closed, and its ticket has not failed. -/
theorem processMergeTask_ticket_iff_sample :
    ∃ result t, (processMergeTask sampleGit sampleSession none).run sampleTicketWorld =
        (.ok result, t) ∧ result.outcome = .merged ∧
      TicketAgrees sampleFreeTicket result.outcome t := by
  have hagrees : ticketDisagrees sampleGit sampleSession none sampleTicketWorld = false := rfl
  refine ⟨_, _, rfl, rfl, ?_⟩
  exact (processMergeTask_ticket_iff rfl rfl).mpr hagrees

/-- The session with a verifier that passes once and fails from then on. -/
def failingSession : MergeTaskSession :=
  { sampleSession with
    input := { sampleBatch with
      verifier := fun s w => (w, if s.trace.isEmpty then none else some "1 failed") } }

def sampleRebuiltTicket : HubLandingQueueTicket :=
  { sampleFreeTicket with
    status := .queued, sourceOid := some "b", predecessorOid := some "p"
    candidateOid := some "pb", transactionId := some "ltx-b-b\x00b\x00p"
    activationId := some "act-b-0", activationDriftRebuilds := 1
    lastObservedTargetOid := some "a" }

/-- The batch builds the task on a predecessor that the target has left behind, so the
candidate is rebuilt. Its second verification fails, and the task with it. Its ticket is still
queued, and it is the head of the queue. -/
theorem failedRebuild_staysHead :
    ∃ result t, (processMergeTask sampleGit failingSession (some "p")).run sampleTicketWorld =
        (.ok result, t) ∧ result.outcome = .verificationFailed ∧
      resolveHubLandingQueueHead t.queue (fun _ => false) = some sampleRebuiltTicket ∧
      ¬ TicketAgrees sampleFreeTicket result.outcome t := by
  refine ⟨_, _, rfl, rfl, rfl, ?_⟩
  rintro ⟨ticket, hticket, hfailed, -⟩
  cases hticket
  exact nomatch hfailed.mpr rfl

end ArchLoop
