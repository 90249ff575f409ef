import ArchLoop.Proofs.TicketStatus
import ArchLoop.QueueHeadLanding
import ArchLoop.Sample

/-!
# `ArchLoop.Proofs.QueueHead`: the drift-rebuild loop and the quiet wait

`coordinateHubQueueHeadLanding` runs while others move the publish target. Nobody else writes the
queue file (`queueFileRules`), and of the program itself only the queue operations do. So the proof
follows the queue file alone: `Leads o p Q` says that `p`, started while the file is `o`, ends with
a value and a file that are in `Q`, whatever else others do in between.

- `leads_enqueueCandidate`: the ticket after the candidate is recorded (`enqueuedTicket`).
- `leads_landQueueHead`: the loop, by induction on the rebuilds that it may still make. A pass that
  goes on has counted up the ticket's drifts.
- `driftLoop_bounded`: the whole call ends within `3 - activationDriftRebuilds` rebuilds, and no
  later ticket can land when it gives up.
- `quietWaitEnforced_iff`: recording the candidate ends a quiet wait before it is looked at.
-/

set_option autoImplicit false

namespace ArchLoop

open ArchLoop.Lib

/-! ### Following the queue file -/

def queueFileRules : Rules HubWorld where
  inv _ := True
  rely s t := t.queue = s.queue
  allowed _ _ _ := True
  guar _ _ _ := True

/-- Started while the queue file is `o`, the program returns a value and leaves a file in `Q`. -/
structure Leads {α : Type} (o : Option HubLandingQueueState) (p : Hub α)
    (Q : α → Option HubLandingQueueState → Prop) : Prop where
  sat : ∀ s, s.queue = o → p.Sat queueFileRules (fun a t => Q a t.queue) (fun _ _ => True) s

section Leads

variable {α β : Type} {o : Option HubLandingQueueState} {p : Hub α}
  {Q : α → Option HubLandingQueueState → Prop}

theorem leads_ret {a : α} (h : Q a o) : Leads o (Prog.ret a : Hub α) Q where
  sat s hs := by
    rw [← hs] at h
    exact h

theorem leads_bind {R : β → Option HubLandingQueueState → Prop} {p : Hub β} {f : β → Hub α}
    (hp : Leads o p R) (hf : ∀ b o', R b o' → Leads o' (f b) Q) : Leads o (p.bind f) Q where
  sat s hs := Prog.sat_bind (hp.sat s hs) fun b t hb => (hf b t.queue hb).sat t rfl

theorem Leads.mono {R : α → Option HubLandingQueueState → Prop} (h : Leads o p R)
    (hQ : ∀ a o', R a o' → Q a o') : Leads o p Q where
  sat s hs := Prog.sat_mono (h.sat s hs) (fun a t => hQ a t.queue) fun _ _ _ => trivial

theorem leads_keeps (h : p.Keeps HubWorld.queue) : Leads o p fun _ o' => o' = o where
  sat _ hs :=
    Prog.sat_mono
      (Prog.Always.sat (K := fun t => t.queue = o) h
        (fun _ _ _ _ ht hkeeps => ⟨trivial, trivial, Eq.trans hkeeps ht⟩)
        (fun _ _ hrely _ ht => Eq.trans hrely ht) hs)
      (fun _ _ ht => ht) fun _ _ _ => trivial

theorem leads_readQueue : Leads o readHubLandingQueue fun a o' => a = o ∧ o' = o where
  sat _ hs := by
    intro t hrely _ _
    have ht : t.queue = o := Eq.trans hrely hs
    exact ⟨trivial, trivial, ht, ht⟩

theorem leads_writeQueue (q : HubLandingQueueState) :
    Leads o (writeQueue q) fun _ o' => o' = some q where
  sat _ _ := by
    intro _ _ _ _
    exact ⟨trivial, trivial, rfl⟩

theorem leads_ends {R : α → Prop} {E : HubError → Prop} (hends : p.Ends R E)
    (h : p.Keeps HubWorld.queue) : Leads o p fun a o' => o' = o ∧ R a where
  sat s hs := by
    have hsat := (leads_keeps h).sat s hs
    clear h hs
    induction p generalizing s with
    | ret a => exact ⟨hsat, hends⟩
    | raise e => trivial
    | act upd next ih =>
      intro t hrely hinv hallowed
      obtain ⟨hguar, hinv', hnext⟩ := hsat t hrely hinv hallowed
      exact ⟨hguar, hinv', ih t (hends t) (upd t) hnext⟩

theorem Leads.of_run (h : Leads o p Q) {s t : HubWorld} {a : α} (hs : s.queue = o)
    (hrun : p.run s = (.ok a, t)) : Q a t.queue := by
  have hsat := h.sat s hs
  clear h hs
  induction p generalizing s with
  | ret b => cases hrun; exact hsat
  | raise e => cases hrun
  | act upd next ih => exact ih s hrun (hsat s rfl trivial trivial).2.2

end Leads

/-! ### Queue operations -/

section Operations

variable {q : HubLandingQueueState} {taskId : TaskId} {mine : HubLandingQueueTicket}

theorem leads_updateTicket (patch : HubLandingQueueTicket → HubLandingQueueTicket)
    (hmine : q.findTicket taskId = some mine) :
    Leads (some q) (updateTicket taskId patch) fun _ o =>
      o = some (q.replaceTicket (patch mine)) := by
  refine leads_bind leads_readQueue ?_
  rintro _ _ ⟨rfl, rfl⟩
  have hpatch : (some q).bind (fun q => q.patchTicket taskId patch) =
      some (q.replaceTicket (patch mine), patch mine) := by
    rw [Option.bind_some, HubLandingQueueState.patchTicket, hmine, Option.map_some]
  rw [hpatch]
  exact leads_bind (leads_writeQueue _) fun _ _ h => leads_ret h

theorem leads_findTicket {o : Option HubLandingQueueState} :
    Leads o (findHubLandingQueueTicket taskId) fun a o' =>
      a = o.bind (·.findTicket taskId) ∧ o' = o := by
  refine leads_bind leads_readQueue ?_
  rintro _ _ ⟨rfl, rfl⟩
  exact leads_ret ⟨rfl, rfl⟩

theorem leads_canLand {o : Option HubLandingQueueState} (shipped : Option (TaskId → Bool)) :
    Leads o (canLandHubLandingTicket taskId shipped) fun a o' =>
      a = mayLand o taskId shipped ∧ o' = o := by
  refine leads_bind leads_readQueue ?_
  rintro _ _ ⟨rfl, rfl⟩
  exact leads_ret ⟨rfl, rfl⟩

theorem keeps_removeArtifacts_queue (tickets : List HubLandingQueueTicket) :
    (removeArtifacts tickets).Keeps HubWorld.queue := by
  induction tickets with
  | nil => exact Prog.always_ret ()
  | cons ticket tickets ih =>
    rw [removeArtifacts]
    cases ticket.transactionId with
    | none => exact ih
    | some id => exact Prog.always_bind (invalidateHubLandingCandidate_keeps_queue id) fun _ => ih

theorem leads_invalidateSuffix (reason : String) (now : Timestamp)
    (hmine : q.findTicket taskId = some mine) :
    Leads (some q) (invalidateHubLandingSpeculativeSuffix taskId reason now) fun _ o =>
      o = some (invalidateSuffix q mine now reason) := by
  refine leads_bind leads_readQueue ?_
  rintro _ _ ⟨rfl, rfl⟩
  simp only [hmine]
  refine leads_bind (leads_keeps (keeps_removeArtifacts_queue _)) ?_
  rintro _ _ rfl
  exact leads_bind (leads_writeQueue _) fun _ _ h => leads_ret h

theorem findTicket_invalidateSuffix (reason : String) (now : Timestamp)
    (hmine : q.findTicket taskId = some mine) :
    (invalidateSuffix q mine now reason).findTicket taskId = some mine := by
  have hown : (if behindOrigin mine mine = true then invalidatedTicket mine now reason else mine)
      = mine := by
    rw [if_neg (by simp [behindOrigin])]
  have htasks : ∀ ticket : HubLandingQueueTicket, (if behindOrigin mine ticket = true then
      invalidatedTicket ticket now reason else ticket).taskId = ticket.taskId := by
    intro ticket
    split <;> rfl
  show (q.tickets.map _).find? _ = _
  rw [List.find?_map]
  have hsame : ((fun ticket : HubLandingQueueTicket => ticket.taskId == taskId) ∘
      fun ticket => if behindOrigin mine ticket = true then
        invalidatedTicket ticket now reason else ticket) =
      fun ticket => ticket.taskId == taskId := by
    funext ticket
    rw [Function.comp_apply, htasks]
  rw [hsame]
  show (q.findTicket taskId).map _ = _
  rw [hmine, Option.map_some, hown]

/-- The ticket that a task has after `assignHubLandingQueueTickets` for it alone. -/
def assignedTicket (q : HubLandingQueueState) (task : HubLandingQueueTaskInput)
    (now : Timestamp) : HubLandingQueueTicket :=
  match q.findTicket task.taskId with
  | some current => refreshTicket task current
  | none => newTicket task q.nextSequence now

theorem byTaskId_eq_findTicket (hwf : q.Wf) (taskId : TaskId) :
    q.byTaskId taskId = q.findTicket taskId := by
  have hcovers := covers_byTaskId q
  cases hlookup : q.byTaskId taskId with
  | none =>
    cases hfind : q.findTicket taskId with
    | none => rfl
    | some ticket =>
      obtain ⟨hmem, htask⟩ := findTicket_some hfind
      exact absurd htask (hcovers.unknown taskId hlookup ticket hmem)
  | some ticket =>
    obtain ⟨hmem, htask⟩ := byTaskId_some hlookup
    rw [← htask, hwf.findTicket_eq hmem]

theorem findTicket_assignTickets (hwf : q.Wf) (task : HubLandingQueueTaskInput)
    (now : Timestamp) :
    (assignTickets q [task] now).findTicket task.taskId = some (assignedTicket q task now) := by
  rw [assignTickets, assignLoop, byTaskId_eq_findTicket hwf, assignedTicket]
  cases hfind : q.findTicket task.taskId with
  | some current =>
    have htickets : replaceFirst (refreshTicket task current) q.tickets =
        (q.replaceTicket (refreshTicket task current)).tickets :=
      replaceFirst_eq_map hwf.ticketIds
    show (HubLandingQueueState.mk q.nextSequence _).findTicket task.taskId = _
    rw [htickets]
    exact findTicket_replaceTicket hfind ⟨rfl, rfl, rfl⟩
  | none =>
    show (q.tickets ++ [newTicket task q.nextSequence now]).find? _ = _
    rw [List.find?_append]
    have hnone : q.tickets.find? (fun ticket => ticket.taskId == task.taskId) = none := hfind
    rw [hnone, Option.none_or]
    exact List.find?_cons_of_pos (by simp [newTicket])

end Operations

/-! ### The part before the loop -/

/-- What the caller hands in leaves the queue file alone. -/
structure CoordinateQueueHeadInput.LeavesQueue (input : CoordinateQueueHeadInput) : Prop where
  rebuild : ∀ p ∈ input.rebuild, p.Keeps HubWorld.queue
  verify : ∀ f ∈ input.verify, ∀ candidate, (f candidate).Keeps HubWorld.queue

section Call

variable {git : Git} {policy : HubLandingPolicy} {input : CoordinateQueueHeadInput}
  {q : HubLandingQueueState} {mine : HubLandingQueueTicket} {candidate : HubLandingCandidate}

theorem createCandidate_keeps_queue : (input.createCandidate git).Keeps HubWorld.queue :=
  createHubLandingCandidate_keeps_queue _

theorem verifyCandidate_keeps_queue (hleaves : input.LeavesQueue)
    (candidate : HubLandingCandidate) :
    (input.verifyCandidate git candidate).Keeps HubWorld.queue := by
  rw [CoordinateQueueHeadInput.verifyCandidate]
  cases hverify : input.verify with
  | some verify => exact hleaves.verify verify hverify candidate
  | none =>
    have hmove : Prog.Makes (TransactionMove candidate.transactionId candidate.taskId)
        (bindHubLandingVerification git
          { transactionId := candidate.transactionId, taskId := candidate.taskId
            candidateOid := candidate.candidateOid
            verifierFingerprint := input.verifierFingerprint, call := input.call }) :=
      move_bindHubLandingVerification rfl
    exact keeps_queue_of_move hmove

theorem leads_syncQueueCandidate (hmine : q.findTicket input.taskId = some mine)
    (candidate : HubLandingCandidate) :
    Leads (some q) (input.syncQueueCandidate candidate) fun _ o =>
      o = some (q.replaceTicket (withCandidate candidate.sourceOid candidate.baseOid
        candidate.candidateOid candidate.transactionId mine)) :=
  leads_bind (leads_updateTicket _ hmine) fun _ _ h => leads_ret h

/-- The ticket of the task once the candidate is recorded. -/
def recordedTicket (input : CoordinateQueueHeadInput) (o : Option HubLandingQueueState)
    (candidate : HubLandingCandidate) : HubLandingQueueTicket :=
  withCandidate candidate.sourceOid candidate.baseOid candidate.candidateOid
    candidate.transactionId
    (assignedTicket (o.getD emptyQueue)
      { taskId := input.taskId, sourceOid := some candidate.sourceOid } input.call.now)

/-- The queue file is well formed and has the ticket. -/
def HasTicket (input : CoordinateQueueHeadInput) (mine : HubLandingQueueTicket)
    (o : Option HubLandingQueueState) : Prop :=
  ∃ q, o = some q ∧ q.Wf ∧ q.findTicket input.taskId = some mine

variable {o : Option HubLandingQueueState}

theorem wf_replaceTicket {q : HubLandingQueueState} {mine : HubLandingQueueTicket}
    {taskId : TaskId} {patch : HubLandingQueueTicket → HubLandingQueueTicket} (hwf : q.Wf)
    (hkeeps : KeepsIdentity patch) (hmine : q.findTicket taskId = some mine) :
    (q.replaceTicket (patch mine)).Wf := by
  have hpatch : q.patchTicket taskId patch = some (q.replaceTicket (patch mine), patch mine) := by
    rw [HubLandingQueueState.patchTicket, hmine, Option.map_some]
  exact wf_patchTicket hwf hkeeps hpatch

theorem hasTicket_patch (patch : HubLandingQueueTicket → HubLandingQueueTicket)
    (hkeeps : KeepsIdentity patch) (hwf : q.Wf) (hmine : q.findTicket input.taskId = some mine)
    (ho : o = some (q.replaceTicket (patch mine))) : HasTicket input (patch mine) o :=
  ⟨_, ho, wf_replaceTicket hwf hkeeps hmine, findTicket_replaceTicket hmine (hkeeps mine)⟩

theorem leads_enqueueCandidate (hleaves : input.LeavesQueue) (hwf : ∀ q ∈ o, q.Wf) :
    Leads o (enqueueCandidate git input) fun candidate o' =>
      HasTicket input (recordedTicket input o candidate) o' := by
  have hcreate : Leads o (candidateForLanding git input) fun _ o' => o' = o := by
    rw [candidateForLanding]
    cases input.candidate with
    | some candidate => exact leads_ret rfl
    | none => exact leads_keeps createCandidate_keeps_queue
  have hwf' : (o.getD emptyQueue).Wf := by
    cases o with
    | none => exact wf_emptyQueue
    | some q => exact hwf q rfl
  refine leads_bind hcreate fun candidate o₁ h₁ => ?_
  obtain rfl := h₁.symm
  refine leads_bind (leads_keeps (verifyCandidate_keeps_queue hleaves candidate)) fun _ o₂ h₂ => ?_
  obtain rfl := h₂.symm
  have hassign := assignTickets_spec hwf'
    [{ taskId := input.taskId, sourceOid := some candidate.sourceOid }] input.call.now
  have hfind := findTicket_assignTickets hwf'
    { taskId := input.taskId, sourceOid := some candidate.sourceOid } input.call.now
  refine leads_bind (R := fun _ o' => o' = some (assignTickets (o.getD emptyQueue)
    [{ taskId := input.taskId, sourceOid := some candidate.sourceOid }] input.call.now)) ?_ ?_
  · refine leads_bind leads_readQueue ?_
    rintro _ _ ⟨rfl, rfl⟩
    exact leads_bind (leads_writeQueue _) fun _ _ h => leads_ret h
  · rintro _ _ rfl
    refine leads_bind (leads_syncQueueCandidate hfind candidate) ?_
    intro _ _ ho
    exact leads_ret
      (hasTicket_patch (withCandidate _ _ _ _) (fun _ => ⟨rfl, rfl, rfl⟩) hassign.wf hfind ho)

theorem leads_gateQueueHead (candidate : HubLandingCandidate) (observedTarget : Oid) :
    Leads o (gateQueueHead input candidate observedTarget) fun outcome o' =>
      o' = o ∧ (outcome = .lands candidate ∧ mayLand o input.taskId input.shippedTaskIds = true ∨
        ∃ result message, outcome = .returns result ∧
          result.attempt.kind = .pending .notQueueHead message) := by
  refine leads_bind (leads_canLand _) ?_
  rintro canLand o₁ ⟨hcanLand, h₁⟩
  obtain rfl := h₁.symm
  cases canLand with
  | true => exact leads_ret ⟨rfl, Or.inl ⟨rfl, hcanLand.symm⟩⟩
  | false =>
    refine leads_bind (R := fun (result : HubLandingCoordinatorResult) o' => o' = o ∧
      ∃ message, result.attempt.kind = .pending .notQueueHead message) ?_ ?_
    · refine leads_bind (R := fun _ o' => o' = o) ?_ ?_
      · refine leads_bind leads_readQueue ?_
        rintro _ _ ⟨rfl, rfl⟩
        exact leads_ret rfl
      · rintro predecessor _ rfl
        cases predecessor with
        | some predecessor => exact leads_ret ⟨rfl, _, rfl⟩
        | none =>
          refine leads_bind leads_readQueue ?_
          rintro _ _ ⟨rfl, rfl⟩
          exact leads_ret ⟨rfl, _, rfl⟩
    · rintro result _ ⟨rfl, message, hkind⟩
      exact leads_ret ⟨rfl, Or.inr ⟨result, message, rfl, hkind⟩⟩

theorem leads_resume_recorded {o' : Option HubLandingQueueState} (observedTarget : Oid)
    (h : HasTicket input (recordedTicket input o candidate) o') :
    Leads o' (resumeHubLandingQuietWaitIfStable input.taskId observedTarget input.call.now)
      fun resume o'' => resume = .notWaiting ∧ o'' = o' := by
  obtain ⟨q', rfl, -, hfind⟩ := h
  refine leads_bind leads_findTicket ?_
  rintro _ _ ⟨rfl, rfl⟩
  have hspeculating : (recordedTicket input o candidate).status = .speculating := rfl
  rw [Option.bind_some, hfind, Option.filter_some, hspeculating]
  exact leads_ret ⟨rfl, rfl⟩

theorem leads_prepareQueueHead (hleaves : input.LeavesQueue) (hwf : ∀ q ∈ o, q.Wf) :
    Leads o (prepareQueueHead git input) fun outcome o' =>
      ∃ candidate, HasTicket input (recordedTicket input o candidate) o' ∧
        (outcome = .lands candidate ∧ mayLand o' input.taskId input.shippedTaskIds = true ∨
          ∃ result message, outcome = .returns result ∧
            result.attempt.kind = .pending .notQueueHead message) := by
  refine leads_bind (leads_enqueueCandidate hleaves hwf) fun candidate o₁ h₁ => ?_
  refine leads_bind (leads_keeps (keepsQueue_revParse _ _)) ?_
  rintro observedTarget _ rfl
  refine leads_bind (leads_resume_recorded observedTarget h₁) ?_
  rintro _ _ ⟨rfl, rfl⟩
  refine (leads_gateQueueHead candidate observedTarget).mono ?_
  rintro outcome _ ⟨rfl, hgate⟩
  exact ⟨candidate, h₁, hgate⟩

/-! ### The loop -/

theorem leads_rebuildAfterDrift (hleaves : input.LeavesQueue) (candidate : HubLandingCandidate)
    (observedTargetOid : Oid) (h : HasTicket input mine o) :
    Leads o (rebuildAfterDrift git input candidate observedTargetOid) fun _ o' =>
      ∃ next, HasTicket input next o' ∧ next.sequence = mine.sequence ∧
        next.blockerTaskIds = mine.blockerTaskIds ∧
        next.activationDriftRebuilds = mine.activationDriftRebuilds + 1 := by
  obtain ⟨q, rfl, hwf, hfind⟩ := h
  -- The drift is counted up in the ticket that was read just before.
  have hrecord : Leads (some q)
      (recordHubLandingDriftRebuild input.taskId observedTargetOid input.call.now) fun _ o' =>
        ∃ next, HasTicket input next o' ∧ next.sequence = mine.sequence ∧
          next.blockerTaskIds = mine.blockerTaskIds ∧
          next.activationDriftRebuilds = mine.activationDriftRebuilds + 1 := by
    refine leads_bind leads_findTicket ?_
    rintro _ _ ⟨rfl, rfl⟩
    rw [Option.bind_some, hfind]
    refine (leads_updateTicket _ hfind).mono fun _ o' ho => ?_
    exact ⟨_, hasTicket_patch (driftRebuilt _ _ _) (fun _ => ⟨rfl, rfl, rfl⟩) hwf hfind ho, rfl,
      rfl, rfl⟩
  refine leads_bind hrecord ?_
  rintro _ o₁ ⟨next, ⟨q₁, rfl, hwf₁, hfind₁⟩, hsequence, hblockers, hrebuilds⟩
  refine leads_bind (leads_keeps (invalidateHubLandingCandidate_keeps_queue _)) ?_
  rintro _ _ rfl
  refine leads_bind (leads_invalidateSuffix _ _ hfind₁) ?_
  rintro _ _ rfl
  have hwf₂ := wf_invalidateSuffix hwf₁ next input.call.now "target_drift"
  have hfind₂ := findTicket_invalidateSuffix "target_drift" input.call.now hfind₁
  have hrebuild : (input.rebuild.getD (input.createCandidate git)).Keeps HubWorld.queue := by
    cases hcase : input.rebuild with
    | none => exact createCandidate_keeps_queue
    | some p => exact hleaves.rebuild p hcase
  refine leads_bind (leads_keeps hrebuild) ?_
  rintro rebuilt _ rfl
  refine leads_bind (leads_keeps (verifyCandidate_keeps_queue hleaves rebuilt)) ?_
  rintro _ _ rfl
  refine leads_bind (leads_syncQueueCandidate hfind₂ rebuilt) fun _ _ ho => ?_
  exact leads_ret ⟨_, hasTicket_patch (withCandidate _ _ _ _) (fun _ => ⟨rfl, rfl, rfl⟩) hwf₂ hfind₂ ho,
    hsequence, hblockers, hrebuilds⟩

/-- The call has given up for drift: the ticket waits in its place, and no later ticket can land,
for any set of shipped tasks that has those of the call. -/
structure GaveUp (input : CoordinateQueueHeadInput) (sequence : Nat)
    (o : Option HubLandingQueueState) (ticket : HubLandingQueueTicket) : Prop where
  status : ticket.status = .targetQuietWait
  place : ticket.sequence = sequence
  stored : HasTicket input ticket o
  holds : ∀ q ∈ o, ∀ later ∈ q.tickets, sequence < later.sequence →
    ∀ shipped : Option (TaskId → Bool),
      (∀ b, (input.shippedTaskIds.getD fun _ => false) b = true →
        (shipped.getD fun _ => false) b = true) →
      mayLand o later.taskId shipped = false

/-- The blockers of the ticket are shipped for the call. -/
def BlockersShipped (input : CoordinateQueueHeadInput) (ticket : HubLandingQueueTicket) : Prop :=
  ∀ b ∈ ticket.blockerTaskIds, (input.shippedTaskIds.getD fun _ => false) b = true

theorem gaveUp_of_waiting (h : HasTicket input mine o) (hstatus : mine.status = .targetQuietWait)
    (hshipped : BlockersShipped input mine) : GaveUp input mine.sequence o mine := by
  refine ⟨hstatus, rfl, h, ?_⟩
  obtain ⟨q, rfl, hwf, hfind⟩ := h
  intro q' hq' later hlater hsequence shipped hmore
  obtain rfl := Option.some.inj hq'
  rw [← Bool.not_eq_true, mayLand_iff hwf hlater]
  rintro ⟨-, -, hfirst⟩
  have hready : Ready (shipped.getD fun _ => false) mine := by
    refine ⟨?_, fun b hb => hmore b (hshipped b hb)⟩
    rw [hstatus]
    rfl
  have hle := hfirst mine (findTicket_some hfind).1 hready
  omega

/-- How the loop may end: with a result, and where it is a quiet wait, with one that holds. -/
def EndsHolding (input : CoordinateQueueHeadInput) (sequence : Nat)
    (result : Option HubLandingCoordinatorResult) (o : Option HubLandingQueueState) : Prop :=
  ∃ r, result = some r ∧ ∀ message, r.attempt.kind = .pending .targetQuietWait message →
    ∃ ticket, GaveUp input sequence o ticket

theorem leads_queueHeadRound (candidate : HubLandingCandidate) (h : HasTicket input mine o)
    (hshipped : BlockersShipped input mine) :
    Leads o (queueHeadRound git policy input candidate) fun round o' =>
      (∃ result, round = .returns result ∧ EndsHolding input mine.sequence (some result) o') ∨
        ∃ observed, round = .drifted observed ∧ o' = o ∧
          mine.activationDriftRebuilds < HUB_LANDING_TARGET_DRIFT_REBUILD_LIMIT := by
  obtain ⟨q, rfl, hwf, hfind⟩ := h
  -- The attempt does not write the queue, and its result is not about the queue.
  have hland : Leads (some q) (landHubCandidateWithLease git policy
      { candidate := candidate, verifierFingerprint := input.verifierFingerprint
        call := input.call }) fun outcome o' => o' = some q ∧ outcome.NotAboutQueue :=
    leads_ends (ends_landHubCandidateWithLease policy _)
      (landHubCandidateWithLease_keeps_queue policy _)
  refine leads_bind hland ?_
  rintro outcome _ ⟨rfl, habout⟩
  have hother : ∀ message, outcome.kind ≠ .pending .targetQuietWait message :=
    fun message => (habout message).2
  split
  · rename_i commit hkind
    refine leads_bind (R := fun _ _ => True) ?_ fun _ o' _ => ?_
    · rw [markHubLandingQueueAfterLocalLand]
      split
      · exact (leads_updateTicket _ hfind).mono fun _ _ _ => trivial
      · exact (leads_updateTicket _ hfind).mono fun _ _ _ => trivial
    · exact leads_ret (Or.inl ⟨_, rfl, _, rfl, fun message hquiet => absurd hquiet (hother message)⟩)
  · refine leads_bind (leads_bind leads_findTicket fun ticket o' h => ?_ :
      Leads (some q) (shouldEnterHubLandingQuietWait input.taskId) fun enters o' => o' = some q ∧
        (enters = true ↔
          HUB_LANDING_TARGET_DRIFT_REBUILD_LIMIT ≤ mine.activationDriftRebuilds)) ?_
    · obtain ⟨rfl, rfl⟩ := h
      rw [Option.bind_some, hfind]
      exact leads_ret ⟨rfl, by simp⟩
    · rintro enters _ ⟨rfl, henters⟩
      cases enters with
      | true =>
        refine leads_bind (leads_updateTicket _ hfind) fun _ o' ho => ?_
        have hticket := hasTicket_patch (quietWaiting _ _) (fun _ => ⟨rfl, rfl, rfl⟩) hwf hfind ho
        have hholds := gaveUp_of_waiting hticket rfl hshipped
        exact leads_ret (Or.inl ⟨_, rfl, _, rfl, fun _ _ => ⟨_, hholds⟩⟩)
      | false =>
        refine leads_ret (Or.inr ⟨_, rfl, rfl, ?_⟩)
        have hnot := mt henters.mpr Bool.false_ne_true
        omega
  · exact leads_ret (Or.inl ⟨_, rfl, _, rfl, fun message hquiet => absurd hquiet (hother message)⟩)

/-- The loop never asks for more rebuilds than the limit leaves. The induction is on the rebuilds
that it may still make. -/
theorem leads_landQueueHead (hleaves : input.LeavesQueue) (rebuilds : Nat)
    (candidate : HubLandingCandidate) (h : HasTicket input mine o)
    (hshipped : BlockersShipped input mine)
    (hleft : HUB_LANDING_TARGET_DRIFT_REBUILD_LIMIT ≤ mine.activationDriftRebuilds + rebuilds) :
    Leads o (landQueueHead git policy input rebuilds candidate)
      (EndsHolding input mine.sequence) := by
  induction rebuilds generalizing o mine candidate with
  | zero =>
    rw [landQueueHead]
    refine leads_bind (leads_queueHeadRound candidate h hshipped) fun round o₁ hround => ?_
    rcases hround with ⟨result, rfl, hends⟩ | ⟨observed, -, -, hlt⟩
    · exact leads_ret hends
    · omega
  | succ rebuilds ih =>
    rw [landQueueHead]
    refine leads_bind (leads_queueHeadRound candidate h hshipped) fun round o₁ hround => ?_
    rcases hround with ⟨result, rfl, hends⟩ | ⟨observed, rfl, rfl, -⟩
    · exact leads_ret hends
    · refine leads_bind (leads_rebuildAfterDrift hleaves candidate observed h) ?_
      rintro next o₂ ⟨ticket, hticket, hsequence, hblockers, hcount⟩
      rw [← hsequence]
      refine ih next hticket ?_ (by omega)
      intro b hb
      exact hshipped b (hblockers ▸ hb)

theorem recordedTicket_keeps {q : HubLandingQueueState} {start : HubLandingQueueTicket}
    (candidate : HubLandingCandidate) (hfind : q.findTicket input.taskId = some start) :
    (recordedTicket input (some q) candidate).sequence = start.sequence ∧
      (recordedTicket input (some q) candidate).activationDriftRebuilds =
        start.activationDriftRebuilds := by
  rw [recordedTicket, Option.getD_some, assignedTicket, hfind]
  exact ⟨rfl, rfl⟩

theorem blockersShipped_of_mayLand (h : HasTicket input mine o)
    (hland : mayLand o input.taskId input.shippedTaskIds = true) :
    BlockersShipped input mine := by
  obtain ⟨q, rfl, hwf, hfind⟩ := h
  obtain ⟨hmem, htask⟩ := findTicket_some hfind
  rw [← htask, mayLand_iff hwf hmem] at hland
  exact hland.2.1.2

/-- The rebuilds that the stored ticket of the task has counted. -/
def storedDriftRebuilds (s : HubWorld) (taskId : TaskId) : Nat :=
  ((s.ticketOf taskId).map (·.activationDriftRebuilds)).getD 0

theorem leads_coordinate (hleaves : input.LeavesQueue) (s : HubWorld)
    (hwf : ∀ q ∈ s.queue, q.Wf) :
    Leads s.queue
      (coordinateHubQueueHeadLanding git policy input
        (HUB_LANDING_TARGET_DRIFT_REBUILD_LIMIT - storedDriftRebuilds s input.taskId))
      fun result o' => ∃ sequence, EndsHolding input sequence result o' ∧
        ∀ start ∈ s.ticketOf input.taskId, sequence = start.sequence := by
  refine leads_bind (leads_prepareQueueHead hleaves hwf) ?_
  rintro outcome o₁ ⟨candidate, hticket, hgate⟩
  -- The recorded ticket has the place and the count of the stored one.
  have hstart : ∀ start ∈ s.ticketOf input.taskId,
      (recordedTicket input s.queue candidate).sequence = start.sequence ∧
        (recordedTicket input s.queue candidate).activationDriftRebuilds =
          start.activationDriftRebuilds := by
    intro start hmem
    obtain ⟨q, hq, hfind⟩ := Option.bind_eq_some_iff.mp hmem
    rw [hq]
    exact recordedTicket_keeps candidate hfind
  have hplace : ∀ start ∈ s.ticketOf input.taskId,
      (recordedTicket input s.queue candidate).sequence = start.sequence :=
    fun start hmem => (hstart start hmem).1
  rcases hgate with ⟨rfl, hland⟩ | ⟨result, message, rfl, hkind⟩
  · have hleft : HUB_LANDING_TARGET_DRIFT_REBUILD_LIMIT ≤
        (recordedTicket input s.queue candidate).activationDriftRebuilds +
          (HUB_LANDING_TARGET_DRIFT_REBUILD_LIMIT - storedDriftRebuilds s input.taskId) := by
      rw [storedDriftRebuilds]
      cases hmem : s.ticketOf input.taskId with
      | none =>
        rw [Option.map_none, Option.getD_none]
        omega
      | some start =>
        rw [(hstart start hmem).2, Option.map_some, Option.getD_some]
        omega
    have hshipped := blockersShipped_of_mayLand hticket hland
    exact (leads_landQueueHead hleaves _ candidate hticket hshipped hleft).mono
      fun result o' hends => ⟨_, hends, hplace⟩
  · refine leads_ret ⟨_, ⟨result, rfl, ?_⟩, hplace⟩
    intro message' hquiet
    rw [hkind] at hquiet
    cases hquiet

/-- What a waiting ticket promises of the part before the loop: with another publish target than
the last observed one, the call ends there and only the ticket's observation is written, and with
the same one, the ticket has a new activation without drifts. -/
structure WaitEnforced (input : CoordinateQueueHeadInput) (mine : HubLandingQueueTicket)
    (outcome : QueueHeadStart) (s t : HubWorld) : Prop where
  retained : ∀ observed ∈ s.publishTarget, ∀ last ∈ mine.lastObservedTargetOid,
    last ≠ observed →
      (∃ result message, outcome = .returns result ∧
        result.attempt.kind = .pending .targetQuietWait message) ∧
      t.ticketOf input.taskId = some (stillWaiting observed mine) ∧
      t.publishTarget = s.publishTarget
  restarted : ∀ observed ∈ s.publishTarget, mine.lastObservedTargetOid = some observed →
    ∃ ticket, t.ticketOf input.taskId = some ticket ∧
      ticket.activationId = some s!"act-{input.taskId}-{input.call.now}" ∧
      ticket.activationDriftRebuilds = 0

/-- The ticket has no observation, or it has observed the publish target and stands as a new
activation would leave it. -/
def WaitHolds (input : CoordinateQueueHeadInput) (mine : HubLandingQueueTicket)
    (s : HubWorld) : Prop :=
  ∀ observed ∈ s.publishTarget, mine.lastObservedTargetOid = none ∨
    mine.lastObservedTargetOid = some observed ∧
      mine.activationId = some s!"act-{input.taskId}-{input.call.now}" ∧
      mine.activationDriftRebuilds = 0

/-- In the part before the loop of `coordinateHubQueueHeadLanding`, the quiet wait of the task's
ticket is enforced exactly when `WaitHolds`. The candidate is recorded before the ticket is looked
at, and a recorded candidate makes the ticket `speculating`: that it has waited plays no part. -/
theorem quietWaitEnforced_iff (git : Git) (input : CoordinateQueueHeadInput)
    (hleaves : input.LeavesQueue) {s t : HubWorld} {q : HubLandingQueueState}
    {mine : HubLandingQueueTicket} {outcome : QueueHeadStart} (hq : s.queue = some q)
    (hwf : q.Wf) (hmine : q.findTicket input.taskId = some mine)
    (hrun : (prepareQueueHead git input).run s = (.ok outcome, t)) :
    WaitEnforced input mine outcome s t ↔ WaitHolds input mine s := by
  have hwf' : ∀ q' ∈ s.queue, q'.Wf := by
    intro q' hq'
    rw [hq] at hq'
    obtain rfl := Option.some.inj hq'
    exact hwf
  obtain ⟨candidate, hticket, hgate⟩ := (leads_prepareQueueHead hleaves hwf').of_run rfl hrun
  obtain ⟨q', hq', -, hfind⟩ := hticket
  -- The ticket after the run has the activation of the stored one.
  have hafter : t.ticketOf input.taskId = some (recordedTicket input s.queue candidate) := by
    rw [HubWorld.ticketOf, hq', Option.bind_some, hfind]
  have hkeeps : (recordedTicket input s.queue candidate).activationId = mine.activationId ∧
      (recordedTicket input s.queue candidate).activationDriftRebuilds =
        mine.activationDriftRebuilds := by
    rw [hq, recordedTicket, Option.getD_some, assignedTicket, hmine]
    exact ⟨rfl, rfl⟩
  -- The call does not end with a quiet wait here.
  have hgoesOn : ¬∃ result message, outcome = .returns result ∧
      result.attempt.kind = .pending .targetQuietWait message := by
    rintro ⟨result, message, rfl, hquiet⟩
    rcases hgate with ⟨hlands, -⟩ | ⟨result', message', hreturns, hkind⟩
    · cases hlands
    · cases hreturns
      rw [hkind] at hquiet
      cases hquiet
  constructor
  · intro h observed hobserved
    cases hlast : mine.lastObservedTargetOid with
    | none => exact Or.inl rfl
    | some last =>
      have hsame : last = observed := by
        by_contra hdiffers
        exact hgoesOn (h.retained observed hobserved last hlast hdiffers).1
      rw [hsame] at hlast ⊢
      obtain ⟨ticket, hticket, hactivation, hcount⟩ := h.restarted observed hobserved hlast
      obtain rfl := Option.some.inj (hticket.symm.trans hafter)
      rw [hkeeps.1] at hactivation
      rw [hkeeps.2] at hcount
      exact Or.inr ⟨rfl, hactivation, hcount⟩
  · intro h
    constructor
    · intro observed hobserved last hlast hdiffers
      have hlast' : mine.lastObservedTargetOid = some last := hlast
      rcases h observed hobserved with hnone | ⟨hsame, -⟩
      · rw [hnone] at hlast'
        cases hlast'
      · rw [hsame] at hlast'
        exact absurd (Option.some.inj hlast').symm hdiffers
    · intro observed hobserved hlast
      rcases h observed hobserved with hnone | ⟨-, hactivation, hcount⟩
      · rw [hnone] at hlast
        cases hlast
      · exact ⟨_, hafter, hkeeps.1.trans hactivation, hkeeps.2.trans hcount⟩

end Call

/-! ### Samples -/

def sampleHeadInput : CoordinateQueueHeadInput where
  taskId := "b"
  branch := "task"
  verifierFingerprint := "verifier"
  candidate := some
    { transactionId := "tx", taskId := "b", branch := "task", sourceOid := "b", baseOid := "ab"
      candidateOid := "abb" }

/-- The waiting ticket of the task, with its last observed target. -/
def sampleWaiting (last : Option Oid) : HubLandingQueueTicket where
  ticketId := resolveTicketId "b" 1
  sequence := 1
  taskId := "b"
  assignedAt := 0
  status := .targetQuietWait
  activationId := some "act-b-0"
  activationDriftRebuilds := 3
  lastObservedTargetOid := last

def sampleWaitingWorld (last : Option Oid) : HubWorld where
  head := some "ab"
  branches := fun branch => if branch = "main" then some "ab" else some "b"
  publishTarget := some "ab"
  fence := some "fence"
  queue := some { nextSequence := 2, tickets := [sampleWaiting last] }

def sampleHeadPolicy : HubLandingPolicy := { hostTargetBranch := "main", publishPolicy := .off }

theorem sampleHeadInput_leavesQueue : sampleHeadInput.LeavesQueue where
  rebuild _ h := by cases h
  verify _ h := by cases h

theorem sampleWaitingWorld_wf (last : Option Oid) :
    ∀ q ∈ (sampleWaitingWorld last).queue, q.Wf := by
  intro q hq
  obtain rfl := Option.some.inj hq
  exact
    { tasks := List.pairwise_singleton _ _
      sequences := List.pairwise_singleton _ _
      fresh := by simp [sampleWaiting]
      ids := by simp [sampleWaiting] }

/-- The publish target has moved from `"a"` to `"ab"` since the ticket waits, and the call lands
its candidate all the same. -/
theorem waitingTicket_lands :
    (sampleWaitingWorld (some "a")).publishTarget = some "ab" ∧
      ((coordinateHubQueueHeadLanding sampleGit sampleHeadPolicy sampleHeadInput 0).run
        (sampleWaitingWorld (some "a"))).1.toOption.join.map (·.attempt.kind) =
          some (.landed
            { transactionId := "tx", candidateOid := "abb", publishTargetOid := "abb"
              fenceOid := "fence uuid", receiptOid := "receipt tx" }) ∧
      ((coordinateHubQueueHeadLanding sampleGit sampleHeadPolicy sampleHeadInput 0).exec
        (sampleWaitingWorld (some "a"))).publishTarget = some "abb" := by
  refine ⟨rfl, ?_, ?_⟩
  · decide +kernel
  · decide +kernel

/-- A stable target starts no new activation: the ticket keeps its three drifts. -/
theorem quietWaitEnforced_iff_stable :
    ∃ outcome t, (prepareQueueHead sampleGit sampleHeadInput).run
        (sampleWaitingWorld (some "ab")) = (.ok outcome, t) ∧
      ¬WaitEnforced sampleHeadInput (sampleWaiting (some "ab")) outcome
        (sampleWaitingWorld (some "ab")) t := by
  refine ⟨_, _, rfl, ?_⟩
  rw [quietWaitEnforced_iff sampleGit sampleHeadInput sampleHeadInput_leavesQueue rfl
    (sampleWaitingWorld_wf _ _ rfl) rfl rfl]
  intro h
  have hcount := h "ab" rfl
  revert hcount
  decide

end ArchLoop
