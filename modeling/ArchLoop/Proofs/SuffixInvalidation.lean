import ArchLoop.Queue
import ArchLoop.Sample

/-!
# `ArchLoop.Proofs.SuffixInvalidation`: what a suffix invalidation touches

`invalidateHubLandingSpeculativeSuffix` withdraws the tickets behind an origin. It should leave
alone what has landed locally (`SparesLanded`). A ticket that is `publishing` has landed locally,
too, but it is not among the statuses that the filter of the source leaves out.

`exec_invalidateSuffix` is the run of the function, and `sparesLanded_iff` says when it spares
what has landed: no ticket behind the origin is publishing, and no withdrawn ticket shares its
transaction with one that has landed.
-/

set_option autoImplicit false

namespace ArchLoop

open ArchLoop.Lib

/-! ### Statement -/

def HubLandingTicketStatus.landedLocally : HubLandingTicketStatus → Bool
  | .landed | .publishing => true
  | _ => false

/-- A ticket changes only behind the origin and while it is speculative. -/
def SparesTicket (origin old new : HubLandingQueueTicket) : Prop :=
  new = old ∨ origin.sequence < old.sequence ∧ old.status.eligible = true

/-- The step from `s` to `t` spares what has landed in the queue `q`.

- `tickets`: the tickets stay, up to speculative ones behind the origin.
- `artifacts`: the verification artifacts of what has landed are still there. -/
structure SparesLanded (origin : HubLandingQueueTicket) (q : HubLandingQueueState)
    (s t : HubWorld) : Prop where
  tickets : ∃ q', t.queue = some q' ∧ List.Forall₂ (SparesTicket origin) q.tickets q'.tickets
  artifacts : ∀ ticket ∈ q.tickets, ticket.status.landedLocally = true →
    ∀ id ∈ ticket.transactionId, t.artifact id = s.artifact id

/-- Nothing that has landed is in the way of a withdrawal.

- `publishing`: no ticket behind the origin is publishing.
- `shared`: a withdrawn ticket does not share a transaction that has an artifact with a ticket
  that has landed. -/
structure LandedApart (origin : HubLandingQueueTicket) (q : HubLandingQueueState)
    (s : HubWorld) : Prop where
  publishing : ∀ ticket ∈ q.tickets, origin.sequence < ticket.sequence →
    ticket.status ≠ .publishing
  shared : ∀ ticket ∈ q.tickets, behindOrigin origin ticket = true →
    ∀ landed ∈ q.tickets, landed.status.landedLocally = true →
    ∀ id ∈ landed.transactionId, ticket.transactionId = some id → s.artifact id = none

/-! ### The run -/

def withoutArtifacts (tickets : List HubLandingQueueTicket)
    (artifact : TransactionId → Option HubLandingVerificationArtifact) :
    TransactionId → Option HubLandingVerificationArtifact := fun id =>
  if ∃ ticket ∈ tickets, ticket.transactionId = some id then none else artifact id

theorem run_removeArtifacts (tickets : List HubLandingQueueTicket) (s : HubWorld) :
    (removeArtifacts tickets).run s =
      (.ok (), { s with artifact := withoutArtifacts tickets s.artifact }) := by
  induction tickets generalizing s with
  | nil =>
    have hsame : withoutArtifacts [] s.artifact = s.artifact := by
      funext id
      simp [withoutArtifacts]
    rw [hsame]
    rfl
  | cons ticket tickets ih =>
    rw [removeArtifacts]
    cases hid : ticket.transactionId with
    | none =>
      show (removeArtifacts tickets).run s = _
      have hsame : withoutArtifacts tickets s.artifact =
          withoutArtifacts (ticket :: tickets) s.artifact := by
        funext id
        simp [withoutArtifacts, hid]
      rw [ih s, hsame]
    | some transactionId =>
      show (removeArtifacts tickets).run
        { s with artifact := Function.update s.artifact transactionId none } = _
      rw [ih]
      have hsame : withoutArtifacts tickets (Function.update s.artifact transactionId none) =
          withoutArtifacts (ticket :: tickets) s.artifact := by
        funext id
        by_cases heq : id = transactionId
        · subst heq
          simp [withoutArtifacts, hid]
        · have hne : transactionId ≠ id := fun h => heq h.symm
          simp [withoutArtifacts, hid, heq, hne]
      rw [hsame]

variable {fromTaskId : TaskId} {reason : String} {now : Timestamp} {s : HubWorld}
  {q : HubLandingQueueState} {origin : HubLandingQueueTicket}

theorem exec_invalidateSuffix (hqueue : s.queue = some q)
    (horigin : q.findTicket fromTaskId = some origin) :
    (invalidateHubLandingSpeculativeSuffix fromTaskId reason now).exec s =
      { s with
        artifact := withoutArtifacts (q.tickets.filter (behindOrigin origin)) s.artifact
        queue := some (invalidateSuffix q origin now reason) } := by
  have hremove := run_removeArtifacts (q.tickets.filter (behindOrigin origin)) s
  simp only [Prog.exec, invalidateHubLandingSpeculativeSuffix, readHubLandingQueue, Prog.bind_eq,
    Prog.run_bind, Prog.run_reads, hqueue, horigin, hremove]
  rfl

/-! ### Tickets -/

theorem eligible_of_behindOrigin {ticket : HubLandingQueueTicket}
    (h : behindOrigin origin ticket = true) (hne : ticket.status ≠ .publishing) :
    origin.sequence < ticket.sequence ∧ ticket.status.eligible = true := by
  rw [behindOrigin, Bool.not_eq_true', Bool.or_eq_false_iff, Bool.or_eq_false_iff] at h
  obtain ⟨⟨hsequence, hterminal⟩, hblocked⟩ := h
  have hlt : origin.sequence < ticket.sequence := by
    simpa using hsequence
  refine ⟨hlt, ?_⟩
  cases hstatus : ticket.status <;> simp_all [HubLandingTicketStatus.terminal,
    HubLandingTicketStatus.eligible]

theorem behindOrigin_of_publishing {ticket : HubLandingQueueTicket}
    (hlt : origin.sequence < ticket.sequence) (hstatus : ticket.status = .publishing) :
    behindOrigin origin ticket = true := by
  have hle : ¬ticket.sequence ≤ origin.sequence := by omega
  simp [behindOrigin, hstatus, hle, HubLandingTicketStatus.terminal]

theorem sparesTicket_iff (tickets : List HubLandingQueueTicket) :
    List.Forall₂ (SparesTicket origin) tickets
        (tickets.map fun ticket =>
          if behindOrigin origin ticket then invalidatedTicket ticket now reason else ticket) ↔
      ∀ ticket ∈ tickets, origin.sequence < ticket.sequence → ticket.status ≠ .publishing := by
  rw [List.forall₂_map_right_iff, List.forall₂_same]
  refine forall₂_congr fun ticket _ => ?_
  constructor
  · intro h hlt hstatus
    rw [behindOrigin_of_publishing hlt hstatus, if_pos rfl] at h
    rcases h with hsame | ⟨-, heligible⟩
    · have hinvalidated : (invalidatedTicket ticket now reason).status = ticket.status := by
        rw [hsame]
      rw [hstatus] at hinvalidated
      cases hinvalidated
    · rw [hstatus] at heligible
      cases heligible
  · intro h
    cases hbehind : behindOrigin origin ticket with
    | false => exact Or.inl (if_neg Bool.false_ne_true)
    | true =>
      have hlt : origin.sequence < ticket.sequence := by
        have hnot : ticket.status ≠ .publishing := by
          intro hstatus
          refine h ?_ hstatus
          rw [behindOrigin, Bool.not_eq_true', Bool.or_eq_false_iff,
            Bool.or_eq_false_iff] at hbehind
          simpa using hbehind.1.1
        exact (eligible_of_behindOrigin hbehind hnot).1
      exact Or.inr (eligible_of_behindOrigin hbehind (h hlt))

/-! ### Main result -/

/-- An invalidation spares what has landed exactly when nothing that has landed is in its way. -/
theorem sparesLanded_iff (hqueue : s.queue = some q)
    (horigin : q.findTicket fromTaskId = some origin) :
    SparesLanded origin q s
        ((invalidateHubLandingSpeculativeSuffix fromTaskId reason now).exec s) ↔
      LandedApart origin q s := by
  rw [exec_invalidateSuffix hqueue horigin]
  constructor
  · intro h
    obtain ⟨q', hq', htickets⟩ := h.tickets
    cases hq'
    refine ⟨(sparesTicket_iff q.tickets).mp htickets, ?_⟩
    intro ticket hticket hbehind landed hlanded hstatus id hid hshared
    have hkept := h.artifacts landed hlanded hstatus id hid
    rw [← hkept]
    exact if_pos ⟨ticket, List.mem_filter.mpr ⟨hticket, hbehind⟩, hshared⟩
  · intro h
    refine ⟨⟨_, rfl, (sparesTicket_iff q.tickets).mpr h.publishing⟩, ?_⟩
    intro landed hlanded hstatus id hid
    show withoutArtifacts _ s.artifact id = s.artifact id
    rw [withoutArtifacts]
    split
    · rename_i hshared
      obtain ⟨ticket, hmem, htransaction⟩ := hshared
      obtain ⟨hticket, hbehind⟩ := List.mem_filter.mp hmem
      exact (h.shared ticket hticket hbehind landed hlanded hstatus id hid htransaction).symm
    · rfl

/-! ### Sample -/

/-- A ticket of the task with a status and a transaction. -/
def ticketOf (taskId : TaskId) (sequence : Nat) (status : HubLandingTicketStatus) :
    HubLandingQueueTicket where
  ticketId := resolveTicketId taskId sequence
  sequence := sequence
  taskId := taskId
  assignedAt := 0
  status := status
  transactionId := some s!"tx-{taskId}"

/-- Task `b` has landed while task `a`, with the ticket before it, has not. -/
def overtakenQueue (status : HubLandingTicketStatus) : HubLandingQueueState where
  nextSequence := 3
  tickets := [ticketOf "a" 1 .speculating, ticketOf "b" 2 status]

def overtakenWorld (status : HubLandingTicketStatus) : HubWorld :=
  { queue := some (overtakenQueue status)
    artifact := fun _ => some (sampleArtifact "ab") }

/-- A drift of task `a` withdraws the publishing ticket of task `b`. -/
theorem publishing_withdrawn :
    ¬SparesLanded (ticketOf "a" 1 .speculating) (overtakenQueue .publishing)
      (overtakenWorld .publishing)
      ((invalidateHubLandingSpeculativeSuffix "a" "target_drift" 0).exec
        (overtakenWorld .publishing)) := by
  intro h
  have hartifact := h.artifacts (ticketOf "b" 2 .publishing) (by decide) (by decide) "tx-b"
    (by decide)
  revert hartifact
  decide

/-- A landed ticket is spared. -/
theorem landed_spared :
    SparesLanded (ticketOf "a" 1 .speculating) (overtakenQueue .landed)
      (overtakenWorld .landed)
      ((invalidateHubLandingSpeculativeSuffix "a" "target_drift" 0).exec
        (overtakenWorld .landed)) := by
  refine (sparesLanded_iff (q := overtakenQueue .landed) rfl (by decide)).mpr ⟨?_, ?_⟩
  · decide
  · intro ticket hticket hbehind landed hlanded hstatus id hid hshared
    revert hbehind hstatus
    simp only [overtakenQueue, List.mem_cons, List.not_mem_nil, or_false] at hticket
    rcases hticket with rfl | rfl <;> decide +revert

end ArchLoop
