import ArchLoop.Landing

/-!
# `ArchLoop.Queue`: the landing queue

The model of `hubLandingQueue.ts`. The queue is one JSON file. Each operation reads the whole
file, computes a new queue, and renames a new file into place, so a program here is a read
step and a write step with a pure function between them.

- `assignTickets` gives each task one ticket and numbers new tickets in order.
- `patchTicket` is the pure part of `updateTicket`, on which all marks rest.
- `invalidateSuffix` withdraws the tickets behind one that drifted or failed.
- `resolveHubLandingQueueHead`, `findEarlierRequiredDeliveryHold` and
  `canLandHubLandingTicket` decide whether a ticket may land.

The invariant of the file, and that each operation keeps it, are in
`Proofs/QueueInvariant.lean`.
-/

set_option autoImplicit false

namespace ArchLoop

open ArchLoop.Lib

/-- `HUB_LANDING_TARGET_DRIFT_REBUILD_LIMIT`. -/
def HUB_LANDING_TARGET_DRIFT_REBUILD_LIMIT : Nat := 3

/-- `ELIGIBLE_STATUSES`. -/
def HubLandingTicketStatus.eligible : HubLandingTicketStatus → Bool
  | .queued | .speculating | .verified | .invalidated | .targetQuietWait => true
  | .landed | .publishing | .blockedUnshippedPrerequisite | .failed => false

/-- `TERMINAL_STATUSES`. -/
def HubLandingTicketStatus.terminal : HubLandingTicketStatus → Bool
  | .landed | .failed => true
  | _ => false

/-- A task of `assignHubLandingQueueTickets`. -/
structure HubLandingQueueTaskInput where
  taskId : TaskId
  blockerTaskIds : Option (List TaskId) := none
  sourceOid : Option Oid := none
  deriving DecidableEq, Repr

/-- The id of the ticket of a task with a sequence number. -/
def resolveTicketId (taskId : TaskId) (sequence : Nat) : String :=
  s!"lqt-{safeTaskId taskId}-{sequence}"

/-- `emptyQueue`. -/
def emptyQueue : HubLandingQueueState where
  nextSequence := 1
  tickets := []

namespace HubLandingQueueState

variable (queue : HubLandingQueueState)

/-- The ticket of a task: the first one in the file. -/
def findTicket (taskId : TaskId) : Option HubLandingQueueTicket :=
  queue.tickets.find? (·.taskId == taskId)

/-- `replaceTicket`: the ticket takes the place of those with its id. -/
def replaceTicket (ticket : HubLandingQueueTicket) : HubLandingQueueState :=
  { queue with
    tickets := queue.tickets.map fun entry =>
      if entry.ticketId = ticket.ticketId then ticket else entry }

/-- The pure part of `updateTicket`: the queue with the task's ticket patched, unless the
task has none. -/
def patchTicket (taskId : TaskId) (patch : HubLandingQueueTicket → HubLandingQueueTicket) :
    Option (HubLandingQueueState × HubLandingQueueTicket) :=
  (queue.findTicket taskId).map fun current => (queue.replaceTicket (patch current), patch current)

/-- The tickets by task id that `assignHubLandingQueueTickets` looks up: the last ticket of
a task wins. -/
def byTaskId : TaskId → Option HubLandingQueueTicket :=
  queue.tickets.foldl (fun m ticket => Function.update m ticket.taskId (some ticket))
    fun _ => none

end HubLandingQueueState

/-- The ticket of a task that already has one: blockers and source are refreshed, and an
invalidated ticket is queued again. -/
def refreshTicket (task : HubLandingQueueTaskInput) (current : HubLandingQueueTicket) :
    HubLandingQueueTicket :=
  { current with
    blockerTaskIds := task.blockerTaskIds.getD current.blockerTaskIds
    sourceOid := task.sourceOid <|> current.sourceOid
    status := if current.status = .invalidated then .queued else current.status }

/-- The ticket of a task that has none. -/
def newTicket (task : HubLandingQueueTaskInput) (sequence : Nat) (now : Timestamp) :
    HubLandingQueueTicket where
  ticketId := resolveTicketId task.taskId sequence
  sequence := sequence
  taskId := task.taskId
  assignedAt := now
  status := .queued
  blockerTaskIds := task.blockerTaskIds.getD []
  sourceOid := task.sourceOid

/-- The list with its first ticket of that id replaced. -/
def replaceFirst (ticket : HubLandingQueueTicket) :
    List HubLandingQueueTicket → List HubLandingQueueTicket
  | [] => []
  | entry :: rest =>
    if entry.ticketId = ticket.ticketId then ticket :: rest else entry :: replaceFirst ticket rest

/-- The loop of `assignHubLandingQueueTickets` over the tasks. -/
def assignLoop (now : Timestamp) :
    List HubLandingQueueTaskInput → (TaskId → Option HubLandingQueueTicket) →
      HubLandingQueueState → HubLandingQueueState
  | [], _, queue => queue
  | task :: tasks, byTaskId, queue =>
    match byTaskId task.taskId with
    | some current =>
      assignLoop now tasks byTaskId
        { queue with tickets := replaceFirst (refreshTicket task current) queue.tickets }
    | none =>
      let ticket := newTicket task queue.nextSequence now
      assignLoop now tasks (Function.update byTaskId task.taskId (some ticket))
        { nextSequence := queue.nextSequence + 1, tickets := queue.tickets ++ [ticket] }

/-- The pure part of `assignHubLandingQueueTickets`. -/
def assignTickets (existing : HubLandingQueueState) (tasks : List HubLandingQueueTaskInput)
    (now : Timestamp) : HubLandingQueueState :=
  assignLoop now tasks existing.byTaskId existing

/-- The ticket that `invalidateHubLandingSpeculativeSuffix` leaves for one behind the
origin. -/
def invalidatedTicket (ticket : HubLandingQueueTicket) (now : Timestamp) (reason : String) :
    HubLandingQueueTicket :=
  { ticket with
    status := .invalidated
    candidateOid := none
    predecessorOid := none
    transactionId := none
    suffixInvalidatedAt := some now
    suffixInvalidationReason := some reason }

/-- The ticket lies behind the origin and may still be withdrawn. -/
def behindOrigin (origin ticket : HubLandingQueueTicket) : Bool :=
  !(ticket.sequence ≤ origin.sequence || ticket.status.terminal ||
    ticket.status == .blockedUnshippedPrerequisite)

/-- The pure part of `invalidateHubLandingSpeculativeSuffix` for a queue that has the
origin. -/
def invalidateSuffix (queue : HubLandingQueueState) (origin : HubLandingQueueTicket)
    (now : Timestamp) (reason : String) : HubLandingQueueState :=
  { queue with
    tickets := queue.tickets.map fun ticket =>
      if behindOrigin origin ticket then invalidatedTicket ticket now reason else ticket }

/-! ### The gate -/

/-- `blockersShipped`. -/
def blockersShipped (ticket : HubLandingQueueTicket) (shipped : TaskId → Bool) : Bool :=
  ticket.blockerTaskIds.all shipped

/-- The tickets of a list by their sequence, and of these the first. -/
def firstBySequence (tickets : List HubLandingQueueTicket) : Option HubLandingQueueTicket :=
  (tickets.insertionSort fun a b => a.sequence ≤ b.sequence).head?

/-- `resolveHubLandingQueueHead`: the eligible ticket with shipped blockers that comes
first. -/
def resolveHubLandingQueueHead (queue : Option HubLandingQueueState) (shipped : TaskId → Bool) :
    Option HubLandingQueueTicket :=
  match queue with
  | none => none
  | some q => firstBySequence <| q.tickets.filter fun ticket =>
      ticket.status.eligible && blockersShipped ticket shipped

/-- `findEarlierRequiredDeliveryHold`: the first ticket before the task's that is
publishing. -/
def findEarlierRequiredDeliveryHold (queue : Option HubLandingQueueState) (taskId : TaskId) :
    Option HubLandingQueueTicket :=
  match queue with
  | none => none
  | some q =>
    match q.findTicket taskId with
    | none => none
    | some mine => firstBySequence <| q.tickets.filter fun ticket =>
        decide (ticket.sequence < mine.sequence) && ticket.status == .publishing

/-- The decision of `canLandHubLandingTicket`. A caller that gives no shipped set has none
of the tasks shipped. -/
def mayLand (queue : Option HubLandingQueueState) (taskId : TaskId)
    (shipped : Option (TaskId → Bool)) : Bool :=
  (findEarlierRequiredDeliveryHold queue taskId).isNone &&
    (resolveHubLandingQueueHead queue (shipped.getD fun _ => false)).map (·.taskId) == some taskId

/-! ### The programs on the file -/

/-- `readHubLandingQueue`. -/
def readHubLandingQueue : Hub (Option HubLandingQueueState) :=
  .reads fun s => s.queue

/-- `writeQueue`: an atomic rename of the whole file. -/
def writeQueue (queue : HubLandingQueueState) : Hub Unit :=
  .modify fun s => { s with queue := some queue }

/-- `findHubLandingQueueTicket`. -/
def findHubLandingQueueTicket (taskId : TaskId) : Hub (Option HubLandingQueueTicket) := do
  let queue ← readHubLandingQueue
  return queue.bind (·.findTicket taskId)

/-- Gives each task its ticket. -/
def assignHubLandingQueueTickets (tasks : List HubLandingQueueTaskInput) (now : Timestamp) :
    Hub HubLandingQueueState := do
  let existing ← readHubLandingQueue
  let queue := assignTickets (existing.getD emptyQueue) tasks now
  writeQueue queue
  return queue

/-- `canLandHubLandingTicket`. -/
def canLandHubLandingTicket (taskId : TaskId) (shipped : Option (TaskId → Bool)) : Hub Bool := do
  let queue ← readHubLandingQueue
  return mayLand queue taskId shipped

/-- `resolveRequiredDeliveryPredecessor`. -/
def resolveRequiredDeliveryPredecessor (taskId : TaskId) : Hub (Option HubLandingQueueTicket) := do
  let queue ← readHubLandingQueue
  return findEarlierRequiredDeliveryHold queue taskId

/-- Patches the ticket of a task, when the queue has one. -/
def updateTicket (taskId : TaskId) (patch : HubLandingQueueTicket → HubLandingQueueTicket) :
    Hub (Option HubLandingQueueTicket) := do
  let queue ← readHubLandingQueue
  match queue.bind fun q => q.patchTicket taskId patch with
  | none => return none
  | some (next, ticket) =>
    writeQueue next
    return some ticket

/-- The ticket after `recordHubLandingQueueCandidate`. -/
def withCandidate (sourceOid predecessorOid candidateOid : Oid) (transactionId : TransactionId)
    (ticket : HubLandingQueueTicket) : HubLandingQueueTicket :=
  { ticket with
    status := .speculating, sourceOid := some sourceOid, predecessorOid := some predecessorOid
    candidateOid := some candidateOid, transactionId := some transactionId }

/-- `recordHubLandingQueueCandidate`. -/
def recordHubLandingQueueCandidate (candidate : HubLandingCandidate) :
    Hub (Option HubLandingQueueTicket) :=
  updateTicket candidate.taskId
    (withCandidate candidate.sourceOid candidate.baseOid candidate.candidateOid
      candidate.transactionId)

/-- The ticket with another status. -/
def withStatus (status : HubLandingTicketStatus) (ticket : HubLandingQueueTicket) :
    HubLandingQueueTicket :=
  { ticket with status := status }

/-- The ticket with another status and its drift bookkeeping cleared. -/
def settled (status : HubLandingTicketStatus) (ticket : HubLandingQueueTicket) :
    HubLandingQueueTicket :=
  { ticket with status := status, activationDriftRebuilds := 0, quietWaitEnteredAt := none }

/-- `markHubLandingQueueVerified`. -/
def markHubLandingQueueVerified (taskId : TaskId) : Hub (Option HubLandingQueueTicket) :=
  updateTicket taskId (withStatus .verified)

/-- `markHubLandingQueueLanded`. -/
def markHubLandingQueueLanded (taskId : TaskId) : Hub (Option HubLandingQueueTicket) :=
  updateTicket taskId (settled .landed)

/-- `markHubLandingQueuePublishing`. -/
def markHubLandingQueuePublishing (taskId : TaskId) : Hub (Option HubLandingQueueTicket) :=
  updateTicket taskId (settled .publishing)

/-- `markHubLandingQueueFailed`. -/
def markHubLandingQueueFailed (taskId : TaskId) : Hub (Option HubLandingQueueTicket) :=
  updateTicket taskId (withStatus .failed)

/-- `markHubLandingQueueBlockedPrerequisite`. -/
def markHubLandingQueueBlockedPrerequisite (taskId : TaskId) :
    Hub (Option HubLandingQueueTicket) :=
  updateTicket taskId (withStatus .blockedUnshippedPrerequisite)

/-- Removes the artifacts of the withdrawn tickets, one after the other. -/
def removeArtifacts : List HubLandingQueueTicket → Hub Unit
  | [] => return ()
  | ticket :: rest => do
    match ticket.transactionId with
    | some transactionId => invalidateHubLandingCandidate transactionId
    | none => pure ()
    removeArtifacts rest

/-- Withdraws the tickets behind a task's, with their artifacts. -/
def invalidateHubLandingSpeculativeSuffix (fromTaskId : TaskId) (reason : String)
    (now : Timestamp) : Hub (List HubLandingQueueTicket) := do
  let queue ← readHubLandingQueue
  match queue with
  | none => return []
  | some q =>
    match q.findTicket fromTaskId with
    | none => return []
    | some origin =>
      let behind := q.tickets.filter (behindOrigin origin)
      removeArtifacts behind
      writeQueue (invalidateSuffix q origin now reason)
      return behind.map fun ticket => invalidatedTicket ticket now reason

/-- The ticket after `recordHubLandingDriftRebuild`. -/
def driftRebuilt (activationId : String) (rebuilds : Nat) (observedTargetOid : Oid)
    (ticket : HubLandingQueueTicket) : HubLandingQueueTicket :=
  { ticket with
    activationId := some activationId, activationDriftRebuilds := rebuilds
    lastObservedTargetOid := some observedTargetOid, status := .queued }

/-- `recordHubLandingDriftRebuild`: the count comes from a first read of the file, and the
patch from a second one. -/
def recordHubLandingDriftRebuild (taskId : TaskId) (observedTargetOid : Oid) (now : Timestamp) :
    Hub (Option HubLandingQueueTicket) := do
  let current ← findHubLandingQueueTicket taskId
  let activationId := (current.bind (·.activationId)).getD s!"act-{taskId}-{now}"
  updateTicket taskId
    (driftRebuilt activationId ((current.map (·.activationDriftRebuilds)).getD 0 + 1)
      observedTargetOid)

/-- `shouldEnterHubLandingQuietWait`. -/
def shouldEnterHubLandingQuietWait (taskId : TaskId) : Hub Bool := do
  let ticket ← findHubLandingQueueTicket taskId
  return decide ((ticket.map (·.activationDriftRebuilds)).getD 0 ≥
    HUB_LANDING_TARGET_DRIFT_REBUILD_LIMIT)

/-- The ticket after `enterHubLandingQuietWait`. -/
def quietWaiting (observedTargetOid : Oid) (now : Timestamp) (ticket : HubLandingQueueTicket) :
    HubLandingQueueTicket :=
  { ticket with
    status := .targetQuietWait, lastObservedTargetOid := some observedTargetOid
    quietWaitEnteredAt := some now }

/-- `enterHubLandingQuietWait`. -/
def enterHubLandingQuietWait (taskId : TaskId) (observedTargetOid : Oid) (now : Timestamp) :
    Hub (Option HubLandingQueueTicket) :=
  updateTicket taskId (quietWaiting observedTargetOid now)

/-- The results of `resumeHubLandingQuietWaitIfStable`. -/
inductive HubQuietWaitResume where
  | resumed
  | waiting
  | notWaiting
  deriving DecidableEq, Repr

/-- The ticket that observed another target while it waits. -/
def stillWaiting (observedTargetOid : Oid) (ticket : HubLandingQueueTicket) :
    HubLandingQueueTicket :=
  { ticket with lastObservedTargetOid := some observedTargetOid }

/-- The ticket that leaves the quiet wait with a new activation. -/
def resumedTicket (activationId : String) (observedTargetOid : Oid)
    (ticket : HubLandingQueueTicket) : HubLandingQueueTicket :=
  { ticket with
    status := .queued, activationId := some activationId, activationDriftRebuilds := 0
    quietWaitEnteredAt := none, lastObservedTargetOid := some observedTargetOid }

/-- `resumeHubLandingQuietWaitIfStable`. -/
def resumeHubLandingQuietWaitIfStable (taskId : TaskId) (observedTargetOid : Oid)
    (now : Timestamp) : Hub HubQuietWaitResume := do
  let ticket ← findHubLandingQueueTicket taskId
  match ticket.filter (·.status == .targetQuietWait) with
  | none => return .notWaiting
  | some current =>
    if current.lastObservedTargetOid.any (· != observedTargetOid) then
      let _ticket ← updateTicket taskId (stillWaiting observedTargetOid)
      return .waiting
    else
      let _ticket ← updateTicket taskId (resumedTicket s!"act-{taskId}-{now}" observedTargetOid)
      return .resumed

end ArchLoop
