import ArchLoop.FlowExecution
import ArchLoop.Lib.Pool
import ArchLoop.Proofs.Frames
import ArchLoop.Proofs.LandingGate
import ArchLoop.Sample

/-!
# `ArchLoop.Proofs.DeliveryHold`: who releases a ticket that is publishing

`awaitRequiredPublicationBeforeClose` marks a ticket `publishing`, and marks it `landed` when
the delivery succeeded in time. After a timeout or a crash the ticket stays `publishing`, and
it holds every later ticket back. The proof of delivery is in the publication outbox, and
what a later run does at its start and end (reconciliation and publication) never writes the
queue: `deliveryHold_kept`.
-/

set_option autoImplicit false

namespace ArchLoop

open ArchLoop.Lib

inductive RunEdge where
  | start (input : HubLandingReconciliationInput)
  | finish (input : HubLandingReconciliationInput)

def runEdgeCode (git : Git) : Unit → RunEdge → Hub Unit
  | _, .start input => startLandingWork git input
  | _, .finish input => endLandingWork git input

/-- Each ticket that is publishing stays in the queue as it is. -/
def KeepsHolds (s t : HubWorld) : Prop :=
  ∀ q, s.queue = some q → ∃ q', t.queue = some q' ∧
    ∀ ticket ∈ q.tickets, ticket.status = .publishing → ticket ∈ q'.tickets

/-- Runs with any moves from outside, among them those of a merge phase for other tickets, as
long as these leave the tickets that are publishing to the run. -/
def edgeRuns : Discipline Unit RunEdge HubWorld where
  start := fun _ _ _ => True
  env := KeepsHolds
  allowed := fun _ _ _ _ => True

abbrev EdgePool : Type := Pool Unit RunEdge HubWorld HubError Unit

theorem KeepsHolds.of_queue {s t : HubWorld} (h : t.queue = s.queue) : KeepsHolds s t := by
  intro q hq
  exact ⟨q, h.trans hq, fun _ h _ => h⟩

theorem KeepsHolds.trans {s t u : HubWorld} (h₁ : KeepsHolds s t) (h₂ : KeepsHolds t u) :
    KeepsHolds s u := by
  intro q hq
  obtain ⟨q₁, hq₁, hkeep₁⟩ := h₁ q hq
  obtain ⟨q₂, hq₂, hkeep₂⟩ := h₂ q₁ hq₁
  exact ⟨q₂, hq₂, fun ticket hmem hs => hkeep₂ ticket (hkeep₁ ticket hmem hs) hs⟩

/-! ### The queue is not written -/

section
variable {git : Git}

theorem ensureHubLandingPolicy_keeps_queue (call : HubCall) (hostTargetBranch : String) :
    (ensureHubLandingPolicy git call hostTargetBranch).Keeps HubWorld.queue := by
  have hmodify : ∀ f : HubWorld → HubWorld, (∀ s, (f s).queue = s.queue) →
      (Prog.modify f : Hub Unit).Keeps HubWorld.queue := fun f h => Prog.always_modify.mpr h
  have hhead : (revParse "HEAD" fun s => s.head).Keeps HubWorld.queue :=
    revParse_always (P := fun s t => t.queue = s.queue) (fun _ => rfl) _ _
  refine Prog.always_bind (Prog.always_reads.mpr fun _ => rfl) fun existing => ?_
  cases existing with
  | some policy =>
    refine Prog.always_bind hhead fun head => ?_
    refine Prog.always_bind (hmodify _ fun _ => rfl) fun _ => ?_
    exact Prog.always_bind (hmodify _ fun _ => rfl) fun _ => Prog.always_ret _
  | none =>
    refine Prog.always_bind hhead fun head => ?_
    refine Prog.always_bind (hmodify _ fun _ => rfl) fun _ => ?_
    refine Prog.always_bind (hmodify _ fun _ => rfl) fun _ => ?_
    exact Prog.always_bind (hmodify _ fun _ => rfl) fun _ => Prog.always_ret _

theorem keeps_queue_of_move {α : Type} {p : Hub α} {id : TransactionId} {task : TaskId}
    (h : p.Makes (TransactionMove id task)) : p.Keeps HubWorld.queue :=
  h.always.mono fun _ _ h => h.queue

theorem adoptClassified_keeps_queue (call : HubCall) (entries : List HubLegacyLandingEvidence) :
    (adoptClassified git call entries).Keeps HubWorld.queue := by
  induction entries with
  | nil => exact Prog.always_ret _
  | cons entry entries ih =>
    unfold adoptClassified
    split
    · refine Prog.always_bind ?_ fun _ => Prog.always_bind ih fun _ => Prog.always_ret _
      unfold adoptContainedTask
      split
      · exact Prog.always_bind (keeps_queue_of_move (move_adoptSource rfl)) fun _ =>
          Prog.always_ret _
      · exact Prog.always_ret _
    · exact Prog.always_bind ih fun _ => Prog.always_ret _

theorem reconcileTransactions_keeps_queue (policy : HubLandingPolicy) (call : HubCall)
    (ids : List TransactionId) (count : Nat) :
    (reconcileTransactions git policy call ids count).Keeps HubWorld.queue := by
  have hread : ∀ {α : Type} (f : HubWorld → α), (Prog.reads f : Hub α).Keeps HubWorld.queue :=
    fun f => Prog.always_reads.mpr fun _ => rfl
  induction ids generalizing count with
  | nil => exact Prog.always_ret _
  | cons id ids ih =>
    refine Prog.always_bind (Prog.always_bind (hread _) fun before => ?_) fun reconciled => ?_
    · split
      · exact Prog.always_ret _
      · refine Prog.always_bind (hread _) fun journal => ?_
        -- The close is of the task that the evidence names; without one nothing is closed.
        have htask : ∀ k, before.taskId = some k → k = before.taskId.getD "" := by
          intro k hk
          rw [hk, Option.getD_some]
        have hwrite : (reconstructCheckpoints before journal).Makes
            (TransactionMove before.transactionId (before.taskId.getD "")) :=
          move_reconstructCheckpoints rfl
        have hfinish : (finishTransaction git policy call before).Makes
            (TransactionMove before.transactionId (before.taskId.getD "")) :=
          move_finishTransaction rfl htask
        refine Prog.always_bind (keeps_queue_of_move hwrite) fun _ => ?_
        exact Prog.always_bind (keeps_queue_of_move hfinish) fun _ => Prog.always_ret _
    · cases reconciled with
      | incident evidence => exact Prog.always_ret _
      | reconstructed written => exact ih _

theorem reconcileHubLandingTransactions_keeps_queue (input : HubLandingReconciliationInput) :
    (reconcileHubLandingTransactions git input).Keeps HubWorld.queue := by
  have hread : ∀ {α : Type} (f : HubWorld → α), (Prog.reads f : Hub α).Keeps HubWorld.queue :=
    fun f => Prog.always_reads.mpr fun _ => rfl
  refine Prog.always_bind (ensureHubLandingPolicy_keeps_queue _ _) fun policy => ?_
  refine Prog.always_bind ?_ fun legacy => Prog.always_bind (hread _) fun ids => ?_
  · unfold adoptBeforeReconciling
    split
    · exact Prog.always_ret _
    · refine Prog.always_bind (hread _) fun existing => ?_
      exact Prog.always_bind (hread _) fun classified => adoptClassified_keeps_queue _ _
  · refine Prog.always_bind (reconcileTransactions_keeps_queue _ _ _ _) fun reconciled => ?_
    cases reconciled with
    | incident evidence => exact Prog.always_ret _
    | reconstructed count => exact Prog.always_bind (hread _) fun _ => Prog.always_ret _

theorem syncHubPublications_keeps_queue : (syncHubPublications git).Keeps HubWorld.queue := by
  refine publish_projectHubPublicationOutbox.always.mono ?_
  rintro s _ ⟨_, _, _, _, rfl, -⟩
  rfl

theorem runEdgeCode_keeps_queue (i : Unit) (k : RunEdge) :
    (runEdgeCode git i k).Keeps HubWorld.queue := by
  cases k with
  | start input =>
    refine Prog.always_bind (ensureHubLandingPolicy_keeps_queue _ _) fun _ => ?_
    refine Prog.always_bind (reconcileHubLandingTransactions_keeps_queue _) fun _ => ?_
    exact Prog.always_bind syncHubPublications_keeps_queue fun _ => Prog.always_ret _
  | finish input =>
    exact Prog.always_bind (reconcileHubLandingTransactions_keeps_queue _) fun _ =>
      Prog.always_ret _

end

/-! ### Runs -/

/-- The state of each run keeps the tickets that published where the run began. -/
def holdContract (s₀ : HubWorld) : Contract Unit RunEdge HubWorld HubError Unit where
  inv := KeepsHolds s₀
  rely := fun _ _ _ => True
  guar := fun _ _ _ _ _ => True
  post := fun _ _ _ _ => True

/-- Step lemma: each step at the edges of a run keeps them, because it does not write the
queue. -/
theorem holdContract_holds (git : Git) (s₀ : HubWorld) :
    (holdContract s₀).Holds edgeRuns (runEdgeCode git) where
  rely_refl _ _ := trivial
  rely_trans _ _ _ _ _ _ := trivial
  guar_rely _ _ _ _ _ _ _ _ _ := trivial
  env_keeps _ _ hs henv := ⟨hs.trans henv, fun _ => trivial⟩
  sat i k s _ _ := by
    have hstep : ∀ t t', KeepsHolds s₀ t → t'.queue = t.queue → KeepsHolds s₀ t' :=
      fun t t' ht hqueue => ht.trans (.of_queue hqueue)
    refine Prog.sat_mono (Q := fun _ _ => True) (E := fun _ _ => True) ?_
      (fun _ _ _ => trivial) (fun _ _ _ => trivial)
    exact (runEdgeCode_keeps_queue i k).sat_step
      (fun _ t t' _ hinv _ _ hqueue => ⟨trivial, hstep t t' hinv hqueue, trivial⟩) trivial

/-- An earlier ticket that is publishing holds a later one: the hold that is found does not
come after it. -/
theorem findEarlierRequiredDeliveryHold_of_publishing {q : HubLandingQueueState}
    {t u : HubLandingQueueTicket} (ht : t ∈ q.tickets) (hstatus : t.status = .publishing)
    (hu : q.findTicket u.taskId = some u) (hlt : t.sequence < u.sequence) :
    ∃ hold, findEarlierRequiredDeliveryHold (some q) u.taskId = some hold ∧
      hold.status = .publishing ∧ hold.sequence ≤ t.sequence := by
  have hmem : t ∈ q.tickets.filter fun ticket =>
      decide (ticket.sequence < u.sequence) && ticket.status == .publishing := by
    rw [List.mem_filter]
    exact ⟨ht, by simp [hlt, hstatus]⟩
  have hfind : findEarlierRequiredDeliveryHold (some q) u.taskId = firstBySequence
      (q.tickets.filter fun ticket =>
        decide (ticket.sequence < u.sequence) && ticket.status == .publishing) := by
    simp only [findEarlierRequiredDeliveryHold, hu]
  rw [hfind]
  cases hfirst : firstBySequence (q.tickets.filter fun ticket =>
      decide (ticket.sequence < u.sequence) && ticket.status == .publishing) with
  | none =>
    rw [firstBySequence_eq_none.mp hfirst] at hmem
    cases hmem
  | some hold =>
    obtain ⟨hin, hmin⟩ := firstBySequence_some hfirst
    have hhold := (List.mem_filter.mp hin).2
    simp only [Bool.and_eq_true, beq_iff_eq] at hhold
    exact ⟨hold, rfl, hhold.2, hmin t hmem⟩

/-- Whatever was delivered, a ticket that is publishing when a run begins is still publishing
after any number of reconciliations and publications at the start and the end of this run
and the next ones, with crashes and anything else between them. So each later ticket is still
held. -/
theorem deliveryHold_kept {git : Git} {s₀ : HubWorld} {q : HubLandingQueueState}
    (hq : s₀.queue = some q) {t : HubLandingQueueTicket} (ht : t ∈ q.tickets)
    (hstatus : t.status = .publishing) {c : EdgePool}
    (hc : Pool.Reach edgeRuns (runEdgeCode git) (Pool.idle s₀) c) :
    ∃ q', c.state.queue = some q' ∧ t ∈ q'.tickets ∧
      ∀ u, q'.findTicket u.taskId = some u → t.sequence < u.sequence →
        ∃ hold, findEarlierRequiredDeliveryHold (some q') u.taskId = some hold ∧
          hold.status = .publishing ∧ hold.sequence ≤ t.sequence := by
  have hok := (holdContract_holds git s₀).ok_reach (Contract.ok_idle (KeepsHolds.of_queue rfl)) hc
  obtain ⟨q', hq', hkeep⟩ := hok.1 q hq
  have ht' : t ∈ q'.tickets := hkeep t ht hstatus
  refine ⟨q', hq', ht', ?_⟩
  intro u hu hlt
  exact findEarlierRequiredDeliveryHold_of_publishing ht' hstatus hu hlt

/-! ### A delivered ticket -/

def sampleRequiredPolicy : HubLandingPolicy where
  hostTargetBranch := "main"
  publishPolicy := .required
  remoteTarget := some "origin/main"

def sampleLandedCandidate : HubLandingCandidate where
  transactionId := "tx"
  taskId := "a"
  branch := "task"
  sourceOid := "b"
  baseOid := "a"
  candidateOid := "ab"

/-- The task `a` has landed, the task `b` waits behind it, and the remote gives no usable
answer. -/
def sampleLandedWorld : HubWorld where
  head := some "a"
  publishTarget := some "ab"
  fence := some "fence"
  policy := some sampleRequiredPolicy
  transactionIds := ["tx"]
  candidateRef := Function.update (fun _ => none) "tx" (some "ab")
  receipt := Function.update (fun _ => none) "tx"
    (some ⟨⟨"tx", "a", "ab", "b", "a", "verifier", 0⟩, "receipt"⟩)
  queue := some ⟨3, [sampleTicket "a" 1 .landed, sampleTicket "b" 2 .queued]⟩
  remotes := fun _ => { garbled := true }

def sampleCloseSession : MergeTaskSession where
  input :=
    { board := [], selectedTasks := [], merge := fun _ _ w => (w, none)
      verifier := fun _ w => (w, none) }
  task := { id := "a" }
  policy := sampleRequiredPolicy

/-- The world after the close of `a` waited for its delivery in vain, once the remote
answers again. -/
def sampleTimedOutWorld : HubWorld :=
  { (closeLandedTask sampleGit sampleCloseSession sampleLandedCandidate).exec sampleLandedWorld with
    remotes := fun _ => {} }

def sampleRun (n : Nat) : List (Action Unit RunEdge HubWorld) :=
  .start () (.start {}) :: List.replicate n (.step ()) ++
    .finish () :: .start () (.finish {}) :: List.replicate 11 (.step ()) ++ [.finish ()]

theorem sampleRun_permitted (n : Nat) (c : EdgePool) :
    c.Permitted edgeRuns (runEdgeCode sampleGit) (sampleRun n) := by
  refine Pool.permitted_of_forall ?_ c
  intro a ha c
  simp only [sampleRun, List.cons_append, List.mem_cons, List.mem_append,
    List.mem_replicate, List.append_assoc, List.not_mem_nil, or_false] at ha
  rcases ha with rfl | ⟨-, rfl⟩ | rfl | rfl | ⟨-, rfl⟩ | rfl
  all_goals first | trivial | exact fun _ _ _ _ _ => trivial

/-- The ticket of `a` is publishing when the next run begins, and still is at its end. -/
theorem deliveryHold_kept_sample :
    ∃ c : EdgePool,
      Pool.Reach edgeRuns (runEdgeCode sampleGit) (Pool.idle sampleTimedOutWorld) c ∧
      ∃ q, c.state.queue = some q ∧ sampleTicket "a" 1 .publishing ∈ q.tickets := by
  have hreach : Pool.Reach edgeRuns (runEdgeCode sampleGit) (Pool.idle sampleTimedOutWorld) _ :=
    Pool.reach_of_exec (sampleRun 43) rfl (sampleRun_permitted 43 _)
  obtain ⟨q, hq, hmem, -⟩ :=
    deliveryHold_kept (q := ⟨3, [sampleTicket "a" 1 .publishing, sampleTicket "b" 2 .queued]⟩)
      (t := sampleTicket "a" 1 .publishing) rfl (List.mem_cons_self ..) rfl hreach
  exact ⟨_, hreach, q, hq, hmem⟩

/-- The next run delivers the candidate of `a`, and the run after it begins with that proof
and finishes. The ticket of `a` still holds the one of `b`. -/
theorem deliveredTicket_held :
    ∃ c c' : EdgePool,
      Pool.Reach edgeRuns (runEdgeCode sampleGit) (Pool.idle sampleTimedOutWorld) c ∧
      c.state.isHubRemotePublicationProven "tx" "ab" = true ∧
      Pool.Reach edgeRuns (runEdgeCode sampleGit) c c' ∧
      c'.returns = ((), .finish {}, .ok ()) :: ((), .start {}, .ok ()) :: c.returns ∧
      findEarlierRequiredDeliveryHold c'.state.queue "b" =
        some (sampleTicket "a" 1 .publishing) := by
  refine ⟨_, _, Pool.reach_of_exec (sampleRun 43) rfl (sampleRun_permitted 43 _), ?_,
    Pool.reach_of_exec (sampleRun 16) rfl (sampleRun_permitted 16 _), ?_, ?_⟩
  · decide
  · rfl
  · decide

end ArchLoop
