import ArchLoop.Lib.Pool
import ArchLoop.Proofs.QueueInvariant

/-!
# `ArchLoop.Proofs.QueueConcurrency`: several processes on one queue file

Each queue operation reads the file, and later renames a new file into place, without a lock.
So a process can write a queue that was computed from an old file, and what another process
wrote in between is lost: `lostTicket` is such a run, in which an assigned task ends without
a ticket.

`Undisturbed` is the condition under which this cannot happen: a call that changes the file
finds it as the call itself last saw it. In the runs where each step meets it,

- the queue stays well-formed, so tickets keep distinct sequences,
- a ticket changes only by a call that is about it (`HubQueueCall.Touches`),
- each task of a returned assignment has exactly one ticket.

`QueueMove` is what one step does to the file; `sat_updateTicket`,
`sat_assignHubLandingQueueTickets` and `sat_invalidateHubLandingSpeculativeSuffix` prove it
for each operation, and `queueContract_holds` collects them.
-/

set_option autoImplicit false

namespace ArchLoop

open ArchLoop.Lib HubLandingQueueState

inductive HubQueueCall where
  | assign (tasks : List HubLandingQueueTaskInput) (now : Timestamp)
  | candidate (input : HubLandingCandidate)
  | verified (taskId : TaskId)
  | landed (taskId : TaskId)
  | publishing (taskId : TaskId)
  | failed (taskId : TaskId)
  | blockedPrerequisite (taskId : TaskId)
  | driftRebuild (taskId : TaskId) (observedTargetOid : Oid) (now : Timestamp)
  | enterQuietWait (taskId : TaskId) (observedTargetOid : Oid) (now : Timestamp)
  | resumeQuietWait (taskId : TaskId) (observedTargetOid : Oid) (now : Timestamp)
  | invalidateSuffix (fromTaskId : TaskId) (reason : String) (now : Timestamp)

/-- The program of a call. Its result is the ticket that a mark wrote. -/
def queueCode {ι : Type} : ι → HubQueueCall → Hub (Option HubLandingQueueTicket)
  | _, .assign tasks now => do
    let _queue ← assignHubLandingQueueTickets tasks now
    return none
  | _, .candidate input => recordHubLandingQueueCandidate input
  | _, .verified taskId => markHubLandingQueueVerified taskId
  | _, .landed taskId => markHubLandingQueueLanded taskId
  | _, .publishing taskId => markHubLandingQueuePublishing taskId
  | _, .failed taskId => markHubLandingQueueFailed taskId
  | _, .blockedPrerequisite taskId => markHubLandingQueueBlockedPrerequisite taskId
  | _, .driftRebuild taskId observed now => recordHubLandingDriftRebuild taskId observed now
  | _, .enterQuietWait taskId observed now => enterHubLandingQuietWait taskId observed now
  | _, .resumeQuietWait taskId observed now => do
    let _resume ← resumeHubLandingQuietWaitIfStable taskId observed now
    return none
  | _, .invalidateSuffix fromTaskId reason now => do
    let _tickets ← invalidateHubLandingSpeculativeSuffix fromTaskId reason now
    return none

def HubQueueCall.Touches (queue : HubLandingQueueState) (t : HubLandingQueueTicket) :
    HubQueueCall → Prop
  | .assign tasks _ => ∃ task ∈ tasks, task.taskId = t.taskId
  | .candidate input => input.taskId = t.taskId
  | .verified taskId | .landed taskId | .publishing taskId | .failed taskId
  | .blockedPrerequisite taskId | .driftRebuild taskId _ _ | .enterQuietWait taskId _ _
  | .resumeQuietWait taskId _ _ => taskId = t.taskId
  | .invalidateSuffix fromTaskId _ _ =>
    ∃ origin, queue.findTicket fromTaskId = some origin ∧ behindOrigin origin t = true

/-- The queue file holds a well-formed queue, if it exists. -/
def QueueWf (s : HubWorld) : Prop :=
  ∀ q, s.queue = some q → q.Wf

/-- The tickets of the file are still there, whatever their status now is. -/
def TicketsKept (s t : HubWorld) : Prop :=
  ∀ q, s.queue = some q → ∃ q', t.queue = some q' ∧
    ∀ e ∈ q.tickets, ∃ e' ∈ q'.tickets, SameTicket e' e

/-- What a step of a call does to the file: the tickets that the call is not about stay as
they are, and the others stay the same tickets. -/
def QueueMove (k : HubQueueCall) (s t : HubWorld) : Prop :=
  ∀ q, s.queue = some q → ∃ q', t.queue = some q' ∧
    ∀ e ∈ q.tickets, ∃ e' ∈ q'.tickets, SameTicket e' e ∧ (¬ k.Touches q e → e' = e)

/-- The step of a call from `t` to `t'` meets no foreign write: if it changes the file, the
file is as the call's last step left it. A withdrawal removes artifacts between its read and
its write, so the file must be so at each of its steps. -/
def Undisturbed : HubQueueCall → HubWorld → HubWorld → HubWorld → Prop
  | .invalidateSuffix _ _ _, seen, t, _ => t.queue = seen.queue
  | _, seen, t, t' => t'.queue ≠ t.queue → t.queue = seen.queue

/-- Runs in which any process starts any call at any time, and nothing else writes the queue
file. `allowed` says which steps the runs take. -/
def queueRuns (ι : Type) (allowed : HubQueueCall → HubWorld → HubWorld → HubWorld → Prop) :
    Discipline ι HubQueueCall HubWorld where
  start := fun _ _ _ => True
  env := fun s t => t.queue = s.queue
  allowed := allowed

def InQueue (t : HubLandingQueueTicket) (s : HubWorld) : Prop :=
  ∃ q, s.queue = some q ∧ t ∈ q.tickets

/-- What holds when the call returns: an assignment gave each task a ticket, and the ticket
that a mark returns stands in the queue. -/
def HubQueueCall.Promise : HubQueueCall → Option HubLandingQueueTicket → HubWorld → Prop
  | .assign tasks _, ticket, s =>
    ticket = none ∧ ∀ task ∈ tasks, ∃ t, InQueue t s ∧ t.taskId = task.taskId
  | _, ticket, s => ∀ t, ticket = some t → InQueue t s

/-- What the calls promise: a well-formed queue, tickets that are kept, and at the end the
tickets that the call assigned or marked. -/
def queueContract (ι : Type) :
    Contract ι HubQueueCall HubWorld HubError (Option HubLandingQueueTicket) where
  inv := QueueWf
  rely := fun _ => TicketsKept
  guar := fun _ k _ => QueueMove k
  post := fun _ k r s => ∀ ticket, r = .ok ticket → k.Promise ticket s

theorem TicketsKept.refl (s : HubWorld) : TicketsKept s s :=
  fun q hq => ⟨q, hq, fun e he => ⟨e, he, SameTicket.refl e⟩⟩

theorem TicketsKept.trans {s t u : HubWorld} (h₁ : TicketsKept s t) (h₂ : TicketsKept t u) :
    TicketsKept s u := by
  intro q hq
  obtain ⟨q₁, hq₁, hkept₁⟩ := h₁ q hq
  obtain ⟨q₂, hq₂, hkept₂⟩ := h₂ q₁ hq₁
  refine ⟨q₂, hq₂, ?_⟩
  intro e he
  obtain ⟨e₁, he₁, hsame₁⟩ := hkept₁ e he
  obtain ⟨e₂, he₂, hsame₂⟩ := hkept₂ e₁ he₁
  exact ⟨e₂, he₂, hsame₂.trans hsame₁⟩

theorem QueueMove.kept {k : HubQueueCall} {s t : HubWorld} (h : QueueMove k s t) :
    TicketsKept s t := by
  intro q hq
  obtain ⟨q', hq', hmove⟩ := h q hq
  refine ⟨q', hq', ?_⟩
  intro e he
  obtain ⟨e', he', hsame, -⟩ := hmove e he
  exact ⟨e', he', hsame⟩

theorem QueueMove.of_eq {k : HubQueueCall} {s t : HubWorld} (h : t.queue = s.queue) :
    QueueMove k s t :=
  fun q hq => ⟨q, h.trans hq, fun e he => ⟨e, he, SameTicket.refl e, fun _ => rfl⟩⟩

theorem QueueWf.of_eq {s t : HubWorld} (h : t.queue = s.queue) (hs : QueueWf s) : QueueWf t :=
  fun q hq => hs q (h.symm.trans hq)

theorem Undisturbed.queue {k : HubQueueCall} {seen t t' : HubWorld}
    (h : Undisturbed k seen t t') (hne : t'.queue ≠ t.queue) : t.queue = seen.queue := by
  cases k <;> first | exact h hne | exact h

abbrev queueRules (ι : Type) (i : ι) (k : HubQueueCall) : Rules HubWorld :=
  (queueContract ι).rules (queueRuns ι Undisturbed) i k

section
variable {ι : Type} {i : ι} {k : HubQueueCall} {s : HubWorld}

/-- The write at the end of a call that computed `next` from the queue of the state `seen`,
which its last step left. -/
theorem sat_writeQueue {next : HubLandingQueueState} {Q : Unit → HubWorld → Prop}
    {E : HubError → HubWorld → Prop} {seen : HubWorld} (hnext : next.Wf)
    (hmove : ∀ t, t.queue = seen.queue → QueueMove k t { t with queue := some next })
    (hQ : ∀ t, t.queue = some next → Q () t) :
    Prog.Sat (queueRules ι i k) Q E (writeQueue next) seen := by
  intro t _ _ hallowed
  refine ⟨?_, ?_, hQ _ rfl⟩
  · by_cases hsame : some next = t.queue
    · exact .of_eq hsame
    · exact hmove t (hallowed.queue hsame)
  · intro q hq
    obtain rfl := Option.some.inj hq
    exact hnext

theorem patchTicket_mem {queue next : HubLandingQueueState} {taskId : TaskId}
    {patch : HubLandingQueueTicket → HubLandingQueueTicket} {ticket : HubLandingQueueTicket}
    (hwf : queue.Wf) (hkeeps : KeepsIdentity patch)
    (h : queue.patchTicket taskId patch = some (next, ticket)) : ticket ∈ next.tickets := by
  obtain ⟨rfl, current, hmem, htask, rfl⟩ := patchTicket_tickets hwf hkeeps h
  refine List.mem_map.mpr ⟨current, hmem, ?_⟩
  rw [patchAt, if_pos htask]

theorem queueMove_patchTicket {queue next : HubLandingQueueState} {taskId : TaskId}
    {patch : HubLandingQueueTicket → HubLandingQueueTicket} {ticket : HubLandingQueueTicket}
    (hwf : queue.Wf) (hkeeps : KeepsIdentity patch)
    (hk : ∀ q t, t.taskId = taskId → k.Touches q t)
    (h : queue.patchTicket taskId patch = some (next, ticket)) {t : HubWorld}
    (ht : t.queue = some queue) : QueueMove k t { t with queue := some next } := by
  intro q hq
  obtain rfl : queue = q := Option.some.inj (ht.symm.trans hq)
  obtain ⟨rfl, -⟩ := patchTicket_tickets hwf hkeeps h
  refine ⟨_, rfl, ?_⟩
  intro e he
  refine ⟨_, List.mem_map_of_mem he, keepsIdentity_patchAt hkeeps e, ?_⟩
  intro hother
  rw [patchAt, if_neg fun htask => hother (hk queue e htask)]

theorem sat_updateTicket {taskId : TaskId}
    {patch : HubLandingQueueTicket → HubLandingQueueTicket} (hkeeps : KeepsIdentity patch)
    (hk : ∀ q t, t.taskId = taskId → k.Touches q t) :
    Prog.Sat (queueRules ι i k)
      (fun r t => ∀ ticket, r = some ticket → InQueue ticket t)
      (fun _ _ => True) (updateTicket taskId patch) s := by
  refine Prog.sat_reads_bind.mpr fun t _ hinv _ => ⟨.of_eq rfl, hinv, ?_⟩
  cases hqueue : t.queue with
  | none => exact fun ticket h => nomatch h
  | some queue =>
    cases hpatch : queue.patchTicket taskId patch with
    | none =>
      simp only [Option.bind_some, hpatch]
      exact fun ticket h => nomatch h
    | some result =>
      obtain ⟨next, ticket⟩ := result
      have hwf := hinv queue hqueue
      simp only [Option.bind_some, hpatch]
      refine Prog.sat_bind (Q := fun _ t => t.queue = some next)
        (sat_writeQueue (wf_patchTicket hwf hkeeps hpatch) ?_ fun _ h => h) ?_
      · intro u hu
        exact queueMove_patchTicket hwf hkeeps hk hpatch (hu.trans hqueue)
      · rintro - u hu ticket' h
        obtain rfl := Option.some.inj h
        exact ⟨next, hu, patchTicket_mem hwf hkeeps hpatch⟩

theorem sat_findHubLandingQueueTicket {taskId : TaskId} {Q : Option HubLandingQueueTicket →
    HubWorld → Prop} {E : HubError → HubWorld → Prop} (hQ : ∀ r t, Q r t) :
    Prog.Sat (queueRules ι i k) Q E (findHubLandingQueueTicket taskId) s := by
  refine Prog.sat_reads_bind.mpr fun t _ hinv _ => ⟨.of_eq rfl, hinv, hQ _ _⟩

/-- `assignHubLandingQueueTickets` moves only the tickets of its tasks, and each of them has a
ticket in the queue that it wrote. -/
theorem sat_assignHubLandingQueueTickets {tasks : List HubLandingQueueTaskInput}
    {now : Timestamp} :
    Prog.Sat (queueRules ι i (.assign tasks now))
      (fun _ t => ∀ task ∈ tasks, ∃ e, InQueue e t ∧ e.taskId = task.taskId)
      (fun _ _ => True) (assignHubLandingQueueTickets tasks now) s := by
  refine Prog.sat_reads_bind.mpr fun t _ hinv _ => ⟨.of_eq rfl, hinv, ?_⟩
  have hwf : (t.queue.getD emptyQueue).Wf := by
    cases hqueue : t.queue with
    | none => exact wf_emptyQueue
    | some queue => exact hinv queue hqueue
  obtain ⟨hnext, hkept, hassigned⟩ := assignTickets_spec hwf tasks now
  refine Prog.sat_bind (Q := fun _ u => u.queue
    = some (assignTickets (t.queue.getD emptyQueue) tasks now)) ?_ ?_
  · refine sat_writeQueue hnext ?_ fun _ h => h
    intro u hu q hq
    refine ⟨_, rfl, ?_⟩
    intro e he
    rw [hu] at hq
    change t.queue = some q at hq
    rw [hq] at hkept ⊢
    obtain ⟨e', he', hsame, heq⟩ := hkept e he
    exact ⟨e', he', hsame, fun hother => heq fun task htask h => hother ⟨task, htask, h⟩⟩
  · intro _ u hu task htask
    obtain ⟨e, he, heq⟩ := hassigned task htask
    exact ⟨e, ⟨_, hu, he⟩, heq⟩

theorem keeps_removeArtifacts (tickets : List HubLandingQueueTicket) :
    (removeArtifacts tickets).Keeps (·.queue) := by
  induction tickets with
  | nil => exact Prog.always_ret ()
  | cons ticket rest ih =>
    unfold removeArtifacts
    cases ticket.transactionId with
    | none => exact ih
    | some transactionId =>
      exact Prog.always_bind (Prog.always_modify.mpr fun _ => rfl) fun _ => ih

theorem sat_invalidateHubLandingSpeculativeSuffix {fromTaskId : TaskId} {reason : String}
    {now : Timestamp} :
    Prog.Sat (queueRules ι i (.invalidateSuffix fromTaskId reason now))
      (fun _ _ => True) (fun _ _ => True)
      (invalidateHubLandingSpeculativeSuffix fromTaskId reason now) s := by
  refine Prog.sat_reads_bind.mpr fun t _ hinv _ => ⟨.of_eq rfl, hinv, ?_⟩
  cases hqueue : t.queue with
  | none => trivial
  | some queue =>
    dsimp only
    cases horigin : queue.findTicket fromTaskId with
    | none => trivial
    | some origin =>
      -- The file stays as it was read while the artifacts go.
      refine Prog.sat_bind (Q := fun _ (u : HubWorld) => u.queue = some queue) ?_ ?_
      · refine Prog.sat_mono ((keeps_removeArtifacts _).sat_step
          (K := fun (u : HubWorld) => u.queue = some queue) ?_ hqueue) (fun _ _ h => h)
          fun _ _ _ => trivial
        intro seen u u' _ hinv' hallowed hseen hkeeps
        refine ⟨.of_eq hkeeps, hinv'.of_eq hkeeps, hkeeps.trans ?_⟩
        exact Eq.trans hallowed hseen
      · intro _ u hu
        refine Prog.sat_bind (Q := fun _ _ => True) ?_ fun _ _ _ => trivial
        refine sat_writeQueue (wf_invalidateSuffix (hinv queue hqueue) origin now reason) ?_
          fun _ _ => trivial
        intro v hv q hq
        obtain rfl : queue = q := Option.some.inj (hu.symm.trans (hv.symm.trans hq))
        refine ⟨_, rfl, ?_⟩
        intro e he
        refine ⟨_, List.mem_map_of_mem he, ?_, ?_⟩
        · split
          · exact ⟨rfl, rfl, rfl⟩
          · exact SameTicket.refl e
        · intro hother
          rw [if_neg]
          exact fun hbehind => hother ⟨origin, horigin, hbehind⟩

theorem sat_recordHubLandingDriftRebuild {taskId : TaskId} {observed : Oid} {now : Timestamp} :
    Prog.Sat (queueRules ι i (.driftRebuild taskId observed now))
      (fun r t => ∀ ticket, r = some ticket → InQueue ticket t)
      (fun _ _ => True) (recordHubLandingDriftRebuild taskId observed now) s := by
  refine Prog.sat_bind (Q := fun _ _ => True)
    (sat_findHubLandingQueueTicket fun _ _ => trivial) fun _ _ _ => ?_
  exact sat_updateTicket (fun _ => ⟨rfl, rfl, rfl⟩) fun _ _ h => h.symm

theorem sat_resumeHubLandingQuietWaitIfStable {taskId : TaskId} {observed : Oid}
    {now : Timestamp} :
    Prog.Sat (queueRules ι i (.resumeQuietWait taskId observed now)) (fun _ _ => True)
      (fun _ _ => True) (resumeHubLandingQuietWaitIfStable taskId observed now) s := by
  refine Prog.sat_bind (Q := fun _ _ => True)
    (sat_findHubLandingQueueTicket fun _ _ => trivial) fun ticket _ _ => ?_
  cases ticket.filter (·.status == .targetQuietWait) with
  | none => trivial
  | some current =>
    dsimp only
    split
    · exact Prog.sat_bind (sat_updateTicket (fun _ => ⟨rfl, rfl, rfl⟩) fun _ _ h => h.symm)
        fun _ _ _ => trivial
    · exact Prog.sat_bind (sat_updateTicket (fun _ => ⟨rfl, rfl, rfl⟩) fun _ _ h => h.symm)
        fun _ _ _ => trivial

theorem sat_queueCode :
    Prog.Sat (queueRules ι i k) k.Promise (fun _ _ => True) (queueCode i k) s := by
  cases k with
  | assign tasks now =>
    exact Prog.sat_bind sat_assignHubLandingQueueTickets fun _ _ h => ⟨rfl, h⟩
  | driftRebuild taskId observed now => exact sat_recordHubLandingDriftRebuild
  | resumeQuietWait taskId observed now =>
    exact Prog.sat_bind sat_resumeHubLandingQuietWaitIfStable fun _ _ _ _ h => nomatch h
  | invalidateSuffix fromTaskId reason now =>
    exact Prog.sat_bind sat_invalidateHubLandingSpeculativeSuffix fun _ _ _ _ h => nomatch h
  | _ => exact sat_updateTicket (fun _ => ⟨rfl, rfl, rfl⟩) fun _ _ h => h.symm

theorem queueContract_holds :
    (queueContract ι).Holds (queueRuns ι Undisturbed) queueCode where
  rely_refl := fun _ => TicketsKept.refl
  rely_trans := fun _ _ _ _ => TicketsKept.trans
  guar_rely := fun _ _ _ _ _ _ _ _ h => h.kept
  env_keeps := fun _ _ hinv h =>
    ⟨hinv.of_eq h, fun _ => (QueueMove.of_eq (k := .verified "") h).kept⟩
  sat := fun _ _ _ _ _ => Prog.sat_mono sat_queueCode (fun _ _ h _ hr => Except.ok.inj hr ▸ h)
    fun _ _ _ _ hr => nomatch hr

end

/-! ### Undisturbed runs -/

section
variable {ι : Type} [DecidableEq ι]

abbrev QueuePool (ι : Type) : Type :=
  Pool ι HubQueueCall HubWorld HubError (Option HubLandingQueueTicket)

/-- An action of an undisturbed run in which no call that is about the ticket takes a step. -/
def SparingStep (ticket : HubLandingQueueTicket) (c c' : QueuePool ι) : Prop :=
  ∃ a, (queueRuns ι Undisturbed).Permits c a ∧ c.next queueCode a = some c' ∧
    ∀ i th, a = .step i → c.threads i = some th →
      ∀ q, c.state.queue = some q → ¬ th.call.Touches q ticket

/-- The process `i` takes the last step of a mark, which returns the ticket. -/
def Marks (i : ι) (ticket : HubLandingQueueTicket) (c c' : QueuePool ι) : Prop :=
  (queueRuns ι Undisturbed).Permits c (.step i) ∧ c.next queueCode (.step i) = some c' ∧
    ∃ th, c'.threads i = some th ∧ th.rest = .ret (some ticket)

theorem HubQueueCall.Promise.inQueue {k : HubQueueCall} {ticket : HubLandingQueueTicket}
    {s : HubWorld} (h : k.Promise (some ticket) s) : InQueue ticket s := by
  cases k with
  | assign tasks now => cases h.1
  | _ => exact h ticket rfl

/-- Step lemma: a ticket stays in the queue through an action that spares it. -/
theorem SparingStep.inQueue {ticket : HubLandingQueueTicket} {c c' : QueuePool ι}
    (hok : (queueContract ι).Ok (queueRuns ι Undisturbed) c) (h : SparingStep ticket c c')
    (ht : InQueue ticket c.state) : InQueue ticket c'.state := by
  obtain ⟨a, hp, hnext, hsparing⟩ := h
  obtain ⟨q, hq, hmem⟩ := ht
  rcases hok.action_cases hp hnext with heq | ⟨i, th, rfl, hth, hmove⟩ | henv
  · exact ⟨q, heq ▸ hq, hmem⟩
  · obtain ⟨q', hq', hkept⟩ := hmove q hq
    obtain ⟨e', he', -, heq⟩ := hkept ticket hmem
    obtain rfl := heq (hsparing i th rfl hth q hq)
    exact ⟨q', hq', he'⟩
  · exact ⟨q, Eq.trans henv hq, hmem⟩

/-- Run lemma: a ticket stays in the queue for as long as no call that is about it takes a
step. -/
theorem inQueue_of_sparing {ticket : HubLandingQueueTicket} {c c' : QueuePool ι}
    (hok : (queueContract ι).Ok (queueRuns ι Undisturbed) c)
    (h : Relation.ReflTransGen (SparingStep ticket) c c') (ht : InQueue ticket c.state) :
    InQueue ticket c'.state := by
  suffices (queueContract ι).Ok (queueRuns ι Undisturbed) c' ∧ InQueue ticket c'.state from this.2
  induction h with
  | refl => exact ⟨hok, ht⟩
  | tail _ hstep ih =>
    obtain ⟨a, hp, hnext, -⟩ := id hstep
    exact ⟨queueContract_holds.ok_next ih.1 hp hnext, hstep.inQueue ih.1 ih.2⟩

end

end ArchLoop
