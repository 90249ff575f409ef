import ArchLoop.Proofs.TicketStatus
import ArchLoop.Sample
import Mathlib.Order.WellFoundedSet

/-!
# `ArchLoop.Proofs.BatchAccounts`: the order of a batch and its results

`orderTasksByDependencies` puts the tasks of a batch in an order, and `runHubBatchMerge` takes
them in it. The module proves two things of them.

- `ordersByDependencies`: the order has every task once, and each task behind its selected
  blockers when these do not block each other in a circle. While tasks remain, a minimal one
  among them is ready (`exists_ready`), so the loop falls back on the first task only for a circle.
- `delivers_runHubBatchMerge`: whatever happens between its steps, a batch returns only results
  that account for its tasks (`Accounts`), and alone it fails only when a Git command does.

`Delivers` says both of a program, and goes through it along the code. Only the landing loop needs
more: its passes are bounded because each rebuild counts up the drifts of the ticket
(`landingRound_rebuilt`).
-/

set_option autoImplicit false

namespace ArchLoop

open ArchLoop.Lib

/-! ### Statement -/

/-- The task with the id `blocker` is selected and blocks the one with the id `blocked`. -/
def Blocks (tasks : List HubTaskProjection) (blocker blocked : TaskId) : Prop :=
  blocker ∈ tasks.map (·.id) ∧ ∃ task ∈ tasks, task.id = blocked ∧ blocker ∈ task.blockers

def BlocksAcyclic (tasks : List HubTaskProjection) : Prop :=
  ∀ taskId, ¬Relation.TransGen (Blocks tasks) taskId taskId

/-- Each task stands behind those of its blockers that are among the ids. -/
def BlockersFirst (ids : List TaskId) (ordered : List HubTaskProjection) : Prop :=
  ∀ before task after, ordered = before ++ task :: after →
    ∀ blocker ∈ task.blockers, blocker ∈ ids → blocker ∈ before.map (·.id)

/-- What the order of the tasks has to be.

- `perm`: each task is there once.
- `blockers`: a task comes behind its selected blockers. -/
structure OrdersByDependencies (tasks ordered : List HubTaskProjection) : Prop where
  perm : ordered.Perm tasks
  blockers : BlocksAcyclic tasks → BlockersFirst (tasks.map (·.id)) ordered

/-- What the results of a batch have to be.

- `one`: each selected task has one result.
- `merged`: a merged task had all its blockers completed at the start or merged before. -/
structure Accounts (input : RunHubBatchMergeInput) (results : List HubBatchMergeTaskResult) :
    Prop where
  one : (results.map (·.taskId)).Perm (input.selectedTasks.map (·.id))
  merged : ∀ before result after, results = before ++ result :: after →
    result.outcome = .merged → ∀ task ∈ input.selectedTasks, task.id = result.taskId →
    ∀ blocker ∈ task.blockers,
      (∃ entry ∈ input.board, entry.id = blocker ∧ isCompletedHubStatus entry.hubStatus = true) ∨
      ∃ earlier ∈ before, earlier.taskId = blocker ∧ earlier.outcome = .merged

/-- The selection takes tasks of the board, and the task store gives each task an id of its
own. -/
structure SelectsFromBoard (input : RunHubBatchMergeInput) : Prop where
  selected : input.selectedTasks.Sublist input.board
  ids : (input.board.map (·.id)).Nodup

def GitFailure (e : HubError) : Prop :=
  ∃ command, e = .git command

/-! ### The order -/

/-- All blockers of the task that are among the ids have been put in the order. -/
def readyAfter (ids : List TaskId) (ordered : List HubTaskProjection)
    (task : HubTaskProjection) : Bool :=
  task.blockers.all fun blockerId => blockerId ∉ ids || ordered.any (·.id == blockerId)

theorem readyAfter_iff {ids : List TaskId} {ordered : List HubTaskProjection}
    {task : HubTaskProjection} :
    readyAfter ids ordered task = true ↔
      ∀ blocker ∈ task.blockers, blocker ∈ ids → blocker ∈ ordered.map (·.id) := by
  simp only [readyAfter, List.all_eq_true, Bool.or_eq_true, decide_eq_true_eq, List.any_eq_true,
    beq_iff_eq, List.mem_map]
  refine forall₂_congr fun blocker _ => ?_
  by_cases h : blocker ∈ ids <;> simp [h]

theorem orderTasks_ready {ids : List TaskId} {n : Nat} {remaining ordered : List HubTaskProjection}
    {next : HubTaskProjection} (h : remaining.find? (readyAfter ids ordered) = some next) :
    orderTasks ids (n + 1) remaining ordered =
      orderTasks ids n (remaining.eraseP (readyAfter ids ordered)) (ordered ++ [next]) := by
  delta readyAfter at h ⊢
  simp only [orderTasks, h]

theorem orderTasks_stuck {ids : List TaskId} {n : Nat} {remaining ordered : List HubTaskProjection}
    (h : remaining.find? (readyAfter ids ordered) = none) :
    orderTasks ids (n + 1) remaining ordered =
      orderTasks ids n remaining.tail (ordered ++ remaining.head?.toList) := by
  delta readyAfter at h
  simp only [orderTasks, h]

theorem perm_cons_eraseP {p : HubTaskProjection → Bool} {remaining : List HubTaskProjection}
    {next : HubTaskProjection} (h : remaining.find? p = some next) :
    (next :: remaining.eraseP p).Perm remaining := by
  induction remaining with
  | nil => cases h
  | cons task rest ih =>
    by_cases hp : p task = true
    · rw [List.find?_cons_of_pos hp, Option.some.injEq] at h
      rw [List.eraseP_cons_of_pos hp, h]
    · rw [List.find?_cons_of_neg hp] at h
      rw [List.eraseP_cons_of_neg hp]
      exact (List.Perm.swap task next _).trans ((ih h).cons task)

theorem orderTasks_perm {ids : List TaskId} {n : Nat} {remaining ordered : List HubTaskProjection}
    (hn : remaining.length = n) :
    (orderTasks ids n remaining ordered).Perm (ordered ++ remaining) := by
  induction n generalizing remaining ordered with
  | zero =>
    rw [List.eq_nil_of_length_eq_zero hn, List.append_nil]
    exact List.Perm.refl ordered
  | succ n ih =>
    cases hfind : remaining.find? (readyAfter ids ordered) with
    | some next =>
      have hperm := perm_cons_eraseP hfind
      have hlength := hperm.length_eq
      rw [List.length_cons] at hlength
      rw [orderTasks_ready hfind]
      refine (ih (by omega)).trans ?_
      rw [List.append_assoc]
      exact hperm.append_left ordered
    | none =>
      rw [orderTasks_stuck hfind]
      cases remaining with
      | nil => cases hn
      | cons task rest =>
        rw [List.length_cons] at hn
        refine (ih (by simpa using hn)).trans ?_
        rw [List.append_assoc]
        exact List.Perm.refl _

/-- While tasks remain, one of them is ready: one that no remaining task blocks, not even
through others. -/
theorem exists_ready {tasks remaining ordered : List HubTaskProjection}
    (hacyclic : BlocksAcyclic tasks) (hperm : (ordered ++ remaining).Perm tasks)
    (hne : remaining ≠ []) :
    ∃ task ∈ remaining, readyAfter (tasks.map (·.id)) ordered task = true := by
  have hstrict : IsStrictOrder TaskId (Relation.TransGen (Blocks tasks)) :=
    { irrefl := hacyclic, trans := fun _ _ _ h₁ h₂ => h₁.trans h₂ }
  have hfinite : {taskId | taskId ∈ remaining.map (·.id)}.Finite := List.finite_toSet _
  have hwf := Set.wellFoundedOn_iff.mp
    (Set.Finite.wellFoundedOn (r := Relation.TransGen (Blocks tasks)) hfinite)
  obtain ⟨first, hfirst⟩ := List.exists_mem_of_ne_nil remaining hne
  obtain ⟨taskId, hmem, hmin⟩ := hwf.has_min {taskId | taskId ∈ remaining.map (·.id)}
    ⟨first.id, List.mem_map_of_mem hfirst⟩
  obtain ⟨task, htask, rfl⟩ := List.mem_map.mp hmem
  refine ⟨task, htask, readyAfter_iff.mpr fun blocker hblocker hselected => ?_⟩
  have hsplit : blocker ∈ ordered.map (·.id) ∨ blocker ∈ remaining.map (·.id) := by
    rw [← List.mem_append, ← List.map_append]
    exact (hperm.map (·.id)).mem_iff.mpr hselected
  rcases hsplit with hordered | hremaining
  · exact hordered
  · have hin : task ∈ tasks := hperm.mem_iff.mp (List.mem_append_right _ htask)
    have hblocks : Blocks tasks blocker task.id := ⟨hselected, task, hin, rfl, hblocker⟩
    exact absurd ⟨.single hblocks, hremaining, hmem⟩ (hmin blocker hremaining)

theorem BlockersFirst.append {ids : List TaskId} {ordered : List HubTaskProjection}
    {next : HubTaskProjection} (h : BlockersFirst ids ordered)
    (hready : readyAfter ids ordered next = true) : BlockersFirst ids (ordered ++ [next]) := by
  intro before task after heq
  rcases List.eq_nil_or_concat after with rfl | ⟨after', last, rfl⟩
  · obtain ⟨rfl, hlast⟩ := List.append_inj' heq rfl
    rw [← List.head_eq_of_cons_eq hlast]
    exact readyAfter_iff.mp hready
  · have hsplit : ordered ++ [next] = (before ++ task :: after') ++ [last] := by
      rw [heq]
      simp
    obtain ⟨hordered, -⟩ := List.append_inj' hsplit rfl
    exact h before task after' hordered

theorem orderTasks_blockersFirst {tasks : List HubTaskProjection} (hacyclic : BlocksAcyclic tasks)
    {n : Nat} {remaining ordered : List HubTaskProjection} (hn : remaining.length = n)
    (hperm : (ordered ++ remaining).Perm tasks)
    (hfirst : BlockersFirst (tasks.map (·.id)) ordered) :
    BlockersFirst (tasks.map (·.id)) (orderTasks (tasks.map (·.id)) n remaining ordered) := by
  induction n generalizing remaining ordered with
  | zero => exact hfirst
  | succ n ih =>
    have hne : remaining ≠ [] := by
      rintro rfl
      cases hn
    obtain ⟨task, htask, hready⟩ := exists_ready hacyclic hperm hne
    cases hfind : remaining.find? (readyAfter (tasks.map (·.id)) ordered) with
    | none => exact absurd hready (List.find?_eq_none.mp hfind task htask)
    | some next =>
      have hsame := perm_cons_eraseP hfind
      have hlength := hsame.length_eq
      rw [List.length_cons] at hlength
      rw [orderTasks_ready hfind]
      refine ih (by omega) ?_ (hfirst.append (List.find?_some hfind))
      rw [List.append_assoc]
      exact (hsame.append_left ordered).trans hperm

theorem ordersByDependencies (tasks : List HubTaskProjection) :
    OrdersByDependencies tasks (orderTasksByDependencies tasks) where
  perm := orderTasks_perm rfl
  blockers hacyclic := by
    refine orderTasks_blockersFirst hacyclic rfl (List.Perm.refl _) ?_
    intro before task after heq
    simp at heq

/-! ### What a program delivers -/

/-- Whatever happens between its steps, the program returns only values with `Q`, and alone it
fails only when a Git command does. -/
structure Delivers {α : Type} (p : Hub α) (Q : α → Prop) : Prop where
  value : p.Ends Q fun _ => True
  fails : ∀ s e t, p.run s = (.error e, t) → GitFailure e

section
variable {α β : Type} {Q : α → Prop}

theorem delivers_of_ends {p : Hub α} (h : p.Ends Q GitFailure) : Delivers p Q where
  value := h.mono (fun _ ha => ha) fun _ _ => trivial
  fails _ _ _ hrun := h.run_error hrun

theorem delivers_ret {a : α} (h : Q a) : Delivers (.ret a : Hub α) Q := delivers_of_ends h

theorem delivers_reads (f : HubWorld → α) : Delivers (Prog.reads f : Hub α) fun _ => True :=
  delivers_of_ends fun _ => trivial

theorem delivers_modify (f : HubWorld → HubWorld) :
    Delivers (Prog.modify f : Hub Unit) fun _ => True :=
  delivers_of_ends fun _ => trivial

theorem delivers_makes {P : HubWorld → HubWorld → Prop} {p : Hub α} (h : p.Makes P) :
    Delivers p fun _ => True :=
  delivers_of_ends h.ends

theorem delivers_revParse (ref : String) (read : HubWorld → Option Oid) :
    Delivers (revParse ref read) fun _ => True := by
  refine delivers_of_ends fun s => ?_
  dsimp only
  split
  · trivial
  · exact ⟨_, rfl⟩

theorem delivers_bind {R : β → Prop} {p : Hub α} {f : α → Hub β} (hp : Delivers p Q)
    (hf : ∀ a, Q a → Delivers (f a) R) : Delivers (p.bind f) R where
  value := Prog.ends_bind hp.value fun a ha => (hf a ha).value
  fails s e t hrun := by
    rw [Prog.run_bind] at hrun
    cases hfirst : p.run s with
    | mk result u =>
      rw [hfirst] at hrun
      cases result with
      | ok a => exact (hf a (hp.value.run_ok hfirst)).fails u e t hrun
      | error e' =>
        obtain rfl : e' = e := by simpa using congrArg Prod.fst hrun
        exact hp.fails s e' u hfirst

theorem Delivers.mono {R : α → Prop} {p : Hub α} (h : Delivers p Q) (hR : ∀ a, Q a → R a) :
    Delivers p R :=
  ⟨h.value.mono hR fun _ _ => trivial, h.fails⟩

theorem delivers_tryCatch {p : Hub α} {handler : HubError → Hub α}
    (hp : p.Ends Q fun _ => True) (hh : ∀ e, Delivers (handler e) Q) :
    Delivers (p.tryCatch handler) Q where
  value := Prog.ends_tryCatch hp fun e _ => (hh e).value
  fails s e t hrun := by
    rw [Prog.run_tryCatch] at hrun
    cases hfirst : p.run s with
    | mk result u =>
      rw [hfirst] at hrun
      cases result with
      | ok a => cases hrun
      | error e' => exact (hh e').fails u e t hrun

theorem delivers_attempt (p : Hub α) : Delivers p.attempt fun _ => True :=
  delivers_tryCatch (Prog.ends_true _) fun _ => delivers_ret trivial

end

/-! ### The queue operations -/

theorem delivers_updateTicket (taskId : TaskId)
    (patch : HubLandingQueueTicket → HubLandingQueueTicket) :
    Delivers (updateTicket taskId patch) fun _ => True := by
  refine delivers_bind (delivers_reads _) fun queue _ => ?_
  cases queue.bind fun q => q.patchTicket taskId patch with
  | none => exact delivers_ret trivial
  | some next => exact delivers_bind (delivers_modify _) fun _ _ => delivers_ret trivial

theorem delivers_invalidateSuffix (fromTaskId : TaskId) (reason : String) (now : Timestamp) :
    Delivers (invalidateHubLandingSpeculativeSuffix fromTaskId reason now) fun _ => True := by
  refine delivers_bind (delivers_reads _) fun queue _ => ?_
  cases queue with
  | none => exact delivers_ret trivial
  | some q =>
    dsimp only
    split
    · exact delivers_ret trivial
    · refine delivers_bind (delivers_makes (makes_removeArtifacts _)) fun _ _ => ?_
      exact delivers_bind (delivers_modify _) fun _ _ => delivers_ret trivial

theorem delivers_findTicket (taskId : TaskId) :
    Delivers (findHubLandingQueueTicket taskId) fun _ => True :=
  delivers_bind (delivers_reads _) fun _ _ => delivers_ret trivial

theorem delivers_quietWaitOver (taskId : TaskId) (observedTargetOid : Oid) (now : Timestamp) :
    Delivers (quietWaitOver taskId observedTargetOid now) fun _ => True := by
  refine delivers_bind (Q := fun _ => True) ?_ fun _ _ => delivers_ret trivial
  refine delivers_bind (delivers_findTicket _) fun ticket _ => ?_
  split
  · exact delivers_ret trivial
  · split
    · exact delivers_bind (delivers_updateTicket _ _) fun _ _ => delivers_ret trivial
    · exact delivers_bind (delivers_updateTicket _ _) fun _ _ => delivers_ret trivial

theorem delivers_recordDrift (taskId : TaskId) (observedTargetOid : Oid) (now : Timestamp) :
    Delivers (recordHubLandingDriftRebuild taskId observedTargetOid now) fun _ => True :=
  delivers_bind (delivers_findTicket _) fun _ _ => delivers_updateTicket _ _

/-! ### One task -/

section
variable {git : Git} {session : MergeTaskSession}

def OfTask (session : MergeTaskSession) (result : HubBatchMergeTaskResult) : Prop :=
  result.taskId = session.task.id

theorem delivers_cleanupQuietly (candidate : HubLandingCandidate) :
    Delivers (cleanupQuietly candidate) fun _ => True :=
  delivers_tryCatch (Prog.ends_true _) fun _ => delivers_ret trivial

theorem delivers_failLandedCandidate (candidate : HubLandingCandidate) (e : HubError) :
    Delivers (failLandedCandidate session candidate e) (OfTask session) := by
  refine delivers_bind (delivers_cleanupQuietly _) fun _ _ => ?_
  split
  · exact delivers_ret rfl
  · exact delivers_ret rfl

theorem delivers_mergeTask (predecessorOid : Option Oid) :
    Delivers (mergeTask git session predecessorOid) fun _ => True := by
  refine delivers_bind (delivers_attempt _) fun attempted _ => ?_
  cases attempted with
  | ok candidate => exact delivers_ret trivial
  | error e =>
    refine delivers_bind (Q := fun _ => True) ?_ fun _ _ => delivers_ret trivial
    unfold removeFailedWorktree
    split
    · exact delivers_modify _
    · exact delivers_ret trivial

/-- A verification that fails brings a result of the task. -/
def VerifyOutcome.OfTask (session : MergeTaskSession) : VerifyOutcome → Prop
  | .verified _ => True
  | .failed result => ArchLoop.OfTask session result

theorem delivers_exhaustVerificationRepair (candidate : HubLandingCandidate) (message : String) :
    Delivers (exhaustVerificationRepair session candidate message)
      (VerifyOutcome.OfTask session) :=
  delivers_bind (delivers_cleanupQuietly _) fun _ _ => delivers_ret rfl

theorem delivers_snapshot (candidate : HubLandingCandidate) :
    Delivers (snapshotHubLandingCandidateGeneration git candidate) fun _ => True := by
  refine delivers_bind (delivers_modify _) fun _ _ => ?_
  refine delivers_bind (delivers_revParse _ _) fun candidateOid _ => ?_
  split
  · exact delivers_ret trivial
  · refine delivers_bind (Q := fun _ => True) ?_ fun _ _ => ?_
    · exact delivers_bind (delivers_modify _) fun _ _ => delivers_modify _
    · refine delivers_bind (Q := fun _ => True) ?_ fun _ _ => delivers_ret trivial
      exact delivers_makes (appendHubLandingCheckpoint_writes _)

theorem delivers_runVerifier (verifier : HubFlowAgent) (transactionId : TransactionId) :
    Delivers (runVerifier verifier transactionId) fun _ => True :=
  delivers_of_ends fun _ => trivial

theorem delivers_repairLoop (passes : Nat) (candidate : HubLandingCandidate)
    (failure : Option String) :
    Delivers (repairLoop git session passes candidate failure) (VerifyOutcome.OfTask session) := by
  induction passes generalizing candidate failure with
  | zero =>
    cases failure with
    | none => exact delivers_ret trivial
    | some message => exact delivers_exhaustVerificationRepair _ _
  | succ passes ih =>
    cases failure with
    | none => exact delivers_ret trivial
    | some message =>
      refine delivers_bind (delivers_reads _) fun remaining _ => ?_
      split
      · refine delivers_bind (delivers_modify _) fun _ _ => ?_
        refine delivers_bind (delivers_of_ends (Q := fun _ => True) fun _ => trivial)
          fun repaired _ => ?_
        cases repaired with
        | some _ => exact ih candidate _
        | none =>
          refine delivers_bind (delivers_snapshot _) fun snapshot _ => ?_
          exact delivers_bind (delivers_runVerifier _ _) fun failure _ => ih snapshot failure
      · exact delivers_exhaustVerificationRepair _ _

theorem delivers_verifyWithBoundedRepair (candidate : HubLandingCandidate) :
    Delivers (verifyWithBoundedRepair git session candidate) (VerifyOutcome.OfTask session) :=
  delivers_bind (delivers_runVerifier _ _) fun _ _ => delivers_repairLoop _ _ _

theorem delivers_bindVerification (candidate : HubLandingCandidate) (fingerprint : String) :
    Delivers (bindVerification git session candidate fingerprint) fun _ => True :=
  delivers_makes (P := TransactionMove candidate.transactionId candidate.taskId)
    (move_bindHubLandingVerification rfl)

/-- What a pass of the landing loop brings is about the task. -/
def LandingRound.OfTask (session : MergeTaskSession) : LandingRound → Prop
  | .failed result => ArchLoop.OfTask session result
  | .landed _ | .rebuilt _ => True

theorem delivers_rebuildAfterTargetDrift (predecessorOid : Option Oid)
    (candidate : HubLandingCandidate) (fingerprint : String) :
    Delivers (rebuildAfterTargetDrift git session predecessorOid candidate fingerprint)
      (LandingRound.OfTask session) := by
  refine delivers_bind (delivers_modify _) fun _ _ => ?_
  refine delivers_bind (delivers_attempt _) fun rebuilt _ => ?_
  cases rebuilt with
  | error e =>
    exact delivers_bind (delivers_failLandedCandidate _ _) fun result hresult =>
      delivers_ret hresult
  | ok rebuilt =>
    refine delivers_bind (delivers_verifyWithBoundedRepair _) fun outcome houtcome => ?_
    cases outcome with
    | failed result => exact delivers_ret houtcome
    | verified verified =>
      exact delivers_bind (delivers_bindVerification _ _) fun _ _ => delivers_ret trivial

theorem delivers_settleTargetDrift (predecessorOid : Option Oid)
    (candidate : HubLandingCandidate) (observedTargetOid : Oid) (fingerprint : String) :
    Delivers (settleTargetDrift git session predecessorOid candidate observedTargetOid fingerprint)
      (LandingRound.OfTask session) := by
  refine delivers_bind (Q := fun _ => True) ?_ fun quiet _ => ?_
  · exact delivers_bind (delivers_findTicket _) fun _ _ => delivers_ret trivial
  split
  · exact delivers_bind (delivers_updateTicket _ _) fun _ _ => delivers_ret rfl
  · refine delivers_bind (delivers_recordDrift _ _ _) fun _ _ => ?_
    refine delivers_bind (delivers_invalidateSuffix _ _ _) fun _ _ => ?_
    exact delivers_rebuildAfterTargetDrift _ _ _

theorem delivers_settleAttempt (predecessorOid : Option Oid) (candidate : HubLandingCandidate)
    (fingerprint : String) (attempt : HubLandingAttemptResult) :
    Delivers (settleAttempt git session predecessorOid candidate fingerprint attempt)
      (LandingRound.OfTask session) := by
  unfold settleAttempt
  split
  · refine delivers_bind (delivers_cleanupQuietly _) fun _ _ => ?_
    exact delivers_bind (delivers_updateTicket _ _) fun _ _ => delivers_ret trivial
  · exact delivers_bind (delivers_cleanupQuietly _) fun _ _ => delivers_ret rfl
  · exact delivers_bind (delivers_cleanupQuietly _) fun _ _ => delivers_ret rfl
  · exact delivers_ret rfl
  · exact delivers_ret rfl
  · exact delivers_settleTargetDrift _ _ _ _

theorem delivers_landingRound (predecessorOid : Option Oid) (fingerprint : String)
    (candidate : HubLandingCandidate) :
    Delivers (landingRound git session predecessorOid fingerprint candidate)
      (LandingRound.OfTask session) := by
  refine delivers_bind (Q := fun _ => True) ?_ fun gate _ => ?_
  · exact delivers_bind (delivers_reads _) fun _ _ => delivers_ret trivial
  split
  · refine delivers_bind (delivers_attempt _) fun attempted _ => ?_
    cases attempted with
    | error e =>
      exact delivers_bind (delivers_failLandedCandidate _ _) fun result hresult =>
        delivers_ret hresult
    | ok attempt => exact delivers_settleAttempt _ _ _ _
  · exact delivers_ret rfl

/-! ### The landing loop -/

/-- The drifts that the ticket of the task has counted. -/
def driftsOf (session : MergeTaskSession) (s : HubWorld) : Nat :=
  ((s.ticketOf session.task.id).map (·.activationDriftRebuilds)).getD 0

theorem ticketOf_of_mayLand {s : HubWorld} {taskId : TaskId}
    {shipped : Option (TaskId → Bool)} (h : mayLand s.queue taskId shipped = true) :
    ∃ mine, s.ticketOf taskId = some mine := by
  simp only [mayLand, Bool.and_eq_true, beq_iff_eq] at h
  obtain ⟨head, hhead, htask⟩ := Option.map_eq_some_iff.mp h.2
  cases hqueue : s.queue with
  | none =>
    rw [hqueue] at hhead
    cases hhead
  | some q =>
    rw [hqueue] at hhead
    have hmem := (resolveHubLandingQueueHead_some hhead).1
    rw [HubWorld.ticketOf, hqueue, Option.bind_some, HubLandingQueueState.findTicket]
    rw [← Option.isSome_iff_exists, List.find?_isSome]
    exact ⟨head, hmem, by simpa using htask⟩

theorem rebuildAfterTargetDrift_keeps_queue (predecessorOid : Option Oid)
    (candidate : HubLandingCandidate) (fingerprint : String) :
    (rebuildAfterTargetDrift git session predecessorOid candidate fingerprint).Keeps
      HubWorld.queue := by
  refine Prog.keeps_bind (invalidateHubLandingCandidate_keeps_queue _) fun _ => ?_
  refine Prog.keeps_bind (Prog.keeps_attempt (rebuildCandidate_keeps_queue _ _ _))
    fun rebuilt => ?_
  cases rebuilt with
  | error e =>
    refine Prog.keeps_bind ?_ fun _ => Prog.keeps_ret _
    refine Prog.keeps_bind (cleanupQuietly_keeps_queue _) fun _ => ?_
    split
    · exact Prog.keeps_ret _
    · exact Prog.keeps_ret _
  | ok rebuilt =>
    refine Prog.keeps_bind (verifyWithBoundedRepair_keeps_queue _ _) fun outcome => ?_
    cases outcome with
    | failed result => exact Prog.keeps_ret _
    | verified verified =>
      exact Prog.keeps_bind (bindVerification_keeps_queue _ _ _) fun _ => Prog.keeps_ret _

theorem driftsOf_of_queue {s t : HubWorld} (h : t.queue = s.queue) :
    driftsOf session t = driftsOf session s := by
  rw [driftsOf, ticketOf_of_queue h]
  rfl

theorem settleTargetDrift_rebuilt {predecessorOid : Option Oid}
    {candidate rebuilt : HubLandingCandidate} {observedTargetOid : Oid} {fingerprint : String}
    {mine : HubLandingQueueTicket} {s t : HubWorld} (hmine : s.ticketOf session.task.id = some mine)
    (hrun : (settleTargetDrift git session predecessorOid candidate observedTargetOid
      fingerprint).run s = (.ok (.rebuilt rebuilt), t)) :
    driftsOf session s < HUB_LANDING_TARGET_DRIFT_REBUILD_LIMIT ∧
      driftsOf session t = driftsOf session s + 1 := by
  have hdrifts : driftsOf session s = mine.activationDriftRebuilds := by
    rw [driftsOf, hmine]
    rfl
  have hlimit : (shouldEnterHubLandingQuietWait session.task.id).run s =
      (.ok (decide (driftsOf session s ≥ HUB_LANDING_TARGET_DRIFT_REBUILD_LIMIT)), s) := rfl
  unfold settleTargetDrift at hrun
  rw [Prog.bind_eq, Prog.run_bind_ok hlimit] at hrun
  by_cases hreached : driftsOf session s ≥ HUB_LANDING_TARGET_DRIFT_REBUILD_LIMIT
  · rw [if_pos (by simpa using hreached)] at hrun
    obtain ⟨_, u, -, hrun⟩ := Prog.run_bind_eq_ok.mp hrun
    cases hrun
  · rw [if_neg (by simpa using hreached)] at hrun
    obtain ⟨_, u, hrecord, hrun⟩ := Prog.run_bind_eq_ok.mp hrun
    obtain ⟨_, v, hwithdraw, hrun⟩ := Prog.run_bind_eq_ok.mp hrun
    have hrecorded : (recordHubLandingDriftRebuild session.task.id observedTargetOid
        session.input.call.now).Returns s fun _ w => ∃ ticket,
          w.ticketOf session.task.id = some ticket ∧
            ticket.activationDriftRebuilds = driftsOf session s + 1 := by
      refine Prog.returns_reads_bind.mpr ?_
      refine Prog.returns_mono (returns_updateTicket (fun _ => ⟨rfl, rfl, rfl⟩) hmine) ?_
      intro _ w hw
      exact ⟨_, hw, rfl⟩
    obtain ⟨_, -, ticket, hticket, hcount⟩ := hrecorded.of_run hrecord
    obtain ⟨_, -, hticket⟩ := (returns_invalidateSuffix _ _ hticket).of_run hwithdraw
    have hkept : t.ticketOf session.task.id = v.ticketOf session.task.id :=
      ticketOf_of_run (rebuildAfterTargetDrift_keeps_queue _ _ _) hrun
    refine ⟨by omega, ?_⟩
    rw [driftsOf, hkept, hticket]
    exact hcount

/-- Step lemma of the landing loop: a pass that leads to another one counts up the drifts, which
were below the limit. -/
theorem landingRound_rebuilt {predecessorOid : Option Oid} {fingerprint : String}
    {candidate rebuilt : HubLandingCandidate} {s t : HubWorld}
    (hrun : (landingRound git session predecessorOid fingerprint candidate).run s =
      (.ok (.rebuilt rebuilt), t)) :
    driftsOf session s < HUB_LANDING_TARGET_DRIFT_REBUILD_LIMIT ∧
      driftsOf session t = driftsOf session s + 1 := by
  have hgate : (canLandHubLandingTicket session.task.id none).run s =
      (.ok (mayLand s.queue session.task.id none), s) := rfl
  unfold landingRound at hrun
  rw [Prog.bind_eq, Prog.run_bind_ok hgate] at hrun
  cases hopen : mayLand s.queue session.task.id none with
  | false =>
    rw [hopen, if_neg (by simp)] at hrun
    cases hrun
  | true =>
    rw [hopen, if_pos rfl] at hrun
    obtain ⟨mine, hmine⟩ := ticketOf_of_mayLand hopen
    unfold landingAttempt at hrun
    obtain ⟨attempted, u, hland, hrun⟩ := Prog.run_bind_eq_ok.mp hrun
    have hqueue : u.queue = s.queue :=
      (Prog.keeps_attempt (landWithLease_keeps_queue _ _)).of_run hland
    rw [← driftsOf_of_queue hqueue]
    rw [← ticketOf_of_queue hqueue] at hmine
    cases attempted with
    | error e =>
      obtain ⟨result, v, -, hrun⟩ := Prog.run_bind_eq_ok.mp hrun
      cases hrun
    | ok attempt =>
      dsimp only at hrun
      unfold settleAttempt at hrun
      -- All ends of an attempt but a drift end the loop.
      split at hrun
      · obtain ⟨_, v, -, hrun⟩ := Prog.run_bind_eq_ok.mp hrun
        obtain ⟨_, w, -, hrun⟩ := Prog.run_bind_eq_ok.mp hrun
        cases hrun
      · obtain ⟨_, v, -, hrun⟩ := Prog.run_bind_eq_ok.mp hrun
        cases hrun
      · obtain ⟨_, v, -, hrun⟩ := Prog.run_bind_eq_ok.mp hrun
        cases hrun
      · cases hrun
      · cases hrun
      · exact settleTargetDrift_rebuilt hmine hrun

/-- What the landing loop brings is about the task. -/
def FinalizeLandingResult.OfTask (session : MergeTaskSession) : FinalizeLandingResult → Prop
  | .failed result => ArchLoop.OfTask session result
  | .landed _ => True

/-- Run lemma of the landing loop: with as many passes as rebuilds are left, and one more, it
comes to an end. -/
theorem landingLoop_fails {predecessorOid : Option Oid} {fingerprint : String} {rounds : Nat}
    {candidate : HubLandingCandidate} {s t : HubWorld} {e : HubError} (hrounds : 0 < rounds)
    (hleft : HUB_LANDING_TARGET_DRIFT_REBUILD_LIMIT < driftsOf session s + rounds)
    (hrun : (landingLoop git session predecessorOid fingerprint rounds candidate).run s =
      (.error e, t)) : GitFailure e := by
  induction rounds generalizing candidate s with
  | zero => omega
  | succ rounds ih =>
    unfold landingLoop at hrun
    rw [Prog.bind_eq, Prog.run_bind] at hrun
    cases hround : (landingRound git session predecessorOid fingerprint candidate).run s with
    | mk result u =>
      rw [hround] at hrun
      cases result with
      | error e' =>
        obtain rfl : e' = e := by simpa using congrArg Prod.fst hrun
        exact (delivers_landingRound _ _ _).fails s e' u hround
      | ok round =>
        cases round with
        | landed landed => cases hrun
        | failed result => cases hrun
        | rebuilt rebuilt =>
          obtain ⟨hbelow, hcount⟩ := landingRound_rebuilt hround
          exact ih (by omega) (by omega) hrun

theorem delivers_landingLoop (predecessorOid : Option Oid) (fingerprint : String)
    (candidate : HubLandingCandidate) :
    Delivers (landingLoop git session predecessorOid fingerprint
      (HUB_LANDING_TARGET_DRIFT_REBUILD_LIMIT + 1) candidate)
      (FinalizeLandingResult.OfTask session) where
  value := by
    generalize HUB_LANDING_TARGET_DRIFT_REBUILD_LIMIT + 1 = rounds
    induction rounds generalizing candidate with
    | zero => trivial
    | succ rounds ih =>
      refine Prog.ends_bind (delivers_landingRound _ _ _).value fun round hround => ?_
      cases round with
      | landed landed => trivial
      | failed result => exact hround
      | rebuilt rebuilt => exact ih rebuilt
  fails s e t hrun := landingLoop_fails (by omega) (by omega) hrun

theorem delivers_finalizeLandedCandidate (predecessorOid : Option Oid) (fingerprint : String)
    (candidate : HubLandingCandidate) :
    Delivers (finalizeLandedCandidate git session predecessorOid fingerprint candidate)
      (FinalizeLandingResult.OfTask session) := by
  refine delivers_bind (delivers_quietWaitOver _ _ _) fun ended _ => ?_
  split
  · exact delivers_landingLoop _ _ _
  · exact delivers_ret rfl

/-! ### A whole task -/

theorem delivers_closeLandedTask (candidate : HubLandingCandidate) :
    Delivers (closeLandedTask git session candidate) (OfTask session) := by
  refine delivers_bind (delivers_reads _) fun policy _ => ?_
  refine delivers_tryCatch ?_ fun _ => delivers_ret rfl
  refine Prog.ends_bind (Q := fun waited => ∀ result, waited = some result → OfTask session result)
    ?_ fun waited hwaited => ?_
  · unfold awaitPublicationOf
    split
    · split
      · refine Prog.ends_bind (Prog.ends_true _) fun _ _ => ?_
        refine Prog.ends_bind (Prog.ends_true _) fun _ _ => ?_
        refine Prog.ends_bind (Prog.ends_true _) fun _ _ => ?_
        refine Prog.ends_bind (Prog.ends_true _) fun _ _ => ?_
        refine Prog.ends_bind (Prog.ends_true _) fun outcome _ => ?_
        refine Prog.ends_bind (Prog.ends_true _) fun _ _ => ?_
        split
        · rintro _ ⟨⟩
          rfl
        · refine Prog.ends_bind (Prog.ends_true _) fun _ _ => ?_
          intro _ h
          cases h
      · intro _ h
        cases h
    · intro _ h
      cases h
  · cases waited with
    | some pendingDelivery => exact hwaited _ rfl
    | none =>
      refine Prog.ends_bind (Prog.ends_true _) fun _ _ => ?_
      refine Prog.ends_bind (Prog.ends_true _) fun _ _ => ?_
      refine Prog.ends_bind (Prog.ends_true _) fun _ _ => ?_
      exact Prog.ends_bind (Prog.ends_true _) fun _ _ => rfl

theorem delivers_failQueueTicket : Delivers (failQueueTicket session) fun _ => True := by
  refine delivers_bind (delivers_updateTicket _ _) fun _ _ => ?_
  exact delivers_bind (delivers_invalidateSuffix _ _ _) fun _ _ => delivers_ret trivial

theorem ofTask_settleUnsuccessfulMerge (e : HubError) :
    OfTask session (settleUnsuccessfulMerge session e) := by
  unfold settleUnsuccessfulMerge
  split
  · rfl
  · rfl

theorem delivers_processMergeTask (predecessorOid : Option Oid) :
    Delivers (processMergeTask git session predecessorOid) (OfTask session) := by
  refine delivers_bind (delivers_mergeTask _) fun merged _ => ?_
  cases merged with
  | error e =>
    exact delivers_bind delivers_failQueueTicket fun _ _ =>
      delivers_ret (ofTask_settleUnsuccessfulMerge e)
  | ok candidate =>
    refine delivers_bind (delivers_updateTicket _ _) fun _ _ => ?_
    refine delivers_bind (delivers_verifyWithBoundedRepair _) fun outcome houtcome => ?_
    cases outcome with
    | failed result =>
      exact delivers_bind delivers_failQueueTicket fun _ _ => delivers_ret houtcome
    | verified verified =>
      refine delivers_bind (delivers_updateTicket _ _) fun _ _ => ?_
      refine delivers_bind (delivers_reads _) fun parts _ => ?_
      refine delivers_bind (delivers_bindVerification _ _) fun _ _ => ?_
      refine delivers_bind (delivers_finalizeLandedCandidate _ _ _) fun final hfinal => ?_
      cases final with
      | failed result => exact delivers_ret hfinal
      | landed landed => exact delivers_closeLandedTask landed

end

/-! ### The batch -/

/-- The results of tasks that are taken in order, when the tasks `shipped` have been completed
or merged before. -/
inductive AccountsFrom : List TaskId → List HubTaskProjection → List HubBatchMergeTaskResult → Prop
  | nil {shipped : List TaskId} : AccountsFrom shipped [] []
  | merged {shipped : List TaskId} {task : HubTaskProjection} {tasks : List HubTaskProjection}
      {result : HubBatchMergeTaskResult} {results : List HubBatchMergeTaskResult}
      (hid : result.taskId = task.id) (hmerged : result.outcome = .merged)
      (hblockers : ∀ blocker ∈ task.blockers, blocker ∈ shipped)
      (hrest : AccountsFrom (task.id :: shipped) tasks results) :
      AccountsFrom shipped (task :: tasks) (result :: results)
  | unmerged {shipped : List TaskId} {task : HubTaskProjection} {tasks : List HubTaskProjection}
      {result : HubBatchMergeTaskResult} {results : List HubBatchMergeTaskResult}
      (hid : result.taskId = task.id) (hmerged : result.outcome ≠ .merged)
      (hrest : AccountsFrom shipped tasks results) :
      AccountsFrom shipped (task :: tasks) (result :: results)

/-- How the turn of a task may end, after the tasks `shipped`. -/
def TaskTurn.OfTask (session : MergeTaskSession) (shipped : List TaskId) : TaskTurn → Prop
  | .processed result => ArchLoop.OfTask session result ∧
      ∀ blocker ∈ session.task.blockers, blocker ∈ shipped
  | .passed result => ArchLoop.OfTask session result ∧ result.outcome ≠ .merged

section
variable {git : Git}

theorem delivers_heldByQuietWait (session : MergeTaskSession)
    (queue : Option HubLandingQueueState) (ticket : Option HubLandingQueueTicket) :
    Delivers (heldByQuietWait session queue ticket) fun _ => True := by
  unfold heldByQuietWait
  split
  · exact delivers_ret trivial
  · refine delivers_bind (delivers_revParse _ _) fun observedTargetOid _ => ?_
    refine delivers_bind (delivers_quietWaitOver _ _ _) fun ended _ => ?_
    split
    · exact delivers_ret trivial
    · exact delivers_ret trivial

theorem ofTask_quietWaitBlocked (session : MergeTaskSession) (headTaskId : TaskId) :
    OfTask session (quietWaitBlocked session headTaskId) ∧
      (quietWaitBlocked session headTaskId).outcome = .pending := by
  unfold quietWaitBlocked
  split
  · exact ⟨rfl, rfl⟩
  · exact ⟨rfl, rfl⟩

theorem delivers_taskTurn (session : MergeTaskSession) (shipped : List TaskId)
    (predecessorOid : Option Oid) :
    Delivers (taskTurn git session shipped predecessorOid) (TaskTurn.OfTask session shipped) := by
  refine delivers_bind (delivers_reads _) fun queue _ => ?_
  dsimp only
  split
  · refine delivers_bind (delivers_updateTicket _ _) fun _ _ => delivers_ret ⟨rfl, ?_⟩
    simp [MergeTaskSession.result]
  · rename_i hnone
    have hshipped : ∀ blocker ∈ session.task.blockers, blocker ∈ shipped := by
      intro blocker hblocker
      by_contra hnot
      have hmem : blocker ∈ session.task.blockers.filter (· ∉ shipped) :=
        List.mem_filter.mpr ⟨hblocker, by simpa using hnot⟩
      have hempty : session.task.blockers.filter (· ∉ shipped) = [] := by simpa using hnone
      rw [hempty] at hmem
      cases hmem
    refine delivers_bind (delivers_heldByQuietWait _ _ _) fun held _ => ?_
    cases held with
    | some headTaskId =>
      obtain ⟨hid, hpending⟩ := ofTask_quietWaitBlocked session headTaskId
      refine delivers_ret ⟨hid, ?_⟩
      show (quietWaitBlocked session headTaskId).outcome ≠ .merged
      rw [hpending]
      decide
    | none =>
      exact delivers_bind (delivers_processMergeTask _) fun result hresult =>
        delivers_ret ⟨hresult, hshipped⟩

theorem delivers_behindQuietWait (input : RunHubBatchMergeInput) (policy : HubLandingPolicy)
    (headTaskId : TaskId) (tasks : List HubTaskProjection) (shipped : List TaskId) :
    Delivers (behindQuietWait input policy headTaskId tasks) (AccountsFrom shipped tasks) := by
  induction tasks with
  | nil => exact delivers_ret .nil
  | cons task tasks ih =>
    refine delivers_bind (delivers_findTicket _) fun ticket _ => ?_
    refine delivers_bind ih fun rest hrest => delivers_ret (.unmerged rfl ?_ hrest)
    simp [MergeTaskSession.result]

theorem delivers_mergeTasks (input : RunHubBatchMergeInput) (policy : HubLandingPolicy)
    (tasks : List HubTaskProjection) (shipped : List TaskId) (predecessorOid : Option Oid) :
    Delivers (mergeTasks git input policy tasks shipped predecessorOid)
      (AccountsFrom shipped tasks) := by
  induction tasks generalizing shipped predecessorOid with
  | nil => exact delivers_ret .nil
  | cons task tasks ih =>
    refine delivers_bind (delivers_taskTurn _ _ _) fun turn hturn => ?_
    cases turn with
    | passed result =>
      obtain ⟨hid, hmerged⟩ := hturn
      exact delivers_bind (ih _ _) fun rest hrest => delivers_ret (.unmerged hid hmerged hrest)
    | processed result =>
      obtain ⟨hid, hblockers⟩ := hturn
      dsimp only
      split
      · by_cases hmerged : result.outcome = .merged
        · exact delivers_bind (delivers_behindQuietWait _ _ _ _ _) fun rest hrest =>
            delivers_ret (.merged hid hmerged hblockers hrest)
        · exact delivers_bind (delivers_behindQuietWait _ _ _ _ _) fun rest hrest =>
            delivers_ret (.unmerged hid hmerged hrest)
      split
      · rename_i hmerged
        exact delivers_bind (ih _ _) fun rest hrest =>
          delivers_ret (.merged hid hmerged hblockers hrest)
      · rename_i hmerged
        exact delivers_bind (ih _ _) fun rest hrest => delivers_ret (.unmerged hid hmerged hrest)

theorem AccountsFrom.ids {shipped : List TaskId} {tasks : List HubTaskProjection}
    {results : List HubBatchMergeTaskResult} (h : AccountsFrom shipped tasks results) :
    results.map (·.taskId) = tasks.map (·.id) := by
  induction h with
  | nil => rfl
  | merged hid _ _ _ ih => rw [List.map_cons, List.map_cons, hid, ih]
  | unmerged hid _ _ ih => rw [List.map_cons, List.map_cons, hid, ih]

theorem AccountsFrom.blockers {shipped : List TaskId} {tasks : List HubTaskProjection}
    {results : List HubBatchMergeTaskResult} (h : AccountsFrom shipped tasks results) :
    ∀ before result after, results = before ++ result :: after → result.outcome = .merged →
      ∃ task ∈ tasks, task.id = result.taskId ∧ ∀ blocker ∈ task.blockers,
        blocker ∈ shipped ∨ ∃ earlier ∈ before, earlier.taskId = blocker ∧
          earlier.outcome = .merged := by
  induction h with
  | nil =>
    intro before result after heq
    simp at heq
  | @merged shipped task tasks first results hid hmerged hblockers hrest ih =>
    intro before result after heq houtcome
    cases before with
    | nil =>
      rw [List.nil_append, List.cons.injEq] at heq
      obtain ⟨rfl, -⟩ := heq
      exact ⟨task, by simp, hid.symm, fun blocker hblocker => Or.inl (hblockers blocker hblocker)⟩
    | cons entry before =>
      rw [List.cons_append, List.cons.injEq] at heq
      obtain ⟨rfl, heq⟩ := heq
      obtain ⟨later, hlater, hlaterId, hlaterBlockers⟩ := ih before result after heq houtcome
      refine ⟨later, List.mem_cons_of_mem _ hlater, hlaterId, fun blocker hblocker => ?_⟩
      -- The first result has put its own task among the shipped ones.
      rcases hlaterBlockers blocker hblocker with hshipped | ⟨earlier, hearlier, hfound⟩
      · rcases List.mem_cons.mp hshipped with hfirst | hshipped
        · exact Or.inr ⟨first, by simp, hid.trans hfirst.symm, hmerged⟩
        · exact Or.inl hshipped
      · exact Or.inr ⟨earlier, List.mem_cons_of_mem _ hearlier, hfound⟩
  | @unmerged shipped task tasks first results hid hmerged hrest ih =>
    intro before result after heq houtcome
    cases before with
    | nil =>
      rw [List.nil_append, List.cons.injEq] at heq
      obtain ⟨rfl, -⟩ := heq
      exact absurd houtcome hmerged
    | cons entry before =>
      rw [List.cons_append, List.cons.injEq] at heq
      obtain ⟨rfl, heq⟩ := heq
      obtain ⟨later, hlater, hlaterId, hlaterBlockers⟩ := ih before result after heq houtcome
      refine ⟨later, List.mem_cons_of_mem _ hlater, hlaterId, fun blocker hblocker => ?_⟩
      rcases hlaterBlockers blocker hblocker with hshipped | ⟨earlier, hearlier, hfound⟩
      · exact Or.inl hshipped
      · exact Or.inr ⟨earlier, List.mem_cons_of_mem _ hearlier, hfound⟩

theorem SelectsFromBoard.eq_of_id {input : RunHubBatchMergeInput} (h : SelectsFromBoard input)
    {a b : HubTaskProjection} (ha : a ∈ input.selectedTasks) (hb : b ∈ input.selectedTasks)
    (hid : a.id = b.id) : a = b :=
  List.inj_on_of_nodup_map h.ids (h.selected.subset ha) (h.selected.subset hb) hid

theorem AccountsFrom.accounts {input : RunHubBatchMergeInput} (hselects : SelectsFromBoard input)
    {results : List HubBatchMergeTaskResult}
    (h : AccountsFrom
      ((input.board.filter fun task => isCompletedHubStatus task.hubStatus).map (·.id))
      (orderTasksByDependencies input.selectedTasks) results) : Accounts input results where
  one := by
    rw [h.ids]
    exact (ordersByDependencies input.selectedTasks).perm.map _
  merged before result after heq houtcome task htask hid blocker hblocker := by
    obtain ⟨taken, htaken, htakenId, hblockers⟩ := h.blockers before result after heq houtcome
    have hselected : taken ∈ input.selectedTasks :=
      (ordersByDependencies input.selectedTasks).perm.mem_iff.mp htaken
    obtain rfl := hselects.eq_of_id htask hselected (hid.trans htakenId.symm)
    rcases hblockers blocker hblocker with hshipped | hearlier
    · obtain ⟨entry, hentry, rfl⟩ := List.mem_map.mp hshipped
      obtain ⟨hboard, hcompleted⟩ := List.mem_filter.mp hentry
      exact Or.inl ⟨entry, hboard, rfl, hcompleted⟩
    · exact Or.inr hearlier

theorem delivers_policyForMerge (input : RunHubBatchMergeInput) :
    Delivers (policyForMerge git input) fun _ => True := by
  refine delivers_bind (delivers_reads _) fun policy _ => ?_
  cases policy with
  | some policy => exact delivers_ret trivial
  | none =>
    refine delivers_bind (delivers_reads _) fun existing _ => ?_
    cases existing with
    | some existing =>
      refine delivers_bind (delivers_revParse _ _) fun headOid _ => ?_
      refine delivers_bind (delivers_modify _) fun _ _ => ?_
      exact delivers_bind (delivers_modify _) fun _ _ => delivers_ret trivial
    | none =>
      refine delivers_bind (delivers_revParse _ _) fun headOid _ => ?_
      refine delivers_bind (delivers_modify _) fun _ _ => ?_
      refine delivers_bind (delivers_modify _) fun _ _ => ?_
      exact delivers_bind (delivers_modify _) fun _ _ => delivers_ret trivial

theorem delivers_reconcileHost (input : HubHostContributionInput) :
    Delivers (reconcileHubHostTargetContribution git input) fun _ => True := by
  refine delivers_bind (Q := fun _ => True) ?_ fun classified _ => ?_
  · refine delivers_bind (delivers_revParse _ _) fun hostOid _ => ?_
    refine delivers_bind (delivers_revParse _ _) fun targetOid _ => ?_
    exact delivers_bind (delivers_reads _) fun _ _ => delivers_ret trivial
  split
  · exact delivers_ret trivial
  · exact delivers_tryCatch (Prog.ends_true _) fun _ => delivers_ret trivial

theorem accountsFrom_hostContribution (input : RunHubBatchMergeInput) (policy : HubLandingPolicy)
    (contribution : HubHostContributionResult) (reason : HubHostContributionPendingReason)
    (tasks : List HubTaskProjection) (shipped : List TaskId) :
    AccountsFrom shipped tasks
      (hostContributionResults input policy contribution reason tasks) := by
  induction tasks with
  | nil => exact .nil
  | cons task tasks ih =>
    refine .unmerged rfl ?_ ih
    simp [MergeTaskSession.result]

theorem delivers_runHubBatchMerge {input : RunHubBatchMergeInput}
    (hselects : SelectsFromBoard input) :
    Delivers (runHubBatchMerge git input) (Accounts input) := by
  unfold runHubBatchMerge
  split
  · rename_i hempty
    refine delivers_ret ?_
    rw [List.isEmpty_iff] at hempty
    refine ⟨by rw [hempty]; exact List.Perm.refl _, ?_⟩
    intro before result after heq
    simp at heq
  · refine delivers_bind (delivers_policyForMerge input) fun policy _ => ?_
    refine delivers_bind (Q := fun _ => True) ?_ fun queue _ => ?_
    · refine delivers_bind (delivers_reads _) fun existing _ => ?_
      exact delivers_bind (delivers_modify _) fun _ _ => delivers_ret trivial
    refine delivers_bind (delivers_reconcileHost _) fun contribution _ => ?_
    cases contribution.pendingReason with
    | some reason =>
      exact delivers_ret
        (AccountsFrom.accounts hselects (accountsFrom_hostContribution _ _ _ _ _ _))
    | none =>
      exact (delivers_mergeTasks input policy _ _ _).mono fun _ h => h.accounts hselects

end

/-- A batch of two tasks, the first of which waits for the second. -/
def blockedBatch : RunHubBatchMergeInput where
  board := [{ id := "a", blockers := ["b"] }, { id := "b" }, { id := "c", hubStatus := .done }]
  selectedTasks := [{ id := "a", blockers := ["b"] }, { id := "b" }]
  merge _ _ w := (w, none)
  verifier _ w := (w, none)

example : (orderTasksByDependencies blockedBatch.selectedTasks).map (·.id) = ["b", "a"] := by
  decide

theorem blockedBatch_selects : SelectsFromBoard blockedBatch where
  selected := by decide
  ids := by decide

end ArchLoop
