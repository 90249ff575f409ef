import ArchLoop.Queue
import Mathlib.Data.List.Pairwise

/-!
# `ArchLoop.Proofs.QueueInvariant`: what the queue operations keep

`HubLandingQueueState.Wf` is the invariant of the queue file. `resolveTicketId_sequence` is
the fact behind it: a ticket id ends with its sequence number, so tickets with distinct
sequences have distinct ids, and `replaceTicket` replaces exactly one ticket.

Each operation has one description of what it does to the tickets:

- `patchTicket_tickets`: only the ticket of the task changes.
- `assignTickets_spec`: old tickets stay in place, refreshed if their task is listed, and
  each listed task has a ticket.
- `invalidateSuffix` is a map over the tickets by definition.

From these follow `wf_patchTicket`, `wf_assignTickets` and `wf_invalidateSuffix`.
-/

set_option autoImplicit false

namespace ArchLoop

/-! ### Ticket ids -/

private theorem append_dash_inj {l₁ l₂ d₁ d₂ : List Char} (h₁ : '-' ∉ d₁) (h₂ : '-' ∉ d₂)
    (h : l₁ ++ '-' :: d₁ = l₂ ++ '-' :: d₂) : d₁ = d₂ := by
  rcases List.append_eq_append_iff.mp h with ⟨m, -, hm⟩ | ⟨m, -, hm⟩
  · cases m with
    | nil => simpa using hm
    | cons c m =>
      obtain ⟨-, hm⟩ := List.cons.inj hm
      exact absurd (by simp [hm]) h₁
  · cases m with
    | nil => simpa using hm.symm
    | cons c m =>
      obtain ⟨-, hm⟩ := List.cons.inj hm
      exact absurd (by simp [hm]) h₂

private theorem dash_notMem_repr (n : Nat) : '-' ∉ n.repr.toList := by
  rw [Nat.toList_repr]
  intro h
  have hdigit := Nat.isDigit_of_mem_toDigits (by decide) (by decide) h
  exact absurd hdigit (by decide)

theorem resolveTicketId_sequence {a b : TaskId} {m n : Nat}
    (h : resolveTicketId a m = resolveTicketId b n) : m = n := by
  have hlist : ("lqt-".toList ++ (safeTaskId a).toList) ++ '-' :: m.repr.toList
      = ("lqt-".toList ++ (safeTaskId b).toList) ++ '-' :: n.repr.toList := by
    have := congrArg String.toList h
    simpa [resolveTicketId, toString] using this
  have hrepr := append_dash_inj (dash_notMem_repr m) (dash_notMem_repr n) hlist
  rw [Nat.toList_repr, Nat.toList_repr] at hrepr
  rw [← Nat.ofDigitChars_ten_toDigits (n := m), hrepr, Nat.ofDigitChars_ten_toDigits]

/-! ### The invariant -/

namespace HubLandingQueueState

/-- The invariant of the queue file.

- `tasks`, `sequences`: no two tickets share a task or a sequence.
- `fresh`: the next sequence is above all that were given.
- `ids`: the ticket id follows from task and sequence. -/
structure Wf (queue : HubLandingQueueState) : Prop where
  tasks : queue.tickets.Pairwise fun a b => a.taskId ≠ b.taskId
  sequences : queue.tickets.Pairwise fun a b => a.sequence ≠ b.sequence
  fresh : ∀ t ∈ queue.tickets, t.sequence < queue.nextSequence
  ids : ∀ t ∈ queue.tickets, t.ticketId = resolveTicketId t.taskId t.sequence

end HubLandingQueueState

open HubLandingQueueState

/-- Two tickets of one list whose values under `f` are pairwise distinct are equal when these
values are. -/
theorem eq_of_pairwise_ne {τ : Type} {f : HubLandingQueueTicket → τ}
    {tickets : List HubLandingQueueTicket}
    (h : tickets.Pairwise fun a b => f a ≠ f b) {a b : HubLandingQueueTicket}
    (ha : a ∈ tickets) (hb : b ∈ tickets) (hf : f a = f b) : a = b := by
  have : Std.Symm fun a b : HubLandingQueueTicket => f a ≠ f b := ⟨fun _ _ h => h.symm⟩
  by_contra hne
  exact h.forall ha hb hne hf

theorem HubLandingQueueState.Wf.eq_of_taskId {queue : HubLandingQueueState} (h : queue.Wf)
    {a b : HubLandingQueueTicket} (ha : a ∈ queue.tickets) (hb : b ∈ queue.tickets)
    (ht : a.taskId = b.taskId) : a = b :=
  eq_of_pairwise_ne h.tasks ha hb ht

theorem HubLandingQueueState.Wf.eq_of_ticketId {queue : HubLandingQueueState} (h : queue.Wf)
    {a b : HubLandingQueueTicket} (ha : a ∈ queue.tickets) (hb : b ∈ queue.tickets)
    (hid : a.ticketId = b.ticketId) : a = b := by
  rw [h.ids a ha, h.ids b hb] at hid
  exact eq_of_pairwise_ne h.sequences ha hb (resolveTicketId_sequence hid)

theorem findTicket_some {queue : HubLandingQueueState} {taskId : TaskId}
    {t : HubLandingQueueTicket} (h : queue.findTicket taskId = some t) :
    t ∈ queue.tickets ∧ t.taskId = taskId := by
  refine ⟨List.mem_of_find?_eq_some h, ?_⟩
  simpa using List.find?_some h

theorem findTicket_none {queue : HubLandingQueueState} {taskId : TaskId}
    (h : queue.findTicket taskId = none) : ∀ t ∈ queue.tickets, t.taskId ≠ taskId := by
  intro t ht
  simpa using List.find?_eq_none.mp h t ht

theorem HubLandingQueueState.Wf.findTicket_eq {queue : HubLandingQueueState} (h : queue.Wf)
    {t : HubLandingQueueTicket} (ht : t ∈ queue.tickets) :
    queue.findTicket t.taskId = some t := by
  cases hf : queue.findTicket t.taskId with
  | none => exact absurd rfl (findTicket_none hf t ht)
  | some u =>
    obtain ⟨hu, htask⟩ := findTicket_some hf
    rw [h.eq_of_taskId hu ht htask]

/-- The two tickets are one ticket at two times: id, task and sequence agree. -/
structure SameTicket (a b : HubLandingQueueTicket) : Prop where
  ticketId : a.ticketId = b.ticketId
  taskId : a.taskId = b.taskId
  sequence : a.sequence = b.sequence

theorem SameTicket.refl (t : HubLandingQueueTicket) : SameTicket t t := ⟨rfl, rfl, rfl⟩

theorem SameTicket.trans {a b c : HubLandingQueueTicket} (h₁ : SameTicket a b)
    (h₂ : SameTicket b c) : SameTicket a c :=
  ⟨h₁.ticketId.trans h₂.ticketId, h₁.taskId.trans h₂.taskId, h₁.sequence.trans h₂.sequence⟩

/-- Tickets mapped by an operation that keeps which ticket each is form a well-formed
queue. -/
theorem wf_map {queue : HubLandingQueueState} (h : queue.Wf)
    {f : HubLandingQueueTicket → HubLandingQueueTicket}
    (hf : ∀ t ∈ queue.tickets, SameTicket (f t) t) :
    ({ queue with tickets := queue.tickets.map f } : HubLandingQueueState).Wf where
  tasks := by
    refine List.pairwise_map.mpr (h.tasks.imp_of_mem ?_)
    intro a b ha hb hab
    rwa [(hf a ha).taskId, (hf b hb).taskId]
  sequences := by
    refine List.pairwise_map.mpr (h.sequences.imp_of_mem ?_)
    intro a b ha hb hab
    rwa [(hf a ha).sequence, (hf b hb).sequence]
  fresh := by
    intro t ht
    obtain ⟨u, hu, rfl⟩ := List.mem_map.mp ht
    rw [(hf u hu).sequence]
    exact h.fresh u hu
  ids := by
    intro t ht
    obtain ⟨u, hu, rfl⟩ := List.mem_map.mp ht
    rw [(hf u hu).ticketId, (hf u hu).taskId, (hf u hu).sequence]
    exact h.ids u hu

def KeepsIdentity (f : HubLandingQueueTicket → HubLandingQueueTicket) : Prop :=
  ∀ t, SameTicket (f t) t

theorem wf_emptyQueue : emptyQueue.Wf where
  tasks := List.Pairwise.nil
  sequences := List.Pairwise.nil
  fresh := fun _ h => nomatch h
  ids := fun _ h => nomatch h

/-! ### Patching one ticket -/

/-- The patch of a task's ticket, as a map over the tickets. -/
def patchAt (taskId : TaskId) (patch : HubLandingQueueTicket → HubLandingQueueTicket)
    (t : HubLandingQueueTicket) : HubLandingQueueTicket :=
  if t.taskId = taskId then patch t else t

theorem keepsIdentity_patchAt {taskId : TaskId}
    {patch : HubLandingQueueTicket → HubLandingQueueTicket} (h : KeepsIdentity patch) :
    KeepsIdentity (patchAt taskId patch) := by
  intro t
  unfold patchAt
  split
  · exact h t
  · exact ⟨rfl, rfl, rfl⟩

theorem patchTicket_tickets {queue next : HubLandingQueueState} {taskId : TaskId}
    {patch : HubLandingQueueTicket → HubLandingQueueTicket} {ticket : HubLandingQueueTicket}
    (hwf : queue.Wf) (hkeeps : KeepsIdentity patch)
    (h : queue.patchTicket taskId patch = some (next, ticket)) :
    next = { queue with tickets := queue.tickets.map (patchAt taskId patch) } ∧
      ∃ current ∈ queue.tickets, current.taskId = taskId ∧ ticket = patch current := by
  simp only [patchTicket, Option.map_eq_some_iff, Prod.mk.injEq] at h
  obtain ⟨current, hfind, rfl, rfl⟩ := h
  obtain ⟨hmem, htask⟩ := findTicket_some hfind
  refine ⟨?_, current, hmem, htask, rfl⟩
  simp only [replaceTicket, HubLandingQueueState.mk.injEq, true_and]
  refine List.map_congr_left ?_
  intro entry hentry
  unfold patchAt
  rw [(hkeeps current).ticketId]
  by_cases hid : entry.ticketId = current.ticketId
  · have heq : entry = current := hwf.eq_of_ticketId hentry hmem hid
    rw [if_pos hid, heq, if_pos htask]
  · have hne : entry.taskId ≠ taskId := by
      intro htask'
      exact hid (by rw [hwf.eq_of_taskId hentry hmem (htask'.trans htask.symm)])
    rw [if_neg hid, if_neg hne]

theorem wf_patchTicket {queue next : HubLandingQueueState} {taskId : TaskId}
    {patch : HubLandingQueueTicket → HubLandingQueueTicket} {ticket : HubLandingQueueTicket}
    (hwf : queue.Wf) (hkeeps : KeepsIdentity patch)
    (h : queue.patchTicket taskId patch = some (next, ticket)) : next.Wf := by
  rw [(patchTicket_tickets hwf hkeeps h).1]
  exact wf_map hwf fun t _ => keepsIdentity_patchAt hkeeps t

/-! ### Withdrawing a suffix -/

theorem wf_invalidateSuffix {queue : HubLandingQueueState} (hwf : queue.Wf)
    (origin : HubLandingQueueTicket) (now : Nat) (reason : String) :
    (invalidateSuffix queue origin now reason).Wf := by
  refine wf_map hwf ?_
  intro t _
  split
  · exact ⟨rfl, rfl, rfl⟩
  · exact ⟨rfl, rfl, rfl⟩

/-! ### Assigning tickets -/

/-- The lookup table of the loop knows the tickets of the queue, perhaps in an older state. -/
structure Covers (byTaskId : TaskId → Option HubLandingQueueTicket)
    (queue : HubLandingQueueState) : Prop where
  known : ∀ taskId t, byTaskId taskId = some t →
    t.taskId = taskId ∧ ∃ e ∈ queue.tickets, SameTicket e t
  unknown : ∀ taskId, byTaskId taskId = none → ∀ e ∈ queue.tickets, e.taskId ≠ taskId

/-- A ticket that a table built from a list knows comes from the list or from the table
before. -/
private theorem foldl_update_some {tickets : List HubLandingQueueTicket}
    {m : TaskId → Option HubLandingQueueTicket} {taskId : TaskId} {t : HubLandingQueueTicket}
    (h : tickets.foldl (fun (m : TaskId → Option HubLandingQueueTicket) ticket =>
      Function.update m ticket.taskId (some ticket)) m taskId = some t) :
    (t ∈ tickets ∧ t.taskId = taskId) ∨ m taskId = some t := by
  induction tickets generalizing m with
  | nil => exact Or.inr h
  | cons first rest ih =>
    rcases ih h with ⟨hmem, htask⟩ | hm
    · exact Or.inl ⟨List.mem_cons_of_mem _ hmem, htask⟩
    · beta_reduce at hm
      by_cases hfirst : taskId = first.taskId
      · subst hfirst
        rw [Function.update_self] at hm
        obtain rfl := Option.some.inj hm
        exact Or.inl ⟨List.mem_cons_self, rfl⟩
      · rw [Function.update_of_ne hfirst] at hm
        exact Or.inr hm

private theorem foldl_update_none {tickets : List HubLandingQueueTicket}
    {m : TaskId → Option HubLandingQueueTicket} {taskId : TaskId}
    (h : tickets.foldl (fun (m : TaskId → Option HubLandingQueueTicket) ticket =>
      Function.update m ticket.taskId (some ticket)) m taskId = none) :
    m taskId = none ∧ ∀ e ∈ tickets, e.taskId ≠ taskId := by
  induction tickets generalizing m with
  | nil => exact ⟨h, fun e he => nomatch he⟩
  | cons first rest ih =>
    obtain ⟨hm, hrest⟩ := ih h
    beta_reduce at hm
    have hfirst : taskId ≠ first.taskId := by
      rintro rfl
      rw [Function.update_self] at hm
      cases hm
    rw [Function.update_of_ne hfirst] at hm
    refine ⟨hm, ?_⟩
    intro e he
    rcases List.mem_cons.mp he with rfl | he
    · exact Ne.symm hfirst
    · exact hrest e he

theorem byTaskId_some {queue : HubLandingQueueState} {taskId : TaskId}
    {t : HubLandingQueueTicket} (h : queue.byTaskId taskId = some t) :
    t ∈ queue.tickets ∧ t.taskId = taskId := by
  rcases foldl_update_some h with hmem | hm
  · exact hmem
  · cases hm

theorem covers_byTaskId (queue : HubLandingQueueState) : Covers queue.byTaskId queue := by
  constructor
  · intro taskId t h
    rcases foldl_update_some h with ⟨hmem, htask⟩ | hm
    · exact ⟨htask, t, hmem, SameTicket.refl t⟩
    · cases hm
  · intro taskId h
    exact (foldl_update_none h).2

def replaceBy (ticket entry : HubLandingQueueTicket) : HubLandingQueueTicket :=
  if entry.ticketId = ticket.ticketId then ticket else entry

theorem replaceFirst_eq_map {ticket : HubLandingQueueTicket}
    {tickets : List HubLandingQueueTicket}
    (h : tickets.Pairwise fun a b => a.ticketId ≠ b.ticketId) :
    replaceFirst ticket tickets = tickets.map (replaceBy ticket) := by
  induction tickets with
  | nil => rfl
  | cons first rest ih =>
    obtain ⟨hfirst, hrest⟩ := List.pairwise_cons.mp h
    by_cases hid : first.ticketId = ticket.ticketId
    · have hsame : ∀ e ∈ rest, replaceBy ticket e = id e := by
        intro e he
        refine if_neg ?_
        intro heq
        exact hfirst e he (hid.trans heq.symm)
      rw [List.map_cons, List.map_congr_left hsame, List.map_id]
      simp only [replaceFirst, replaceBy, if_pos hid]
    · rw [List.map_cons, ← ih hrest]
      simp only [replaceFirst, replaceBy, if_neg hid]

theorem HubLandingQueueState.Wf.ticketIds {queue : HubLandingQueueState} (h : queue.Wf) :
    queue.tickets.Pairwise fun a b => a.ticketId ≠ b.ticketId := by
  refine h.sequences.imp_of_mem ?_
  intro a b ha hb hne hid
  rw [h.ids a ha, h.ids b hb] at hid
  exact hne (resolveTicketId_sequence hid)

theorem wf_newTicket {queue : HubLandingQueueState} (hwf : queue.Wf)
    (task : HubLandingQueueTaskInput) (now : Timestamp)
    (hnew : ∀ e ∈ queue.tickets, e.taskId ≠ task.taskId) :
    ({ nextSequence := queue.nextSequence + 1
       tickets := queue.tickets ++ [newTicket task queue.nextSequence now] } :
      HubLandingQueueState).Wf where
  tasks := by
    refine List.pairwise_append.mpr ⟨hwf.tasks, List.pairwise_singleton _ _, ?_⟩
    intro a ha b hb
    obtain rfl := List.mem_singleton.mp hb
    exact hnew a ha
  sequences := by
    refine List.pairwise_append.mpr ⟨hwf.sequences, List.pairwise_singleton _ _, ?_⟩
    intro a ha b hb
    obtain rfl := List.mem_singleton.mp hb
    exact Nat.ne_of_lt (hwf.fresh a ha)
  fresh := by
    intro t ht
    rcases List.mem_append.mp ht with ht | ht
    · exact Nat.lt_succ_of_lt (hwf.fresh t ht)
    · obtain rfl := List.mem_singleton.mp ht
      exact Nat.lt_succ_self _
  ids := by
    intro t ht
    rcases List.mem_append.mp ht with ht | ht
    · exact hwf.ids t ht
    · obtain rfl := List.mem_singleton.mp ht
      rfl

/-- What an assignment does to a queue.

- `wf`: the invariant is kept.
- `kept`: each old ticket is still there, and unchanged unless its task is listed.
- `assigned`: each listed task has a ticket. -/
structure Assigned (tasks : List HubLandingQueueTaskInput)
    (queue next : HubLandingQueueState) : Prop where
  wf : next.Wf
  kept : ∀ e ∈ queue.tickets, ∃ e' ∈ next.tickets, SameTicket e' e ∧
    ((∀ task ∈ tasks, task.taskId ≠ e.taskId) → e' = e)
  assigned : ∀ task ∈ tasks, ∃ e ∈ next.tickets, e.taskId = task.taskId

theorem assignLoop_spec (now : Timestamp) (tasks : List HubLandingQueueTaskInput)
    {byTaskId : TaskId → Option HubLandingQueueTicket} {queue : HubLandingQueueState}
    (hwf : queue.Wf) (hcovers : Covers byTaskId queue) :
    Assigned tasks queue (assignLoop now tasks byTaskId queue) := by
  induction tasks generalizing byTaskId queue with
  | nil => exact ⟨hwf, fun e he => ⟨e, he, SameTicket.refl e, fun _ => rfl⟩, fun _ h => nomatch h⟩
  | cons task tasks ih =>
    simp only [assignLoop]
    cases hlookup : byTaskId task.taskId with
    | some current =>
      dsimp only
      obtain ⟨htask, e₀, he₀, hsame₀⟩ := hcovers.known _ _ hlookup
      rw [replaceFirst_eq_map hwf.ticketIds]
      -- The refreshed ticket stands where the ticket of the task stood.
      have hf : ∀ t ∈ queue.tickets,
          SameTicket (replaceBy (refreshTicket task current) t) t := by
        intro t ht
        unfold replaceBy
        split
        · rename_i hid
          have heq : t = e₀ := hwf.eq_of_ticketId ht he₀ (hid.trans hsame₀.ticketId.symm)
          rw [heq]
          exact ⟨hsame₀.ticketId.symm, hsame₀.taskId.symm, hsame₀.sequence.symm⟩
        · exact SameTicket.refl t
      have hcovers' : Covers byTaskId
          { queue with tickets := queue.tickets.map (replaceBy (refreshTicket task current)) } := by
        constructor
        · intro taskId t ht
          obtain ⟨htaskId, e, he, hsame⟩ := hcovers.known taskId t ht
          exact ⟨htaskId, _, List.mem_map_of_mem he, (hf e he).trans hsame⟩
        · intro taskId hnone e he
          obtain ⟨u, hu, rfl⟩ := List.mem_map.mp he
          rw [(hf u hu).taskId]
          exact hcovers.unknown taskId hnone u hu
      obtain ⟨hwf'', hkept, hassigned⟩ := ih (wf_map hwf hf) hcovers'
      refine ⟨hwf'', ?_, ?_⟩
      · intro e he
        obtain ⟨e', he', hsame, heq⟩ := hkept _ (List.mem_map_of_mem he)
        refine ⟨e', he', hsame.trans (hf e he), ?_⟩
        intro hother
        have hid : e.ticketId ≠ (refreshTicket task current).ticketId := by
          intro hid
          have : e = e₀ := hwf.eq_of_ticketId he he₀ (hid.trans hsame₀.ticketId.symm)
          refine hother task List.mem_cons_self ?_
          rw [this, hsame₀.taskId, htask]
        rw [replaceBy, if_neg hid] at heq
        exact heq fun t ht => hother t (List.mem_cons_of_mem _ ht)
      · intro t ht
        rcases List.mem_cons.mp ht with rfl | ht
        · obtain ⟨e', he', hsame, -⟩ := hkept _ (List.mem_map_of_mem he₀)
          exact ⟨e', he', (hsame.trans (hf e₀ he₀)).taskId.trans (hsame₀.taskId.trans htask)⟩
        · exact hassigned t ht
    | none =>
      dsimp only
      have hnew := hcovers.unknown _ hlookup
      have hwf' := wf_newTicket hwf task now hnew
      have hcovers' : Covers (Function.update byTaskId task.taskId
            (some (newTicket task queue.nextSequence now)))
          { nextSequence := queue.nextSequence + 1
            tickets := queue.tickets ++ [newTicket task queue.nextSequence now] } := by
        constructor
        · intro taskId t ht
          by_cases heq : taskId = task.taskId
          · subst heq
            rw [Function.update_self] at ht
            obtain rfl := Option.some.inj ht
            exact ⟨rfl, _, List.mem_append_right _ (List.mem_singleton.mpr rfl),
              SameTicket.refl _⟩
          · rw [Function.update_of_ne heq] at ht
            obtain ⟨htaskId, e, he, hsame⟩ := hcovers.known taskId t ht
            exact ⟨htaskId, e, List.mem_append_left _ he, hsame⟩
        · intro taskId hnone e he
          have heq : taskId ≠ task.taskId := by
            rintro rfl
            rw [Function.update_self] at hnone
            cases hnone
          rw [Function.update_of_ne heq] at hnone
          rcases List.mem_append.mp he with he | he
          · exact hcovers.unknown taskId hnone e he
          · obtain rfl := List.mem_singleton.mp he
            exact Ne.symm heq
      obtain ⟨hwf'', hkept, hassigned⟩ := ih hwf' hcovers'
      refine ⟨hwf'', ?_, ?_⟩
      · intro e he
        obtain ⟨e', he', hsame, heq⟩ := hkept e (List.mem_append_left _ he)
        exact ⟨e', he', hsame, fun hother => heq fun t ht => hother t (List.mem_cons_of_mem _ ht)⟩
      · intro t ht
        rcases List.mem_cons.mp ht with rfl | ht
        · obtain ⟨e', he', hsame, -⟩ :=
            hkept _ (List.mem_append_right _ (List.mem_singleton.mpr rfl))
          exact ⟨e', he', hsame.taskId⟩
        · exact hassigned t ht

/-- `assignTickets` keeps the invariant and the old tickets, and gives each listed task a
ticket. -/
theorem assignTickets_spec {queue : HubLandingQueueState} (hwf : queue.Wf)
    (tasks : List HubLandingQueueTaskInput) (now : Timestamp) :
    Assigned tasks queue (assignTickets queue tasks now) :=
  assignLoop_spec now tasks hwf (covers_byTaskId queue)

end ArchLoop
