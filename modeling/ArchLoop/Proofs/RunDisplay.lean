import ArchLoop.RunDisplay
import Mathlib.Data.Finset.Max

/-!
# `ArchLoop.Proofs.RunDisplay`: events that come late or twice

A display should show the same in the end, in whatever order the events of a run arrive and however
often (`ShowsTheSame`). The newest event about a task, a batch or the run wins in every order, and
most of what is shown comes from this event alone. Three things do not: a batch takes over the
titles of its tasks and, when it starts, its selection from what was shown before, and a task that
failed takes the path of its log from the directory of the run.

`showsTheSame_iff` is the exact condition: what the newest event does not say itself, no other event
of the run says.
-/

set_option autoImplicit false

namespace ArchLoop.RunDisplay

/-! ### Statement -/

/-- What the display shows of the run, its batches and its tasks. -/
structure SameDisplay (s t : HubRunDisplayState) : Prop where
  status : s.status = t.status
  batches : s.batches = t.batches
  tasks : s.tasks = t.tasks

structure InOrder (events : List HubRunEvent) : Prop where
  sorted : events.Pairwise fun event later => event.sequence < later.sequence
  ids : (events.map (·.eventId)).Nodup

section
variable (join : List String → String)

def replay (hubProjectName flowId : String) (events : List HubRunEvent) : HubRunDisplayState :=
  events.foldl (reduceHubRunDisplayState join) (createHubRunDisplayState hubProjectName flowId)

/-- The same events in any order, each of them any number of times, look like the events in their
order. -/
def ShowsTheSame (hubProjectName flowId : String) (events : List HubRunEvent) : Prop :=
  ∀ arrival : List HubRunEvent, (∀ event, event ∈ arrival ↔ event ∈ events) →
    SameDisplay (replay join hubProjectName flowId arrival)
      (replay join hubProjectName flowId events)

end

def HubBatchEvent.titles : HubBatchEvent → Option TaskTitles
  | .batchPlanned _ tasks => tasks
  | _ => none

def HubBatchEvent.selected : HubBatchEvent → Option (List String)
  | .batchStarted => none
  | .batchPlanned taskIds _ => some taskIds
  | .batchMergeSelection selectedTaskIds => some selectedTaskIds
  | .batchMergeStarted taskIds => some taskIds
  | .batchMergeCompleted taskIds _ => some taskIds

/-- The event has a detail, and does not say where its log is. -/
structure NeedsRunDir (event : HubTaskEvent) : Prop where
  detail : isBlockedEvent event ∨ isFailedEvent event
  path : event.diagnosticsPath = none
  logPath : event.diagnosticsLogPath = none

structure NewestOfBatch (events : List HubRunEvent) (batchId : String) (last : HubRunEvent)
    (change : HubBatchEvent) : Prop where
  mem : last ∈ events
  data : last.data = .batch batchId change
  newest : ∀ event ∈ events, ∀ other, event.data = .batch batchId other →
    event.sequence ≤ last.sequence

structure NewestOfTask (events : List HubRunEvent) (last : HubRunEvent) (change : HubTaskEvent) :
    Prop where
  mem : last ∈ events
  data : last.data = .task change
  newest : ∀ event ∈ events, ∀ other, event.data = .task other → other.taskId = change.taskId →
    event.sequence ≤ last.sequence

/-- What the newest events do not say themselves, no other event says. -/
structure SaysItAll (events : List HubRunEvent) : Prop where
  titles : ∀ batchId last change, NewestOfBatch events batchId last change →
    change.titles = none → ∀ event ∈ events, ∀ other, event.data = .batch batchId other →
      other.titles = none
  selection : ∀ batchId last change, NewestOfBatch events batchId last change →
    change.selected = none → ∀ event ∈ events, ∀ other, event.data = .batch batchId other →
      other.selected.getD [] = []
  paths : ∀ last change, NewestOfTask events last change → NeedsRunDir change →
    ∀ event ∈ events, ∀ runId hubProjectDir, event.data ≠ .runStarted runId hubProjectDir

/-! ### One event -/

section
variable {join : List String → String}

theorem reduceBatchEvent_selectedTaskIds (current : Option DisplayBatch) (batchId : String)
    (change : HubBatchEvent) :
    (reduceBatchEvent current batchId change).selectedTaskIds =
      change.selected.getD ((current.map (·.selectedTaskIds)).getD []) := by
  cases change <;> rfl

theorem reduceBatchEvent_taskTitles (current : Option DisplayBatch) (batchId : String)
    (change : HubBatchEvent) :
    (reduceBatchEvent current batchId change).taskTitles =
      change.titles.or (current.bind (·.taskTitles)) := by
  cases change <;> rfl

theorem reduceBatchEvent_congr {current other : Option DisplayBatch} {batchId : String}
    {change : HubBatchEvent}
    (hselected : change.selected.getD ((current.map (·.selectedTaskIds)).getD []) =
      change.selected.getD ((other.map (·.selectedTaskIds)).getD []))
    (htitles : change.titles.or (current.bind (·.taskTitles)) =
      change.titles.or (other.bind (·.taskTitles))) :
    reduceBatchEvent current batchId change = reduceBatchEvent other batchId change := by
  cases change <;> simp_all [reduceBatchEvent, HubBatchEvent.selected, HubBatchEvent.titles]

theorem reduce_of_seen {s : HubRunDisplayState} {event : HubRunEvent}
    (h : event.eventId ∈ s.seenEventIds) : reduceHubRunDisplayState join s event = s :=
  if_pos h

theorem reduce_of_newer {s : HubRunDisplayState} {event : HubRunEvent}
    (hseen : event.eventId ∉ s.seenEventIds)
    (hnewer : ∀ n, currentSequence s event.data = some n → n < event.sequence) :
    reduceHubRunDisplayState join s event =
      applyEvent join { s with seenEventIds := event.eventId :: s.seenEventIds } event.sequence
        event.data := by
  have hguard : (currentSequence s event.data).any (event.sequence ≤ ·) = false := by
    cases hcurrent : currentSequence s event.data with
    | none => rfl
    | some n => simpa using hnewer n hcurrent
  unfold reduceHubRunDisplayState
  rw [if_neg hseen, if_neg (by simp [hguard])]

variable (join) in
theorem reduce_of_stale {s : HubRunDisplayState} {event : HubRunEvent} {n : Nat}
    (hcurrent : currentSequence s event.data = some n) (hstale : event.sequence ≤ n) :
    reduceHubRunDisplayState join s event = s ∨
      reduceHubRunDisplayState join s event =
        { s with seenEventIds := event.eventId :: s.seenEventIds } := by
  unfold reduceHubRunDisplayState
  by_cases hseen : event.eventId ∈ s.seenEventIds
  · exact .inl (if_pos hseen)
  · refine .inr ?_
    rw [if_neg hseen, if_pos (by simpa [hcurrent] using hstale)]

variable (join) in
theorem reduce_cases (s : HubRunDisplayState) (event : HubRunEvent) :
    reduceHubRunDisplayState join s event = s ∨
      reduceHubRunDisplayState join s event =
        { s with seenEventIds := event.eventId :: s.seenEventIds } ∨
      (event.eventId ∉ s.seenEventIds ∧
        (∀ n, currentSequence s event.data = some n → n < event.sequence) ∧
        reduceHubRunDisplayState join s event =
          applyEvent join { s with seenEventIds := event.eventId :: s.seenEventIds }
            event.sequence event.data) := by
  by_cases hseen : event.eventId ∈ s.seenEventIds
  · exact .inl (reduce_of_seen hseen)
  by_cases hnewer : ∀ n, currentSequence s event.data = some n → n < event.sequence
  · exact .inr (.inr ⟨hseen, hnewer, reduce_of_newer hseen hnewer⟩)
  · obtain ⟨n, hcurrent, hle⟩ : ∃ n, currentSequence s event.data = some n ∧
        event.sequence ≤ n := by
      simpa using hnewer
    rcases reduce_of_stale join hcurrent hle with h | h
    · exact .inl h
    · exact .inr (.inl h)

end

/-! ### Registers -/

section
variable (join : List String → String)

/-- A sequence number of the state with the events that count for it. -/
structure Register where
  latest : HubRunDisplayState → Option Nat
  About : HubRunEventData → Prop
  current : ∀ s data, About data → currentSequence s data = latest s
  advances : ∀ s n data, About data → latest (applyEvent join s n data) = some n
  others : ∀ s n data, ¬ About data → latest (applyEvent join s n data) = latest s
  seen : ∀ s ids, latest { s with seenEventIds := ids } = latest s

variable {join}

/-- A property that does not depend on which events were seen. -/
def IgnoresSeen (P : HubRunDisplayState → Prop) : Prop :=
  ∀ s ids, P s → P { s with seenEventIds := ids }

/-- Before the newest event: it was not seen, and an older one was the last. -/
structure Before (register : Register join) (last : HubRunEvent) (P : HubRunDisplayState → Prop)
    (s : HubRunDisplayState) : Prop where
  unseen : last.eventId ∉ s.seenEventIds
  older : ∀ n, register.latest s = some n → n < last.sequence
  holds : P s

structure After (register : Register join) (sequence : Nat) (Q : HubRunDisplayState → Prop)
    (s : HubRunDisplayState) : Prop where
  newest : register.latest s = some sequence
  holds : Q s

variable {register : Register join} {P Q : HubRunDisplayState → Prop} {last event : HubRunEvent}
  {s : HubRunDisplayState}

theorem seenEventIds_applyEvent (s : HubRunDisplayState) (sequence : Nat)
    (data : HubRunEventData) : (applyEvent join s sequence data).seenEventIds = s.seenEventIds := by
  cases data <;> rfl

theorem notMem_seen_reduce {eventId : String} (hne : eventId ≠ event.eventId)
    (h : eventId ∉ s.seenEventIds) :
    eventId ∉ (reduceHubRunDisplayState join s event).seenEventIds := by
  rcases reduce_cases join s event with heq | heq | ⟨-, -, heq⟩ <;> rw [heq]
  · exact h
  · simp [hne, h]
  · simp [seenEventIds_applyEvent, hne, h]

theorem Before.reduce (h : Before register last P s) (hP : IgnoresSeen P)
    (hid : last.eventId ≠ event.eventId)
    (holder : register.About event.data → event.sequence < last.sequence)
    (hkeep : ∀ s, P s → P (applyEvent join s event.sequence event.data)) :
    Before register last P (reduceHubRunDisplayState join s event) := by
  refine ⟨notMem_seen_reduce hid h.unseen, ?_, ?_⟩
  · rcases reduce_cases join s event with heq | heq | ⟨-, -, heq⟩ <;> rw [heq]
    · exact h.older
    · rw [register.seen]
      exact h.older
    · by_cases habout : register.About event.data
      · rw [register.advances _ _ _ habout]
        intro n hn
        exact Option.some.inj hn ▸ holder habout
      · rw [register.others _ _ _ habout, register.seen]
        exact h.older
  · rcases reduce_cases join s event with heq | heq | ⟨-, -, heq⟩ <;> rw [heq]
    · exact h.holds
    · exact hP _ _ h.holds
    · exact hkeep _ (hP _ _ h.holds)

theorem Before.after (h : Before register last P s) (hP : IgnoresSeen P)
    (habout : register.About last.data)
    (hevent : ∀ s, P s → Q (applyEvent join s last.sequence last.data)) :
    After register last.sequence Q (reduceHubRunDisplayState join s last) := by
  have hnewer : ∀ n, currentSequence s last.data = some n → n < last.sequence := by
    rw [register.current _ _ habout]
    exact h.older
  rw [reduce_of_newer h.unseen hnewer]
  exact ⟨register.advances _ _ _ habout, hevent _ (hP _ _ h.holds)⟩

theorem After.reduce {sequence : Nat} (h : After register sequence Q s) (hQ : IgnoresSeen Q)
    (hstale : register.About event.data → event.sequence ≤ sequence)
    (hkeep : ¬ register.About event.data → ∀ s, Q s →
      Q (applyEvent join s event.sequence event.data)) :
    After register sequence Q (reduceHubRunDisplayState join s event) := by
  have hseen : After register sequence Q
      { s with seenEventIds := event.eventId :: s.seenEventIds } :=
    ⟨(register.seen s _).trans h.newest, hQ _ _ h.holds⟩
  by_cases habout : register.About event.data
  · have hcurrent := (register.current s _ habout).trans h.newest
    rcases reduce_of_stale join hcurrent (hstale habout) with heq | heq <;> rw [heq]
    · exact h
    · exact hseen
  · rcases reduce_cases join s event with heq | heq | ⟨-, -, heq⟩ <;> rw [heq]
    · exact h
    · exact hseen
    · exact ⟨(register.others _ _ _ habout).trans hseen.newest, hkeep habout _ hseen.holds⟩

theorem After.run {sequence : Nat} (h : After register sequence Q s) (hQ : IgnoresSeen Q)
    {events : List HubRunEvent}
    (hstale : ∀ event ∈ events, register.About event.data → event.sequence ≤ sequence)
    (hkeep : ∀ event ∈ events, ¬ register.About event.data → ∀ s, Q s →
      Q (applyEvent join s event.sequence event.data)) :
    After register sequence Q (events.foldl (reduceHubRunDisplayState join) s) :=
  List.foldlRecOn events _ h fun _ hs event hevent =>
    hs.reduce hQ (hstale event hevent) (hkeep event hevent)

theorem newest_decides {events : List HubRunEvent} (h : Before register last P s)
    (hP : IgnoresSeen P) (hQ : IgnoresSeen Q) (hmem : last ∈ events)
    (habout : register.About last.data)
    (hids : ∀ event ∈ events, event ≠ last → last.eventId ≠ event.eventId)
    (holder : ∀ event ∈ events, event ≠ last → register.About event.data →
      event.sequence < last.sequence)
    (hbefore : ∀ event ∈ events, event ≠ last → ∀ s, P s →
      P (applyEvent join s event.sequence event.data))
    (hevent : ∀ s, P s → Q (applyEvent join s last.sequence last.data))
    (hafter : ∀ event ∈ events, ¬ register.About event.data → ∀ s, Q s →
      Q (applyEvent join s event.sequence event.data)) :
    Q (events.foldl (reduceHubRunDisplayState join) s) := by
  have hstale : ∀ event ∈ events, register.About event.data →
      event.sequence ≤ last.sequence := by
    intro event hin habout
    by_cases heq : event = last
    · exact heq ▸ Nat.le_refl _
    · exact Nat.le_of_lt (holder event hin heq habout)
  -- the events up to the first time that the newest one comes, and those behind it
  obtain ⟨front, rest, rfl, hfront⟩ := List.eq_append_cons_of_mem hmem
  have hfirst : Before register last P (front.foldl (reduceHubRunDisplayState join) s) := by
    refine List.foldlRecOn front _ h fun s hs event hevent => ?_
    have hin := List.mem_append_left (last :: rest) hevent
    have hne : event ≠ last := ne_of_mem_of_not_mem hevent hfront
    exact hs.reduce hP (hids event hin hne) (holder event hin hne) (hbefore event hin hne)
  have hlater : After register last.sequence Q
      ((front ++ last :: rest).foldl (reduceHubRunDisplayState join) s) := by
    rw [List.foldl_append, List.foldl_cons]
    have hin : ∀ event ∈ rest, event ∈ front ++ last :: rest := fun event hevent =>
      List.mem_append_right front (List.mem_cons_of_mem last hevent)
    have hnext := hfirst.after hP habout hevent
    exact hnext.run hQ (fun event hevent => hstale event (hin event hevent))
      fun event hevent => hafter event (hin event hevent)
  exact hlater.holds

theorem holds_of_kept {events : List HubRunEvent} (h : P s) (hP : IgnoresSeen P)
    (hkeep : ∀ event ∈ events, ∀ s, P s → P (applyEvent join s event.sequence event.data)) :
    P (events.foldl (reduceHubRunDisplayState join) s) := by
  refine List.foldlRecOn events _ h fun s hs event hevent => ?_
  rcases reduce_cases join s event with heq | heq | ⟨-, -, heq⟩ <;> rw [heq]
  · exact hs
  · exact hP _ _ hs
  · exact hkeep event hevent _ (hP _ _ hs)

end

section
variable (join : List String → String)

theorem setKey_self {α : Type} (record : String → Option α) (key : String) (value : α) :
    setKey record key value key = some value :=
  if_pos rfl

theorem setKey_of_ne {α : Type} (record : String → Option α) {key other : String} (value : α)
    (h : other ≠ key) : setKey record key value other = record other :=
  if_neg h

def batchRegister (batchId : String) : Register join where
  latest s := s.batchSequences batchId
  About data := ∃ change, data = .batch batchId change
  current := by
    rintro s _ ⟨change, rfl⟩
    rfl
  advances := by
    rintro s n _ ⟨change, rfl⟩
    exact setKey_self _ _ _
  others := by
    intro s n data h
    cases data with
    | batch other change => exact setKey_of_ne _ _ fun heq => h ⟨change, heq ▸ rfl⟩
    | _ => rfl
  seen _ _ := rfl

def taskRegister (taskId : String) : Register join where
  latest s := s.taskSequences taskId
  About data := ∃ change : HubTaskEvent, data = .task change ∧ change.taskId = taskId
  current := by
    rintro s _ ⟨change, rfl, rfl⟩
    rfl
  advances := by
    rintro s n _ ⟨change, rfl, rfl⟩
    exact setKey_self _ _ _
  others := by
    intro s n data h
    cases data with
    | task change => exact setKey_of_ne _ _ fun heq => h ⟨change, rfl, heq.symm⟩
    | _ => rfl
  seen _ _ := rfl

def runStatus : HubRunEventData → Option HubRunDisplayStatus
  | .runStarted _ _ => some .running
  | .runCompleted _ _ _ stopReason => some (resolveRunCompletedDisplayStatus stopReason)
  | _ => none

def runRegister : Register join where
  latest s := s.runSequence
  About data := (runStatus data).isSome
  current := by
    intro s data h
    cases data <;> first | rfl | cases h
  advances := by
    intro s n data h
    cases data <;> first | rfl | cases h
  others := by
    intro s n data h
    cases data <;> first | rfl | exact absurd rfl h
  seen _ _ := rfl

end

/-! ### The newest event -/

theorem exists_newest {events : List HubRunEvent} {A : HubRunEvent → Prop}
    (h : ∃ event ∈ events, A event) :
    ∃ last ∈ events, A last ∧ ∀ event ∈ events, A event → event.sequence ≤ last.sequence := by
  classical
  obtain ⟨event, hmem, hA⟩ := h
  have hne : ((events.filter A).toFinset).Nonempty :=
    ⟨event, List.mem_toFinset.mpr (List.mem_filter.mpr ⟨hmem, by simpa using hA⟩)⟩
  obtain ⟨last, hlast, hmax⟩ := Finset.exists_max_image _ (·.sequence) hne
  obtain ⟨hin, hAlast⟩ := List.mem_filter.mp (List.mem_toFinset.mp hlast)
  refine ⟨last, hin, by simpa using hAlast, fun other hother hAother => ?_⟩
  exact hmax other (List.mem_toFinset.mpr (List.mem_filter.mpr ⟨hother, by simpa using hAother⟩))

section
variable {events arrival : List HubRunEvent} {last event : HubRunEvent}

theorem InOrder.sequence_ne (h : InOrder events) (hlast : last ∈ events) (hevent : event ∈ events)
    (hne : event ≠ last) : event.sequence ≠ last.sequence := by
  have hnodup : (events.map (·.sequence)).Nodup :=
    List.pairwise_map.mpr (h.sorted.imp fun hlt => Nat.ne_of_lt hlt)
  exact fun heq => hne (List.inj_on_of_nodup_map hnodup hevent hlast heq)

theorem InOrder.eventId_ne (h : InOrder events) (hlast : last ∈ events) (hevent : event ∈ events)
    (hne : event ≠ last) : last.eventId ≠ event.eventId :=
  fun heq => hne (List.inj_on_of_nodup_map h.ids hevent hlast heq.symm)

theorem InOrder.decides {join : List String → String} (register : Register join)
    (P Q : HubRunDisplayState → Prop) (h : InOrder events)
    (harrival : ∀ event, event ∈ arrival ↔ event ∈ events) (hlast : last ∈ events)
    (habout : register.About last.data)
    (hnewest : ∀ event ∈ events, register.About event.data → event.sequence ≤ last.sequence)
    {s : HubRunDisplayState} (hs : Before register last P s) (hP : IgnoresSeen P)
    (hQ : IgnoresSeen Q)
    (hbefore : ∀ event ∈ events, ∀ s, P s → P (applyEvent join s event.sequence event.data))
    (hevent : ∀ s, P s → Q (applyEvent join s last.sequence last.data))
    (hafter : ∀ event ∈ events, ¬ register.About event.data → ∀ s, Q s →
      Q (applyEvent join s event.sequence event.data)) :
    Q (arrival.foldl (reduceHubRunDisplayState join) s) := by
  refine newest_decides hs hP hQ ((harrival last).mpr hlast) habout ?_ ?_ ?_ hevent ?_
  · exact fun event hin hne => h.eventId_ne hlast ((harrival event).mp hin) hne
  · intro event hin hne hcounts
    have hmem := (harrival event).mp hin
    have hle := hnewest event hmem hcounts
    have hdistinct := h.sequence_ne hlast hmem hne
    omega
  · exact fun event hin _ => hbefore event ((harrival event).mp hin)
  · exact fun event hin => hafter event ((harrival event).mp hin)

end

/-! ### The condition is enough -/

section
variable {join : List String → String} {events : List HubRunEvent} {hubProjectName flowId : String}

theorem before_create (register : Register join) (last : HubRunEvent)
    {P : HubRunDisplayState → Prop} (hP : P (createHubRunDisplayState hubProjectName flowId))
    (hlatest : register.latest (createHubRunDisplayState hubProjectName flowId) = none) :
    Before register last P (createHubRunDisplayState hubProjectName flowId) where
  unseen := List.not_mem_nil
  older n hn := by
    rw [hlatest] at hn
    cases hn
  holds := hP

def ArrivalOf (events arrival : List HubRunEvent) : Prop :=
  ∀ event, event ∈ arrival ↔ event ∈ events

theorem status_applyEvent (s : HubRunDisplayState) (n : Nat) (data : HubRunEventData) :
    (applyEvent join s n data).status = (runStatus data).getD s.status := by
  cases data <;> rfl

theorem exists_status (h : InOrder events) : ∃ status, ∀ arrival, ArrivalOf events arrival →
    (replay join hubProjectName flowId arrival).status = status := by
  by_cases hany : ∃ event ∈ events, (runStatus event.data).isSome
  · obtain ⟨last, hlast, habout, hnewest⟩ := exists_newest hany
    obtain ⟨status, hstatus⟩ := Option.isSome_iff_exists.mp habout
    refine ⟨status, fun arrival harrival => ?_⟩
    refine h.decides (runRegister join) (fun _ => True) (fun s => s.status = status) harrival hlast
      habout hnewest (before_create _ last trivial rfl) (fun _ _ _ => trivial) (fun _ _ hs => hs)
      (fun _ _ _ _ => trivial) (fun s _ => ?_) (fun event _ hother s hs => ?_)
    · rw [status_applyEvent, hstatus]
      rfl
    · have hnone : runStatus event.data = none := Option.not_isSome_iff_eq_none.mp hother
      rw [status_applyEvent, hnone]
      exact hs
  · refine ⟨.starting, fun arrival harrival => ?_⟩
    refine @holds_of_kept join (fun s => s.status = .starting) _ _ rfl (fun _ _ hs => hs)
      fun event hevent s hs => ?_
    have hother : runStatus event.data = none :=
      Option.not_isSome_iff_eq_none.mp fun hsome => hany ⟨event, (harrival event).mp hevent, hsome⟩
    rw [status_applyEvent, hother]
    exact hs

theorem batches_applyEvent_of_not (s : HubRunDisplayState) (n : Nat) {batchId : String}
    {data : HubRunEventData} (h : ∀ change, data ≠ .batch batchId change) :
    (applyEvent join s n data).batches batchId = s.batches batchId := by
  cases data with
  | batch other change => exact setKey_of_ne _ _ fun heq => h change (heq ▸ rfl)
  | _ => rfl

theorem batches_applyEvent_batch (s : HubRunDisplayState) (n : Nat) (batchId : String)
    (change : HubBatchEvent) :
    (applyEvent join s n (.batch batchId change)).batches batchId =
      some (reduceBatchEvent (s.batches batchId) batchId change) :=
  setKey_self _ _ _

/-- What is shown of a batch has nothing that the newest event would take over. -/
structure NothingToTake (change : HubBatchEvent) (shown : Option DisplayBatch) : Prop where
  titles : change.titles = none → shown.bind (·.taskTitles) = none
  selection : change.selected = none → (shown.map (·.selectedTaskIds)).getD [] = []

theorem exists_batch (h : InOrder events) (hsaid : SaysItAll events) (batchId : String) :
    ∃ batch, ∀ arrival, ArrivalOf events arrival →
      (replay join hubProjectName flowId arrival).batches batchId = batch := by
  by_cases hany : ∃ event ∈ events, ∃ change, event.data = .batch batchId change
  · obtain ⟨last, hlast, ⟨change, hdata⟩, hnewest⟩ := exists_newest hany
    have hnewestOf : NewestOfBatch events batchId last change :=
      ⟨hlast, hdata, fun event hevent other hother => hnewest event hevent ⟨other, hother⟩⟩
    refine ⟨some (reduceBatchEvent none batchId change), fun arrival harrival => ?_⟩
    refine h.decides (batchRegister join batchId)
      (fun s => NothingToTake change (s.batches batchId))
      (fun s => s.batches batchId = some (reduceBatchEvent none batchId change)) harrival hlast
      ⟨change, hdata⟩ hnewest (before_create _ last ⟨fun _ => rfl, fun _ => rfl⟩ rfl)
      (fun _ _ hs => hs) (fun _ _ hs => hs) (fun event hevent s hs => ?_) (fun s hs => ?_)
      (fun event _ hother s hs => ?_)
    · -- an older event has no titles and no selection either
      by_cases habout : ∃ other, event.data = .batch batchId other
      · obtain ⟨other, hother⟩ := habout
        rw [hother, batches_applyEvent_batch]
        refine ⟨fun htitles => ?_, fun hselected => ?_⟩
        · have hnone := hsaid.titles batchId last change hnewestOf htitles event hevent other hother
          rw [Option.bind_some, reduceBatchEvent_taskTitles, hnone, hs.titles htitles]
          rfl
        · have hnone :=
            hsaid.selection batchId last change hnewestOf hselected event hevent other hother
          rw [Option.map_some, Option.getD_some, reduceBatchEvent_selectedTaskIds,
            hs.selection hselected]
          exact hnone
      · rw [batches_applyEvent_of_not _ _ (by simpa using habout)]
        exact hs
    · rw [hdata, batches_applyEvent_batch]
      refine congrArg some (reduceBatchEvent_congr ?_ ?_)
      · cases hselected : change.selected with
        | none => exact hs.selection hselected
        | some taskIds => rfl
      · cases htitles : change.titles with
        | none => simpa using hs.titles htitles
        | some titles => rfl
    · rw [batches_applyEvent_of_not _ _ fun other heq => hother ⟨other, heq⟩]
      exact hs
  · refine ⟨none, fun arrival harrival => ?_⟩
    refine @holds_of_kept join (fun s => s.batches batchId = none) _ _ rfl (fun _ _ hs => hs)
      fun event hevent s hs => ?_
    rw [batches_applyEvent_of_not _ _ fun change heq =>
      hany ⟨event, (harrival event).mp hevent, change, heq⟩]
    exact hs

theorem tasks_applyEvent_of_not (s : HubRunDisplayState) (n : Nat) {taskId : String}
    {data : HubRunEventData}
    (h : ¬ ∃ change : HubTaskEvent, data = .task change ∧ change.taskId = taskId) :
    (applyEvent join s n data).tasks taskId = s.tasks taskId := by
  cases data with
  | task change => exact setKey_of_ne _ _ fun heq => h ⟨change, rfl, heq.symm⟩
  | _ => rfl

theorem tasks_applyEvent_task (s : HubRunDisplayState) (n : Nat) (change : HubTaskEvent) :
    (applyEvent join s n (.task change)).tasks change.taskId =
      some (displayTask join s.runDir change) :=
  setKey_self _ _ _

theorem runDir_applyEvent_of_not (s : HubRunDisplayState) (n : Nat) {data : HubRunEventData}
    (h : ∀ runId hubProjectDir, data ≠ .runStarted runId hubProjectDir) :
    (applyEvent join s n data).runDir = s.runDir := by
  cases data with
  | runStarted runId hubProjectDir => exact absurd rfl (h runId hubProjectDir)
  | _ => rfl

theorem displayTask_of_not_needsRunDir {change : HubTaskEvent} (h : ¬ NeedsRunDir change)
    (runDir : Option String) : displayTask join runDir change = displayTask join none change := by
  have hdetail : projectEventTaskDetail join runDir change =
      projectEventTaskDetail join none change := by
    unfold projectEventTaskDetail
    by_cases hnone : !isBlockedEvent change && !isFailedEvent change
    · rw [if_pos hnone, if_pos hnone]
    · rw [if_neg hnone, if_neg hnone]
      have hpath : taskLogPath join runDir change = taskLogPath join none change := by
        unfold taskLogPath
        cases hexplicit : change.diagnosticsPath.or change.diagnosticsLogPath with
        | some path => rfl
        | none =>
          obtain ⟨hpath, hlogPath⟩ := Option.or_eq_none_iff.mp hexplicit
          exact absurd ⟨by simpa [or_iff_not_imp_left] using hnone, hpath, hlogPath⟩ h
      rw [hpath]
  unfold displayTask
  rw [hdetail]

theorem exists_task (h : InOrder events) (hsaid : SaysItAll events) (taskId : String) :
    ∃ task, ∀ arrival, ArrivalOf events arrival →
      (replay join hubProjectName flowId arrival).tasks taskId = task := by
  by_cases hany : ∃ event ∈ events, ∃ change : HubTaskEvent,
      event.data = .task change ∧ change.taskId = taskId
  · obtain ⟨last, hlast, ⟨change, hdata, rfl⟩, hnewest⟩ := exists_newest hany
    have hnewestOf : NewestOfTask events last change :=
      ⟨hlast, hdata, fun event hevent other hother hsame =>
        hnewest event hevent ⟨other, hother, hsame⟩⟩
    refine ⟨some (displayTask join none change), fun arrival harrival => ?_⟩
    refine h.decides (taskRegister join change.taskId)
      (fun s => NeedsRunDir change → s.runDir = none)
      (fun s => s.tasks change.taskId = some (displayTask join none change)) harrival hlast
      ⟨change, hdata, rfl⟩ hnewest (before_create _ last (fun _ => rfl) rfl)
      (fun _ _ hs => hs) (fun _ _ hs => hs) (fun event hevent s hs hneeds => ?_) (fun s hs => ?_)
      (fun event _ hother s hs => ?_)
    · rw [runDir_applyEvent_of_not _ _ (hsaid.paths last change hnewestOf hneeds event hevent)]
      exact hs hneeds
    · rw [hdata, tasks_applyEvent_task]
      by_cases hneeds : NeedsRunDir change
      · rw [hs hneeds]
      · rw [displayTask_of_not_needsRunDir hneeds]
    · rw [tasks_applyEvent_of_not _ _ hother]
      exact hs
  · refine ⟨none, fun arrival harrival => ?_⟩
    refine @holds_of_kept join (fun s => s.tasks taskId = none) _ _ rfl (fun _ _ hs => hs)
      fun event hevent s hs => ?_
    rw [tasks_applyEvent_of_not _ _ fun ⟨change, heq, hsame⟩ =>
      hany ⟨event, (harrival event).mp hevent, change, heq, hsame⟩]
    exact hs

theorem showsTheSame_of_saysItAll (h : InOrder events) (hsaid : SaysItAll events) :
    ShowsTheSame join hubProjectName flowId events := by
  intro arrival harrival
  refine ⟨?_, funext fun batchId => ?_, funext fun taskId => ?_⟩
  · obtain ⟨status, hstatus⟩ := exists_status h
    rw [hstatus arrival harrival, hstatus events fun _ => Iff.rfl]
  · obtain ⟨batch, hbatch⟩ := exists_batch h hsaid batchId
    rw [hbatch arrival harrival, hbatch events fun _ => Iff.rfl]
  · obtain ⟨task, htask⟩ := exists_task h hsaid taskId
    rw [htask arrival harrival, htask events fun _ => Iff.rfl]

end

/-! ### The condition is necessary -/

section
variable {join : List String → String} {events : List HubRunEvent} {hubProjectName flowId : String}
  {last event : HubRunEvent}

theorem reduce_create (event : HubRunEvent) :
    reduceHubRunDisplayState join (createHubRunDisplayState hubProjectName flowId) event =
      applyEvent join { createHubRunDisplayState hubProjectName flowId with
        seenEventIds := [event.eventId] } event.sequence event.data := by
  refine reduce_of_newer List.not_mem_nil fun n hn => ?_
  have hnone :
      currentSequence (createHubRunDisplayState hubProjectName flowId) event.data = none := by
    cases event.data <;> rfl
  rw [hnone] at hn
  cases hn

theorem arrivalOf_cons {arrival : List HubRunEvent} (harrival : ArrivalOf events arrival)
    (hevent : event ∈ events) : ArrivalOf events (event :: arrival) := by
  intro other
  rw [List.mem_cons, harrival other]
  constructor
  · rintro (rfl | hother)
    · exact hevent
    · exact hother
  · exact .inr

theorem batch_of_newest {batchId : String} {change : HubBatchEvent} {shown : Option DisplayBatch}
    {s : HubRunDisplayState} (hnewest : NewestOfBatch events batchId last change)
    (hs : Before (batchRegister join batchId) last (fun s => s.batches batchId = shown) s) :
    ((last :: events).foldl (reduceHubRunDisplayState join) s).batches batchId =
      some (reduceBatchEvent shown batchId change) := by
  have hafter := hs.after (Q := fun s =>
    s.batches batchId = some (reduceBatchEvent shown batchId change)) (fun _ _ hs => hs)
    ⟨change, hnewest.data⟩ fun s hs => by
      rw [hnewest.data, batches_applyEvent_batch, hs]
  refine (hafter.run (fun _ _ hs => hs) (fun event hevent habout => ?_)
    fun event _ hother s hs => ?_).holds
  · obtain ⟨other, hother⟩ := habout
    exact hnewest.newest event hevent other hother
  · rw [batches_applyEvent_of_not _ _ fun other heq => hother ⟨other, heq⟩]
    exact hs

theorem batch_of_showsTheSame (h : InOrder events)
    (hshows : ShowsTheSame join hubProjectName flowId events) {batchId : String}
    {change other : HubBatchEvent} (hnewest : NewestOfBatch events batchId last change)
    (hevent : event ∈ events) (hdata : event.data = .batch batchId other) (hne : event ≠ last) :
    reduceBatchEvent none batchId change =
      reduceBatchEvent (some (reduceBatchEvent none batchId other)) batchId change := by
  have hall : ArrivalOf events (last :: events) := arrivalOf_cons (fun _ => Iff.rfl) hnewest.mem
  have hfirst : (replay join hubProjectName flowId (last :: events)).batches batchId =
      some (reduceBatchEvent none batchId change) :=
    batch_of_newest hnewest (before_create _ last rfl rfl)
  have hsecond : (replay join hubProjectName flowId (event :: last :: events)).batches batchId =
      some (reduceBatchEvent (some (reduceBatchEvent none batchId other)) batchId change) := by
    show ((last :: events).foldl (reduceHubRunDisplayState join) (reduceHubRunDisplayState join
      (createHubRunDisplayState hubProjectName flowId) event)).batches batchId = _
    rw [reduce_create, hdata]
    refine batch_of_newest hnewest ⟨?_, fun n hn => ?_, ?_⟩
    · simpa [applyEvent] using h.eventId_ne hnewest.mem hevent hne
    · have hsequence : event.sequence = n := by
        simpa [batchRegister, applyEvent, setKey] using hn
      have hle := hnewest.newest event hevent other hdata
      have hdistinct := h.sequence_ne hnewest.mem hevent hne
      omega
    · exact batches_applyEvent_batch _ _ _ _
  have hsame := (hshows _ hall).batches.trans
    (hshows _ (arrivalOf_cons hall hevent)).batches.symm
  exact Option.some.inj (hfirst.symm.trans ((congrFun hsame batchId).trans hsecond))

theorem task_of_newest {change : HubTaskEvent} {runDir : Option String}
    {s : HubRunDisplayState} (hnewest : NewestOfTask events last change)
    (hs : Before (taskRegister join change.taskId) last (fun s => s.runDir = runDir) s) :
    ((last :: events).foldl (reduceHubRunDisplayState join) s).tasks change.taskId =
      some (displayTask join runDir change) := by
  have hafter := hs.after (Q := fun s =>
    s.tasks change.taskId = some (displayTask join runDir change)) (fun _ _ hs => hs)
    ⟨change, hnewest.data, rfl⟩ fun s hs => by
      rw [hnewest.data, tasks_applyEvent_task, hs]
  refine (hafter.run (fun _ _ hs => hs) (fun event hevent habout => ?_)
    fun event _ hother s hs => ?_).holds
  · obtain ⟨other, hother, hsame⟩ := habout
    exact hnewest.newest event hevent other hother hsame
  · rw [tasks_applyEvent_of_not _ _ hother]
    exact hs

theorem displayTask_ne (hjoin : ∀ parts, join parts ≠ "") {change : HubTaskEvent}
    (hneeds : NeedsRunDir change) {dir : String} (hdir : dir ≠ "") :
    displayTask join none change ≠ displayTask join (some dir) change := by
  have hexplicit : change.diagnosticsPath.or change.diagnosticsLogPath = none := by
    rw [hneeds.path, hneeds.logPath]
    rfl
  have hwithout : taskLogPath join none change = none := by
    simp [taskLogPath, hexplicit, nonEmpty]
  have hwith : (taskLogPath join (some dir) change).isSome := by
    simp only [taskLogPath, hexplicit, nonEmpty, Option.filter, hdir, ne_eq, not_false_eq_true,
      decide_true, if_true, Option.map_some, Option.none_or]
    split <;> simp [hjoin, hdir]
  have hdetail : ¬ (!isBlockedEvent change && !isFailedEvent change) = true := by
    simpa [or_iff_not_imp_left] using hneeds.detail
  intro heq
  have hpaths := congrArg (fun task => task.detail.bind (·.logPath)) heq
  simp only [displayTask, projectEventTaskDetail, if_neg hdetail, Option.bind_some] at hpaths
  rw [← hpaths, hwithout] at hwith
  cases hwith

theorem saysItAll_of_showsTheSame (hjoin : ∀ parts, join parts ≠ "") (h : InOrder events)
    (hshows : ShowsTheSame join hubProjectName flowId events) : SaysItAll events where
  titles := by
    intro batchId last change hnewest htitles event hevent other hdata
    by_cases heq : event = last
    · subst heq
      have hsame := hnewest.data.symm.trans hdata
      rw [HubRunEventData.batch.injEq] at hsame
      exact hsame.2 ▸ htitles
    · have hbatch := batch_of_showsTheSame h hshows hnewest hevent hdata heq
      have htaken := congrArg (·.taskTitles) hbatch
      simpa [reduceBatchEvent_taskTitles, htitles] using htaken.symm
  selection := by
    intro batchId last change hnewest hselected event hevent other hdata
    by_cases heq : event = last
    · subst heq
      have hsame := hnewest.data.symm.trans hdata
      rw [HubRunEventData.batch.injEq] at hsame
      rw [← hsame.2, hselected]
      rfl
    · have hbatch := batch_of_showsTheSame h hshows hnewest hevent hdata heq
      have htaken := congrArg (·.selectedTaskIds) hbatch
      simpa [reduceBatchEvent_selectedTaskIds, hselected] using htaken.symm
  paths := by
    intro last change hnewest hneeds event hevent runId hubProjectDir hdata
    have hne : event ≠ last := by
      intro heq
      rw [heq, hnewest.data] at hdata
      cases hdata
    have hall : ArrivalOf events (last :: events) := arrivalOf_cons (fun _ => Iff.rfl) hnewest.mem
    have hfirst : (replay join hubProjectName flowId (last :: events)).tasks change.taskId =
        some (displayTask join none change) :=
      task_of_newest hnewest (before_create _ last rfl rfl)
    -- the run starts before the event arrives
    have hsecond : (replay join hubProjectName flowId (event :: last :: events)).tasks
        change.taskId = some (displayTask join (some (join [hubProjectDir, "runs", runId]))
          change) := by
      show ((last :: events).foldl (reduceHubRunDisplayState join) (reduceHubRunDisplayState join
        (createHubRunDisplayState hubProjectName flowId) event)).tasks change.taskId = _
      rw [reduce_create, hdata]
      refine task_of_newest hnewest ⟨?_, fun n hn => ?_, ?_⟩
      · simpa [applyEvent] using h.eventId_ne hnewest.mem hevent hne
      · cases hn
      · rfl
    have hsame := (hshows _ hall).tasks.trans
      (hshows _ (arrivalOf_cons hall hevent)).tasks.symm
    have htask := Option.some.inj
      (hfirst.symm.trans ((congrFun hsame change.taskId).trans hsecond))
    exact displayTask_ne hjoin hneeds (hjoin _) htask

/-- The display shows the same in every order just when the newest events say it all themselves. -/
theorem showsTheSame_iff (hjoin : ∀ parts, join parts ≠ "") (h : InOrder events)
    (hubProjectName flowId : String) :
    ShowsTheSame join hubProjectName flowId events ↔ SaysItAll events :=
  ⟨saysItAll_of_showsTheSame hjoin h, showsTheSame_of_saysItAll h⟩

end

/-! ### Two runs -/

def pathJoin (parts : List String) : String :=
  if "/".intercalate parts = "" then "." else "/".intercalate parts

theorem pathJoin_ne (parts : List String) : pathJoin parts ≠ "" := by
  unfold pathJoin
  split
  · decide
  · assumption

def doneTask : HubTaskEvent where
  type := .taskStatusAdvanced
  batchId := "b"
  taskId := "t"
  status := "done"

def quietRun : List HubRunEvent :=
  [{ eventId := "r:1", sequence := 1, data := .runStarted "r" "/hub" },
    { eventId := "r:2", sequence := 2, data := .batch "b" .batchStarted },
    { eventId := "r:3", sequence := 3, data := .task doneTask }]

/-- A batch with titles, which the merge does not repeat. -/
def plannedRun : List HubRunEvent :=
  [{ eventId := "r:1"
     sequence := 1
     data := .batch "b" (.batchPlanned ["t"] (some [("t", "T")])) },
    { eventId := "r:2", sequence := 2, data := .batch "b" (.batchMergeStarted ["t"]) }]

theorem quietRun_shows_same : ShowsTheSame pathJoin "Demo" "with-review" quietRun := by
  refine (showsTheSame_iff pathJoin_ne ⟨by decide, by decide⟩ "Demo" "with-review").mpr ⟨?_, ?_, ?_⟩
  · intro batchId last change _ _ event hevent other hdata
    simp only [quietRun, List.mem_cons, List.not_mem_nil, or_false] at hevent
    rcases hevent with rfl | rfl | rfl <;> cases hdata
    rfl
  · intro batchId last change _ _ event hevent other hdata
    simp only [quietRun, List.mem_cons, List.not_mem_nil, or_false] at hevent
    rcases hevent with rfl | rfl | rfl <;> cases hdata
    rfl
  · intro last change hnewest hneeds
    have hlast := hnewest.mem
    have hdata := hnewest.data
    simp only [quietRun, List.mem_cons, List.not_mem_nil, or_false] at hlast
    rcases hlast with rfl | rfl | rfl <;> cases hdata
    exact absurd hneeds.detail (by decide)

/-- When the plan comes after the merge, the titles are lost. -/
theorem plannedRun_loses_titles : ¬ ShowsTheSame pathJoin "Demo" "with-review" plannedRun := by
  intro hshows
  have hbatches := (hshows plannedRun.reverse fun _ => List.mem_reverse).batches
  exact absurd (congrFun hbatches "b") (by decide)

end ArchLoop.RunDisplay
