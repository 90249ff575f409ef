import ArchLoop.RunEventFiles
import Mathlib.Data.List.Pairwise

/-!
# `ArchLoop.Proofs.RunEventFiles`: when the events of a run are complete and numbered

`readPersistedHubRunEventSequence` never misses a number that can be read
(`sequence_le_persisted`), so an event that is numbered from it and written before anything else
is gets a number above all others. The invariant `Inv` of a run whose appends do not overlap says
so for the one process that is in an append. `runEvents_logged` carries it along the steps.
-/

set_option autoImplicit false

namespace ArchLoop.RunEventFiles

open ArchLoop.Lib ArchLoop.Lib.JsonText

/-! ### Numbers -/

def Sequence.ofNat (n : Nat) : Sequence := ((n : ℚ) : WithTop ℚ)

theorem Sequence.ofNat_lt {n m : Nat} : Sequence.ofNat n < Sequence.ofNat m ↔ n < m := by
  unfold Sequence.ofNat
  rw [WithTop.coe_lt_coe, Nat.cast_lt]

theorem Sequence.next_ofNat {n : Nat} (h : n + 1 < 2 ^ 53) :
    (Sequence.ofNat n).next = Sequence.ofNat (n + 1) := by
  have hsum : Double.ofRat ((n : ℚ) + 1) = some ((n + 1 : Nat) : ℚ) := by
    have hcast : (n : ℚ) + 1 = ((n + 1 : Nat) : ℚ) := by push_cast; rfl
    rw [hcast]
    exact Double.ofRat_natCast h
  show (Double.ofRat ((n : ℚ) + 1)).elim ⊤ (↑) = Sequence.ofNat (n + 1)
  rw [hsum]
  rfl

theorem Sequence.text_ofNat {n : Nat} (h : n < 2 ^ 53) :
    (Sequence.ofNat n).text = String.ofList (decimal n) := by
  show String.ofList (Double.toText n) = String.ofList (decimal n)
  rw [Double.toText_natCast h]

theorem Sequence.toJson_ofNat {n : Nat} (h : n < 2 ^ 53) :
    (Sequence.ofNat n).toJson = .ofInt n := by
  show Value.number (Double.toText n) = .ofInt n
  rw [Double.toText_natCast h]
  rfl

/-! ### Events -/

section Event

variable {event : HubRunEventData} {n : Nat}

theorem isLine_observedEvent (h : n < 2 ^ 53) :
    JsonLines.IsLine (observedEvent event (.ofNat n)) where
  members := ⟨"type", _, _, 't', "ype".toList, rfl, by decide, by decide⟩
  printable := by
    refine printableMembers_iff.mpr fun member hmember => ?_
    rw [List.mem_append, List.mem_cons, List.mem_cons] at hmember
    rcases hmember with (rfl | rfl | hfield) | hadded
    · trivial
    · trivial
    · exact printableMembers_iff.mp event.printable member hfield
    · rw [List.mem_cons, List.mem_singleton] at hadded
      rcases hadded with rfl | rfl
      · trivial
      · rw [Sequence.toJson_ofNat h]
        exact isNumber_decimal n

theorem get_sequence (sequence : Sequence) :
    (observedEvent event sequence).get "sequence" = some sequence.toJson := by
  simp [observedEvent, Value.get]

theorem sequenceOf_observedEvent (h : n < 2 ^ 53) :
    sequenceOf (observedEvent event (.ofNat n)) = some (.ofNat n) := by
  have hread : Double.ofRat (Double.decimalValue (decimal n)) = some (n : ℚ) :=
    Double.double?_ofInt h
  have hsequence : (observedEvent event (.ofNat n)).get "sequence" =
      some (.number (decimal n)) := by
    rw [get_sequence, Sequence.toJson_ofNat h]
    rfl
  simp only [sequenceOf, hsequence, hread]
  rfl

theorem eq_of_colon {a b x y : List Char} (hx : ':' ∉ x) (hy : ':' ∉ y)
    (h : a ++ ':' :: x = b ++ ':' :: y) : x = y := by
  rcases List.append_eq_append_iff.mp h with ⟨rest, -, hrest⟩ | ⟨rest, -, hrest⟩
  · cases rest with
    | nil => exact (List.cons.inj hrest).2
    | cons c rest =>
      have hmem : ':' ∈ x := by
        rw [(List.cons.inj hrest).2]
        simp
      exact absurd hmem hx
  · cases rest with
    | nil => exact (List.cons.inj hrest).2.symm
    | cons c rest =>
      have hmem : ':' ∈ y := by
        rw [(List.cons.inj hrest).2]
        simp
      exact absurd hmem hy

theorem colon_notMem_decimal (n : Nat) : ':' ∉ decimal n := by
  have hlist : decimal n = decimalDigits (n + 1) n := by
    unfold decimal
    simp
  rw [hlist]
  intro hmem
  exact absurd (mem_decimalDigits hmem).1 (by decide)

theorem eventId_inj {runId runId' : String} {m : Nat} (hn : n < 2 ^ 53) (hm : m < 2 ^ 53)
    (h : eventId runId (.ofNat n) = eventId runId' (.ofNat m)) : n = m := by
  have hlists := congrArg String.toList h
  simp only [eventId, toString, Sequence.text_ofNat hn, Sequence.text_ofNat hm,
    String.toList_append, String.toList_ofList] at hlists
  have hcolon : ":".toList = [':'] := rfl
  rw [hcolon, List.append_assoc, List.append_assoc] at hlists
  have hdigits : decimal n = decimal m :=
    eq_of_colon (colon_notMem_decimal n) (colon_notMem_decimal m) hlists
  have hvalues : (Value.ofInt n).int? = (Value.ofInt m).int? := by
    unfold Value.ofInt
    rw [hdigits]
  rw [int?_ofInt, int?_ofInt] at hvalues
  exact_mod_cast Option.some.inj hvalues

end Event

/-! ### The number to count from -/

theorem le_maximum (sequence : Sequence) (line : List Char) : sequence ≤ maximum sequence line := by
  unfold maximum
  cases (parse line).bind sequenceOf with
  | none => exact le_refl _
  | some read => exact le_max_left _ _

theorem le_foldl_maximum (lines : List (List Char)) (sequence : Sequence) :
    sequence ≤ lines.foldl maximum sequence := by
  induction lines generalizing sequence with
  | nil => exact le_refl _
  | cons line lines ih => exact (le_maximum sequence line).trans (ih _)

theorem le_foldl_of_mem {lines : List (List Char)} {line : List Char} {read : Sequence}
    (hline : line ∈ lines) (hread : (parse line).bind sequenceOf = some read)
    (sequence : Sequence) : read ≤ lines.foldl maximum sequence := by
  induction lines generalizing sequence with
  | nil => cases hline
  | cons first lines ih =>
    rcases List.mem_cons.mp hline with rfl | hrest
    · have hmax : read ≤ maximum sequence line := by
        unfold maximum
        rw [hread]
        exact le_max_right _ _
      exact hmax.trans (le_foldl_maximum lines _)
    · exact ih hrest _

theorem le_readFile (count : Count) (octets : List UInt8) :
    count.maximumSequence ≤ (count.readFile octets).maximumSequence :=
  le_foldl_maximum _ _

theorem sequence_le_readFile {octets : List UInt8} {value : Value} {sequence : Sequence}
    (hvalue : value ∈ readJsonl octets) (hsequence : sequenceOf value = some sequence)
    (count : Count) : sequence ≤ (count.readFile octets).maximumSequence := by
  obtain ⟨line, hline, hread⟩ := List.mem_filterMap.mp hvalue
  unfold JsonLines.readLine at hread
  by_cases hblank : JsonLines.isBlankLine line = true
  · rw [if_pos hblank] at hread
    cases hread
  · rw [if_neg hblank, Option.bind_fun_some] at hread
    -- A line with a value is not empty.
    have hfilled : line ∈ filledLines octets := by
      refine List.mem_filter.mpr ⟨hline, decide_eq_true ?_⟩
      rintro rfl
      exact hblank rfl
    refine le_foldl_of_mem hfilled ?_ _
    rw [hread]
    exact hsequence

theorem sequence_le_persisted {files : EventFile → List UInt8} {file : EventFile} {value : Value}
    {sequence : Sequence} (hvalue : value ∈ readJsonl (files file))
    (hsequence : sequenceOf value = some sequence) :
    sequence ≤ readPersistedHubRunEventSequence files := by
  refine le_trans ?_ (le_max_right _ _)
  have hread := fun count => sequence_le_readFile hvalue hsequence count
  show sequence ≤ (((({} : Count).readFile (files .run)).readFile (files .batch)).readFile
    (files .task)).maximumSequence
  cases file with
  | run => exact (hread _).trans ((le_readFile _ _).trans (le_readFile _ _))
  | batch => exact (hread _).trans (le_readFile _ _)
  | task => exact hread _

/-! ### Runs -/

section Runs

variable {ι : Type} [DecidableEq ι]

section Steps

variable {s : RunEventLogs ι} {process : ι} {file : EventFile} {event : HubRunEventData}

theorem step_append_busy (h : s.phase process ≠ .idle) :
    s.step (.append process file event) = s := by
  cases hphase : s.phase process with
  | idle => exact absurd hphase h
  | counting _ _ _ _ => simp only [RunEventLogs.step, hphase]
  | writing _ _ _ => simp only [RunEventLogs.step, hphase]

theorem step_append_count (h : s.phase process = .idle)
    (hcounter : s.hubRunEventSequences process = none) :
    s.step (.append process file event) =
      s.withPhase process (.counting file event EventFile.all {}) := by
  simp only [RunEventLogs.step, h, hcounter]

theorem step_append_number (h : s.phase process = .idle) {currentSequence : Sequence}
    (hcounter : s.hubRunEventSequences process = some currentSequence) :
    s.step (.append process file event) = s.number process file event currentSequence := by
  simp only [RunEventLogs.step, h, hcounter]

theorem step_proceed_idle (h : s.phase process = .idle) : s.step (.proceed process) = s := by
  simp only [RunEventLogs.step, h]

theorem step_proceed_read {next : EventFile} {left : List EventFile} {count : Count}
    (h : s.phase process = .counting file event (next :: left) count) :
    s.step (.proceed process) =
      s.withPhase process (.counting file event left (count.readFile (s.files next))) := by
  simp only [RunEventLogs.step, h]

theorem step_proceed_number {count : Count} (h : s.phase process = .counting file event [] count) :
    s.step (.proceed process) = s.number process file event count.result := by
  simp only [RunEventLogs.step, h]

theorem step_proceed_write {sequence : Sequence}
    (h : s.phase process = .writing file event sequence) :
    s.step (.proceed process) = s.write process file event sequence := by
  simp only [RunEventLogs.step, h]

theorem step_crash_writing {sequence : Sequence}
    (h : s.phase process = .writing file event sequence) (octets : Nat) :
    s.step (.crash process octets) = (s.appendOctets file
      ((JsonLines.lineOf (observedEvent event sequence)).dropLast.take octets)).restart
        process := by
  simp only [RunEventLogs.step, h]

theorem step_crash_restart
    (h : ∀ file event sequence, s.phase process ≠ .writing file event sequence)
    (octets : Nat) : s.step (.crash process octets) = s.restart process := by
  cases hphase : s.phase process with
  | idle => simp only [RunEventLogs.step, hphase]
  | counting _ _ _ _ => simp only [RunEventLogs.step, hphase]
  | writing _ _ _ => exact absurd hphase (h _ _ _)

end Steps

def RunEventLogs.currentSequence (s : RunEventLogs ι) (process : ι) : Sequence :=
  (s.hubRunEventSequences process).getD (readPersistedHubRunEventSequence s.files)

/-- The identifiers in a file are those of the numbers beside them. -/
def Named (files : EventFile → List UInt8) : Prop :=
  ∀ file, ∀ value ∈ readJsonl (files file), ∀ id, value.get "eventId" = some (.string id) →
    ∃ runId n, n < 2 ^ 53 ∧ id = eventId runId (.ofNat n) ∧ sequenceOf value = some (.ofNat n)

/-- A process may begin to append an event.

- `alone`: no other process is in an append.
- `small`: the process counts from a whole number, and can count on.
- `current`: its number is not below the one that the files give.
- `whole`: the file ends with a whole line, or whitespace behind it.
- `named`: the identifiers in the files are those of the numbers beside them. -/
structure CarefulAppend (s : RunEventLogs ι) (process : ι) (file : EventFile) : Prop where
  alone : ∀ other, s.phase other = .idle
  small : ∃ n : Nat, n + 1 < 2 ^ 53 ∧ s.currentSequence process = .ofNat n
  current : readPersistedHubRunEventSequence s.files ≤ s.currentSequence process
  whole : ∀ c ∈ JsonLines.tailOf (s.files file), isWhitespace c = true
  named : Named s.files

/-- Only the steps that begin an append meet a condition. -/
def CarefulStep (s : RunEventLogs ι) : EventStep ι → Prop
  | .append process file _ => s.phase process = .idle → CarefulAppend s process file
  | _ => True

def CarefulRun : RunEventLogs ι → List (EventStep ι) → Prop
  | _, [] => True
  | s, step :: steps => CarefulStep s step ∧ CarefulRun (s.step step) steps

/-- The events that were written.

- `readable`: every one of them can be read.
- `increasing`: each has a larger number than those before it.
- `distinct`: no two have the same identifier. -/
structure Complete (s : RunEventLogs ι) : Prop where
  readable : ∀ e ∈ s.written, observedEvent e.event e.sequence ∈ readJsonl (s.files e.file)
  increasing : s.written.Pairwise fun e later => e.sequence < later.sequence
  distinct : (s.written.map fun e => eventId e.event.runId e.sequence).Nodup

/-- The event gets a number above all that can be read, and an identifier that is not there. -/
structure Fresh (files : EventFile → List UInt8) (event : HubRunEventData)
    (sequence : Sequence) : Prop where
  above : ∀ file, ∀ value ∈ readJsonl (files file), ∀ read, sequenceOf value = some read →
    read < sequence
  unnamed : ∀ file, ∀ value ∈ readJsonl (files file),
    value.get "eventId" ≠ some (.string (eventId event.runId sequence))

def StepFresh (s : RunEventLogs ι) : EventStep ι → Prop
  | .proceed process => ∀ file event sequence, s.phase process = .writing file event sequence →
      Fresh s.files event sequence
  | _ => True

/-- The events are complete in every state of a run, and fresh when they are written. -/
def RunLogged : RunEventLogs ι → List (EventStep ι) → Prop
  | s, [] => Complete s
  | s, step :: steps => Complete s ∧ StepFresh s step ∧ RunLogged (s.step step) steps

/-! ### The process in an append -/

structure Ready (files : EventFile → List UInt8) (file : EventFile) (n : Nat) : Prop where
  small : n + 1 < 2 ^ 53
  current : readPersistedHubRunEventSequence files ≤ .ofNat n
  whole : ∀ c ∈ JsonLines.tailOf (files file), isWhitespace c = true
  named : Named files

def Fits (files : EventFile → List UInt8) : Phase → Prop
  | .idle => True
  | .counting file _ left count => ∃ n, Ready files file n ∧
      (left.foldl (fun count file => count.readFile (files file)) count).result = .ofNat n
  | .writing file _ sequence => ∃ n, Ready files file n ∧ sequence = .ofNat (n + 1)

theorem Ready.fresh {files : EventFile → List UInt8} {file : EventFile} {n : Nat}
    (h : Ready files file n) (event : HubRunEventData) : Fresh files event (.ofNat (n + 1)) := by
  have habove : ∀ file, ∀ value ∈ readJsonl (files file), ∀ read,
      sequenceOf value = some read → read < .ofNat (n + 1) := by
    intro other value hvalue read hread
    have hle : read ≤ .ofNat n := (sequence_le_persisted hvalue hread).trans h.current
    exact hle.trans_lt (Sequence.ofNat_lt.mpr (Nat.lt_succ_self n))
  refine ⟨habove, fun other value hvalue hid => ?_⟩
  obtain ⟨runId, m, hm, heq, hread⟩ := h.named other value hvalue _ hid
  -- The identifier belongs to the number beside it, which is smaller.
  have hlt := Sequence.ofNat_lt.mp (habove other value hvalue _ hread)
  have hsame := eventId_inj h.small hm heq
  omega

/-- At most one process is in an append, and it fits the files. -/
structure Inv (s : RunEventLogs ι) : Prop where
  lone : ∀ process, s.phase process ≠ .idle → ∀ other, other ≠ process → s.phase other = .idle
  fits : ∀ process, Fits s.files (s.phase process)
  small : ∀ e ∈ s.written, ∃ n, n < 2 ^ 53 ∧ e.sequence = .ofNat n
  complete : Complete s

theorem Inv.setPhase {s s' : RunEventLogs ι} (h : Inv s) {process : ι} {phase : Phase}
    (hfiles : s'.files = s.files) (hwritten : s'.written = s.written)
    (hphase : s'.phase = Function.update s.phase process phase)
    (hlone : phase = .idle ∨ ∀ other, other ≠ process → s.phase other = .idle)
    (hfits : Fits s.files phase) : Inv s' where
  lone := by
    intro p hp other hother
    rw [hphase] at hp ⊢
    by_cases heq : other = process
    · subst heq
      rw [Function.update_self]
      rw [Function.update_of_ne hother.symm] at hp
      rcases hlone with hidle | hlone
      · exact hidle
      · exact absurd (hlone p hother.symm) hp
    · rw [Function.update_of_ne heq]
      rcases hlone with hidle | hlone
      · by_cases hpp : p = process
        · rw [hpp, Function.update_self] at hp
          exact absurd hidle hp
        · rw [Function.update_of_ne hpp] at hp
          exact h.lone p hp other hother
      · exact hlone other heq
  fits := by
    intro p
    rw [hphase, hfiles]
    by_cases hp : p = process
    · rw [hp, Function.update_self]
      exact hfits
    · rw [Function.update_of_ne hp]
      exact h.fits p
  small := by
    rw [hwritten]
    exact h.small
  complete := by
    refine ⟨?_, ?_, ?_⟩
    · rw [hwritten, hfiles]
      exact h.complete.readable
    · rw [hwritten]
      exact h.complete.increasing
    · rw [hwritten]
      exact h.complete.distinct

theorem Inv.phase_idle {s : RunEventLogs ι} (h : Inv s) {process : ι}
    (hbusy : s.phase process ≠ .idle) :
    Function.update s.phase process .idle = fun _ => .idle := by
  funext other
  by_cases heq : other = process
  · rw [heq, Function.update_self]
  · rw [Function.update_of_ne heq]
    exact h.lone process hbusy other heq

theorem readJsonl_line {octets : List UInt8} {event : HubRunEventData} {n : Nat}
    (hn : n < 2 ^ 53) (hwhole : ∀ c ∈ JsonLines.tailOf octets, isWhitespace c = true) :
    readJsonl (octets ++ JsonLines.lineOf (observedEvent event (.ofNat n))) =
      readJsonl octets ++ [observedEvent event (.ofNat n)] :=
  JsonLines.read_append (isLine_observedEvent hn) hwhole

theorem readJsonl_update {files : EventFile → List UInt8} {file : EventFile} {octets : List UInt8}
    (hsubset : readJsonl (files file) ⊆ readJsonl octets) (other : EventFile) :
    readJsonl (files other) ⊆ readJsonl (Function.update files file octets other) := by
  by_cases heq : other = file
  · rw [heq, Function.update_self]
    exact hsubset
  · rw [Function.update_of_ne heq]
    exact List.Subset.refl _

theorem Inv.write {s : RunEventLogs ι} (h : Inv s) {process : ι} {file : EventFile}
    {event : HubRunEventData} {sequence : Sequence}
    (hphase : s.phase process = .writing file event sequence) :
    Inv (s.write process file event sequence) := by
  obtain ⟨n, hready, rfl⟩ : Fits s.files (.writing file event sequence) := hphase ▸ h.fits process
  have hidle : (s.write process file event (.ofNat (n + 1))).phase = fun _ => .idle :=
    h.phase_idle (by rw [hphase]; exact Phase.noConfusion)
  have hfiles : (s.write process file event (.ofNat (n + 1))).files = Function.update s.files file
      (s.files file ++ JsonLines.lineOf (observedEvent event (.ofNat (n + 1)))) := rfl
  have hwritten : (s.write process file event (.ofNat (n + 1))).written =
      s.written ++ [{ process, file, event, sequence := .ofNat (n + 1) }] := rfl
  have hline : readJsonl (s.files file ++
      JsonLines.lineOf (observedEvent event (.ofNat (n + 1)))) =
        readJsonl (s.files file) ++ [observedEvent event (.ofNat (n + 1))] :=
    readJsonl_line hready.small hready.whole
  have hsubset : readJsonl (s.files file) ⊆ readJsonl (s.files file ++
      JsonLines.lineOf (observedEvent event (.ofNat (n + 1)))) := by
    rw [hline]
    exact List.subset_append_left _ _
  have hkept := readJsonl_update hsubset
  have hfresh := hready.fresh event
  -- The events that were written before have smaller numbers, since they can be read.
  have hless : ∀ e ∈ s.written, e.sequence < .ofNat (n + 1) := by
    intro e he
    obtain ⟨m, hm, hseq⟩ := h.small e he
    have hread := h.complete.readable e he
    rw [hseq] at hread ⊢
    exact hfresh.above e.file _ hread _ (sequenceOf_observedEvent hm)
  refine ⟨?_, ?_, ?_, ?_, ?_, ?_⟩
  · intro p hp
    rw [hidle] at hp
    exact absurd rfl hp
  · intro p
    rw [hidle]
    trivial
  · intro e he
    rw [hwritten] at he
    rcases List.mem_append.mp he with hbefore | hnew
    · exact h.small e hbefore
    · rw [List.mem_singleton.mp hnew]
      exact ⟨n + 1, hready.small, rfl⟩
  · intro e he
    rw [hwritten] at he
    rw [hfiles]
    rcases List.mem_append.mp he with hbefore | hnew
    · exact hkept e.file (h.complete.readable e hbefore)
    · rw [List.mem_singleton.mp hnew]
      show _ ∈ readJsonl (Function.update s.files file _ file)
      rw [Function.update_self, hline]
      exact List.mem_append_right _ (List.mem_singleton_self _)
  · rw [hwritten]
    refine List.pairwise_append.mpr ⟨h.complete.increasing, List.pairwise_singleton _ _, ?_⟩
    intro e he later hlater
    rw [List.mem_singleton.mp hlater]
    exact hless e he
  · rw [hwritten, List.map_append, List.map_singleton, List.nodup_append]
    refine ⟨h.complete.distinct, List.pairwise_singleton _ _, ?_⟩
    intro id hid id' hid' heq
    obtain ⟨e, he, rfl⟩ := List.mem_map.mp hid
    rw [List.mem_singleton] at hid'
    obtain ⟨m, hm, hseq⟩ := h.small e he
    have hlt := hless e he
    rw [hseq] at hlt
    rw [hseq, hid'] at heq
    have hsame := eventId_inj hm hready.small heq
    have := Sequence.ofNat_lt.mp hlt
    omega

theorem Inv.crash {s : RunEventLogs ι} (h : Inv s) {process : ι} {file : EventFile}
    {event : HubRunEventData} {sequence : Sequence}
    (hphase : s.phase process = .writing file event sequence) (octets : Nat) :
    Inv ((s.appendOctets file
      ((JsonLines.lineOf (observedEvent event sequence)).dropLast.take octets)).restart
        process) := by
  obtain ⟨n, hready, rfl⟩ : Fits s.files (.writing file event sequence) := hphase ▸ h.fits process
  set line := JsonLines.lineOf (observedEvent event (.ofNat (n + 1))) with hline
  have hidle : ((s.appendOctets file (line.dropLast.take octets)).restart process).phase =
      fun _ => .idle := h.phase_idle (by rw [hphase]; exact Phase.noConfusion)
  -- The line break is not written.
  have hsplit :
      line.dropLast.take octets ++ line.drop (line.dropLast.take octets).length = line := by
    have hprefix : line.dropLast.take octets <+: line :=
      (List.take_prefix _ _).trans (List.dropLast_prefix _)
    exact List.prefix_iff_eq_append.mp hprefix
  have hne : line ≠ [] := by
    rw [hline, JsonLines.lineOf, Utf8.encode, List.flatMap_append]
    simp
  have hrest : line.drop (line.dropLast.take octets).length ≠ [] := by
    have hpos := List.length_pos_iff.mpr hne
    rw [ne_eq, List.drop_eq_nil_iff, List.length_take, List.length_dropLast]
    omega
  have hsubset : readJsonl (s.files file) ⊆
      readJsonl (s.files file ++ line.dropLast.take octets) :=
    JsonLines.subset_read_prefix (isLine_observedEvent hready.small) hsplit hrest hready.whole
  have hkept := readJsonl_update hsubset
  refine ⟨?_, ?_, h.small, ?_, h.complete.increasing, h.complete.distinct⟩
  · intro p hp
    rw [hidle] at hp
    exact absurd rfl hp
  · intro p
    rw [hidle]
    trivial
  · intro e he
    exact hkept e.file (h.complete.readable e he)

theorem Inv.step {s : RunEventLogs ι} (h : Inv s) {step : EventStep ι}
    (hcareful : CarefulStep s step) : Inv (s.step step) := by
  cases step with
  | append process file event =>
    by_cases hphase : s.phase process = .idle
    · have hcareful : CarefulAppend s process file := hcareful hphase
      obtain ⟨n, hn, hcurrent⟩ := hcareful.small
      have hready : Ready s.files file n :=
        ⟨hn, hcurrent ▸ hcareful.current, hcareful.whole, hcareful.named⟩
      have hlone : ∀ other, other ≠ process → s.phase other = .idle :=
        fun other _ => hcareful.alone other
      unfold RunEventLogs.currentSequence at hcurrent
      cases hcounter : s.hubRunEventSequences process with
      | none =>
        rw [hcounter] at hcurrent
        have hfits : Fits s.files (.counting file event EventFile.all {}) := ⟨n, hready, hcurrent⟩
        rw [step_append_count hphase hcounter]
        exact h.setPhase rfl rfl rfl (Or.inr hlone) hfits
      | some currentSequence =>
        rw [hcounter] at hcurrent
        have hvalue : currentSequence = .ofNat n := hcurrent
        have hfits : Fits s.files (.writing file event currentSequence.next) :=
          ⟨n, hready, by rw [hvalue, Sequence.next_ofNat hn]⟩
        rw [step_append_number hphase hcounter]
        exact h.setPhase rfl rfl rfl (Or.inr hlone) hfits
    · rw [step_append_busy hphase]
      exact h
  | proceed process =>
    have hphase := h.fits process
    cases hcase : s.phase process with
    | idle =>
      rw [step_proceed_idle hcase]
      exact h
    | writing file event sequence =>
      rw [step_proceed_write hcase]
      exact h.write hcase
    | counting file event left count =>
      have hlone := h.lone process (by rw [hcase]; exact Phase.noConfusion)
      rw [hcase] at hphase
      obtain ⟨n, hready, hresult⟩ := hphase
      cases left with
      | nil =>
        have hvalue : count.result = .ofNat n := hresult
        have hfits : Fits s.files (.writing file event count.result.next) :=
          ⟨n, hready, by rw [hvalue, Sequence.next_ofNat hready.small]⟩
        rw [step_proceed_number hcase]
        exact h.setPhase rfl rfl rfl (Or.inr hlone) hfits
      | cons next left =>
        have hfits : Fits s.files (.counting file event left (count.readFile (s.files next))) :=
          ⟨n, hready, hresult⟩
        rw [step_proceed_read hcase]
        exact h.setPhase rfl rfl rfl (Or.inr hlone) hfits
  | crash process octets =>
    by_cases hwriting : ∃ file event sequence, s.phase process = .writing file event sequence
    · obtain ⟨file, event, sequence, hcase⟩ := hwriting
      rw [step_crash_writing hcase]
      exact h.crash hcase octets
    · rw [step_crash_restart fun file event sequence hcase => hwriting ⟨_, _, _, hcase⟩]
      exact h.setPhase rfl rfl rfl (Or.inl rfl) trivial

omit [DecidableEq ι] in
theorem Inv.stepFresh {s : RunEventLogs ι} (h : Inv s) (step : EventStep ι) :
    StepFresh s step := by
  cases step with
  | append _ _ _ => trivial
  | crash _ _ => trivial
  | proceed process =>
    intro file event sequence hphase
    obtain ⟨n, hready, rfl⟩ : Fits s.files (.writing file event sequence) :=
      hphase ▸ h.fits process
    exact hready.fresh event

/-- In the runs whose appends begin under their conditions, every event that is written can be read
from then on, and its number is above all that can be read then. -/
theorem runEvents_logged (s : RunEventLogs ι) (steps : List (EventStep ι))
    (hidle : ∀ process, s.phase process = .idle) (hwritten : s.written = [])
    (hcareful : CarefulRun s steps) : RunLogged s steps := by
  have hinv : Inv s := by
    refine ⟨fun process hbusy => absurd (hidle process) hbusy, fun process => ?_, ?_, ?_, ?_, ?_⟩
    · rw [hidle process]
      trivial
    all_goals simp [hwritten]
  clear hidle hwritten
  induction steps generalizing s with
  | nil => exact hinv.complete
  | cons step steps ih =>
    exact ⟨hinv.complete, hinv.stepFresh step, ih _ hcareful.2 (hinv.step hcareful.1)⟩

theorem RunLogged.complete {s : RunEventLogs ι} {steps : List (EventStep ι)}
    (h : RunLogged s steps) : Complete (s.run steps) := by
  induction steps generalizing s with
  | nil => exact h
  | cons step steps ih => exact ih h.2.2

end Runs

/-! ### Two processes -/

def taskClaimed : HubRunEventData where
  type := "task_claimed"
  runId := "run-1"
  fields := [("taskId", .string "t1")]
  apart := by decide
  printable := ⟨trivial, trivial⟩

def logsWith (files : EventFile → List UInt8) : RunEventLogs Bool where
  files := files
  hubRunEventSequences _ := none
  phase _ := .idle

/-- An append of one process, up to the moment when it is about to write. -/
def prepareAppend (process : Bool) (file : EventFile) : List (EventStep Bool) :=
  [.append process file taskClaimed, .proceed process, .proceed process, .proceed process,
    .proceed process]

def tornTaskFile : EventFile → List UInt8
  | .task => [0x7B]
  | _ => []

theorem readJsonl_tornTaskFile (file : EventFile) : readJsonl (tornTaskFile file) = [] := by
  cases file <;> decide +kernel

theorem persisted_tornTaskFile :
    readPersistedHubRunEventSequence tornTaskFile = .ofNat 1 := by
  have hempty : filledLines [] = [] := by decide +kernel
  have htorn : filledLines [0x7B] = [['{']] := by decide +kernel
  have hparse : parse ['{'] = none := by rfl
  simp [readPersistedHubRunEventSequence, EventFile.all, Count.readFile, Count.result, tornTaskFile,
    hempty, htorn, maximum, hparse, Sequence.ofNat]

/-- An event is appended to a file that ends with a whole line, beside one that does not. -/
theorem append_beside_torn :
    RunLogged (logsWith tornTaskFile) (prepareAppend true .run ++ [.proceed true]) := by
  refine runEvents_logged (logsWith tornTaskFile) _ (fun _ => rfl) rfl ⟨fun _ => ?_, ?_⟩
  · refine ⟨fun _ => rfl, ⟨1, by norm_num, persisted_tornTaskFile⟩, le_refl _, ?_, ?_⟩
    · have htail : JsonLines.tailOf (tornTaskFile .run) = [] := by decide +kernel
      show ∀ c ∈ JsonLines.tailOf (tornTaskFile .run), isWhitespace c = true
      rw [htail]
      intro c hc
      cases hc
    · intro file value hvalue
      have hnone : value ∈ readJsonl (tornTaskFile file) := hvalue
      rw [readJsonl_tornTaskFile] at hnone
      cases hnone
  · exact ⟨trivial, trivial, trivial, trivial, trivial, trivial⟩

theorem persisted_nil : readPersistedHubRunEventSequence (fun _ => []) = .ofNat 0 := by
  have hempty : filledLines [] = [] := by decide +kernel
  simp [readPersistedHubRunEventSequence, EventFile.all, Count.readFile, Count.result, hempty,
    Sequence.ofNat]

/-- Two processes count from the same empty files, and both take the number one. -/
theorem concurrent_appends_collide :
    (((logsWith fun _ => []).run (prepareAppend true .run ++ prepareAppend false .task ++
      [.proceed true, .proceed false])).written.map fun e => (e.file, e.sequence)) =
        [(.run, .ofNat 1), (.task, .ofNat 1)] ∧
    ¬RunLogged (logsWith fun _ => []) (prepareAppend true .run ++ prepareAppend false .task ++
      [.proceed true, .proceed false]) := by
  have hone : (readPersistedHubRunEventSequence fun _ => []).next = .ofNat 1 := by
    rw [persisted_nil, Sequence.next_ofNat (by norm_num)]
  have hwritten : ((logsWith fun _ => []).run (prepareAppend true .run ++
      prepareAppend false .task ++ [.proceed true, .proceed false])).written =
        [⟨true, .run, taskClaimed, (readPersistedHubRunEventSequence fun _ => []).next⟩,
          ⟨false, .task, taskClaimed, (readPersistedHubRunEventSequence fun _ => []).next⟩] := rfl
  rw [hone] at hwritten
  refine ⟨by rw [hwritten]; rfl, fun hlogged => ?_⟩
  have hincreasing := hlogged.complete.increasing
  rw [hwritten] at hincreasing
  have hlt := List.rel_of_pairwise_cons hincreasing (List.mem_singleton_self _)
  exact lt_irrefl _ hlt

end ArchLoop.RunEventFiles
