import ArchLoop.Lib.JsonText
import ArchLoop.TaskNotes

/-!
# `ArchLoop.Proofs.TaskNotes`: when the notes of an agent are applied once

The fingerprint of the notes is written after their comments. A call that dies behind its first
comment leaves comments without a fingerprint, and the next call with the same notes adds them
again. So does a call after somebody has written back metadata without the fingerprint.

`exactlyOnce_reached` has the condition on the steps of a run under which neither happens: then the
comments of the task are at every moment those that it had, and behind them those of each document
that was applied, once. The invariant `Consistent` follows the call that is under way through its
commands (`CallStage`).
-/

set_option autoImplicit false

namespace ArchLoop.TaskNotes

open ArchLoop.Lib ArchLoop.Lib.JsonText

variable {sha256 : String → String} {taskId text : String} {notes notes' : HubTaskNotes}

/-! ### The last block of notes -/

section LastContent

variable {pattern openTag closeTag : List Char}

theorem length_cutAt {source : List Char} {found : List Char × List Char}
    (h : cutAt pattern source = some found) :
    found.2.length + pattern.length ≤ source.length := by
  induction source generalizing found with
  | nil => cases h
  | cons c source ih =>
    rw [cutAt] at h
    split at h
    · rename_i hstarts
      obtain ⟨rest, hrest⟩ := List.isPrefixOf_iff_prefix.mp hstarts
      cases h
      rw [← hrest, List.drop_left, List.length_append]
      exact (Nat.add_comm _ _).le
    · obtain ⟨later, hlater, rfl⟩ := Option.map_eq_some_iff.mp h
      have hshort := ih hlater
      rw [List.length_cons]
      show later.2.length + pattern.length ≤ _
      omega

theorem lastContentFrom_enough (hopen : openTag ≠ []) {source : List Char} {m n : Nat}
    (hm : source.length < m) (hn : source.length < n) (lastContent : Option (List Char)) :
    lastContentFrom openTag closeTag m source lastContent =
      lastContentFrom openTag closeTag n source lastContent := by
  induction m generalizing n source lastContent with
  | zero => omega
  | succ m ih =>
    cases n with
    | zero => omega
    | succ n =>
      rw [lastContentFrom, lastContentFrom]
      cases hcut : cutAt openTag source with
      | none => rfl
      | some found =>
        have hbehind := length_cutAt hcut
        have hlength := List.length_pos_iff.mpr hopen
        dsimp only
        cases hclose : cutAt closeTag found.2 with
        | none => rfl
        | some content =>
          have hrest := length_cutAt hclose
          exact ih (by omega) (by omega) _

end LastContent

/-! ### The notes for a task -/

/-- The notes of a text, if they are valid and for the task. -/
def ownNotes (taskId text : String) : Option HubTaskNotes :=
  match parseHubTaskNotesFromText text with
  | .valid notes => if notes.taskId = taskId then some notes else none
  | _ => none

theorem notesText_inj (h : notesText notes = notesText notes') : notes = notes' := by
  have hprintable : ∀ notes : HubTaskNotes, Printable (.object
      [("schemaVersion", .ofInt HUB_TASK_NOTES_SCHEMA_VERSION), ("taskId", .string notes.taskId),
        ("comments", .array (notes.comments.map .string))]) := by
    intro notes
    have hcomments : PrintableItems (notes.comments.map .string) := by
      rw [printableItems_iff]
      intro item hitem
      obtain ⟨comment, -, rfl⟩ := List.mem_map.mp hitem
      trivial
    exact ⟨isNumber_decimal _, trivial, hcomments, trivial⟩
  have hparsed := congrArg (fun text : String => parse text.toList) h
  simp only [notesText, String.toList_ofList, parse_print (hprintable notes),
    parse_print (hprintable notes'), Option.some.injEq, Value.object.injEq, List.cons.injEq,
    Prod.mk.injEq, Value.string.injEq, Value.array.injEq, true_and, and_true] at hparsed
  have hcomments : notes.comments = notes'.comments :=
    List.map_injective_iff.mpr (fun a b hab => Value.string.inj hab) hparsed.2
  cases notes
  cases notes'
  rw [HubTaskNotes.mk.injEq]
  exact ⟨hparsed.1, hcomments⟩

theorem applyHubTaskNotes_own (h : ownNotes taskId text = some notes) :
    applyHubTaskNotes sha256 taskId text =
      (Prog.reads NotedTask.metadata).bind fun metadata =>
        if fingerprintNotes sha256 notes ∈ readAppliedFingerprints metadata then
          .ret (.replayed (fingerprintNotes sha256 notes))
        else postNotes (readAppliedFingerprints metadata) (fingerprintNotes sha256 notes)
          notes.comments.length notes.comments := by
  rw [ownNotes] at h
  rw [applyHubTaskNotes]
  cases hparse : parseHubTaskNotesFromText text with
  | absent => simp [hparse] at h
  | invalid diagnostic => simp [hparse] at h
  | valid found =>
    simp only [hparse, Option.ite_none_right_eq_some, Option.some.injEq] at h
    obtain ⟨hid, rfl⟩ := h
    simp only [hid, ne_eq, not_true_eq_false, if_false]

theorem applyHubTaskNotes_foreign (h : ownNotes taskId text = none) :
    ∃ result, applyHubTaskNotes sha256 taskId text = .ret result ∧
      (result = .absent ∨ ∃ diagnostic, result = .rejected diagnostic) := by
  rw [ownNotes] at h
  rw [applyHubTaskNotes]
  cases hparse : parseHubTaskNotesFromText text with
  | absent => exact ⟨_, rfl, Or.inl rfl⟩
  | invalid diagnostic => exact ⟨_, rfl, Or.inr ⟨_, rfl⟩⟩
  | valid found =>
    have hother : found.taskId ≠ taskId := by
      intro hid
      simp [hparse, hid] at h
    dsimp only
    rw [if_pos hother]
    exact ⟨_, rfl, Or.inr ⟨_, rfl⟩⟩

theorem readAppliedFingerprints_written (metadata : Record) (fingerprints : List String) :
    readAppliedFingerprints (metadata.merge
      [(HUB_APPLIED_NOTE_FINGERPRINTS_KEY, .arr (fingerprints.map .str))]) = fingerprints := by
  have hget : (metadata.merge
      [(HUB_APPLIED_NOTE_FINGERPRINTS_KEY, .arr (fingerprints.map .str))]).get
        HUB_APPLIED_NOTE_FINGERPRINTS_KEY = some (.arr (fingerprints.map .str)) := by
    rw [Record.get_merge]
    rfl
  have htexts : (fingerprints.map Json.str).filterMap Json.text? = fingerprints := by
    rw [List.filterMap_map]
    exact List.filterMap_some
  rw [readAppliedFingerprints, hget]
  exact htexts

/-! ### Runs -/

/-- The steps after which nothing is lost and nothing comes twice.

- The notes of a new call do not have the fingerprint of other notes.
- A call does not die between its first comment and the fingerprint.
- Whoever else writes the metadata leaves the list of fingerprints as it is. -/
def Tame (sha256 : String → String) (taskId : String) (w : NotesWorld) : NotesEvent → Prop
  | .begin text => ∀ notes, ownNotes taskId text = some notes →
      ∀ other ∈ w.begun, ∀ notes', ownNotes taskId other = some notes' →
        fingerprintNotes sha256 notes = fingerprintNotes sha256 notes' →
          notesText notes = notesText notes'
  | .go => True
  | .crash => ∀ call, w.call = some call →
      w.task.comments = call.before ∨ ∃ result, call.rest = .ret result
  | .write metadata => readAppliedFingerprints metadata = readAppliedFingerprints w.task.metadata

/-- The documents were applied, each one once, and the call under way has added the first comments
of one more.

- `known`: the documents come from texts that calls were made with.
- `comments`: the task has the comments of the documents behind those that it had.
- `underWay`: further comments are those of the call that is under way.
- `finished`: the document of a call that returned was applied.
- `marked`: the fingerprint of each document is kept. -/
structure Applied (sha256 : String → String) (taskId : String) (first w : NotesWorld)
    (docs : List HubTaskNotes) (posted : List String) : Prop where
  distinct : docs.Nodup
  known : ∀ notes ∈ docs, ∃ text ∈ w.begun, ownNotes taskId text = some notes
  comments : w.task.comments = first.task.comments ++ docs.flatMap (·.comments) ++ posted
  underWay : posted = [] ∨ ∃ call notes, w.call = some call ∧
    ownNotes taskId call.text = some notes ∧ notes ∉ docs ∧ posted <+: notes.comments
  finished : ∀ done ∈ w.finished, ∀ notes, ownNotes taskId done.1 = some notes → notes ∈ docs
  marked : ∀ notes ∈ docs,
    fingerprintNotes sha256 notes ∈ readAppliedFingerprints w.task.metadata

/-- Each document was applied once, and what is no document for the task makes no command. -/
structure ExactlyOnce (sha256 : String → String) (taskId : String) (first w : NotesWorld) :
    Prop where
  applied : ∃ docs posted, Applied sha256 taskId first w docs posted
  silent : ∀ text, ownNotes taskId text = none →
    ∃ result, applyHubTaskNotes sha256 taskId text = .ret result ∧
      (result = .absent ∨ ∃ diagnostic, result = .rejected diagnostic)

structure Untouched (w : NotesWorld) : Prop where
  unmarked : readAppliedFingerprints w.task.metadata = []
  idle : w.call = none
  begun : w.begun = []
  finished : w.finished = []

/-! ### The call under way -/

/-- Where a call stands: it has not looked up the task yet, or adds the comments that are left, or
has only to return. -/
inductive CallStage (sha256 : String → String) (taskId : String) (task : NotedTask)
    (docs : List HubTaskNotes) (posted : List String) (call : NotesCall) : Prop where
  | waiting (hrest : call.rest = applyHubTaskNotes sha256 taskId call.text)
      (hposted : posted = []) (hbefore : task.comments = call.before)
  | posting (notes : HubTaskNotes) (left : List String)
      (hown : ownNotes taskId call.text = some notes)
      (hnew : fingerprintNotes sha256 notes ∉ readAppliedFingerprints task.metadata)
      (hrest : call.rest = postNotes (readAppliedFingerprints task.metadata)
        (fingerprintNotes sha256 notes) notes.comments.length left)
      (hposted : posted ++ left = notes.comments)
      (hbefore : task.comments = call.before ++ posted)
  | done (result : ApplyHubTaskNotesResult) (hrest : call.rest = .ret result)
      (hposted : posted = [])
      (happlied : ∀ notes, ownNotes taskId call.text = some notes → notes ∈ docs)

/-- What holds of the task at every moment of a run. -/
structure Consistent (sha256 : String → String) (taskId : String) (first w : NotesWorld)
    (docs : List HubTaskNotes) (posted : List String) : Prop where
  applied : Applied sha256 taskId first w docs posted
  marks : ∀ fingerprint ∈ readAppliedFingerprints w.task.metadata,
    ∃ notes ∈ docs, fingerprintNotes sha256 notes = fingerprint
  apart : ∀ a ∈ w.begun, ∀ b ∈ w.begun, ∀ notes notes', ownNotes taskId a = some notes →
    ownNotes taskId b = some notes' →
      fingerprintNotes sha256 notes = fingerprintNotes sha256 notes' → notes = notes'
  stage : ∀ call, w.call = some call →
    call.text ∈ w.begun ∧ CallStage sha256 taskId w.task docs posted call
  idle : w.call = none → posted = []

variable {first w t : NotesWorld} {docs : List HubTaskNotes} {posted : List String}

theorem consistent_first (h : Untouched first) : Consistent sha256 taskId first first [] [] where
  applied :=
    { distinct := List.nodup_nil
      known := fun _ hmem => absurd hmem List.not_mem_nil
      comments := by simp
      underWay := Or.inl rfl
      finished := by
        rw [h.finished]
        exact fun _ hmem => absurd hmem List.not_mem_nil
      marked := fun _ hmem => absurd hmem List.not_mem_nil }
  marks := by
    rw [h.unmarked]
    exact fun _ hmem => absurd hmem List.not_mem_nil
  apart := by
    rw [h.begun]
    exact fun _ hmem => absurd hmem List.not_mem_nil
  stage := by
    intro call hcall
    rw [h.idle] at hcall
    cases hcall
  idle := fun _ => rfl

theorem Consistent.ended (h : Consistent sha256 taskId first w docs []) :
    Consistent sha256 taskId first { w with call := none } docs [] where
  applied := { h.applied with underWay := Or.inl rfl }
  marks := h.marks
  apart := h.apart
  stage := fun _ hcall => by cases hcall
  idle := fun _ => rfl

/-! ### Steps -/

theorem Consistent.returned {call : NotesCall} {result : ApplyHubTaskNotesResult}
    (h : Consistent sha256 taskId first w docs [])
    (happlied : ∀ notes, ownNotes taskId call.text = some notes → notes ∈ docs) :
    Consistent sha256 taskId first
      { w with call := none, finished := w.finished ++ [(call.text, result)] } docs [] where
  applied :=
    { h.applied with
      underWay := Or.inl rfl
      finished := by
        intro done hdone notes hnotes
        rcases List.mem_append.mp hdone with hold | hnew
        · exact h.applied.finished done hold notes hnotes
        · rw [List.mem_singleton] at hnew
          rw [hnew] at hnotes
          exact happlied notes hnotes }
  marks := h.marks
  apart := h.apart
  stage := fun _ hcall => by cases hcall
  idle := fun _ => rfl

theorem Consistent.goesOn {call : NotesCall} (h : Consistent sha256 taskId first w docs [])
    (hbegun : call.text ∈ w.begun) (hstage : CallStage sha256 taskId w.task docs [] call) :
    Consistent sha256 taskId first { w with call := some call } docs [] where
  applied := { h.applied with underWay := Or.inl rfl }
  marks := h.marks
  apart := h.apart
  stage := by
    intro other hother
    cases hother
    exact ⟨hbegun, hstage⟩
  idle := fun _ => rfl

/-- The first step of a call looks for the fingerprint. Where it is found, the document was applied
before: no other one has it. -/
theorem Consistent.goWaiting {call : NotesCall} (h : Consistent sha256 taskId first w docs [])
    (hbegun : call.text ∈ w.begun) (hbefore : w.task.comments = call.before)
    (hrest : call.rest = applyHubTaskNotes sha256 taskId call.text) :
    Consistent sha256 taskId first (w.go call) docs [] := by
  cases hown : ownNotes taskId call.text with
  | none =>
    obtain ⟨result, hresult, -⟩ : ∃ result,
        applyHubTaskNotes sha256 taskId call.text = .ret result ∧ _ :=
      applyHubTaskNotes_foreign hown
    have hgo : w.go call =
        { w with call := none, finished := w.finished ++ [(call.text, result)] } := by
      rw [NotesWorld.go, hrest, hresult]
    rw [hgo]
    refine h.returned fun notes hnotes => ?_
    rw [hown] at hnotes
    cases hnotes
  | some notes =>
    have hgo : w.go call = { w with
        call := some { call with
          rest := if fingerprintNotes sha256 notes ∈ readAppliedFingerprints w.task.metadata then
              .ret (.replayed (fingerprintNotes sha256 notes))
            else postNotes (readAppliedFingerprints w.task.metadata)
              (fingerprintNotes sha256 notes) notes.comments.length notes.comments } } := by
      rw [NotesWorld.go, hrest, applyHubTaskNotes_own hown]
      rfl
    rw [hgo]
    refine h.goesOn hbegun ?_
    by_cases hmarked : fingerprintNotes sha256 notes ∈ readAppliedFingerprints w.task.metadata
    · refine .done _ (if_pos hmarked) rfl fun other hother => ?_
      obtain ⟨old, hold, hsame⟩ := h.marks _ hmarked
      obtain ⟨oldText, holdText, holdNotes⟩ := h.applied.known old hold
      rw [hown, Option.some.injEq] at hother
      have heq := h.apart _ holdText _ hbegun _ _ holdNotes hown hsame
      rw [← hother, ← heq]
      exact hold
    · exact .posting notes notes.comments hown hmarked (if_neg hmarked) rfl (by simp [hbefore])

theorem Consistent.goComment {call : NotesCall} {comment : String} {left : List String}
    (h : Consistent sha256 taskId first w docs posted) (hbegun : call.text ∈ w.begun)
    (hown : ownNotes taskId call.text = some notes)
    (hnew : fingerprintNotes sha256 notes ∉ readAppliedFingerprints w.task.metadata)
    (hrest : call.rest = postNotes (readAppliedFingerprints w.task.metadata)
      (fingerprintNotes sha256 notes) notes.comments.length (comment :: left))
    (hposted : posted ++ comment :: left = notes.comments)
    (hbefore : w.task.comments = call.before ++ posted) :
    Consistent sha256 taskId first (w.go call) docs (posted ++ [comment]) := by
  have hgo : w.go call = { w with
      task := { w.task with comments := w.task.comments ++ [comment] }
      call := some { call with
        rest := postNotes (readAppliedFingerprints w.task.metadata)
          (fingerprintNotes sha256 notes) notes.comments.length left } } := by
    rw [NotesWorld.go, hrest]
    rfl
  have hsplit : posted ++ [comment] ++ left = notes.comments := by simp [← hposted]
  have hnotIn : notes ∉ docs := fun hmem => hnew (h.applied.marked notes hmem)
  rw [hgo]
  exact
    { applied :=
        { h.applied with
          comments := by simp [h.applied.comments]
          underWay := Or.inr ⟨_, notes, rfl, hown, hnotIn, ⟨left, hsplit⟩⟩ }
      marks := h.marks
      apart := h.apart
      stage := by
        intro other hother
        cases hother
        exact ⟨hbegun, .posting notes left hown hnew rfl hsplit (by simp [hbefore])⟩
      idle := fun hidle => by cases hidle }

theorem Consistent.goMark {call : NotesCall} (h : Consistent sha256 taskId first w docs posted)
    (hbegun : call.text ∈ w.begun) (hown : ownNotes taskId call.text = some notes)
    (hnew : fingerprintNotes sha256 notes ∉ readAppliedFingerprints w.task.metadata)
    (hrest : call.rest = postNotes (readAppliedFingerprints w.task.metadata)
      (fingerprintNotes sha256 notes) notes.comments.length [])
    (hposted : posted = notes.comments) :
    Consistent sha256 taskId first (w.go call) (docs ++ [notes]) [] := by
  have hnotIn : notes ∉ docs := fun hmem => hnew (h.applied.marked notes hmem)
  obtain ⟨task, htask⟩ : ∃ task : NotedTask, task = { w.task with
      metadata := w.task.metadata.merge [(HUB_APPLIED_NOTE_FINGERPRINTS_KEY,
        .arr ((readAppliedFingerprints w.task.metadata ++
          [fingerprintNotes sha256 notes]).map .str))] } := ⟨_, rfl⟩
  have hmarks : readAppliedFingerprints task.metadata =
      readAppliedFingerprints w.task.metadata ++ [fingerprintNotes sha256 notes] := by
    rw [htask]
    exact readAppliedFingerprints_written _ _
  have hgo : w.go call = { w with
      task
      call := some { call with
        rest := .ret (.applied (fingerprintNotes sha256 notes) notes.comments.length) } } := by
    rw [NotesWorld.go, hrest, htask]
    rfl
  have hcomments : task.comments = w.task.comments := by rw [htask]
  rw [hgo]
  exact
    { applied :=
        { distinct := by
            rw [List.nodup_append]
            refine ⟨h.applied.distinct, List.nodup_cons.mpr ⟨List.not_mem_nil, List.nodup_nil⟩, ?_⟩
            rintro a ha b hb rfl
            exact hnotIn (List.mem_singleton.mp hb ▸ ha)
          known := by
            intro a ha
            rcases List.mem_append.mp ha with hold | hone
            · exact h.applied.known a hold
            · rw [List.mem_singleton.mp hone]
              exact ⟨call.text, hbegun, hown⟩
          comments := by simp [hcomments, h.applied.comments, hposted]
          underWay := Or.inl rfl
          finished := fun done hdone a ha =>
            List.mem_append_left _ (h.applied.finished done hdone a ha)
          marked := by
            intro a ha
            rw [hmarks, List.mem_append]
            rcases List.mem_append.mp ha with hold | hone
            · exact Or.inl (h.applied.marked a hold)
            · rw [List.mem_singleton.mp hone]
              exact Or.inr List.mem_cons_self }
      marks := by
        intro fingerprint hmem
        rw [hmarks, List.mem_append] at hmem
        rcases hmem with hold | hone
        · obtain ⟨a, ha, hsame⟩ := h.marks fingerprint hold
          exact ⟨a, List.mem_append_left _ ha, hsame⟩
        · exact ⟨notes, List.mem_append_right _ List.mem_cons_self,
            (List.mem_singleton.mp hone).symm⟩
      apart := h.apart
      stage := by
        intro other hother
        cases hother
        refine ⟨hbegun, .done _ rfl rfl fun a ha => ?_⟩
        rw [hown, Option.some.injEq] at ha
        rw [← ha]
        exact List.mem_append_right _ List.mem_cons_self
      idle := fun hidle => by cases hidle }

theorem Consistent.go {call : NotesCall} (h : Consistent sha256 taskId first w docs posted)
    (hcall : w.call = some call) :
    ∃ docs posted, Consistent sha256 taskId first (w.go call) docs posted := by
  obtain ⟨hbegun, hstage⟩ := h.stage call hcall
  cases hstage with
  | waiting hrest hposted hbefore =>
    subst hposted
    exact ⟨_, _, h.goWaiting hbegun hbefore hrest⟩
  | posting notes left hown hnew hrest hposted hbefore =>
    cases left with
    | nil => exact ⟨_, _, h.goMark hbegun hown hnew hrest (by simpa using hposted)⟩
    | cons comment left => exact ⟨_, _, h.goComment hbegun hown hnew hrest hposted hbefore⟩
  | done result hrest hposted happlied =>
    subst hposted
    have hgo : w.go call =
        { w with call := none, finished := w.finished ++ [(call.text, result)] } := by
      rw [NotesWorld.go, hrest]
    rw [hgo]
    exact ⟨_, _, h.returned happlied⟩

theorem Consistent.begin (h : Consistent sha256 taskId first w docs posted)
    (hidle : w.call = none) (htame : Tame sha256 taskId w (.begin text)) :
    Consistent sha256 taskId first { w with
      call := some { text, rest := applyHubTaskNotes sha256 taskId text, before := w.task.comments }
      begun := w.begun ++ [text] } docs [] := by
  obtain rfl := h.idle hidle
  have hsame : ∀ other ∈ w.begun, ∀ notes notes', ownNotes taskId text = some notes →
      ownNotes taskId other = some notes' →
        fingerprintNotes sha256 notes = fingerprintNotes sha256 notes' → notes = notes' :=
    fun other hother notes notes' hnotes hnotes' hprint =>
      notesText_inj (htame notes hnotes other hother notes' hnotes' hprint)
  exact
    { applied :=
        { h.applied with
          known := by
            intro notes hmem
            obtain ⟨other, hother, hnotes⟩ := h.applied.known notes hmem
            exact ⟨other, List.mem_append_left _ hother, hnotes⟩
          underWay := Or.inl rfl }
      marks := h.marks
      apart := by
        intro a ha b hb notes notes' hnotes hnotes' hprint
        rcases List.mem_append.mp ha with ha | ha
        · rcases List.mem_append.mp hb with hb | hb
          · exact h.apart a ha b hb notes notes' hnotes hnotes' hprint
          · rw [List.mem_singleton.mp hb] at hnotes'
            exact (hsame a ha notes' notes hnotes' hnotes hprint.symm).symm
        · rw [List.mem_singleton.mp ha] at hnotes
          rcases List.mem_append.mp hb with hb | hb
          · exact hsame b hb notes notes' hnotes hnotes' hprint
          · rw [List.mem_singleton.mp hb, hnotes, Option.some.injEq] at hnotes'
            exact hnotes'
      stage := by
        intro call hcall
        cases hcall
        exact ⟨List.mem_append_right _ List.mem_cons_self, .waiting rfl rfl rfl⟩
      idle := fun _ => rfl }

theorem Consistent.crash {call : NotesCall} (h : Consistent sha256 taskId first w docs posted)
    (hcall : w.call = some call) (htame : Tame sha256 taskId w .crash) :
    Consistent sha256 taskId first { w with call := none } docs [] := by
  have hposted : posted = [] := by
    cases (h.stage call hcall).2 with
    | waiting hrest hposted hbefore => exact hposted
    | done result hrest hposted happlied => exact hposted
    | posting notes left hown hnew hrest hposted hbefore =>
      rcases htame call hcall with hsame | ⟨result, hresult⟩
      · rw [hbefore] at hsame
        simpa using hsame
      · rw [hrest] at hresult
        cases left with
        | nil => cases hresult
        | cons comment left => cases hresult
  subst hposted
  exact h.ended

theorem Consistent.write {metadata : Record} (h : Consistent sha256 taskId first w docs posted)
    (hsame : readAppliedFingerprints metadata = readAppliedFingerprints w.task.metadata) :
    Consistent sha256 taskId first { w with task := { w.task with metadata } } docs posted where
  applied :=
    { h.applied with
      marked := by
        intro notes hmem
        show _ ∈ readAppliedFingerprints metadata
        rw [hsame]
        exact h.applied.marked notes hmem }
  marks := by
    intro fingerprint hmem
    have hold : fingerprint ∈ readAppliedFingerprints w.task.metadata := hsame ▸ hmem
    exact h.marks fingerprint hold
  apart := h.apart
  stage := by
    intro call hcall
    obtain ⟨hbegun, hstage⟩ := h.stage call hcall
    refine ⟨hbegun, ?_⟩
    cases hstage with
    | waiting hrest hposted hbefore => exact .waiting hrest hposted hbefore
    | done result hrest hposted happlied => exact .done result hrest hposted happlied
    | posting notes left hown hnew hrest hposted hbefore =>
      refine .posting notes left hown ?_ ?_ hposted hbefore
      · show _ ∉ readAppliedFingerprints metadata
        rw [hsame]
        exact hnew
      · show _ = postNotes (readAppliedFingerprints metadata) _ _ _
        rw [hsame]
        exact hrest
  idle := h.idle

theorem Consistent.step {event : NotesEvent} (h : Consistent sha256 taskId first w docs posted)
    (htame : Tame sha256 taskId w event) (hstep : w.step sha256 taskId event = some t) :
    ∃ docs posted, Consistent sha256 taskId first t docs posted := by
  cases event with
  | begin text =>
    rw [NotesWorld.step] at hstep
    split at hstep
    · cases hstep
    · rename_i hidle
      cases hstep
      exact ⟨_, _, h.begin (by simpa using hidle) htame⟩
  | go =>
    obtain ⟨call, hcall, rfl⟩ := Option.map_eq_some_iff.mp hstep
    exact h.go hcall
  | crash =>
    obtain ⟨call, hcall, rfl⟩ := Option.map_eq_some_iff.mp hstep
    exact ⟨_, _, h.crash hcall htame⟩
  | write metadata =>
    cases hstep
    exact ⟨_, _, h.write htame⟩

theorem consistent_reached (hfirst : Untouched first)
    (h : NotesReached sha256 taskId (Tame sha256 taskId) first w) :
    ∃ docs posted, Consistent sha256 taskId first w docs posted := by
  induction h with
  | first => exact ⟨_, _, consistent_first hfirst⟩
  | step hreached htame hstep ih =>
    obtain ⟨docs, posted, hconsistent⟩ := ih
    exact hconsistent.step htame hstep

/-- In a run whose steps are tame, every document is applied once, over all texts, all orders of
calls and writes and all places where calls die. -/
theorem exactlyOnce_reached (sha256 : String → String) (taskId : String)
    (hfirst : Untouched first) (h : NotesReached sha256 taskId (Tame sha256 taskId) first w) :
    ExactlyOnce sha256 taskId first w := by
  obtain ⟨docs, posted, hconsistent⟩ := consistent_reached hfirst h
  exact ⟨⟨docs, posted, hconsistent.applied⟩, fun _ hforeign => applyHubTaskNotes_foreign hforeign⟩

/-! ### Calls that are not interrupted -/

section Uninterrupted

variable {allowed : NotesWorld → NotesEvent → Prop} {task : NotedTask}
  {result : ApplyHubTaskNotesResult}

theorem reached_run (hgo : ∀ w, allowed w .go) (before : List String)
    {rest : NotesProg ApplyHubTaskNotesResult}
    (h : NotesReached sha256 taskId allowed first { w with call := some { text, rest, before } })
    (hrun : rest.run w.task = (.ok result, task)) :
    NotesReached sha256 taskId allowed first
      { w with task, call := none, finished := w.finished ++ [(text, result)] } := by
  induction rest generalizing w with
  | ret a =>
    cases hrun
    exact h.step (hgo _) rfl
  | raise e => cases hrun
  | act upd next ih =>
    have hnext : NotesReached sha256 taskId allowed first
        { w with task := upd w.task, call := some { text, rest := next w.task, before } } :=
      h.step (hgo _) rfl
    exact ih w.task (w := { w with task := upd w.task }) hnext hrun

theorem run_appendComments (comments : List String) (task : NotedTask) :
    (appendComments comments).run task =
      (.ok (), { task with comments := task.comments ++ comments }) := by
  induction comments generalizing task with
  | nil => simp [appendComments]
  | cons comment comments ih =>
    show (appendComments comments).run { task with comments := task.comments ++ [comment] } = _
    rw [ih, List.append_assoc]
    rfl

/-- The task with the comments and the fingerprint of a document. -/
def noted (sha256 : String → String) (notes : HubTaskNotes) (task : NotedTask) : NotedTask where
  metadata := task.metadata.merge [(HUB_APPLIED_NOTE_FINGERPRINTS_KEY,
    .arr ((readAppliedFingerprints task.metadata ++ [fingerprintNotes sha256 notes]).map .str))]
  comments := task.comments ++ notes.comments

theorem run_applyHubTaskNotes (hown : ownNotes taskId text = some notes)
    (hnew : fingerprintNotes sha256 notes ∉ readAppliedFingerprints task.metadata) :
    (applyHubTaskNotes sha256 taskId text).run task =
      (.ok (.applied (fingerprintNotes sha256 notes) notes.comments.length),
        noted sha256 notes task) := by
  rw [applyHubTaskNotes_own hown, Prog.run_bind_ok (Prog.run_reads _ _), if_neg hnew, postNotes,
    Prog.run_bind_ok (run_appendComments _ _)]
  rfl

end Uninterrupted

/-! ### A call that is made again -/

def sampleText : String :=
  "Done.\n<task-notes>\x7b\"schemaVersion\": 1, \"taskId\": \"bd-1\", " ++
    "\"comments\": [\"The login needs a test.\"]\x7d</task-notes>"

def sampleNotes : HubTaskNotes where
  taskId := "bd-1"
  comments := ["The login needs a test."]

theorem ownNotes_sample : ownNotes "bd-1" sampleText = some sampleNotes := by decide +kernel

theorem run_sample (task : NotedTask) (hmetadata : task.metadata = []) :
    (applyHubTaskNotes id "bd-1" sampleText).run task =
      (.ok (.applied (fingerprintNotes id sampleNotes) 1), noted id sampleNotes task) := by
  refine run_applyHubTaskNotes ownNotes_sample ?_
  rw [hmetadata]
  exact List.not_mem_nil

def sampleBegun (w : NotesWorld) : NotesWorld :=
  { w with
    call := some
      { text := sampleText
        rest := applyHubTaskNotes id "bd-1" sampleText
        before := w.task.comments }
    begun := w.begun ++ [sampleText] }

theorem step_begin (w : NotesWorld) (hidle : w.call = none) :
    w.step id "bd-1" (.begin sampleText) = some (sampleBegun w) := by
  simp [NotesWorld.step, sampleBegun, hidle]

def sampleApplied : NotesWorld where
  task := noted id sampleNotes {}
  begun := [sampleText]
  finished := [(sampleText, .applied (fingerprintNotes id sampleNotes) 1)]

/-- The notes were applied by the first call, and a second one with them is under way. -/
theorem exactlyOnce_sample :
    ExactlyOnce id "bd-1" { task := {} } (sampleBegun sampleApplied) := by
  have hbegun : NotesReached id "bd-1" (Tame id "bd-1") { task := {} }
      (sampleBegun { task := {} }) := by
    have htame : Tame id "bd-1" { task := {} } (.begin sampleText) :=
      fun _ _ other hother => absurd hother List.not_mem_nil
    exact NotesReached.first.step htame (step_begin _ rfl)
  have happlied : NotesReached id "bd-1" (Tame id "bd-1") { task := {} } sampleApplied :=
    reached_run (w := { task := {}, begun := [sampleText] }) (fun _ => trivial) [] hbegun
      (run_sample {} rfl)
  have htame : Tame id "bd-1" sampleApplied (.begin sampleText) := by
    intro notes hnotes other hother notes' hnotes' _
    rw [List.mem_singleton.mp hother, hnotes, Option.some.injEq] at hnotes'
    rw [hnotes']
  exact exactlyOnce_reached id "bd-1" ⟨rfl, rfl, rfl, rfl⟩
    (happlied.step htame (step_begin _ rfl))

/-- The first call dies behind its comment. The second one adds the comment again, and returns. -/
theorem crashed_call_repeats : ∃ w,
    NotesReached id "bd-1" (fun _ _ => True) { task := {} } w ∧ w.call = none ∧
      w.task.comments = ["The login needs a test.", "The login needs a test."] ∧
      ¬ExactlyOnce id "bd-1" { task := {} } w := by
  have hbegun : NotesReached id "bd-1" (fun _ _ => True) { task := {} }
      (sampleBegun { task := {} }) := .step .first trivial (step_begin _ rfl)
  have hlooked : NotesWorld.step id "bd-1" (sampleBegun { task := {} }) .go = some
      { task := {}
        call := some
          { text := sampleText
            rest := postNotes [] (fingerprintNotes id sampleNotes) 1 sampleNotes.comments
            before := [] }
        begun := [sampleText] } := by
    show some (NotesWorld.go _ _) = _
    rw [NotesWorld.go, applyHubTaskNotes_own ownNotes_sample]
    rfl
  have hcommented : NotesWorld.step id "bd-1"
      { task := {}
        call := some
          { text := sampleText
            rest := postNotes [] (fingerprintNotes id sampleNotes) 1 sampleNotes.comments
            before := [] }
        begun := [sampleText] } .go = some
      { task := { comments := sampleNotes.comments }
        call := some
          { text := sampleText
            rest := postNotes [] (fingerprintNotes id sampleNotes) 1 []
            before := [] }
        begun := [sampleText] } := rfl
  have hcrashed : NotesWorld.step id "bd-1"
      { task := { comments := sampleNotes.comments }
        call := some
          { text := sampleText
            rest := postNotes [] (fingerprintNotes id sampleNotes) 1 []
            before := [] }
        begun := [sampleText] } .crash = some
      { task := { comments := sampleNotes.comments }, begun := [sampleText] } := rfl
  have hagain : NotesReached id "bd-1" (fun _ _ => True) { task := {} }
      (sampleBegun
        { task := { comments := sampleNotes.comments }, begun := [sampleText] }) :=
    (((hbegun.step trivial hlooked).step trivial hcommented).step trivial hcrashed).step trivial
      (step_begin _ rfl)
  have happlied := reached_run
    (w := { task := { comments := sampleNotes.comments }, begun := [sampleText, sampleText] })
    (fun _ => trivial) sampleNotes.comments hagain
    (run_sample { comments := sampleNotes.comments } rfl)
  refine ⟨_, happlied, rfl, rfl, fun h => ?_⟩
  obtain ⟨docs, posted, h⟩ := h.applied
  have hposted : posted = [] := by
    rcases h.underWay with hnone | ⟨call, notes, hcall, -⟩
    · exact hnone
    · cases hcall
  -- All documents of the run are that of the sample, so there is one of them at most.
  have hall : ∀ notes ∈ docs, notes = sampleNotes := by
    intro notes hmem
    obtain ⟨text, htext, hnotes⟩ := h.known notes hmem
    have hsample : text = sampleText := by
      rcases List.mem_cons.mp htext with hfirst | hsecond
      · exact hfirst
      · exact List.mem_singleton.mp hsecond
    rw [hsample, ownNotes_sample, Option.some.injEq] at hnotes
    exact hnotes.symm
  have hcomments : ["The login needs a test.", "The login needs a test."] =
      docs.flatMap (·.comments) := by
    have hequation := h.comments
    rw [hposted, List.append_nil] at hequation
    exact hequation
  cases docs with
  | nil => cases hcomments
  | cons a docs =>
    cases docs with
    | nil =>
      rw [hall a List.mem_cons_self] at hcomments
      exact absurd hcomments (by decide)
    | cons b docs =>
      have hdistinct := (List.nodup_cons.mp h.distinct).1
      rw [hall a List.mem_cons_self, hall b (List.mem_cons_of_mem _ List.mem_cons_self)]
        at hdistinct
      exact hdistinct List.mem_cons_self

end ArchLoop.TaskNotes
