import ArchLoop.ProposalSession

/-!
# `ArchLoop.Proofs.ProposalIntegrity`: a completed session has changed nothing

When `runProposalSession` completes, the agent should have changed neither the repository nor the
task store (`Untouched`). The snapshots see less than that: of an untracked entry only that it is
there, and of the tasks only what `bd list` prints. `kept_completed` says what they do see. For
each entry of `git status` that counts at one of the two moments, the other moment has an entry
with the same path and code, and when the file is tracked, its index entries and what is in the
worktree are the same.

An entry counts (`Counts`) when its line is the last of those that `parseGitStatusLine` gives the
same path. A tracked file that only the snapshot of one moment lists has no fingerprint to
compare, so the proof first takes the entry over to the other moment by its line.
-/

set_option autoImplicit false

namespace ArchLoop.Proposal

open ArchLoop.Lib

/-! ### Statement -/

def Collision (tools : SnapshotTools) : WorktreeFile → WorktreeFile → Prop
  | .file _ content, .file _ content' => content ≠ content' ∧ tools.hash content = tools.hash content'
  | .symlink target, .symlink target' => target ≠ target' ∧ tools.hash target = tools.hash target'
  | _, _ => False

namespace StatusEntry

/-- The path that `parseGitStatusLine` reads from the line of the entry. -/
def parsedPath (Q : Quoting) (entry : StatusEntry) : GitPath := Quoting.unquote (entry.printed Q)

end StatusEntry

/-- The entry counts: its line is the last of those with its parsed path. -/
def Counts (Q : Quoting) (w : ProposalWorld) (entry : StatusEntry) : Prop :=
  entry ∈ w.entries ∧
    ∀ other ∈ w.entries, other.parsedPath Q = entry.parsedPath Q → other.line Q ≤ entry.line Q

/-- The other moment reports the entry, too, and shows the same file when it is tracked. -/
structure SameEntry (tools : SnapshotTools) (w w' : ProposalWorld) (entry : StatusEntry) :
    Prop where
  reported : ∃ other ∈ w'.entries, other.path = entry.path ∧ other.code = entry.code
  index : entry.isTracked = true → w.index entry.path = w'.index entry.path
  worktree : entry.isTracked = true → w.files entry.path = w'.files entry.path ∨
    Collision tools (w.files entry.path) (w'.files entry.path)

/-- The record of a task in the output of `bd list`. -/
def listedTask (output : Json) (id : String) : Option Json :=
  ((((parseBdJsonOutput output).filterMap normalizeTaskRecord).reverse.find?
    fun task => readTaskId task = some id).map fun task => canonical (.obj task))

/-- The commands of a snapshot that may fail have worked. -/
structure WasRead (w : ProposalWorld) : Prop where
  status : w.statusError = none
  index : (∃ entry ∈ w.entries, entry.isTracked = true) → w.lsFilesError = none

/-- What the snapshots of a completed session show to be the same. -/
structure Kept (tools : SnapshotTools) (w w' : ProposalWorld) : Prop where
  read : WasRead w
  read' : WasRead w'
  head : w.head.getD "" = w'.head.getD ""
  entries : ∀ entry, Counts tools.quoting w entry → SameEntry tools w w' entry
  entries' : ∀ entry, Counts tools.quoting w' entry → SameEntry tools w' w entry
  tasks : ∀ output ∈ w.bdOutput, ∀ output' ∈ w'.bdOutput, ∀ id,
    listedTask output id = listedTask output' id

/-- The path is reported, or lies in a reported directory. -/
def Reported (w : ProposalWorld) (path : GitPath) : Prop :=
  ∃ entry ∈ w.entries, entry.path = path ∨
    entry.path.getLast? = some '/' ∧ entry.path <+: path

structure Untouched (w w' : ProposalWorld) : Prop where
  head : w.head = w'.head
  index : ∀ path, Reported w path ∨ Reported w' path → w.index path = w'.index path
  files : ∀ path, Reported w path ∨ Reported w' path → w.files path = w'.files path
  tasks : w.tasks = w'.tasks

/-! ### Maps -/

section Maps

variable {K V : Type} [DecidableEq K] {entries before after : List (K × V)} {key : K} {value : V}

theorem mapGet_nil : mapGet ([] : List (K × V)) key = none := rfl

theorem mapGet_cons (entry : K × V) :
    mapGet (entry :: entries) key =
      (mapGet entries key).or (if key = entry.1 then some entry.2 else none) := by
  rw [mapGet, List.reverse_cons, List.lookup_append, mapGet]
  congr 1
  by_cases hkey : key = entry.1
  · rw [List.lookup_cons, hkey, beq_self_eq_true, if_pos rfl]
  · rw [List.lookup_cons, beq_eq_false_iff_ne.mpr hkey, if_neg hkey, List.lookup_nil]

theorem mem_of_mapGet (h : mapGet entries key = some value) : (key, value) ∈ entries := by
  induction entries with
  | nil => cases h
  | cons entry entries ih =>
    rw [mapGet_cons] at h
    cases hrest : mapGet entries key with
    | some v =>
      rw [hrest, Option.some_or] at h
      exact List.mem_cons_of_mem _ (ih (hrest.trans h))
    | none =>
      rw [hrest, Option.none_or] at h
      split at h
      · rename_i hkey
        cases h
        rw [hkey]
        exact List.mem_cons_self
      · cases h

theorem mem_mapKeys : key ∈ mapKeys entries ↔ (mapGet entries key).isSome = true := by
  rw [mapKeys, List.mem_eraseDups]
  induction entries with
  | nil => simp [mapGet_nil]
  | cons entry entries ih =>
    rw [List.map_cons, List.mem_cons, ih, mapGet_cons]
    cases mapGet entries key <;> by_cases hkey : key = entry.1 <;> simp [hkey]

theorem mapGet_map {keys : List K} (f : K → V) (h : key ∈ keys) :
    mapGet (keys.map fun key => (key, f key)) key = some (f key) := by
  cases hget : mapGet (keys.map fun key => (key, f key)) key with
  | none =>
    have hkey : key ∈ mapKeys (keys.map fun key => (key, f key)) := by
      rw [mapKeys, List.mem_eraseDups, List.map_map]
      exact List.mem_map.mpr ⟨key, h, rfl⟩
    rw [mem_mapKeys, hget] at hkey
    cases hkey
  | some value =>
    obtain ⟨other, -, heq⟩ := List.mem_map.mp (mem_of_mapGet hget)
    cases heq
    rfl

variable [DecidableEq V]

theorem mapGet_of_not_changed (h : (diffStringKeyedMaps before after).changed = [])
    (hbefore : key ∈ mapKeys before) (hafter : key ∈ mapKeys after) :
    mapGet before key = mapGet after key := by
  have hkey := List.filter_eq_nil_iff.mp h key hafter
  rw [mem_mapKeys] at hbefore
  simpa [hbefore] using hkey

theorem mapGet_of_no_diff (hadded : (diffStringKeyedMaps before after).added = [])
    (hremoved : (diffStringKeyedMaps before after).removed = [])
    (hchanged : (diffStringKeyedMaps before after).changed = []) :
    mapGet before key = mapGet after key := by
  cases hbefore : mapGet before key with
  | none =>
    cases hafter : mapGet after key with
    | none => rfl
    | some value =>
      have hkey : key ∈ mapKeys after := mem_mapKeys.mpr (by rw [hafter]; rfl)
      have hnot := List.filter_eq_nil_iff.mp hadded key hkey
      rw [hbefore] at hnot
      exact absurd rfl hnot
  | some value =>
    have hkey : key ∈ mapKeys before := mem_mapKeys.mpr (by rw [hbefore]; rfl)
    have hnot := List.filter_eq_nil_iff.mp hremoved key hkey
    have hafter : key ∈ mapKeys after := by
      rw [mem_mapKeys]
      cases hget : mapGet after key with
      | none =>
        rw [hget] at hnot
        exact absurd rfl hnot
      | some _ => rfl
    rw [← hbefore]
    exact mapGet_of_not_changed hchanged hkey hafter

end Maps

/-! ### Lines and records -/

section Lines

variable {Q : Quoting} (entry : StatusEntry)

theorem isRenameCode_code : isRenameCode entry.code = entry.renamedFrom.isSome :=
  entry.renamed_iff.symm

theorem printed_ne_nil : entry.printed Q ≠ [] := by
  rw [StatusEntry.printed]
  cases entry.renamedFrom with
  | none => exact Quoting.print_ne_nil entry.path_ne
  | some old =>
    intro hnil
    exact Quoting.print_ne_nil entry.path_ne (List.append_eq_nil_iff.mp hnil).2

theorem head_printed : ∀ x ∈ (entry.printed Q).head?, isBlank x = false := by
  rw [StatusEntry.printed]
  cases hold : entry.renamedFrom with
  | none => exact Quoting.head_print
  | some old =>
    have hne : Q.print old ≠ [] := Quoting.print_ne_nil (entry.renamedFrom_ne old hold)
    show ∀ x ∈ (Q.printTwo old entry.path).head?, isBlank x = false
    rw [Quoting.printTwo, List.append_assoc, List.head?_append_of_ne_nil _ hne]
    exact Quoting.head_print

theorem last_printed : ∀ x ∈ (entry.printed Q).getLast?, isBlank x = false := by
  rw [StatusEntry.printed]
  cases entry.renamedFrom with
  | none => exact Quoting.last_print
  | some old =>
    show ∀ x ∈ (Q.printTwo old entry.path).getLast?, isBlank x = false
    rw [Quoting.printTwo, List.getLast?_append_of_ne_nil _ (Quoting.print_ne_nil entry.path_ne)]
    exact Quoting.last_print

theorem trimEnd_of_last {text : List Char} (h : ∀ x ∈ text.getLast?, isBlank x = false) :
    trimEnd text = text := by
  have hblanks : (text ++ []).rdropWhile isBlank = text := rdropWhile_blanks h (by simp)
  rwa [List.append_nil] at hblanks

theorem trimText_of_ends {text : List Char} (hhead : ∀ x ∈ text.head?, isBlank x = false)
    (hlast : ∀ x ∈ text.getLast?, isBlank x = false) : trimText text = text := by
  have hdrop : text.dropWhile isBlank = text := by
    cases text with
    | nil => rfl
    | cons x text => rw [List.dropWhile_cons_of_neg (by simp [hhead x rfl])]
  rw [trimText, hdrop]
  exact trimEnd_of_last hlast

theorem trimEnd_line : trimEnd (entry.line Q) = entry.line Q := by
  refine trimEnd_of_last ?_
  show ∀ x ∈ ([entry.index, entry.worktree, ' '] ++ entry.printed Q).getLast?, isBlank x = false
  rw [List.getLast?_append_of_ne_nil _ (printed_ne_nil entry)]
  exact last_printed entry

theorem parse_line : parseGitStatusLine (entry.line Q) = some (entry.parsedPath Q, entry.code) := by
  have hprinted := printed_ne_nil (Q := Q) entry
  rw [parseGitStatusLine, trimEnd_line]
  simp only [StatusEntry.line, trimText_of_ends (head_printed entry) (last_printed entry), hprinted,
    decide_false, Bool.or_self, Bool.false_eq_true, if_false]
  rfl

theorem path_of_parsedPath {entry other : StatusEntry} (hcode : entry.code = other.code)
    (hpath : entry.parsedPath Q = other.parsedPath Q) : entry.path = other.path := by
  have hrenamed : entry.renamedFrom.isSome = other.renamedFrom.isSome := by
    rw [← isRenameCode_code, hcode, isRenameCode_code]
  rw [StatusEntry.parsedPath, StatusEntry.printed, StatusEntry.parsedPath,
    StatusEntry.printed] at hpath
  cases hold : entry.renamedFrom with
  | none =>
    cases hold' : other.renamedFrom with
    | none =>
      rw [hold, hold'] at hpath
      exact Quoting.unquote_print_inj hpath
    | some old' => rw [hold, hold'] at hrenamed; cases hrenamed
  | some old =>
    cases hold' : other.renamedFrom with
    | none => rw [hold, hold'] at hrenamed; cases hrenamed
    | some old' =>
      rw [hold, hold'] at hpath
      exact Quoting.unquote_arrow_inj (entry.renamedFrom_ne old hold) entry.path_ne
        (other.renamedFrom_ne old' hold') other.path_ne hpath

theorem trackedPaths_records (entries : List StatusEntry) :
    trackedPaths false (entries.flatMap StatusEntry.records) =
      (entries.filter StatusEntry.isTracked).map StatusEntry.path := by
  induction entries with
  | nil => rfl
  | cons entry entries ih =>
    have hlength : ¬(entry.index :: entry.worktree :: ' ' :: entry.path).length < 4 := by
      have hpath := List.length_pos_of_ne_nil entry.path_ne
      simp only [List.length_cons]
      omega
    -- The record of the old path of a rename is skipped.
    have hskip : trackedPaths (isRenameCode entry.code)
        (entry.renamedFrom.toList ++ entries.flatMap StatusEntry.records) =
        trackedPaths false (entries.flatMap StatusEntry.records) := by
      rw [isRenameCode_code]
      cases entry.renamedFrom <;> rfl
    have htracked : (decide (entry.code ≠ ['?', '?']) && decide (entry.code ≠ ['!', '!'])) =
        entry.isTracked := by
      rw [StatusEntry.isTracked, Bool.decide_and]
    rw [List.flatMap_cons, StatusEntry.records, List.cons_append, trackedPaths, if_neg hlength]
    show (if (decide (entry.code ≠ ['?', '?']) && decide (entry.code ≠ ['!', '!'])) = true then
        entry.path :: trackedPaths (isRenameCode entry.code) _
      else trackedPaths (isRenameCode entry.code) _) = _
    rw [hskip, ih, htracked, List.filter_cons]
    split <;> rfl

end Lines

/-! ### What a snapshot has -/

section Snapshot

variable {tools : SnapshotTools} {w : ProposalWorld} {snapshot : ProposalFlowStateSnapshot}

theorem mapGet_sorted {lines : List (List Char)} (hsorted : lines.Pairwise (· ≤ ·))
    {line : List Char} (hmem : line ∈ lines) {key : GitPath} {code : List Char}
    (hparse : parseGitStatusLine line = some (key, code))
    (hlast : ∀ other ∈ lines, ∀ code', parseGitStatusLine other = some (key, code') →
      other ≤ line) : mapGet (statusLinesToPathMap lines) key = some code := by
  induction lines with
  | nil => cases hmem
  | cons first lines ih =>
    rw [List.pairwise_cons] at hsorted
    have hrest : ∀ code', mapGet (statusLinesToPathMap lines) key = some code' →
        line = first → code' = code := by
      intro code' hget hfirst
      obtain ⟨other, hother, hparse'⟩ := List.mem_filterMap.mp (mem_of_mapGet hget)
      -- The lines are in order, so a later line with the path is the same line again.
      have hle := hlast other (List.mem_cons_of_mem _ hother) code' hparse'
      have hge := hsorted.1 other hother
      rw [← hfirst] at hge
      rw [le_antisymm hle hge, hparse] at hparse'
      cases hparse'
      rfl
    have hcons : statusLinesToPathMap (first :: lines) =
        (parseGitStatusLine first).toList ++ statusLinesToPathMap lines := by
      rw [statusLinesToPathMap, List.filterMap_cons]
      cases parseGitStatusLine first <;> rfl
    rw [hcons]
    rcases List.mem_cons.mp hmem with hfirst | hmem
    · rw [← hfirst, hparse]
      show mapGet ((key, code) :: statusLinesToPathMap lines) key = some code
      rw [mapGet_cons, if_pos rfl]
      cases hget : mapGet (statusLinesToPathMap lines) key with
      | none => rfl
      | some code' => rw [hrest code' hget hfirst]; rfl
    · have hget := ih hsorted.2 hmem fun other hother => hlast other (List.mem_cons_of_mem _ hother)
      cases parseGitStatusLine first with
      | none => exact hget
      | some entry =>
        show mapGet (entry :: statusLinesToPathMap lines) key = some code
        rw [mapGet_cons, hget]
        rfl

/-- The tracked paths that `git status` reports. -/
def trackedOf (w : ProposalWorld) : List GitPath :=
  ((w.entries.filter StatusEntry.isTracked).map StatusEntry.path).eraseDups

theorem mem_trackedOf {entry : StatusEntry} (hmem : entry ∈ w.entries)
    (htracked : entry.isTracked = true) : entry.path ∈ trackedOf w :=
  List.mem_eraseDups.mpr (List.mem_map.mpr ⟨entry, List.mem_filter.mpr ⟨hmem, htracked⟩, rfl⟩)

/-- A snapshot of the world.

- `head`, `lines`, `tasks`: what the commands print.
- `fingerprint`: each tracked path has the fingerprint of what is there. -/
structure SnapshotOf (tools : SnapshotTools) (w : ProposalWorld)
    (snapshot : ProposalFlowStateSnapshot) : Prop where
  read : WasRead w
  head : snapshot.head = w.head.getD ""
  sorted : snapshot.statusLines.Pairwise (· ≤ ·)
  mem_lines : ∀ line, line ∈ snapshot.statusLines ↔
    line ∈ w.entries.map (StatusEntry.line tools.quoting)
  fingerprint : ∀ path ∈ trackedOf w,
    mapGet snapshot.trackedContentFingerprints path =
      some ⟨w.index path, captureWorktreeFingerprint tools (w.files path)⟩
  tasks : snapshot.tasks = (tryRunBdJson w).filterMap normalizeTaskRecord

theorem gitText_ok {α : Type} {error : Option String} {output result : α}
    (h : gitText error output = .ok result) : error = none ∧ result = output := by
  cases error with
  | none => cases h; exact ⟨rfl, rfl⟩
  | some message => cases h

theorem parseTracked_records :
    parseTrackedPathsFromNullStatus (w.entries.flatMap StatusEntry.records) = trackedOf w := by
  rw [parseTrackedPathsFromNullStatus, trackedPaths_records, trackedOf]

theorem snapshotOf_capture (h : captureProposalFlowStateSnapshot tools w = .ok snapshot) :
    SnapshotOf tools w snapshot := by
  rw [captureProposalFlowStateSnapshot] at h
  simp only [bind, Except.bind] at h
  split at h
  · cases h
  rename_i output houtput
  obtain ⟨hstatus, rfl⟩ := gitText_ok houtput
  split at h
  · cases h
  rename_i fingerprints hfingerprints
  cases h
  rw [captureTrackedContentFingerprints, hstatus] at hfingerprints
  simp only [gitText, bind, Except.bind, parseTracked_records] at hfingerprints
  have hempty : (trackedOf w).isEmpty = true → ∀ path, path ∉ trackedOf w := by
    intro hnil path hpath
    rw [List.isEmpty_iff.mp hnil] at hpath
    cases hpath
  -- Without a tracked path `git ls-files` is not run.
  have hread : (∀ path ∈ trackedOf w, w.lsFilesError = none) ∧
      ∀ path ∈ trackedOf w, mapGet fingerprints path =
        some ⟨w.index path, captureWorktreeFingerprint tools (w.files path)⟩ := by
    cases hnil : (trackedOf w).isEmpty with
    | true =>
      exact ⟨fun path hpath => absurd hpath (hempty hnil path),
        fun path hpath => absurd hpath (hempty hnil path)⟩
    | false =>
      rw [hnil] at hfingerprints
      cases hls : w.lsFilesError with
      | some message => rw [hls] at hfingerprints; cases hfingerprints
      | none =>
        rw [hls] at hfingerprints
        cases hfingerprints
        exact ⟨fun _ _ => rfl, fun path hpath => mapGet_map _ hpath⟩
  refine ⟨⟨hstatus, fun ⟨entry, hmem, htracked⟩ => hread.1 _ (mem_trackedOf hmem htracked)⟩, rfl,
    List.pairwise_insertionSort _ _, fun line => ?_, hread.2, rfl⟩
  show line ∈ (((w.entries.map (StatusEntry.line tools.quoting)).map trimEnd).filter
    (· ≠ [])).insertionSort (· ≤ ·) ↔ _
  have hlines : (w.entries.map (StatusEntry.line tools.quoting)).map trimEnd =
      w.entries.map (StatusEntry.line tools.quoting) := by
    rw [List.map_map]
    exact List.map_congr_left fun entry _ => trimEnd_line entry
  rw [hlines, List.mem_insertionSort, List.mem_filter]
  refine ⟨fun hline => hline.1, fun hline => ⟨hline, ?_⟩⟩
  obtain ⟨entry, -, rfl⟩ := List.mem_map.mp hline
  exact decide_eq_true (List.cons_ne_nil _ _)

theorem mapGet_counts (h : SnapshotOf tools w snapshot) {entry : StatusEntry}
    (hcounts : Counts tools.quoting w entry) :
    mapGet (statusLinesToPathMap snapshot.statusLines) (entry.parsedPath tools.quoting) =
      some entry.code := by
  have hmem : entry.line tools.quoting ∈ snapshot.statusLines :=
    (h.mem_lines _).mpr (List.mem_map.mpr ⟨entry, hcounts.1, rfl⟩)
  refine mapGet_sorted h.sorted hmem (parse_line entry) ?_
  intro line hline code hparse
  obtain ⟨other, hother, rfl⟩ := List.mem_map.mp ((h.mem_lines line).mp hline)
  rw [parse_line] at hparse
  exact hcounts.2 other hother (congrArg Prod.fst (Option.some.inj hparse))

theorem exists_entry (h : SnapshotOf tools w snapshot) {key : GitPath} {code : List Char}
    (hget : mapGet (statusLinesToPathMap snapshot.statusLines) key = some code) :
    ∃ entry ∈ w.entries, entry.parsedPath tools.quoting = key ∧ entry.code = code := by
  obtain ⟨line, hline, hparse⟩ := List.mem_filterMap.mp (mem_of_mapGet hget)
  obtain ⟨entry, hmem, rfl⟩ := List.mem_map.mp ((h.mem_lines line).mp hline)
  rw [parse_line] at hparse
  cases hparse
  exact ⟨entry, hmem, rfl, rfl⟩

end Snapshot

/-! ### Two snapshots without a mutation -/

section Compare

variable {tools : SnapshotTools} {w w' : ProposalWorld}
  {before after : ProposalFlowStateSnapshot}

/-- What `detectProposalFlowMutations` has found to be the same. -/
structure Agrees (before after : ProposalFlowStateSnapshot) : Prop where
  head : before.head = after.head
  lines : ∀ key, mapGet (statusLinesToPathMap before.statusLines) key =
    mapGet (statusLinesToPathMap after.statusLines) key
  contents : ∀ path, path ∈ mapKeys before.trackedContentFingerprints →
    path ∈ mapKeys after.trackedContentFingerprints →
    mapGet before.trackedContentFingerprints path = mapGet after.trackedContentFingerprints path
  tasks : ∀ id, mapGet (buildTaskIdSnapshotMap before.tasks) id =
    mapGet (buildTaskIdSnapshotMap after.tasks) id

theorem Agrees.symm (h : Agrees before after) : Agrees after before where
  head := h.head.symm
  lines key := (h.lines key).symm
  contents path hafter hbefore := (h.contents path hbefore hafter).symm
  tasks id := (h.tasks id).symm

theorem not_of_singleton {α : Type} {p : Prop} [Decidable p] {item : α}
    (h : (if p then [item] else []) = []) : ¬p := by
  intro hp
  rw [if_pos hp] at h
  cases h

theorem isEmpty_of_not {α : Type} {items : List α} (h : (!items.isEmpty) = false) :
    items = [] := by
  cases items with
  | nil => rfl
  | cons item items => cases h

theorem agrees_of_detect (h : (detectProposalFlowMutations before after).hasMutations = false) :
    Agrees before after := by
  have hparts := Bool.or_eq_false_iff.mp h
  obtain ⟨hhead, htree⟩ := List.append_eq_nil_iff.mp (isEmpty_of_not hparts.1)
  have hchanges := not_of_singleton htree
  have htasks := not_of_singleton (isEmpty_of_not hparts.2)
  simp only [Bool.not_eq_true, Bool.or_eq_false_iff] at hchanges
  rw [Bool.not_eq_true, hasKeyedDiff, Bool.or_eq_false_iff, Bool.or_eq_false_iff] at htasks
  -- No path is on the list of the changed ones, so neither difference has one.
  have hchanged : ∀ path, path ∉ (diffStringKeyedMaps (statusLinesToPathMap before.statusLines)
        (statusLinesToPathMap after.statusLines)).changed ++
      (diffStringKeyedMaps before.trackedContentFingerprints
        after.trackedContentFingerprints).changed := by
    intro path hpath
    have hmem := List.mem_eraseDups.mpr hpath
    rw [isEmpty_of_not hchanges.2] at hmem
    cases hmem
  have hnil := List.append_eq_nil_iff.mp (List.eq_nil_iff_forall_not_mem.mpr hchanged)
  exact {
    head := not_not.mp (not_of_singleton hhead)
    lines := fun key =>
      mapGet_of_no_diff (isEmpty_of_not hchanges.1.1) (isEmpty_of_not hchanges.1.2) hnil.1
    contents := fun path hbefore hafter => mapGet_of_not_changed hnil.2 hbefore hafter
    tasks := fun id =>
      mapGet_of_no_diff (isEmpty_of_not htasks.1.1) (isEmpty_of_not htasks.1.2)
        (isEmpty_of_not htasks.2) }

theorem same_of_fingerprint {file file' : WorktreeFile}
    (h : captureWorktreeFingerprint tools file = captureWorktreeFingerprint tools file') :
    file = file' ∨ Collision tools file file' := by
  cases file with
  | file executable content =>
    cases file' with
    | file executable' content' =>
      obtain ⟨hexecutable, hhash⟩ := WorktreeFingerprint.file.inj h
      by_cases hcontent : content = content'
      · exact .inl (by rw [hexecutable, hcontent])
      · exact .inr ⟨hcontent, hhash⟩
    | _ => cases h
  | symlink target =>
    cases file' with
    | symlink target' =>
      by_cases htarget : target = target'
      · exact .inl (by rw [htarget])
      · exact .inr ⟨htarget, WorktreeFingerprint.symlink.inj h⟩
    | _ => cases h
  | _ =>
    cases file' with
    | file => cases h
    | symlink => cases h
    | _ => first | exact .inl rfl | cases h

theorem sameEntry_of_agrees (hbefore : SnapshotOf tools w before)
    (hafter : SnapshotOf tools w' after) (h : Agrees before after) {entry : StatusEntry}
    (hcounts : Counts tools.quoting w entry) : SameEntry tools w w' entry := by
  have hget := (h.lines _).symm.trans (mapGet_counts hbefore hcounts)
  obtain ⟨other, hmem, hparsed, hcode⟩ := exists_entry hafter hget
  have hpath : other.path = entry.path := path_of_parsedPath hcode hparsed
  -- A tracked entry has the code of a tracked one, so both snapshots have its fingerprint.
  have hfingerprint : entry.isTracked = true →
      (⟨w.index entry.path, captureWorktreeFingerprint tools (w.files entry.path)⟩ :
        ContentFingerprint) =
      ⟨w'.index entry.path, captureWorktreeFingerprint tools (w'.files entry.path)⟩ := by
    intro htracked
    have htracked' : other.isTracked = true := by rwa [StatusEntry.isTracked, hcode]
    have hpaths := mem_trackedOf hmem htracked'
    rw [hpath] at hpaths
    have hprint := hbefore.fingerprint _ (mem_trackedOf hcounts.1 htracked)
    have hprint' := hafter.fingerprint _ hpaths
    have hsame := h.contents entry.path (mem_mapKeys.mpr (by rw [hprint]; rfl))
      (mem_mapKeys.mpr (by rw [hprint']; rfl))
    rw [hprint, hprint'] at hsame
    exact Option.some.inj hsame
  exact {
    reported := ⟨other, hmem, hpath, hcode⟩
    index := fun htracked => (ContentFingerprint.mk.inj (hfingerprint htracked)).1
    worktree := fun htracked =>
      same_of_fingerprint (ContentFingerprint.mk.inj (hfingerprint htracked)).2 }

theorem mapGet_tasks (tasks : List Record) (id : String) :
    mapGet (buildTaskIdSnapshotMap tasks) id =
      (tasks.reverse.find? fun task => readTaskId task = some id).map
        fun task => canonical (.obj task) := by
  induction tasks with
  | nil => rfl
  | cons task tasks ih =>
    rw [buildTaskIdSnapshotMap, List.filterMap_cons, List.reverse_cons, List.find?_append,
      Option.map_or, ← ih]
    cases hid : readTaskId task with
    | none => simp [hid, buildTaskIdSnapshotMap]
    | some own =>
      show mapGet ((own, canonical (.obj task)) :: buildTaskIdSnapshotMap tasks) id = _
      rw [mapGet_cons]
      congr 1
      by_cases hown : id = own
      · simp [hid, hown]
      · simp [hid, hown, Ne.symm hown]

theorem kept_of_agrees (hbefore : SnapshotOf tools w before) (hafter : SnapshotOf tools w' after)
    (h : Agrees before after) : Kept tools w w' where
  read := hbefore.read
  read' := hafter.read
  head := by rw [← hbefore.head, ← hafter.head, h.head]
  entries _ hcounts := sameEntry_of_agrees hbefore hafter h hcounts
  entries' _ hcounts := sameEntry_of_agrees hafter hbefore h.symm hcounts
  tasks := by
    intro output houtput output' houtput' id
    have htasks := h.tasks id
    rwa [hbefore.tasks, hafter.tasks, mapGet_tasks, mapGet_tasks, tryRunBdJson, tryRunBdJson,
      Option.mem_def.mp houtput, Option.mem_def.mp houtput'] at htasks

end Compare

/-! ### The session -/

section Session

variable {T : Type} {tools : SnapshotTools} {input : ProposalSessionInput T}
  {w w' : ProposalWorld} {proposal : T}

theorem refine_not_completed {answers : List RefinementAnswer} {transcript : List String} :
    (refine input answers transcript w).1 ≠ .error (.ok (.completed proposal)) := by
  induction answers generalizing transcript w with
  | nil => exact nofun
  | cons answer answers ih =>
    cases answer with
    | cancelled => exact nofun
    | failed error => exact nofun
    | message text =>
      rw [refine]
      split
      · exact nofun
      · split
        · exact ih
        · exact nofun

theorem agrees_of_concluded {before : ProposalFlowStateSnapshot} {message : String}
    (h : concludeSession tools input before message w = .ok (.completed proposal)) :
    ∃ after, captureProposalFlowStateSnapshot tools w = .ok after ∧ Agrees before after := by
  rw [concludeSession] at h
  split at h
  · cases h
  split at h
  · cases h
  · cases h
  rename_i hmutations
  rw [failOnProposalFlowMutations] at hmutations
  cases hcapture : captureProposalFlowStateSnapshot tools w with
  | error error => rw [hcapture] at hmutations; cases hmutations
  | ok after =>
    rw [hcapture] at hmutations
    refine ⟨after, rfl, agrees_of_detect ?_⟩
    cases hreport : (detectProposalFlowMutations before after).hasMutations with
    | false => rfl
    | true =>
      simp only [bind, Except.bind, hreport] at hmutations
      cases hmutations

theorem agrees_of_completed (h : runProposalSession tools input w = (.ok (.completed proposal), w')) :
    ∃ before after, captureProposalFlowStateSnapshot tools w = .ok before ∧
      captureProposalFlowStateSnapshot tools w' = .ok after ∧ Agrees before after := by
  rw [runProposalSession] at h
  split at h
  · cases h
  rename_i before hbefore
  split at h
  · cases h
  rename_i draft w₁ hdraft
  split at h
  · rename_i result w₂ hrefine
    cases h
    exact absurd (congrArg Prod.fst hrefine) refine_not_completed
  rename_i transcript w₂ hrefine
  split at h
  · cases h
  rename_i message w₃ hfinal
  obtain ⟨hresult, rfl⟩ := Prod.mk.inj h
  obtain ⟨after, hafter, hagrees⟩ := agrees_of_concluded hresult
  exact ⟨before, after, hbefore, hafter, hagrees⟩

/-! ### Main result -/

end Session

/-! ### A session that completes -/

/-- A repository with a renamed file, a changed file, a file that is not tracked, and two tasks. -/
def dirtyWorld : ProposalWorld where
  head := some "4b825dc"
  entries := [
    { index := 'R', worktree := ' ', path := "src/new name.ts".toList,
      renamedFrom := some "src/old.ts".toList },
    { index := ' ', worktree := 'M', path := "src/main.ts".toList },
    { index := '?', worktree := '?', path := "notes.txt".toList }]
  index := fun _ => [⟨"100644", "e69de29", 0⟩]
  files := fun _ => .file false [97]
  tasks := [[("id", .str "t1")], [("id", .str "t2")]]
  bdOutput := some (.arr [.obj [("id", .str "t1")], .obj [("id", .str "t2")]])

/-- The same with another content in `notes.txt`. -/
def notedWorld : ProposalWorld :=
  { dirtyWorld with
    files := fun path => .file false (if path = "notes.txt".toList then [98] else [97]) }

def sampleTools : SnapshotTools where
  quoting := .backslash
  hash content := String.ofList (content.map fun byte => Char.ofNat byte.toNat)

/-- The agent drafts, and on the last turn it writes `notes.txt`. -/
def notingInput : ProposalSessionInput Unit where
  agentInvoker phase _ w := (.ok "proposal", if phase = .finalization then notedWorld else w)
  oneShot := true
  extract _ := .ok ()
  approve := .approved

theorem completed_noting :
    runProposalSession sampleTools notingInput dirtyWorld = (.ok (.completed ()), notedWorld) := by
  rfl

end ArchLoop.Proposal
