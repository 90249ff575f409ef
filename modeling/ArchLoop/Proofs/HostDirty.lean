import ArchLoop.HostDirty

/-!
# `ArchLoop.Proofs.HostDirty`: when the snapshots show every change

`gitText` takes the blanks off the whole status text. The first line of a status so loses the
column of an index that the file does not differ from, and its path is cut one character late:
of ` M abc` the Hub records `bc`. A file that was renamed from `->` is not found either.

`pathRead` says which path each line is taken for, and `contents_eq` that the contents are what
the nodes at these paths hold. `hostDirtyGuarded_iff` then says when the snapshot holds every
dirty file, and no change goes unseen.
-/

set_option autoImplicit false

namespace ArchLoop

open ArchLoop.Lib

/-! ### Lines -/

theorem StatusColumn.letter_le (column : StatusColumn) : column.letter.toNat ≤ 0xFFFF := by
  cases column <;> decide

theorem StatusColumn.letter_ne_dash (column : StatusColumn) : column.letter ≠ '-' := by
  cases column <;> decide

theorem StatusColumn.letter_ne_break (column : StatusColumn) : column.letter ≠ '\n' := by
  cases column <;> decide

theorem StatusColumn.isBlank_letter (column : StatusColumn) :
    isBlank column.letter = (column == .unmodified) := by
  cases column <;> decide

theorem not_isBlank_of_isPlainChar {c : Char} (h : isPlainChar c = true) : isBlank c = false := by
  simp only [isPlainChar, Bool.and_eq_true, Bool.not_eq_true'] at h
  exact h.1.1.1.1

theorem isBlank_break : isBlank '\n' = true := by decide

theorem isBlank_space : isBlank ' ' = true := by decide

namespace IsPlainPath

variable {path : String}

theorem not_isBlank (h : IsPlainPath path) : ∀ c ∈ path.toList, isBlank c = false :=
  fun c hc => not_isBlank_of_isPlainChar (List.all_eq_true.mp h.chars c hc)

theorem space_notMem (h : IsPlainPath path) : ' ' ∉ path.toList := by
  intro hmem
  have hblank := h.not_isBlank ' ' hmem
  rw [isBlank_space] at hblank
  cases hblank

theorem break_notMem (h : IsPlainPath path) : '\n' ∉ path.toList := by
  intro hmem
  have hblank := h.not_isBlank '\n' hmem
  rw [isBlank_break] at hblank
  cases hblank

end IsPlainPath

def HostStatusEntry.slash (entry : HostStatusEntry) : List Char :=
  if entry.directory then ['/'] else []

theorem dropTrailingSlash_append {l tail : List Char} (hl : l.getLast? ≠ some '/')
    (htail : tail = [] ∨ tail = ['/']) :
    dropTrailingSlash (String.ofList (l ++ tail)) = String.ofList l := by
  rcases htail with rfl | rfl
  · rw [List.append_nil, dropTrailingSlash, String.toList_ofList, if_neg hl]
  · rw [dropTrailingSlash, String.toList_ofList, if_pos (by simp), List.dropLast_concat]

/-! ### Arrows -/

theorem renameTarget_eq_none {l : List Char} (h : ' ' ∉ l.tail) : renameTarget l = none := by
  induction l with
  | nil => rfl
  | cons c rest ih =>
    have htake : (c :: rest).take 4 ≠ " -> ".toList := by
      intro heq
      have hmem : ' ' ∈ rest.take 3 := by
        have htail := congrArg List.tail heq
        rw [List.take_succ_cons, List.tail_cons] at htail
        rw [htail]
        decide
      exact h (List.mem_of_mem_take hmem)
    rw [renameTarget, if_neg fun hmatch => htake hmatch.1]
    exact ih fun hmem => h (List.mem_of_mem_tail hmem)

theorem renameTarget_append {old target : List Char} (hold : ' ' ∉ old) (hne : target ≠ [])
    (hline : target.all (!isLineTerminator ·) = true) :
    renameTarget (old ++ " -> ".toList ++ target) = some target := by
  induction old with
  | nil => exact if_pos ⟨rfl, hne, hline⟩
  | cons c old ih =>
    have hc : c ≠ ' ' := fun heq => hold (heq ▸ List.mem_cons_self)
    have htake : (c :: (old ++ " -> ".toList ++ target)).take 4 ≠ " -> ".toList := by
      intro heq
      rw [List.take_succ_cons] at heq
      exact hc (List.cons.inj heq).1
    rw [List.cons_append, List.cons_append, renameTarget, if_neg fun hmatch => htake hmatch.1]
    exact ih fun hmem => hold (List.mem_cons_of_mem _ hmem)

theorem renameTarget_cons {c d : Char} {rest : List Char} (h : d ≠ '-') :
    renameTarget (c :: d :: rest) = renameTarget (d :: rest) := by
  rw [renameTarget, if_neg]
  rintro ⟨htake, -⟩
  rw [List.take_succ_cons, List.take_succ_cons] at htake
  exact h (List.cons.inj (List.cons.inj htake).2).1

/-- The first arrow of a line about a rename is the one that Git prints, unless the path before it
looks like an arrow. -/
theorem renameTarget_source {old target : List Char} (hold : ' ' ∉ old) (holdne : old ≠ [])
    (hne : target ≠ []) (hline : target.all (!isLineTerminator ·) = true) :
    renameTarget (' ' :: (old ++ " -> ".toList ++ target)) =
      some (if old = "->".toList then "-> ".toList ++ target else target) := by
  by_cases harrow : old = "->".toList
  · subst harrow
    rw [if_pos rfl]
    have hall : ("-> ".toList ++ target).all (!isLineTerminator ·) = true := by
      rw [List.all_append, hline]
      decide
    exact if_pos ⟨rfl, by simp, hall⟩
  · rw [if_neg harrow]
    have htake : (' ' :: (old ++ " -> ".toList ++ target)).take 4 ≠ " -> ".toList := by
      intro heq
      -- Three characters of the old path and the blank behind it would make up the arrow.
      rcases old with _ | ⟨a, _ | ⟨b, _ | ⟨c, old⟩⟩⟩
      · exact holdne rfl
      · simp at heq
      · simp at heq
        exact harrow (by simp [heq])
      · simp at heq
        exact hold (by simp [heq])
    rw [renameTarget, if_neg fun hmatch => htake hmatch.1]
    exact renameTarget_append hold hne hline

/-! ### The path of a line -/

def HostStatusEntry.pathRead (isFirst : Bool) (entry : HostStatusEntry) : String :=
  match entry.renamedFrom with
  | some old =>
    if old.toList = "->".toList then String.ofList ("-> ".toList ++ entry.path.toList)
    else entry.path
  | none =>
    if isFirst ∧ entry.index = .unmodified then String.ofList (slice 1 entry.path.toList)
    else entry.path

/-- The paths that the lines of the status are taken for. -/
def HostDirtyState.pathsRead (s : HostDirtyState) : List String :=
  match s.entries with
  | [] => []
  | first :: rest => first.pathRead true :: rest.map (HostStatusEntry.pathRead false)

section Entry

variable (entry : HostStatusEntry)

theorem slash_cases : entry.slash = [] ∨ entry.slash = ['/'] := by
  unfold HostStatusEntry.slash
  split
  · exact Or.inr rfl
  · exact Or.inl rfl

theorem mem_slash {c : Char} (h : c ∈ entry.slash) : c = '/' := by
  rcases slash_cases entry with hslash | hslash
  · rw [hslash] at h
    cases h
  · rw [hslash] at h
    exact List.mem_singleton.mp h

theorem printed_eq : entry.printed = (match entry.renamedFrom with
    | some old => old.toList ++ " -> ".toList ++ (entry.path.toList ++ entry.slash)
    | none => entry.path.toList ++ entry.slash) := by
  unfold HostStatusEntry.printed HostStatusEntry.slash
  cases entry.renamedFrom with
  | none => rfl
  | some old => exact List.append_assoc _ _ _

theorem not_isBlank_path : ∀ c ∈ entry.path.toList ++ entry.slash, isBlank c = false := by
  intro c hc
  rcases List.mem_append.mp hc with hpath | hslash
  · exact entry.path_plain.not_isBlank c hpath
  · rw [mem_slash entry hslash]
    decide

theorem all_not_isLineTerminator :
    (entry.path.toList ++ entry.slash).all (!isLineTerminator ·) = true := by
  rw [List.all_eq_true]
  intro c hc
  have hblank := not_isBlank_path entry c hc
  rw [Bool.not_eq_true']
  -- Each line terminator is a blank.
  by_contra hterminator
  rw [Bool.not_eq_false] at hterminator
  simp only [isLineTerminator, Bool.or_eq_true, beq_iff_eq] at hterminator
  rcases hterminator with ((rfl | rfl) | rfl) | rfl <;> exact absurd hblank (by decide)

theorem renameTarget_line (front : List Char)
    (hfront : front = [entry.index.letter, entry.worktree.letter] ∨
      front = [entry.worktree.letter]) :
    renameTarget (front ++ ' ' :: entry.printed) = entry.renamedFrom.map fun old =>
      if old.toList = "->".toList then "-> ".toList ++ (entry.path.toList ++ entry.slash)
      else entry.path.toList ++ entry.slash := by
  have hcolumns : renameTarget (front ++ ' ' :: entry.printed) =
      renameTarget (' ' :: entry.printed) := by
    rcases hfront with rfl | rfl
    · rw [List.cons_append, List.cons_append, List.nil_append,
        renameTarget_cons entry.worktree.letter_ne_dash, renameTarget_cons (by decide)]
    · rw [List.cons_append, List.nil_append, renameTarget_cons (by decide)]
  rw [hcolumns, printed_eq]
  cases hrenamed : entry.renamedFrom with
  | none =>
    refine renameTarget_eq_none fun hmem => ?_
    have hblank := not_isBlank_path entry ' ' hmem
    rw [isBlank_space] at hblank
    cases hblank
  | some old =>
    have hold := entry.renamedFrom_plain old hrenamed
    exact renameTarget_source hold.space_notMem hold.ne (by simp [entry.path_plain.ne])
      (all_not_isLineTerminator entry)

theorem slice_columns (rest : List Char) :
    slice 3 (entry.index.letter :: entry.worktree.letter :: ' ' :: rest) = rest := by
  have hindex := entry.index.letter_le
  have hworktree := entry.worktree.letter_le
  rw [slice, if_neg (by omega), slice, if_neg (by omega), slice, if_neg (by decide)]

theorem slice_column (rest : List Char) :
    slice 3 (entry.worktree.letter :: ' ' :: rest) = slice 1 rest := by
  have hworktree := entry.worktree.letter_le
  rw [slice, if_neg (by omega), slice, if_neg (by decide)]

theorem slice_path : slice 1 (entry.path.toList ++ entry.slash) =
    slice 1 entry.path.toList ++ entry.slash := by
  cases hpath : entry.path.toList with
  | nil => exact absurd hpath entry.path_plain.ne
  | cons c rest =>
    rw [List.cons_append, slice, slice]
    split
    · rfl
    · rfl

theorem slice_one_plain : (∀ c ∈ slice 1 entry.path.toList, isBlank c = false) ∧
    (slice 1 entry.path.toList).getLast? ≠ some '/' := by
  have hblank := entry.path_plain.not_isBlank
  have hlast := entry.path_plain.last
  cases hpath : entry.path.toList with
  | nil => exact absurd hpath entry.path_plain.ne
  | cons c rest =>
    rw [hpath] at hblank hlast
    rw [slice]
    split
    · constructor
      · intro d hd
        rcases List.mem_cons.mp hd with rfl | hrest
        · decide
        · exact hblank d (List.mem_cons_of_mem _ hrest)
      · cases rest with
        | nil => decide
        | cons d rest => rwa [List.getLast?_cons_cons] at hlast ⊢
    · constructor
      · exact fun d hd => hblank d (List.mem_cons_of_mem _ hd)
      · cases rest with
        | nil => simp
        | cons d rest => rwa [List.getLast?_cons_cons] at hlast

theorem dropTrailingSlash_trim {l : List Char} (hhead : ∀ c ∈ l.head?, isBlank c = false)
    (hlast : ∀ c ∈ l.getLast?, isBlank c = false) (hslash : l.getLast? ≠ some '/') :
    dropTrailingSlash (trim (String.ofList (l ++ entry.slash))) = String.ofList l := by
  have hdash : isBlank '/' = false := by decide
  have htrim : trim (String.ofList (l ++ entry.slash)) = String.ofList (l ++ entry.slash) := by
    rcases slash_cases entry with h | h
    · rw [h, List.append_nil]
      exact trim_ofList hhead hlast
    · rw [h]
      refine trim_ofList ?_ (by simp [hdash])
      cases l with
      | nil => simp [hdash]
      | cons c l => exact hhead
  rw [htrim]
  exact dropTrailingSlash_append hslash (slash_cases entry)

theorem pathOfLine_eq (front : List Char) (isFirst : Bool)
    (hfront : front = [entry.index.letter, entry.worktree.letter] ∧
        (isFirst = true → entry.index ≠ .unmodified) ∨
      front = [entry.worktree.letter] ∧ isFirst = true ∧ entry.index = .unmodified) :
    pathOfLine (String.ofList (front ++ ' ' :: entry.printed)) = entry.pathRead isFirst := by
  have hblank := entry.path_plain.not_isBlank
  have htarget := renameTarget_line entry front (hfront.imp And.left And.left)
  have hpath : dropTrailingSlash (trim (String.ofList (entry.path.toList ++ entry.slash))) =
      entry.path := by
    rw [dropTrailingSlash_trim entry (fun c hc => hblank c (List.mem_of_mem_head? hc))
      (fun c hc => hblank c (List.mem_of_mem_getLast? hc)) entry.path_plain.last,
      String.ofList_toList]
  rw [pathOfLine, String.toList_ofList, htarget]
  unfold HostStatusEntry.pathRead
  cases hrenamed : entry.renamedFrom with
  | some old =>
    rw [Option.map_some, Option.getD_some]
    dsimp only
    split
    · have hlastne : ("-> ".toList ++ entry.path.toList).getLast? = entry.path.toList.getLast? :=
        List.getLast?_append_of_ne_nil _ entry.path_plain.ne
      rw [← List.append_assoc, dropTrailingSlash_trim]
      · intro c hc
        cases hc
        decide
      · rw [hlastne]
        exact fun c hc => hblank c (List.mem_of_mem_getLast? hc)
      · rw [hlastne]
        exact entry.path_plain.last
    · exact hpath
  | none =>
    rw [Option.map_none, Option.getD_none, printed_eq, hrenamed]
    dsimp only
    rcases hfront with ⟨rfl, hindex⟩ | ⟨rfl, hfirst, hindex⟩
    · rw [if_neg fun h => hindex h.1 h.2, List.cons_append, List.cons_append, List.nil_append,
        slice_columns]
      exact hpath
    · obtain ⟨hcut, hslash⟩ := slice_one_plain entry
      rw [if_pos ⟨hfirst, hindex⟩, List.cons_append, List.nil_append, slice_column, slice_path]
      exact dropTrailingSlash_trim entry (fun c hc => hcut c (List.mem_of_mem_head? hc))
        (fun c hc => hcut c (List.mem_of_mem_getLast? hc)) hslash

theorem break_notMem_line : '\n' ∉ entry.line := by
  have htail : '\n' ∉ entry.path.toList ++ entry.slash := by
    intro hmem
    have hblank := not_isBlank_path entry '\n' hmem
    rw [isBlank_break] at hblank
    cases hblank
  have hprinted : '\n' ∉ entry.printed := by
    rw [printed_eq]
    cases hrenamed : entry.renamedFrom with
    | none => exact htail
    | some old =>
      have hold := (entry.renamedFrom_plain old hrenamed).break_notMem
      have harrow : '\n' ∉ " -> ".toList := by decide
      simp only [List.mem_append, not_or] at htail ⊢
      exact ⟨⟨hold, harrow⟩, htail⟩
  rw [HostStatusEntry.line]
  simp only [List.mem_cons, not_or]
  exact ⟨entry.index.letter_ne_break.symm, entry.worktree.letter_ne_break.symm, by decide,
    hprinted⟩

theorem getLast_line : ∃ c ∈ entry.line.getLast?, isBlank c = false := by
  have hne : entry.path.toList ++ entry.slash ≠ [] := by simp [entry.path_plain.ne]
  obtain ⟨c, hc⟩ := List.getLast?_isSome.mpr hne |> Option.isSome_iff_exists.mp
  have hprinted : ∃ start, entry.printed = start ++ (entry.path.toList ++ entry.slash) := by
    rw [printed_eq]
    cases entry.renamedFrom with
    | none => exact ⟨[], rfl⟩
    | some old => exact ⟨_, rfl⟩
  obtain ⟨start, hstart⟩ := hprinted
  have hline : entry.line = (entry.index.letter :: entry.worktree.letter :: ' ' :: start) ++
      (entry.path.toList ++ entry.slash) := by
    rw [HostStatusEntry.line, hstart]
    rfl
  refine ⟨c, ?_, not_isBlank_path entry c (List.mem_of_mem_getLast? hc)⟩
  rw [hline, List.getLast?_append_of_ne_nil _ hne]
  exact hc

/-- The path that a line is taken for is recorded, unless nothing is left of it. -/
def recordPath (nodes : String → HostNode) (contents : HostContents) (path : String) :
    HostContents :=
  if path = "" then contents else contents.assign path (nodes path).recorded

theorem recordLine_eq (nodes : String → HostNode) (contents : HostContents) {line : List Char}
    (hend : ∃ c ∈ line.getLast?, isBlank c = false) :
    recordLine nodes contents (String.ofList line) =
      recordPath nodes contents (pathOfLine (String.ofList line)) := by
  obtain ⟨c, hc, hblank⟩ := hend
  have hmem : c ∈ (trim (String.ofList line)).toList :=
    mem_trim (by rw [String.toList_ofList]; exact List.mem_of_mem_getLast? hc) hblank
  rw [recordLine, if_neg]
  · rfl
  · intro hempty
    rw [hempty] at hmem
    cases hmem

theorem recordLine_line (nodes : String → HostNode) (contents : HostContents) :
    recordLine nodes contents (String.ofList entry.line) =
      recordPath nodes contents (entry.pathRead false) := by
  rw [recordLine_eq nodes contents (getLast_line entry)]
  have hpath := pathOfLine_eq entry [entry.index.letter, entry.worktree.letter] false
    (Or.inl ⟨rfl, by simp⟩)
  exact congrArg (recordPath nodes contents) hpath

theorem recordLine_first (nodes : String → HostNode) (contents : HostContents) :
    recordLine nodes contents (String.ofList (entry.line.dropWhile isBlank)) =
      recordPath nodes contents (entry.pathRead true) := by
  have hindexBlank := entry.index.isBlank_letter
  have hworktreeBlank := entry.worktree.isBlank_letter
  obtain ⟨c, hc, hblank⟩ := getLast_line entry
  have hend : ∃ c ∈ (entry.line.dropWhile isBlank).getLast?, isBlank c = false := by
    obtain ⟨start, hstart⟩ := List.dropWhile_suffix isBlank (l := entry.line)
    have hne : entry.line.dropWhile isBlank ≠ [] := by
      intro hnil
      have hall := List.dropWhile_eq_nil_iff.mp hnil c (List.mem_of_mem_getLast? hc)
      rw [hblank] at hall
      cases hall
    rw [← hstart, List.getLast?_append_of_ne_nil _ hne] at hc
    exact ⟨c, hc, hblank⟩
  rw [recordLine_eq nodes contents hend]
  by_cases hindex : entry.index = .unmodified
  · have hdrop : entry.line.dropWhile isBlank =
        [entry.worktree.letter] ++ ' ' :: entry.printed := by
      have hworktree := entry.changed.resolve_left (not_not_intro hindex)
      rw [HostStatusEntry.line, List.dropWhile_cons_of_pos (by rw [hindexBlank, hindex]; rfl),
        List.dropWhile_cons_of_neg (by simp [hworktreeBlank, hworktree])]
      rfl
    rw [hdrop, pathOfLine_eq entry _ true (Or.inr ⟨rfl, rfl, hindex⟩)]
  · have hdrop : entry.line.dropWhile isBlank =
        [entry.index.letter, entry.worktree.letter] ++ ' ' :: entry.printed := by
      rw [HostStatusEntry.line, List.dropWhile_cons_of_neg (by simp [hindexBlank, hindex])]
      rfl
    rw [hdrop, pathOfLine_eq entry _ true (Or.inl ⟨rfl, fun _ => hindex⟩)]

end Entry

/-- The contents are what the nodes at the paths hold, for the paths that the lines are taken
for. -/
theorem contents_eq (s : HostDirtyState) (nodes : String → HostNode) :
    (splitLines (trim s.gitStatus)).foldl (recordLine nodes) {} =
      s.pathsRead.foldl (recordPath nodes) {} := by
  rw [HostDirtyState.gitStatus, HostDirtyState.pathsRead]
  cases s.entries with
  | nil => rfl
  | cons first rest =>
    have hline : ∀ line ∈ (first :: rest).map (fun entry => String.ofList entry.line),
        ∃ entry ∈ first :: rest, line.toList = entry.line := by
      intro line hmem
      obtain ⟨entry, hentry, rfl⟩ := List.mem_map.mp hmem
      exact ⟨entry, hentry, String.toList_ofList⟩
    rw [List.map_cons, splitLines_trim_unlines_cons, String.toList_ofList, List.foldl_cons,
      List.foldl_cons, recordLine_first, List.foldl_map, List.foldl_map]
    · exact congrArg (fun f => rest.foldl f _)
        (funext fun contents => funext fun entry => recordLine_line entry nodes contents)
    · intro line hmem
      obtain ⟨entry, -, heq⟩ := hline line hmem
      rw [heq]
      exact break_notMem_line entry
    · intro line hmem
      obtain ⟨entry, -, heq⟩ := hline line hmem
      rw [heq]
      exact getLast_line entry

/-! ### Objects -/

namespace HostContents

theorem lookup_put_self (key : String) (value : Option String)
    (properties : List (String × Option String)) :
    (put key value properties).lookup key = some value := by
  induction properties with
  | nil => simp [put]
  | cons property rest ih =>
    obtain ⟨name, old⟩ := property
    rw [put]
    split
    · rename_i hname
      simp [hname]
    · rename_i hname
      rw [List.lookup_cons, beq_false_of_ne (Ne.symm hname)]
      exact ih

theorem lookup_put_of_ne {key other : String} (h : other ≠ key) (value : Option String)
    (properties : List (String × Option String)) :
    (put key value properties).lookup other = properties.lookup other := by
  induction properties with
  | nil => rw [put, List.lookup_cons, beq_false_of_ne h]
  | cons property rest ih =>
    obtain ⟨name, old⟩ := property
    rw [put]
    split
    · rename_i hname
      subst hname
      rw [List.lookup_cons, List.lookup_cons, beq_false_of_ne h]
    · rw [List.lookup_cons, List.lookup_cons, ih]

theorem mem_put {key name : String} {value v : Option String}
    {properties : List (String × Option String)} (h : (name, v) ∈ put key value properties) :
    (name = key ∧ v = value) ∨ (name, v) ∈ properties := by
  induction properties with
  | nil =>
    rw [put, List.mem_singleton] at h
    cases h
    exact Or.inl ⟨rfl, rfl⟩
  | cons property rest ih =>
    obtain ⟨first, old⟩ := property
    rw [put] at h
    split at h
    · rename_i hname
      rcases List.mem_cons.mp h with heq | hrest
      · cases heq
        exact Or.inl ⟨hname, rfl⟩
      · exact Or.inr (List.mem_cons_of_mem _ hrest)
    · rcases List.mem_cons.mp h with heq | hrest
      · exact Or.inr (heq ▸ List.mem_cons_self)
      · exact (ih hrest).imp_right (List.mem_cons_of_mem _)

theorem get_assign_self {contents : HostContents} {key : String} (h : key ≠ "__proto__")
    (value : Option String) : (contents.assign key value).get key = some value := by
  unfold assign
  rw [if_neg fun hproto => h hproto.1]
  exact lookup_put_self key value contents.properties

theorem get_assign_of_ne {contents : HostContents} {key other : String} (h : other ≠ key)
    (value : Option String) : (contents.assign key value).get other = contents.get other := by
  unfold assign
  split
  · cases value with
    | none => rfl
    | some text => rfl
  · exact lookup_put_of_ne h value contents.properties

theorem mem_properties_of_get {contents : HostContents} {key : String} {value : Option String}
    (h : contents.get key = some value) : (key, value) ∈ contents.properties := by
  obtain ⟨front, back, hsplit, -⟩ := List.lookup_eq_some_iff.mp h
  rw [hsplit]
  simp

theorem mem_ownProperties {contents : HostContents} {property : String × Option String} :
    property ∈ contents.ownProperties ↔ property ∈ contents.properties := by
  simp only [ownProperties, List.mem_append, List.mem_map, List.mem_insertionSort,
    List.mem_filterMap, List.mem_filter, Option.map_eq_some_iff, Option.isNone_iff_eq_none]
  constructor
  · rintro (⟨_, ⟨q, hq, n, -, rfl⟩, rfl⟩ | ⟨hmem, -⟩)
    · exact hq
    · exact hmem
  · intro hmem
    cases hindex : arrayIndex property.1 with
    | none => exact Or.inr ⟨hmem, rfl⟩
    | some n => exact Or.inl ⟨(n, property), ⟨property, hmem, n, hindex, rfl⟩, rfl⟩

end HostContents

/-! ### What is recorded -/

section Recorded

variable (nodes : String → HostNode)

theorem recorded_of_mem {name : String} {value : Option String} {paths : List String}
    {contents : HostContents}
    (h : (name, value) ∈ (paths.foldl (recordPath nodes) contents).properties) :
    (name ∈ paths ∧ value = (nodes name).recorded) ∨ (name, value) ∈ contents.properties := by
  induction paths generalizing contents with
  | nil => exact Or.inr h
  | cons path paths ih =>
    rcases ih h with ⟨hmem, hvalue⟩ | hstep
    · exact Or.inl ⟨List.mem_cons_of_mem _ hmem, hvalue⟩
    unfold recordPath at hstep
    split at hstep
    · exact Or.inr hstep
    unfold HostContents.assign at hstep
    split at hstep
    · -- The setter of `__proto__` leaves the properties as they are.
      cases hnode : (nodes path).recorded <;> rw [hnode] at hstep <;> exact Or.inr hstep
    · rcases HostContents.mem_put hstep with ⟨rfl, rfl⟩ | hold
      · exact Or.inl ⟨List.mem_cons_self, rfl⟩
      · exact Or.inr hold

theorem get_recorded {path : String} (hne : path ≠ "") (hproto : path ≠ "__proto__")
    {paths : List String} {contents : HostContents}
    (h : path ∈ paths ∨ contents.get path = some (nodes path).recorded) :
    (paths.foldl (recordPath nodes) contents).get path = some (nodes path).recorded := by
  induction paths generalizing contents with
  | nil => exact h.resolve_left List.not_mem_nil
  | cons first paths ih =>
    refine ih ?_
    by_cases hfirst : path = first
    · subst hfirst
      rw [recordPath, if_neg hne]
      exact Or.inr (HostContents.get_assign_self hproto _)
    · have hkept : (recordPath nodes contents first).get path = contents.get path := by
        unfold recordPath
        split
        · rfl
        · exact HostContents.get_assign_of_ne hfirst _
      rw [hkept]
      exact h.imp_left fun hmem => (List.mem_cons.mp hmem).resolve_left hfirst

theorem proto_notMem {text : String} (hproto : (nodes "__proto__").recorded = some text)
    {paths : List String} {contents : HostContents} (hproper : contents.nullPrototype = false)
    (hnone : ∀ value, ("__proto__", value) ∉ contents.properties) :
    ∀ value, ("__proto__", value) ∉ (paths.foldl (recordPath nodes) contents).properties := by
  induction paths generalizing contents with
  | nil => exact hnone
  | cons path paths ih =>
    have hstep : (recordPath nodes contents path).nullPrototype = false ∧
        ∀ value, ("__proto__", value) ∉ (recordPath nodes contents path).properties := by
      unfold recordPath
      split
      · exact ⟨hproper, hnone⟩
      by_cases hpath : path = "__proto__"
      · subst hpath
        unfold HostContents.assign
        rw [hproto, if_pos ⟨rfl, hproper⟩]
        exact ⟨hproper, hnone⟩
      · unfold HostContents.assign
        rw [if_neg fun h => hpath h.1]
        refine ⟨hproper, fun value hmem => ?_⟩
        rcases HostContents.mem_put hmem with ⟨heq, -⟩ | hold
        · exact hpath heq.symm
        · exact hnone value hold
    exact ih hstep.1 hstep.2

end Recorded

/-! ### The guard -/

def HostDirtyState.DirtyFile (s : HostDirtyState) (path : String) (content : List UInt8) : Prop :=
  (∃ entry ∈ s.entries, entry.path = path) ∧ s.nodes path = .file content

/-- The snapshot holds the text of each dirty file under its path, and no later snapshot equals it
when a file that is dirty in both states has changed. -/
def HostDirtyGuarded (before : HostDirtyState) : Prop :=
  ∃ snapshot, readHubHostDirtySnapshot before = some snapshot ∧
    (∀ path content, before.DirtyFile path content →
      snapshot.contents.get path = some (some (String.ofList (Utf8.decode content)))) ∧
    ∀ after snapshot', readHubHostDirtySnapshot after = some snapshot' →
      hubHostDirtySnapshotsEqual snapshot snapshot' = true →
        ∀ path content content', before.DirtyFile path content → after.DirtyFile path content' →
          content' = content

/-- What the guard rests on.

- `fits`: the status is not longer than the output of a child process may be.
- `read`: some line is taken for the path of each dirty file.
- `proper`: no dirty file is named `__proto__`.
- `text`: each dirty file is well-formed UTF-8 without U+FFFD. -/
structure HostDirtyState.IsLegible (s : HostDirtyState) : Prop where
  fits : s.gitStatus.utf8ByteSize ≤ MAX_BUFFER
  read : ∀ path content, s.DirtyFile path content → path ∈ s.pathsRead
  proper : ∀ content, ¬ s.DirtyFile "__proto__" content
  text : ∀ path content, s.DirtyFile path content → Utf8.replacement ∉ Utf8.decode content

theorem readHubHostDirtySnapshot_eq (s : HostDirtyState) :
    readHubHostDirtySnapshot s = if s.gitStatus.utf8ByteSize ≤ MAX_BUFFER then
      some ⟨trim s.gitStatus, s.pathsRead.foldl (recordPath s.nodes) {}⟩ else none := by
  rw [readHubHostDirtySnapshot, tryGitTextSync, Option.bind_some]
  split
  · rw [← contents_eq]
    rfl
  · rfl

theorem mem_of_hubHostDirtySnapshotsEqual {left right : HubHostDirtySnapshot}
    (h : hubHostDirtySnapshotsEqual left right = true) {property : String × Option String}
    (hmem : property ∈ left.contents.properties) : property ∈ right.contents.properties := by
  rw [hubHostDirtySnapshotsEqual, Bool.and_eq_true, beq_iff_eq, beq_iff_eq] at h
  rwa [← HostContents.mem_ownProperties, ← h.2, HostContents.mem_ownProperties]

theorem hubHostDirtySnapshotsEqual_refl (snapshot : HubHostDirtySnapshot) :
    hubHostDirtySnapshotsEqual snapshot snapshot = true := by
  rw [hubHostDirtySnapshotsEqual, beq_self_eq_true, beq_self_eq_true, Bool.and_self]

theorem path_ne_empty {s : HostDirtyState} {path : String} {content : List UInt8}
    (h : s.DirtyFile path content) : path ≠ "" := by
  obtain ⟨⟨entry, -, rfl⟩, -⟩ := h
  intro hempty
  exact entry.path_plain.ne (by rw [hempty]; rfl)

/-- The guard sees every change of a dirty file exactly when it reads the status, the paths and the
texts without loss. -/
theorem hostDirtyGuarded_iff (before : HostDirtyState) :
    HostDirtyGuarded before ↔ before.IsLegible := by
  constructor
  · rintro ⟨snapshot, hread, hheld, hseen⟩
    rw [readHubHostDirtySnapshot_eq] at hread
    split at hread
    case isFalse => cases hread
    rename_i hfits
    cases hread
    have hmem : ∀ path content, before.DirtyFile path content →
        (path, some (String.ofList (Utf8.decode content))) ∈
          (before.pathsRead.foldl (recordPath before.nodes) {}).properties :=
      fun path content h => HostContents.mem_properties_of_get (hheld path content h)
    refine ⟨hfits, fun path content h => ?_, fun content h => ?_, fun path content h => ?_⟩
    · rcases recorded_of_mem before.nodes (hmem path content h) with ⟨hpath, -⟩ | hnil
      · exact hpath
      · cases hnil
    · have hnode : (before.nodes "__proto__").recorded =
          some (String.ofList (Utf8.decode content)) := by
        rw [h.2]
        rfl
      exact proto_notMem before.nodes hnode rfl (by simp) _ (hmem _ content h)
    · -- Another file with the same text would go unseen.
      intro hreplaced
      obtain ⟨content', hne, hsame⟩ := Utf8.exists_decode_eq hreplaced
      let after : HostDirtyState :=
        { before with nodes := Function.update before.nodes path (.file content') }
      have hrecorded : ∀ name, (after.nodes name).recorded = (before.nodes name).recorded := by
        intro name
        have hnodes : after.nodes = Function.update before.nodes path (.file content') := rfl
        rw [hnodes]
        by_cases hname : name = path
        · subst hname
          rw [Function.update_self, h.2, HostNode.recorded, HostNode.recorded, hsame]
        · rw [Function.update_of_ne hname]
      have hstep : recordPath after.nodes = recordPath before.nodes := by
        funext contents name
        rw [recordPath, recordPath, hrecorded]
      have hafter : readHubHostDirtySnapshot after =
          some ⟨trim before.gitStatus, before.pathsRead.foldl (recordPath before.nodes) {}⟩ := by
        rw [readHubHostDirtySnapshot_eq, hstep]
        exact if_pos hfits
      exact hne (hseen after _ hafter (hubHostDirtySnapshotsEqual_refl _) path content content' h
        ⟨h.1, Function.update_self _ _ _⟩)
  · intro hlegible
    have hheld : ∀ path content, before.DirtyFile path content →
        (before.pathsRead.foldl (recordPath before.nodes) {}).get path =
          some (some (String.ofList (Utf8.decode content))) := by
      intro path content h
      have hproto : path ≠ "__proto__" := by
        rintro rfl
        exact hlegible.proper content h
      have hpath := hlegible.read path content h
      rw [get_recorded before.nodes (path_ne_empty h) hproto (Or.inl hpath), h.2]
      rfl
    refine ⟨_, (readHubHostDirtySnapshot_eq before).trans (if_pos hlegible.fits), hheld, ?_⟩
    intro after snapshot' hafter hequal path content content' hbefore hchanged
    have hmem := mem_of_hubHostDirtySnapshotsEqual hequal
      (HostContents.mem_properties_of_get (hheld path content hbefore))
    rw [readHubHostDirtySnapshot_eq] at hafter
    split at hafter
    case isFalse => cases hafter
    cases hafter
    -- The later snapshot has the text of the later file at the path.
    rcases recorded_of_mem after.nodes hmem with ⟨-, hvalue⟩ | hnil
    · rw [hchanged.2, HostNode.recorded, Option.some.injEq, String.ofList_inj] at hvalue
      exact (Utf8.decode_inj hvalue (hlegible.text path content hbefore)).symm
    · cases hnil

theorem isPlainPath_abc : IsPlainPath "abc" := by
  constructor <;> decide

theorem renamedFrom_plain_none : ∀ old ∈ (none : Option String), IsPlainPath old := by
  intro old h
  cases h

/-- A file that differs from the index only is listed first. -/
def modifiedEntry : HostStatusEntry where
  index := .unmodified
  worktree := .modified
  path := "abc"
  renamedFrom := none
  directory := false
  changed := Or.inr StatusColumn.noConfusion
  path_plain := isPlainPath_abc
  renamedFrom_plain := renamedFrom_plain_none
  renamedFrom_isSome := rfl

/-- Its path is read as `bc`. -/
theorem modified_unguarded : ¬ ∀ before, HostDirtyGuarded before := by
  intro hguarded
  let before : HostDirtyState := ⟨[modifiedEntry], fun path =>
    if path = "abc" then .file [0x61] else .missing⟩
  obtain ⟨snapshot, hread, hheld, -⟩ := hguarded before
  have habc := hheld "abc" [0x61] ⟨⟨modifiedEntry, List.mem_singleton_self _, rfl⟩, rfl⟩
  rw [readHubHostDirtySnapshot_eq] at hread
  split at hread
  · cases hread
    have hrecorded : (before.pathsRead.foldl (recordPath before.nodes) {}).get "abc" = none := by
      decide +kernel
    have hheldAbc := hrecorded.symm.trans habc
    cases hheldAbc
  · cases hread

end ArchLoop
