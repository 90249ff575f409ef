import ArchLoop.PromptTemplate

/-!
# `ArchLoop.Proofs.PromptTemplate`: arguments as data

Only the shell blocks of the template should run, with the arguments in them as data
(`DataStaysData`). The markers keep an argument from adding a block. But an argument inside a block
stands between the backticks of the template, and `preprocessPrompt` ends a block at the next
backtick. It also passes over a block in which nothing is left.

`dataStaysData_iff` is the exact condition: the arguments leave no block empty and put no backtick
into one, and no placeholder names what every object has.
-/

set_option autoImplicit false

namespace ArchLoop.PromptTemplate

open ArchLoop.Lib
open ArchLoop.Lib.Pattern

/-! ### Statement -/

/-- The template as it is read, without markers: the text up to its first block, and each block
with the text behind it. -/
def templateRuns (template : List Char) : List Char × List (List Char × List Char) :=
  runs (scan SHELL_BLOCK_PATTERN (stripMarkers template))

def placeholders (template : List Char) : List (List Char) :=
  values (scan PLACEHOLDER_PATTERN (stripMarkers template))

def argumentText (args : PromptArgs) (key : List Char) : List Char :=
  ((args.lookup key).map fun arg => (sanitizeArg arg).toText).getD []

/-- A part of the template with the texts of the arguments in it. -/
def filled (args : PromptArgs) (text : List Char) : List Char :=
  replace (argumentText args) (scan PLACEHOLDER_PATTERN text)

/-- The bodies of the blocks with the texts of the arguments in them. -/
def filledBodies (args : PromptArgs) (template : List Char) : List (List Char) :=
  (templateRuns template).2.map fun run => filled args run.1

/-- The template with the texts of the arguments and the outputs of its blocks. -/
def filledPrompt (args : PromptArgs) (template : List Char) (outputs : List (List Char)) :
    List Char :=
  filled args (templateRuns template).1 ++
    ((templateRuns template).2.zip outputs).flatMap fun (run, output) =>
      stripMarkers output ++ filled args run.2

/-- What should come of the prompt after the substitution: each placeholder has an argument, the
commands are the blocks of the template, and the outputs stand where the blocks were. -/
structure DataStaysData (args : PromptArgs) (template : List Char) (run : Preprocessed)
    (exec : Nat → List Char → Except String ExecResult) : Prop where
  named : ∀ key ∈ placeholders template, (args.lookup key).isSome
  commands : run.commands = filledBodies args template
  result : run.result = (expandAll exec (filledBodies args template)).map
    (filledPrompt args template)

/-- The arguments leave the blocks as they are, and no placeholder names what every object has. -/
structure LeavesBlocks (inherited : List Char → Option (List Char)) (args : PromptArgs)
    (template : List Char) : Prop where
  own : ∀ key ∈ placeholders template, args.lookup key = none → inherited key = none
  nonempty : ∀ body ∈ filledBodies args template, body ≠ []
  closed : ∀ body ∈ filledBodies args template, '`' ∉ body

/-! ### Placeholders do not reach over the marks of a block -/

theorem takeWhile_stop {p : Char → Bool} {c : Char} (hc : p c = false) (text rest : List Char) :
    (text ++ c :: rest).takeWhile p = text.takeWhile p := by
  induction text with
  | nil => simp [hc]
  | cons x text ih => by_cases hx : p x <;> simp [hx, ih]

theorem dropWhile_stop {p : Char → Bool} {c : Char} (hc : p c = false) (text rest : List Char) :
    (text ++ c :: rest).dropWhile p = text.dropWhile p ++ c :: rest := by
  induction text with
  | nil => simp [hc]
  | cons x text ih => by_cases hx : p x <;> simp [hx, ih]

structure Foreign (c : Char) : Prop where
  opening : c ≠ '{'
  closing : c ≠ '}'
  blank : isBlank c = false
  key : isKeyChar c = false

def behindKey (rest : List Char) : List Char :=
  ((rest.dropWhile isBlank).dropWhile isKeyChar).dropWhile isBlank

def keyOf (rest : List Char) : List Char := (rest.dropWhile isBlank).takeWhile isKeyChar

theorem placeholder_eq (rest : List Char) :
    PLACEHOLDER_PATTERN ('{' :: '{' :: rest) =
      match (keyOf rest).head?.any isKeyStart, behindKey rest with
      | true, '}' :: '}' :: behind => some (keyOf rest, 1 + (rest.length - behind.length))
      | _, _ => none := rfl

theorem placeholder_of_ne {x : Char} {text : List Char} (h : x ≠ '{' ∨ text.head? ≠ some '{') :
    PLACEHOLDER_PATTERN (x :: text) = none := by
  unfold PLACEHOLDER_PATTERN
  split
  · simp_all
  · rfl

theorem separates_of_foreign {c : Char} (hc : Foreign c) : Separates PLACEHOLDER_PATTERN c where
  here rest := placeholder_of_ne (.inl hc.opening)
  before := by
    intro x text rest
    by_cases hopen : x = '{' ∧ text.head? = some '{'
    · obtain ⟨rfl, hhead⟩ := hopen
      obtain ⟨tail, rfl⟩ : ∃ tail, text = '{' :: tail := by
        cases text with
        | nil => simp at hhead
        | cons y tail => exact ⟨tail, by simpa using hhead⟩
      have hkey : keyOf (tail ++ c :: rest) = keyOf tail := by
        unfold keyOf
        rw [dropWhile_stop hc.blank, takeWhile_stop hc.key]
      have hbehind : behindKey (tail ++ c :: rest) = behindKey tail ++ c :: rest := by
        unfold behindKey
        rw [dropWhile_stop hc.blank, dropWhile_stop hc.key, dropWhile_stop hc.blank]
      rw [List.cons_append, placeholder_eq, placeholder_eq, hkey, hbehind]
      cases (keyOf tail).head?.any isKeyStart with
      | false => rfl
      | true =>
        -- the character is not one of the two that close the placeholder
        match behindKey tail with
        | [] => simp [hc.closing]
        | [y] => simp [hc.closing]
        | y :: z :: behind =>
          simp only [List.cons_append]
          by_cases hclosing : y = '}' ∧ z = '}'
          · obtain ⟨rfl, rfl⟩ := hclosing
            simp only [List.length_append, List.length_cons]
            congr 3
            omega
          · simp_all
    · have hnone : PLACEHOLDER_PATTERN (x :: text) = none := placeholder_of_ne (by tauto)
      rw [hnone]
      refine placeholder_of_ne ?_
      cases text with
      | nil => exact .inr (by simpa using hc.opening)
      | cons y tail => simpa using not_and_or.mp hopen
  inside := by
    intro x text value more h
    by_cases hopen : x = '{' ∧ text.head? = some '{'
    · obtain ⟨rfl, hhead⟩ := hopen
      obtain ⟨tail, rfl⟩ : ∃ tail, text = '{' :: tail := by
        cases text with
        | nil => simp at hhead
        | cons y tail => exact ⟨tail, by simpa using hhead⟩
      rw [placeholder_eq] at h
      split at h
      · have hmore : 1 + (tail.length - _) = more := (Prod.mk.inj (Option.some.inj h)).2
        simp only [List.length_cons]
        omega
      · cases h
    · rw [placeholder_of_ne (by tauto)] at h
      cases h

theorem separates_exclamation : Separates PLACEHOLDER_PATTERN '!' :=
  separates_of_foreign ⟨by decide, by decide, by decide, by decide⟩

theorem separates_backtick : Separates PLACEHOLDER_PATTERN '`' :=
  separates_of_foreign ⟨by decide, by decide, by decide, by decide⟩

theorem separates_marker : Separates PLACEHOLDER_PATTERN SHELL_BLOCK_MARKER :=
  separates_of_foreign ⟨by decide, by decide, by decide, by decide⟩

/-! ### Blocks -/

/-- The command of a block with the text between its backticks, if it is run at all. -/
def command (body : List Char) : Option (List Char) :=
  if body.takeWhile (· ≠ '`') = [] then none else some (body.takeWhile (· ≠ '`'))

theorem command_eq_self_iff {body : List Char} :
    command body = some body ↔ body ≠ [] ∧ '`' ∉ body := by
  unfold command
  constructor
  · intro h
    split at h
    · cases h
    · rename_i hne
      have hself : body.takeWhile (· ≠ '`') = body := Option.some.inj h
      rw [hself] at hne
      refine ⟨hne, fun hmem => ?_⟩
      have hplain := List.takeWhile_eq_self_iff.mp hself '`' hmem
      simp at hplain
  · rintro ⟨hne, hclosed⟩
    have hself : body.takeWhile (· ≠ '`') = body := by
      refine List.takeWhile_eq_self_iff.mpr fun c hc => ?_
      simpa using ne_of_mem_of_not_mem hc hclosed
    rw [hself, if_neg hne]

theorem upToBacktick_append (body rest : List Char) :
    upToBacktick (body ++ '`' :: rest) =
      (command body).map fun text => (text, text.length + 1) := by
  have hstop : (body ++ '`' :: rest).takeWhile (· ≠ '`') = body.takeWhile (· ≠ '`') :=
    takeWhile_stop (by decide) body rest
  have hlength : (body.takeWhile (· ≠ '`')).length ≠ (body ++ '`' :: rest).length := by
    have hle := (List.takeWhile_sublist (p := (· ≠ '`')) (l := body)).length_le
    simp only [List.length_append, List.length_cons]
    omega
  unfold upToBacktick command
  rw [hstop]
  simp only [hlength, decide_false, Bool.or_false, decide_eq_true_eq]
  split <;> rfl

theorem of_upToBacktick {text body : List Char} {count : Nat}
    (h : upToBacktick text = some (body, count)) :
    count = body.length + 1 ∧ ∃ rest, text = body ++ '`' :: rest := by
  unfold upToBacktick at h
  simp only [Bool.or_eq_true, decide_eq_true_eq] at h
  split at h
  · cases h
  · rename_i hcases
    obtain ⟨rfl, rfl⟩ := Prod.mk.inj (Option.some.inj h)
    have hlength := (not_or.mp hcases).2
    refine ⟨rfl, ?_⟩
    have hsplit : text.takeWhile (· ≠ '`') ++ text.dropWhile (· ≠ '`') = text :=
      List.takeWhile_append_dropWhile
    cases hdrop : text.dropWhile (· ≠ '`') with
    | nil =>
      rw [hdrop, List.append_nil] at hsplit
      exact absurd (congrArg List.length hsplit) hlength
    | cons c rest =>
      -- the rest begins with what stopped the reading
      have hstop := List.head_dropWhile_not (· ≠ '`') (l := text) (by rw [hdrop]; simp)
      simp only [hdrop, List.head_cons] at hstop
      have hc : c = '`' := by simpa using hstop
      subst hc
      exact ⟨rest, by rw [← hdrop]; exact hsplit.symm⟩

/-- The blocks with their marks, each with the text behind it. -/
def rendered (opening : List Char) (blocks : List (List Char × List Char)) : List Char :=
  blocks.flatMap fun run => opening ++ run.1 ++ '`' :: run.2

theorem original_block (x : Char) (text body : List Char) (more : Nat)
    (h : SHELL_BLOCK_PATTERN (x :: text) = some (body, more)) :
    '!' :: '`' :: (body ++ ['`']) = x :: text.take more := by
  unfold SHELL_BLOCK_PATTERN at h
  split at h
  · rename_i rest heq
    obtain ⟨rfl, rfl⟩ := List.cons.inj heq
    obtain ⟨⟨body', count⟩, hread, hpair⟩ := Option.map_eq_some_iff.mp h
    obtain ⟨rfl, rfl⟩ := Prod.mk.inj hpair
    obtain ⟨rfl, behind, rfl⟩ := of_upToBacktick hread
    have htake : body'.take (body'.length + 1) = body' := List.take_of_length_le (by omega)
    simp [List.take_append, htake]
  · cases h

theorem stripMarkers_eq (template : List Char) :
    stripMarkers template = (templateRuns template).1 ++
      rendered ['!', '`'] (templateRuns template).2 := by
  have horiginal := replace_scan_original original_block (stripMarkers template)
  rw [replace_eq_runs] at horiginal
  simpa [templateRuns, rendered] using horiginal.symm

theorem markedPrompt_eq (template : List Char) :
    markedPrompt template = (templateRuns template).1 ++
      rendered ['!', SHELL_BLOCK_MARKER, '`'] (templateRuns template).2 := by
  unfold markedPrompt
  rw [replace_eq_runs]
  simp [templateRuns, rendered]

/-! ### Substitution -/

theorem scan_rendered {opening : List Char}
    (hopening : ∀ mark ∈ opening, Separates PLACEHOLDER_PATTERN mark) (hne : opening ≠ [])
    (front : List Char) (blocks : List (List Char × List Char)) :
    scan PLACEHOLDER_PATTERN (front ++ rendered opening blocks) =
      scan PLACEHOLDER_PATTERN front ++ blocks.flatMap fun run =>
        opening.map .inl ++ scan PLACEHOLDER_PATTERN run.1 ++
          .inl '`' :: scan PLACEHOLDER_PATTERN run.2 := by
  induction blocks generalizing front with
  | nil => simp [rendered]
  | cons run blocks ih =>
    have htext : front ++ rendered opening (run :: blocks) =
        front ++ opening ++ (run.1 ++ '`' :: (run.2 ++ rendered opening blocks)) := by
      simp [rendered]
    rw [htext, scan_separators hopening hne, scan_separator separates_backtick, ih run.2]
    simp

theorem separates_marked :
    ∀ mark ∈ ['!', SHELL_BLOCK_MARKER, '`'], Separates PLACEHOLDER_PATTERN mark := by
  simpa using ⟨separates_exclamation, separates_marker, separates_backtick⟩

theorem separates_plain : ∀ mark ∈ ['!', '`'], Separates PLACEHOLDER_PATTERN mark := by
  simpa using ⟨separates_exclamation, separates_backtick⟩

theorem values_markedPrompt (template : List Char) :
    values (scan PLACEHOLDER_PATTERN (markedPrompt template)) = placeholders template := by
  unfold placeholders
  rw [stripMarkers_eq, markedPrompt_eq, scan_rendered separates_marked (by simp),
    scan_rendered separates_plain (by simp)]
  simp [values, List.filterMap_flatMap, List.filterMap_cons]

/-- The blocks with the texts of the arguments in them. -/
def filledBlocks (args : PromptArgs) (template : List Char) : List (List Char × List Char) :=
  (templateRuns template).2.map fun run => (filled args run.1, filled args run.2)

theorem replace_markedPrompt (args : PromptArgs) (template : List Char) :
    replace (argumentText args) (scan PLACEHOLDER_PATTERN (markedPrompt template)) =
      filled args (templateRuns template).1 ++
        rendered ['!', SHELL_BLOCK_MARKER, '`'] (filledBlocks args template) := by
  rw [markedPrompt_eq, scan_rendered separates_marked (by simp)]
  simp [replace, filled, filledBlocks, rendered, List.flatMap_assoc, List.flatMap_map]

theorem lookup_sanitizedArgs (args : PromptArgs) (key : List Char) :
    (sanitizedArgs args).lookup key = (args.lookup key).map sanitizeArg := by
  unfold sanitizedArgs
  induction args with
  | nil => rfl
  | cons entry args ih =>
    obtain ⟨name, arg⟩ := entry
    cases hname : key == name with
    | true => simp [List.lookup_cons, hname]
    | false => simpa [List.lookup_cons, hname] using ih

section
variable {inherited : List Char → Option (List Char)} {args : PromptArgs}
  {template prompt : List Char}

theorem of_substitutePromptArgs (h : substitutePromptArgs inherited template args = .ok prompt) :
    (∀ key ∈ placeholders template,
      (memberText inherited (sanitizedArgs args) key).isSome) ∧
    prompt = replace (fun key => (memberText inherited (sanitizedArgs args) key).getD [])
      (scan PLACEHOLDER_PATTERN (markedPrompt template)) := by
  unfold substitutePromptArgs at h
  dsimp only at h
  rw [← values_markedPrompt]
  split at h
  · rename_i hempty
    have hnone : values (scan PLACEHOLDER_PATTERN (markedPrompt template)) = [] := by
      simp only [Bool.and_eq_true, List.isEmpty_iff] at hempty
      exact hempty.1
    rw [replace_scan_of_values_nil _ hnone, hnone]
    exact ⟨by simp, (Except.ok.inj h).symm⟩
  · split at h
    · cases h
    · rename_i hfind
      refine ⟨fun key hkey => ?_, (Except.ok.inj h).symm⟩
      simpa [Option.isSome_iff_ne_none] using List.find?_eq_none.mp hfind key hkey

theorem prompt_of_named (h : substitutePromptArgs inherited template args = .ok prompt)
    (hnamed : ∀ key ∈ placeholders template, (args.lookup key).isSome) :
    prompt = filled args (templateRuns template).1 ++
      rendered ['!', SHELL_BLOCK_MARKER, '`'] (filledBlocks args template) := by
  rw [(of_substitutePromptArgs h).2, ← replace_markedPrompt]
  refine replace_congr _ fun key hkey => ?_
  rw [values_markedPrompt] at hkey
  obtain ⟨arg, harg⟩ := Option.isSome_iff_exists.mp (hnamed key hkey)
  simp [memberText, argumentText, lookup_sanitizedArgs, harg]

end

/-! ### Markers -/

theorem marker_notMem_stripMarkers (text : List Char) :
    SHELL_BLOCK_MARKER ∉ stripMarkers text := by
  simp [stripMarkers]

theorem stripMarkers_eq_self {text : List Char} (h : SHELL_BLOCK_MARKER ∉ text) :
    stripMarkers text = text := by
  refine List.filter_eq_self.mpr fun c hc => ?_
  simpa using ne_of_mem_of_not_mem hc h

theorem marker_notMem_number (value : NumberText) : SHELL_BLOCK_MARKER ∉ value.text := by
  intro hmem
  exact absurd (value.plain _ hmem) (by decide)

theorem marker_notMem_argumentText (args : PromptArgs) (key : List Char) :
    SHELL_BLOCK_MARKER ∉ argumentText args key := by
  unfold argumentText
  cases args.lookup key with
  | none => simp
  | some arg =>
    cases arg with
    | text value => exact marker_notMem_stripMarkers value
    | number value => exact marker_notMem_number value
    | boolean value => cases value <;> decide

theorem marker_notMem_filled {args : PromptArgs} {text : List Char}
    (h : SHELL_BLOCK_MARKER ∉ text) : SHELL_BLOCK_MARKER ∉ filled args text := by
  intro hmem
  obtain ⟨piece, hpiece, hin⟩ := List.mem_flatMap.mp hmem
  cases piece with
  | inl c =>
    obtain rfl : SHELL_BLOCK_MARKER = c := by simpa using hin
    exact h (mem_of_inl_mem_scan hpiece)
  | inr key => exact marker_notMem_argumentText args key hin

theorem marker_notMem_templateRuns (template : List Char) :
    SHELL_BLOCK_MARKER ∉ (templateRuns template).1 ∧
      ∀ run ∈ (templateRuns template).2, SHELL_BLOCK_MARKER ∉ run.1 ∧
        SHELL_BLOCK_MARKER ∉ run.2 := by
  have hnone := marker_notMem_stripMarkers template
  rw [stripMarkers_eq] at hnone
  simp only [rendered, List.mem_append, List.mem_flatMap, not_or, not_exists, not_and,
    List.mem_cons] at hnone
  exact ⟨hnone.1, fun run hrun => ⟨(hnone.2 run hrun).1.2, (hnone.2 run hrun).2.2⟩⟩

/-- Texts without markers in the blocks and behind them. -/
def Plain (blocks : List (List Char × List Char)) : Prop :=
  ∀ run ∈ blocks, SHELL_BLOCK_MARKER ∉ run.1 ∧ SHELL_BLOCK_MARKER ∉ run.2

theorem plain_filledBlocks (args : PromptArgs) (template : List Char) :
    Plain (filledBlocks args template) := by
  intro run hmem
  obtain ⟨raw, hraw, rfl⟩ := List.mem_map.mp hmem
  have hplain := (marker_notMem_templateRuns template).2 raw hraw
  exact ⟨marker_notMem_filled hplain.1, marker_notMem_filled hplain.2⟩

/-! ### Marked blocks -/

theorem marked_of_notMem {c : Char} {tail rest : List Char}
    (hplain : SHELL_BLOCK_MARKER ∉ c :: tail) (hrest : ∀ d ∈ rest.head?, d = '!') :
    MARKED_SHELL_BLOCK_PATTERN (c :: (tail ++ rest)) = none := by
  unfold MARKED_SHELL_BLOCK_PATTERN
  split
  · rename_i mark behind heq
    obtain ⟨rfl, htail⟩ := List.cons.inj heq
    refine if_neg fun hmark => ?_
    subst hmark
    cases tail with
    | nil =>
      -- the marker would stand where the next block begins
      rw [List.nil_append] at htail
      have hfirst := hrest SHELL_BLOCK_MARKER (by simp [htail])
      exact absurd hfirst (by decide)
    | cons d tail =>
      obtain ⟨rfl, -⟩ := List.cons.inj htail
      exact hplain (by simp)
  · rfl

theorem head?_rendered {mark : Char} {opening : List Char}
    (blocks : List (List Char × List Char)) :
    ∀ d ∈ (rendered (mark :: opening) blocks).head?, d = mark := by
  cases blocks with
  | nil => simp [rendered]
  | cons run blocks => simp [rendered]

theorem scan_plain {text : List Char} (hplain : SHELL_BLOCK_MARKER ∉ text)
    (blocks : List (List Char × List Char)) :
    scan MARKED_SHELL_BLOCK_PATTERN
        (text ++ rendered ['!', SHELL_BLOCK_MARKER, '`'] blocks) =
      text.map .inl ++
        scan MARKED_SHELL_BLOCK_PATTERN (rendered ['!', SHELL_BLOCK_MARKER, '`'] blocks) := by
  refine scan_append_of_none fun c tail hsuffix => ?_
  refine marked_of_notMem (fun hmem => hplain ?_) (head?_rendered blocks)
  exact hsuffix.subset hmem

/-- `marked` as the marks that the substitution leaves in front of a block. -/
abbrev marked : List (List Char × List Char) → List Char :=
  rendered ['!', SHELL_BLOCK_MARKER, '`']

theorem pattern_block (body rest : List Char) :
    MARKED_SHELL_BLOCK_PATTERN
        ('!' :: SHELL_BLOCK_MARKER :: '`' :: (body ++ '`' :: rest)) =
      (command body).map fun text => (text, text.length + 3) := by
  have hread := congrArg (Option.map fun found : List Char × Nat => (found.1, found.2 + 2))
    (upToBacktick_append body rest)
  have hmap : ∀ found : Option (List Char),
      (found.map fun text => (text, text.length + 1)).map
          (fun found : List Char × Nat => (found.1, found.2 + 2)) =
        found.map fun text => (text, text.length + 3) := by
    intro found
    cases found <;> rfl
  rw [hmap] at hread
  rw [← hread]
  rfl

theorem scan_block {body text : List Char} (hbody : command body = some body)
    (htext : SHELL_BLOCK_MARKER ∉ text) (blocks : List (List Char × List Char)) :
    scan MARKED_SHELL_BLOCK_PATTERN (marked ((body, text) :: blocks)) =
      .inr body :: (text.map .inl ++ scan MARKED_SHELL_BLOCK_PATTERN (marked blocks)) := by
  have hpattern := pattern_block body (text ++ marked blocks)
  rw [hbody] at hpattern
  have hmatch : MARKED_SHELL_BLOCK_PATTERN ('!' ::
      ((SHELL_BLOCK_MARKER :: '`' :: (body ++ ['`'])) ++ (text ++ marked blocks))) =
        some (body, (SHELL_BLOCK_MARKER :: '`' :: (body ++ ['`'])).length) := by
    simpa using hpattern
  rw [← scan_plain htext, ← scan_match hmatch]
  simp [rendered]

theorem values_block {body text : List Char} (hbody : SHELL_BLOCK_MARKER ∉ body)
    (htext : SHELL_BLOCK_MARKER ∉ text) (blocks : List (List Char × List Char)) :
    values (scan MARKED_SHELL_BLOCK_PATTERN (marked ((body, text) :: blocks))) =
      (command body).toList ++ values (scan MARKED_SHELL_BLOCK_PATTERN (marked blocks)) := by
  have hrendered : marked ((body, text) :: blocks) =
      '!' :: SHELL_BLOCK_MARKER :: '`' :: (body ++ '`' :: (text ++ marked blocks)) := by
    simp [rendered]
  have hpattern := pattern_block body (text ++ marked blocks)
  rw [hrendered]
  cases hcommand : command body with
  | none =>
    rw [hcommand] at hpattern
    -- the marks stay, and the rest of the block is text without markers
    have hinside : SHELL_BLOCK_MARKER ∉ '`' :: (body ++ '`' :: text) := by
      simp only [List.mem_cons, List.mem_append, not_or]
      exact ⟨by decide, hbody, by decide, htext⟩
    have hplain := scan_plain hinside blocks
    simp only [List.cons_append, List.append_assoc] at hplain
    rw [scan_of_none hpattern, scan_of_none (by rfl), hplain]
    simp
  | some found =>
    rw [hcommand] at hpattern
    have hfound : found.length ≤ body.length := by
      unfold command at hcommand
      split at hcommand
      · cases hcommand
      · rw [← Option.some.inj hcommand]
        exact (List.takeWhile_sublist _).length_le
    -- behind the match there may be a part of the block, as text
    have hdrop : (body ++ '`' :: (text ++ marked blocks)).drop (found.length + 1) =
        (body ++ '`' :: text).drop (found.length + 1) ++ marked blocks := by
      rw [← List.cons_append, ← List.append_assoc]
      refine List.drop_append_of_le_length ?_
      simp only [List.length_append, List.length_cons]
      omega
    have hrest : SHELL_BLOCK_MARKER ∉ (body ++ '`' :: text).drop (found.length + 1) := by
      intro hmem
      have hin := List.mem_of_mem_drop hmem
      simp only [List.mem_append, List.mem_cons] at hin
      rcases hin with hin | hin | hin
      · exact hbody hin
      · exact absurd hin (by decide)
      · exact htext hin
    rw [scan_of_some hpattern]
    simp only [List.drop_succ_cons, hdrop, scan_plain hrest, values_inr, values_append,
      values_map_inl, Option.toList_some, List.nil_append, List.cons_append]

theorem values_marked {blocks : List (List Char × List Char)} (hplain : Plain blocks) :
    values (scan MARKED_SHELL_BLOCK_PATTERN (marked blocks)) =
      (blocks.map (·.1)).filterMap command := by
  induction blocks with
  | nil => rfl
  | cons run blocks ih =>
    obtain ⟨hrun, hblocks⟩ := List.forall_mem_cons.mp hplain
    rw [values_block hrun.1 hrun.2, ih hblocks, List.map_cons]
    cases hcommand : command run.1 with
    | none => simp [hcommand]
    | some text => simp [hcommand]

/-- A filter that may change what it keeps leaves a list as it is just when it keeps each of the
elements. -/
theorem filterMap_eq_self_iff {α : Type} {f : α → Option α} (l : List α) :
    l.filterMap f = l ↔ ∀ x ∈ l, f x = some x := by
  induction l with
  | nil => simp
  | cons x l ih =>
    cases hx : f x with
    | none =>
      have hlength : (l.filterMap f).length ≤ l.length := List.length_filterMap_le f l
      refine iff_of_false (fun h => ?_) (by simp [hx])
      rw [List.filterMap_cons_none hx] at h
      rw [h, List.length_cons] at hlength
      omega
    | some y =>
      rw [List.filterMap_cons_some hx, List.cons.injEq, ih, List.forall_mem_cons, hx,
        Option.some.injEq]

theorem weave_marked {blocks : List (List Char × List Char)} {outputs : List (List Char)}
    (hplain : Plain blocks) (hself : ∀ run ∈ blocks, command run.1 = some run.1)
    (hlength : outputs.length = blocks.length) :
    weave (scan MARKED_SHELL_BLOCK_PATTERN (marked blocks)) outputs =
      (blocks.zip outputs).flatMap fun (run, output) => output ++ run.2 := by
  induction blocks generalizing outputs with
  | nil => simp [rendered, weave]
  | cons run blocks ih =>
    obtain ⟨hrun, hblocks⟩ := List.forall_mem_cons.mp hplain
    obtain ⟨hfirst, hrest⟩ := List.forall_mem_cons.mp hself
    cases outputs with
    | nil => simp at hlength
    | cons output outputs =>
      have hweave := @ih outputs hblocks hrest (by simpa using hlength)
      rw [show run = (run.1, run.2) from rfl, scan_block hfirst hrun.2]
      simp [weave, weave_append, hweave]

/-! ### `preprocessPrompt` -/

theorem marked_inside (x : Char) (text body : List Char) (more : Nat)
    (h : MARKED_SHELL_BLOCK_PATTERN (x :: text) = some (body, more)) : more ≤ text.length := by
  unfold MARKED_SHELL_BLOCK_PATTERN at h
  split at h
  · rename_i mark rest heq
    obtain ⟨rfl, rfl⟩ := List.cons.inj heq
    split at h
    · obtain ⟨⟨body', count⟩, hread, hpair⟩ := Option.map_eq_some_iff.mp h
      obtain ⟨rfl, rfl⟩ := Prod.mk.inj hpair
      obtain ⟨rfl, behind, rfl⟩ := of_upToBacktick hread
      simp only [List.length_cons, List.length_append]
      omega
    · cases h
  · cases h

theorem length_of_mapM {α β : Type} {f : α → Except String β} {l : List α} {results : List β}
    (h : l.mapM f = .ok results) : results.length = l.length := by
  induction l generalizing results with
  | nil =>
    obtain rfl : results = [] := (Except.ok.inj h).symm
    rfl
  | cons x l ih =>
    rw [List.mapM_cons] at h
    cases hx : f x with
    | error message => simp [hx, bind, Except.bind] at h
    | ok y =>
      cases hl : l.mapM f with
      | error message => simp [hx, hl, bind, Except.bind] at h
      | ok ys =>
        simp only [hx, hl, bind, Except.bind, pure, Except.pure, Except.ok.injEq] at h
        rw [← h, List.length_cons, List.length_cons, ih hl]

theorem length_of_expandAll {exec : Nat → List Char → Except String ExecResult}
    {commands results : List (List Char)} (h : expandAll exec commands = .ok results) :
    results.length = commands.length := by
  have hlength := length_of_mapM h
  simpa using hlength

section
variable (exec : Nat → List Char → Except String ExecResult) (prompt : List Char)

theorem commands_preprocessPrompt :
    (preprocessPrompt exec prompt).commands =
      values (scan MARKED_SHELL_BLOCK_PATTERN prompt) := by
  rw [← map_value_matchAll]
  unfold preprocessPrompt
  dsimp only
  split
  · rename_i hempty
    rw [List.isEmpty_iff.mp hempty]
    rfl
  · rfl

theorem result_preprocessPrompt :
    (preprocessPrompt exec prompt).result =
      (expandAll exec (values (scan MARKED_SHELL_BLOCK_PATTERN prompt))).map fun results =>
        stripMarkers (weave (scan MARKED_SHELL_BLOCK_PATTERN prompt) results) := by
  rw [← map_value_matchAll]
  have hsplice : ∀ results, expandAll exec
      ((matchAll MARKED_SHELL_BLOCK_PATTERN prompt).map (·.value)) = .ok results →
      splice ((matchAll MARKED_SHELL_BLOCK_PATTERN prompt).zip results) prompt =
        weave (scan MARKED_SHELL_BLOCK_PATTERN prompt) results := by
    intro results hresults
    have hlength := length_of_expandAll hresults
    exact splice_matchAll marked_inside (by simpa using hlength)
  unfold preprocessPrompt
  dsimp only
  split
  · rename_i hempty
    rw [List.isEmpty_iff.mp hempty] at hsplice ⊢
    rw [List.map_nil] at hsplice ⊢
    have hnone := hsplice [] rfl
    rw [show expandAll exec [] = .ok [] from rfl, Except.map, ← hnone]
    rfl
  · cases hresults : expandAll exec
        ((matchAll MARKED_SHELL_BLOCK_PATTERN prompt).map (·.value)) with
    | error message => rfl
    | ok results => simp only [Except.map, hsplice results hresults]

end

/-! ### The whole way -/

section
variable {inherited : List Char → Option (List Char)} {args : PromptArgs}
  {template prompt : List Char}

theorem map_fst_filledBlocks (args : PromptArgs) (template : List Char) :
    (filledBlocks args template).map (·.1) = filledBodies args template := by
  simp [filledBlocks, filledBodies, Function.comp_def]

theorem commands_of_named (h : substitutePromptArgs inherited template args = .ok prompt)
    (hnamed : ∀ key ∈ placeholders template, (args.lookup key).isSome) :
    values (scan MARKED_SHELL_BLOCK_PATTERN prompt) =
      (filledBodies args template).filterMap command := by
  have hfront : SHELL_BLOCK_MARKER ∉ filled args (templateRuns template).1 :=
    marker_notMem_filled (marker_notMem_templateRuns template).1
  rw [prompt_of_named h hnamed, scan_plain hfront, values_append, values_map_inl, List.nil_append,
    values_marked (plain_filledBlocks args template), map_fst_filledBlocks]

theorem weave_of_named (h : substitutePromptArgs inherited template args = .ok prompt)
    (hnamed : ∀ key ∈ placeholders template, (args.lookup key).isSome)
    (hself : ∀ body ∈ filledBodies args template, command body = some body)
    {outputs : List (List Char)} (hlength : outputs.length = (filledBodies args template).length) :
    stripMarkers (weave (scan MARKED_SHELL_BLOCK_PATTERN prompt) outputs) =
      filledPrompt args template outputs := by
  have hfront : SHELL_BLOCK_MARKER ∉ filled args (templateRuns template).1 :=
    marker_notMem_filled (marker_notMem_templateRuns template).1
  have hblocks : ∀ run ∈ filledBlocks args template, command run.1 = some run.1 := by
    intro run hrun
    exact hself run.1 (by rw [← map_fst_filledBlocks]; exact List.mem_map_of_mem hrun)
  have hcount : outputs.length = (filledBlocks args template).length := by
    rw [hlength, ← map_fst_filledBlocks, List.length_map]
  rw [prompt_of_named h hnamed, scan_plain hfront, weave_append,
    weave_marked (plain_filledBlocks args template) hblocks hcount]
  -- only the outputs may have markers
  have htexts : ∀ run ∈ (templateRuns template).2, SHELL_BLOCK_MARKER ∉ filled args run.2 :=
    fun run hrun => marker_notMem_filled ((marker_notMem_templateRuns template).2 run hrun).2
  unfold filledPrompt stripMarkers
  rw [List.filter_append, ← stripMarkers, stripMarkers_eq_self hfront, filledBlocks,
    List.zip_map_left, List.flatMap_map, List.filter_flatMap]
  congr 1
  refine List.flatMap_congr fun pair hpair => ?_
  have hmem := (List.of_mem_zip hpair).1
  simp only [Prod.map, List.filter_append]
  exact congrArg _ (stripMarkers_eq_self (htexts _ hmem))

/-- The arguments and the outputs stay data just when the arguments leave the blocks of the
template as they are, and each placeholder that is no argument is an error. -/
theorem dataStaysData_iff (h : substitutePromptArgs inherited template args = .ok prompt)
    (exec : Nat → List Char → Except String ExecResult) :
    DataStaysData args template (preprocessPrompt exec prompt) exec ↔
      LeavesBlocks inherited args template := by
  constructor
  · rintro ⟨hnamed, hcommands, -⟩
    rw [commands_preprocessPrompt, commands_of_named h hnamed, filterMap_eq_self_iff] at hcommands
    have hleaves := fun body hbody => command_eq_self_iff.mp (hcommands body hbody)
    refine ⟨fun key hkey hnone => ?_, fun body hbody => (hleaves body hbody).1,
      fun body hbody => (hleaves body hbody).2⟩
    have hsome := hnamed key hkey
    rw [hnone] at hsome
    cases hsome
  · rintro ⟨hown, hnonempty, hclosed⟩
    have hnamed : ∀ key ∈ placeholders template, (args.lookup key).isSome := by
      intro key hkey
      have hmember := (of_substitutePromptArgs h).1 key hkey
      cases hlookup : args.lookup key with
      | some arg => rfl
      | none =>
        have hnone := hown key hkey hlookup
        simp [memberText, lookup_sanitizedArgs, hlookup, hnone] at hmember
    have hself : ∀ body ∈ filledBodies args template, command body = some body :=
      fun body hbody => command_eq_self_iff.mpr ⟨hnonempty body hbody, hclosed body hbody⟩
    have hcommands := (commands_of_named h hnamed).trans ((filterMap_eq_self_iff _).mpr hself)
    refine ⟨hnamed, (commands_preprocessPrompt exec prompt).trans hcommands, ?_⟩
    rw [result_preprocessPrompt, hcommands]
    cases hresults : expandAll exec (filledBodies args template) with
    | error message => rfl
    | ok results =>
      have hlength := length_of_expandAll hresults
      simp only [Except.map, weave_of_named h hnamed hself hlength]

end

/-! ### Two prompts -/

def printsBlock (_ : Nat) (_ : List Char) : Except String ExecResult :=
  .ok { stdout := "!`rm`\n".toList, stderr := [], exitCode := 0 }

/-- An argument outside the blocks, which looks like a block. -/
def blockArgument : PromptArgs := [("T".toList, .text "!`rm`".toList)]

def backtickArgument : PromptArgs := [("T".toList, .text "a`b".toList)]

/-- Outside the blocks, a text that looks like a block stays a text. -/
theorem blockArgument_stays :
    DataStaysData blockArgument "!`date` \x7b\x7b T \x7d\x7d".toList
      (preprocessPrompt printsBlock "!\x01`date` !`rm`".toList) printsBlock :=
  (@dataStaysData_iff (fun _ => none) _ _ _ (by decide) printsBlock).mpr
    ⟨by decide, by decide, by decide⟩

/-- Inside a block, a backtick ends the block. -/
theorem backtickArgument_ends_block :
    ∃ prompt, substitutePromptArgs (fun _ => none) "!`echo \x7b\x7bT\x7d\x7d`".toList
        backtickArgument = .ok prompt ∧
      ∀ exec, ¬ DataStaysData backtickArgument "!`echo \x7b\x7bT\x7d\x7d`".toList
        (preprocessPrompt exec prompt) exec := by
  refine ⟨"!\x01`echo a`b`".toList, by decide, fun exec hdata => ?_⟩
  have hcommands := hdata.commands
  rw [commands_preprocessPrompt] at hcommands
  exact absurd hcommands (by decide)

end ArchLoop.PromptTemplate
