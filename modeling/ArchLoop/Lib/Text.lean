import Mathlib.Data.List.DropRight
import Mathlib.Data.String.Defs

/-!
# `ArchLoop.Lib.Text`: the output of a command, as a program reads it

A command prints lines, each ended by a line break (`unlines`). A program that reads them
takes the blanks off both ends (`trim`) and splits the text at the line breaks
(`splitLines`). `splitLines_trim_unlines` says when it gets the lines back. `sliceAfter`
reads the rest of a line behind a keyword.
-/

set_option autoImplicit false

namespace ArchLoop.Lib

/-- A character that `trim` takes off. -/
def isBlank (c : Char) : Bool :=
  let n := c.toNat
  (9 ≤ n && n ≤ 13) || n == 0x20 || n == 0xa0 || n == 0x1680 || (0x2000 ≤ n && n ≤ 0x200a) ||
    n == 0x2028 || n == 0x2029 || n == 0x202f || n == 0x205f || n == 0x3000 || n == 0xfeff

/-- The text without the blanks at its ends. -/
def trim (text : String) : String :=
  String.ofList ((text.toList.dropWhile isBlank).rdropWhile isBlank)

/-- The pieces between the line breaks. -/
def splitLines (text : String) : List String :=
  (text.toList.splitOn '\n').map String.ofList

/-- The lines, each with a line break behind it. -/
def unlines (lines : List String) : String :=
  String.ofList (lines.flatMap fun line => line.toList ++ ['\n'])

/-- What follows the keyword, when the line starts with it. -/
def sliceAfter (keyword line : String) : Option String :=
  if keyword.toList.isPrefixOf line.toList then
    some (String.ofList (line.toList.drop keyword.toList.length))
  else none

/-- The text is one line without blanks at its ends. -/
structure IsPlain (text : String) : Prop where
  ne : text ≠ ""
  line : '\n' ∉ text.toList
  head : ∀ c ∈ text.toList.head?, isBlank c = false
  last : ∀ c ∈ text.toList.getLast?, isBlank c = false

theorem all_not_isBlank {o : Option Char} :
    o.all (!isBlank ·) = true ↔ ∀ c ∈ o, isBlank c = false := by
  cases o with
  | none => simp
  | some c => simp

instance (text : String) : Decidable (IsPlain text) :=
  decidable_of_iff (text ≠ "" ∧ '\n' ∉ text.toList ∧
      text.toList.head?.all (!isBlank ·) = true ∧ text.toList.getLast?.all (!isBlank ·) = true)
    ⟨fun h => ⟨h.1, h.2.1, all_not_isBlank.mp h.2.2.1, all_not_isBlank.mp h.2.2.2⟩,
      fun h => ⟨h.ne, h.line, all_not_isBlank.mpr h.head, all_not_isBlank.mpr h.last⟩⟩

/-! ### Letters -/

theorem isAlpha_toNat {c : Char} (h : c.isAlpha = true) :
    (65 ≤ c.toNat ∧ c.toNat ≤ 90) ∨ (97 ≤ c.toNat ∧ c.toNat ≤ 122) := by
  have hcases : (decide (65 ≤ c.val ∧ c.val ≤ 90)
      || decide (97 ≤ c.val) && decide (c.val ≤ 122)) = true := h
  simp only [Bool.or_eq_true, Bool.and_eq_true, decide_eq_true_eq, UInt32.le_iff_toNat_le]
    at hcases
  exact hcases

theorem isAlpha_of_isBlank {c : Char} (h : isBlank c = true) : c.isAlpha = false := by
  rw [← Bool.not_eq_true]
  intro halpha
  have hletter := isAlpha_toNat halpha
  simp only [isBlank, Bool.or_eq_true, Bool.and_eq_true, decide_eq_true_eq, beq_iff_eq] at h
  omega

/-! ### Trimming -/

theorem rdropWhile_blanks {l tail : List Char} (hlast : ∀ c ∈ l.getLast?, isBlank c = false)
    (htail : ∀ c ∈ tail, isBlank c = true) : (l ++ tail).rdropWhile isBlank = l := by
  induction tail using List.reverseRecOn with
  | nil =>
    rw [List.append_nil, List.rdropWhile_eq_self_iff]
    intro hl
    have hc := hlast (l.getLast hl) (List.getLast?_eq_some_getLast hl)
    simp [hc]
  | append_singleton tail c ih =>
    have hc : isBlank c = true := htail c (by simp)
    rw [← List.append_assoc, List.rdropWhile_concat_pos (p := isBlank) (h := hc)]
    exact ih fun d hd => htail d (by simp [hd])

theorem trimmed_eq {l tail : List Char} (hhead : ∀ c ∈ l.head?, isBlank c = false)
    (hlast : ∀ c ∈ l.getLast?, isBlank c = false) (hne : l ≠ [])
    (htail : ∀ c ∈ tail, isBlank c = true) :
    ((l ++ tail).dropWhile isBlank).rdropWhile isBlank = l := by
  have hstart : (l ++ tail).dropWhile isBlank = l ++ tail := by
    cases l with
    | nil => exact absurd rfl hne
    | cons c l =>
      have hc : isBlank c = false := hhead c rfl
      rw [List.cons_append, List.dropWhile_cons_of_neg (by simp [hc])]
  rw [hstart, rdropWhile_blanks hlast htail]

theorem trim_ofList {l : List Char} (hhead : ∀ c ∈ l.head?, isBlank c = false)
    (hlast : ∀ c ∈ l.getLast?, isBlank c = false) : trim (String.ofList l) = String.ofList l := by
  by_cases hne : l = []
  · subst hne
    rfl
  · have htrim : ((l ++ []).dropWhile isBlank).rdropWhile isBlank = l :=
      trimmed_eq hhead hlast hne (by simp)
    rw [List.append_nil] at htrim
    rw [trim, String.toList_ofList, htrim]

theorem IsPlain.toList_ne {text : String} (h : IsPlain text) : text.toList ≠ [] := by
  intro hnil
  exact h.ne (by rw [← String.ofList_toList (s := text), hnil, String.ofList_nil])

@[simp] theorem trim_of_isPlain {text : String} (h : IsPlain text) : trim text = text := by
  have hnone : ∀ c ∈ ([] : List Char), isBlank c = true := by simp
  have htrimmed := trimmed_eq h.head h.last h.toList_ne hnone
  rw [List.append_nil] at htrimmed
  rw [trim, htrimmed, String.ofList_toList]

theorem head?_trimmed (l : List Char) :
    ∀ c ∈ ((l.dropWhile isBlank).rdropWhile isBlank).head?, isBlank c = false := by
  intro c hc
  have hprefix : (l.dropWhile isBlank).rdropWhile isBlank <+: l.dropWhile isBlank :=
    List.rdropWhile_prefix isBlank _
  obtain ⟨tail, htail⟩ := hprefix
  cases htrimmed : (l.dropWhile isBlank).rdropWhile isBlank with
  | nil =>
    rw [htrimmed] at hc
    cases hc
  | cons d rest =>
    rw [htrimmed] at hc htail
    obtain rfl : d = c := by simpa using hc
    have hhead : (l.dropWhile isBlank).head? = some d := by rw [← htail]; rfl
    have hnot := List.head?_dropWhile_not isBlank l
    rw [hhead] at hnot
    simpa using hnot

theorem trim_trim (text : String) : trim (trim text) = trim text := by
  rw [trim, trim, String.toList_ofList]
  have hhead := head?_trimmed text.toList
  have hstart : ((text.toList.dropWhile isBlank).rdropWhile isBlank).dropWhile isBlank =
      (text.toList.dropWhile isBlank).rdropWhile isBlank := by
    cases htrimmed : (text.toList.dropWhile isBlank).rdropWhile isBlank with
    | nil => rfl
    | cons c rest =>
      have hc : isBlank c = false := hhead c (by rw [htrimmed]; rfl)
      rw [List.dropWhile_cons_of_neg (by simp [hc])]
  rw [hstart, List.rdropWhile_idempotent]

theorem mem_trim {text : String} {c : Char} (hmem : c ∈ text.toList) (hc : isBlank c = false) :
    c ∈ (trim text).toList := by
  have hdrop : ∀ {l : List Char}, c ∈ l → c ∈ l.dropWhile isBlank := by
    intro l hl
    have hsplit := List.takeWhile_append_dropWhile (p := isBlank) (l := l)
    rw [← hsplit] at hl
    refine (List.mem_append.mp hl).resolve_left fun htaken => ?_
    have := List.mem_takeWhile_imp htaken
    simp [hc] at this
  rw [trim, String.toList_ofList, List.rdropWhile, List.mem_reverse]
  exact hdrop (List.mem_reverse.mpr (hdrop hmem))

/-! ### Lines -/

theorem mem_intercalate {l : List (List Char)} {c d : Char} (h : c ∈ [d].intercalate l) :
    c = d ∨ ∃ piece ∈ l, c ∈ piece := by
  induction l with
  | nil => simp at h
  | cons piece l ih =>
    cases l with
    | nil => exact Or.inr ⟨piece, by simp, by simpa using h⟩
    | cons next rest =>
      rw [List.intercalate_cons_of_ne_nil (by simp)] at h
      simp only [List.mem_append, List.mem_singleton] at h
      rcases h with (hpiece | hsep) | hrest
      · exact Or.inr ⟨piece, by simp, hpiece⟩
      · exact Or.inl hsep
      · rcases ih hrest with hsep | ⟨p, hp, hc⟩
        · exact Or.inl hsep
        · exact Or.inr ⟨p, List.mem_cons_of_mem _ hp, hc⟩

theorem exists_mem_splitLines_trim {text : String} {c : Char} (hmem : c ∈ text.toList)
    (hc : isBlank c = false) : ∃ line ∈ splitLines (trim text), line ≠ "" := by
  have htrim := mem_trim hmem hc
  have hjoin : ['\n'].intercalate ((trim text).toList.splitOn '\n') = (trim text).toList :=
    List.intercalate_splitOn '\n'
  rw [← hjoin] at htrim
  rcases mem_intercalate htrim with rfl | ⟨piece, hpiece, hcp⟩
  · exact absurd hc (by decide)
  · refine ⟨String.ofList piece, List.mem_map_of_mem hpiece, fun hempty => ?_⟩
    rw [show piece = [] by simpa using congrArg String.toList hempty] at hcp
    cases hcp

theorem unlines_eq (lines : List String) :
    (unlines lines).toList = ['\n'].intercalate (lines.map String.toList ++ [[]]) := by
  rw [unlines, String.toList_ofList]
  induction lines with
  | nil => rfl
  | cons line lines ih =>
    rw [List.flatMap_cons, ih, List.map_cons, List.cons_append,
      List.intercalate_cons_of_ne_nil (by simp)]

theorem splitLines_of_toList {text : String} {lines : List String}
    (h : text.toList = ['\n'].intercalate (lines.map String.toList))
    (hline : ∀ line ∈ lines, '\n' ∉ line.toList) (hne : lines ≠ []) :
    splitLines text = lines := by
  rw [splitLines, h, List.splitOn_intercalate]
  · rw [List.map_map]
    exact List.map_id'' (fun line => String.ofList_toList) lines
  · intro l hl
    obtain ⟨line, hmem, rfl⟩ := List.mem_map.mp hl
    exact hline line hmem
  · simpa using hne

theorem intercalate_concat_nil (d : Char) {l : List (List Char)} (hne : l ≠ []) :
    [d].intercalate (l ++ [[]]) = [d].intercalate l ++ [d] := by
  induction l with
  | nil => exact absurd rfl hne
  | cons piece l ih =>
    cases l with
    | nil => simp [List.intercalate_cons_of_ne_nil]
    | cons next rest =>
      have hlong : [d].intercalate (piece :: next :: rest) =
          piece ++ [d] ++ [d].intercalate (next :: rest) :=
        List.intercalate_cons_of_ne_nil (by simp)
      rw [List.cons_append, List.intercalate_cons_of_ne_nil (by simp), ih (by simp), hlong,
        List.append_assoc (piece ++ [d])]

theorem exists_intercalate_concat (d : Char) (l : List (List Char)) (piece : List Char) :
    ∃ start, [d].intercalate (l ++ [piece]) = start ++ piece := by
  induction l with
  | nil => exact ⟨[], by simp⟩
  | cons first l ih =>
    obtain ⟨start, hstart⟩ := ih
    refine ⟨first ++ [d] ++ start, ?_⟩
    rw [List.cons_append, List.intercalate_cons_of_ne_nil (by simp), hstart,
      List.append_assoc (first ++ [d])]

/-- A program that trims the output and splits it gets the lines back. The last line that
counts may be followed by an empty one. -/
theorem splitLines_trim_unlines {first last : String} {lines init : List String}
    (hlines : ∀ line ∈ lines, '\n' ∉ line.toList) (hfirst : lines.head? = some first)
    (hhead : ∀ c ∈ first.toList.head?, isBlank c = false) (hfirstne : first.toList ≠ [])
    (hlast : lines = init ++ [last]) (hend : ∀ c ∈ last.toList.getLast?, isBlank c = false)
    (hlastne : last.toList ≠ []) :
    splitLines (trim (unlines (lines ++ [""]))) = lines := by
  have hne : lines ≠ [] := by
    rintro rfl
    cases hfirst
  have hmapne : lines.map String.toList ≠ [] := by simpa using hne
  refine splitLines_of_toList ?_ hlines hne
  have htext : (unlines (lines ++ [""])).toList =
      ['\n'].intercalate (lines.map String.toList) ++ ['\n', '\n'] := by
    rw [unlines_eq, List.map_append, List.map_cons, List.map_nil,
      intercalate_concat_nil _ (by simp), String.toList_empty, intercalate_concat_nil _ hmapne,
      List.append_assoc]
    rfl
  rw [trim, String.toList_ofList, htext]
  have hbreaks : ∀ c ∈ ['\n', '\n'], isBlank c = true := by
    simp only [List.mem_cons, List.not_mem_nil, or_false, or_self, forall_eq]
    decide
  refine trimmed_eq ?_ ?_ ?_ hbreaks
  · obtain ⟨rest, rfl⟩ := List.head?_eq_some_iff.mp hfirst
    have hhead' : (['\n'].intercalate ((first :: rest).map String.toList)).head? =
        first.toList.head? := by
      cases rest with
      | nil => simp
      | cons next rest =>
        rw [List.map_cons, List.intercalate_cons_of_ne_nil (by simp), List.append_assoc,
          List.head?_append_of_ne_nil _ hfirstne]
    rw [hhead']
    exact hhead
  · obtain ⟨start, hstart⟩ := exists_intercalate_concat '\n' (init.map String.toList) last.toList
    rw [hlast, List.map_append, List.map_cons, List.map_nil, hstart,
      List.getLast?_append_of_ne_nil _ hlastne]
    exact hend
  · obtain ⟨start, hstart⟩ := exists_intercalate_concat '\n' (init.map String.toList) last.toList
    rw [hlast, List.map_append, List.map_cons, List.map_nil, hstart]
    simp [hlastne]

/-- A program that trims the output and splits it gets the lines back, but for the blanks that the
first line begins with. -/
theorem splitLines_trim_unlines_cons {first : String} {rest : List String}
    (hlines : ∀ line ∈ first :: rest, '\n' ∉ line.toList)
    (hends : ∀ line ∈ first :: rest, ∃ c ∈ line.toList.getLast?, isBlank c = false) :
    splitLines (trim (unlines (first :: rest))) =
      String.ofList (first.toList.dropWhile isBlank) :: rest := by
  obtain ⟨c, hc, hblank⟩ := hends first List.mem_cons_self
  have hne : first.toList.dropWhile isBlank ≠ [] := by
    intro hnil
    have hall := List.dropWhile_eq_nil_iff.mp hnil c (List.mem_of_mem_getLast? hc)
    rw [hblank] at hall
    cases hall
  -- Dropping blanks from the text drops them from its first line.
  have hdrop : ∀ tail : List Char, (first.toList ++ tail).dropWhile isBlank =
      first.toList.dropWhile isBlank ++ tail := by
    intro tail
    rw [List.dropWhile_append, if_neg (by simpa using hne)]
  have hsub : ∀ d ∈ first.toList.dropWhile isBlank, d ∈ first.toList :=
    fun d hd => (List.dropWhile_suffix isBlank).subset hd
  refine splitLines_of_toList ?_ ?_ (by simp)
  · rw [trim, String.toList_ofList, unlines_eq, intercalate_concat_nil _ (by simp)]
    have htext : ∀ piece : List Char, ∃ tail,
        ['\n'].intercalate (piece :: rest.map String.toList) = piece ++ tail ∧
        ['\n'].intercalate (first.toList :: rest.map String.toList) = first.toList ++ tail := by
      intro piece
      cases rest with
      | nil => exact ⟨[], by simp⟩
      | cons next rest =>
        refine ⟨['\n'] ++ ['\n'].intercalate ((next :: rest).map String.toList), ?_, ?_⟩ <;>
          rw [List.map_cons, List.intercalate_cons_of_ne_nil (by simp), List.append_assoc]
    obtain ⟨tail, hpiece, hfirst⟩ := htext (first.toList.dropWhile isBlank)
    rw [List.map_cons, List.map_cons, String.toList_ofList, hpiece, hfirst, List.append_assoc,
      hdrop, ← List.append_assoc]
    refine rdropWhile_blanks ?_ (by simp [isBlank])
    -- The text ends with its last line.
    intro d hd
    rw [← hpiece] at hd
    rcases List.eq_nil_or_concat rest with rfl | ⟨init, last, rfl⟩
    · obtain ⟨start, hstart⟩ := List.dropWhile_suffix isBlank (l := first.toList)
      rw [← hstart, List.getLast?_append_of_ne_nil _ hne] at hc
      rw [List.map_nil, List.intercalate_singleton] at hd
      rw [Option.mem_unique hd hc, hblank]
    · obtain ⟨l, hl, hlblank⟩ := hends last (by simp)
      obtain ⟨start, hstart⟩ := exists_intercalate_concat '\n'
        (first.toList.dropWhile isBlank :: init.map String.toList) last.toList
      have hlne : last.toList ≠ [] := List.ne_nil_of_mem (List.mem_of_mem_getLast? hl)
      rw [List.concat_eq_append, List.map_append, List.map_cons, List.map_nil, ← List.cons_append,
        hstart, List.getLast?_append_of_ne_nil _ hlne] at hd
      rw [Option.mem_unique hd hl, hlblank]
  · intro line hline
    rcases List.mem_cons.mp hline with rfl | hrest
    · rw [String.toList_ofList]
      exact fun hmem => hlines first List.mem_cons_self (hsub _ hmem)
    · exact hlines line (List.mem_cons_of_mem _ hrest)

/-! ### Keywords -/

@[simp] theorem sliceAfter_append (keyword rest : String) :
    sliceAfter keyword (keyword ++ rest) = some rest := by
  simp [sliceAfter, String.toList_append]

/-! ### Pieces -/

section Pieces

variable {d : Char} {a piece : List Char}

theorem splitOn_separator (d : Char) (a b : List Char) :
    (a ++ d :: b).splitOn d = a.splitOn d ++ b.splitOn d := by
  induction a with
  | nil => simp [List.splitOn_cons_eq_if_modifyHead]
  | cons c a ih =>
    rw [List.cons_append, List.splitOn_cons_eq_if_modifyHead, List.splitOn_cons_eq_if_modifyHead,
      ih]
    split
    · rfl
    · cases h : a.splitOn d with
      | nil => exact absurd h (List.splitOn_ne_nil _ _)
      | cons first rest => rfl

theorem splitOn_intercalate {parts : List (List Char)} (hne : parts ≠ []) :
    ([d].intercalate parts).splitOn d = parts.flatMap (·.splitOn d) := by
  induction parts with
  | nil => exact absurd rfl hne
  | cons part parts ih =>
    cases parts with
    | nil => simp
    | cons next rest =>
      rw [List.intercalate_cons_of_ne_nil (by simp), List.append_assoc, List.singleton_append,
        splitOn_separator, ih (by simp)]
      rfl

theorem notMem_of_mem_splitOn {d : Char} {l piece : List Char} (h : piece ∈ l.splitOn d) :
    d ∉ piece := by
  induction l generalizing piece with
  | nil =>
    rw [List.splitOn_nil, List.mem_singleton] at h
    rw [h]
    exact List.not_mem_nil
  | cons c l ih =>
    rw [List.splitOn_cons_eq_if_modifyHead] at h
    split at h
    · rcases List.mem_cons.mp h with rfl | hrest
      · exact List.not_mem_nil
      · exact ih hrest
    · rename_i hne
      cases hpieces : l.splitOn d with
      | nil => exact absurd hpieces (List.splitOn_ne_nil _ _)
      | cons first rest =>
        rw [hpieces, List.modifyHead_cons, List.mem_cons] at h
        rcases h with rfl | hrest
        · have hfirst : d ∉ first := ih (hpieces ▸ List.mem_cons_self)
          have hc : d ≠ c := fun heq => hne (by simp [heq])
          simp [hfirst, hc]
        · exact ih (hpieces ▸ List.mem_cons_of_mem _ hrest)

theorem sublist_of_mem_splitOn (h : piece ∈ a.splitOn d) : piece.Sublist a := by
  induction a generalizing piece with
  | nil => simp_all
  | cons c a ih =>
    rw [List.splitOn_cons_eq_if_modifyHead] at h
    split at h
    · rcases List.mem_cons.mp h with rfl | hmem
      · simp
      · exact (ih hmem).cons c
    · cases hsplit : a.splitOn d with
      | nil => exact absurd hsplit (List.splitOn_ne_nil _ _)
      | cons first rest =>
        rw [hsplit, List.modifyHead_cons] at h
        rcases List.mem_cons.mp h with rfl | hmem
        · exact (ih (by simp [hsplit])).cons_cons c
        · exact (ih (by simp [hsplit, hmem])).cons c

theorem length_lt_of_mem_splitOn (hsep : d ∈ a) (h : piece ∈ a.splitOn d) :
    piece.length < a.length := by
  refine Nat.lt_of_le_of_ne (sublist_of_mem_splitOn h).length_le fun hlength => ?_
  have hsame : piece = a := (sublist_of_mem_splitOn h).eq_of_length hlength
  exact notMem_of_mem_splitOn h (hsame ▸ hsep)

end Pieces

end ArchLoop.Lib
