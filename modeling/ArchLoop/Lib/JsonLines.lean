import ArchLoop.Lib.JsonText
import ArchLoop.Lib.Utf8

/-!
# `ArchLoop.Lib.JsonLines`: files of JSON lines that records are appended to

A file has a value on each line, and a reader that skips the lines it does not understand. A crash
may leave the last line incomplete. `read_append` and `read_append_torn` say what is read after a
line was appended: all that was read before and the new value when the file ended with a whole
line, and not even the last line when it did not.
-/

set_option autoImplicit false

namespace ArchLoop.Lib.JsonLines

open JsonText (Value parse print Printable isWhitespace IsPlainStart)

/-- The line is skipped without a try to parse it. -/
def isBlankLine (line : List Char) : Bool := line.all isBlank

/-- The lines of a file, the last one without a line break. -/
def linesOf (octets : List UInt8) : List (List Char) := (Utf8.decode octets).splitOn '\n'

/-- What a reader makes of a line. -/
def readLine {α : Type} (parseRecord : Value → Option α) (line : List Char) : Option α :=
  if isBlankLine line then none else (parse line).bind parseRecord

/-- What a reader makes of the lines. -/
def readLines {α : Type} (parseRecord : Value → Option α) (lines : List (List Char)) : List α :=
  lines.filterMap (readLine parseRecord)

/-- What a reader makes of a file. -/
def read {α : Type} (parseRecord : Value → Option α) (octets : List UInt8) : List α :=
  readLines parseRecord (linesOf octets)

/-- The octets that are written for a value. -/
def lineOf (value : Value) : List UInt8 := Utf8.encode (print value ++ ['\n'])

/-- The text behind the last line break. -/
def tailOf (octets : List UInt8) : List Char := (linesOf octets).getLastD []

/-- The lines before it. -/
def wholeLines (octets : List UInt8) : List (List Char) := (linesOf octets).dropLast

/-- The value is an object that the reader of texts keeps apart from what stands before it. -/
structure IsLine (value : Value) : Prop where
  members : ∃ name first rest c tail, value = .object ((name, first) :: rest) ∧
    name.toList = c :: tail ∧ IsPlainStart c
  printable : Printable value

theorem splitOn_append (a : List Char) {line : List Char} (hline : '\n' ∉ line) :
    ∃ init last, a.splitOn '\n' = init ++ [last] ∧
      (a ++ line).splitOn '\n' = init ++ [last ++ line] := by
  induction a with
  | nil => exact ⟨[], [], rfl, List.splitOn_eq_singleton hline⟩
  | cons c a ih =>
    obtain ⟨init, last, hbefore, hafter⟩ := ih
    rw [List.cons_append, List.splitOn_cons_eq_if_modifyHead, List.splitOn_cons_eq_if_modifyHead,
      hbefore, hafter]
    split
    · exact ⟨[] :: init, last, rfl, rfl⟩
    · -- The character joins the first line, which may be the last one.
      cases init with
      | nil => exact ⟨[], c :: last, rfl, rfl⟩
      | cons first init => exact ⟨(c :: first) :: init, last, rfl, rfl⟩

theorem linesOf_eq (octets : List UInt8) :
    linesOf octets = wholeLines octets ++ [tailOf octets] := by
  have hne : linesOf octets ≠ [] := List.splitOn_ne_nil _ _
  have hlast : tailOf octets = (linesOf octets).getLast hne := by
    rw [tailOf, List.getLastD_eq_getLast?, List.getLast?_eq_some_getLast hne, Option.getD_some]
  rw [wholeLines, hlast, List.dropLast_append_getLast]

section Appended

variable {value : Value} (h : IsLine value)

include h

theorem print_cons : ∃ rest, print value = '{' :: rest := by
  obtain ⟨name, first, members, c, tail, rfl, hname, hc⟩ := h.members
  obtain ⟨rest, hrest⟩ := JsonText.print_object_eq hname hc first members
  exact ⟨_, hrest⟩

theorem linesOf_append (octets : List UInt8) :
    linesOf (octets ++ lineOf value) =
      wholeLines octets ++ [tailOf octets ++ print value, []] := by
  obtain ⟨rest, hprint⟩ := print_cons h
  have htext : Utf8.decode (octets ++ lineOf value) =
      Utf8.decode octets ++ print value ++ '\n' :: [] := by
    rw [lineOf, hprint, List.cons_append, Utf8.decode_append_encode octets (by decide),
      List.append_assoc, List.cons_append]
  obtain ⟨init, last, hbefore, hafter⟩ := splitOn_append (Utf8.decode octets)
    (JsonText.break_notMem_print value h.printable)
  have hlines := linesOf_eq octets
  rw [linesOf, hbefore] at hlines
  obtain ⟨rfl, hlast⟩ := List.append_inj' hlines rfl
  cases hlast
  rw [linesOf, htext, List.splitOn_append_cons_self, hafter, List.append_assoc]
  rfl

theorem linesOf_prefix (octets : List UInt8) {written rest : List UInt8}
    (hsplit : written ++ rest = lineOf value) (hrest : rest ≠ []) :
    ∃ text, linesOf (octets ++ written) = wholeLines octets ++ [tailOf octets ++ text] ∧
      (written ≠ [] → '{' ∈ text) := by
  rcases List.eq_nil_or_concat' written with rfl | ⟨front, octet, hwritten⟩
  · refine ⟨[], ?_, fun hne => absurd rfl hne⟩
    rw [List.append_nil, List.append_nil]
    exact linesOf_eq octets
  have hne : written ≠ [] := by
    rw [hwritten]
    simp
  obtain ⟨printed, hprint⟩ := print_cons h
  have hline : lineOf value = Utf8.encode (print value) ++ [0x0A] := by
    rw [lineOf, Utf8.encode, List.flatMap_append]
    rfl
  -- What was written comes before the line break.
  have hfront : ∃ more, Utf8.encode (print value) = written ++ more := by
    obtain ⟨init, last, rfl⟩ : ∃ init last, rest = init ++ [last] :=
      ⟨_, _, (List.dropLast_append_getLast hrest).symm⟩
    rw [hline, ← List.append_assoc] at hsplit
    exact ⟨init, (List.append_inj' hsplit rfl).1.symm⟩
  obtain ⟨more, hmore⟩ := hfront
  have hbreak : '\n' ∉ Utf8.decode written := by
    intro hmem
    have hoctet : (0x0A : UInt8) ∈ Utf8.encode (print value) := by
      rw [hmore]
      exact List.mem_append_left _ (Utf8.break_mem_of_decode hmem)
    obtain ⟨c, hc, hmemc⟩ := List.mem_flatMap.mp hoctet
    have hvalue := Utf8.eq_of_mem_encode (by decide) hmemc
    have heq : c = '\n' := Char.toNat_inj.mp hvalue
    exact JsonText.break_notMem_print value h.printable (heq ▸ hc)
  obtain ⟨tail, htail⟩ : ∃ tail, written = 0x7B :: tail := by
    cases written with
    | nil => exact absurd rfl hne
    | cons first tail =>
      rw [hprint, Utf8.encode, List.flatMap_cons] at hmore
      exact ⟨tail, congrArg (· :: tail) (List.cons.inj hmore).1.symm⟩
  have hdecode : Utf8.decode (0x7B :: tail) = '{' :: Utf8.decode tail :=
    Utf8.decode_encode_append '{' tail
  have htext : Utf8.decode (octets ++ 0x7B :: tail) =
      Utf8.decode octets ++ '{' :: Utf8.decode tail := by
    rw [Utf8.decode_append (by decide), hdecode]
  rw [htail, hdecode] at hbreak
  obtain ⟨init, last, hbefore, hafter⟩ := splitOn_append (Utf8.decode octets) hbreak
  have hlines := linesOf_eq octets
  rw [linesOf, hbefore] at hlines
  obtain ⟨hinit, hlast⟩ := List.append_inj' hlines rfl
  cases hlast
  refine ⟨'{' :: Utf8.decode tail, ?_, fun _ => List.mem_cons_self⟩
  rw [htail, linesOf, htext, hafter, hinit]

theorem torn_of_prefix (octets : List UInt8) {written rest : List UInt8}
    (hsplit : written ++ rest = lineOf value) (hwritten : written ≠ []) (hrest : rest ≠ []) :
    ∃ c ∈ tailOf (octets ++ written), isWhitespace c = false := by
  obtain ⟨text, hlines, hbrace⟩ := linesOf_prefix h octets hsplit hrest
  have htail : tailOf (octets ++ written) = tailOf octets ++ text := by
    rw [tailOf, hlines, List.getLastD_concat]
  rw [htail]
  exact ⟨'{', List.mem_append_right _ (hbrace hwritten), rfl⟩

theorem tailOf_append (octets : List UInt8) : tailOf (octets ++ lineOf value) = [] := by
  have hlast : wholeLines octets ++ [tailOf octets ++ print value, []] =
      (wholeLines octets ++ [tailOf octets ++ print value]) ++ [[]] := by simp
  rw [tailOf, linesOf_append h, hlast, List.getLastD_concat]

end Appended

/-! ### Reading -/

section Reading

variable {α : Type} {parseRecord : Value → Option α} {value : Value}

theorem readLines_append (a b : List (List Char)) :
    readLines parseRecord (a ++ b) = readLines parseRecord a ++ readLines parseRecord b :=
  List.filterMap_append

theorem readLines_singleton (line : List Char) :
    readLines parseRecord [line] = (readLine parseRecord line).toList := by
  rw [readLines, List.filterMap_cons, List.filterMap_nil]
  cases readLine parseRecord line with
  | none => rfl
  | some record => rfl

theorem read_eq (octets : List UInt8) :
    read parseRecord octets = readLines parseRecord (wholeLines octets) ++
      (readLine parseRecord (tailOf octets)).toList := by
  rw [read, linesOf_eq, readLines_append, readLines_singleton]

theorem isBlank_of_isWhitespace {c : Char} (h : isWhitespace c = true) : isBlank c = true := by
  simp only [isWhitespace, Bool.or_eq_true, beq_iff_eq] at h
  rcases h with ((rfl | rfl) | rfl) | rfl <;> decide

theorem readLine_whitespace {line : List Char} (h : ∀ c ∈ line, isWhitespace c = true) :
    readLine parseRecord line = none := by
  rw [readLine, if_pos]
  exact List.all_eq_true.mpr fun c hc => isBlank_of_isWhitespace (h c hc)

theorem not_isBlankLine (h : IsLine value) (tail : List Char) :
    isBlankLine (tail ++ print value) = false := by
  obtain ⟨rest, hprint⟩ := print_cons h
  rw [hprint, isBlankLine, List.all_append, List.all_cons]
  have hbrace : isBlank '{' = false := by decide
  rw [hbrace, Bool.false_and, Bool.and_false]

theorem read_append (h : IsLine value) {octets : List UInt8}
    (hwhole : ∀ c ∈ tailOf octets, isWhitespace c = true) :
    read parseRecord (octets ++ lineOf value) =
      read parseRecord octets ++ (parseRecord value).toList := by
  have hline : readLine parseRecord (tailOf octets ++ print value) = parseRecord value := by
    rw [readLine, not_isBlankLine h, if_neg Bool.false_ne_true,
      JsonText.parse_append hwhole h.printable, Option.bind_some]
  have hempty : readLine parseRecord [] = none := readLine_whitespace (by simp)
  rw [read, linesOf_append h, readLines_append, read_eq, readLine_whitespace hwhole,
    Option.toList_none, List.append_nil, ← hline, ← readLines_singleton]
  have hlines : readLines parseRecord [tailOf octets ++ print value, []] =
      readLines parseRecord [tailOf octets ++ print value] := by
    rw [← List.singleton_append, readLines_append, readLines_singleton [], hempty]
    exact List.append_nil _
  rw [hlines]

theorem subset_read_prefix (h : IsLine value) {octets written rest : List UInt8}
    (hsplit : written ++ rest = lineOf value) (hrest : rest ≠ [])
    (hwhole : ∀ c ∈ tailOf octets, isWhitespace c = true) :
    read parseRecord octets ⊆ read parseRecord (octets ++ written) := by
  obtain ⟨text, hlines, -⟩ := linesOf_prefix h octets hsplit hrest
  have hbefore : read parseRecord octets = readLines parseRecord (wholeLines octets) := by
    rw [read_eq, readLine_whitespace hwhole]
    exact List.append_nil _
  rw [hbefore, read, hlines, readLines_append]
  exact List.subset_append_left _ _

theorem read_append_torn (h : IsLine value) {octets : List UInt8}
    (htorn : ∃ c ∈ tailOf octets, isWhitespace c = false) :
    read parseRecord (octets ++ lineOf value) = readLines parseRecord (wholeLines octets) := by
  obtain ⟨name, first, members, c, tail, hvalue, hname, hc⟩ := h.members
  have hline : readLine parseRecord (tailOf octets ++ print value) = none := by
    have hprintable := h.printable
    rw [hvalue] at hprintable
    rw [readLine, not_isBlankLine h, if_neg Bool.false_ne_true, hvalue,
      JsonText.parse_append_eq_none htorn hname hc hprintable, Option.bind_none]
  have hempty : readLine parseRecord [] = none := readLine_whitespace (by simp)
  rw [read, linesOf_append h, readLines_append, ← List.singleton_append, readLines_append,
    readLines_singleton, readLines_singleton, hline, hempty]
  exact List.append_nil _

end Reading

end ArchLoop.Lib.JsonLines
