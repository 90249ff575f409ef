import ArchLoop.Lib.Text
import Mathlib.Data.List.Basic

/-!
# `ArchLoop.Lib.Quoting`: names that are printed in quotes when they have to be

A program prints a name as it is, or in double quotes with the special characters escaped. A
`Quoting` says which characters are special and how they are escaped, and that a quoted name can be
read back: it ends at its closing quote (`read_escape`).

Who reads such output without the rules of the quotes may take one name for another. `unquote` only
takes the quotes off the ends. `unquote_print_inj` and `unquote_arrow_inj` say that this keeps
names apart, and also lines with two names and an arrow between them, as far as the second name
goes.
-/

set_option autoImplicit false

namespace ArchLoop.Lib

/-- How names are printed.

- `isSpecial`: a name with such a character is printed in quotes.
- `escape`: what stands for a character between the quotes. A blank may stand for itself.
- `read`: reads a name up to its closing quote, and gives the rest. -/
structure Quoting where
  isSpecial : Char → Bool
  escape : Char → List Char
  read : List Char → Option (List Char × List Char)
  special_quote : isSpecial '"' = true
  special_of_isBlank : ∀ c, isBlank c = true → isSpecial c = true
  plain_dash : isSpecial '-' = false
  plain_greater : isSpecial '>' = false
  escape_of_plain : ∀ c, isSpecial c = false → escape c = [c]
  escape_space : escape ' ' = [' ']
  exists_special : ∀ c, isSpecial c = true → ∃ d ∈ escape c, isSpecial d = true
  read_escape : ∀ name rest, read (name.flatMap escape ++ '"' :: rest) = some (name, rest)

namespace Quoting

variable (Q : Quoting)

/-- The name is printed in quotes. -/
def isQuoted (name : List Char) : Bool := name.any Q.isSpecial

/-- What stands between the quotes. -/
def body (name : List Char) : List Char := name.flatMap Q.escape

/-- The printed name. -/
def print (name : List Char) : List Char :=
  if Q.isQuoted name then '"' :: Q.body name ++ ['"'] else name

/-- An arrow between two names. -/
def arrow : List Char := [' ', '-', '>', ' ']

/-- The text without quotes at its ends. -/
def unquote (text : List Char) : List Char :=
  if text.head? = some '"' && text.getLast? = some '"' then text.tail.dropLast else text

variable {Q} {a b c d : List Char}

theorem read_body (name rest : List Char) :
    Q.read (Q.body name ++ '"' :: rest) = some (name, rest) :=
  Q.read_escape name rest

theorem body_quote_inj {x y : List Char} (h : Q.body a ++ '"' :: x = Q.body b ++ '"' :: y) :
    a = b ∧ x = y := by
  have hread := congrArg Q.read h
  rw [read_body, read_body] at hread
  exact Prod.mk.inj (Option.some.inj hread)

theorem body_inj (h : Q.body a = Q.body b) : a = b :=
  (body_quote_inj (x := []) (y := []) (by rw [h])).1

theorem body_nil : Q.body [] = [] := rfl

theorem body_of_plain (h : Q.isQuoted a = false) : Q.body a = a := by
  induction a with
  | nil => rfl
  | cons x a ih =>
    rw [isQuoted, List.any_cons, Bool.or_eq_false_iff] at h
    rw [body, List.flatMap_cons, Q.escape_of_plain x h.1]
    exact congrArg (x :: ·) (ih h.2)

theorem body_arrow : Q.body arrow = arrow := by
  rw [body, arrow]
  simp [Q.escape_space, Q.escape_of_plain _ Q.plain_dash, Q.escape_of_plain _ Q.plain_greater]

theorem body_append : Q.body (a ++ b) = Q.body a ++ Q.body b :=
  List.flatMap_append

theorem print_of_quoted (h : Q.isQuoted a = true) : Q.print a = '"' :: Q.body a ++ ['"'] :=
  if_pos h

theorem print_of_plain (h : Q.isQuoted a = false) : Q.print a = a := by
  rw [print, h, if_neg Bool.false_ne_true]

theorem not_mem_of_plain (h : Q.isQuoted a = false) {x : Char} (hx : Q.isSpecial x = true) :
    x ∉ a := by
  intro hmem
  have hplain := List.any_eq_false.mp h x hmem
  exact hplain hx

/-! ### The ends of a printed name -/

theorem print_ne_nil (h : a ≠ []) : Q.print a ≠ [] := by
  cases hquoted : Q.isQuoted a with
  | true =>
    rw [print_of_quoted hquoted]
    exact List.cons_ne_nil _ _
  | false =>
    rw [print_of_plain hquoted]
    exact h

theorem head?_print : (Q.print a).head? = some '"' ↔ Q.isQuoted a = true := by
  cases hquoted : Q.isQuoted a with
  | true => simp [print_of_quoted hquoted]
  | false =>
    rw [print_of_plain hquoted]
    refine ⟨fun hhead => ?_, fun hfalse => absurd hfalse Bool.false_ne_true⟩
    exact absurd (List.mem_of_head? hhead) (not_mem_of_plain hquoted Q.special_quote)

theorem getLast?_print :
    (Q.print a).getLast? = some '"' ↔ Q.isQuoted a = true := by
  cases hquoted : Q.isQuoted a with
  | true =>
    rw [print_of_quoted hquoted, List.getLast?_concat]
    exact ⟨fun _ => rfl, fun _ => rfl⟩
  | false =>
    rw [print_of_plain hquoted]
    refine ⟨fun hlast => ?_, fun hfalse => absurd hfalse Bool.false_ne_true⟩
    exact absurd (List.mem_of_getLast? hlast) (not_mem_of_plain hquoted Q.special_quote)

theorem isBlank_quote : isBlank '"' = false := by decide

theorem head_print : ∀ x ∈ (Q.print a).head?, isBlank x = false := by
  intro x hx
  cases hquoted : Q.isQuoted a with
  | true =>
    rw [print_of_quoted hquoted] at hx
    cases hx
    exact isBlank_quote
  | false =>
    rw [print_of_plain hquoted] at hx
    by_contra hblank
    refine not_mem_of_plain hquoted (Q.special_of_isBlank x ?_) (List.mem_of_head? hx)
    simpa using hblank

theorem last_print : ∀ x ∈ (Q.print a).getLast?, isBlank x = false := by
  intro x hx
  cases hquoted : Q.isQuoted a with
  | true =>
    rw [print_of_quoted hquoted, List.getLast?_concat] at hx
    cases hx
    exact isBlank_quote
  | false =>
    rw [print_of_plain hquoted] at hx
    by_contra hblank
    refine not_mem_of_plain hquoted (Q.special_of_isBlank x ?_) (List.mem_of_getLast? hx)
    simpa using hblank

/-! ### Names without their quotes -/

theorem unquote_of_quoted (text : List Char) : unquote ('"' :: text ++ ['"']) = text := by
  have hlast : ('"' :: text ++ ['"']).getLast? = some '"' := List.getLast?_concat
  rw [unquote, hlast, if_pos (by simp)]
  simp

theorem unquote_print : unquote (Q.print a) = Q.body a := by
  cases hquoted : Q.isQuoted a with
  | true => rw [print_of_quoted hquoted, unquote_of_quoted]
  | false =>
    have hhead : (Q.print a).head? ≠ some '"' := by
      rw [Ne, head?_print, hquoted]
      exact Bool.false_ne_true
    rw [unquote, if_neg (by simp [hhead]), print_of_plain hquoted, body_of_plain hquoted]

theorem unquote_print_inj (h : unquote (Q.print a) = unquote (Q.print b)) : a = b := by
  rw [unquote_print, unquote_print] at h
  exact body_inj h

/-- Two printed names with an arrow between them. -/
def printTwo (Q : Quoting) (a b : List Char) : List Char := Q.print a ++ arrow ++ Q.print b

theorem head?_printTwo (ha : a ≠ []) :
    (Q.printTwo a b).head? = some '"' ↔ Q.isQuoted a = true := by
  rw [printTwo, List.append_assoc, List.head?_append_of_ne_nil _ (print_ne_nil ha)]
  exact head?_print

theorem getLast?_printTwo (hb : b ≠ []) :
    (Q.printTwo a b).getLast? = some '"' ↔ Q.isQuoted b = true := by
  rw [printTwo, List.getLast?_append_of_ne_nil _ (print_ne_nil hb)]
  exact getLast?_print

theorem print_inj (h : Q.print a = Q.print b) : a = b :=
  unquote_print_inj (by rw [h])

theorem takeWhile_plain (h : Q.isQuoted a = false) (rest : List Char) :
    (a ++ arrow ++ rest).takeWhile (!Q.isSpecial ·) = a := by
  have hall : ∀ x ∈ a, (!Q.isSpecial x) = true := by
    intro x hx
    simpa using List.any_eq_false.mp h x hx
  have hspace : Q.isSpecial ' ' = true := Q.special_of_isBlank ' ' (by decide)
  rw [List.append_assoc, List.takeWhile_append_of_pos hall, arrow, List.cons_append,
    List.takeWhile_cons_of_neg (by simp [hspace]), List.append_nil]

theorem printTwo_inj (ha : a ≠ []) (hc : c ≠ [])
    (h : Q.printTwo a b = Q.printTwo c d) : b = d := by
  have hsame : Q.isQuoted a = Q.isQuoted c := by
    rw [Bool.eq_iff_iff, ← head?_printTwo (b := b) ha, h, head?_printTwo hc]
  cases hquoted : Q.isQuoted a with
  | true =>
    rw [printTwo, printTwo, print_of_quoted hquoted, print_of_quoted (hsame.symm.trans hquoted)] at h
    have htail : Q.body a ++ '"' :: (arrow ++ Q.print b) =
        Q.body c ++ '"' :: (arrow ++ Q.print d) := by
      have hcons := List.cons.inj h
      simpa using hcons.2
    exact print_inj (List.append_cancel_left (body_quote_inj htail).2)
  | false =>
    have hplain : Q.isQuoted c = false := hsame.symm.trans hquoted
    rw [printTwo, printTwo, print_of_plain hquoted, print_of_plain hplain] at h
    have hac : a = c := by
      rw [← takeWhile_plain hquoted (Q.print b), h, takeWhile_plain hplain]
    rw [hac] at h
    exact print_inj (List.append_cancel_left h)

theorem unquote_quoted_ne (ha : a ≠ []) (hb : b ≠ []) (hqa : Q.isQuoted a = true)
    (hqb : Q.isQuoted b = true) : unquote (Q.printTwo a b) ≠ Q.printTwo c d := by
  intro h
  have htext : Q.printTwo a b =
      '"' :: (Q.body a ++ '"' :: (arrow ++ '"' :: Q.body b)) ++ ['"'] := by
    rw [printTwo, print_of_quoted hqa, print_of_quoted hqb]
    simp
  rw [htext, unquote_of_quoted, printTwo] at h
  cases hqc : Q.isQuoted c with
  | true =>
    -- The right side starts with a quote, so the first name on the left would be empty.
    rw [print_of_quoted hqc] at h
    have hnil : Q.body a ++ '"' :: (arrow ++ '"' :: Q.body b) =
        Q.body [] ++ '"' :: (Q.body c ++ '"' :: (arrow ++ Q.print d)) := by
      rw [h, body_nil]
      simp
    exact ha (body_quote_inj hnil).1
  | false =>
    rw [print_of_plain hqc] at h
    cases hqd : Q.isQuoted d with
    | false =>
      -- Nothing on the right side is a quote.
      rw [print_of_plain hqd] at h
      have hmem : '"' ∈ c ++ arrow ++ d := by
        rw [← h]
        simp
      rcases List.mem_append.mp hmem with hmem | hmem
      · rcases List.mem_append.mp hmem with hmem | hmem
        · exact not_mem_of_plain hqc Q.special_quote hmem
        · revert hmem
          decide
      · exact not_mem_of_plain hqd Q.special_quote hmem
    | true =>
      -- The right side reads as the name `c` with the arrow, then as the second name.
      rw [print_of_quoted hqd] at h
      have hread : Q.body a ++ '"' :: (arrow ++ '"' :: Q.body b) =
          Q.body (c ++ arrow) ++ '"' :: (Q.body d ++ ['"']) := by
        rw [h, body_append, body_of_plain hqc, body_arrow]
        simp
      have hrest : Q.body d ++ '"' :: [] = Q.body arrow ++ '"' :: Q.body b := by
        rw [body_arrow]
        exact (body_quote_inj hread).2.symm
      exact hb (body_inj ((body_quote_inj hrest).2.symm.trans body_nil.symm))

theorem unquote_arrow_inj (ha : a ≠ []) (hb : b ≠ []) (hc : c ≠ []) (hd : d ≠ [])
    (h : unquote (Q.printTwo a b) = unquote (Q.printTwo c d)) : b = d := by
  have hstay : ∀ {x y : List Char}, x ≠ [] → y ≠ [] →
      Q.isQuoted x = false ∨ Q.isQuoted y = false →
      unquote (Q.printTwo x y) = Q.printTwo x y := by
    intro x y hx hy hplain
    have hends : ((Q.printTwo x y).head? = some '"' && (Q.printTwo x y).getLast? = some '"') =
        false := by
      rcases hplain with hplain | hplain
      · simp [head?_printTwo hx, hplain]
      · simp [getLast?_printTwo hy, hplain]
    rw [unquote, hends, if_neg Bool.false_ne_true]
  by_cases hab : Q.isQuoted a = true ∧ Q.isQuoted b = true
  · by_cases hcd : Q.isQuoted c = true ∧ Q.isQuoted d = true
    · have htext : ∀ {x y : List Char}, Q.isQuoted x = true → Q.isQuoted y = true →
          unquote (Q.printTwo x y) = Q.body x ++ '"' :: (arrow ++ '"' :: Q.body y) := by
        intro x y hx hy
        rw [← unquote_of_quoted (Q.body x ++ '"' :: (arrow ++ '"' :: Q.body y)), printTwo,
          print_of_quoted hx, print_of_quoted hy]
        simp
      rw [htext hab.1 hab.2, htext hcd.1 hcd.2] at h
      have hrest := List.append_cancel_left (body_quote_inj h).2
      exact body_inj (List.cons.inj hrest).2
    · have hplain : Q.isQuoted c = false ∨ Q.isQuoted d = false := by
        cases hqc : Q.isQuoted c <;> cases hqd : Q.isQuoted d <;> simp_all
      rw [hstay hc hd hplain] at h
      exact absurd h (unquote_quoted_ne ha hb hab.1 hab.2)
  · have hplain : Q.isQuoted a = false ∨ Q.isQuoted b = false := by
      cases hqa : Q.isQuoted a <;> cases hqb : Q.isQuoted b <;> simp_all
    rw [hstay ha hb hplain] at h
    by_cases hcd : Q.isQuoted c = true ∧ Q.isQuoted d = true
    · exact absurd h.symm (unquote_quoted_ne hc hd hcd.1 hcd.2)
    · have hplain' : Q.isQuoted c = false ∨ Q.isQuoted d = false := by
        cases hqc : Q.isQuoted c <;> cases hqd : Q.isQuoted d <;> simp_all
      rw [hstay hc hd hplain'] at h
      exact printTwo_inj ha hc h

/-! ### Backslashes -/

/-- The character behind a backslash. -/
def unescapeChar (c : Char) : Char :=
  if c = 'n' then '\n' else if c = 't' then '\t' else c

def escapeChar (c : Char) : List Char :=
  if c = '"' then ['\\', '"']
  else if c = '\\' then ['\\', '\\']
  else if c = '\n' then ['\\', 'n']
  else if c = '\t' then ['\\', 't']
  else [c]

def readQuoted : List Char → Option (List Char × List Char)
  | [] => none
  | [c] => if c = '"' then some ([], []) else none
  | c :: d :: text =>
    if c = '"' then some ([], d :: text)
    else if c = '\\' then
      (readQuoted text).map fun read => (unescapeChar d :: read.1, read.2)
    else (readQuoted (d :: text)).map fun read => (c :: read.1, read.2)

theorem readQuoted_plain {c : Char} (hquote : c ≠ '"') (hbackslash : c ≠ '\\')
    (text : List Char) :
    readQuoted (c :: text) = (readQuoted text).map fun read => (c :: read.1, read.2) := by
  cases text with
  | nil => exact if_neg hquote
  | cons d text => rw [readQuoted, if_neg hquote, if_neg hbackslash]

theorem readQuoted_quote (text : List Char) : readQuoted ('"' :: text) = some ([], text) := by
  cases text <;> rfl

theorem readQuoted_escapeChar (c : Char) (text : List Char) :
    readQuoted (escapeChar c ++ text) =
      (readQuoted text).map fun read => (c :: read.1, read.2) := by
  rw [escapeChar]
  by_cases hquote : c = '"'
  · subst hquote; rfl
  by_cases hbackslash : c = '\\'
  · subst hbackslash; rfl
  by_cases hline : c = '\n'
  · subst hline; rfl
  by_cases htab : c = '\t'
  · subst htab; rfl
  rw [if_neg hquote, if_neg hbackslash, if_neg hline, if_neg htab]
  exact readQuoted_plain hquote hbackslash text

/-- Names in quotes with backslashes. -/
def backslash : Quoting where
  isSpecial c := isBlank c || c = '"' || c = '\\'
  escape := escapeChar
  read := readQuoted
  special_quote := by decide
  special_of_isBlank c h := by simp [h]
  plain_dash := by decide
  plain_greater := by decide
  escape_of_plain c h := by
    simp only [Bool.or_eq_false_iff, decide_eq_false_iff_not] at h
    have hline : c ≠ '\n' := fun hc => absurd h.1.1 (by rw [hc]; decide)
    have htab : c ≠ '\t' := fun hc => absurd h.1.1 (by rw [hc]; decide)
    rw [escapeChar, if_neg h.1.2, if_neg h.2, if_neg hline, if_neg htab]
  escape_space := by decide
  exists_special c h := by
    rw [escapeChar]
    split
    · exact ⟨'"', by simp, by decide⟩
    split
    · exact ⟨'\\', by simp, by decide⟩
    split
    · exact ⟨'\\', by simp, by decide⟩
    split
    · exact ⟨'\\', by simp, by decide⟩
    · exact ⟨c, by simp, h⟩
  read_escape name rest := by
    induction name with
    | nil => exact readQuoted_quote rest
    | cons c name ih =>
      rw [List.flatMap_cons, List.append_assoc, readQuoted_escapeChar, ih]
      rfl

end Quoting

end ArchLoop.Lib
