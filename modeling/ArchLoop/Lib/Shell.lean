import Mathlib.Data.List.Count
import Mathlib.Data.List.DropRight
import Mathlib.Data.List.Infix

/-!
# `ArchLoop.Lib.Shell`: how a POSIX shell reads a command

`readFrom` takes a command apart into words and operators. A word is a list of pieces: characters
that stand for themselves, and characters that the shell acts on (`$`, a backquote, a pattern). The
text behind such a character is not looked into, as its word is no literal word any more.

A program that puts a value into a command means it to be one word, or a part of one. `Part` is a
word of a command with what the program means by it, and `ok` says when the shell reads it so; that
is a field, so a command is read as it is meant if and only if all its parts are ok
(`steps_join_iff`). A value in single quotes is always read as it is (`Part.single`). One in double
quotes is if and only if it is plain (`Part.doubled`, `plainFrom`): nothing in it is a quote, a
backquote, the start of an expansion or a backslash that escapes. It may also have its quotes
escaped, and may have quotes then (`Part.escaped`).
-/

set_option autoImplicit false

namespace ArchLoop.Lib.Shell

/-- A piece of a word. An active character is one that the shell acts on, inside double quotes or
not. -/
inductive Piece where
  | lit (c : Char)
  | active (c : Char) (quoted : Bool)
  deriving DecidableEq

inductive Token where
  | word (pieces : List Piece)
  | op (c : Char)
  deriving DecidableEq

/-- Where the reader is. Behind a backslash it is in `escape` or `doubleEscape`. -/
inductive Mode where
  | plain
  | single
  | double
  | escape
  | doubleEscape
  | comment
  deriving DecidableEq

def isBlankChar (c : Char) : Bool := c = ' ' || c = '\t'

/-- The characters of control operators and redirections. -/
def isOperator (c : Char) : Bool := c ∈ [';', '&', '|', '<', '>', '(', ')', '\n']

/-- The characters of patterns. -/
def isPattern (c : Char) : Bool := c ∈ ['*', '?', '[']

/-- The characters that a backslash escapes inside double quotes, but for a line break. -/
def isEscaped (c : Char) : Bool := c ∈ ['$', '\x60', '"', '\\']

/-- What stands behind a `$` that starts an expansion. -/
def startsExpansion (c : Char) : Bool :=
  c.isAlphanum || c ∈ ['_', '\x7b', '(', '@', '*', '#', '?', '-', '$', '!']

/-- The piece for a `$`. -/
def dollar (quoted : Bool) (rest : List Char) : Piece :=
  if rest.head?.any startsExpansion then .active '$' quoted else .lit '$'

/-- The word so far with another piece. -/
def push (current : Option (List Piece)) (piece : Piece) : Option (List Piece) :=
  some (current.getD [] ++ [piece])

/-- The word that ends here. -/
def flush (current : Option (List Piece)) : List Token := (current.map Token.word).toList

/-- One character outside quotes: the next state, and the tokens that end with it. -/
def stepPlain (current : Option (List Piece)) (c : Char) (rest : List Char) :
    Mode × Option (List Piece) × List Token :=
  if isBlankChar c then (.plain, none, flush current)
  else if isOperator c then (.plain, none, flush current ++ [.op c])
  else if c = '\x27' then (.single, some (current.getD []), [])
  else if c = '"' then (.double, some (current.getD []), [])
  else if c = '\\' then (.escape, current, [])
  else if c = '$' then (.plain, push current (dollar false rest), [])
  else if c = '\x60' || isPattern c || (c = '~' && current.isNone) then
    (.plain, push current (.active c false), [])
  else if c = '#' && current.isNone then (.comment, none, [])
  else (.plain, push current (.lit c), [])

def step (mode : Mode) (current : Option (List Piece)) (c : Char) (rest : List Char) :
    Mode × Option (List Piece) × List Token :=
  match mode with
  | .plain => stepPlain current c rest
  | .single => if c = '\x27' then (.plain, current, []) else (.single, push current (.lit c), [])
  | .double =>
    if c = '"' then (.plain, current, [])
    else if c = '\\' then (.doubleEscape, current, [])
    else if c = '$' then (.double, push current (dollar true rest), [])
    else if c = '\x60' then (.double, push current (.active '\x60' true), [])
    else (.double, push current (.lit c), [])
  | .escape => if c = '\n' then (.plain, current, []) else (.plain, push current (.lit c), [])
  | .doubleEscape =>
    if c = '\n' then (.double, current, [])
    else if isEscaped c then (.double, push current (.lit c), [])
    else (.double, push (push current (.lit '\\')) (.lit c), [])
  | .comment => if c = '\n' then (.plain, none, [.op '\n']) else (.comment, none, [])

/-- The tokens of a command, unless a quote stays open. -/
def readFrom (mode : Mode) (current : Option (List Piece)) : List Char → Option (List Token)
  | [] =>
    match mode with
    | .plain | .comment => some (flush current)
    | .escape => some (flush (push current (.lit '\\')))
    | .single | .double | .doubleEscape => none
  | c :: rest =>
    let (mode', current', tokens) := step mode current c rest
    (readFrom mode' current' rest).map (tokens ++ ·)

def read (command : List Char) : Option (List Token) := readFrom .plain none command

/-! ### Values between double quotes -/

def lits (text : List Char) : List Piece := text.map Piece.lit

/-- What is put between the quotes: the value, or the value with its quotes escaped. -/
def content (quotesEscaped : Bool) (value : List Char) : List Char :=
  value.flatMap fun c => if quotesEscaped && c = '"' then ['\\', '"'] else [c]

/-- The value is read as it is, from a place in it that may be behind a backslash. -/
def plainFrom (quotesEscaped : Bool) : Bool → List Char → Bool
  | behindBackslash, [] => !behindBackslash
  | true, c :: rest => c ≠ '\n' && !isEscaped c && plainFrom quotesEscaped false rest
  | false, c :: rest =>
    if c = '"' then quotesEscaped && plainFrom quotesEscaped false rest
    else if c = '\x60' then false
    else if c = '$' then !rest.head?.any startsExpansion && plainFrom quotesEscaped false rest
    else plainFrom quotesEscaped (c = '\\') rest

section Steps

variable {mode : Mode} {start word : List Piece} {c : Char} {tail : List Char}
  {tokens : List Token} {quotesEscaped : Bool} {value rest : List Char}

theorem readFrom_cons (current : Option (List Piece)) :
    readFrom mode current (c :: tail) =
      (readFrom (step mode current c tail).1 (step mode current c tail).2.1 tail).map
        ((step mode current c tail).2.2 ++ ·) := rfl

theorem readFrom_of_step {mode' : Mode} {pieces : List Piece}
    (h : step mode (some start) c tail = (mode', some (start ++ pieces), [])) :
    readFrom mode (some start) (c :: tail) = readFrom mode' (some (start ++ pieces)) tail := by
  rw [readFrom_cons, h]
  simp

/-! How many pieces a word can get out of a value is what tells a value that is read as it is from
one that is not: every character is one piece then. More come out only of escaped quotes inside
single quotes, and the quotes around them are lost. -/

def blanksIn (pieces : List Piece) : Nat := pieces.count (.lit ' ')

def quotesIn (pieces : List Piece) : Nat := pieces.count (.lit '\x27')

/-- Single quotes that will be lost. -/
def Mode.lost : Mode → Nat
  | .single => 1
  | _ => 0

/-- Characters that have not given a piece yet. -/
def Mode.slack : Mode → Nat
  | .escape | .doubleEscape => 1
  | _ => 0

/-- Bounds for the pieces of the character `c`. -/
structure Fits (mode : Mode) (c : Char) (mode' : Mode) (pieces : List Piece) : Prop where
  inWord : mode' ≠ .comment
  blanks : blanksIn pieces = [c].count ' '
  quotes : quotesIn pieces + mode.lost ≤ [c].count '\x27' + mode'.lost
  quotes_le : quotesIn pieces ≤ [c].count '\x27'
  length : quotesIn pieces = [c].count '\x27' → mode'.lost = 0 →
    pieces.length + mode'.slack ≤ 1 + mode.slack

theorem quotesIn_lit (c : Char) : quotesIn [.lit c] = [c].count '\x27' := by
  simp [quotesIn, List.count_singleton]

theorem blanksIn_lit (c : Char) : blanksIn [.lit c] = [c].count ' ' := by
  simp [blanksIn, List.count_singleton]

theorem fits_lit {mode' : Mode} (h : mode' ≠ .comment) (hlost : mode.lost = mode'.lost)
    (hslack : mode'.slack ≤ mode.slack) : Fits mode c mode' [.lit c] where
  inWord := h
  blanks := blanksIn_lit c
  quotes := by rw [quotesIn_lit, hlost]
  quotes_le := (quotesIn_lit c).le
  length := fun _ _ => by simp only [List.length_singleton]; omega

theorem fits_acting {mode' : Mode} {pieces : List Piece} (h : mode' ≠ .comment)
    (hblank : c ≠ ' ') (hquotes : quotesIn pieces = 0) (hblanks : blanksIn pieces = 0)
    (hlost : mode.lost ≤ [c].count '\x27' + mode'.lost)
    (hlength : mode'.lost = 0 → [c].count '\x27' = 0 →
      pieces.length + mode'.slack ≤ 1 + mode.slack) : Fits mode c mode' pieces where
  inWord := h
  blanks := by rw [hblanks]; simp [hblank]
  quotes := by omega
  quotes_le := by omega
  length := by
    intro hquote hzero
    exact hlength hzero (by omega)

variable (tail) in
theorem dollar_cases (quoted : Bool) :
    dollar quoted tail = .active '$' quoted ∨ dollar quoted tail = .lit '$' := by
  unfold dollar
  split
  · exact .inl rfl
  · exact .inr rfl

theorem fits_dollar (quoted : Bool) (h : mode ≠ .comment) :
    Fits mode '$' mode [dollar quoted tail] := by
  have hcounts : quotesIn [dollar quoted tail] = 0 ∧ blanksIn [dollar quoted tail] = 0 := by
    rcases dollar_cases tail quoted with h | h <;> rw [h] <;>
      simp [quotesIn, blanksIn]
  exact fits_acting h (by decide) hcounts.1 hcounts.2 (by omega)
    (fun _ _ => by simp only [List.length_singleton]; omega)

variable (start c tail) in
theorem step_cases (h : mode ≠ .comment) :
    (mode = .plain ∧ ∃ mode' more,
      step mode (some start) c tail = (mode', none, .word start :: more)) ∨
    ∃ mode' pieces, step mode (some start) c tail = (mode', some (start ++ pieces), []) ∧
      Fits mode c mode' pieces := by
  cases mode with
  | comment => exact absurd rfl h
  | plain =>
    have hstep : step .plain (some start) c tail = stepPlain (some start) c tail := rfl
    rw [hstep]
    unfold stepPlain
    split_ifs with hblank hop hsingle hdouble hbackslash hdollar hacting hcomment
    · exact .inl ⟨rfl, _, _, rfl⟩
    · exact .inl ⟨rfl, _, _, rfl⟩
    · subst hsingle
      exact .inr ⟨.single, [], by simp, fits_acting (by decide) (by decide) rfl rfl (by decide)
        (by decide)⟩
    · subst hdouble
      exact .inr ⟨.double, [], by simp, fits_acting (by decide) (by decide) rfl rfl (by decide)
        (by decide)⟩
    · subst hbackslash
      exact .inr ⟨.escape, [], by simp, fits_acting (by decide) (by decide) rfl rfl (by decide)
        (by decide)⟩
    · subst hdollar
      exact .inr ⟨.plain, _, rfl, fits_dollar false (by decide)⟩
    · have hc : c ≠ ' ' := by
        rintro rfl
        exact hblank rfl
      exact .inr ⟨.plain, [.active c false], rfl, fits_acting (by decide) hc (by simp [quotesIn])
        (by simp [blanksIn]) (by simp) (fun _ _ => le_rfl)⟩
    · simp at hcomment
    · exact .inr ⟨.plain, [.lit c], rfl, fits_lit (by decide) rfl le_rfl⟩
  | single =>
    right
    by_cases hc : c = '\x27'
    · subst hc
      exact ⟨.plain, [], by simp [step], fits_acting (by decide) (by decide) rfl rfl (by decide)
        (by decide)⟩
    · exact ⟨.single, [.lit c], by simp [step, hc, push], fits_lit (by decide) rfl le_rfl⟩
  | double =>
    right
    by_cases hquote : c = '"'
    · subst hquote
      exact ⟨.plain, [], by simp [step], fits_acting (by decide) (by decide) rfl rfl (by decide)
        (by decide)⟩
    · by_cases hbackslash : c = '\\'
      · subst hbackslash
        exact ⟨.doubleEscape, [], by simp [step], fits_acting (by decide) (by decide) rfl rfl
          (by decide) (by decide)⟩
      · by_cases hdollar : c = '$'
        · subst hdollar
          exact ⟨.double, _, by simp [step, push]; rfl, fits_dollar true (by decide)⟩
        · by_cases hback : c = '\x60'
          · subst hback
            exact ⟨.double, [.active '\x60' true], by simp [step, push], fits_acting (by decide)
              (by decide) (by decide) (by decide) (by decide) (by decide)⟩
          · exact ⟨.double, [.lit c], by simp [step, hquote, hbackslash, hdollar, hback, push],
              fits_lit (by decide) rfl le_rfl⟩
  | escape =>
    right
    by_cases hc : c = '\n'
    · subst hc
      exact ⟨.plain, [], by simp [step], fits_acting (by decide) (by decide) rfl rfl (by decide)
        (by decide)⟩
    · exact ⟨.plain, [.lit c], by simp [step, hc, push], fits_lit (by decide) rfl (by decide)⟩
  | doubleEscape =>
    right
    by_cases hbreak : c = '\n'
    · subst hbreak
      exact ⟨.double, [], by simp [step], fits_acting (by decide) (by decide) rfl rfl (by decide)
        (by decide)⟩
    · by_cases hescaped : isEscaped c = true
      · exact ⟨.double, [.lit c], by simp [step, hbreak, hescaped, push],
          fits_lit (by decide) rfl (by decide)⟩
      · refine ⟨.double, [.lit '\\', .lit c], by simp [step, hbreak, hescaped, push], ?_⟩
        -- The backslash stands for itself.
        exact
          { inWord := by decide
            blanks := by rw [← blanksIn_lit]; simp [blanksIn, List.count_cons]
            quotes := by rw [← quotesIn_lit]; simp [quotesIn, List.count_cons, Mode.lost]
            quotes_le := by rw [← quotesIn_lit]; simp [quotesIn, List.count_cons]
            length := fun _ _ => le_rfl }

theorem isPrefix_of_read (command : List Char) (h : mode ≠ .comment)
    (hread : readFrom mode (some start) command = some (.word word :: tokens)) :
    start <+: word := by
  induction command generalizing mode start with
  | nil =>
    cases mode with
    | plain =>
      simp [readFrom, flush] at hread
      rw [hread.1]
    | escape =>
      simp [readFrom, flush, push] at hread
      rw [← hread.1]
      exact List.prefix_append _ _
    | single | double | doubleEscape => simp [readFrom] at hread
    | comment => exact absurd rfl h
  | cons c command ih =>
    rcases step_cases start c command h with
      ⟨-, mode', more, hstep⟩ | ⟨mode', pieces, hstep, hfits⟩
    · -- The word ends here.
      rw [readFrom_cons, hstep] at hread
      obtain ⟨others, -, hwords⟩ := Option.map_eq_some_iff.mp hread
      simp at hwords
      rw [hwords.1]
    · rw [readFrom_of_step hstep] at hread
      exact (List.prefix_append _ _).trans (ih hfits.inWord hread)

/-- The word is not longer than the value that it should hold, unless a blank behind the value is in
it. The apostrophes that are lost are counted apart: between two of them, more characters than
usual stand for themselves. -/
def Bounded (mode : Mode) (start : List Piece) (value : List Char) (word : List Piece) : Prop :=
  blanksIn start + value.count ' ' < blanksIn word ∨
    (quotesIn word + mode.lost ≤ quotesIn start + value.count '\x27' ∧
      (quotesIn word = quotesIn start + value.count '\x27' →
        word.length ≤ start.length + value.length + mode.slack))

theorem Bounded.step {mode' : Mode} {pieces : List Piece} (hfits : Fits mode c mode' pieces)
    (h : Bounded mode' (start ++ pieces) value word) : Bounded mode start (c :: value) word := by
  obtain ⟨-, hblanks, hquotes, hquotes_le, hlength⟩ := hfits
  have hc : ∀ d, (c :: value).count d = [c].count d + value.count d := by
    intro d
    rw [← List.singleton_append, List.count_append]
  unfold Bounded at h ⊢
  unfold blanksIn quotesIn at *
  rw [hc, hc, List.length_cons]
  simp only [List.count_append, List.length_append] at h
  rcases h with hblank | ⟨hlost, hlen⟩
  · left
    omega
  · right
    constructor
    · omega
    · intro hsame
      have hle := hlen (by omega)
      have := hlength (by omega) (by omega)
      omega

variable (mode start) in
theorem blanksIn_lt_of_read (hmode : mode = .single ∨ mode = .double)
    (hrest : rest = [] ∨ ∃ others, rest = ' ' :: others)
    (hread : readFrom mode (some start) rest = some (.word word :: tokens)) :
    blanksIn start < blanksIn word := by
  rcases hrest with rfl | ⟨others, rfl⟩
  · -- The quote stays open.
    rcases hmode with rfl | rfl <;> cases hread
  · have hstep : step mode (some start) ' ' others = (mode, some (start ++ [.lit ' ']), []) := by
      rcases hmode with rfl | rfl <;> simp [step, push]
    rw [readFrom_of_step hstep] at hread
    have hne : mode ≠ .comment := by rcases hmode with rfl | rfl <;> decide
    have hle := (isPrefix_of_read others hne hread).sublist.count_le (.lit ' ')
    rw [List.count_append] at hle
    have hone : List.count (Piece.lit ' ') [Piece.lit ' '] = 1 := by decide
    unfold blanksIn
    omega

variable (start tail) in
theorem step_escapedQuote (h : mode ≠ .comment) :
    ∃ mode' pieces, readFrom mode (some start) ('\\' :: '"' :: tail) =
      readFrom mode' (some (start ++ pieces)) tail ∧ Fits mode '"' mode' pieces := by
  cases mode with
  | comment => exact absurd rfl h
  | plain =>
    exact ⟨.plain, [.lit '"'], by
      simp [readFrom_cons, step, stepPlain, isBlankChar, isOperator, push],
      fits_lit (by decide) rfl le_rfl⟩
  | single =>
    refine ⟨.single, [.lit '\\', .lit '"'], by simp [readFrom_cons, step, push], ?_⟩
    exact
      { inWord := by decide
        blanks := by decide
        quotes := by decide
        quotes_le := by decide
        length := fun _ hlost => by cases hlost }
  | double =>
    exact ⟨.double, [.lit '"'], by simp [readFrom_cons, step, isEscaped, push],
      fits_lit (by decide) rfl le_rfl⟩
  | escape =>
    exact ⟨.double, [.lit '\\'], by
      simp [readFrom_cons, step, stepPlain, isBlankChar, isOperator, push],
      fits_acting (by decide) (by decide) (by decide) (by decide) (by decide) (by decide)⟩
  | doubleEscape =>
    exact ⟨.plain, [.lit '\\'], by simp [readFrom_cons, step, isEscaped, push],
      fits_acting (by decide) (by decide) (by decide) (by decide) (by decide) (by decide)⟩

variable (start) in
theorem eq_of_read_plain (hrest : rest = [] ∨ ∃ others, rest = ' ' :: others)
    (hread : readFrom .plain (some start) rest = some (.word word :: tokens)) : word = start := by
  rcases hrest with rfl | ⟨others, rfl⟩
  · simp [readFrom, flush] at hread
    exact hread.1.symm
  · rw [readFrom_cons] at hread
    obtain ⟨more, -, hwords⟩ := Option.map_eq_some_iff.mp hread
    simp [step, stepPlain, isBlankChar, flush] at hwords
    exact hwords.1.symm

theorem blanksIn_append_quote : blanksIn (start ++ [.lit '"']) = blanksIn start := by
  simp [blanksIn, List.count_append]

theorem bounded_of_read (hrest : rest = [] ∨ ∃ others, rest = ' ' :: others)
    (h : mode ≠ .comment)
    (hread : readFrom mode (some start) (content quotesEscaped value ++ '"' :: rest) =
      some (.word word :: tokens)) : Bounded mode start value word := by
  induction value generalizing mode start with
  | nil =>
    rw [show content quotesEscaped [] = [] from rfl, List.nil_append] at hread
    cases mode with
    | comment => exact absurd rfl h
    | plain =>
      have hlt := blanksIn_lt_of_read .double start (.inr rfl) hrest
        (by simpa [readFrom_cons, step, stepPlain, isBlankChar, isOperator] using hread)
      exact .inl hlt
    | single =>
      have hlt := blanksIn_lt_of_read .single (start ++ [.lit '"']) (.inl rfl)
        hrest (by simpa [readFrom_cons, step, push] using hread)
      rw [blanksIn_append_quote] at hlt
      exact .inl hlt
    | doubleEscape =>
      have hlt := blanksIn_lt_of_read .double (start ++ [.lit '"']) (.inr rfl)
        hrest (by simpa [readFrom_cons, step, isEscaped, push] using hread)
      rw [blanksIn_append_quote] at hlt
      exact .inl hlt
    | double =>
      have hword := eq_of_read_plain start hrest
        (by simpa [readFrom_cons, step] using hread)
      rw [hword]
      exact .inr ⟨le_rfl, fun _ => le_rfl⟩
    | escape =>
      have hword := eq_of_read_plain (start ++ [.lit '"']) hrest
        (by simpa [readFrom_cons, step, push] using hread)
      rw [hword]
      right
      simp [quotesIn, Mode.lost, Mode.slack]
  | cons c value ih =>
    have hcontent : content quotesEscaped (c :: value) =
        (if quotesEscaped && c = '"' then ['\\', '"'] else [c]) ++ content quotesEscaped value := by
      simp [content]
    rw [hcontent] at hread
    by_cases hquote : (quotesEscaped && c = '"') = true
    · rw [if_pos hquote] at hread
      obtain ⟨mode', pieces, hstep, hfits⟩ := step_escapedQuote start
        (content quotesEscaped value ++ '"' :: rest) h
      have hc : c = '"' := by simpa using (Bool.and_eq_true_iff.mp hquote).2
      subst hc
      rw [List.append_assoc] at hread
      exact Bounded.step hfits (ih hfits.inWord (hstep ▸ hread))
    · rw [if_neg hquote] at hread
      rcases step_cases start c (content quotesEscaped value ++ '"' :: rest) h with
        ⟨hplain, mode', more, hstep⟩ | ⟨mode', pieces, hstep, hfits⟩
      · -- The word ends at the character.
        rw [List.append_assoc, List.singleton_append, readFrom_cons, hstep] at hread
        obtain ⟨others, -, hwords⟩ := Option.map_eq_some_iff.mp hread
        simp at hwords
        rw [← hwords.1, hplain]
        right
        constructor
        · exact Nat.le_add_right _ _
        · intro _
          exact Nat.le_add_right _ _
      · rw [List.append_assoc, List.singleton_append, readFrom_of_step hstep] at hread
        exact Bounded.step hfits (ih hfits.inWord hread)

theorem length_lt_of_bounded {pieces : List Piece} (held : List Char)
    (hblanks : blanksIn pieces = held.count ' ') (hquotes : quotesIn pieces = held.count '\x27')
    (hlength : pieces.length + mode.slack < held.length)
    (h : Bounded mode (start ++ pieces) value (start ++ lits (held ++ value))) : False := by
  have hcount : ∀ (d : Char) (text : List Char), (lits text).count (.lit d) = text.count d := by
    intro d text
    exact List.count_map_of_injective text Piece.lit (fun a b hab => by cases hab; rfl) d
  unfold Bounded blanksIn quotesIn at *
  simp only [List.count_append, hcount, hblanks, hquotes, List.length_append] at h
  unfold lits at h
  simp only [List.length_map, List.length_append] at h
  omega

theorem content_cons :
    content quotesEscaped (c :: value) ++ '"' :: rest =
      (if quotesEscaped && c = '"' then ['\\', '"'] else [c]) ++
        (content quotesEscaped value ++ '"' :: rest) := by
  simp [content]

theorem startsExpansion_content :
    (content quotesEscaped value ++ '"' :: rest).head?.any startsExpansion =
      value.head?.any startsExpansion := by
  have hquoteChar : startsExpansion '"' = false := by decide
  have hbackslash : startsExpansion '\\' = false := by decide
  cases value with
  | nil => simp [content, hquoteChar]
  | cons c value =>
    rw [content_cons]
    by_cases hquote : (quotesEscaped && c = '"') = true
    · have hc : c = '"' := by simpa using (Bool.and_eq_true_iff.mp hquote).2
      rw [if_pos hquote]
      simp [hc, hquoteChar, hbackslash]
    · rw [if_neg hquote]
      rfl

theorem lits_cons (c : Char) (text : List Char) :
    start ++ lits (c :: text) = start ++ [.lit c] ++ lits text := by
  simp [lits]

theorem plainFrom_of_read (hrest : rest = [] ∨ ∃ others, rest = ' ' :: others) :
    (readFrom .double (some start) (content quotesEscaped value ++ '"' :: rest) =
        some (.word (start ++ lits value) :: tokens) →
      plainFrom quotesEscaped false value = true) ∧
    (readFrom .doubleEscape (some start) (content quotesEscaped value ++ '"' :: rest) =
        some (.word (start ++ lits ('\\' :: value)) :: tokens) →
      plainFrom quotesEscaped true value = true) := by
  induction value generalizing start with
  | nil =>
    constructor
    · intro _
      rfl
    · intro hread
      -- The backslash escapes the closing quote.
      have hstep : step .doubleEscape (some start) '"' rest =
          (.double, some (start ++ [.lit '"']), []) := by simp [step, isEscaped, push]
      rw [show content quotesEscaped [] = [] from rfl, List.nil_append,
        readFrom_of_step hstep] at hread
      have hprefix := isPrefix_of_read rest (by decide) hread
      simp [lits] at hprefix
  | cons c value ih =>
    rw [content_cons]
    constructor
    · intro hread
      by_cases hquote : c = '"'
      · subst hquote
        cases quotesEscaped with
        | true =>
          have htail : readFrom .double (some start)
              ('\\' :: '"' :: (content true value ++ '"' :: rest)) =
                readFrom .double (some (start ++ [.lit '"']))
                  (content true value ++ '"' :: rest) := by
            simp [readFrom_cons, step, isEscaped, push]
          have hread' : readFrom .double (some start)
              ('\\' :: '"' :: (content true value ++ '"' :: rest)) =
                some (.word (start ++ lits ('"' :: value)) :: tokens) := hread
          rw [htail, lits_cons] at hread'
          exact (@ih (start ++ [.lit '"'])).1 hread'
        | false =>
          -- The quote ends the quoted text too early.
          have hstep : step .double (some start) '"' (content false value ++ '"' :: rest) =
              (.plain, some (start ++ []), []) := by simp [step]
          have hread' : readFrom .double (some start)
              ('"' :: (content false value ++ '"' :: rest)) =
                some (.word (start ++ lits ('"' :: value)) :: tokens) := hread
          rw [readFrom_of_step hstep] at hread'
          have hbounded := bounded_of_read hrest (by decide) hread'
          exact (length_lt_of_bounded ['"'] rfl rfl (by decide) hbounded).elim
      · have hpair : ¬ (quotesEscaped && c = '"') = true := by simp [hquote]
        rw [if_neg hpair, List.singleton_append] at hread
        unfold plainFrom
        rw [if_neg hquote]
        by_cases hback : c = '\x60'
        · -- The backquote is no literal piece.
          subst hback
          have hstep : step .double (some start) '\x60'
              (content quotesEscaped value ++ '"' :: rest) =
                (.double, some (start ++ [.active '\x60' true]), []) := by simp [step, push]
          rw [readFrom_of_step hstep] at hread
          have hprefix := isPrefix_of_read _ (by decide) hread
          simp [lits] at hprefix
        · rw [if_neg hback]
          by_cases hdollar : c = '$'
          · subst hdollar
            have hstep : step .double (some start) '$'
                (content quotesEscaped value ++ '"' :: rest) =
                  (.double, some (start ++
                    [dollar true (content quotesEscaped value ++ '"' :: rest)]), []) := by
              simp [step, push]
            rw [readFrom_of_step hstep] at hread
            rw [if_pos rfl]
            by_cases hstarts : value.head?.any startsExpansion = true
            · have hprefix := isPrefix_of_read _ (by decide) hread
              rw [dollar, startsExpansion_content, if_pos hstarts] at hprefix
              simp [lits] at hprefix
            · rw [dollar, startsExpansion_content, if_neg hstarts, lits_cons] at hread
              simp [hstarts, (@ih (start ++ [.lit '$'])).1 hread]
          · rw [if_neg hdollar]
            by_cases hbackslash : c = '\\'
            · subst hbackslash
              have hstep : step .double (some start) '\\'
                  (content quotesEscaped value ++ '"' :: rest) =
                    (.doubleEscape, some (start ++ []), []) := by simp [step]
              rw [readFrom_of_step hstep, List.append_nil] at hread
              exact ih.2 hread
            · have hstep : step .double (some start) c
                  (content quotesEscaped value ++ '"' :: rest) =
                    (.double, some (start ++ [.lit c]), []) := by
                simp [step, push, hquote, hback, hdollar, hbackslash]
              rw [readFrom_of_step hstep, lits_cons] at hread
              simpa [hbackslash] using (@ih (start ++ [.lit c])).1 hread
    · intro hread
      by_cases hpair : (quotesEscaped && c = '"') = true
      · -- The backslash escapes the other one, and the quote ends the quoted text.
        have hc : c = '"' := by simpa using (Bool.and_eq_true_iff.mp hpair).2
        subst hc
        rw [if_pos hpair] at hread
        have htail : readFrom .doubleEscape (some start)
            ('\\' :: '"' :: (content quotesEscaped value ++ '"' :: rest)) =
              readFrom .plain (some (start ++ [.lit '\\']))
                (content quotesEscaped value ++ '"' :: rest) := by
          simp [readFrom_cons, step, isEscaped, push]
        have hbounded := bounded_of_read hrest (by decide) (htail ▸ hread)
        exact (length_lt_of_bounded ['\\', '"'] rfl rfl (by decide) hbounded).elim
      · rw [if_neg hpair, List.singleton_append] at hread
        unfold plainFrom
        by_cases hbreak : c = '\n'
        · subst hbreak
          have hstep : step .doubleEscape (some start) '\n'
              (content quotesEscaped value ++ '"' :: rest) =
                (.double, some (start ++ []), []) := by simp [step]
          rw [readFrom_of_step hstep] at hread
          have hbounded := bounded_of_read hrest (by decide) hread
          exact (length_lt_of_bounded ['\\', '\n'] rfl rfl (by decide) hbounded).elim
        · by_cases hescaped : isEscaped c = true
          · have hstep : step .doubleEscape (some start) c
                (content quotesEscaped value ++ '"' :: rest) =
                  (.double, some (start ++ [.lit c]), []) := by
              simp [step, push, hbreak, hescaped]
            rw [readFrom_of_step hstep] at hread
            -- Only a backslash would be right here, and then one is missing.
            have hprefix := isPrefix_of_read _ (by decide) hread
            have hc : c = '\\' := by simpa [lits] using hprefix
            subst hc
            have hbounded := bounded_of_read hrest (by decide) hread
            exact (length_lt_of_bounded ['\\', '\\'] rfl rfl (by decide) hbounded).elim
          · have hstep : step .doubleEscape (some start) c
                (content quotesEscaped value ++ '"' :: rest) =
                  (.double, some (start ++ [.lit '\\', .lit c]), []) := by
              simp [step, push, hbreak, hescaped]
            rw [readFrom_of_step hstep] at hread
            have hlits : start ++ lits ('\\' :: c :: value) =
                start ++ [.lit '\\', .lit c] ++ lits value := by simp [lits]
            rw [hlits] at hread
            simp [hbreak, hescaped, (@ih (start ++ [.lit '\\', .lit c])).1 hread]

theorem read_of_plainFrom :
    (plainFrom quotesEscaped false value = true →
      readFrom .double (some start) (content quotesEscaped value ++ '"' :: rest) =
        readFrom .plain (some (start ++ lits value)) rest) ∧
    (plainFrom quotesEscaped true value = true →
      readFrom .doubleEscape (some start) (content quotesEscaped value ++ '"' :: rest) =
        readFrom .plain (some (start ++ lits ('\\' :: value))) rest) := by
  induction value generalizing start with
  | nil =>
    constructor
    · intro _
      simp [content, lits, readFrom_cons, step]
    · intro h
      cases h
  | cons c value ih =>
    rw [content_cons]
    constructor
    · intro h
      unfold plainFrom at h
      rw [lits_cons]
      by_cases hquote : c = '"'
      · subst hquote
        rw [if_pos rfl, Bool.and_eq_true] at h
        have hpair : (quotesEscaped && decide ('"' = '"')) = true := by simp [h.1]
        have hvalue := (@ih (start ++ [Piece.lit '"'])).1 h.2
        rw [if_pos hpair, ← hvalue]
        simp [readFrom_cons, step, isEscaped, push]
      · have hpair : ¬ (quotesEscaped && c = '"') = true := by simp [hquote]
        rw [if_neg hpair, List.singleton_append]
        rw [if_neg hquote] at h
        by_cases hback : c = '\x60'
        · rw [if_pos hback] at h
          cases h
        · rw [if_neg hback] at h
          by_cases hdollar : c = '$'
          · subst hdollar
            rw [if_pos rfl, Bool.and_eq_true, Bool.not_eq_true'] at h
            have hlit : dollar true (content quotesEscaped value ++ '"' :: rest) = .lit '$' := by
              rw [dollar, startsExpansion_content, h.1]
              rfl
            have hstep : step .double (some start) '$'
                (content quotesEscaped value ++ '"' :: rest) =
                  (.double, some (start ++ [.lit '$']), []) := by simp [step, push, hlit]
            rw [readFrom_of_step hstep]
            exact (@ih (start ++ [.lit '$'])).1 h.2
          · rw [if_neg hdollar] at h
            by_cases hbackslash : c = '\\'
            · subst hbackslash
              have hstep : step .double (some start) '\\'
                  (content quotesEscaped value ++ '"' :: rest) =
                    (.doubleEscape, some (start ++ []), []) := by simp [step]
              rw [readFrom_of_step hstep, List.append_nil, ← lits_cons]
              exact ih.2 h
            · have hstep : step .double (some start) c
                  (content quotesEscaped value ++ '"' :: rest) =
                    (.double, some (start ++ [.lit c]), []) := by
                simp [step, push, hquote, hback, hdollar, hbackslash]
              rw [readFrom_of_step hstep]
              exact (@ih (start ++ [.lit c])).1 (by simpa [hbackslash] using h)
    · intro h
      have hne : c ≠ '\n' ∧ isEscaped c = false ∧ plainFrom quotesEscaped false value = true := by
        simpa [plainFrom, and_assoc] using h
      have hquote : c ≠ '"' := by
        intro hc
        rw [hc] at hne
        exact absurd hne.2.1 (by decide)
      have hpair : ¬ (quotesEscaped && c = '"') = true := by simp [hquote]
      have hstep : step .doubleEscape (some start) c
          (content quotesEscaped value ++ '"' :: rest) =
            (.double, some (start ++ [.lit '\\', .lit c]), []) := by
        simp [step, push, hne.1, hne.2.1]
      have hlits : start ++ lits ('\\' :: c :: value) =
          start ++ [.lit '\\', .lit c] ++ lits value := by simp [lits]
      rw [if_neg hpair, List.singleton_append, readFrom_of_step hstep, hlits]
      exact (@ih (start ++ [.lit '\\', .lit c])).1 hne.2.2

end Steps

/-! ### What a command runs -/

/-- What comes of a command: the arguments that programs are started with, and the operators
between them. -/
inductive Step where
  | arg (text : List Char)
  | op (c : Char)
  deriving DecidableEq

/-- The text of a word without active characters. -/
def literal : List Piece → Option (List Char)
  | [] => some []
  | .lit c :: pieces => (literal pieces).map (c :: ·)
  | .active _ _ :: _ => none

/-- The word `"$(cat)"`, which stands for the input of the command. -/
def catWord : List Piece := .active '$' true :: lits "(cat)".toList

/-- An output, as the shell puts it in: without the line breaks at its end. -/
def withoutBreaks (output : List Char) : List Char := output.rdropWhile (· = '\n')

/-- The argument for a word. Only one substitution is known, and only when there is an input. -/
def argument (stdin : Option (List Char)) (pieces : List Piece) : Option (List Char) :=
  match stdin with
  | none => literal pieces
  | some input => if pieces = catWord then some (withoutBreaks input) else literal pieces

def interpret (stdin : Option (List Char)) : List Token → Option (List Step)
  | [] => some []
  | .op c :: tokens => (interpret stdin tokens).map (.op c :: ·)
  | .word pieces :: tokens =>
    (argument stdin pieces).bind fun text => (interpret stdin tokens).map (.arg text :: ·)

def steps (stdin : Option (List Char)) (command : List Char) : Option (List Step) :=
  (read command).bind (interpret stdin)

section Interpret

variable {stdin : Option (List Char)} {pieces : List Piece} {text rest : List Char}
  {others : List Step}

theorem literal_lits (text : List Char) : literal (lits text) = some text := by
  induction text with
  | nil => rfl
  | cons c text ih =>
    have hcons : literal (lits (c :: text)) = (literal (lits text)).map (c :: ·) := rfl
    rw [hcons, ih, Option.map_some]

theorem eq_lits_of_literal (h : literal pieces = some text) : pieces = lits text := by
  induction pieces generalizing text with
  | nil =>
    cases h
    rfl
  | cons piece pieces ih =>
    cases piece with
    | active c quoted => cases h
    | lit c =>
      obtain ⟨others, hothers, rfl⟩ := Option.map_eq_some_iff.mp h
      rw [ih hothers]
      rfl

theorem argument_lits (text : List Char) : argument stdin (lits text) = some text := by
  cases stdin with
  | none => exact literal_lits text
  | some input =>
    have hne : lits text ≠ catWord := by
      cases text with
      | nil => decide
      | cons c text => simp [lits, catWord]
    have hargument : argument (some input) (lits text) = literal (lits text) := if_neg hne
    rw [hargument, literal_lits]

theorem readFrom_plain_word (hrest : rest = [] ∨ ∃ more, rest = ' ' :: more) :
    readFrom .plain (some pieces) rest = (read rest).map (.word pieces :: ·) := by
  rcases hrest with rfl | ⟨more, rfl⟩
  · rfl
  · unfold read
    rw [readFrom_cons, readFrom_cons, Option.map_map]
    rfl

theorem interpret_word (h : argument stdin pieces = some text) :
    ((read rest).map (.word pieces :: ·)).bind (interpret stdin) = some (.arg text :: others) ↔
      steps stdin rest = some others := by
  unfold steps
  cases read rest with
  | none => simp
  | some tokens =>
    simp only [Option.map_some, Option.bind_some, interpret, h]
    cases interpret stdin tokens with
    | none => simp
    | some found => simp

end Interpret

/-- A word of a command, with what the program that wrote it means by it.

- `text`: as it stands in the command.
- `meaning`: what it is meant to be.
- `ok`: the shell takes it so. -/
structure Part (stdin : Option (List Char)) where
  text : List Char
  meaning : List Step
  ok : Prop
  law : ∀ rest others, (rest = [] ∨ ∃ more, rest = ' ' :: more) →
    (steps stdin (text ++ rest) = some (meaning ++ others) ↔ ok ∧ steps stdin rest = some others)

/-- The command out of its parts. -/
def join {stdin : Option (List Char)} : List (Part stdin) → List Char
  | [] => []
  | [part] => part.text
  | part :: next :: parts => part.text ++ ' ' :: join (next :: parts)

/-- Parts that stand behind another one. -/
def behind {stdin : Option (List Char)} (parts : List (Part stdin)) : List Char :=
  parts.flatMap fun part => ' ' :: part.text

theorem join_cons {stdin : Option (List Char)} (part : Part stdin) (parts : List (Part stdin)) :
    join (part :: parts) = part.text ++ behind parts := by
  induction parts generalizing part with
  | nil => simp [join, behind]
  | cons next parts ih =>
    have hjoin : join (part :: next :: parts) = part.text ++ ' ' :: join (next :: parts) := rfl
    rw [hjoin, ih]
    simp [behind]

theorem behind_append {stdin : Option (List Char)} (parts others : List (Part stdin)) :
    behind (parts ++ others) = behind parts ++ behind others := List.flatMap_append

theorem steps_join_iff {stdin : Option (List Char)} (parts : List (Part stdin)) :
    steps stdin (join parts) = some (parts.flatMap (·.meaning)) ↔ ∀ part ∈ parts, part.ok := by
  induction parts with
  | nil => simp [join, steps, read, readFrom, flush, interpret]
  | cons part parts ih =>
    rw [List.flatMap_cons, List.forall_mem_cons, ← ih]
    cases parts with
    | nil =>
      have hjoin : join [part] = part.text ++ [] := (List.append_nil _).symm
      rw [hjoin, part.law [] _ (.inl rfl)]
      rfl
    | cons next parts =>
      have hjoin : join (part :: next :: parts) = part.text ++ ' ' :: join (next :: parts) := rfl
      have hblank : read (' ' :: join (next :: parts)) = read (join (next :: parts)) := by
        unfold read
        rw [readFrom_cons]
        simp [step, stepPlain, isBlankChar, flush]
      rw [hjoin, part.law _ _ (.inr ⟨_, rfl⟩), steps, hblank]
      rfl

namespace Part

variable {stdin : Option (List Char)}

/-- A character without a meaning for the shell. -/
def isBare (c : Char) : Bool := c.isAlphanum || c ∈ ['-', '_', '.', '/', '=', ':', '+', ',']

theorem step_bare {c : Char} (hc : isBare c = true) (current : Option (List Piece))
    (tail : List Char) : step .plain current c tail = (.plain, push current (.lit c), []) := by
  have hne : ∀ d, isBare d = false → c ≠ d := by
    intro d hd heq
    rw [heq, hd] at hc
    cases hc
  simp [step, stepPlain, isBlankChar, isOperator, isPattern, hne ' ' (by decide),
    hne '\t' (by decide), hne ';' (by decide), hne '&' (by decide), hne '|' (by decide),
    hne '<' (by decide), hne '>' (by decide), hne '(' (by decide), hne ')' (by decide),
    hne '\n' (by decide), hne '\x27' (by decide), hne '"' (by decide), hne '\\' (by decide),
    hne '$' (by decide), hne '\x60' (by decide), hne '*' (by decide), hne '?' (by decide),
    hne '[' (by decide), hne '~' (by decide), hne '#' (by decide)]

theorem readFrom_bare (text rest : List Char) (start : List Piece)
    (h : text.all isBare = true) : readFrom .plain (some start) (text ++ rest) =
      readFrom .plain (some (start ++ lits text)) rest := by
  induction text generalizing start with
  | nil => simp [lits]
  | cons c text ih =>
    rw [List.all_cons, Bool.and_eq_true] at h
    rw [List.cons_append, readFrom_of_step (step_bare h.1 _ _), ih _ h.2, lits_cons]

/-- A word of the program's own. -/
def bare (text : List Char) (h : (!text.isEmpty && text.all isBare) = true) : Part stdin where
  text := text
  meaning := [.arg text]
  ok := True
  law := by
    intro rest others hrest
    cases text with
    | nil => cases h
    | cons c text =>
      have hbare : isBare c = true ∧ text.all isBare = true := by simpa using h
      have hread : read (c :: text ++ rest) = (read rest).map (.word (lits (c :: text)) :: ·) := by
        rw [← readFrom_plain_word hrest]
        have hlits : [.lit c] ++ lits text = lits (c :: text) := rfl
        rw [← hlits, ← readFrom_bare text rest [.lit c] hbare.2]
        unfold read
        rw [List.cons_append, readFrom_cons, step_bare hbare.1]
        simp [push]
      rw [true_and]
      unfold steps
      rw [hread]
      exact interpret_word (argument_lits _)

/-- `&&` between two commands. -/
def andThen : Part stdin where
  text := ['&', '&']
  meaning := [.op '&', .op '&']
  ok := True
  law := by
    intro rest others _
    have hread : read (['&', '&'] ++ rest) = (read rest).map ([.op '&', .op '&'] ++ ·) := by
      unfold read
      simp [readFrom_cons, step, stepPlain, isBlankChar, isOperator, flush]
      rfl
    unfold steps
    rw [hread]
    cases read rest with
    | none => simp
    | some tokens =>
      cases hfound : interpret stdin tokens <;> simp [interpret, hfound]

/-- The text between single quotes, with an apostrophe outside them. -/
def singleQuoted (value : List Char) : List Char :=
  '\x27' :: value.flatMap (fun c => if c = '\x27' then ['\x27', '\\', '\x27', '\x27'] else [c]) ++
    ['\x27']

theorem readFrom_single (value rest : List Char) (start : List Piece) :
    readFrom .single (some start) (value.flatMap (fun c =>
        if c = '\x27' then ['\x27', '\\', '\x27', '\x27'] else [c]) ++ '\x27' :: rest) =
      readFrom .plain (some (start ++ lits value)) rest := by
  induction value generalizing start with
  | nil => simp [lits, readFrom_cons, step]
  | cons c value ih =>
    rw [List.flatMap_cons, lits_cons, ← ih]
    by_cases hc : c = '\x27'
    · rw [if_pos hc]
      simp [hc, readFrom_cons, step, stepPlain, isBlankChar, isOperator, push]
    · rw [if_neg hc]
      simp [hc, readFrom_cons, step, push]

/-- A value in single quotes: any text is read as it is. -/
def single (value : List Char) : Part stdin where
  text := singleQuoted value
  meaning := [.arg value]
  ok := True
  law := by
    intro rest others hrest
    have hread : read (singleQuoted value ++ rest) = (read rest).map (.word (lits value) :: ·) := by
      rw [← readFrom_plain_word hrest, ← List.nil_append (lits value), ← readFrom_single]
      unfold read singleQuoted
      simp [readFrom_cons, step, stepPlain, isBlankChar, isOperator]
    rw [true_and]
    unfold steps
    rw [hread]
    exact interpret_word (argument_lits value)

/-- A value in double quotes, with its own quotes escaped or not. -/
def double (quotesEscaped : Bool) (value : List Char) : Part none where
  text := '"' :: content quotesEscaped value ++ ['"']
  meaning := [.arg value]
  ok := plainFrom quotesEscaped false value = true
  law := by
    intro rest others hrest
    have hopen : read ('"' :: content quotesEscaped value ++ ['"'] ++ rest) =
        readFrom .double (some []) (content quotesEscaped value ++ '"' :: rest) := by
      unfold read
      simp [readFrom_cons, step, stepPlain, isBlankChar, isOperator]
    have hread : plainFrom quotesEscaped false value = true →
        (steps none ('"' :: content quotesEscaped value ++ ['"'] ++ rest) =
            some (.arg value :: others) ↔ steps none rest = some others) := by
      intro hplain
      unfold steps
      rw [hopen, read_of_plainFrom.1 hplain, List.nil_append, readFrom_plain_word hrest]
      exact interpret_word (argument_lits value)
    constructor
    · intro hsteps
      have hplain : plainFrom quotesEscaped false value = true := by
        unfold steps at hsteps
        rw [hopen] at hsteps
        obtain ⟨tokens, htokens, hmeaning⟩ := Option.bind_eq_some_iff.mp hsteps
        -- The first token is the value as a word.
        cases tokens with
        | nil => cases hmeaning
        | cons token tokens =>
          cases token with
          | op c =>
            obtain ⟨_, -, hop⟩ := Option.map_eq_some_iff.mp hmeaning
            cases hop
          | word pieces =>
            obtain ⟨text, hliteral, hmore⟩ := Option.bind_eq_some_iff.mp hmeaning
            obtain ⟨_, -, harg⟩ := Option.map_eq_some_iff.mp hmore
            cases harg
            rw [eq_lits_of_literal hliteral] at htokens
            exact (plainFrom_of_read hrest).1 htokens
      exact ⟨hplain, (hread hplain).mp hsteps⟩
    · rintro ⟨hplain, hothers⟩
      exact (hread hplain).mpr hothers

/-- The input of the command as an argument. -/
def input (prompt : List Char) : Part (some prompt) where
  text := '"' :: "$(cat)".toList ++ ['"']
  meaning := [.arg prompt]
  ok := withoutBreaks prompt = prompt
  law := by
    intro rest others hrest
    have hread : read ('"' :: "$(cat)".toList ++ ['"'] ++ rest) =
        (read rest).map (.word catWord :: ·) := by
      rw [← readFrom_plain_word hrest]
      unfold read
      simp [readFrom_cons, step, stepPlain, isBlankChar, isOperator, dollar, startsExpansion, push,
        catWord, lits]
    have hargument : argument (some prompt) catWord = some (withoutBreaks prompt) := by
      unfold argument
      simp
    have hsteps : ∀ found, steps (some prompt) ('"' :: "$(cat)".toList ++ ['"'] ++ rest) =
        some (.arg (withoutBreaks prompt) :: found) ↔ steps (some prompt) rest = some found := by
      intro found
      rw [steps, hread]
      exact interpret_word hargument
    constructor
    · intro h
      have hprompt : withoutBreaks prompt = prompt := by
        rw [steps, hread] at h
        obtain ⟨tokens, htokens, hmeaning⟩ := Option.bind_eq_some_iff.mp h
        obtain ⟨more, -, rfl⟩ := Option.map_eq_some_iff.mp htokens
        obtain ⟨text, htext, hmore⟩ := Option.bind_eq_some_iff.mp hmeaning
        obtain ⟨_, -, harg⟩ := Option.map_eq_some_iff.mp hmore
        cases harg
        exact Option.some.inj (hargument.symm.trans htext)
      rw [← hprompt] at h
      exact ⟨hprompt, (hsteps others).mp (by simpa [hprompt] using h)⟩
    · rintro ⟨hprompt, hothers⟩
      have h := (hsteps others).mpr hothers
      rw [hprompt] at h
      exact h

section Fields

variable {text value prompt : List Char} {quotesEscaped : Bool}

@[simp] theorem bare_text (h) : (@bare stdin text h).text = text := rfl
@[simp] theorem bare_meaning (h) : (@bare stdin text h).meaning = [.arg text] := rfl
@[simp] theorem bare_ok (h) : (@bare stdin text h).ok := trivial
@[simp] theorem andThen_text : (@andThen stdin).text = ['&', '&'] := rfl
@[simp] theorem andThen_meaning : (@andThen stdin).meaning = [.op '&', .op '&'] := rfl
@[simp] theorem andThen_ok : (@andThen stdin).ok := trivial
@[simp] theorem single_text : (@single stdin value).text = singleQuoted value := rfl
@[simp] theorem single_meaning : (@single stdin value).meaning = [.arg value] := rfl
@[simp] theorem single_ok : (@single stdin value).ok := trivial
@[simp] theorem double_text :
    (double quotesEscaped value).text = '"' :: content quotesEscaped value ++ ['"'] := rfl
@[simp] theorem double_meaning : (double quotesEscaped value).meaning = [.arg value] := rfl
@[simp] theorem double_ok :
    (double quotesEscaped value).ok ↔ plainFrom quotesEscaped false value = true := Iff.rfl
@[simp] theorem input_text : (input prompt).text = '"' :: "$(cat)".toList ++ ['"'] := rfl
@[simp] theorem input_meaning : (input prompt).meaning = [.arg prompt] := rfl
@[simp] theorem input_ok : (input prompt).ok ↔ withoutBreaks prompt = prompt := Iff.rfl

end Fields

@[simp] theorem content_unescaped (value : List Char) : content false value = value := by
  simp [content]

end Part

end ArchLoop.Lib.Shell
