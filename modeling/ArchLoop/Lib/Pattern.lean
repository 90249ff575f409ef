import Mathlib.Data.List.Basic
import Mathlib.Data.Sum.Basic

/-!
# `ArchLoop.Lib.Pattern`: all matches of a pattern

A global search goes through a text from its front. Where the pattern matches, it takes the match
and goes on behind it; elsewhere it takes one element.

`scan` is what such a search makes of a text: the elements that it goes past and the values of the
matches. A replacement and the list of the matches are read off it. `scan_separator`: where no match
can reach over an element, both sides of it are searched apart. `splice_scan`: replacing the matches
by their positions, the last one first, is replacing them in the scan.
-/

set_option autoImplicit false

namespace ArchLoop.Lib.Pattern

variable {α β γ : Type}

/-- What a pattern matches at the front of a text: the value of the match, and how many elements
it takes after the first one. -/
abbrev Matcher (α β : Type) : Type := List α → Option (β × Nat)

/-- The rest of a search that still has to leave some elements, which belong to a match. -/
def scanFrom (pattern : Matcher α β) : Nat → List α → List (α ⊕ β)
  | _, [] => []
  | skip + 1, _ :: text => scanFrom pattern skip text
  | 0, x :: text =>
    match pattern (x :: text) with
    | some (value, more) => .inr value :: scanFrom pattern more text
    | none => .inl x :: scanFrom pattern 0 text

/-- What a global search makes of a text. -/
def scan (pattern : Matcher α β) (text : List α) : List (α ⊕ β) := scanFrom pattern 0 text

/-- The values of the matches, in their order. -/
def values (pieces : List (α ⊕ β)) : List β := pieces.filterMap Sum.getRight?

/-- The text with something else for each match. -/
def replace (replacement : β → List α) (pieces : List (α ⊕ β)) : List α :=
  pieces.flatMap (Sum.elim (fun x => [x]) replacement)

/-! ### The scan of a text -/

section
variable {pattern : Matcher α β}

@[simp]
theorem scan_nil : scan pattern [] = [] := rfl

theorem scanFrom_eq (skip : Nat) (text : List α) :
    scanFrom pattern skip text = scan pattern (text.drop skip) := by
  induction text generalizing skip with
  | nil => simp [scanFrom, scan]
  | cons x text ih =>
    cases skip with
    | zero => rfl
    | succ skip => simpa [scanFrom] using ih skip

theorem scan_of_none {x : α} {text : List α} (h : pattern (x :: text) = none) :
    scan pattern (x :: text) = .inl x :: scan pattern text := by
  simp [scan, scanFrom, h]

theorem scan_of_some {x : α} {text : List α} {value : β} {more : Nat}
    (h : pattern (x :: text) = some (value, more)) :
    scan pattern (x :: text) = .inr value :: scan pattern (text.drop more) := by
  rw [← scanFrom_eq]
  simp [scan, scanFrom, h]

theorem scan_match {x : α} {inside rest : List α} {value : β}
    (h : pattern (x :: (inside ++ rest)) = some (value, inside.length)) :
    scan pattern (x :: (inside ++ rest)) = .inr value :: scan pattern rest := by
  rw [scan_of_some h, List.drop_left]

theorem scan_append_of_none {front rest : List α}
    (h : ∀ x tail, x :: tail <:+ front → pattern (x :: (tail ++ rest)) = none) :
    scan pattern (front ++ rest) = front.map .inl ++ scan pattern rest := by
  induction front with
  | nil => rfl
  | cons x front ih =>
    have hfirst : pattern (x :: (front ++ rest)) = none := h x front List.suffix_rfl
    have hlater := ih fun y tail hsuffix => h y tail (hsuffix.trans (List.suffix_cons x front))
    rw [List.cons_append, scan_of_none hfirst, hlater]
    rfl

theorem mem_of_inl_mem_scanFrom {x : α} {text : List α} : ∀ skip,
    .inl x ∈ scanFrom pattern skip text → x ∈ text := by
  induction text with
  | nil => simp [scanFrom]
  | cons y text ih =>
    intro skip h
    cases skip with
    | succ skip => exact List.mem_cons_of_mem y (ih skip h)
    | zero =>
      cases hmatch : pattern (y :: text) with
      | none =>
        simp only [scanFrom, hmatch, List.mem_cons, Sum.inl.injEq] at h
        exact List.mem_cons.mpr (h.imp_right (ih 0))
      | some found =>
        simp only [scanFrom, hmatch, List.mem_cons, reduceCtorEq, false_or] at h
        exact List.mem_cons_of_mem y (ih _ h)

theorem mem_of_inl_mem_scan {x : α} {text : List α} (h : .inl x ∈ scan pattern text) :
    x ∈ text :=
  mem_of_inl_mem_scanFrom 0 h

/-- No match begins at the element or reaches it from the left. -/
structure Separates (pattern : Matcher α β) (separator : α) : Prop where
  here (rest : List α) : pattern (separator :: rest) = none
  before (x : α) (text rest : List α) :
    pattern (x :: (text ++ separator :: rest)) = pattern (x :: text)
  inside (x : α) (text : List α) (value : β) (more : Nat) :
    pattern (x :: text) = some (value, more) → more ≤ text.length

theorem scanFrom_separator {separator : α} (h : Separates pattern separator) {text : List α}
    (rest : List α) : ∀ skip, skip ≤ text.length →
      scanFrom pattern skip (text ++ separator :: rest) =
        scanFrom pattern skip text ++ .inl separator :: scan pattern rest := by
  induction text with
  | nil =>
    intro skip hskip
    obtain rfl : skip = 0 := by simpa using hskip
    exact scan_of_none (h.here rest)
  | cons x text ih =>
    intro skip hskip
    cases skip with
    | succ skip => exact ih skip (by simpa using hskip)
    | zero =>
      rw [List.cons_append]
      cases hmatch : pattern (x :: text) with
      | none =>
        have hmatch' := (h.before x text rest).trans hmatch
        simp only [scanFrom, hmatch, hmatch', ih 0 (Nat.zero_le _), List.cons_append]
      | some found =>
        obtain ⟨value, more⟩ := found
        have hmatch' := (h.before x text rest).trans hmatch
        have hmore := h.inside x text value more hmatch
        simp only [scanFrom, hmatch, hmatch', ih more hmore, List.cons_append]

theorem scan_separator {separator : α} (h : Separates pattern separator) (text rest : List α) :
    scan pattern (text ++ separator :: rest) =
      scan pattern text ++ .inl separator :: scan pattern rest :=
  scanFrom_separator h rest 0 (Nat.zero_le _)

theorem scan_separators {marks : List α} (h : ∀ mark ∈ marks, Separates pattern mark)
    (hne : marks ≠ []) (text rest : List α) :
    scan pattern (text ++ marks ++ rest) =
      scan pattern text ++ marks.map .inl ++ scan pattern rest := by
  induction marks generalizing text with
  | nil => exact absurd rfl hne
  | cons mark marks ih =>
    obtain ⟨hmark, hmarks⟩ := List.forall_mem_cons.mp h
    rw [List.append_assoc, List.cons_append, scan_separator hmark]
    cases marks with
    | nil => simp
    | cons next marks =>
      have hrest := ih hmarks (by simp) []
      simp only [List.nil_append, scan_nil] at hrest
      rw [hrest]
      simp

end

/-! ### Replacing -/

section
variable (replacement : β → List α)

@[simp]
theorem replace_nil : replace replacement [] = [] := rfl

@[simp]
theorem replace_inl (x : α) (pieces : List (α ⊕ β)) :
    replace replacement (.inl x :: pieces) = x :: replace replacement pieces := rfl

@[simp]
theorem replace_inr (value : β) (pieces : List (α ⊕ β)) :
    replace replacement (.inr value :: pieces) =
      replacement value ++ replace replacement pieces := rfl

@[simp]
theorem replace_append (front rest : List (α ⊕ β)) :
    replace replacement (front ++ rest) =
      replace replacement front ++ replace replacement rest := by
  simp [replace]

@[simp]
theorem replace_map_inl (text : List α) : replace replacement (text.map .inl) = text := by
  induction text with
  | nil => rfl
  | cons x text ih => simp [ih]

theorem replace_congr {other : β → List α} {pieces : List (α ⊕ β)}
    (h : ∀ value ∈ values pieces, replacement value = other value) :
    replace replacement pieces = replace other pieces := by
  induction pieces with
  | nil => rfl
  | cons piece pieces ih =>
    cases piece with
    | inl x => exact congrArg (x :: ·) (ih h)
    | inr value =>
      obtain ⟨hvalue, hpieces⟩ := List.forall_mem_cons.mp h
      rw [replace_inr, replace_inr, hvalue, ih hpieces]

theorem replace_scanFrom_of_values_nil {pattern : Matcher α β} {text : List α} : ∀ skip,
    values (scanFrom pattern skip text) = [] →
      replace replacement (scanFrom pattern skip text) = text.drop skip := by
  induction text with
  | nil => simp [scanFrom]
  | cons x text ih =>
    intro skip h
    cases skip with
    | succ skip => exact ih skip h
    | zero =>
      cases hmatch : pattern (x :: text) with
      | none =>
        simp only [scanFrom, hmatch] at h ⊢
        simpa using ih 0 h
      | some found => simp [scanFrom, hmatch, values] at h

theorem replace_scan_of_values_nil {pattern : Matcher α β} {text : List α}
    (h : values (scan pattern text) = []) : replace replacement (scan pattern text) = text :=
  replace_scanFrom_of_values_nil replacement 0 h

theorem replace_scanFrom_original {pattern : Matcher α β} {original : β → List α}
    (h : ∀ x text value more, pattern (x :: text) = some (value, more) →
      original value = x :: text.take more) {text : List α} : ∀ skip,
    replace original (scanFrom pattern skip text) = text.drop skip := by
  induction text with
  | nil => simp [scanFrom]
  | cons x text ih =>
    intro skip
    cases skip with
    | succ skip => exact ih skip
    | zero =>
      cases hmatch : pattern (x :: text) with
      | none => simpa [scanFrom, hmatch] using ih 0
      | some found => simp [scanFrom, hmatch, h _ _ _ _ hmatch, ih]

theorem replace_scan_original {pattern : Matcher α β} {original : β → List α}
    (h : ∀ x text value more, pattern (x :: text) = some (value, more) →
      original value = x :: text.take more) (text : List α) :
    replace original (scan pattern text) = text :=
  replace_scanFrom_original h 0

end

@[simp]
theorem values_nil : values ([] : List (α ⊕ β)) = [] := rfl

@[simp]
theorem values_inl (x : α) (pieces : List (α ⊕ β)) : values (.inl x :: pieces) = values pieces :=
  rfl

@[simp]
theorem values_inr (value : β) (pieces : List (α ⊕ β)) :
    values (.inr value :: pieces) = value :: values pieces := rfl

@[simp]
theorem values_append (front rest : List (α ⊕ β)) :
    values (front ++ rest) = values front ++ values rest := by
  simp [values]

@[simp]
theorem values_map_inl (text : List α) : values (text.map .inl : List (α ⊕ β)) = [] := by
  induction text with
  | nil => rfl
  | cons x text ih => simp [ih]

/-! ### Runs -/

/-- The text up to the first match, and each match with the text up to the next one. -/
def runs : List (α ⊕ β) → List α × List (β × List α)
  | [] => ([], [])
  | .inl x :: pieces => (x :: (runs pieces).1, (runs pieces).2)
  | .inr value :: pieces => ([], (value, (runs pieces).1) :: (runs pieces).2)

theorem replace_eq_runs (replacement : β → List α) (pieces : List (α ⊕ β)) :
    replace replacement pieces =
      (runs pieces).1 ++ (runs pieces).2.flatMap fun run => replacement run.1 ++ run.2 := by
  induction pieces with
  | nil => rfl
  | cons piece pieces ih =>
    cases piece with
    | inl x => simp [runs, ih]
    | inr value => simp [runs, ih]

/-! ### Matches with their positions -/

/-- A match and where it is. -/
structure Match (β : Type) where
  index : Nat
  length : Nat
  value : β

def matchesFrom (pattern : Matcher α β) : Nat → Nat → List α → List (Match β)
  | _, _, [] => []
  | index, skip + 1, _ :: text => matchesFrom pattern (index + 1) skip text
  | index, 0, x :: text =>
    match pattern (x :: text) with
    | some (value, more) =>
      { index := index, length := more + 1, value := value } ::
        matchesFrom pattern (index + 1) more text
    | none => matchesFrom pattern (index + 1) 0 text

/-- `matchAll`. -/
def matchAll (pattern : Matcher α β) (text : List α) : List (Match β) :=
  matchesFrom pattern 0 0 text

/-- The text with each match replaced at its position, the last one first. -/
def splice (parts : List (Match β × List α)) (text : List α) : List α :=
  parts.foldr (fun part result =>
    result.take part.1.index ++ part.2 ++ result.drop (part.1.index + part.1.length)) text

/-- The pieces with one text for each match, as long as there are texts. -/
def weave : List (α ⊕ β) → List (List α) → List α
  | [], _ => []
  | .inl x :: pieces, texts => x :: weave pieces texts
  | .inr _ :: pieces, text :: texts => text ++ weave pieces texts
  | .inr _ :: pieces, [] => weave pieces []

theorem weave_append (front : List α) (pieces : List (α ⊕ β)) (texts : List (List α)) :
    weave (front.map .inl ++ pieces) texts = front ++ weave pieces texts := by
  induction front with
  | nil => rfl
  | cons x front ih => exact congrArg (x :: ·) ih

theorem weave_map (replacement : β → List α) (pieces : List (α ⊕ β)) :
    weave pieces ((values pieces).map replacement) = replace replacement pieces := by
  induction pieces with
  | nil => rfl
  | cons piece pieces ih =>
    cases piece with
    | inl x => simpa [weave] using ih
    | inr value => simp [weave, ih]

theorem map_value_matchesFrom (pattern : Matcher α β) (text : List α) : ∀ index skip,
    (matchesFrom pattern index skip text).map (·.value) =
      values (scanFrom pattern skip text) := by
  induction text with
  | nil => exact fun _ _ => rfl
  | cons x text ih =>
    intro index skip
    cases skip with
    | succ skip => exact ih (index + 1) skip
    | zero =>
      cases hmatch : pattern (x :: text) with
      | none => simp [matchesFrom, scanFrom, hmatch, ih]
      | some found => simp [matchesFrom, scanFrom, hmatch, ih]

theorem map_value_matchAll (pattern : Matcher α β) (text : List α) :
    (matchAll pattern text).map (·.value) = values (scan pattern text) :=
  map_value_matchesFrom pattern text 0 0

theorem splice_matchesFrom {pattern : Matcher α β}
    (hinside : ∀ x text value more, pattern (x :: text) = some (value, more) →
      more ≤ text.length) (text : List α) :
    ∀ (front : List α) (skip : Nat) (texts : List (List α)), skip ≤ text.length →
      texts.length = (matchesFrom pattern front.length skip text).length →
      splice ((matchesFrom pattern front.length skip text).zip texts) (front ++ text) =
        front ++ text.take skip ++ weave (scanFrom pattern skip text) texts := by
  induction text with
  | nil =>
    intro front skip texts _ _
    simp [matchesFrom, scanFrom, splice, weave]
  | cons x text ih =>
    intro front skip texts hskip hlength
    have hfront : front ++ x :: text = (front ++ [x]) ++ text := by simp
    have hindex : (front ++ [x]).length = front.length + 1 := by simp
    cases skip with
    | succ skip =>
      have hrest := ih (front ++ [x]) skip texts (by simpa using hskip)
      rw [hindex] at hrest
      simp only [matchesFrom] at hlength ⊢
      rw [hfront, hrest hlength]
      simp [scanFrom]
    | zero =>
      cases hmatch : pattern (x :: text) with
      | none =>
        have hrest := ih (front ++ [x]) 0 texts (Nat.zero_le _)
        rw [hindex] at hrest
        simp only [matchesFrom, hmatch] at hlength ⊢
        rw [hfront, hrest hlength]
        simp [scanFrom, hmatch, weave]
      | some found =>
        obtain ⟨value, more⟩ := found
        have hmore := hinside x text value more hmatch
        simp only [matchesFrom, hmatch] at hlength ⊢
        cases texts with
        | nil => simp at hlength
        | cons first texts =>
          have hrest := ih (front ++ [x]) more texts hmore
          rw [hindex] at hrest
          have hlater := hrest (by simpa using hlength)
          -- the later matches are replaced already, and what is in front of them is as it was
          simp only [List.zip_cons_cons, splice, List.foldr_cons] at hlater ⊢
          rw [hfront, hlater]
          have hcount : front.length + (more + 1) = (front ++ [x] ++ text.take more).length := by
            simp only [List.length_append, List.length_cons, List.length_nil, List.length_take]
            omega
          rw [hcount, List.drop_left]
          simp [scanFrom, hmatch, weave]

theorem splice_matchAll {pattern : Matcher α β}
    (hinside : ∀ x text value more, pattern (x :: text) = some (value, more) →
      more ≤ text.length) {text : List α} {texts : List (List α)}
    (hlength : texts.length = (matchAll pattern text).length) :
    splice ((matchAll pattern text).zip texts) text = weave (scan pattern text) texts := by
  have h := splice_matchesFrom hinside text [] 0 texts (Nat.zero_le _) hlength
  simpa [matchAll, scan] using h

end ArchLoop.Lib.Pattern
