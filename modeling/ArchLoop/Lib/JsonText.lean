import ArchLoop.Lib.Text
import Mathlib.Tactic.IntervalCases

/-!
# `ArchLoop.Lib.JsonText`: values as `JSON.stringify` prints and `JSON.parse` reads them

The reader takes a text one character after the other (`step`), with a stack of the arrays and
objects that are still open. So a theorem about a text is a theorem about the state behind it:
`run_print` says that a printed value takes the reader from before a value to behind it, and
`parse_append_eq_none` that nothing else than whitespace may stand before a printed object.

Texts are sequences of UTF-16 units for the reader, as the escapes name them.
-/

set_option autoImplicit false

namespace ArchLoop.Lib.JsonText

/-- A JSON value. A number is as it is written; of several members of an object with one name the
last one counts. -/
inductive Value where
  | null
  | bool (b : Bool)
  | number (written : List Char)
  | string (text : String)
  | array (items : List Value)
  | object (members : List (String × Value))

/-- The value of a member of an object. -/
def Value.get (value : Value) (name : String) : Option Value :=
  match value with
  | object members => members.reverse.lookup name
  | _ => none

/-- The member under the first of the names that has one and is not `null`: a chain of `??`. -/
def Value.first (value : Value) : List String → Option Value
  | [] => none
  | name :: names =>
    match value.get name with
    | none | some .null => value.first names
    | some member => some member

/-- The text of a string. -/
def Value.text? : Value → Option String
  | string text => some text
  | _ => none

/-- The items of an array. -/
def Value.items? : Value → Option (List Value)
  | array items => some items
  | _ => none

/-- The object that `JSON.stringify` prints: members without a value are left out. -/
def Value.ofFields (fields : List (String × Option Value)) : Value :=
  .object (fields.filterMap fun field => field.2.map (field.1, ·))

section Lookup

variable {β : Type} {name : String}

theorem lookup_of_notMem {l : List (String × β)} (h : name ∉ l.map Prod.fst) :
    l.lookup name = none := by
  rw [List.lookup_eq_none_iff]
  intro entry hentry
  have hne : name ≠ entry.1 := by
    rintro rfl
    exact h (List.mem_map_of_mem hentry)
  exact bne_iff_ne.mpr hne

theorem lookup_reverse {l : List (String × β)} (h : (l.map Prod.fst).Nodup) :
    l.reverse.lookup name = l.lookup name := by
  induction l with
  | nil => rfl
  | cons entry l ih =>
    obtain ⟨key, value⟩ := entry
    rw [List.map_cons, List.nodup_cons] at h
    rw [List.reverse_cons, List.lookup_append, ih h.2, List.lookup_cons, List.lookup_cons]
    by_cases hkey : name = key
    · subst hkey
      rw [lookup_of_notMem h.1, beq_self_eq_true]
      rfl
    · rw [beq_false_of_ne hkey]
      exact Option.or_none

theorem lookup_filterMap {fields : List (String × Option β)}
    (h : (fields.map Prod.fst).Nodup) :
    (fields.filterMap fun field => field.2.map (field.1, ·)).lookup name =
      (fields.lookup name).join := by
  induction fields with
  | nil => rfl
  | cons field fields ih =>
    obtain ⟨key, value⟩ := field
    rw [List.map_cons, List.nodup_cons] at h
    have hrest := ih h.2
    rw [List.filterMap_cons, List.lookup_cons]
    by_cases hkey : name = key
    · subst hkey
      rw [beq_self_eq_true]
      cases value with
      | none =>
        -- No other field has the name.
        rw [lookup_of_notMem h.1] at hrest
        exact hrest
      | some value =>
        dsimp only [Option.map_some]
        rw [List.lookup_cons, beq_self_eq_true]
        rfl
    · rw [beq_false_of_ne hkey]
      cases value with
      | none => exact hrest
      | some value =>
        dsimp only [Option.map_some]
        rw [List.lookup_cons, beq_false_of_ne hkey]
        exact hrest

end Lookup

theorem Value.get_ofFields {fields : List (String × Option Value)}
    (hnodup : (fields.map Prod.fst).Nodup) (name : String) :
    (Value.ofFields fields).get name = (fields.lookup name).join := by
  have hsub : ((fields.filterMap fun field => field.2.map (field.1, ·)).map Prod.fst).Sublist
      (fields.map Prod.fst) := by
    induction fields with
    | nil => exact List.Sublist.refl _
    | cons field fields ih =>
      obtain ⟨key, value⟩ := field
      rw [List.map_cons, List.nodup_cons] at hnodup
      rw [List.filterMap_cons]
      cases value with
      | none => exact (ih hnodup.2).cons _
      | some value => exact (ih hnodup.2).cons_cons _
  exact (lookup_reverse (hnodup.sublist hsub)).trans (lookup_filterMap hnodup)

/-! ### UTF-16 -/

/-- The units of a character. -/
def units (c : Char) : List Nat :=
  if c.toNat ≤ 0xFFFF then [c.toNat]
  else [0xD800 + (c.toNat - 0x10000) / 0x400, 0xDC00 + (c.toNat - 0x10000) % 0x400]

/-- A unit that stands alone. Half a character is read as U+FFFD. -/
def ofUnit (unit : Nat) : Char :=
  if 0xD800 ≤ unit ∧ unit ≤ 0xDFFF then '\uFFFD' else Char.ofNat unit

/-- The characters of the units. -/
def ofUnits : List Nat → List Char
  | [] => []
  | [unit] => [ofUnit unit]
  | first :: second :: rest =>
    if 0xD800 ≤ first ∧ first ≤ 0xDBFF ∧ 0xDC00 ≤ second ∧ second ≤ 0xDFFF then
      Char.ofNat (0x10000 + (first - 0xD800) * 0x400 + (second - 0xDC00)) :: ofUnits rest
    else ofUnit first :: ofUnits (second :: rest)

/-! ### Reading -/

/-- Where the reader is in a number. -/
inductive NumberPhase where
  | sign
  | zero
  | whole
  | point
  | fraction
  | exponent
  | exponentSign
  | exponentDigits
  deriving DecidableEq, Repr

namespace NumberPhase

/-- The phase behind one more character. -/
def next : NumberPhase → Char → Option NumberPhase
  | sign, c => if c = '0' then some zero else if c.isDigit then some whole else none
  | zero, c => if c = '.' then some point else if c = 'e' ∨ c = 'E' then some exponent else none
  | whole, c =>
    if c.isDigit then some whole
    else if c = '.' then some point else if c = 'e' ∨ c = 'E' then some exponent else none
  | point, c => if c.isDigit then some fraction else none
  | fraction, c =>
    if c.isDigit then some fraction else if c = 'e' ∨ c = 'E' then some exponent else none
  | exponent, c =>
    if c = '+' ∨ c = '-' then some exponentSign else if c.isDigit then some exponentDigits else none
  | exponentSign, c => if c.isDigit then some exponentDigits else none
  | exponentDigits, c => if c.isDigit then some exponentDigits else none

/-- The number may end here. -/
def complete : NumberPhase → Bool
  | zero | whole | fraction | exponentDigits => true
  | _ => false

end NumberPhase

/-- An array or object that is still open: what it has so far, and the name of the member that is
being read. -/
inductive Frame where
  | array (items : List Value)
  | object (members : List (String × Value)) (name : String)

/-- What the reader expects.

- `value`, `name`: a value, or the name of a member; when `first`, the end of the array or object
  as well.
- `colon`: the colon behind a name.
- `after`: what may follow the value.
- `text`, `escape`, `hex`: the rest of a text, of an escape, and of `digits` hexadecimal digits.
- `literal`: the rest of a literal.
- `number`: the rest of a number. -/
inductive Mode where
  | value (first : Bool)
  | name (first : Bool)
  | colon
  | after (value : Value)
  | text (isName : Bool) (read : List Nat)
  | escape (isName : Bool) (read : List Nat)
  | hex (isName : Bool) (read : List Nat) (digits : Nat) (unit : Nat)
  | literal (rest : List Char) (value : Value)
  | number (phase : NumberPhase) (written : List Char)

/-- The state of the reader: the open arrays and objects, from the innermost one. -/
structure Reader where
  stack : List Frame
  mode : Mode

/-- Whitespace between tokens. -/
def isWhitespace (c : Char) : Bool := c == ' ' || c == '\t' || c == '\n' || c == '\r'

/-- The unit that a short escape stands for. -/
def shortEscape (c : Char) : Option Nat :=
  if c = '"' ∨ c = '\\' ∨ c = '/' then some c.toNat
  else if c = 'b' then some 8
  else if c = 'f' then some 12
  else if c = 'n' then some 10
  else if c = 'r' then some 13
  else if c = 't' then some 9
  else none

/-- The value of a hexadecimal digit. -/
def hexValue (c : Char) : Option Nat :=
  if c.isDigit then some (c.toNat - '0'.toNat)
  else if 'a' ≤ c ∧ c ≤ 'f' then some (c.toNat - 'a'.toNat + 10)
  else if 'A' ≤ c ∧ c ≤ 'F' then some (c.toNat - 'A'.toNat + 10)
  else none

/-- The end of an array or object. -/
def close (c : Char) : List Frame → Option (List Frame × Value)
  | .array items :: stack => if c = ']' then some (stack, .array items) else none
  | .object members _ :: stack => if c = '}' then some (stack, .object members) else none
  | [] => none

/-- A character behind a value. -/
def stepAfter (stack : List Frame) (value : Value) (c : Char) : Option Reader :=
  if isWhitespace c then some ⟨stack, .after value⟩
  else match stack with
    | .array items :: stack =>
      if c = ',' then some ⟨.array (items ++ [value]) :: stack, .value false⟩
      else if c = ']' then some ⟨stack, .after (.array (items ++ [value]))⟩ else none
    | .object members name :: stack =>
      if c = ',' then some ⟨.object (members ++ [(name, value)]) name :: stack, .name false⟩
      else if c = '}' then some ⟨stack, .after (.object (members ++ [(name, value)]))⟩ else none
    | [] => none

/-- The first character of a value. -/
def stepValue (stack : List Frame) (c : Char) : Option Reader :=
  if c = '{' then some ⟨.object [] "" :: stack, .name true⟩
  else if c = '[' then some ⟨.array [] :: stack, .value true⟩
  else if c = '"' then some ⟨stack, .text false []⟩
  else if c = 'n' then some ⟨stack, .literal "ull".toList .null⟩
  else if c = 't' then some ⟨stack, .literal "rue".toList (.bool true)⟩
  else if c = 'f' then some ⟨stack, .literal "alse".toList (.bool false)⟩
  else if c = '-' then some ⟨stack, .number .sign [c]⟩
  else (NumberPhase.next .sign c).map fun phase => ⟨stack, .number phase [c]⟩

/-- The end of a text. -/
def closeText (stack : List Frame) (isName : Bool) (text : String) : Option Reader :=
  if isName then
    match stack with
    | .object members _ :: stack => some ⟨.object members text :: stack, .colon⟩
    | _ => none
  else some ⟨stack, .after (.string text)⟩

/-- The reader behind one more character. -/
def step (reader : Reader) (c : Char) : Option Reader :=
  let stack := reader.stack
  match reader.mode with
  | .value first =>
    if isWhitespace c then some reader
    else if first ∧ c = ']' then
      (close c stack).map fun closed => ⟨closed.1, .after closed.2⟩
    else stepValue stack c
  | .name first =>
    if isWhitespace c then some reader
    else if c = '"' then some ⟨stack, .text true []⟩
    else if first ∧ c = '}' then
      (close c stack).map fun closed => ⟨closed.1, .after closed.2⟩
    else none
  | .colon =>
    if isWhitespace c then some reader
    else if c = ':' then some ⟨stack, .value false⟩ else none
  | .after value => stepAfter stack value c
  | .text isName read =>
    if c = '"' then closeText stack isName (String.ofList (ofUnits read))
    else if c = '\\' then some ⟨stack, .escape isName read⟩
    else if c.toNat < 0x20 then none
    else some ⟨stack, .text isName (read ++ units c)⟩
  | .escape isName read =>
    if c = 'u' then some ⟨stack, .hex isName read 4 0⟩
    else (shortEscape c).map fun unit => ⟨stack, .text isName (read ++ [unit])⟩
  | .hex isName read digits unit =>
    (hexValue c).map fun digit =>
      if digits ≤ 1 then ⟨stack, .text isName (read ++ [unit * 16 + digit])⟩
      else ⟨stack, .hex isName read (digits - 1) (unit * 16 + digit)⟩
  | .literal rest value =>
    match rest with
    | [] => stepAfter stack value c
    | d :: rest =>
      if c = d then some ⟨stack, if rest = [] then .after value else .literal rest value⟩ else none
  | .number phase written =>
    match phase.next c with
    | some phase => some ⟨stack, .number phase (written ++ [c])⟩
    | none => if phase.complete then stepAfter stack (.number written) c else none

/-- The reader behind a text. -/
def run : List Char → Reader → Option Reader
  | [], reader => some reader
  | c :: rest, reader => (step reader c).bind (run rest)

/-- The value, when the text ends here. -/
def finish (reader : Reader) : Option Value :=
  match reader.stack, reader.mode with
  | [], .after value => some value
  | [], .number phase written => if phase.complete then some (.number written) else none
  | _, _ => none

/-- `JSON.parse`. -/
def parse (text : List Char) : Option Value :=
  (run text ⟨[], .value false⟩).bind finish

/-! ### Printing -/

/-- The digit of a value below sixteen. -/
def hexDigit (n : Nat) : Char := "0123456789abcdef".toList.getD n '0'

/-- A character in a text. -/
def printChar (c : Char) : List Char :=
  if c = '"' then "\\\"".toList
  else if c = '\\' then "\\\\".toList
  else if c.toNat = 8 then "\\b".toList
  else if c.toNat = 12 then "\\f".toList
  else if c.toNat = 10 then "\\n".toList
  else if c.toNat = 13 then "\\r".toList
  else if c.toNat = 9 then "\\t".toList
  else if c.toNat < 0x20 then "\\u00".toList ++ [hexDigit (c.toNat / 16), hexDigit (c.toNat % 16)]
  else [c]

/-- A text, with its quotes. -/
def printText (text : String) : List Char := '"' :: text.toList.flatMap printChar ++ ['"']

/-- The decimal digits of a number below `10 ^ fuel`. -/
def decimalDigits : Nat → Nat → List Char
  | 0, _ => []
  | fuel + 1, n =>
    if n < 10 then [hexDigit n] else decimalDigits fuel (n / 10) ++ [hexDigit (n % 10)]

/-- A whole number, as it is printed. -/
def decimal (n : Int) : List Char :=
  let digits := decimalDigits (n.natAbs + 1) n.natAbs
  if n < 0 then '-' :: digits else digits

def Value.ofInt (n : Int) : Value := .number (decimal n)

/-- The number of the digits. -/
def ofDigits (digits : List Char) : Option Int :=
  if digits ≠ [] ∧ digits.all Char.isDigit then
    some (digits.foldl (fun n c => n * 10 + (c.toNat - '0'.toNat)) 0)
  else none

/-- The value of a whole number that is written without fraction and exponent. -/
def Value.int? : Value → Option Int
  | number ('-' :: digits) => (ofDigits digits).map fun n => -n
  | number digits => ofDigits digits
  | _ => none

mutual

/-- `JSON.stringify`. -/
def print : Value → List Char
  | .null => "null".toList
  | .bool true => "true".toList
  | .bool false => "false".toList
  | .number written => written
  | .string text => printText text
  | .array [] => "[]".toList
  | .array (item :: items) => '[' :: print item ++ printItems items
  | .object [] => ['{', '}']
  | .object ((name, value) :: members) =>
    '{' :: printText name ++ ':' :: print value ++ printMembers members

/-- The other items of an array. -/
def printItems : List Value → List Char
  | [] => "]".toList
  | item :: items => ',' :: print item ++ printItems items

/-- The other members of an object. -/
def printMembers : List (String × Value) → List Char
  | [] => ['}']
  | (name, value) :: members =>
    ',' :: printText name ++ ':' :: print value ++ printMembers members

end

/-! ### Steps -/

section Steps

variable (stack : List Frame) (isName : Bool) (read : List Nat) (c : Char)

theorem step_value (first : Bool) : step ⟨stack, .value first⟩ c =
    if isWhitespace c then some ⟨stack, .value first⟩
    else if first ∧ c = ']' then
      (close c stack).map fun closed => ⟨closed.1, .after closed.2⟩
    else stepValue stack c := rfl

theorem step_name (first : Bool) : step ⟨stack, .name first⟩ c =
    if isWhitespace c then some ⟨stack, .name first⟩
    else if c = '"' then some ⟨stack, .text true []⟩
    else if first ∧ c = '}' then
      (close c stack).map fun closed => ⟨closed.1, .after closed.2⟩
    else none := rfl

theorem step_colon : step ⟨stack, .colon⟩ c =
    if isWhitespace c then some ⟨stack, .colon⟩
    else if c = ':' then some ⟨stack, .value false⟩ else none := rfl

theorem step_after (value : Value) : step ⟨stack, .after value⟩ c = stepAfter stack value c := rfl

theorem step_text : step ⟨stack, .text isName read⟩ c =
    if c = '"' then closeText stack isName (String.ofList (ofUnits read))
    else if c = '\\' then some ⟨stack, .escape isName read⟩
    else if c.toNat < 0x20 then none
    else some ⟨stack, .text isName (read ++ units c)⟩ := rfl

theorem step_escape : step ⟨stack, .escape isName read⟩ c =
    if c = 'u' then some ⟨stack, .hex isName read 4 0⟩
    else (shortEscape c).map fun unit => ⟨stack, .text isName (read ++ [unit])⟩ := rfl

theorem step_hex (digits unit : Nat) : step ⟨stack, .hex isName read digits unit⟩ c =
    (hexValue c).map fun digit =>
      if digits ≤ 1 then ⟨stack, .text isName (read ++ [unit * 16 + digit])⟩
      else ⟨stack, .hex isName read (digits - 1) (unit * 16 + digit)⟩ := rfl

theorem step_number (phase : NumberPhase) (written : List Char) :
    step ⟨stack, .number phase written⟩ c = (match phase.next c with
      | some phase => some ⟨stack, .number phase (written ++ [c])⟩
      | none => if phase.complete then stepAfter stack (.number written) c else none) := rfl

end Steps

/-! ### Texts -/

theorem ofUnits_append (c : Char) (rest : List Nat) :
    ofUnits (units c ++ rest) = c :: ofUnits rest := by
  have hvalid : c.toNat < 0xD800 ∨ 0xDFFF < c.toNat ∧ c.toNat < 0x110000 := c.valid
  have hofNat : Char.ofNat c.toNat = c := Char.ofNat_toNat c
  unfold units
  split
  · have hunit : ofUnit c.toNat = c := by
      rw [ofUnit, if_neg (by omega), hofNat]
    cases rest with
    | nil =>
      rw [List.append_nil]
      exact congrArg (fun d => [d]) hunit
    | cons second rest =>
      rw [List.cons_append, List.nil_append, ofUnits, if_neg (by omega), hunit]
  · -- The two halves give the number of the character back.
    have hnumber : 0x10000 + (0xD800 + (c.toNat - 0x10000) / 0x400 - 0xD800) * 0x400 +
        (0xDC00 + (c.toNat - 0x10000) % 0x400 - 0xDC00) = c.toNat := by
      omega
    rw [List.cons_append, List.cons_append, List.nil_append, ofUnits, if_pos (by omega), hnumber,
      hofNat]

theorem ofUnits_flatMap (text : List Char) : ofUnits (text.flatMap units) = text := by
  induction text with
  | nil => rfl
  | cons c text ih => rw [List.flatMap_cons, ofUnits_append, ih]

theorem run_append (a b : List Char) (reader : Reader) :
    run (a ++ b) reader = (run a reader).bind (run b) := by
  induction a generalizing reader with
  | nil => rfl
  | cons c a ih =>
    rw [List.cons_append, run, run]
    cases step reader c with
    | none => rfl
    | some next => exact ih next

theorem hexValue_hexDigit : ∀ n, n < 16 → hexValue (hexDigit n) = some n := by decide

theorem run_printChar (c : Char) (stack : List Frame) (isName : Bool) (read : List Nat) :
    run (printChar c) ⟨stack, .text isName read⟩ =
      some ⟨stack, .text isName (read ++ units c)⟩ := by
  have hunits : c.toNat ≤ 0xFFFF → units c = [c.toNat] := fun h => if_pos h
  unfold printChar
  split
  · rename_i h
    subst h
    rfl
  split
  · rename_i h
    subst h
    rfl
  split
  · rename_i h
    rw [hunits (by omega), h]
    rfl
  split
  · rename_i h
    rw [hunits (by omega), h]
    rfl
  split
  · rename_i h
    rw [hunits (by omega), h]
    rfl
  split
  · rename_i h
    rw [hunits (by omega), h]
    rfl
  split
  · rename_i h
    rw [hunits (by omega), h]
    rfl
  split
  · -- A control character is an escape with two zeros and its two digits.
    rename_i h
    have hescape : run "\\u00".toList ⟨stack, .text isName read⟩ =
        some ⟨stack, .hex isName read 2 0⟩ := rfl
    have hdigit : ∀ n, n < 16 → ∀ digits unit,
        step ⟨stack, .hex isName read digits unit⟩ (hexDigit n) =
          some (if digits ≤ 1 then ⟨stack, .text isName (read ++ [unit * 16 + n])⟩
          else ⟨stack, .hex isName read (digits - 1) (unit * 16 + n)⟩) := by
      intro n hn digits unit
      rw [step_hex, hexValue_hexDigit n hn, Option.map_some]
    rw [run_append, hescape, Option.bind_some, run, hdigit _ (by omega), if_neg (by omega),
      Option.bind_some, run, hdigit _ (by omega), if_pos (by omega), Option.bind_some, run,
      hunits (by omega)]
    have hvalue : (0 * 16 + c.toNat / 16) * 16 + c.toNat % 16 = c.toNat := by omega
    rw [hvalue]
  · rename_i hquote hbackslash h8 h12 h10 h13 h9 hcontrol
    rw [run, step_text, if_neg hquote, if_neg hbackslash, if_neg hcontrol]
    rfl

theorem run_flatMap_printChar (text : List Char) (stack : List Frame) (isName : Bool)
    (read : List Nat) :
    run (text.flatMap printChar) ⟨stack, .text isName read⟩ =
      some ⟨stack, .text isName (read ++ text.flatMap units)⟩ := by
  induction text generalizing read with
  | nil => rw [List.flatMap_nil, List.flatMap_nil, List.append_nil, run]
  | cons c text ih =>
    rw [List.flatMap_cons, run_append, run_printChar, Option.bind_some, ih, List.flatMap_cons,
      List.append_assoc]

theorem run_printText (text : String) {stack : List Frame} {mode : Mode} {isName : Bool}
    (hopen : step ⟨stack, mode⟩ '"' = some ⟨stack, .text isName []⟩) :
    run (printText text) ⟨stack, mode⟩ = closeText stack isName text := by
  rw [printText, List.cons_append, run, hopen, Option.bind_some, run_append, run_flatMap_printChar,
    Option.bind_some, run, step_text, if_pos rfl, List.nil_append, ofUnits_flatMap,
    String.ofList_toList]
  cases closeText stack isName text with
  | none => rfl
  | some reader => rfl

/-! ### Values -/

/-- The reader has the whole value. Only what follows shows where a number ends. -/
def Behind (value : Value) (stack : List Frame) (reader : Reader) : Prop :=
  reader = ⟨stack, .after value⟩ ∨ ∃ phase written, phase.complete = true ∧
    value = .number written ∧ reader = ⟨stack, .number phase written⟩

theorem step_behind {value : Value} {stack : List Frame} {reader : Reader}
    (h : Behind value stack reader) {c : Char} (hc : c = ',' ∨ c = ']' ∨ c = '}') :
    step reader c = stepAfter stack value c := by
  rcases h with rfl | ⟨phase, written, hcomplete, rfl, rfl⟩
  · rfl
  · have hnext : phase.next c = none := by
      rcases hc with rfl | rfl | rfl <;> cases phase <;> decide
    rw [step_number, hnext]
    exact if_pos hcomplete

/-- The characters are one number. -/
def IsNumber (written : List Char) : Prop :=
  '\n' ∉ written ∧ ∀ stack first, ∃ phase : NumberPhase, phase.complete = true ∧
    run written ⟨stack, .value first⟩ = some ⟨stack, .number phase written⟩

mutual

/-- The numbers of the value are numbers. -/
def Printable : Value → Prop
  | .number written => IsNumber written
  | .array items => PrintableItems items
  | .object members => PrintableMembers members
  | _ => True

def PrintableItems : List Value → Prop
  | [] => True
  | item :: items => Printable item ∧ PrintableItems items

def PrintableMembers : List (String × Value) → Prop
  | [] => True
  | (_, value) :: members => Printable value ∧ PrintableMembers members

end

/-! ### Whole numbers -/

theorem hexDigit_facts : ∀ d, d < 10 → (hexDigit d).isDigit = true ∧
    (hexDigit d).toNat = 48 + d ∧ hexDigit d ≠ '-' ∧ hexDigit d ≠ '\n' := by
  decide

theorem decimalDigits_succ {fuel n : Nat} (h : 10 ≤ n) :
    decimalDigits (fuel + 1) n = decimalDigits fuel (n / 10) ++ [hexDigit (n % 10)] :=
  if_neg (by omega)

theorem decimalDigits_of_lt {fuel n : Nat} (h : n < 10) :
    decimalDigits (fuel + 1) n = [hexDigit n] :=
  if_pos h

theorem mem_decimalDigits {fuel n : Nat} {c : Char} (h : c ∈ decimalDigits fuel n) :
    c.isDigit = true ∧ c ≠ '-' ∧ c ≠ '\n' := by
  induction fuel generalizing n with
  | zero => cases h
  | succ fuel ih =>
    by_cases hn : n < 10
    · rw [decimalDigits_of_lt hn, List.mem_singleton] at h
      obtain ⟨hdigit, -, hsign, hbreak⟩ := hexDigit_facts n hn
      rw [h]
      exact ⟨hdigit, hsign, hbreak⟩
    · rw [decimalDigits_succ (by omega), List.mem_append, List.mem_singleton] at h
      rcases h with hfront | hlast
      · exact ih hfront
      · obtain ⟨hdigit, -, hsign, hbreak⟩ := hexDigit_facts (n % 10) (by omega)
        rw [hlast]
        exact ⟨hdigit, hsign, hbreak⟩

theorem run_decimalDigits {stack : List Frame} {start : Reader} {front : List Char}
    (hstart : ∀ d, 0 < d → d < 10 →
      step start (hexDigit d) = some ⟨stack, .number .whole (front ++ [hexDigit d])⟩)
    {fuel n : Nat} (hpos : 0 < n) (hfuel : n < fuel) :
    run (decimalDigits fuel n) start =
      some ⟨stack, .number .whole (front ++ decimalDigits fuel n)⟩ := by
  induction fuel generalizing n with
  | zero => omega
  | succ fuel ih =>
    by_cases hn : n < 10
    · rw [decimalDigits_of_lt hn, run, hstart n hpos hn]
      rfl
    · have hnext : NumberPhase.next .whole (hexDigit (n % 10)) = some .whole :=
        if_pos (hexDigit_facts (n % 10) (by omega)).1
      rw [decimalDigits_succ (by omega), run_append, ih (by omega) (by omega), Option.bind_some,
        run, step_number, hnext, List.append_assoc]
      rfl

theorem isNumber_decimal (n : Int) : IsNumber (decimal n) := by
  constructor
  · intro hmem
    unfold decimal at hmem
    dsimp only at hmem
    split at hmem
    · rcases List.mem_cons.mp hmem with heq | hdigits
      · revert heq
        decide
      · exact (mem_decimalDigits hdigits).2.2 rfl
    · exact (mem_decimalDigits hmem).2.2 rfl
  · intro stack first
    have hvalue : ∀ d, 0 < d → d < 10 → step ⟨stack, .value first⟩ (hexDigit d) =
        some ⟨stack, .number .whole ([] ++ [hexDigit d])⟩ := by
      intro d hpos hlt
      interval_cases d <;> cases first <;> rfl
    have hsigned : ∀ d, 0 < d → d < 10 → step ⟨stack, .number .sign ['-']⟩ (hexDigit d) =
        some ⟨stack, .number .whole (['-'] ++ [hexDigit d])⟩ := by
      intro d hpos hlt
      interval_cases d <;> rfl
    have hsign : step ⟨stack, .value first⟩ '-' = some ⟨stack, .number .sign ['-']⟩ := by
      cases first <;> rfl
    unfold decimal
    dsimp only
    split
    · refine ⟨.whole, rfl, ?_⟩
      rw [run, hsign, Option.bind_some]
      exact run_decimalDigits hsigned (by omega) (by omega)
    · by_cases hzero : n = 0
      · subst hzero
        exact ⟨.zero, rfl, by cases first <;> rfl⟩
      · exact ⟨.whole, rfl, run_decimalDigits hvalue (by omega) (by omega)⟩

theorem foldl_decimalDigits {fuel n : Nat} (hfuel : n < fuel) :
    (decimalDigits fuel n).foldl (fun (m : Int) c => m * 10 + (c.toNat - '0'.toNat)) 0 = n := by
  have hzero : ('0'.toNat : Int) = 48 := rfl
  induction fuel generalizing n with
  | zero => omega
  | succ fuel ih =>
    by_cases hn : n < 10
    · have hvalue := (hexDigit_facts n hn).2.1
      rw [decimalDigits_of_lt hn, List.foldl_cons, List.foldl_nil]
      omega
    · have hvalue := (hexDigit_facts (n % 10) (by omega)).2.1
      rw [decimalDigits_succ (by omega), List.foldl_append, ih (by omega), List.foldl_cons,
        List.foldl_nil]
      omega

theorem decimalDigits_ne (fuel n : Nat) : decimalDigits (fuel + 1) n ≠ [] := by
  unfold decimalDigits
  split <;> simp

theorem int?_ofInt (n : Int) : (Value.ofInt n).int? = some n := by
  have hdigits : ofDigits (decimalDigits (n.natAbs + 1) n.natAbs) = some (n.natAbs : Int) := by
    rw [ofDigits, if_pos, foldl_decimalDigits (by omega)]
    exact ⟨decimalDigits_ne _ _,
      List.all_eq_true.mpr fun c hc => (mem_decimalDigits hc).1⟩
  unfold Value.ofInt decimal
  dsimp only
  split
  · rw [Value.int?, hdigits, Option.map_some]
    congr 1
    omega
  · cases hlist : decimalDigits (n.natAbs + 1) n.natAbs with
    | nil => exact absurd hlist (decimalDigits_ne _ _)
    | cons c rest =>
      have hsign : c ≠ '-' := (mem_decimalDigits (hlist ▸ List.mem_cons_self)).2.1
      have hread : (Value.number (c :: rest)).int? = ofDigits (c :: rest) := by
        unfold Value.int?
        split
        · rename_i heq
          cases heq
          exact absurd rfl hsign
        · rename_i heq
          cases heq
          rfl
        · rename_i hother
          exact absurd rfl (hother _)
      rw [hread, ← hlist, hdigits]
      congr 1
      omega

theorem printableItems_iff {items : List Value} :
    PrintableItems items ↔ ∀ item ∈ items, Printable item := by
  induction items with
  | nil => simp [PrintableItems]
  | cons item items ih => simp [PrintableItems, ih]

theorem printableMembers_iff {members : List (String × Value)} :
    PrintableMembers members ↔ ∀ member ∈ members, Printable member.2 := by
  induction members with
  | nil => simp [PrintableMembers]
  | cons member members ih => simp [PrintableMembers, ih]

theorem printable_ofFields {fields : List (String × Option Value)}
    (h : ∀ field ∈ fields, ∀ value ∈ field.2, Printable value) :
    Printable (.ofFields fields) := by
  refine printableMembers_iff.mpr fun member hmember => ?_
  obtain ⟨field, hfield, hvalue⟩ := List.mem_filterMap.mp hmember
  obtain ⟨value, hsome, rfl⟩ := Option.map_eq_some_iff.mp hvalue
  exact h field hfield value hsome

theorem run_name (name : String) {stack : List Frame} {members : List (String × Value)}
    {old : String} (first : Bool) (rest : List Char) :
    run (printText name ++ ':' :: rest) ⟨.object members old :: stack, .name first⟩ =
      run rest ⟨.object members name :: stack, .value false⟩ := by
  have hopen : step ⟨.object members old :: stack, .name first⟩ '"' =
      some ⟨.object members old :: stack, .text true []⟩ := rfl
  rw [run_append, run_printText name hopen]
  rfl

mutual

theorem run_print : (value : Value) → Printable value → (stack : List Frame) → (first : Bool) →
    ∃ reader, run (print value) ⟨stack, .value first⟩ = some reader ∧ Behind value stack reader
  | .null, _, stack, first => ⟨⟨stack, .after .null⟩, by cases first <;> rfl, Or.inl rfl⟩
  | .bool true, _, stack, first =>
    ⟨⟨stack, .after (.bool true)⟩, by cases first <;> rfl, Or.inl rfl⟩
  | .bool false, _, stack, first =>
    ⟨⟨stack, .after (.bool false)⟩, by cases first <;> rfl, Or.inl rfl⟩
  | .number written, h, stack, first => by
    obtain ⟨phase, hcomplete, hrun⟩ := h.2 stack first
    exact ⟨_, hrun, Or.inr ⟨phase, written, hcomplete, rfl, rfl⟩⟩
  | .string text, _, stack, first => by
    have hopen : step ⟨stack, .value first⟩ '"' = some ⟨stack, .text false []⟩ := by
      cases first <;> rfl
    exact ⟨_, run_printText text hopen, Or.inl rfl⟩
  | .array [], _, stack, first =>
    ⟨⟨stack, .after (.array [])⟩, by cases first <;> rfl, Or.inl rfl⟩
  | .array (item :: items), h, stack, first => by
    have hopen : step ⟨stack, .value first⟩ '[' = some ⟨.array [] :: stack, .value true⟩ := by
      cases first <;> rfl
    obtain ⟨reader, hrun, hbehind⟩ := run_print item h.1 (.array [] :: stack) true
    refine ⟨_, ?_, Or.inl rfl⟩
    rw [print, List.cons_append, run, hopen, Option.bind_some, run_append, hrun, Option.bind_some]
    exact run_printItems items h.2 hbehind
  | .object [], _, stack, first =>
    ⟨⟨stack, .after (.object [])⟩, by cases first <;> rfl, Or.inl rfl⟩
  | .object ((name, value) :: members), h, stack, first => by
    have hopen : step ⟨stack, .value first⟩ '{' = some ⟨.object [] "" :: stack, .name true⟩ := by
      cases first <;> rfl
    obtain ⟨reader, hrun, hbehind⟩ := run_print value h.1 (.object [] name :: stack) false
    refine ⟨_, ?_, Or.inl rfl⟩
    rw [print, List.cons_append, List.cons_append, List.append_assoc, List.cons_append, run, hopen,
      Option.bind_some, run_name, run_append, hrun, Option.bind_some]
    exact run_printMembers members h.2 hbehind

theorem run_printItems : (items : List Value) → PrintableItems items → {stack : List Frame} →
    {done : List Value} → {item : Value} → {reader : Reader} →
    Behind item (.array done :: stack) reader →
    run (printItems items) reader = some ⟨stack, .after (.array (done ++ item :: items))⟩
  | [], _, stack, done, item, reader, hbehind => by
    have hclose := step_behind hbehind (Or.inr (Or.inl rfl))
    rw [printItems]
    exact congrArg (Option.bind · (run [])) hclose
  | next :: items, h, stack, done, item, reader, hbehind => by
    have hcomma : step reader ',' = some ⟨.array (done ++ [item]) :: stack, .value false⟩ :=
      step_behind hbehind (Or.inl rfl)
    obtain ⟨reader', hrun, hbehind'⟩ := run_print next h.1 (.array (done ++ [item]) :: stack) false
    rw [printItems, List.cons_append, run, hcomma, Option.bind_some, run_append, hrun,
      Option.bind_some, run_printItems items h.2 hbehind', List.append_assoc]
    rfl

theorem run_printMembers : (members : List (String × Value)) → PrintableMembers members →
    {stack : List Frame} → {done : List (String × Value)} → {name : String} → {value : Value} →
    {reader : Reader} → Behind value (.object done name :: stack) reader →
    run (printMembers members) reader =
      some ⟨stack, .after (.object (done ++ (name, value) :: members))⟩
  | [], _, stack, done, name, value, reader, hbehind => by
    have hclose := step_behind hbehind (Or.inr (Or.inr rfl))
    rw [printMembers]
    exact congrArg (Option.bind · (run [])) hclose
  | (next, following) :: members, h, stack, done, name, value, reader, hbehind => by
    have hcomma : step reader ',' =
        some ⟨.object (done ++ [(name, value)]) name :: stack, .name false⟩ :=
      step_behind hbehind (Or.inl rfl)
    obtain ⟨reader', hrun, hbehind'⟩ :=
      run_print following h.1 (.object (done ++ [(name, value)]) next :: stack) false
    rw [printMembers, List.cons_append, List.cons_append, List.append_assoc, List.cons_append, run,
      hcomma, Option.bind_some, run_name, run_append, hrun, Option.bind_some,
      run_printMembers members h.2 hbehind', List.append_assoc]
    rfl

end

/-! ### Whole texts -/

theorem finish_behind {value : Value} {reader : Reader} (h : Behind value [] reader) :
    finish reader = some value := by
  rcases h with rfl | ⟨phase, written, hcomplete, rfl, rfl⟩
  · rfl
  · exact if_pos hcomplete

theorem finish_open {value : Value} {frame : Frame} {stack : List Frame} {reader : Reader}
    (h : Behind value (frame :: stack) reader) : finish reader = none := by
  rcases h with rfl | ⟨phase, written, -, -, rfl⟩
  · rfl
  · rfl

theorem run_whitespace {text : List Char} (h : ∀ c ∈ text, isWhitespace c = true)
    (stack : List Frame) (first : Bool) :
    run text ⟨stack, .value first⟩ = some ⟨stack, .value first⟩ := by
  induction text with
  | nil => rfl
  | cons c text ih =>
    rw [run, step_value, if_pos (h c List.mem_cons_self)]
    exact ih fun d hd => h d (List.mem_cons_of_mem _ hd)

theorem parse_append {text : List Char} (htext : ∀ c ∈ text, isWhitespace c = true)
    {value : Value} (h : Printable value) : parse (text ++ print value) = some value := by
  obtain ⟨reader, hrun, hbehind⟩ := run_print value h [] false
  rw [parse, run_append, run_whitespace htext, Option.bind_some, hrun]
  exact finish_behind hbehind

theorem parse_print {value : Value} (h : Printable value) : parse (print value) = some value :=
  parse_append (fun _ hc => absurd hc List.not_mem_nil) h

theorem parse_print_break {members : List (String × Value)} (h : Printable (.object members)) :
    parse (print (.object members) ++ ['\n']) = some (.object members) := by
  obtain ⟨reader, hrun, hbehind⟩ := run_print (.object members) h [] false
  have hreader : reader = ⟨[], .after (.object members)⟩ := by
    rcases hbehind with rfl | ⟨_, _, _, hvalue, _⟩
    · rfl
    · exact Value.noConfusion hvalue
  rw [parse, run_append, hrun, Option.bind_some, hreader]
  rfl

/-- The reader is inside of a value or behind one. -/
def Started (reader : Reader) : Prop :=
  match reader.mode with
  | .value _ | .name _ | .colon => reader.stack ≠ []
  | .literal rest _ => '{' ∉ rest
  | _ => True

theorem started_stepAfter {stack : List Frame} {value : Value} {c : Char} {reader : Reader}
    (h : stepAfter stack value c = some reader) : Started reader := by
  unfold stepAfter at h
  split at h
  · cases h
    trivial
  rcases stack with _ | ⟨items | ⟨members, name⟩, stack⟩
  · cases h
  -- A comma leaves the array or object open.
  all_goals
    dsimp only at h
    split at h
    · cases h
      exact List.cons_ne_nil _ _
    split at h
    · cases h
      trivial
    · cases h

theorem started_stepValue {stack : List Frame} {c : Char} {reader : Reader}
    (h : stepValue stack c = some reader) : Started reader := by
  unfold stepValue at h
  split at h
  · cases h
    exact List.cons_ne_nil _ _
  split at h
  · cases h
    exact List.cons_ne_nil _ _
  split at h
  · cases h
    trivial
  split at h
  · cases h
    change '{' ∉ "ull".toList
    decide
  split at h
  · cases h
    change '{' ∉ "rue".toList
    decide
  split at h
  · cases h
    change '{' ∉ "alse".toList
    decide
  split at h
  · cases h
    trivial
  · obtain ⟨phase, -, rfl⟩ := Option.map_eq_some_iff.mp h
    trivial

theorem started_step {reader next : Reader} {c : Char} (hstarted : Started reader)
    (h : step reader c = some next) : Started next := by
  obtain ⟨stack, mode⟩ := reader
  cases mode with
  | value first =>
    rw [step_value] at h
    split at h
    · cases h
      exact hstarted
    split at h
    · obtain ⟨closed, -, rfl⟩ := Option.map_eq_some_iff.mp h
      trivial
    · exact started_stepValue h
  | name first =>
    rw [step_name] at h
    split at h
    · cases h
      exact hstarted
    split at h
    · cases h
      trivial
    split at h
    · obtain ⟨closed, -, rfl⟩ := Option.map_eq_some_iff.mp h
      trivial
    · cases h
  | colon =>
    rw [step_colon] at h
    split at h
    · cases h
      exact hstarted
    split at h
    · cases h
      exact hstarted
    · cases h
  | after value => exact started_stepAfter h
  | text isName read =>
    rw [step_text] at h
    split at h
    · unfold closeText at h
      split at h
      · split at h
        · cases h
          exact List.cons_ne_nil _ _
        · cases h
      · cases h
        trivial
    split at h
    · cases h
      trivial
    split at h
    · cases h
    · cases h
      trivial
  | escape isName read =>
    rw [step_escape] at h
    split at h
    · cases h
      trivial
    · obtain ⟨unit, -, rfl⟩ := Option.map_eq_some_iff.mp h
      trivial
  | hex isName read digits unit =>
    rw [step_hex] at h
    obtain ⟨digit, -, hnext⟩ := Option.map_eq_some_iff.mp h
    split at hnext
    · cases hnext
      trivial
    · cases hnext
      trivial
  | literal rest value =>
    cases rest with
    | nil => exact started_stepAfter h
    | cons d rest =>
      change (if c = d then some (Reader.mk stack
        (if rest = [] then .after value else .literal rest value)) else none) = some next at h
      split at h
      · cases h
        split
        · trivial
        · exact fun hmem => hstarted (List.mem_cons_of_mem _ hmem)
      · cases h
  | number phase written =>
    rw [step_number] at h
    split at h
    · cases h
      trivial
    split at h
    · exact started_stepAfter h
    · cases h

theorem started_of_run {text : List Char} {reader : Reader}
    (h : run text ⟨[], .value false⟩ = some reader) :
    (∀ c ∈ text, isWhitespace c = true) ∨ Started reader := by
  have hkept : ∀ (text : List Char) (reader next : Reader), Started reader →
      run text reader = some next → Started next := by
    intro text
    induction text with
    | nil =>
      intro reader next hstarted hrun
      cases hrun
      exact hstarted
    | cons c text ih =>
      intro reader next hstarted hrun
      obtain ⟨behind, hstep, hrest⟩ := Option.bind_eq_some_iff.mp hrun
      exact ih behind next (started_step hstarted hstep) hrest
  induction text with
  | nil => exact Or.inl (by simp)
  | cons c text ih =>
    obtain ⟨behind, hstep, hrest⟩ := Option.bind_eq_some_iff.mp h
    rw [step_value] at hstep
    split at hstep
    · rename_i hblank
      cases hstep
      refine (ih hrest).imp_left fun hall d hd => ?_
      rcases List.mem_cons.mp hd with rfl | htail
      · exact hblank
      · exact hall d htail
    · rw [if_neg (by simp)] at hstep
      exact Or.inr (hkept text behind reader (started_stepValue hstep) hrest)

theorem stepAfter_brace (stack : List Frame) (value : Value) :
    stepAfter stack value '{' = none := by
  rcases stack with _ | ⟨items | ⟨members, name⟩, stack⟩ <;> rfl

/-- The character stands for itself in a text, and may not stand behind one. -/
def IsPlainStart (c : Char) : Prop :=
  printChar c = [c] ∧ isWhitespace c = false ∧ c ∉ [':', ',', ']', '}']

instance (c : Char) : Decidable (IsPlainStart c) := by
  unfold IsPlainStart
  infer_instance

theorem stepAfter_plainStart {c : Char} (hc : IsPlainStart c) (stack : List Frame) (value : Value) :
    stepAfter stack value c = none := by
  obtain ⟨-, hspace, hplain⟩ := hc
  simp only [List.mem_cons, List.not_mem_nil, or_false, not_or] at hplain
  obtain ⟨-, hcomma, hbracket, hbrace⟩ := hplain
  unfold stepAfter
  rw [if_neg (by simp [hspace])]
  rcases stack with _ | ⟨items | ⟨members, name⟩, stack⟩
  · rfl
  · dsimp only
    rw [if_neg hcomma, if_neg hbracket]
  · dsimp only
    rw [if_neg hcomma, if_neg hbrace]

theorem print_object_eq {name : String} {c : Char} {tail : List Char}
    (hname : name.toList = c :: tail) (hc : IsPlainStart c) (value : Value)
    (members : List (String × Value)) :
    ∃ rest, print (.object ((name, value) :: members)) = '{' :: '"' :: c :: rest := by
  rw [print, printText, hname, List.flatMap_cons, hc.1]
  exact ⟨_, rfl⟩

/-- A printed object is not the rest of a value that has started: where a value is expected, the
array or object around it stays open; in a text, its first quote ends the text; everywhere else
its brace is wrong. -/
theorem finish_run_object {reader : Reader} (hstarted : Started reader) {name : String}
    {value : Value} {members : List (String × Value)} {c : Char} {tail : List Char}
    (hname : name.toList = c :: tail) (hc : IsPlainStart c)
    (h : Printable (.object ((name, value) :: members))) :
    (run (print (.object ((name, value) :: members))) reader).bind finish = none := by
  obtain ⟨stack, mode⟩ := reader
  obtain ⟨rest, hprint⟩ := print_object_eq hname hc value members
  have hbrace : step ⟨stack, mode⟩ '{' = none →
      (run (print (.object ((name, value) :: members))) ⟨stack, mode⟩).bind finish = none := by
    intro hstep
    rw [hprint, run, hstep]
    rfl
  cases mode with
  | value first =>
    cases stack with
    | nil => exact absurd rfl hstarted
    | cons frame stack =>
      obtain ⟨reader, hrun, hbehind⟩ := run_print _ h (frame :: stack) first
      rw [hrun]
      exact finish_open hbehind
  | text isName read =>
    have hopen : step ⟨stack, .text isName read⟩ '{' =
        some ⟨stack, .text isName (read ++ units '{')⟩ := rfl
    rw [hprint, run, hopen, Option.bind_some, run, step_text, if_pos rfl]
    unfold closeText
    cases isName with
    | true =>
      rcases stack with _ | ⟨items | ⟨done, old⟩, stack⟩
      · rfl
      · rfl
      · have hcolon : step ⟨.object done (String.ofList (ofUnits (read ++ units '{'))) :: stack,
            .colon⟩ c = none := by
          have hc' : c ≠ ':' := fun heq => hc.2.2 (heq ▸ List.mem_cons_self)
          rw [step_colon, if_neg (by simp [hc.2.1]), if_neg hc']
        rw [if_pos rfl]
        dsimp only
        rw [Option.bind_some, run, hcolon]
        rfl
    | false =>
      rw [if_neg (by simp), Option.bind_some, run, step_after, stepAfter_plainStart hc]
      rfl
  | name first => exact hbrace (by cases first <;> rfl)
  | colon => exact hbrace rfl
  | after value => exact hbrace (stepAfter_brace stack value)
  | escape isName read => exact hbrace rfl
  | hex isName read digits unit => exact hbrace rfl
  | literal rest value =>
    refine hbrace ?_
    cases rest with
    | nil => exact stepAfter_brace stack value
    | cons d rest => exact if_neg fun heq : '{' = d => hstarted (heq ▸ List.mem_cons_self)
  | number phase written =>
    have hnext : phase.next '{' = none := by cases phase <;> decide
    refine hbrace ?_
    rw [step_number, hnext]
    dsimp only
    rw [stepAfter_brace, ite_self]

theorem parse_append_eq_none {text : List Char} (htext : ∃ c ∈ text, isWhitespace c = false)
    {name : String} {value : Value} {members : List (String × Value)} {c : Char}
    {tail : List Char} (hname : name.toList = c :: tail) (hc : IsPlainStart c)
    (h : Printable (.object ((name, value) :: members))) :
    parse (text ++ print (.object ((name, value) :: members))) = none := by
  rw [parse, run_append]
  cases hrun : run text ⟨[], .value false⟩ with
  | none => rfl
  | some reader =>
    rw [Option.bind_some]
    refine finish_run_object ((started_of_run hrun).resolve_left fun hall => ?_) hname hc h
    obtain ⟨d, hd, hblank⟩ := htext
    rw [hall d hd] at hblank
    cases hblank

/-! ### Lines -/

theorem break_notMem_printText (text : String) : '\n' ∉ printText text := by
  have hhex : ∀ n, n < 16 → '\n' ≠ hexDigit n := by decide
  have hchar : ∀ c, '\n' ∉ printChar c := by
    intro c hmem
    unfold printChar at hmem
    split at hmem
    · revert hmem
      decide
    split at hmem
    · revert hmem
      decide
    split at hmem
    · revert hmem
      decide
    split at hmem
    · revert hmem
      decide
    split at hmem
    · revert hmem
      decide
    split at hmem
    · revert hmem
      decide
    split at hmem
    · revert hmem
      decide
    split at hmem
    · simp only [List.mem_append, List.mem_cons, List.not_mem_nil, or_false] at hmem
      rcases hmem with hfront | hfirst | hsecond
      · revert hfront
        decide
      · exact hhex _ (by omega) hfirst
      · exact hhex _ (by omega) hsecond
    · -- The line break itself is a short escape.
      rename_i h10 _ _ _
      exact h10 (by rw [← List.mem_singleton.mp hmem]; rfl)
  have hquote : '\n' ≠ '"' := by decide
  simp only [printText, List.cons_append, List.mem_cons, List.mem_append, List.mem_flatMap,
    List.not_mem_nil, or_false, hquote, false_or]
  rintro ⟨c, -, hmem⟩
  exact hchar c hmem

mutual

theorem break_notMem_print : (value : Value) → Printable value → '\n' ∉ print value
  | .null, _ => by decide
  | .bool true, _ => by decide
  | .bool false, _ => by decide
  | .number _, h => h.1
  | .string text, _ => break_notMem_printText text
  | .array [], _ => by decide
  | .array (item :: items), h => by
    have hitem := break_notMem_print item h.1
    have hitems := break_notMem_printItems items h.2
    simp only [print, List.mem_append, List.mem_cons, not_or]
    exact ⟨⟨by decide, hitem⟩, hitems⟩
  | .object [], _ => by decide
  | .object ((name, value) :: members), h => by
    have hname := break_notMem_printText name
    have hvalue := break_notMem_print value h.1
    have hmembers := break_notMem_printMembers members h.2
    simp only [print, List.mem_append, List.mem_cons, not_or]
    exact ⟨⟨⟨by decide, hname⟩, by decide, hvalue⟩, hmembers⟩

theorem break_notMem_printItems : (items : List Value) → PrintableItems items →
    '\n' ∉ printItems items
  | [], _ => by decide
  | item :: items, h => by
    have hitem := break_notMem_print item h.1
    have hitems := break_notMem_printItems items h.2
    simp only [printItems, List.mem_append, List.mem_cons, not_or]
    exact ⟨⟨by decide, hitem⟩, hitems⟩

theorem break_notMem_printMembers : (members : List (String × Value)) →
    PrintableMembers members → '\n' ∉ printMembers members
  | [], _ => by decide
  | (name, value) :: members, h => by
    have hname := break_notMem_printText name
    have hvalue := break_notMem_print value h.1
    have hmembers := break_notMem_printMembers members h.2
    simp only [printMembers, List.mem_append, List.mem_cons, not_or]
    exact ⟨⟨⟨by decide, hname⟩, by decide, hvalue⟩, hmembers⟩

end

end ArchLoop.Lib.JsonText
