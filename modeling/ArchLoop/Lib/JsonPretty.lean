import ArchLoop.Lib.JsonText

/-!
# `ArchLoop.Lib.JsonPretty`: values as `JSON.stringify(value, null, 2)` prints them

Each item and each member stands on a line of its own, two blanks further to the right than what it
belongs to. `parse_pretty` says that such a text is read as the value that it prints, and so is the
text with the line break at its end that the stores write.
-/

set_option autoImplicit false

namespace ArchLoop.Lib.JsonText

/-- A new line, with the blanks at its start. -/
def newLine (indent : Nat) : List Char := '\n' :: List.replicate indent ' '

mutual

/-- `JSON.stringify(value, null, 2)`, of a value that stands at an indentation. -/
def pretty (indent : Nat) : Value → List Char
  | .null => "null".toList
  | .bool true => "true".toList
  | .bool false => "false".toList
  | .number written => written
  | .string text => printText text
  | .array [] => "[]".toList
  | .array (item :: items) =>
    '[' :: newLine (indent + 2) ++ pretty (indent + 2) item ++ prettyItems indent items
  | .object [] => ['{', '}']
  | .object ((name, value) :: members) =>
    '{' :: newLine (indent + 2) ++ printText name ++ ": ".toList ++ pretty (indent + 2) value ++
      prettyMembers indent members

/-- The other items of an array. -/
def prettyItems (indent : Nat) : List Value → List Char
  | [] => newLine indent ++ [']']
  | item :: items =>
    ',' :: newLine (indent + 2) ++ pretty (indent + 2) item ++ prettyItems indent items

/-- The other members of an object. -/
def prettyMembers (indent : Nat) : List (String × Value) → List Char
  | [] => newLine indent ++ ['}']
  | (name, value) :: members =>
    ',' :: newLine (indent + 2) ++ printText name ++ ": ".toList ++ pretty (indent + 2) value ++
      prettyMembers indent members

end

/-! ### Reading -/

theorem isWhitespace_newLine (indent : Nat) : ∀ c ∈ newLine indent, isWhitespace c = true := by
  intro c hc
  rcases List.mem_cons.mp hc with rfl | hc
  · rfl
  · rw [List.eq_of_mem_replicate hc]
    rfl

theorem run_blanks_name {text : List Char} (h : ∀ c ∈ text, isWhitespace c = true)
    (stack : List Frame) (first : Bool) :
    run text ⟨stack, .name first⟩ = some ⟨stack, .name first⟩ := by
  induction text with
  | nil => rfl
  | cons c text ih =>
    rw [run, step_name, if_pos (h c List.mem_cons_self)]
    exact ih fun d hd => h d (List.mem_cons_of_mem _ hd)

theorem run_newLine_behind {value : Value} {stack : List Frame} {reader : Reader}
    (h : Behind value stack reader) (indent : Nat) :
    run (newLine indent) reader = some ⟨stack, .after value⟩ := by
  have hbreak : step reader '\n' = some ⟨stack, .after value⟩ := by
    rcases h with rfl | ⟨phase, written, hcomplete, rfl, rfl⟩
    · rfl
    · have hnext : phase.next '\n' = none := by
        cases phase <;> decide
      rw [step_number, hnext]
      exact if_pos hcomplete
  have hblanks : ∀ n, run (List.replicate n ' ') ⟨stack, .after value⟩ =
      some ⟨stack, .after value⟩ := by
    intro n
    induction n with
    | zero => rfl
    | succ n ih =>
      rw [List.replicate_succ, run]
      exact ih
  unfold newLine
  rw [run, hbreak]
  exact hblanks indent

theorem run_prettyName (name : String) {stack : List Frame} {members : List (String × Value)}
    {other : String} {first : Bool} (indent : Nat) (rest : List Char) :
    run (newLine indent ++ printText name ++ ": ".toList ++ rest)
        ⟨.object members other :: stack, .name first⟩ =
      run rest ⟨.object members name :: stack, .value false⟩ := by
  have hname : run (printText name) ⟨.object members other :: stack, .name first⟩ =
      some ⟨.object members name :: stack, .colon⟩ := by
    have hopen : step ⟨.object members other :: stack, .name first⟩ '"' =
        some ⟨.object members other :: stack, .text true []⟩ := by
      cases first <;> rfl
    exact run_printText name hopen
  rw [List.append_assoc, List.append_assoc, run_append,
    run_blanks_name (isWhitespace_newLine indent), Option.bind_some, run_append, hname,
    Option.bind_some]
  rfl

mutual

theorem run_pretty (indent : Nat) : (value : Value) → Printable value → (stack : List Frame) →
    (first : Bool) → ∃ reader, run (pretty indent value) ⟨stack, .value first⟩ = some reader ∧
      Behind value stack reader
  | .null, _, stack, first => ⟨⟨stack, .after .null⟩, by cases first <;> rfl, Or.inl rfl⟩
  | .bool true, _, stack, first =>
    ⟨⟨stack, .after (.bool true)⟩, by cases first <;> rfl, Or.inl rfl⟩
  | .bool false, _, stack, first =>
    ⟨⟨stack, .after (.bool false)⟩, by cases first <;> rfl, Or.inl rfl⟩
  | .number written, h, stack, first => by
    obtain ⟨phase, hcomplete, hrun⟩ := h.2 stack first
    exact ⟨_, hrun, Or.inr ⟨phase, written, hcomplete, rfl, rfl⟩⟩
  | .string text, _, stack, first => by
    have hopen : step ⟨stack, .value first⟩ '"' = some ⟨stack, .text false []⟩ := by
      cases first <;> rfl
    exact ⟨_, run_printText text hopen, Or.inl rfl⟩
  | .array [], _, stack, first =>
    ⟨⟨stack, .after (.array [])⟩, by cases first <;> rfl, Or.inl rfl⟩
  | .array (item :: items), h, stack, first => by
    have hopen : step ⟨stack, .value first⟩ '[' = some ⟨.array [] :: stack, .value true⟩ := by
      cases first <;> rfl
    obtain ⟨reader, hrun, hbehind⟩ := run_pretty (indent + 2) item h.1 (.array [] :: stack) true
    refine ⟨_, ?_, Or.inl rfl⟩
    rw [pretty, List.append_assoc, List.cons_append, run, hopen, Option.bind_some, run_append,
      run_whitespace (isWhitespace_newLine _), Option.bind_some, run_append, hrun,
      Option.bind_some]
    exact run_prettyItems indent items h.2 hbehind
  | .object [], _, stack, first =>
    ⟨⟨stack, .after (.object [])⟩, by cases first <;> rfl, Or.inl rfl⟩
  | .object ((name, value) :: members), h, stack, first => by
    have hopen : step ⟨stack, .value first⟩ '{' = some ⟨.object [] "" :: stack, .name true⟩ := by
      cases first <;> rfl
    obtain ⟨reader, hrun, hbehind⟩ :=
      run_pretty (indent + 2) value h.1 (.object [] name :: stack) false
    refine ⟨_, ?_, Or.inl rfl⟩
    rw [pretty, List.append_assoc, List.cons_append, List.cons_append, List.cons_append, run,
      hopen, Option.bind_some, run_prettyName, run_append, hrun,
      Option.bind_some]
    exact run_prettyMembers indent members h.2 hbehind

theorem run_prettyItems (indent : Nat) : (items : List Value) → PrintableItems items →
    {stack : List Frame} → {done : List Value} → {item : Value} → {reader : Reader} →
    Behind item (.array done :: stack) reader →
    run (prettyItems indent items) reader =
      some ⟨stack, .after (.array (done ++ item :: items))⟩
  | [], _, stack, done, item, reader, hbehind => by
    rw [prettyItems, run_append, run_newLine_behind hbehind]
    rfl
  | next :: items, h, stack, done, item, reader, hbehind => by
    have hcomma : step reader ',' = some ⟨.array (done ++ [item]) :: stack, .value false⟩ :=
      step_behind hbehind (Or.inl rfl)
    obtain ⟨reader', hrun, hbehind'⟩ :=
      run_pretty (indent + 2) next h.1 (.array (done ++ [item]) :: stack) false
    rw [prettyItems, List.append_assoc, List.cons_append, run, hcomma, Option.bind_some,
      run_append, run_whitespace (isWhitespace_newLine _), Option.bind_some, run_append, hrun,
      Option.bind_some, run_prettyItems indent items h.2 hbehind', List.append_assoc]
    rfl

theorem run_prettyMembers (indent : Nat) : (members : List (String × Value)) →
    PrintableMembers members → {stack : List Frame} → {done : List (String × Value)} →
    {name : String} → {value : Value} → {reader : Reader} →
    Behind value (.object done name :: stack) reader →
    run (prettyMembers indent members) reader =
      some ⟨stack, .after (.object (done ++ (name, value) :: members))⟩
  | [], _, stack, done, name, value, reader, hbehind => by
    rw [prettyMembers, run_append, run_newLine_behind hbehind]
    rfl
  | (next, following) :: members, h, stack, done, name, value, reader, hbehind => by
    have hcomma : step reader ',' =
        some ⟨.object (done ++ [(name, value)]) name :: stack, .name false⟩ :=
      step_behind hbehind (Or.inl rfl)
    obtain ⟨reader', hrun, hbehind'⟩ :=
      run_pretty (indent + 2) following h.1 (.object (done ++ [(name, value)]) next :: stack) false
    rw [prettyMembers, List.append_assoc, List.cons_append, List.cons_append, List.cons_append,
      run, hcomma, Option.bind_some, run_prettyName, run_append, hrun,
      Option.bind_some, run_prettyMembers indent members h.2 hbehind', List.append_assoc]
    rfl

end

theorem parse_pretty {value : Value} (h : Printable value) :
    parse (pretty 0 value ++ ['\n']) = some value := by
  obtain ⟨reader, hrun, hbehind⟩ := run_pretty 0 value h [] false
  have hbreak : run ['\n'] reader = some ⟨[], .after value⟩ := run_newLine_behind hbehind 0
  rw [parse, run_append, hrun, Option.bind_some, hbreak]
  rfl

end ArchLoop.Lib.JsonText
