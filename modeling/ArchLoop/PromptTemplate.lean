import ArchLoop.Lib.Pattern
import ArchLoop.Lib.Text
import Mathlib.Data.List.Infix

/-!
# `ArchLoop.PromptTemplate`: placeholders and shell blocks

A prompt file may name arguments, `{{KEY}}`, and commands between backticks behind an exclamation
mark. `substitutePromptArgs` (`PromptArgumentSubstitution.ts`) marks the commands that the file
itself has and puts the arguments in; `preprocessPrompt` (`PromptPreprocessor.ts`) runs the marked
commands and puts their outputs in.

An argument is looked up in an object, which has members that nobody gave it. Their texts are a
parameter, `inherited`. What becomes of each command is another, `exec`: two commands with the same
text may print different things.
-/

set_option autoImplicit false

namespace ArchLoop.PromptTemplate

open ArchLoop.Lib
open ArchLoop.Lib.Pattern

/-! ### Patterns -/

def SHELL_BLOCK_MARKER : Char := '\x01'

/-- The text without markers. -/
def stripMarkers (text : List Char) : List Char := text.filter (· ≠ SHELL_BLOCK_MARKER)

/-- The characters up to the next backtick, if there are any, and how many they are with it. -/
def upToBacktick (text : List Char) : Option (List Char × Nat) :=
  let body := text.takeWhile (· ≠ '`')
  if body = [] || body.length = text.length then none else some (body, body.length + 1)

/-- `SHELL_BLOCK_PATTERN`. -/
def SHELL_BLOCK_PATTERN : Matcher Char (List Char)
  | '!' :: '`' :: rest => (upToBacktick rest).map fun (body, count) => (body, count + 1)
  | _ => none

/-- `MARKED_SHELL_BLOCK_PATTERN`. -/
def MARKED_SHELL_BLOCK_PATTERN : Matcher Char (List Char)
  | '!' :: mark :: '`' :: rest =>
    if mark = SHELL_BLOCK_MARKER then
      (upToBacktick rest).map fun (body, count) => (body, count + 2)
    else none
  | _ => none

/-- `[A-Za-z_]`. -/
def isKeyStart (c : Char) : Bool := c.isAlpha || c == '_'

/-- `[A-Za-z0-9_]`. -/
def isKeyChar (c : Char) : Bool := c.isAlphanum || c == '_'

/-- `PLACEHOLDER_PATTERN`. -/
def PLACEHOLDER_PATTERN : Matcher Char (List Char)
  | '{' :: '{' :: rest =>
    let named := rest.dropWhile isBlank
    let key := named.takeWhile isKeyChar
    match key.head?.any isKeyStart, (named.dropWhile isKeyChar).dropWhile isBlank with
    | true, '}' :: '}' :: behind => some (key, 1 + (rest.length - behind.length))
    | _, _ => none
  | _ => none

/-! ### `substitutePromptArgs` -/

/-- A number as it is written. -/
structure NumberText where
  text : List Char
  plain : ∀ c ∈ text, c ∈ "+-.0123456789INaefinty".toList

inductive PromptArg where
  | text (value : List Char)
  | number (value : NumberText)
  | boolean (value : Bool)

/-- `PromptArgs`. The first argument with a key counts. -/
abbrev PromptArgs : Type := List (List Char × PromptArg)

/-- `toString`. -/
def PromptArg.toText : PromptArg → List Char
  | .text value => value
  | .number value => value.text
  | .boolean true => "true".toList
  | .boolean false => "false".toList

/-- An argument without markers. -/
def sanitizeArg : PromptArg → PromptArg
  | .text value => .text (stripMarkers value)
  | arg => arg

def sanitizedArgs (args : PromptArgs) : PromptArgs :=
  args.map fun (key, arg) => (key, sanitizeArg arg)

/-- The template without markers, in which each block has one. -/
def markedPrompt (prompt : List Char) : List Char :=
  replace (fun body => '!' :: SHELL_BLOCK_MARKER :: '`' :: (body ++ ['`']))
    (scan SHELL_BLOCK_PATTERN (stripMarkers prompt))

section
variable (inherited : List Char → Option (List Char))

/-- The text of a member of the arguments. -/
def memberText (args : PromptArgs) (key : List Char) : Option (List Char) :=
  match args.lookup key with
  | some arg => some arg.toText
  | none => inherited key

def missingKeyMessage (key : List Char) : String :=
  "Prompt argument \"\x7b\x7b" ++ String.ofList key ++
    "\x7d\x7d\" has no matching value in promptArgs"

/-- `substitutePromptArgs`. -/
def substitutePromptArgs (prompt : List Char) (args : PromptArgs) : Except String (List Char) :=
  let pieces := scan PLACEHOLDER_PATTERN (markedPrompt prompt)
  if (values pieces).isEmpty && (sanitizedArgs args).isEmpty then .ok (markedPrompt prompt)
  else
    match (values pieces).find? fun key =>
        (memberText inherited (sanitizedArgs args) key).isNone with
    | some key => .error (missingKeyMessage key)
    | none =>
      .ok (replace (fun key => (memberText inherited (sanitizedArgs args) key).getD []) pieces)

end

/-! ### `preprocessPrompt` -/

/-- What a command leaves that has run. -/
structure ExecResult where
  stdout : List Char
  stderr : List Char
  exitCode : Int

/-- `gh` with a word boundary behind it. -/
def beginsWithGh : List Char → Bool
  | 'g' :: 'h' :: rest => rest.head?.all fun c => !isKeyChar c
  | _ => false

def isGhCommand (command : List Char) : Bool :=
  beginsWithGh command || command.tails.any fun
    | c :: rest => isBlank c && beginsWithGh rest
    | [] => false

/-- `.` matches none of these. -/
def isLineEnd (c : Char) : Bool :=
  c == '\n' || c == '\r' || c.toNat == 0x2028 || c.toNat == 0x2029

/-- `GH_AUTH_FAILURE_PATTERN.test`. -/
def isAuthFailureText (stderr : List Char) : Bool :=
  let lower := stderr.map Char.toLower
  let occurs := fun (word : String) (text : List Char) => decide (word.toList <:+: text)
  occurs "401" lower || occurs "bad credentials" lower || occurs "not logged in" lower ||
    (lower.splitOnP isLineEnd).any fun line => line.tails.any fun rest =>
      decide ("token".toList <+: rest) && occurs "invalid" (rest.drop "token".length)

def isGhAuthFailure (command stderr : List Char) : Bool :=
  isGhCommand command && isAuthFailureText stderr

def formatGhAuthFailureMessage (command stderr : List Char) : String :=
  "\n".intercalate
    ["GitHub authentication failed while expanding prompt shell expression `" ++
        String.ofList command ++ "`.",
      "Sandbox `gh` uses archLoop Hub auth (`archloop auth login github`) or `GH_TOKEN`, " ++
        "not your host keyring.",
      "A successful host `gh auth status` does not mean sandbox auth is valid.",
      "",
      "Fix one of:",
      "- Set a non-empty `GH_TOKEN` in `.archloop/.env`",
      "- Run `archloop auth login github`",
      "",
      "See `docs/agents/issue-tracker.md` for fork/default-repo setup.",
      "",
      "Original error: " ++ trim (String.ofList stderr)]

def formatShellExpansionFailure (command : List Char) (exitCode : Int) (stderr : List Char) :
    String :=
  if isGhAuthFailure command stderr then formatGhAuthFailureMessage command stderr
  else "Command `" ++ String.ofList command ++ "` exited with code " ++ toString exitCode ++ ": " ++
    String.ofList stderr

/-- What is put in for a command. A command that cannot be run, or does not end in time, is an
error of its own. -/
def expand (command : List Char) : Except String ExecResult → Except String (List Char)
  | .error message => .error message
  | .ok result =>
    if result.exitCode ≠ 0 then
      .error (formatShellExpansionFailure command result.exitCode result.stderr)
    else .ok (result.stdout.rdropWhile isBlank)

section
variable (exec : Nat → List Char → Except String ExecResult)

/-- The texts of all commands, which run side by side. Where some of them fail, the first of these
stands for the one that is the first to end. -/
def expandAll (commands : List (List Char)) : Except String (List (List Char)) :=
  commands.zipIdx.mapM fun (command, index) => expand command (exec index command)

/-- The commands that are run, and what comes of it. -/
structure Preprocessed where
  commands : List (List Char)
  result : Except String (List Char)

/-- `preprocessPrompt`. -/
def preprocessPrompt (prompt : List Char) : Preprocessed :=
  let found := matchAll MARKED_SHELL_BLOCK_PATTERN prompt
  if found.isEmpty then { commands := [], result := .ok (stripMarkers prompt) }
  else
    let commands := found.map (·.value)
    { commands := commands
      result := (expandAll exec commands).map fun results =>
        stripMarkers (splice (found.zip results) prompt) }

end

end ArchLoop.PromptTemplate
