import Mathlib.Data.List.AList
import Mathlib.Data.List.Lex
import Mathlib.Order.Nat
import ArchLoop.Lib.JsonText
import ArchLoop.Lib.Text

/-!
# `ArchLoop.EnvFile`: the file of Hub credentials

The model of `parseEnvFileContent` and `serializeEnvFile` in `envFile.ts`, and of the functions of
`hubEnv.ts` that read and write the Hub `.env` file. The variables are a map: the order of an object
is never seen, since the keys are sorted before they are written.

The file is its text, or nothing where it cannot be read. Directories and write errors are left out.
-/

set_option autoImplicit false

namespace ArchLoop.EnvFile

open ArchLoop.Lib

/-! ### `envFile.ts` -/

/-- The variables, a `Record<string, string>`. -/
abbrev EnvVars : Type := AList fun _ : String => String

/-- `vars[key] = value`. Under this one name an object has a setter, which ignores a text. -/
def assign (vars : EnvVars) (key value : String) : EnvVars :=
  if key = "__proto__" then vars else vars.insert key value

/-- The `escapes`. -/
def escapes : Char → Option Char
  | 'n' => some '\n'
  | 'r' => some '\r'
  | 't' => some '\t'
  | '\\' => some '\\'
  | _ => none

/-- The replacement of the escapes in a value between double quotes. -/
def unescape : List Char → List Char
  | [] => []
  | [c] => [c]
  | c :: ch :: rest =>
    if c = '\\' then
      match escapes ch with
      | some read => read :: unescape rest
      | none => c :: unescape (ch :: rest)
    else c :: unescape (ch :: rest)

/-- The value stands between two of these quotes. -/
def isQuotedBy (quote : Char) (value : List Char) : Bool :=
  2 ≤ value.length && value.head? = some quote && value.getLast? = some quote

/-- The value, as it is read from behind the `=`. -/
def readValue (value : List Char) : List Char :=
  let inner := if isQuotedBy '"' value || isQuotedBy '\'' value then value.tail.dropLast else value
  if isQuotedBy '"' value then unescape inner else inner

/-- The entry of a line, if it has one. -/
def readEntry (line : String) : Option (String × String) :=
  let trimmed := (trim line).toList
  if trimmed = [] || trimmed.head? = some '#' || '=' ∉ trimmed then none
  else
    some (trim (String.ofList (trimmed.takeWhile (· ≠ '='))),
      String.ofList (readValue
        (trim (String.ofList (trimmed.dropWhile (· ≠ '=')).tail)).toList))

/-- A turn of the loop over the lines. -/
def readLine (vars : EnvVars) (line : String) : EnvVars :=
  match readEntry line with
  | none => vars
  | some (key, value) => assign vars key value

/-- `parseEnvFileContent`. -/
def parseEnvFileContent (content : String) : EnvVars := (splitLines content).foldl readLine ∅

/-- The code units of a text, by which `sort` compares. -/
def codeUnits (text : String) : List Nat := text.toList.flatMap JsonText.units

/-- The order of `sort`. -/
def keyLe (a b : String) : Bool := codeUnits a ≤ codeUnits b

/-- `Object.keys(vars).sort()`. -/
def sortedKeys (vars : EnvVars) : List String := vars.keys.mergeSort keyLe

/-- The line of an entry. -/
def entryLine (vars : EnvVars) (key : String) : String := key ++ "=" ++ (vars.lookup key).getD ""

/-- `serializeEnvFile`. -/
def serializeEnvFile (vars : EnvVars) (headerLines : List String) : String :=
  let header := if headerLines ≠ [] && headerLines.getLast? ≠ some "" then headerLines ++ [""]
    else headerLines
  "\n".intercalate (header ++ (sortedKeys vars).map (entryLine vars)) ++ "\n"

/-! ### `hubEnv.ts` -/

def EMPTY_PLACEHOLDER_VALUES : List String := ["undefined", "null"]

/-- `normalizeHubEnvValue`. -/
def normalizeHubEnvValue (value : String) : String :=
  if String.ofList ((trim value).toList.map Char.toLower) ∈ EMPTY_PLACEHOLDER_VALUES then ""
  else trim value

theorem keys_map (f : String → String) (entries : List (Sigma fun _ : String => String)) :
    (entries.map fun entry => (⟨entry.1, f entry.2⟩ : Sigma fun _ : String => String)).keys =
      entries.keys := by
  induction entries with
  | nil => rfl
  | cons entry entries ih => rw [List.map_cons, List.keys_cons, List.keys_cons, ih]

/-- The variables with each value changed. -/
def mapValues (f : String → String) (vars : EnvVars) : EnvVars where
  entries := vars.entries.map fun entry => ⟨entry.1, f entry.2⟩
  nodupKeys := by
    rw [List.NodupKeys, keys_map]
    exact vars.nodupKeys

/-- `normalizeHubEnvRecord`. -/
def normalizeHubEnvRecord (vars : EnvVars) : EnvVars := mapValues normalizeHubEnvValue vars

/-- `readHubEnvFile`. -/
def readHubEnvFile (file : Option String) : EnvVars :=
  match file with
  | some content => normalizeHubEnvRecord (parseEnvFileContent content)
  | none => ∅

/-- The `header` of `writeHubEnvFile`. -/
def HUB_ENV_HEADER : List String :=
  ["# archLoop Hub shared credentials",
    "# Values here apply to Hub flows (tasks from-prd, triage, run, and so on).",
    "# process.env overrides non-empty values at runtime.",
    "# Project .archloop/.env overrides Hub values for the same key when set."]

/-- `writeHubEnvFile`, with the text that it writes. -/
def writeHubEnvFile (vars : EnvVars) (file : Option String) : String :=
  serializeEnvFile (normalizeHubEnvRecord (vars ∪ readHubEnvFile file)) HUB_ENV_HEADER

/-- `upsertHubEnvKey`. -/
def upsertHubEnvKey (key value : String) (file : Option String) : String :=
  writeHubEnvFile (AList.singleton key value) file

end ArchLoop.EnvFile
