import ArchLoop.Checkout
import ArchLoop.Lib.Utf8

/-!
# `ArchLoop.HostDirty`: the dirty state of the host checkout

The model of `readHubHostDirtySnapshot` and `hubHostDirtySnapshotsEqual` (`hubLandingQueue.ts`).
A landing must leave the uncommitted work of the host checkout alone, so the Hub takes a snapshot
of it before and after. It cuts a path out of each line that `git status --porcelain` prints, and
keeps the text of the file there.

The entries are those that Git prints without quotes. The error of a file that cannot be read is
left out.
-/

set_option autoImplicit false

namespace ArchLoop

open ArchLoop.Lib

/-! ### The checkout -/

/-- A column of a status line. -/
inductive StatusColumn where
  | unmodified
  | modified
  | typeChanged
  | added
  | deleted
  | renamed
  | copied
  | unmerged
  | untracked
  deriving DecidableEq, Repr

namespace StatusColumn

/-- The letter that Git prints. -/
def letter : StatusColumn → Char
  | unmodified => ' '
  | modified => 'M'
  | typeChanged => 'T'
  | added => 'A'
  | deleted => 'D'
  | renamed => 'R'
  | copied => 'C'
  | unmerged => 'U'
  | untracked => '?'

/-- The line names the path that the file comes from as well. -/
def hasSource (column : StatusColumn) : Bool := column == renamed || column == copied

end StatusColumn

/-- Git prints the character in a path as it is. -/
def isPlainChar (c : Char) : Bool :=
  !isBlank c && c != '"' && c != '\\' && 0x20 < c.toNat && c != '\x7f'

/-- Git prints the path as it is. -/
structure IsPlainPath (path : String) : Prop where
  ne : path.toList ≠ []
  chars : path.toList.all isPlainChar = true
  last : path.toList.getLast? ≠ some '/'

/-- An entry of `git status`. Of a directory without tracked files there is one entry, with a slash
behind its path. -/
structure HostStatusEntry where
  index : StatusColumn
  worktree : StatusColumn
  path : String
  renamedFrom : Option String
  directory : Bool
  changed : index ≠ .unmodified ∨ worktree ≠ .unmodified
  path_plain : IsPlainPath path
  renamedFrom_plain : ∀ old ∈ renamedFrom, IsPlainPath old
  renamedFrom_isSome : renamedFrom.isSome = (index.hasSource || worktree.hasSource)

namespace HostStatusEntry

/-- What Git prints behind the columns. -/
def printed (entry : HostStatusEntry) : List Char :=
  (match entry.renamedFrom with
    | some old => old.toList ++ " -> ".toList ++ entry.path.toList
    | none => entry.path.toList) ++ if entry.directory then ['/'] else []

/-- The line of `git status --porcelain`. -/
def line (entry : HostStatusEntry) : List Char :=
  entry.index.letter :: entry.worktree.letter :: ' ' :: entry.printed

end HostStatusEntry

/-- What is at a path.

- `missing`: nothing, or a symbolic link to nothing.
- `directory`, `symlink`: the mode that `lstat` reports.
- `file`: the octets of a regular file. -/
inductive HostNode where
  | missing
  | directory (mode : Nat)
  | symlink (mode : Nat)
  | file (content : List UInt8)
  deriving DecidableEq, Repr

/-- The host checkout: the entries of `git status`, in the order in which Git prints them, and
what is at a path behind its root. -/
structure HostDirtyState where
  entries : List HostStatusEntry
  nodes : String → HostNode

/-- What `git status --porcelain` prints. -/
def HostDirtyState.gitStatus (s : HostDirtyState) : String :=
  unlines (s.entries.map fun entry => String.ofList entry.line)

/-! ### Objects -/

/-- The object that the contents are written to: its own properties in the order in which they were
added. `nullPrototype` says that it no longer inherits from `Object.prototype`. -/
structure HostContents where
  properties : List (String × Option String) := []
  nullPrototype : Bool := false
  deriving DecidableEq, Repr

namespace HostContents

/-- The properties with one of them set. -/
def put (key : String) (value : Option String) :
    List (String × Option String) → List (String × Option String)
  | [] => [(key, value)]
  | (name, old) :: rest =>
    if name = key then (name, value) :: rest else (name, old) :: put key value rest

/-- `contents[key] = value`. The inherited setter of `__proto__` ignores a text, and takes `null` as
the new prototype. -/
def assign (contents : HostContents) (key : String) (value : Option String) : HostContents :=
  if key = "__proto__" ∧ contents.nullPrototype = false then
    match value with
    | some _ => contents
    | none => { contents with nullPrototype := true }
  else { contents with properties := put key value contents.properties }

/-- The value of an own property. -/
def get (contents : HostContents) (key : String) : Option (Option String) :=
  contents.properties.lookup key

/-- The number that a property stands for, when it is an array index. -/
def arrayIndex (key : String) : Option Nat :=
  key.toNat?.filter fun n => toString n == key && n < 4294967295

/-- The own properties in the order in which `JSON.stringify` prints them: the array indices in
ascending order, then the other ones as they were added. -/
def ownProperties (contents : HostContents) : List (String × Option String) :=
  let indexed := contents.properties.filterMap fun property =>
    (arrayIndex property.1).map fun n => (n, property)
  (indexed.insertionSort fun a b => a.1 ≤ b.1).map Prod.snd ++
    contents.properties.filter fun property => (arrayIndex property.1).isNone

end HostContents

/-! ### Snapshots -/

/-- `HubHostDirtySnapshot`. -/
structure HubHostDirtySnapshot where
  porcelain : String
  contents : HostContents
  deriving DecidableEq, Repr

/-- The `.` of a pattern does not match the character. -/
def isLineTerminator (c : Char) : Bool :=
  c == '\n' || c == '\r' || c == '\u2028' || c == '\u2029'

/-- The group of `/ -> (.+)$/`, at the first place where the pattern matches. -/
def renameTarget : List Char → Option (List Char)
  | [] => none
  | c :: rest =>
    let target := (c :: rest).drop 4
    if (c :: rest).take 4 = " -> ".toList ∧ target ≠ [] ∧ target.all (!isLineTerminator ·) then
      some target
    else renameTarget rest

/-- It stands for the second half of a character that JavaScript counts as two. -/
def loneSurrogate : Char := '\x00'

/-- `line.slice(n)`. -/
def slice : Nat → List Char → List Char
  | 0, line => line
  | _ + 1, [] => []
  | 1, c :: rest => if 0xFFFF < c.toNat then loneSurrogate :: rest else rest
  | n + 2, c :: rest => if 0xFFFF < c.toNat then slice n rest else slice (n + 1) rest

/-- `.replace(/\/$/, "")`. -/
def dropTrailingSlash (path : String) : String :=
  if path.toList.getLast? = some '/' then String.ofList path.toList.dropLast else path

/-- The path that a line of the status is taken for. -/
def pathOfLine (line : String) : String :=
  dropTrailingSlash (trim (String.ofList ((renameTarget line.toList).getD (slice 3 line.toList))))

/-- What is recorded of the node at a path. -/
def HostNode.recorded : HostNode → Option String
  | missing => none
  | directory mode => some ("mode:" ++ toString mode)
  | symlink mode => some ("mode:" ++ toString mode)
  | file content => some (String.ofList (Utf8.decode content))

/-- A turn of the loop of `readHubHostDirtySnapshot`. -/
def recordLine (nodes : String → HostNode) (contents : HostContents) (line : String) :
    HostContents :=
  if trim line = "" then contents
  else
    let path := pathOfLine line
    if path = "" then contents else contents.assign path (nodes path).recorded

/-- `readHubHostDirtySnapshot`. It throws when the status is longer than the limit on the output
of a child process. -/
def readHubHostDirtySnapshot (s : HostDirtyState) : Option HubHostDirtySnapshot := do
  let porcelain ← tryGitTextSync (some s.gitStatus)
  return { porcelain, contents := (splitLines porcelain).foldl (recordLine s.nodes) {} }

/-- `hubHostDirtySnapshotsEqual`. -/
def hubHostDirtySnapshotsEqual (left right : HubHostDirtySnapshot) : Bool :=
  left.porcelain == right.porcelain && left.contents.ownProperties == right.contents.ownProperties

end ArchLoop
