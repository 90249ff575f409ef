import ArchLoop.Lib.JsonPretty
import ArchLoop.Lib.Text
import ArchLoop.Lib.Utf8
import Mathlib.Logic.Function.Basic

/-!
# `ArchLoop.ProjectRegistry`: the file of the registered projects

The model of `hubProjectRegistry.ts`. All projects are in one JSON file. Every operation reads the
file, and one that changes a project writes the whole file again, without a lock and not by way of
a temporary file. So other processes may write in between (`RegistryStep.finish` comes after
`RegistryStep.start`), and a crash may leave any part of the new text (`RegistryStep.crash`).

A file that cannot be read counts as an empty registry, and an entry that cannot be read is left
out.

The lower-case text of a name is that of JavaScript; here it is any function `toLowerCase`.
-/

set_option autoImplicit false

namespace ArchLoop.ProjectRegistry

open ArchLoop.Lib ArchLoop.Lib.JsonText

/-! ### The file -/

/-- `HubProjectRegistryEntry`. -/
structure HubProjectRegistryEntry where
  id : String
  name : String
  repoRoot : String
  hubProjectDir : String
  projectProfile : String
  createdAt : String
  updatedAt : String
  deriving DecidableEq, Repr

/-- The members of an entry. -/
def HubProjectRegistryEntry.members (entry : HubProjectRegistryEntry) : List (String × Value) := [
  ("id", .string entry.id),
  ("name", .string entry.name),
  ("repoRoot", .string entry.repoRoot),
  ("hubProjectDir", .string entry.hubProjectDir),
  ("projectProfile", .string entry.projectProfile),
  ("createdAt", .string entry.createdAt),
  ("updatedAt", .string entry.updatedAt)]

/-- `readString`. -/
def readString (record : Value) (key : String) : Option String :=
  ((record.get key).bind Value.text?).bind fun text =>
    if trim text = "" then none else some (trim text)

/-- `readProjectRegistryEntry`. -/
def readProjectRegistryEntry (value : Value) : Option HubProjectRegistryEntry := do
  let id ← readString value "id"
  let name ← readString value "name"
  let repoRoot ← readString value "repoRoot"
  let hubProjectDir ← readString value "hubProjectDir"
  let projectProfile ← readString value "projectProfile"
  let createdAt ← readString value "createdAt"
  let updatedAt ← readString value "updatedAt"
  return { id, name, repoRoot, hubProjectDir, projectProfile, createdAt, updatedAt }

/-- The octets of a file, if it is there. -/
abbrev FileContent := Option (List UInt8)

/-- The items under `projects` in a file that holds a registry. -/
def registryItems (file : FileContent) : Option (List Value) :=
  (file.bind fun octets => parse (Utf8.decode octets)).bind fun raw =>
    (raw.get "projects").bind Value.items?

/-- The projects that `readRegistryState` finds. -/
def readRegistryState (file : FileContent) : List HubProjectRegistryEntry :=
  ((registryItems file).getD []).filterMap readProjectRegistryEntry

/-- `HubProjectRegistryState`, as an object. -/
def registryValue (projects : List HubProjectRegistryEntry) : Value :=
  .object [
    ("version", .ofInt 1),
    ("projects", .array (projects.map fun entry => .object entry.members))]

/-- What `writeRegistryState` writes. -/
def registryContent (projects : List HubProjectRegistryEntry) : List UInt8 :=
  Utf8.encode (pretty 0 (registryValue projects) ++ ['\n'])

/-! ### Operations -/

/-- `RegisterHubProjectInput`, with what the call finds and makes.

- `repoRoot`: the root that `resolveHubProjectRegistrationRepoRoot` finds, or its error.
- `projectId`: the generated id.
- `projectProfile`: the profile of the development contract, or the error of configuring it.
- `failsBehind`: the error of the selection or the task store, which follow the registry. -/
structure RegisterHubProjectInput where
  projectName : String
  repoRoot : Except String String
  projectId : String
  hubProjectDir : String
  projectProfile : Except String String
  now : String
  failsBehind : Option String := none

/-- `RenameHubProjectInput`. -/
structure RenameHubProjectInput where
  projectSelector : String
  newProjectName : String
  now : String

/-- `RelinkHubProjectInput`, with the root or the error that it resolves to, and the error of the
task store's redirect. -/
structure RelinkHubProjectInput where
  projectSelector : String
  repoRoot : Except String String
  redirect : Except String Unit := .ok ()
  now : String

/-- A call of the registry. -/
inductive RegistryCall where
  | register (input : RegisterHubProjectInput)
  | rename (input : RenameHubProjectInput)
  | relink (input : RelinkHubProjectInput)
  | select (projectSelector : String)

/-- What an operation is about to write: the projects, and the one that it changes. -/
structure RegistryWrite where
  projects : List HubProjectRegistryEntry
  changed : String
  deriving DecidableEq, Repr

section Operations

variable (toLowerCase : String → String)

/-- `normalizeName`. -/
def normalizeName (value : String) : String := toLowerCase (trim value)

/-- `findProjectBySelector`. -/
def findProjectBySelector (projects : List HubProjectRegistryEntry) (selector : String) :
    Option HubProjectRegistryEntry :=
  if trim selector = "" then none
  else
    (projects.find? fun project => project.id == trim selector).or
      (projects.find? fun project =>
        normalizeName toLowerCase project.name == normalizeName toLowerCase (trim selector))

/-- `formatProjectNotFoundMessage`. -/
def formatProjectNotFoundMessage (projectSelector : String) : String :=
  "No Hub project named \"" ++ projectSelector ++
    "\". Run `archloop project list` to see registered projects."

/-- `resolveProjectSelection`. -/
def resolveProjectSelection (projects : List HubProjectRegistryEntry) (projectSelector : String) :
    Except String (HubProjectRegistryEntry × Nat) :=
  match findProjectBySelector toLowerCase projects projectSelector with
  | none => .error (formatProjectNotFoundMessage projectSelector)
  | some project => .ok (project, projects.findIdx fun entry => entry.id == project.id)

/-- `ensureUniqueProjectName`. -/
def ensureUniqueProjectName (projects : List HubProjectRegistryEntry) (projectName : String)
    (exceptProjectId : Option String) : Except String Unit :=
  match projects.find? fun project =>
      normalizeName toLowerCase project.name == normalizeName toLowerCase projectName &&
        some project.id != exceptProjectId with
  | some existing =>
    .error ("Hub project name \"" ++ projectName ++ "\" is already registered for " ++
      existing.repoRoot ++ ". Use `archloop project list` to inspect registered projects, or " ++
      "choose a different name.")
  | none => .ok ()

/-- `ensureUniqueRepoRoot`. -/
def ensureUniqueRepoRoot (projects : List HubProjectRegistryEntry) (repoRoot : String)
    (exceptProjectId : Option String) : Except String Unit :=
  match projects.find? fun project =>
      project.repoRoot == repoRoot && some project.id != exceptProjectId with
  | some existing =>
    .error ("Repository path " ++ repoRoot ++ " is already registered as Hub project \"" ++
      existing.name ++ "\". Use `archloop project list` to inspect registered projects, or " ++
      "choose a different path.")
  | none => .ok ()

/-- `registerHubProject`, up to the write. -/
def registerHubProject (input : RegisterHubProjectInput)
    (projects : List HubProjectRegistryEntry) : Except String RegistryWrite := do
  let repoRoot ← input.repoRoot
  ensureUniqueProjectName toLowerCase projects input.projectName none
  ensureUniqueRepoRoot projects repoRoot none
  let projectProfile ← input.projectProfile
  return {
    projects := projects ++ [{
      id := input.projectId, name := trim input.projectName, repoRoot
      hubProjectDir := input.hubProjectDir, projectProfile
      createdAt := input.now, updatedAt := input.now }]
    changed := input.projectId }

/-- `renameHubProject`, up to the write. -/
def renameHubProject (input : RenameHubProjectInput)
    (projects : List HubProjectRegistryEntry) : Except String RegistryWrite := do
  let (project, projectIndex) ← resolveProjectSelection toLowerCase projects input.projectSelector
  let newProjectName := trim input.newProjectName
  if newProjectName = "" then throw "Hub project name is required."
  ensureUniqueProjectName toLowerCase projects newProjectName (some project.id)
  return {
    projects := projects.set projectIndex
      { project with name := newProjectName, updatedAt := input.now }
    changed := project.id }

/-- `relinkHubProject`, up to the write. -/
def relinkHubProject (input : RelinkHubProjectInput)
    (projects : List HubProjectRegistryEntry) : Except String RegistryWrite := do
  let repoRoot ← input.repoRoot
  let (project, projectIndex) ← resolveProjectSelection toLowerCase projects input.projectSelector
  ensureUniqueRepoRoot projects repoRoot (some project.id)
  input.redirect
  return {
    projects := projects.set projectIndex { project with repoRoot, updatedAt := input.now }
    changed := project.id }

/-- What a call is about to write, if it writes the registry. -/
def RegistryCall.prepare (call : RegistryCall) (projects : List HubProjectRegistryEntry) :
    Except String (Option RegistryWrite) :=
  match call with
  | .register input => (registerHubProject toLowerCase input projects).map some
  | .rename input => (renameHubProject toLowerCase input projects).map some
  | .relink input => (relinkHubProject toLowerCase input projects).map some
  | .select projectSelector =>
    (resolveProjectSelection toLowerCase projects projectSelector).map fun _ => none

end Operations

/-- The error of a call behind its write. -/
def RegistryCall.failsBehind : RegistryCall → Option String
  | .register input => input.failsBehind
  | _ => none

/-! ### Processes -/

/-- A call between its read and its write. -/
structure PendingWrite where
  call : RegistryCall
  write : RegistryWrite

/-- The registry file, and the calls of the processes. -/
structure RegistryWorld (ι : Type) where
  file : FileContent
  pending : ι → Option PendingWrite

/-- What the processes do.

- `start`: a process without a call makes one. The call reads the file, and fails, or is done, or
  is about to write.
- `finish`: a process writes.
- `crash`: a process dies in its write, with so many octets written. -/
inductive RegistryStep (ι : Type) where
  | start (process : ι) (call : RegistryCall)
  | finish (process : ι)
  | crash (process : ι) (written : Nat)

variable {ι : Type} [DecidableEq ι]

/-- The world with what a process is about to write. -/
def RegistryWorld.withPending (s : RegistryWorld ι) (process : ι)
    (pending : Option PendingWrite) : RegistryWorld ι :=
  { s with pending := Function.update s.pending process pending }

/-- What a step makes of the world. A process that has nothing to write does not write. -/
def RegistryWorld.step (toLowerCase : String → String) (s : RegistryWorld ι) :
    RegistryStep ι → RegistryWorld ι
  | .start process call =>
    match call.prepare toLowerCase (readRegistryState s.file) with
    | .ok (some write) => s.withPending process (some { call, write })
    | _ => s.withPending process none
  | .finish process =>
    match s.pending process with
    | some pending =>
      { s.withPending process none with file := some (registryContent pending.write.projects) }
    | none => s
  | .crash process written =>
    match s.pending process with
    | some pending =>
      { s.withPending process none with
        file := some ((registryContent pending.write.projects).take written) }
    | none => s

/-- The world after some steps. -/
def RegistryWorld.run (toLowerCase : String → String) (s : RegistryWorld ι)
    (steps : List (RegistryStep ι)) : RegistryWorld ι :=
  steps.foldl (RegistryWorld.step toLowerCase) s

end ArchLoop.ProjectRegistry
