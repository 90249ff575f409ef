import ArchLoop.HostDirty
import ArchLoop.Lib.Path

/-!
# `ArchLoop.GitMounts`: the mounts for git

A sandbox sees the worktree at `SANDBOX_REPO_DIR`. The `.git` of a worktree is a file that names a
directory of the repository, by a path of the host, so that the sandbox needs mounts for both.

`resolveGitMounts` (`SandboxFactory.ts`) finds them; `patchGitMountsForWindows` (`mountUtils.ts`)
replaces what cannot work on a Windows host, where the two read the same pointer by different
means; `normalizeMounts` prepares all mounts for the provider. Every entry point puts these together
by itself.
-/

set_option autoImplicit false

namespace ArchLoop.GitMounts

open Lib

def SANDBOX_REPO_DIR : List Char := "/home/agent/workspace".toList

/-- Where the repository's `.git` directory is mounted when the workspace is a worktree. -/
def PARENT_GIT_SANDBOX_DIR : List Char := "/.archloop-parent-git".toList

/-- `SANDBOX_REPO_DIR/.git`. -/
def gitInSandbox : List Char := SANDBOX_REPO_DIR ++ "/.git".toList

structure MountEntry where
  hostPath : List Char
  sandboxPath : List Char
  deriving DecidableEq, Repr

inductive FileEntry where
  | directory
  | file (content : List Char)
  deriving DecidableEq, Repr

/-! ### The host's files -/

/-- The place that a text names. -/
def place (platform : Platform) (text : List Char) : Path :=
  (Path.parse platform text).fold platform

/-- What is at each place. -/
abbrev Files := Path → Option FileEntry

namespace Files

variable (files : Files) (platform : Platform)

def stat (path : List Char) : Option FileEntry := files (place platform path)

def writeFile (path content : List Char) : Files := fun other =>
  if other = place platform path then some (.file content) else files other

end Files

/-- `join` of an absolute path and further parts. -/
def join (platform : Platform) (path : List Char) (more : List (List Char)) : List Char :=
  ((Path.parse platform path).descend more).text platform

/-- `resolve`: a path that is not absolute starts at the working directory. -/
def resolve (platform : Platform) (cwd path : List Char) (more : List (List Char)) : List Char :=
  if platform.isAbsolute path then join platform path more
  else join platform cwd (parts platform path ++ more)

/-- `content.trim().match(/^gitdir:\s*(.+)$/)` -/
def gitdirOf (content : List Char) : Option (List Char) :=
  let content := (content.dropWhile isBlank).rdropWhile isBlank
  if "gitdir:".toList.isPrefixOf content then
    let path := (content.drop 7).dropWhile isBlank
    if path ≠ [] ∧ path.all (!isLineTerminator ·) then some path else none
  else none

/-! ### `resolveGitMounts` -/

/-- `none` where the path cannot be read. -/
def resolveGitMounts (platform : Platform) (files : Files) (cwd gitPath : List Char) :
    Option (List MountEntry) :=
  match files.stat platform gitPath with
  | none => none
  | some .directory => some [⟨gitPath, gitPath⟩]
  | some (.file content) =>
    match gitdirOf content with
    -- an unknown format: the file is mounted as it is
    | none => some [⟨gitPath, gitPath⟩]
    | some gitdirPath =>
      let parentGitDir := resolve platform cwd gitdirPath ["..".toList, "..".toList]
      some [⟨gitPath, gitPath⟩, ⟨parentGitDir, parentGitDir⟩]

/-! ### `patchGitMountsForWindows` -/

structure GitdirPath where
  parentGitDir : List Char
  worktreeName : List Char
  deriving DecidableEq, Repr

/-- The parts of a pointer as they are written, without separators at its end. -/
def segments (gitdirPath : List Char) : List (List Char) :=
  ((slashes .win32 gitdirPath).rdropWhile (· == '/')).splitOn '/'

/-- Both kinds of separators count, whatever the platform is. -/
def parseGitdirPath (gitdirPath : List Char) : GitdirPath :=
  let segments := segments gitdirPath
  { worktreeName := segments.getLast?.getD []
    parentGitDir := ['/'].intercalate segments.dropLast.dropLast }

/-- What the loop over the mounts has so far. -/
structure Correction where
  correctedMounts : List MountEntry := []
  replacedGitFile : Bool := false

def correctMount (normalizedParentGitDir gitFileHostPath tempGitFile : List Char)
    (done : Correction) (m : MountEntry) : Correction :=
  let normalizedHostPath := slashes .win32 m.hostPath
  if normalizedHostPath = normalizedParentGitDir then
    { done with correctedMounts :=
        done.correctedMounts ++ [{ m with sandboxPath := PARENT_GIT_SANDBOX_DIR }] }
  else if normalizedHostPath = gitFileHostPath then
    { correctedMounts := done.correctedMounts ++ [⟨tempGitFile, gitInSandbox⟩]
      replacedGitFile := true }
  else { done with correctedMounts := done.correctedMounts ++ [m] }

/-- The text of the file that takes the place of the worktree's `.git`. -/
def overrideText (worktreeName : List Char) : List Char :=
  "gitdir: ".toList ++ (PARENT_GIT_SANDBOX_DIR ++ "/worktrees/".toList ++ worktreeName) ++ ['\n']

/-- The mounts, and the files with the one that it writes. -/
def patchGitMountsForWindows (platform : Platform) (files : Files) (tempGitFile : List Char)
    (gitMounts : List MountEntry) (worktreeHostPath : List Char) : List MountEntry × Files :=
  if platform = .win32 then
    let gitEntryPath := join platform worktreeHostPath [".git".toList]
    match files.stat platform gitEntryPath with
    | some (.file content) =>
      match gitdirOf content with
      | none => (gitMounts, files)
      | some gitdirPath =>
        let { parentGitDir, worktreeName } := parseGitdirPath gitdirPath
        let done := gitMounts.foldl
          (correctMount (slashes .win32 parentGitDir) (slashes .win32 gitEntryPath) tempGitFile) {}
        let mounts :=
          if done.replacedGitFile then done.correctedMounts
          else done.correctedMounts ++ [⟨tempGitFile, gitInSandbox⟩]
        (mounts, files.writeFile platform tempGitFile (overrideText worktreeName))
    | _ => (gitMounts, files)
  else (gitMounts, files)

/-! ### `normalizeMounts` -/

/-- `/^[A-Za-z]:[/\\]/`, or a `\` anywhere. -/
def isWindowsPath (path : List Char) : Bool :=
  Platform.win32.isAbsolute path || path.contains '\\'

def normalizeSandboxPath (worktreeHostPath sandboxRepoDir sandboxPath : List Char) : List Char :=
  let normalizedWorktree := slashes .win32 worktreeHostPath
  if isWindowsPath sandboxPath then
    let normalizedSandboxPath := slashes .win32 sandboxPath
    if (normalizedWorktree ++ ['/']).isPrefixOf normalizedSandboxPath then
      sandboxRepoDir ++ normalizedSandboxPath.drop normalizedWorktree.length
    else if normalizedSandboxPath = normalizedWorktree then sandboxRepoDir
    else normalizedSandboxPath
  else sandboxPath

def normalizeMounts (platform : Platform) (mounts : List MountEntry)
    (worktreeHostPath sandboxRepoDir : List Char) : List MountEntry :=
  if platform = .win32 then
    mounts.map fun m =>
      { hostPath := slashes .win32 m.hostPath
        sandboxPath := normalizeSandboxPath worktreeHostPath sandboxRepoDir m.sandboxPath }
  else mounts

/-! ### The entry points -/

/-- What gives a worktree to a bind-mount provider. -/
inductive EntryPoint where
  | sandboxFactory
  | createSandbox
  | createSandboxFromWorktree
  | worktreeInteractive
  | worktreeRun
  deriving DecidableEq, Repr

/-- What an entry point finds, and the file that `mkdtemp` makes room for. -/
structure Host where
  files : Files
  cwd : List Char
  tempGitFile : List Char
  hostRepoDir : List Char
  worktreePath : List Char

namespace EntryPoint

variable (platform : Platform) (host : Host)

/-- The mounts that the entry point passes to `startSandbox`, and the files then. -/
def gitMounts : EntryPoint → Option (List MountEntry × Files)
  | sandboxFactory =>
    (resolveGitMounts platform host.files host.cwd
        (join platform host.hostRepoDir [".git".toList])).map fun gitMounts =>
      patchGitMountsForWindows platform host.files host.tempGitFile gitMounts host.worktreePath
  | createSandbox | createSandboxFromWorktree =>
    -- here an error leaves no mounts
    let gitMounts := (resolveGitMounts platform host.files host.cwd
      (join platform host.hostRepoDir [".git".toList])).getD []
    some (patchGitMountsForWindows platform host.files host.tempGitFile gitMounts host.worktreePath)
  | worktreeInteractive | worktreeRun =>
    (resolveGitMounts platform host.files host.cwd
        (join platform host.hostRepoDir [".git".toList])).map fun gitMounts =>
      (gitMounts, host.files)

/-- What `startSandbox` makes of them: the mounts that the provider gets. -/
def sandboxMounts (entry : EntryPoint) : Option (List MountEntry × Files) :=
  (entry.gitMounts platform host).map fun (gitMounts, files) =>
    (normalizeMounts platform (⟨host.worktreePath, SANDBOX_REPO_DIR⟩ :: gitMounts)
      host.worktreePath SANDBOX_REPO_DIR, files)

/-- `patchGitMountsForWindows` is called. -/
def patches : EntryPoint → Bool
  | sandboxFactory | createSandbox | createSandboxFromWorktree => true
  | worktreeInteractive | worktreeRun => false

end EntryPoint

end ArchLoop.GitMounts
