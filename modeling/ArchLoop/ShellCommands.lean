import ArchLoop.AgentProvider

/-!
# `ArchLoop.ShellCommands`: commands with values in them

The commands that `withSandboxLifecycle` (`SandboxLifecycle.ts`), `syncIn` (`syncIn.ts`) and
`syncOut` (`syncOut.ts`) hand to a shell, on the host or in the sandbox, and those that start an
agent (`buildPrintCommand`). Commands without a value are left out, as are the hooks, which are
commands of the user.
-/

set_option autoImplicit false

namespace ArchLoop.ShellCommands

open ArchLoop.AgentProvider

inductive ShellCommand where
  /-- `withSandboxLifecycle`, before the agent -/
  | addSafeDirectory (sandboxRepoDir : String)
  | setUserName (hostGitName : String)
  | setUserEmail (hostGitEmail : String)
  /-- `withSandboxLifecycle`, behind the agent -/
  | countCommits (baseHead : String)
  | mergeBranch (resolvedBranch : String)
  | deleteBranch (resolvedBranch : String)
  | listCommits (baseHead : String)
  | listBranchCommits (baseHead targetBranch : String)
  /-- `syncIn` -/
  | createBundle (bundleHostPath : String)
  | cloneBundle (bundleSandboxPath worktreePath : String)
  | moveClone (worktreePath : String)
  | checkoutBranch (branch : String)
  | removeDir (sandboxTmpDir : String)
  /-- `syncOut` -/
  | revExists (rev : String)
  | formatPatches (patchBase sandboxPatchDir : String)
  | listPatches (sandboxPatchDir : String)
  | applyMails (firstPatch : String) (morePatches : List String)
  | applyDiff (diffPath : String)
  /-- `buildPrintCommand` -/
  | startAgent (provider : ProviderConfig) (options : AgentCommandOptions)

/-- `replace(/"/g, '\\"')` -/
def escapeQuotes (s : String) : String :=
  String.ofList (s.toList.flatMap fun c => if c = '"' then ['\\', '"'] else [c])

def ShellCommand.text : ShellCommand → String
  | addSafeDirectory sandboxRepoDir =>
    "git config --global --add safe.directory \"" ++ sandboxRepoDir ++ "\""
  | setUserName hostGitName =>
    "git config --global user.name \"" ++ escapeQuotes hostGitName ++ "\""
  | setUserEmail hostGitEmail =>
    "git config --global user.email \"" ++ escapeQuotes hostGitEmail ++ "\""
  | countCommits baseHead => "git rev-list \"" ++ baseHead ++ "..HEAD\" --count"
  | mergeBranch resolvedBranch => "git merge \"" ++ resolvedBranch ++ "\""
  | deleteBranch resolvedBranch => "git branch -D \"" ++ resolvedBranch ++ "\""
  | listCommits baseHead => "git rev-list \"" ++ baseHead ++ "..HEAD\" --reverse"
  | listBranchCommits baseHead targetBranch =>
    "git rev-list \"" ++ baseHead ++ "..refs/heads/" ++ targetBranch ++ "\" --reverse"
  | createBundle bundleHostPath => "git bundle create \"" ++ bundleHostPath ++ "\" --all"
  | cloneBundle bundleSandboxPath worktreePath =>
    "git clone \"" ++ bundleSandboxPath ++ "\" \"" ++ worktreePath ++ "_clone\""
  | moveClone worktreePath =>
    "rm -rf \"" ++ worktreePath ++ "\" && mv \"" ++ worktreePath ++ "_clone\" \"" ++
      worktreePath ++ "\""
  | checkoutBranch branch => "git checkout \"" ++ branch ++ "\""
  | removeDir sandboxTmpDir => "rm -rf \"" ++ sandboxTmpDir ++ "\""
  | revExists rev => "git cat-file -e \"" ++ rev ++ "^\x7bcommit\x7d\""
  | formatPatches patchBase sandboxPatchDir =>
    "git format-patch \"" ++ patchBase ++ "..HEAD\" -o \"" ++ sandboxPatchDir ++ "\""
  | listPatches sandboxPatchDir => "ls -1 \"" ++ sandboxPatchDir ++ "\""
  | applyMails firstPatch morePatches =>
    let patchArgs := " ".intercalate ((firstPatch :: morePatches).map fun p => "\"" ++ p ++ "\"")
    "git am --3way " ++ patchArgs
  | applyDiff diffPath => "git apply \"" ++ diffPath ++ "\""
  | startAgent provider options => (buildPrintCommand provider options).command

/-- What is piped into the command. -/
def ShellCommand.stdin : ShellCommand → Option String
  | startAgent provider options => (buildPrintCommand provider options).stdin
  | _ => none

end ArchLoop.ShellCommands
