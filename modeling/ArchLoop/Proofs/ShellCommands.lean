import ArchLoop.Lib.Shell
import ArchLoop.ShellCommands

/-!
# `ArchLoop.Proofs.ShellCommands`: values stay one word

Each command means a list of arguments, with the values in their places (`intended`). The commands
that start agents escape their values; the others put them between double quotes, where a shell
still acts on `$`, backquotes, quotes and backslashes. `runsAsIntended_iff` says for which values a
POSIX shell reads a command as it is meant: for all of the escaped ones, and for those between
double quotes if and only if they are plain.
-/

set_option autoImplicit false

namespace ArchLoop.ShellCommands

open ArchLoop.Lib.Shell ArchLoop.AgentProvider

/-- The arguments that are meant, with the operators between two commands. -/
def args (texts : List String) : List Step := texts.map fun text => .arg text.toList

def effortArgs (flag : String) (value : Option String) : List String :=
  match value with
  | none => []
  | some text => if text = "" then [] else [flag, text]

def agentArgs (provider : ProviderConfig) (options : AgentCommandOptions) : List String :=
  match provider with
  | .claudeCode model effort =>
    ["claude", "--print", "--verbose"] ++
      (if options.dangerouslySkipPermissions then ["--dangerously-skip-permissions"] else []) ++
      ["--output-format", "stream-json", "--model", model] ++
      effortArgs "--effort" (effort.map (·.text)) ++ effortArgs "--resume" options.resumeSession ++
      ["-p", "-"]
  | .cursor model mode =>
    ["agent", "--print", "--output-format", "stream-json", "--stream-partial-output", "--trust",
      "--model", model] ++ effortArgs "--mode" (mode.map (·.text)) ++
      (if options.dangerouslySkipPermissions then ["--force", "--sandbox", "disabled"] else []) ++
      [options.prompt]
  | .pi model => ["pi", "-p", "--mode", "json", "--no-session", "--model", model]
  | .codex model effort =>
    ["codex", "exec", "--json", "--dangerously-bypass-approvals-and-sandbox", "-m", model] ++
      effortArgs "-c"
        (effort.map fun effort => "model_reasoning_effort=\"" ++ effort.text ++ "\"") ++
      effortArgs "--cd" options.cwd
  | .opencode model variant =>
    ["opencode", "run", "--model", model] ++ effortArgs "--variant" variant ++ [options.prompt]

def intended : ShellCommand → List Step
  | .addSafeDirectory sandboxRepoDir =>
    args ["git", "config", "--global", "--add", "safe.directory", sandboxRepoDir]
  | .setUserName hostGitName => args ["git", "config", "--global", "user.name", hostGitName]
  | .setUserEmail hostGitEmail => args ["git", "config", "--global", "user.email", hostGitEmail]
  | .countCommits baseHead => args ["git", "rev-list", baseHead ++ "..HEAD", "--count"]
  | .mergeBranch resolvedBranch => args ["git", "merge", resolvedBranch]
  | .deleteBranch resolvedBranch => args ["git", "branch", "-D", resolvedBranch]
  | .listCommits baseHead => args ["git", "rev-list", baseHead ++ "..HEAD", "--reverse"]
  | .listBranchCommits baseHead targetBranch =>
    args ["git", "rev-list", baseHead ++ "..refs/heads/" ++ targetBranch, "--reverse"]
  | .createBundle bundleHostPath => args ["git", "bundle", "create", bundleHostPath, "--all"]
  | .cloneBundle bundleSandboxPath worktreePath =>
    args ["git", "clone", bundleSandboxPath, worktreePath ++ "_clone"]
  | .moveClone worktreePath =>
    args ["rm", "-rf", worktreePath] ++ [.op '&', .op '&'] ++
      args ["mv", worktreePath ++ "_clone", worktreePath]
  | .checkoutBranch branch => args ["git", "checkout", branch]
  | .removeDir sandboxTmpDir => args ["rm", "-rf", sandboxTmpDir]
  | .revExists rev => args ["git", "cat-file", "-e", rev ++ "^\x7bcommit\x7d"]
  | .formatPatches patchBase sandboxPatchDir =>
    args ["git", "format-patch", patchBase ++ "..HEAD", "-o", sandboxPatchDir]
  | .listPatches sandboxPatchDir => args ["ls", "-1", sandboxPatchDir]
  | .applyMails firstPatch morePatches =>
    args (["git", "am", "--3way"] ++ firstPatch :: morePatches)
  | .applyDiff diffPath => args ["git", "apply", diffPath]
  | .startAgent provider options => args (agentArgs provider options)

/-- A POSIX shell runs the command as it is meant, and gives it its input. -/
def RunsAsIntended (command : ShellCommand) : Prop :=
  steps (command.stdin.map String.toList) command.text.toList = some (intended command)

/-- The value may stand between double quotes: it has no quote, no backquote, no `$` that starts an
expansion, and no backslash that escapes what is behind it. -/
def isPlain (value : String) : Bool := plainFrom false false value.toList

def isPlainButQuotes (value : String) : Bool := plainFrom true false value.toList

/-- The values of the command are plain where they have to be. -/
def HasPlainValues : ShellCommand → Prop
  | .addSafeDirectory sandboxRepoDir => isPlain sandboxRepoDir
  | .setUserName hostGitName => isPlainButQuotes hostGitName
  | .setUserEmail hostGitEmail => isPlainButQuotes hostGitEmail
  | .countCommits baseHead | .listCommits baseHead => isPlain (baseHead ++ "..HEAD")
  | .mergeBranch resolvedBranch | .deleteBranch resolvedBranch => isPlain resolvedBranch
  | .listBranchCommits baseHead targetBranch =>
    isPlain (baseHead ++ "..refs/heads/" ++ targetBranch)
  | .createBundle bundleHostPath => isPlain bundleHostPath
  | .cloneBundle bundleSandboxPath worktreePath =>
    isPlain bundleSandboxPath ∧ isPlain (worktreePath ++ "_clone")
  | .moveClone worktreePath => isPlain worktreePath ∧ isPlain (worktreePath ++ "_clone")
  | .checkoutBranch branch => isPlain branch
  | .removeDir sandboxTmpDir => isPlain sandboxTmpDir
  | .revExists rev => isPlain (rev ++ "^\x7bcommit\x7d")
  | .formatPatches patchBase sandboxPatchDir =>
    isPlain (patchBase ++ "..HEAD") ∧ isPlain sandboxPatchDir
  | .listPatches sandboxPatchDir => isPlain sandboxPatchDir
  | .applyMails firstPatch morePatches => ∀ patch ∈ firstPatch :: morePatches, isPlain patch
  | .applyDiff diffPath => isPlain diffPath
  -- The prompt of Cursor is the output of `cat`.
  | .startAgent (.cursor _ _) options => ¬ ∃ front, options.prompt.toList = front ++ ['\n']
  | .startAgent _ _ => True

/-! ### Commands as parts -/

theorem runsAsIntended_of_parts {command : ShellCommand} (stdin : Option (List Char))
    (parts : List (Part stdin)) (hstdin : command.stdin.map String.toList = stdin)
    (htext : command.text.toList = join parts)
    (hmeaning : intended command = parts.flatMap (·.meaning)) :
    RunsAsIntended command ↔ ∀ part ∈ parts, part.ok := by
  subst hstdin
  unfold RunsAsIntended
  rw [htext, hmeaning]
  exact steps_join_iff parts

theorem addSafeDirectory_iff (sandboxRepoDir : String) :
    RunsAsIntended (.addSafeDirectory sandboxRepoDir) ↔
      HasPlainValues (.addSafeDirectory sandboxRepoDir) := by
  refine (runsAsIntended_of_parts none [.bare "git".toList (by decide),
    .bare "config".toList (by decide), .bare "--global".toList (by decide),
    .bare "--add".toList (by decide), .bare "safe.directory".toList (by decide),
    .double false sandboxRepoDir.toList] rfl ?_ ?_).trans ?_
  · dsimp only [ShellCommand.text]
    simp [join]
  · simp [intended, args]
  · simp [HasPlainValues, isPlain]

theorem setUserName_iff (hostGitName : String) :
    RunsAsIntended (.setUserName hostGitName) ↔ HasPlainValues (.setUserName hostGitName) := by
  refine (runsAsIntended_of_parts none [.bare "git".toList (by decide),
    .bare "config".toList (by decide), .bare "--global".toList (by decide),
    .bare "user.name".toList (by decide), .double true hostGitName.toList] rfl ?_ ?_).trans ?_
  · dsimp only [ShellCommand.text]
    simp [join, escapeQuotes, content]
  · simp [intended, args]
  · simp [HasPlainValues, isPlainButQuotes]

theorem setUserEmail_iff (hostGitEmail : String) :
    RunsAsIntended (.setUserEmail hostGitEmail) ↔ HasPlainValues (.setUserEmail hostGitEmail) := by
  refine (runsAsIntended_of_parts none [.bare "git".toList (by decide),
    .bare "config".toList (by decide), .bare "--global".toList (by decide),
    .bare "user.email".toList (by decide), .double true hostGitEmail.toList] rfl ?_ ?_).trans ?_
  · dsimp only [ShellCommand.text]
    simp [join, escapeQuotes, content]
  · simp [intended, args]
  · simp [HasPlainValues, isPlainButQuotes]

theorem countCommits_iff (baseHead : String) :
    RunsAsIntended (.countCommits baseHead) ↔ HasPlainValues (.countCommits baseHead) := by
  refine (runsAsIntended_of_parts none [.bare "git".toList (by decide),
    .bare "rev-list".toList (by decide), .double false (baseHead ++ "..HEAD").toList,
    .bare "--count".toList (by decide)] rfl ?_ ?_).trans ?_
  · dsimp only [ShellCommand.text]
    simp [join]
  · simp [intended, args]
  · simp [HasPlainValues, isPlain]

theorem mergeBranch_iff (resolvedBranch : String) :
    RunsAsIntended (.mergeBranch resolvedBranch) ↔
      HasPlainValues (.mergeBranch resolvedBranch) := by
  refine (runsAsIntended_of_parts none [.bare "git".toList (by decide),
    .bare "merge".toList (by decide), .double false resolvedBranch.toList] rfl ?_ ?_).trans ?_
  · dsimp only [ShellCommand.text]
    simp [join]
  · simp [intended, args]
  · simp [HasPlainValues, isPlain]

theorem deleteBranch_iff (resolvedBranch : String) :
    RunsAsIntended (.deleteBranch resolvedBranch) ↔
      HasPlainValues (.deleteBranch resolvedBranch) := by
  refine (runsAsIntended_of_parts none [.bare "git".toList (by decide),
    .bare "branch".toList (by decide), .bare "-D".toList (by decide),
    .double false resolvedBranch.toList] rfl ?_ ?_).trans ?_
  · dsimp only [ShellCommand.text]
    simp [join]
  · simp [intended, args]
  · simp [HasPlainValues, isPlain]

theorem listCommits_iff (baseHead : String) :
    RunsAsIntended (.listCommits baseHead) ↔ HasPlainValues (.listCommits baseHead) := by
  refine (runsAsIntended_of_parts none [.bare "git".toList (by decide),
    .bare "rev-list".toList (by decide), .double false (baseHead ++ "..HEAD").toList,
    .bare "--reverse".toList (by decide)] rfl ?_ ?_).trans ?_
  · dsimp only [ShellCommand.text]
    simp [join]
  · simp [intended, args]
  · simp [HasPlainValues, isPlain]

theorem listBranchCommits_iff (baseHead targetBranch : String) :
    RunsAsIntended (.listBranchCommits baseHead targetBranch) ↔
      HasPlainValues (.listBranchCommits baseHead targetBranch) := by
  refine (runsAsIntended_of_parts none [.bare "git".toList (by decide),
    .bare "rev-list".toList (by decide),
    .double false (baseHead ++ "..refs/heads/" ++ targetBranch).toList,
    .bare "--reverse".toList (by decide)] rfl ?_ ?_).trans ?_
  · dsimp only [ShellCommand.text]
    simp [join]
  · simp [intended, args]
  · simp [HasPlainValues, isPlain]

theorem createBundle_iff (bundleHostPath : String) :
    RunsAsIntended (.createBundle bundleHostPath) ↔
      HasPlainValues (.createBundle bundleHostPath) := by
  refine (runsAsIntended_of_parts none [.bare "git".toList (by decide),
    .bare "bundle".toList (by decide), .bare "create".toList (by decide),
    .double false bundleHostPath.toList, .bare "--all".toList (by decide)] rfl ?_ ?_).trans ?_
  · dsimp only [ShellCommand.text]
    simp [join]
  · simp [intended, args]
  · simp [HasPlainValues, isPlain]

theorem cloneBundle_iff (bundleSandboxPath worktreePath : String) :
    RunsAsIntended (.cloneBundle bundleSandboxPath worktreePath) ↔
      HasPlainValues (.cloneBundle bundleSandboxPath worktreePath) := by
  refine (runsAsIntended_of_parts none [.bare "git".toList (by decide),
    .bare "clone".toList (by decide), .double false bundleSandboxPath.toList,
    .double false (worktreePath ++ "_clone").toList] rfl ?_ ?_).trans ?_
  · dsimp only [ShellCommand.text]
    simp [join]
  · simp [intended, args]
  · simp [HasPlainValues, isPlain]

theorem moveClone_iff (worktreePath : String) :
    RunsAsIntended (.moveClone worktreePath) ↔ HasPlainValues (.moveClone worktreePath) := by
  refine (runsAsIntended_of_parts none [.bare "rm".toList (by decide),
    .bare "-rf".toList (by decide),
    .double false worktreePath.toList, .andThen, .bare "mv".toList (by decide),
    .double false (worktreePath ++ "_clone").toList,
    .double false worktreePath.toList] rfl ?_ ?_).trans ?_
  · dsimp only [ShellCommand.text]
    simp [join]
  · simp [intended, args]
  · simp [HasPlainValues, isPlain]
    tauto

theorem checkoutBranch_iff (branch : String) :
    RunsAsIntended (.checkoutBranch branch) ↔ HasPlainValues (.checkoutBranch branch) := by
  refine (runsAsIntended_of_parts none [.bare "git".toList (by decide),
    .bare "checkout".toList (by decide), .double false branch.toList] rfl ?_ ?_).trans ?_
  · dsimp only [ShellCommand.text]
    simp [join]
  · simp [intended, args]
  · simp [HasPlainValues, isPlain]

theorem removeDir_iff (sandboxTmpDir : String) :
    RunsAsIntended (.removeDir sandboxTmpDir) ↔ HasPlainValues (.removeDir sandboxTmpDir) := by
  refine (runsAsIntended_of_parts none [.bare "rm".toList (by decide),
    .bare "-rf".toList (by decide),
    .double false sandboxTmpDir.toList] rfl ?_ ?_).trans ?_
  · dsimp only [ShellCommand.text]
    simp [join]
  · simp [intended, args]
  · simp [HasPlainValues, isPlain]

theorem revExists_iff (rev : String) :
    RunsAsIntended (.revExists rev) ↔ HasPlainValues (.revExists rev) := by
  refine (runsAsIntended_of_parts none [.bare "git".toList (by decide),
    .bare "cat-file".toList (by decide), .bare "-e".toList (by decide),
    .double false (rev ++ "^\x7bcommit\x7d").toList] rfl ?_ ?_).trans ?_
  · dsimp only [ShellCommand.text]
    simp [join]
  · simp [intended, args]
  · simp [HasPlainValues, isPlain]

theorem formatPatches_iff (patchBase sandboxPatchDir : String) :
    RunsAsIntended (.formatPatches patchBase sandboxPatchDir) ↔
      HasPlainValues (.formatPatches patchBase sandboxPatchDir) := by
  refine (runsAsIntended_of_parts none [.bare "git".toList (by decide),
    .bare "format-patch".toList (by decide), .double false (patchBase ++ "..HEAD").toList,
    .bare "-o".toList (by decide), .double false sandboxPatchDir.toList] rfl ?_ ?_).trans ?_
  · dsimp only [ShellCommand.text]
    simp [join]
  · simp [intended, args]
  · simp [HasPlainValues, isPlain]

theorem listPatches_iff (sandboxPatchDir : String) :
    RunsAsIntended (.listPatches sandboxPatchDir) ↔
      HasPlainValues (.listPatches sandboxPatchDir) := by
  refine (runsAsIntended_of_parts none [.bare "ls".toList (by decide),
    .bare "-1".toList (by decide),
    .double false sandboxPatchDir.toList] rfl ?_ ?_).trans ?_
  · dsimp only [ShellCommand.text]
    simp [join]
  · simp [intended, args]
  · simp [HasPlainValues, isPlain]

theorem applyDiff_iff (diffPath : String) :
    RunsAsIntended (.applyDiff diffPath) ↔ HasPlainValues (.applyDiff diffPath) := by
  refine (runsAsIntended_of_parts none [.bare "git".toList (by decide),
    .bare "apply".toList (by decide), .double false diffPath.toList] rfl ?_ ?_).trans ?_
  · dsimp only [ShellCommand.text]
    simp [join]
  · simp [intended, args]
  · simp [HasPlainValues, isPlain]

theorem intercalate_quoted (first : String) (others : List String) :
    (" ".intercalate ((first :: others).map fun p => "\"" ++ p ++ "\"")).toList =
      join ((first :: others).map fun p => Part.double false p.toList) := by
  induction others generalizing first with
  | nil => simp [join]
  | cons second others ih =>
    have hjoin : join ((first :: second :: others).map fun p => Part.double false p.toList) =
        (Part.double false first.toList).text ++ ' ' ::
          join ((second :: others).map fun p => Part.double false p.toList) := rfl
    rw [hjoin, ← ih]
    simp [String.intercalate_cons_cons]

theorem applyMails_iff (firstPatch : String) (morePatches : List String) :
    RunsAsIntended (.applyMails firstPatch morePatches) ↔
      HasPlainValues (.applyMails firstPatch morePatches) := by
  refine (runsAsIntended_of_parts none (.bare "git".toList (by decide) ::
    .bare "am".toList (by decide) :: .bare "--3way".toList (by decide) ::
      (firstPatch :: morePatches).map fun p => Part.double false p.toList) rfl ?_ ?_).trans ?_
  · dsimp only [ShellCommand.text]
    rw [String.toList_append, intercalate_quoted]
    simp [join]
  · simp [intended, args, List.flatMap_map]
    exact List.map_eq_flatMap
  · simp [HasPlainValues, isPlain]

/-! ### Starting an agent -/

section Flags

variable {stdin : Option (List Char)}

theorem toList_shellEscape (s : String) : (shellEscape s).toList = Part.singleQuoted s.toList := by
  simp [shellEscape, Part.singleQuoted]

def flagParts (flag : List Char) (h : (!flag.isEmpty && flag.all Part.isBare) = true)
    (value : Option String) : List (Part stdin) :=
  match value with
  | none => []
  | some text => if text = "" then [] else [.bare flag h, .single text.toList]

theorem toList_flagFor {head : String} (flag : String) (h) (value : Option String)
    (hhead : head.toList = ' ' :: flag.toList ++ [' ']) :
    (flagFor value (head ++ shellEscape ·)).toList =
      behind (@flagParts stdin flag.toList h value) := by
  cases value with
  | none => rfl
  | some text =>
    by_cases htext : text = ""
    · simp [flagFor, flagParts, htext, behind]
    · simp [flagFor, flagParts, htext, behind, toList_shellEscape, hhead]

theorem meaning_flagParts (flag : String) (h) (value : Option String) :
    (@flagParts stdin flag.toList h value).flatMap (·.meaning) = args (effortArgs flag value) := by
  cases value with
  | none => rfl
  | some text =>
    by_cases htext : text = "" <;> simp [flagParts, effortArgs, args, htext]

theorem ok_flagParts (flag : String) (h) (value : Option String) :
    ∀ part ∈ @flagParts stdin flag.toList h value, part.ok := by
  cases value with
  | none => simp [flagParts]
  | some text =>
    by_cases htext : text = "" <;> simp [flagParts, htext]

end Flags

theorem opencode_runs (model : String) (variant : Option String) (options : AgentCommandOptions) :
    RunsAsIntended (.startAgent (.opencode model variant) options) := by
  have hflag : (flagFor variant (" --variant " ++ shellEscape ·)).toList =
      behind (@flagParts none "--variant".toList (by decide) variant) :=
    toList_flagFor "--variant" _ variant (by simp)
  refine (runsAsIntended_of_parts none (.bare "opencode".toList (by decide) ::
    ([.bare "run".toList (by decide), .bare "--model".toList (by decide), .single model.toList] ++
      flagParts "--variant".toList (by decide) variant ++ [.single options.prompt.toList]))
      rfl ?_ ?_).mpr ?_
  · dsimp only [ShellCommand.text, buildPrintCommand]
    rw [join_cons, behind_append, behind_append, ← hflag]
    simp [behind, toList_shellEscape]
  · rw [List.flatMap_cons, List.flatMap_append, List.flatMap_append, meaning_flagParts]
    simp [intended, agentArgs, args]
  · simp only [List.forall_mem_cons, List.forall_mem_append]
    exact ⟨trivial, ⟨by simp, ok_flagParts _ _ _⟩, by simp⟩

theorem pi_runs (model : String) (options : AgentCommandOptions) :
    RunsAsIntended (.startAgent (.pi model) options) := by
  refine (runsAsIntended_of_parts (some options.prompt.toList) [.bare "pi".toList (by decide),
    .bare "-p".toList (by decide), .bare "--mode".toList (by decide),
    .bare "json".toList (by decide), .bare "--no-session".toList (by decide),
    .bare "--model".toList (by decide), .single model.toList] rfl ?_ ?_).mpr ?_
  · dsimp only [ShellCommand.text, buildPrintCommand]
    simp [join, toList_shellEscape]
  · simp [intended, agentArgs, args]
  · simp

theorem codexEffort_text_ne (effort : CodexEffort) : effort.text ≠ "" := by
  cases effort <;> decide

theorem toList_effortFlag {stdin : Option (List Char)} (effort : Option CodexEffort) :
    (flagFor (effort.map (·.text)) fun effort =>
      " -c " ++ shellEscape ("model_reasoning_effort=\"" ++ effort ++ "\"")).toList =
        behind (@flagParts stdin "-c".toList (by decide)
          (effort.map fun effort => "model_reasoning_effort=\"" ++ effort.text ++ "\"")) := by
  cases effort with
  | none => rfl
  | some effort =>
    have hne : "model_reasoning_effort=\"" ++ effort.text ++ "\"" ≠ "" := by
      intro h
      have hlist := congrArg String.toList h
      simp at hlist
    simp only [Option.map_some, flagFor, flagParts, if_neg (codexEffort_text_ne effort), if_neg hne]
    simp [behind, toList_shellEscape]

theorem codex_runs (model : String) (effort : Option CodexEffort) (options : AgentCommandOptions) :
    RunsAsIntended (.startAgent (.codex model effort) options) := by
  have hcd : (flagFor options.cwd (" --cd " ++ shellEscape ·)).toList =
      behind (@flagParts (some options.prompt.toList) "--cd".toList (by decide) options.cwd) :=
    toList_flagFor "--cd" _ options.cwd (by simp)
  have heffort : (flagFor (effort.map (·.text)) fun effort =>
      " -c " ++ shellEscape ("model_reasoning_effort=\"" ++ effort ++ "\"")).toList =
        behind (@flagParts (some options.prompt.toList) "-c".toList (by decide)
          (effort.map fun effort => "model_reasoning_effort=\"" ++ effort.text ++ "\"")) :=
    toList_effortFlag effort
  refine (runsAsIntended_of_parts (some options.prompt.toList) (.bare "codex".toList (by decide) ::
    ([.bare "exec".toList (by decide), .bare "--json".toList (by decide),
      .bare "--dangerously-bypass-approvals-and-sandbox".toList (by decide),
      .bare "-m".toList (by decide), .single model.toList] ++
      flagParts "-c".toList (by decide)
        (effort.map fun effort => "model_reasoning_effort=\"" ++ effort.text ++ "\"") ++
      flagParts "--cd".toList (by decide) options.cwd)) rfl ?_ ?_).mpr ?_
  · dsimp only [ShellCommand.text, buildPrintCommand]
    rw [join_cons, behind_append, behind_append, ← hcd, ← heffort]
    simp [behind, toList_shellEscape]
  · rw [List.flatMap_cons, List.flatMap_append, List.flatMap_append, meaning_flagParts,
      meaning_flagParts]
    simp [intended, agentArgs, args]
  · simp only [List.forall_mem_cons, List.forall_mem_append]
    exact ⟨trivial, ⟨by simp, ok_flagParts _ _ _⟩, ok_flagParts _ _ _⟩

theorem claudeCodeEffort_bare (effort : ClaudeCodeEffort) :
    (!effort.text.toList.isEmpty && effort.text.toList.all Part.isBare) = true := by
  cases effort <;> decide

/-- The effort of Claude Code, which is not escaped. -/
def effortParts {stdin : Option (List Char)} (effort : Option ClaudeCodeEffort) :
    List (Part stdin) :=
  match effort with
  | none => []
  | some effort =>
    [.bare "--effort".toList (by decide), .bare effort.text.toList (claudeCodeEffort_bare effort)]

theorem claudeCodeEffort_text_ne (effort : ClaudeCodeEffort) : effort.text ≠ "" := by
  cases effort <;> decide

theorem toList_claudeEffortFlag {stdin : Option (List Char)} (effort : Option ClaudeCodeEffort) :
    (flagFor (effort.map (·.text)) (" --effort " ++ ·)).toList =
      behind (@effortParts stdin effort) := by
  cases effort with
  | none => rfl
  | some effort =>
    simp only [Option.map_some, flagFor, if_neg (claudeCodeEffort_text_ne effort)]
    simp [behind, effortParts]

theorem meaning_effortParts {stdin : Option (List Char)} (effort : Option ClaudeCodeEffort) :
    (@effortParts stdin effort).flatMap (·.meaning) =
      args (effortArgs "--effort" (effort.map (·.text))) := by
  cases effort with
  | none => rfl
  | some effort =>
    simp only [Option.map_some, effortArgs, if_neg (claudeCodeEffort_text_ne effort)]
    simp [effortParts, args]

theorem ok_effortParts {stdin : Option (List Char)} (effort : Option ClaudeCodeEffort) :
    ∀ part ∈ @effortParts stdin effort, part.ok := by
  cases effort <;> simp [effortParts]

theorem claudeCode_runs (model : String) (effort : Option ClaudeCodeEffort)
    (options : AgentCommandOptions) :
    RunsAsIntended (.startAgent (.claudeCode model effort) options) := by
  have hresume : (flagFor options.resumeSession (" --resume " ++ shellEscape ·)).toList =
      behind (@flagParts (some options.prompt.toList) "--resume".toList (by decide)
        options.resumeSession) :=
    toList_flagFor "--resume" _ options.resumeSession (by simp)
  have heffort := @toList_claudeEffortFlag (some options.prompt.toList) effort
  refine (runsAsIntended_of_parts (some options.prompt.toList) (.bare "claude".toList (by decide) ::
    ([.bare "--print".toList (by decide), .bare "--verbose".toList (by decide)] ++
      ((if options.dangerouslySkipPermissions then
        [.bare "--dangerously-skip-permissions".toList (by decide)] else []) ++
      ([.bare "--output-format".toList (by decide), .bare "stream-json".toList (by decide),
        .bare "--model".toList (by decide), .single model.toList] ++
      (effortParts effort ++ (flagParts "--resume".toList (by decide) options.resumeSession ++
        [.bare "-p".toList (by decide), .bare "-".toList (by decide)])))))) rfl ?_ ?_).mpr ?_
  · dsimp only [ShellCommand.text, buildPrintCommand]
    rw [join_cons, behind_append, behind_append, behind_append, behind_append, behind_append,
      ← hresume, ← heffort]
    cases options.dangerouslySkipPermissions <;> simp [behind, toList_shellEscape]
  · rw [List.flatMap_cons, List.flatMap_append, List.flatMap_append, List.flatMap_append,
      List.flatMap_append, List.flatMap_append, meaning_flagParts, meaning_effortParts]
    cases hskip : options.dangerouslySkipPermissions <;> simp [intended, agentArgs, args, hskip]
  · simp only [List.forall_mem_cons, List.forall_mem_append]
    refine ⟨trivial, by simp, ?_, by simp, ok_effortParts effort, ok_flagParts _ _ _, by simp⟩
    cases options.dangerouslySkipPermissions <;> simp

theorem withoutBreaks_iff (prompt : List Char) :
    withoutBreaks prompt = prompt ↔ ¬ ∃ front, prompt = front ++ ['\n'] := by
  unfold withoutBreaks
  rw [List.rdropWhile_eq_self_iff]
  constructor
  · rintro h ⟨front, rfl⟩
    exact h (by simp) (by simp)
  · intro h hne hlast
    have hbreak : prompt.getLast hne = '\n' := of_decide_eq_true hlast
    exact h ⟨prompt.dropLast, by rw [← hbreak, List.dropLast_append_getLast hne]⟩

theorem cursor_iff (model : String) (mode : Option CursorMode) (options : AgentCommandOptions) :
    RunsAsIntended (.startAgent (.cursor model mode) options) ↔
      HasPlainValues (.startAgent (.cursor model mode) options) := by
  have hmode : (flagFor (mode.map (·.text)) (" --mode " ++ shellEscape ·)).toList =
      behind (@flagParts (some options.prompt.toList) "--mode".toList (by decide)
        (mode.map (·.text))) :=
    toList_flagFor "--mode" _ _ (by simp)
  refine (runsAsIntended_of_parts (some options.prompt.toList) (.bare "agent".toList (by decide) ::
    ([.bare "--print".toList (by decide), .bare "--output-format".toList (by decide),
      .bare "stream-json".toList (by decide), .bare "--stream-partial-output".toList (by decide),
      .bare "--trust".toList (by decide), .bare "--model".toList (by decide),
      .single model.toList] ++
      (flagParts "--mode".toList (by decide) (mode.map (·.text)) ++
      ((if options.dangerouslySkipPermissions then
        [.bare "--force".toList (by decide), .bare "--sandbox".toList (by decide),
          .bare "disabled".toList (by decide)] else []) ++
        [.input options.prompt.toList])))) rfl ?_ ?_).trans ?_
  · dsimp only [ShellCommand.text, buildPrintCommand]
    rw [join_cons, behind_append, behind_append, behind_append, ← hmode]
    cases options.dangerouslySkipPermissions <;> simp [behind, toList_shellEscape]
  · rw [List.flatMap_cons, List.flatMap_append, List.flatMap_append, List.flatMap_append,
      meaning_flagParts]
    cases hskip : options.dangerouslySkipPermissions <;> simp [intended, agentArgs, args, hskip]
  · simp only [List.forall_mem_cons, List.forall_mem_append]
    have hinput : (Part.input options.prompt.toList).ok ↔
        HasPlainValues (.startAgent (.cursor model mode) options) :=
      withoutBreaks_iff options.prompt.toList
    rw [← hinput]
    constructor
    · rintro ⟨-, -, -, -, hok, -⟩
      exact hok
    · intro hok
      refine ⟨trivial, by simp, ok_flagParts _ _ _, ?_, hok, by simp⟩
      cases options.dangerouslySkipPermissions <;> simp

/-- A POSIX shell reads a command as it is meant if and only if its values are plain where they
have to be. -/
theorem runsAsIntended_iff (command : ShellCommand) :
    RunsAsIntended command ↔ HasPlainValues command := by
  cases command with
  | addSafeDirectory sandboxRepoDir => exact addSafeDirectory_iff sandboxRepoDir
  | setUserName hostGitName => exact setUserName_iff hostGitName
  | setUserEmail hostGitEmail => exact setUserEmail_iff hostGitEmail
  | countCommits baseHead => exact countCommits_iff baseHead
  | mergeBranch resolvedBranch => exact mergeBranch_iff resolvedBranch
  | deleteBranch resolvedBranch => exact deleteBranch_iff resolvedBranch
  | listCommits baseHead => exact listCommits_iff baseHead
  | listBranchCommits baseHead targetBranch => exact listBranchCommits_iff baseHead targetBranch
  | createBundle bundleHostPath => exact createBundle_iff bundleHostPath
  | cloneBundle bundleSandboxPath worktreePath =>
    exact cloneBundle_iff bundleSandboxPath worktreePath
  | moveClone worktreePath => exact moveClone_iff worktreePath
  | checkoutBranch branch => exact checkoutBranch_iff branch
  | removeDir sandboxTmpDir => exact removeDir_iff sandboxTmpDir
  | revExists rev => exact revExists_iff rev
  | formatPatches patchBase sandboxPatchDir => exact formatPatches_iff patchBase sandboxPatchDir
  | listPatches sandboxPatchDir => exact listPatches_iff sandboxPatchDir
  | applyMails firstPatch morePatches => exact applyMails_iff firstPatch morePatches
  | applyDiff diffPath => exact applyDiff_iff diffPath
  | startAgent provider options =>
    cases provider with
    | claudeCode model effort => exact iff_of_true (claudeCode_runs model effort options) trivial
    | cursor model mode => exact cursor_iff model mode options
    | pi model => exact iff_of_true (pi_runs model options) trivial
    | codex model effort => exact iff_of_true (codex_runs model effort options) trivial
    | opencode model variant => exact iff_of_true (opencode_runs model variant options) trivial

/-- The shell runs what the name of a branch holds between `$(` and `)`. -/
theorem branch_is_run : ¬ ∀ command, RunsAsIntended command := by
  intro h
  have hplain := h (.mergeBranch "$(reboot)")
  have hactive : steps none (ShellCommand.mergeBranch "$(reboot)").text.toList = none := by
    decide +kernel
  have hsteps : steps none (ShellCommand.mergeBranch "$(reboot)").text.toList =
      some (intended (.mergeBranch "$(reboot)")) := hplain
  rw [hactive] at hsteps
  cases hsteps

end ArchLoop.ShellCommands
