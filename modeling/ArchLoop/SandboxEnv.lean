import Mathlib.Data.List.Dedup
import ArchLoop.EnvFile

/-!
# `ArchLoop.SandboxEnv`: the variables that an agent gets in a sandbox

`resolveEnv` (`EnvResolver.ts`) takes the variables of the Hub file and of the project's
`.archloop/.env`, with the environment of the process for those that one of the files names. The
directories of logins come from `hubAuth.ts`. `mergeProviderEnv` adds the variables of the agent and
of the sandbox provider, which may not share one.

No file names a member that every object has, like `constructor`.
-/

set_option autoImplicit false

namespace ArchLoop.SandboxEnv

open ArchLoop.Lib ArchLoop.EnvFile

/-- What the variables are taken from.

- `hubFile`, `projectFile`: the texts of the files, where they can be read.
- `runtimeEnv`: `process.env`.
- `authDir`: the Hub directory of the login that a variable stands for, if it has one. -/
structure EnvSources where
  hubFile : Option String
  projectFile : Option String
  runtimeEnv : String → Option String
  authDir : String → Option String

/-- `normalizeHubEnvValue`, of a variable that may be missing. -/
def normalizedValue (value : Option String) : String := (value.map normalizeHubEnvValue).getD ""

/-- `parseEnvFile`. -/
def parseEnvFile (file : Option String) : EnvVars := (file.map parseEnvFileContent).getD ∅

/-- `value || other`. -/
def orElse (value other : String) : String := if value = "" then other else value

/-- The value of a key in the loop of `mergeHubAndProjectEnv`. -/
def mergedValue (hubFileEnv projectFileEnv : EnvVars) (runtimeEnv : String → Option String)
    (key : String) : String :=
  let projectValue := normalizedValue (projectFileEnv.lookup key)
  let hubValue := normalizedValue (hubFileEnv.lookup key)
  let runtimeValue := normalizedValue (runtimeEnv key)
  if key ∈ projectFileEnv then orElse (orElse projectValue runtimeValue) hubValue
  else orElse runtimeValue hubValue

/-- `mergeHubAndProjectEnv`. -/
def mergeHubAndProjectEnv (hubFileEnv projectFileEnv : EnvVars)
    (runtimeEnv : String → Option String) : EnvVars :=
  let allKeys := (hubFileEnv.keys ++ projectFileEnv.keys).dedup
  allKeys.foldl
    (fun resolved key =>
      let value := mergedValue hubFileEnv projectFileEnv runtimeEnv key
      if value = "" then resolved else assign resolved key value) ∅

/-- The `authEnvVar`s of `HUB_AUTH_PROVIDERS`. -/
def AUTH_ENV_VARS : List String := ["CODEX_HOME", "GH_CONFIG_DIR"]

/-- The value of such a variable: that of the process, or the directory of a login. -/
def authValue (sources : EnvSources) (key : String) : Option String :=
  let runtimeValue := normalizedValue (sources.runtimeEnv key)
  if runtimeValue = "" then sources.authDir key else some runtimeValue

/-- `resolveHubAuthSessionEnv`. -/
def resolveHubAuthSessionEnv (sources : EnvSources) : EnvVars :=
  AUTH_ENV_VARS.foldl
    (fun resolved key =>
      match authValue sources key with
      | some value => assign resolved key value
      | none => resolved) ∅

/-- `resolveEnv`. -/
def resolveEnv (sources : EnvSources) : EnvVars :=
  mergeHubAndProjectEnv (readHubEnvFile sources.hubFile) (parseEnvFile sources.projectFile)
    sources.runtimeEnv ∪ resolveHubAuthSessionEnv sources

/-- `mergeProviderEnv`, which throws when the providers share a key. -/
def mergeProviderEnv (resolvedEnv agentProviderEnv sandboxProviderEnv : EnvVars) :
    Option EnvVars :=
  if agentProviderEnv.keys.any (· ∈ sandboxProviderEnv) then none
  else some (agentProviderEnv ∪ (sandboxProviderEnv ∪ resolvedEnv))

end ArchLoop.SandboxEnv
