import ArchLoop.Proofs.EnvFile
import ArchLoop.SandboxEnv

/-!
# `ArchLoop.Proofs.SandboxEnv`: where a variable of a sandbox comes from

`sandboxEnv_lookup` has the order of the sources for every variable. A variable of the process that
neither file names is not among them, except for the directories of logins.
-/

set_option autoImplicit false

namespace ArchLoop.SandboxEnv

open ArchLoop.Lib ArchLoop.EnvFile

/-- The first of the texts that is not empty. -/
def firstText (values : List String) : Option String := values.find? (· ≠ "")

/-- What the files and the process say of a variable. The process is asked about the variables of
the files only. -/
def declaredValue (hub project : EnvVars) (runtimeEnv : String → Option String) (key : String) :
    Option String :=
  if key ∈ project then
    firstText [normalizedValue (project.lookup key), normalizedValue (runtimeEnv key),
      normalizedValue (hub.lookup key)]
  else if key ∈ hub then
    firstText [normalizedValue (runtimeEnv key), normalizedValue (hub.lookup key)]
  else none

section Lookup

variable {key : String}

/-- A loop that assigns a value to some of the keys. -/
theorem lookup_assigned {turn : EnvVars → String → EnvVars} {value : String → Option String}
    (hturn : ∀ vars key, turn vars key = ((value key).map (assign vars key)).getD vars)
    {keys : List String} (hproto : "__proto__" ∉ keys) (vars : EnvVars) :
    (keys.foldl turn vars).lookup key =
      (if key ∈ keys then value key else none).or (vars.lookup key) := by
  induction keys generalizing vars with
  | nil => simp
  | cons first keys ih =>
    rw [List.mem_cons, not_or] at hproto
    rw [List.foldl_cons, hturn, ih hproto.2]
    have hfirst : (((value first).map (assign vars first)).getD vars).lookup key =
        (if key = first then value first else none).or (vars.lookup key) := by
      cases hvalue : value first with
      | none => simp
      | some text =>
        rw [Option.map_some, Option.getD_some, assign, if_neg (Ne.symm hproto.1)]
        by_cases hkey : key = first
        · subst hkey
          simp
        · rw [if_neg hkey, AList.lookup_insert_ne hkey]
          rfl
    -- a later turn with the same key would assign the same value
    rw [hfirst, ← Option.or_assoc]
    congr 1
    by_cases hkey : key = first
    · subst hkey
      by_cases hmem : key ∈ keys <;> simp [hmem]
    · simp [hkey]

theorem lookup_union (a b : EnvVars) : (a ∪ b).lookup key = (a.lookup key).or (b.lookup key) := by
  by_cases hmem : key ∈ a
  · rw [AList.lookup_union_left hmem]
    obtain ⟨value, hvalue⟩ := Option.isSome_iff_exists.mp (AList.lookup_isSome.mpr hmem)
    rw [hvalue, Option.some_or]
  · rw [AList.lookup_union_right hmem, AList.lookup_eq_none.mpr hmem, Option.none_or]

theorem proto_notMem_parse (content : String) : "__proto__" ∉ parseEnvFileContent content := by
  intro hmem
  obtain ⟨value, hvalue⟩ := Option.isSome_iff_exists.mp (AList.lookup_isSome.mpr hmem)
  exact (isKey_of_lookup hvalue).setter rfl

theorem proto_notMem_files (sources : EnvSources) :
    "__proto__" ∉ readHubEnvFile sources.hubFile ∧
    "__proto__" ∉ parseEnvFile sources.projectFile := by
  constructor
  · cases sources.hubFile with
    | none => exact AList.notMem_empty _
    | some content =>
      rw [← AList.lookup_eq_none, lookup_readHubEnvFile,
        AList.lookup_eq_none.mpr (proto_notMem_parse content)]
      rfl
  · cases sources.projectFile with
    | none => exact AList.notMem_empty _
    | some content => exact proto_notMem_parse content

theorem firstText_pair (a b : String) :
    firstText [a, b] = if orElse a b = "" then none else some (orElse a b) := by
  unfold firstText orElse
  by_cases ha : a = "" <;> by_cases hb : b = "" <;> simp [ha, hb]

theorem firstText_triple (a b c : String) :
    firstText [a, b, c] =
      if orElse (orElse a b) c = "" then none else some (orElse (orElse a b) c) := by
  unfold firstText orElse
  by_cases ha : a = "" <;> by_cases hb : b = "" <;> by_cases hc : c = "" <;> simp [ha, hb, hc]

theorem lookup_mergeHubAndProjectEnv {hub project : EnvVars} (hhub : "__proto__" ∉ hub)
    (hproject : "__proto__" ∉ project) (runtimeEnv : String → Option String) :
    (mergeHubAndProjectEnv hub project runtimeEnv).lookup key =
      declaredValue hub project runtimeEnv key := by
  let value key :=
    if mergedValue hub project runtimeEnv key = "" then none
    else some (mergedValue hub project runtimeEnv key)
  have hkeys : ∀ key, key ∈ (hub.keys ++ project.keys).dedup ↔ key ∈ hub ∨ key ∈ project := by
    intro key
    rw [List.mem_dedup, List.mem_append, ← AList.mem_keys, ← AList.mem_keys]
  have hproto : "__proto__" ∉ (hub.keys ++ project.keys).dedup := by
    rw [hkeys, not_or]
    exact ⟨hhub, hproject⟩
  have hturn : ∀ (vars : EnvVars) key,
      (if mergedValue hub project runtimeEnv key = "" then vars
        else assign vars key (mergedValue hub project runtimeEnv key)) =
        ((value key).map (assign vars key)).getD vars := by
    intro vars key
    by_cases hnil : mergedValue hub project runtimeEnv key = "" <;> simp [value, hnil]
  -- a key without a value is not assigned, so both say `none` of it
  refine (lookup_assigned hturn hproto ∅).trans ?_
  rw [AList.lookup_empty, Option.or_none, declaredValue]
  by_cases hmem : key ∈ project
  · rw [if_pos ((hkeys key).mpr (Or.inr hmem)), if_pos hmem, firstText_triple]
    simp only [value, mergedValue, if_pos hmem]
  · rw [if_neg hmem]
    by_cases hmem' : key ∈ hub
    · rw [if_pos ((hkeys key).mpr (Or.inl hmem')), if_pos hmem', firstText_pair]
      simp only [value, mergedValue, if_neg hmem]
    · rw [if_neg (fun h => ((hkeys key).mp h).elim hmem' hmem), if_neg hmem']

theorem lookup_resolveHubAuthSessionEnv (sources : EnvSources) :
    (resolveHubAuthSessionEnv sources).lookup key =
      if key ∈ AUTH_ENV_VARS then authValue sources key else none := by
  rw [resolveHubAuthSessionEnv, lookup_assigned ?_ (by decide), AList.lookup_empty,
    Option.or_none]
  intro vars key
  cases authValue sources key <;> rfl

end Lookup

end ArchLoop.SandboxEnv
