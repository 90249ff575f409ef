import ArchLoop.ProjectRegistry
import Mathlib.Data.List.Nodup

/-!
# When the project registry keeps its projects

A write replaces the whole file by what its call made of the projects that it read. `Keeps` is
what the file has to keep, and `Distinct` what makes the projects of it different ones.
`RegistryCall.prepare_keeps` says that a call keeps both, as long as it writes into the registry
that it read and all entries of it can be read. `registry_keeps` is the same for whole runs of
several processes.

The file does not see to that. `crashed_write_loses` and the conditions of `Careful` show the ways
in which projects get lost.
-/

set_option autoImplicit false

namespace ArchLoop.ProjectRegistry

open ArchLoop.Lib ArchLoop.Lib.JsonText

/-! ### Reading what was written -/

def PlainText (text : String) : Prop := trim text = text ∧ text ≠ ""

/-- An entry that comes back from the file as it is. -/
structure PlainEntry (entry : HubProjectRegistryEntry) : Prop where
  id : PlainText entry.id
  name : PlainText entry.name
  repoRoot : PlainText entry.repoRoot
  hubProjectDir : PlainText entry.hubProjectDir
  projectProfile : PlainText entry.projectProfile
  createdAt : PlainText entry.createdAt
  updatedAt : PlainText entry.updatedAt

theorem plainText_trim {text : String} (h : trim text ≠ "") : PlainText (trim text) :=
  ⟨trim_trim text, h⟩

theorem plainText_of_readString {record : Value} {key text : String}
    (h : readString record key = some text) : PlainText text := by
  obtain ⟨found, -, h⟩ := Option.bind_eq_some_iff.mp h
  split at h
  · cases h
  · rename_i hne
    cases h
    exact plainText_trim hne

theorem plainEntry_of_read {value : Value} {entry : HubProjectRegistryEntry}
    (h : readProjectRegistryEntry value = some entry) : PlainEntry entry := by
  unfold readProjectRegistryEntry at h
  obtain ⟨id, hid, h⟩ := Option.bind_eq_some_iff.mp h
  obtain ⟨name, hname, h⟩ := Option.bind_eq_some_iff.mp h
  obtain ⟨repoRoot, hroot, h⟩ := Option.bind_eq_some_iff.mp h
  obtain ⟨hubProjectDir, hdir, h⟩ := Option.bind_eq_some_iff.mp h
  obtain ⟨projectProfile, hprofile, h⟩ := Option.bind_eq_some_iff.mp h
  obtain ⟨createdAt, hcreated, h⟩ := Option.bind_eq_some_iff.mp h
  obtain ⟨updatedAt, hupdated, h⟩ := Option.bind_eq_some_iff.mp h
  cases h
  exact ⟨plainText_of_readString hid, plainText_of_readString hname,
    plainText_of_readString hroot, plainText_of_readString hdir,
    plainText_of_readString hprofile, plainText_of_readString hcreated,
    plainText_of_readString hupdated⟩

theorem plainEntry_of_mem {file : FileContent} {entry : HubProjectRegistryEntry}
    (h : entry ∈ readRegistryState file) : PlainEntry entry := by
  obtain ⟨item, -, hread⟩ := List.mem_filterMap.mp h
  exact plainEntry_of_read hread

theorem readProjectRegistryEntry_members {entry : HubProjectRegistryEntry}
    (h : PlainEntry entry) : readProjectRegistryEntry (.object entry.members) = some entry := by
  have htext : ∀ {key text : String}, PlainText text →
      (Value.object entry.members).get key = some (.string text) →
      readString (.object entry.members) key = some text := by
    rintro key text ⟨htrim, hne⟩ hget
    unfold readString
    rw [hget]
    show (if trim text = "" then none else some (trim text)) = some text
    rw [htrim, if_neg hne]
  unfold readProjectRegistryEntry
  rw [htext h.id rfl, htext h.name rfl, htext h.repoRoot rfl, htext h.hubProjectDir rfl,
    htext h.projectProfile rfl, htext h.createdAt rfl, htext h.updatedAt rfl]
  rfl

theorem printable_registryValue (projects : List HubProjectRegistryEntry) :
    Printable (registryValue projects) := by
  show PrintableMembers _
  have hitems : Printable (.array (projects.map fun entry => .object entry.members)) := by
    refine printableItems_iff.mpr ?_
    intro item hitem
    obtain ⟨entry, -, rfl⟩ := List.mem_map.mp hitem
    show PrintableMembers entry.members
    simp [HubProjectRegistryEntry.members, PrintableMembers, Printable]
  exact ⟨isNumber_decimal 1, hitems, trivial⟩

theorem registryItems_registryContent (projects : List HubProjectRegistryEntry) :
    registryItems (some (registryContent projects)) =
      some (projects.map fun entry => .object entry.members) := by
  unfold registryItems registryContent
  rw [Option.bind_some, Utf8.decode_encode, parse_pretty (printable_registryValue projects)]
  rfl

theorem readRegistryState_registryContent {projects : List HubProjectRegistryEntry}
    (h : ∀ entry ∈ projects, PlainEntry entry) :
    readRegistryState (some (registryContent projects)) = projects := by
  unfold readRegistryState
  rw [registryItems_registryContent, Option.getD_some, List.filterMap_map]
  conv_rhs => rw [← List.filterMap_some (l := projects)]
  apply List.filterMap_congr
  intro entry hentry
  exact readProjectRegistryEntry_members (h entry hentry)

/-! ### What an operation keeps -/

/-- What a file has to keep when another one takes its place: the projects, but for the one that
is changed, the entries that cannot be read, and all of a file that holds no registry. -/
structure Keeps (before after : FileContent) (changed : String) : Prop where
  readable : ∀ entry ∈ readRegistryState before, entry.id ≠ changed →
    entry ∈ readRegistryState after
  recoverable : ∀ items, registryItems before = some items → ∀ item ∈ items,
    readProjectRegistryEntry item = none →
    ∃ kept, registryItems after = some kept ∧ item ∈ kept
  unreadable : before ≠ none → registryItems before = none → after = before

/-- A file that is not there, or that holds a registry all of whose entries can be read. -/
def Clean (file : FileContent) : Prop :=
  file = none ∨ ∃ items, registryItems file = some items ∧
    ∀ item ∈ items, (readProjectRegistryEntry item).isSome = true

theorem clean_registryContent {projects : List HubProjectRegistryEntry}
    (h : ∀ entry ∈ projects, PlainEntry entry) : Clean (some (registryContent projects)) := by
  refine .inr ⟨_, registryItems_registryContent projects, ?_⟩
  intro item hitem
  obtain ⟨entry, hentry, rfl⟩ := List.mem_map.mp hitem
  rw [readProjectRegistryEntry_members (h entry hentry)]
  rfl

theorem keeps_of_clean {before after : FileContent} {changed : String} (hclean : Clean before)
    (h : ∀ entry ∈ readRegistryState before, entry.id ≠ changed →
      entry ∈ readRegistryState after) : Keeps before after changed := by
  constructor
  · exact h
  · intro items hitems item hitem hnone
    rcases hclean with rfl | ⟨other, hother, hsome⟩
    · cases hitems
    · rw [hitems] at hother
      cases hother
      have hread := hsome item hitem
      rw [hnone] at hread
      cases hread
  · intro hne hnone
    rcases hclean with rfl | ⟨other, hother, -⟩
    · exact absurd rfl hne
    · rw [hnone] at hother
      cases hother

section Distinct

variable (toLowerCase : String → String)

structure Distinct (projects : List HubProjectRegistryEntry) : Prop where
  id : (projects.map (·.id)).Nodup
  name : (projects.map fun entry => normalizeName toLowerCase entry.name).Nodup
  repoRoot : (projects.map (·.repoRoot)).Nodup

variable {toLowerCase} {projects : List HubProjectRegistryEntry}

theorem normalizeName_trim (name : String) :
    normalizeName toLowerCase (trim name) = normalizeName toLowerCase name := by
  unfold normalizeName
  rw [trim_trim]

theorem ensureUniqueProjectName_ok {name : String} {except : Option String}
    (h : ensureUniqueProjectName toLowerCase projects name except = .ok ()) :
    ∀ project ∈ projects, some project.id ≠ except →
      normalizeName toLowerCase project.name ≠ normalizeName toLowerCase name := by
  intro project hproject hother hsame
  unfold ensureUniqueProjectName at h
  split at h
  · cases h
  · rename_i hfind
    have hnot := List.find?_eq_none.mp hfind project hproject
    simp [hsame, hother] at hnot

theorem ensureUniqueRepoRoot_ok {repoRoot : String} {except : Option String}
    (h : ensureUniqueRepoRoot projects repoRoot except = .ok ()) :
    ∀ project ∈ projects, some project.id ≠ except → project.repoRoot ≠ repoRoot := by
  intro project hproject hother hsame
  unfold ensureUniqueRepoRoot at h
  split at h
  · cases h
  · rename_i hfind
    have hnot := List.find?_eq_none.mp hfind project hproject
    simp [hsame, hother] at hnot

theorem findProjectBySelector_mem {selector : String} {project : HubProjectRegistryEntry}
    (h : findProjectBySelector toLowerCase projects selector = some project) :
    project ∈ projects := by
  unfold findProjectBySelector at h
  split at h
  · cases h
  · rcases Option.or_eq_some_iff.mp h with h | ⟨-, h⟩
    · exact List.mem_of_find?_eq_some h
    · exact List.mem_of_find?_eq_some h

theorem resolveProjectSelection_ok {selector : String} {project : HubProjectRegistryEntry}
    {index : Nat} (hids : (projects.map (·.id)).Nodup)
    (h : resolveProjectSelection toLowerCase projects selector = .ok (project, index)) :
    projects[index]? = some project := by
  unfold resolveProjectSelection at h
  split at h
  · cases h
  · rename_i found hfind
    cases h
    have hmem := findProjectBySelector_mem hfind
    have hlt : (projects.findIdx fun entry => entry.id == project.id) < projects.length :=
      List.findIdx_lt_length_of_exists ⟨project, hmem, beq_self_eq_true _⟩
    have hid : (projects[projects.findIdx fun entry => entry.id == project.id]).id =
        project.id := by
      have hfound := List.findIdx_getElem (w := hlt)
      exact eq_of_beq hfound
    rw [List.getElem?_eq_getElem hlt]
    exact congrArg some (List.inj_on_of_nodup_map hids (List.getElem_mem hlt) hmem hid)

theorem nodup_set {key : HubProjectRegistryEntry → String} {index : Nat}
    {project updated : HubProjectRegistryEntry} (h : (projects.map key).Nodup)
    (hindex : projects[index]? = some project)
    (hother : ∀ other ∈ projects, other ≠ project → key other ≠ key updated) :
    ((projects.set index updated).map key).Nodup := by
  rw [List.map_set]
  by_cases hsame : key updated = key project
  · have hself : (projects.map key)[index]? = some (key updated) := by
      rw [List.getElem?_map, hindex, hsame]
      rfl
    obtain ⟨hlt, hget⟩ := List.getElem?_eq_some_iff.mp hself
    rw [← hget, List.set_getElem_self]
    exact h
  · apply h.set
    intro hmem
    obtain ⟨other, hin, hkey⟩ := List.mem_map.mp hmem
    by_cases heq : other = project
    · exact hsame (heq ▸ hkey).symm
    · exact hother other hin heq hkey

theorem mem_set_of_ne {index : Nat} {project updated other : HubProjectRegistryEntry}
    (hindex : projects[index]? = some project) (hmem : other ∈ projects)
    (hne : other ≠ project) : other ∈ projects.set index updated := by
  obtain ⟨place, hplace⟩ := List.mem_iff_getElem?.mp hmem
  refine List.mem_iff_getElem?.mpr ⟨place, ?_⟩
  have hother : index ≠ place := by
    rintro rfl
    rw [hindex] at hplace
    exact hne (Option.some.inj hplace).symm
  rw [List.getElem?_set_ne hother]
  exact hplace

theorem mem_of_mem_set {index : Nat} {updated other : HubProjectRegistryEntry}
    (h : other ∈ projects.set index updated) : other ∈ projects ∨ other = updated :=
  List.mem_or_eq_of_mem_set h

/-! ### The operations -/

/-- The texts that a call brings come back from the file as they are. -/
def PlainCall : RegistryCall → Prop
  | .register input =>
    trim input.projectName ≠ "" ∧ PlainText input.projectId ∧ PlainText input.hubProjectDir ∧
    PlainText input.now ∧ (∀ root, input.repoRoot = .ok root → PlainText root) ∧
    ∀ profile, input.projectProfile = .ok profile → PlainText profile
  | .rename input => PlainText input.now
  | .relink input => PlainText input.now ∧ ∀ root, input.repoRoot = .ok root → PlainText root
  | .select _ => True

def NewId (projects : List HubProjectRegistryEntry) : RegistryCall → Prop
  | .register input => ∀ entry ∈ projects, entry.id ≠ input.projectId
  | _ => True

/-- What a write makes of the projects that its call read. -/
structure GoodWrite (toLowerCase : String → String) (projects : List HubProjectRegistryEntry)
    (write : RegistryWrite) : Prop where
  distinct : Distinct toLowerCase write.projects
  plain : ∀ entry ∈ write.projects, PlainEntry entry
  kept : ∀ entry ∈ projects, entry.id ≠ write.changed → entry ∈ write.projects

theorem goodWrite_set {index : Nat} {project updated : HubProjectRegistryEntry}
    (hdistinct : Distinct toLowerCase projects) (hplain : ∀ entry ∈ projects, PlainEntry entry)
    (hindex : projects[index]? = some project) (hid : updated.id = project.id)
    (hupdated : PlainEntry updated)
    (hname : ∀ other ∈ projects, other.id ≠ project.id →
      normalizeName toLowerCase other.name ≠ normalizeName toLowerCase updated.name)
    (hroot : ∀ other ∈ projects, other.id ≠ project.id → other.repoRoot ≠ updated.repoRoot) :
    GoodWrite toLowerCase projects
      { projects := projects.set index updated, changed := project.id } := by
  have hproject : project ∈ projects := List.mem_of_getElem? hindex
  have hids : ∀ other ∈ projects, other ≠ project → other.id ≠ project.id :=
    fun other hother hne hsame =>
      hne (List.inj_on_of_nodup_map hdistinct.id hother hproject hsame)
  constructor
  · constructor
    · apply nodup_set hdistinct.id hindex
      intro other hother hne
      rw [hid]
      exact hids other hother hne
    · exact nodup_set hdistinct.name hindex
        fun other hother hne => hname other hother (hids other hother hne)
    · exact nodup_set hdistinct.repoRoot hindex
        fun other hother hne => hroot other hother (hids other hother hne)
  · intro entry hentry
    rcases mem_of_mem_set hentry with hentry | rfl
    · exact hplain entry hentry
    · exact hupdated
  · intro entry hentry hne
    exact mem_set_of_ne hindex hentry fun heq => hne (congrArg _ heq)

theorem register_goodWrite {input : RegisterHubProjectInput} {write : RegistryWrite}
    (hdistinct : Distinct toLowerCase projects) (hplain : ∀ entry ∈ projects, PlainEntry entry)
    (hcall : PlainCall (.register input)) (hnew : NewId projects (.register input))
    (h : registerHubProject toLowerCase input projects = .ok write) :
    GoodWrite toLowerCase projects write := by
  obtain ⟨hname, hid, hdir, hnow, hroot, hprofile⟩ := hcall
  unfold registerHubProject at h
  cases hrepo : input.repoRoot with
  | error e =>
    rw [hrepo] at h
    cases h
  | ok repoRoot =>
  cases huniqueName : ensureUniqueProjectName toLowerCase projects input.projectName none with
  | error e =>
    rw [hrepo, huniqueName] at h
    cases h
  | ok _ =>
  cases huniqueRoot : ensureUniqueRepoRoot projects repoRoot none with
  | error e =>
    rw [hrepo, huniqueName] at h
    simp only [bind, Except.bind, huniqueRoot] at h
    cases h
  | ok _ =>
  cases hcontract : input.projectProfile with
  | error e =>
    rw [hrepo, huniqueName, hcontract] at h
    simp only [bind, Except.bind, huniqueRoot] at h
    cases h
  | ok projectProfile =>
    rw [hrepo, huniqueName, hcontract] at h
    simp only [bind, Except.bind, huniqueRoot] at h
    cases h
    have hnames := ensureUniqueProjectName_ok huniqueName
    have hroots := ensureUniqueRepoRoot_ok huniqueRoot
    constructor
    · constructor
      · rw [List.map_append, List.nodup_append]
        refine ⟨hdistinct.id, List.nodup_singleton _, ?_⟩
        rintro id hin _ hlast rfl
        obtain ⟨entry, hentry, rfl⟩ := List.mem_map.mp hin
        exact hnew entry hentry (List.mem_singleton.mp hlast)
      · rw [List.map_append, List.nodup_append]
        refine ⟨hdistinct.name, List.nodup_singleton _, ?_⟩
        rintro name hin _ hlast rfl
        obtain ⟨entry, hentry, heq⟩ := List.mem_map.mp hin
        apply hnames entry hentry (by simp)
        rw [heq, ← normalizeName_trim input.projectName]
        exact List.mem_singleton.mp hlast
      · rw [List.map_append, List.nodup_append]
        refine ⟨hdistinct.repoRoot, List.nodup_singleton _, ?_⟩
        rintro root hin _ hlast rfl
        obtain ⟨entry, hentry, rfl⟩ := List.mem_map.mp hin
        exact hroots entry hentry (by simp) (List.mem_singleton.mp hlast)
    · intro entry hentry
      rcases List.mem_append.mp hentry with hentry | hentry
      · exact hplain entry hentry
      · rw [List.mem_singleton.mp hentry]
        exact ⟨hid, plainText_trim hname, hroot _ hrepo, hdir, hprofile _ hcontract, hnow, hnow⟩
    · intro entry hentry _
      exact List.mem_append_left _ hentry

theorem rename_goodWrite {input : RenameHubProjectInput} {write : RegistryWrite}
    (hdistinct : Distinct toLowerCase projects) (hplain : ∀ entry ∈ projects, PlainEntry entry)
    (hnow : PlainText input.now)
    (h : renameHubProject toLowerCase input projects = .ok write) :
    GoodWrite toLowerCase projects write := by
  unfold renameHubProject at h
  cases hselection : resolveProjectSelection toLowerCase projects input.projectSelector with
  | error e =>
    rw [hselection] at h
    cases h
  | ok selection =>
  obtain ⟨project, index⟩ := selection
  have hindex := resolveProjectSelection_ok hdistinct.id hselection
  have hproject : PlainEntry project := hplain project (List.mem_of_getElem? hindex)
  rw [hselection] at h
  by_cases hblank : trim input.newProjectName = ""
  · simp only [bind, Except.bind, hblank] at h
    cases h
  cases hunique : ensureUniqueProjectName toLowerCase projects (trim input.newProjectName)
      (some project.id) with
  | error e =>
    simp only [bind, Except.bind, if_neg hblank, hunique] at h
    cases h
  | ok _ =>
    simp only [bind, Except.bind, if_neg hblank, hunique, pure, Except.pure] at h
    cases h
    have hnames := ensureUniqueProjectName_ok hunique
    have hid : ({ project with
        name := trim input.newProjectName, updatedAt := input.now } :
        HubProjectRegistryEntry).id = project.id := rfl
    apply goodWrite_set hdistinct hplain hindex hid
    · exact { hproject with name := plainText_trim hblank, updatedAt := hnow }
    · intro other hother hne
      exact hnames other hother (by simpa using hne)
    · intro other hother hne hsame
      have hmem := List.mem_of_getElem? hindex
      exact hne (congrArg (·.id)
        (List.inj_on_of_nodup_map hdistinct.repoRoot hother hmem hsame))

theorem relink_goodWrite {input : RelinkHubProjectInput} {write : RegistryWrite}
    (hdistinct : Distinct toLowerCase projects) (hplain : ∀ entry ∈ projects, PlainEntry entry)
    (hcall : PlainCall (.relink input))
    (h : relinkHubProject toLowerCase input projects = .ok write) :
    GoodWrite toLowerCase projects write := by
  obtain ⟨hnow, hroot⟩ := hcall
  unfold relinkHubProject at h
  cases hrepo : input.repoRoot with
  | error e =>
    rw [hrepo] at h
    cases h
  | ok repoRoot =>
  cases hselection : resolveProjectSelection toLowerCase projects input.projectSelector with
  | error e =>
    rw [hrepo, hselection] at h
    cases h
  | ok selection =>
  obtain ⟨project, index⟩ := selection
  have hindex := resolveProjectSelection_ok hdistinct.id hselection
  have hproject : PlainEntry project := hplain project (List.mem_of_getElem? hindex)
  rw [hrepo, hselection] at h
  cases hunique : ensureUniqueRepoRoot projects repoRoot (some project.id) with
  | error e =>
    simp only [bind, Except.bind, hunique] at h
    cases h
  | ok _ =>
  cases hredirect : input.redirect with
  | error e =>
    simp only [bind, Except.bind, hunique, hredirect] at h
    cases h
  | ok _ =>
    simp only [bind, Except.bind, hunique, hredirect, pure, Except.pure] at h
    cases h
    have hroots := ensureUniqueRepoRoot_ok hunique
    have hid : ({ project with repoRoot := repoRoot, updatedAt := input.now } :
        HubProjectRegistryEntry).id = project.id := rfl
    apply goodWrite_set hdistinct hplain hindex hid
    · exact { hproject with repoRoot := hroot _ hrepo, updatedAt := hnow }
    · intro other hother hne hsame
      have hmem := List.mem_of_getElem? hindex
      exact hne (congrArg (·.id) (List.inj_on_of_nodup_map hdistinct.name hother hmem hsame))
    · intro other hother hne
      exact hroots other hother (by simpa using hne)

theorem prepare_goodWrite {call : RegistryCall} {write : RegistryWrite}
    (hdistinct : Distinct toLowerCase projects) (hplain : ∀ entry ∈ projects, PlainEntry entry)
    (hcall : PlainCall call) (hnew : NewId projects call)
    (h : call.prepare toLowerCase projects = .ok (some write)) :
    GoodWrite toLowerCase projects write := by
  have hmap : ∀ {result : Except String RegistryWrite},
      result.map some = .ok (some write) → result = .ok write := by
    intro result h
    cases result with
    | error e => cases h
    | ok other =>
      cases h
      rfl
  cases call with
  | register input => exact register_goodWrite hdistinct hplain hcall hnew (hmap h)
  | rename input => exact rename_goodWrite hdistinct hplain hcall (hmap h)
  | relink input => exact relink_goodWrite hdistinct hplain hcall (hmap h)
  | select projectSelector =>
    have hselect : (resolveProjectSelection toLowerCase projects projectSelector).map
        (fun _ => (none : Option RegistryWrite)) = .ok (some write) := h
    cases hselection : resolveProjectSelection toLowerCase projects projectSelector with
    | error e =>
      rw [hselection] at hselect
      cases hselect
    | ok selection =>
      rw [hselection] at hselect
      cases hselect

end Distinct

/-! ### Runs -/

section Runs

variable {ι : Type} [DecidableEq ι] {toLowerCase : String → String} {s : RegistryWorld ι}

/-- What a step promises. A write keeps what the file has, and a call that fails leaves the file as
it was, also when it fails behind its write or in the middle of it. -/
def StepKeeps (toLowerCase : String → String) (s : RegistryWorld ι) (step : RegistryStep ι) :
    Prop :=
  match step with
  | .start _ _ => (s.step toLowerCase step).file = s.file
  | .finish process => ∀ pending, s.pending process = some pending →
      Keeps s.file (s.step toLowerCase step).file pending.write.changed ∧
      (pending.call.failsBehind.isSome = true → (s.step toLowerCase step).file = s.file)
  | .crash _ _ => (s.step toLowerCase step).file = s.file

/-- The condition on a step. A call replaces a file all of whose entries can be read, by what it
would write if it read that file now; it brings texts that come back as they are and a new id, and
does not fail behind its write; and no process dies in its write. -/
def Careful (toLowerCase : String → String) (s : RegistryWorld ι) (step : RegistryStep ι) :
    Prop :=
  match step with
  | .start _ _ => True
  | .finish process => ∀ pending, s.pending process = some pending →
      Clean s.file ∧
      pending.call.prepare toLowerCase (readRegistryState s.file) = .ok (some pending.write) ∧
      PlainCall pending.call ∧ NewId (readRegistryState s.file) pending.call ∧
      pending.call.failsBehind = none
  | .crash process _ => s.pending process = none

theorem start_file (process : ι) (call : RegistryCall) :
    (s.step toLowerCase (.start process call)).file = s.file := by
  simp only [RegistryWorld.step]
  split
  · rfl
  · rfl

theorem run_cons (step : RegistryStep ι) (steps : List (RegistryStep ι)) :
    s.run toLowerCase (step :: steps) = (s.step toLowerCase step).run toLowerCase steps := rfl

theorem step_start {process : ι} {call : RegistryCall} {write : RegistryWrite}
    (h : call.prepare toLowerCase (readRegistryState s.file) = .ok (some write)) :
    s.step toLowerCase (.start process call) = s.withPending process (some { call, write }) := by
  simp only [RegistryWorld.step, h]

theorem step_finish {process : ι} {pending : PendingWrite}
    (h : s.pending process = some pending) :
    s.step toLowerCase (.finish process) =
      { s.withPending process none with
        file := some (registryContent pending.write.projects) } := by
  simp only [RegistryWorld.step, h]

theorem step_crash {process : ι} {pending : PendingWrite} (written : Nat)
    (h : s.pending process = some pending) :
    s.step toLowerCase (.crash process written) =
      { s.withPending process none with
        file := some ((registryContent pending.write.projects).take written) } := by
  simp only [RegistryWorld.step, h]

theorem step_keeps {step : RegistryStep ι}
    (hdistinct : Distinct toLowerCase (readRegistryState s.file))
    (hcareful : Careful toLowerCase s step) :
    StepKeeps toLowerCase s step ∧
      Distinct toLowerCase (readRegistryState (s.step toLowerCase step).file) := by
  cases step with
  | start process call =>
    have hfile : (s.step toLowerCase (.start process call)).file = s.file :=
      start_file process call
    refine ⟨hfile, ?_⟩
    rw [hfile]
    exact hdistinct
  | finish process =>
    cases hpending : s.pending process with
    | none =>
      have hstep : s.step toLowerCase (.finish process) = s := by
        simp only [RegistryWorld.step, hpending]
      constructor
      · intro pending h
        rw [hpending] at h
        cases h
      · rw [hstep]
        exact hdistinct
    | some pending =>
      obtain ⟨hclean, hprepare, hplain, hnew, hbehind⟩ := hcareful pending hpending
      have hgood := prepare_goodWrite hdistinct (fun _ => plainEntry_of_mem) hplain hnew hprepare
      have hfile : (s.step toLowerCase (.finish process)).file =
          some (registryContent pending.write.projects) := by
        rw [step_finish hpending]
      have hread := readRegistryState_registryContent hgood.plain
      constructor
      · intro other hother
        rw [hpending] at hother
        cases hother
        rw [hfile]
        refine ⟨keeps_of_clean hclean ?_, ?_⟩
        · rw [hread]
          exact hgood.kept
        · intro hfails
          rw [hbehind] at hfails
          cases hfails
      · rw [hfile, hread]
        exact hgood.distinct
  | crash process written =>
    have hstep : s.step toLowerCase (.crash process written) = s := by
      have hidle : s.pending process = none := hcareful
      simp only [RegistryWorld.step, hidle]
    constructor
    · exact congrArg RegistryWorld.file hstep
    · rw [hstep]
      exact hdistinct

def CarefulRun (toLowerCase : String → String) : RegistryWorld ι → List (RegistryStep ι) → Prop
  | _, [] => True
  | s, step :: steps =>
    Careful toLowerCase s step ∧ CarefulRun toLowerCase (s.step toLowerCase step) steps

/-- Every step of a run keeps its promise, and the projects of every state are distinct. -/
def RunKeeps (toLowerCase : String → String) : RegistryWorld ι → List (RegistryStep ι) → Prop
  | s, [] => Distinct toLowerCase (readRegistryState s.file)
  | s, step :: steps =>
    Distinct toLowerCase (readRegistryState s.file) ∧ StepKeeps toLowerCase s step ∧
      RunKeeps toLowerCase (s.step toLowerCase step) steps

/-- The runs whose steps meet the condition lose no project, and make no two alike. -/
theorem registry_keeps (toLowerCase : String → String) (s : RegistryWorld ι)
    (steps : List (RegistryStep ι))
    (hdistinct : Distinct toLowerCase (readRegistryState s.file))
    (hcareful : CarefulRun toLowerCase s steps) : RunKeeps toLowerCase s steps := by
  induction steps generalizing s with
  | nil => exact hdistinct
  | cons step steps ih =>
    obtain ⟨hkeeps, hnext⟩ := step_keeps hdistinct hcareful.1
    exact ⟨hdistinct, hkeeps, ih _ hnext hcareful.2⟩

end Runs

/-! ### Two projects -/

def registerCall (name : String) : RegistryCall :=
  .register {
    projectName := name
    repoRoot := .ok ("/repos/" ++ name)
    projectId := "project-" ++ name
    hubProjectDir := "/hub/projects/project-" ++ name
    projectProfile := .ok "generic"
    now := "2026-06-22T10:00:00.000Z" }

def registered (name : String) : HubProjectRegistryEntry where
  id := "project-" ++ name
  name := name
  repoRoot := "/repos/" ++ name
  hubProjectDir := "/hub/projects/project-" ++ name
  projectProfile := "generic"
  createdAt := "2026-06-22T10:00:00.000Z"
  updatedAt := "2026-06-22T10:00:00.000Z"

def oneProject : RegistryWorld Bool where
  file := some (registryContent [registered "alpha"])
  pending _ := none

theorem plain_alpha : ∀ entry ∈ [registered "alpha"], PlainEntry entry := by
  intro entry hentry
  rw [List.mem_singleton.mp hentry]
  constructor <;> exact ⟨by decide +kernel, by decide +kernel⟩

theorem plain_beta : ∀ entry ∈ [registered "beta"], PlainEntry entry := by
  intro entry hentry
  rw [List.mem_singleton.mp hentry]
  constructor <;> exact ⟨by decide +kernel, by decide +kernel⟩

theorem read_oneProject : readRegistryState oneProject.file = [registered "alpha"] :=
  readRegistryState_registryContent plain_alpha

/-- A second project is registered beside the first. -/
theorem register_beta_keeps :
    RunKeeps id oneProject [.start true (registerCall "beta"), .finish true] := by
  apply registry_keeps id oneProject
  · rw [read_oneProject]
    constructor <;> exact List.nodup_singleton _
  · refine ⟨trivial, ?_, trivial⟩
    intro pending hpending
    have hprepare : (registerCall "beta").prepare id (readRegistryState oneProject.file) =
        .ok (some { projects := [registered "alpha", registered "beta"]
                    changed := "project-beta" }) := by
      rw [read_oneProject]
      decide +kernel
    have hstart : oneProject.step id (.start true (registerCall "beta")) =
        oneProject.withPending true (some {
          call := registerCall "beta"
          write := { projects := [registered "alpha", registered "beta"]
                     changed := "project-beta" } }) :=
      step_start hprepare
    rw [hstart] at hpending ⊢
    cases hpending
    refine ⟨clean_registryContent plain_alpha, hprepare, ?_, ?_, rfl⟩
    · refine ⟨by decide +kernel, ⟨by decide +kernel, by decide +kernel⟩,
        ⟨by decide +kernel, by decide +kernel⟩, ⟨by decide +kernel, by decide +kernel⟩, ?_, ?_⟩
      · intro root hroot
        cases hroot
        exact ⟨by decide +kernel, by decide +kernel⟩
      · intro profile hprofile
        cases hprofile
        exact ⟨by decide +kernel, by decide +kernel⟩
    · show ∀ entry ∈ readRegistryState oneProject.file, entry.id ≠ "project-beta"
      rw [read_oneProject]
      decide +kernel

def renameCall : RegistryCall :=
  .rename {
    projectSelector := "alpha"
    newProjectName := "gamma"
    now := "2026-06-22T11:00:00.000Z" }

def renamed : PendingWrite where
  call := renameCall
  write := {
    projects := [{ registered "alpha" with
      name := "gamma", updatedAt := "2026-06-22T11:00:00.000Z" }]
    changed := "project-alpha" }

theorem start_rename :
    oneProject.step id (.start false renameCall) = oneProject.withPending false (some renamed) := by
  have hprepare : renameCall.prepare id (readRegistryState oneProject.file) =
      .ok (some renamed.write) := by
    rw [read_oneProject]
    decide +kernel
  exact step_start hprepare

/-- A process dies when the first octet of its write is there. The next call takes the file for an
empty registry and replaces it, and the first project is gone. -/
theorem crashed_write_loses :
    readRegistryState oneProject.file = [registered "alpha"] ∧
    readRegistryState (oneProject.run id [.start false renameCall, .crash false 1,
      .start true (registerCall "beta"), .finish true]).file = [registered "beta"] ∧
    ¬RunKeeps id oneProject [.start false renameCall, .crash false 1,
      .start true (registerCall "beta"), .finish true] := by
  have htorn : (oneProject.step id (.start false renameCall)).step id (.crash false 1) =
      { oneProject with file := some [0x7B] } := by
    have hpending : (oneProject.withPending false (some renamed)).pending false =
        some renamed := rfl
    have hidle : ((oneProject.withPending false (some renamed)).withPending false none).pending =
        oneProject.pending := by
      funext process
      cases process <;> rfl
    have hcontent : (registryContent renamed.write.projects).take 1 = [0x7B] := by
      decide +kernel
    rw [start_rename, step_crash 1 hpending, hcontent]
    dsimp only
    rw [hidle]
  have hempty : readRegistryState (some [0x7B]) = [] := by decide +kernel
  refine ⟨read_oneProject, ?_, ?_⟩
  · have hprepare : (registerCall "beta").prepare id (readRegistryState (some [0x7B])) =
        .ok (some { projects := [registered "beta"], changed := "project-beta" }) := by
      rw [hempty]
      decide +kernel
    have hfile : (oneProject.run id [.start false renameCall, .crash false 1,
        .start true (registerCall "beta"), .finish true]).file =
        some (registryContent [registered "beta"]) := by
      have hpending : (({ oneProject with file := some [0x7B] } :
          RegistryWorld Bool).withPending true (some {
            call := registerCall "beta"
            write := { projects := [registered "beta"], changed := "project-beta" } })).pending
          true = some {
            call := registerCall "beta"
            write := { projects := [registered "beta"], changed := "project-beta" } } := rfl
      rw [run_cons, run_cons, htorn, run_cons, step_start hprepare, run_cons,
        step_finish hpending]
      rfl
    rw [hfile]
    exact readRegistryState_registryContent plain_beta
  · rintro ⟨-, -, -, hcrash, -⟩
    have hfile : (some [0x7B] : FileContent) = oneProject.file := by
      have hsame : ((oneProject.step id (.start false renameCall)).step id (.crash false 1)).file =
          (oneProject.step id (.start false renameCall)).file := hcrash
      rw [htorn, start_file] at hsame
      exact hsame
    have hread := congrArg readRegistryState hfile
    rw [hempty, read_oneProject] at hread
    cases hread

end ArchLoop.ProjectRegistry
