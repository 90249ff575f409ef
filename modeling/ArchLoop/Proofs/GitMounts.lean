import ArchLoop.GitMounts

/-!
# `ArchLoop.Proofs.GitMounts`: a `.git` that resolves in the sandbox

A `Layout` is a repository with a worktree below it, as git leaves them: `hostRepoDir/.git` is the
repository's directory, or a pointer into it if that is a worktree itself, and the `.git` of the
worktree is a pointer. On Windows the sandbox needs another file in its place (`Resolves`).

`resolveGitMounts` finds the directory by the host's pointer, `patchGitMountsForWindows` by the
worktree's, and they meet if the two texts are the same up to separators (`SpelledAlike`). Only some
entry points call the second at all. So no two entry points of different kinds agree on Windows, and
the mounts are right exactly at those that call it, for pointers that are spelled alike
(`givesGit_iff`).
-/

set_option autoImplicit false

namespace ArchLoop.GitMounts

open Lib Lib.Path

/-! ### Places -/

theorem eq_false_of_all {p : Char → Bool} {text : List Char} (h : text.all (!p ·) = true) :
    ∀ c ∈ text, p c = false := by
  intro c hc
  simpa using List.all_eq_true.mp h c hc

section Place

variable {platform : Platform} {t u : List Char}

theorem place_slashes (h : platform.isAbsolute t = true) :
    place platform (slashes platform t) = place platform t := by
  rw [place, parse_slashes h, place]

theorem place_eq_of_slashes (ht : platform.isAbsolute t = true)
    (hu : platform.isAbsolute u = true) (h : slashes platform t = slashes platform u) :
    place platform t = place platform u := by
  rw [place, parse_eq_of_slashes ht hu h, place]

theorem parse_join (h : platform.isAbsolute t = true) {more : List (List Char)}
    (hmore : ∀ part ∈ more, ∀ c ∈ part, platform.isSeparator c = false) :
    Path.parse platform (join platform t more) = (Path.parse platform t).descend more :=
  ((isWritten_parse h).descend hmore).parse_text

theorem isAbsolute_join (h : platform.isAbsolute t = true) {more : List (List Char)}
    (hmore : ∀ part ∈ more, ∀ c ∈ part, platform.isSeparator c = false) :
    platform.isAbsolute (join platform t more) = true :=
  isAbsolute_text ((isWritten_parse h).descend hmore)

theorem plain_git : ∀ part ∈ [".git".toList], ∀ c ∈ part, platform.isSeparator c = false := by
  intro part hpart
  rw [List.mem_singleton.mp hpart]
  exact eq_false_of_all (by cases platform <;> decide)

theorem plain_up :
    ∀ part ∈ ["..".toList, "..".toList], ∀ c ∈ part, platform.isSeparator c = false := by
  intro part hpart
  rw [show part = "..".toList from (List.mem_pair.mp hpart).elim id id]
  exact eq_false_of_all (by cases platform <;> decide)

theorem fold_descend_git (path : Path) :
    (path.descend [".git".toList]).fold platform
      = (path.fold platform).child [".git".toList] := by
  have hwalk : walk path.names [".git".toList] = path.names ++ [".git".toList] := by
    show enter path.names ".git".toList = _
    rw [enter, if_neg (by decide), if_neg (by decide)]
  have hfold : ".git".toList.map platform.foldCase = ".git".toList := by
    cases platform <;> decide
  unfold descend fold child
  rw [hwalk, List.map_append, List.map_singleton, hfold]

theorem place_join_git (h : platform.isAbsolute t = true) :
    place platform (join platform t [".git".toList])
      = (place platform t).child [".git".toList] := by
  rw [place, parse_join h plain_git, fold_descend_git, place]

theorem place_concat_git (h : platform.isAbsolute t = true) :
    place platform (t ++ "/.git".toList) = (place platform t).child [".git".toList] := by
  have hparts : parts platform ".git".toList = [".git".toList] := by
    cases platform <;> decide
  have hconcat := parse_concat h ".git".toList
  rw [hparts] at hconcat
  rw [place, show t ++ "/.git".toList = t ++ '/' :: ".git".toList from rfl, hconcat,
    fold_descend_git, place]

theorem place_join_up (h : platform.isAbsolute t = true) {dir : Path} {name : List Char}
    (hplace : place platform t = dir.child ["worktrees".toList, name]) :
    place platform (join platform t ["..".toList, "..".toList]) = dir := by
  have hdevice : (Path.parse platform t).device.map platform.foldCase = dir.device :=
    congrArg Path.device hplace
  have hnames : (Path.parse platform t).names.map (·.map platform.foldCase)
      = dir.names ++ ["worktrees".toList, name] := congrArg Path.names hplace
  have hwalk : walk (Path.parse platform t).names ["..".toList, "..".toList]
      = (Path.parse platform t).names.dropLast.dropLast := by
    show enter (enter _ "..".toList) "..".toList = _
    exact (congrArg (enter · _) enter_up).trans enter_up
  rw [place, parse_join h plain_up]
  unfold descend fold
  ext1
  · exact hdevice
  · show (walk _ _).map _ = dir.names
    rw [hwalk, List.map_dropLast, List.map_dropLast, hnames]
    simp

end Place

/-! ### Pointers -/

/-- What stands behind `gitdir: ` in a `.git` file that git has written. -/
structure Pointer (platform : Platform) where
  text : List Char
  absolute : platform.isAbsolute text = true
  line : ∀ c ∈ text, isLineTerminator c = false
  last : ∀ c ∈ text.getLast?, isBlank c = false

namespace Pointer

variable {platform : Platform} (pointer : Pointer platform)

def content : List Char := "gitdir: ".toList ++ pointer.text ++ ['\n']

theorem text_cons : ∃ c rest, pointer.text = c :: rest ∧ isBlank c = false := by
  have habsolute := pointer.absolute
  unfold Platform.isAbsolute at habsolute
  split at habsolute
  · rename_i first rest htext
    refine ⟨first, rest, htext, ?_⟩
    rw [beq_iff_eq.mp habsolute]
    decide
  · rename_i letter first rest htext
    rw [Bool.and_eq_true] at habsolute
    refine ⟨letter, ':' :: first :: rest, htext, ?_⟩
    rw [← Bool.not_eq_true]
    intro hblank
    rw [isAlpha_of_isBlank hblank] at habsolute
    cases habsolute.1
  · cases habsolute

theorem gitdirOf_content : gitdirOf pointer.content = some pointer.text := by
  obtain ⟨c, rest, htext, hc⟩ := pointer.text_cons
  have hne : pointer.text ≠ [] := by simp [htext]
  have htrimmed : (pointer.content.dropWhile isBlank).rdropWhile isBlank
      = "gitdir: ".toList ++ pointer.text := by
    have hhead : ∀ d ∈ ("gitdir: ".toList ++ pointer.text).head?, isBlank d = false := by
      intro d hd
      rw [show d = 'g' from (Option.some.inj hd).symm]
      decide
    have hlast : ∀ d ∈ ("gitdir: ".toList ++ pointer.text).getLast?, isBlank d = false := by
      rw [List.getLast?_append_of_ne_nil _ hne]
      exact pointer.last
    have hbreak : ∀ d ∈ ['\n'], isBlank d = true := by
      intro d hd
      rw [List.mem_singleton.mp hd]
      decide
    exact trimmed_eq hhead hlast (by simp) hbreak
  have hstart : "gitdir:".toList.isPrefixOf ("gitdir: ".toList ++ pointer.text) = true :=
    List.isPrefixOf_iff_prefix.mpr ⟨' ' :: pointer.text, rfl⟩
  have hpath : (("gitdir: ".toList ++ pointer.text).drop 7).dropWhile isBlank = pointer.text := by
    show (' ' :: pointer.text).dropWhile isBlank = pointer.text
    rw [List.dropWhile_cons_of_pos (by decide), htext,
      List.dropWhile_cons_of_neg (by simp [hc])]
  have hline : pointer.text.all (!isLineTerminator ·) = true :=
    List.all_eq_true.mpr fun d hd => by simp [pointer.line d hd]
  unfold gitdirOf
  dsimp only
  rw [htrimmed, if_pos hstart, hpath, if_pos ⟨hne, hline⟩]

end Pointer

/-! ### Segments -/

section Segments

variable (text : List Char)

theorem segments_ne_nil : segments text ≠ [] := List.splitOn_ne_nil _ _

theorem mem_of_mem_segments {segment : List Char} {c : Char} (h : segment ∈ segments text)
    (hc : c ∈ segment) : c ∈ text ∧ Platform.win32.isSeparator c = false := by
  have hslashes : c ∈ slashes .win32 text :=
    (List.rdropWhile_prefix (· == '/') _).subset ((sublist_of_mem_splitOn h).subset hc)
  have hne : c ≠ '/' := fun heq => notMem_of_mem_splitOn h (heq ▸ hc)
  have hplain : Platform.win32.isSeparator c = false := by
    by_contra hsep
    exact hne (eq_slash_of_mem_slashes hslashes (by simpa using hsep))
  obtain ⟨d, hd, rfl⟩ := List.mem_map.mp hslashes
  by_cases hsep : Platform.win32.isSeparator d = true
  · simp [hsep] at hne
  · rw [if_neg hsep]
    exact ⟨hd, by simpa using hsep⟩

theorem slashes_parentGitDir : slashes .win32 (parseGitdirPath text).parentGitDir
    = (parseGitdirPath text).parentGitDir := by
  refine slashes_eq_self fun c hc hsep => ?_
  rcases mem_intercalate hc with hslash | ⟨segment, hsegment, hmem⟩
  · exact hslash
  · have hin := List.dropLast_subset _ (List.dropLast_subset _ hsegment)
    rw [(mem_of_mem_segments text hin hmem).2] at hsep
    cases hsep

theorem eq_parentGitDir_iff {path : List Char} (hne : path ≠ []) :
    slashes .win32 path = (parseGitdirPath text).parentGitDir ↔
      (segments text).dropLast.dropLast = parts .win32 path := by
  have hplain : ∀ segment ∈ (segments text).dropLast.dropLast, '/' ∉ segment := by
    intro segment hsegment hslash
    have hin := List.dropLast_subset _ (List.dropLast_subset _ hsegment)
    have hsep := (mem_of_mem_segments text hin hslash).2
    cases hsep
  constructor
  · intro heq
    have hsegments : (segments text).dropLast.dropLast ≠ [] := by
      intro hnil
      have hempty : slashes .win32 path = [] := by
        rw [heq, parseGitdirPath, hnil]
        rfl
      exact hne (List.map_eq_nil_iff.mp hempty)
    rw [parts, heq, parseGitdirPath, List.splitOn_intercalate '/' hplain hsegments]
  · intro heq
    rw [parseGitdirPath, heq, parts, List.intercalate_splitOn]

end Segments

/-! ### What git reads -/

/-- The directory that a `.git` file names, for git: the line breaks at its end are no part of
it. -/
def gitReads (content : List Char) : Option (List Char) :=
  if "gitdir: ".toList.isPrefixOf content then
    some ((content.drop 8).rdropWhile fun c => c == '\n' || c == '\r')
  else none

theorem gitReads_overrideText {platform : Platform} (pointer : Pointer platform) :
    gitReads (overrideText (parseGitdirPath pointer.text).worktreeName)
      = some (PARENT_GIT_SANDBOX_DIR ++
          ("/worktrees/".toList ++ (parseGitdirPath pointer.text).worktreeName)) := by
  have hname : ∀ c ∈ (parseGitdirPath pointer.text).worktreeName, isLineTerminator c = false := by
    intro c hc
    have hlast : (parseGitdirPath pointer.text).worktreeName
        = (segments pointer.text).getLast (segments_ne_nil _) := by
      show ((segments pointer.text).getLast?.getD []) = _
      rw [List.getLast?_eq_some_getLast (segments_ne_nil _)]
      rfl
    rw [hlast] at hc
    exact pointer.line c (mem_of_mem_segments _ (List.getLast_mem _) hc).1
  generalize (parseGitdirPath pointer.text).worktreeName = name at hname
  have htext : overrideText name = "gitdir: ".toList
      ++ (PARENT_GIT_SANDBOX_DIR ++ ("/worktrees/".toList ++ name) ++ ['\n']) := by
    have hgroup : ∀ a b c d e : List Char, a ++ (b ++ c ++ d) ++ e = a ++ (b ++ (c ++ d) ++ e) := by
      simp
    exact hgroup _ _ _ _ _
  have hplain : ∀ c ∈ PARENT_GIT_SANDBOX_DIR ++ ("/worktrees/".toList ++ name),
      isLineTerminator c = false := by
    have hdir : ∀ c ∈ PARENT_GIT_SANDBOX_DIR, isLineTerminator c = false :=
      eq_false_of_all (by decide)
    have hworktrees : ∀ c ∈ "/worktrees/".toList, isLineTerminator c = false :=
      eq_false_of_all (by decide)
    intro c hc
    rcases List.mem_append.mp hc with hc | hc
    · exact hdir c hc
    · exact (List.mem_append.mp hc).elim (hworktrees c) (hname c)
  have hstart : "gitdir: ".toList.isPrefixOf (overrideText name) = true :=
    List.isPrefixOf_iff_prefix.mpr ⟨_, htext.symm⟩
  rw [gitReads, if_pos hstart, htext, List.drop_left' (by decide),
    List.rdropWhile_concat_pos _ _ _ (by simp)]
  congr 1
  rw [List.rdropWhile_eq_self_iff]
  intro hne
  have hlast := hplain _ (List.getLast_mem hne)
  simp only [isLineTerminator, Bool.or_eq_false_iff] at hlast
  rw [hlast.1.1.1, hlast.1.1.2]
  simp

/-! ### Layouts -/

/-- A repository and a worktree below it, as git leaves them. -/
structure Layout (platform : Platform) extends Host where
  /-- The place of the repository's own directory. -/
  parentGitDir : Path
  worktreeName : List Char
  pointer : Pointer platform
  absolute_host : platform.isAbsolute hostRepoDir = true
  absolute_worktree : platform.isAbsolute worktreePath = true
  absolute_temp : platform.isAbsolute tempGitFile = true
  isDirectory : files parentGitDir = some .directory
  /-- The host's directory is the main repository or a worktree of it. -/
  hostGit : (place platform hostRepoDir).child [".git".toList] = parentGitDir ∨
    ∃ (pointer : Pointer platform) (name : List Char),
      files ((place platform hostRepoDir).child [".git".toList]) = some (.file pointer.content) ∧
      place platform pointer.text = parentGitDir.child ["worktrees".toList, name]
  isBelow : ∃ more ≠ [], place platform worktreePath = (place platform hostRepoDir).child more
  worktreeGit : files ((place platform worktreePath).child [".git".toList])
    = some (.file pointer.content)
  pointer_place : place platform pointer.text
    = parentGitDir.child ["worktrees".toList, worktreeName]

namespace Layout

variable {platform : Platform} (layout : Layout platform)

/-- The path of the host's `.git`. -/
def gitPath : List Char := join platform layout.hostRepoDir [".git".toList]

/-- The path by which the host's directory leads to the repository's own. -/
def gitDirPath : List Char :=
  match layout.files.stat platform layout.gitPath with
  | some (.file content) =>
    match gitdirOf content with
    | some gitdirPath => resolve platform layout.cwd gitdirPath ["..".toList, "..".toList]
    | none => layout.gitPath
  | _ => layout.gitPath

/-- The mounts of `resolveGitMounts`, for every entry point. -/
def hostMounts : List MountEntry :=
  if layout.gitDirPath = layout.gitPath then [⟨layout.gitPath, layout.gitPath⟩]
  else [⟨layout.gitPath, layout.gitPath⟩, ⟨layout.gitDirPath, layout.gitDirPath⟩]

theorem place_gitPath : place platform layout.gitPath
    = (place platform layout.hostRepoDir).child [".git".toList] :=
  place_join_git layout.absolute_host

theorem isAbsolute_gitPath : platform.isAbsolute layout.gitPath = true :=
  isAbsolute_join layout.absolute_host plain_git

theorem place_worktreeGit_ne : (place platform layout.worktreePath).child [".git".toList]
    ≠ place platform layout.gitPath := by
  obtain ⟨more, hmore, hplace⟩ := layout.isBelow
  rw [layout.place_gitPath, hplace]
  intro heq
  have hnames := congrArg (fun path => path.names.length) heq
  simp only [child, List.length_append] at hnames
  exact hmore (List.length_eq_zero_iff.mp (by omega))

theorem worktreeGit_ne_parentGitDir :
    (place platform layout.worktreePath).child [".git".toList] ≠ layout.parentGitDir := by
  intro heq
  have hfile := layout.worktreeGit
  rw [heq, layout.isDirectory] at hfile
  cases hfile

/-- What `resolveGitMounts` finds: the path of the repository's directory, behind that of a pointer
file if the host's directory is a worktree. -/
theorem resolveGitMounts_eq :
    place platform layout.gitDirPath = layout.parentGitDir ∧
      platform.isAbsolute layout.gitDirPath = true ∧
      (layout.gitDirPath ≠ layout.gitPath →
        place platform layout.gitPath ≠ layout.parentGitDir) ∧
      resolveGitMounts platform layout.files layout.cwd layout.gitPath
        = some layout.hostMounts := by
  rcases layout.hostGit with hmain | ⟨pointer, name, hfile, hplace⟩
  · -- the main repository: its directory is there
    have hstat : layout.files.stat platform layout.gitPath = some .directory := by
      rw [Files.stat, layout.place_gitPath, hmain, layout.isDirectory]
    have hpath : layout.gitDirPath = layout.gitPath := by rw [gitDirPath, hstat]
    rw [hostMounts, hpath, if_pos rfl, resolveGitMounts, hstat]
    exact ⟨layout.place_gitPath.trans hmain, layout.isAbsolute_gitPath, (absurd rfl ·), rfl⟩
  · -- a worktree: its pointer leads there
    have hstat : layout.files.stat platform layout.gitPath = some (.file pointer.content) := by
      rw [Files.stat, layout.place_gitPath, hfile]
    have hresolve : ∀ more, resolve platform layout.cwd pointer.text more
        = join platform pointer.text more := fun more => if_pos pointer.absolute
    have hpath : layout.gitDirPath = join platform pointer.text ["..".toList, "..".toList] := by
      rw [gitDirPath, hstat]
      dsimp only
      rw [pointer.gitdirOf_content]
      exact hresolve _
    have hparent : place platform layout.gitDirPath = layout.parentGitDir := by
      rw [hpath, place_join_up pointer.absolute hplace]
    have hgit : place platform layout.gitPath ≠ layout.parentGitDir := by
      intro heq
      have hdirectory := layout.isDirectory
      rw [← heq, layout.place_gitPath, hfile] at hdirectory
      cases hdirectory
    have hne : layout.gitDirPath ≠ layout.gitPath := fun heq => hgit (heq ▸ hparent)
    refine ⟨hparent, hpath ▸ isAbsolute_join pointer.absolute plain_up, fun _ => hgit, ?_⟩
    rw [hostMounts, if_neg hne, resolveGitMounts, hstat]
    dsimp only
    rw [pointer.gitdirOf_content]
    dsimp only
    rw [hresolve, hpath]

theorem mem_hostMounts {m : MountEntry} (h : m ∈ layout.hostMounts) :
    m.sandboxPath = m.hostPath ∧ platform.isAbsolute m.hostPath = true ∧
      place platform m.hostPath ≠ (place platform layout.worktreePath).child [".git".toList] ∧
      (place platform m.hostPath = layout.parentGitDir → m.hostPath = layout.gitDirPath) := by
  obtain ⟨hplace, habsolute, hne, -⟩ := layout.resolveGitMounts_eq
  have hdir : place platform layout.gitDirPath
      ≠ (place platform layout.worktreePath).child [".git".toList] :=
    fun heq => layout.worktreeGit_ne_parentGitDir (heq.symm.trans hplace)
  have hgit := layout.place_worktreeGit_ne.symm
  unfold hostMounts at h
  split at h
  · rename_i heq
    rw [List.mem_singleton.mp h]
    exact ⟨rfl, layout.isAbsolute_gitPath, hgit, fun _ => heq.symm⟩
  · rename_i hother
    rcases List.mem_pair.mp h with rfl | rfl
    · exact ⟨rfl, layout.isAbsolute_gitPath, hgit, (absurd · (hne hother))⟩
    · exact ⟨rfl, habsolute, hdir, fun _ => rfl⟩

theorem gitDirPath_mem : (⟨layout.gitDirPath, layout.gitDirPath⟩ : MountEntry)
    ∈ layout.hostMounts := by
  unfold hostMounts
  split
  · rename_i heq
    simp [heq]
  · simp

end Layout

/-! ### Paths in the sandbox -/

/-- Neither the worktree's `.git`, nor above the directory that takes the repository's place. -/
structure IsAside (sandboxPath : List Char) : Prop where
  ne : sandboxPath ≠ gitInSandbox
  above : ∀ rest, ¬sandboxPath ++ ['/'] <+: PARENT_GIT_SANDBOX_DIR ++ rest

theorem not_above (rest more : List Char) :
    ¬SANDBOX_REPO_DIR ++ rest ++ ['/'] <+: PARENT_GIT_SANDBOX_DIR ++ more := by
  rintro ⟨tail, htail⟩
  -- they differ in their second characters
  have hsecond : some 'h' = some '.' := congrArg (fun path : List Char => path[1]?) htail
  exact absurd hsecond (by decide)

theorem isAside_below {rest : List Char} (h : rest ≠ "/.git".toList) :
    IsAside (SANDBOX_REPO_DIR ++ rest) :=
  ⟨fun heq => h (List.append_cancel_left heq), not_above rest⟩

theorem isAside_repoDir : IsAside SANDBOX_REPO_DIR := by
  have hbelow := @isAside_below [] (by decide)
  rwa [List.append_nil] at hbelow

theorem slashes_ne_cons {path : List Char} (h : Platform.win32.isAbsolute path = true)
    (rest : List Char) : slashes .win32 path ≠ '/' :: rest := by
  obtain ⟨device, first, more, rfl, -, hwritten⟩ := exists_of_isAbsolute h
  rcases device_cases hwritten.device_length hwritten.absolute with ⟨hplatform, -⟩ | hdrive
  · cases hplatform
  obtain ⟨letter, -, hdevice, hletter⟩ := hdrive
  have hplain := hwritten.device_plain letter (hdevice ▸ List.mem_cons_self)
  rw [show device = [letter, ':'] from hdevice, List.cons_append, slashes_cons, hplain]
  intro heq
  rw [show letter = '/' from (List.cons.inj heq).1] at hletter
  exact absurd hletter (by decide)

theorem isAside_slashes {path : List Char} (h : Platform.win32.isAbsolute path = true) :
    IsAside (slashes .win32 path) := by
  cases hpath : slashes .win32 path with
  | nil => exact absurd (List.map_eq_nil_iff.mp hpath) (by rintro rfl; cases h)
  | cons first rest =>
    have hfirst : first ≠ '/' := fun heq => slashes_ne_cons h rest (heq ▸ hpath)
    constructor
    · intro heq
      exact hfirst (List.cons.inj heq).1
    · rintro more ⟨tail, htail⟩
      exact hfirst (List.cons.inj htail).1

theorem isAside_normalizeSandboxPath {worktree path : List Char}
    (hworktree : Platform.win32.isAbsolute worktree = true)
    (hpath : Platform.win32.isAbsolute path = true)
    (hne : place .win32 path ≠ (place .win32 worktree).child [".git".toList]) :
    IsAside (normalizeSandboxPath worktree SANDBOX_REPO_DIR path) := by
  have hwindows : isWindowsPath path = true := by simp [isWindowsPath, hpath]
  unfold normalizeSandboxPath
  dsimp only
  rw [if_pos hwindows]
  split
  · rename_i hprefix
    obtain ⟨rest, hrest⟩ := List.isPrefixOf_iff_prefix.mp hprefix
    rw [← hrest, List.append_assoc, List.drop_left]
    refine isAside_below fun heq => hne ?_
    -- the path would be that of the worktree's file
    have hslashes : slashes .win32 path = slashes .win32 (worktree ++ "/.git".toList) := by
      rw [← hrest, List.append_assoc, heq, slashes_append]
      rfl
    have habsolute := isAbsolute_append hworktree "/.git".toList
    rw [place_eq_of_slashes hpath habsolute hslashes, place_concat_git hworktree]
  · split
    · exact isAside_repoDir
    · exact isAside_slashes hpath

theorem normalizeSandboxPath_of_mem (worktree : List Char) {path : List Char}
    (h : path ∈ [SANDBOX_REPO_DIR, gitInSandbox, PARENT_GIT_SANDBOX_DIR]) :
    normalizeSandboxPath worktree SANDBOX_REPO_DIR path = path := by
  have hposix : ∀ path ∈ [SANDBOX_REPO_DIR, gitInSandbox, PARENT_GIT_SANDBOX_DIR],
      isWindowsPath path = false := by decide
  unfold normalizeSandboxPath
  simp only [hposix path h, Bool.false_eq_true, if_false]

/-! ### The loop over the mounts -/

/-- A mount with the parent directory's path leads to another place in the sandbox. -/
def redirect (parentGitDir : List Char) (m : MountEntry) : MountEntry :=
  if slashes .win32 m.hostPath = parentGitDir then
    { m with sandboxPath := PARENT_GIT_SANDBOX_DIR }
  else m

theorem redirect_hostPath (parentGitDir : List Char) (m : MountEntry) :
    (redirect parentGitDir m).hostPath = m.hostPath := by
  unfold redirect
  split <;> rfl

theorem correctMount_of_ne {parentGitDir gitFile temp : List Char} {m : MountEntry}
    (h : slashes .win32 m.hostPath ≠ gitFile) (done : Correction) :
    correctMount parentGitDir gitFile temp done m
      = { done with correctedMounts := done.correctedMounts ++ [redirect parentGitDir m] } := by
  unfold correctMount redirect
  dsimp only
  rw [if_neg h]
  split <;> rfl

theorem foldl_correctMount {parentGitDir gitFile temp : List Char} {ms : List MountEntry}
    (h : ∀ m ∈ ms, slashes .win32 m.hostPath ≠ gitFile) (done : Correction) :
    ms.foldl (correctMount parentGitDir gitFile temp) done
      = { done with correctedMounts := done.correctedMounts ++ ms.map (redirect parentGitDir) }
    := by
  induction ms generalizing done with
  | nil => simp
  | cons m ms ih =>
    rw [List.foldl_cons, correctMount_of_ne (h m List.mem_cons_self),
      ih fun other hother => h other (List.mem_cons_of_mem _ hother)]
    simp

/-! ### The mounts of an entry point -/

/-- There is one file at the worktree's `.git`, and the directory that it names is below a mount of
the repository's directory. -/
def Resolves (parentGitDir : Path) (mounts : List MountEntry) (files : Files) : Prop :=
  ∃ overlay content gitdir, mounts.filter (·.sandboxPath = gitInSandbox) = [overlay] ∧
    files.stat .win32 overlay.hostPath = some (.file content) ∧
    gitReads content = some gitdir ∧
    ∃ m ∈ mounts, place .win32 m.hostPath = parentGitDir ∧ m.sandboxPath ++ ['/'] <+: gitdir

namespace Layout

section Windows

variable (layout : Layout .win32)

/-- The parent directory by the worktree's pointer. -/
def pointed : List Char := (parseGitdirPath layout.pointer.text).parentGitDir

/-- The mount of the file that names the directory. -/
def overlay : MountEntry := ⟨layout.tempGitFile, gitInSandbox⟩

def overlayText : List Char := overrideText (parseGitdirPath layout.pointer.text).worktreeName

theorem patchGitMountsForWindows_eq :
    patchGitMountsForWindows .win32 layout.files layout.tempGitFile layout.hostMounts
        layout.worktreePath
      = (layout.hostMounts.map (redirect layout.pointed) ++ [layout.overlay],
          layout.files.writeFile .win32 layout.tempGitFile layout.overlayText) := by
  have hplace := place_join_git layout.absolute_worktree
  have hstat : layout.files.stat .win32 (join .win32 layout.worktreePath [".git".toList])
      = some (.file layout.pointer.content) := by
    rw [Files.stat, hplace, layout.worktreeGit]
  have hother : ∀ m ∈ layout.hostMounts, slashes .win32 m.hostPath
      ≠ slashes .win32 (join .win32 layout.worktreePath [".git".toList]) := by
    intro m hm heq
    obtain ⟨-, habsolute, hne, -⟩ := layout.mem_hostMounts hm
    have hjoin := isAbsolute_join layout.absolute_worktree plain_git
    exact hne ((place_eq_of_slashes habsolute hjoin heq).trans hplace)
  unfold patchGitMountsForWindows
  dsimp only
  rw [if_pos rfl, hstat]
  dsimp only
  rw [layout.pointer.gitdirOf_content]
  dsimp only
  rw [slashes_parentGitDir, foldl_correctMount hother]
  rfl

/-- What the provider gets for the host's mounts, redirected or not. -/
def normalized (m : MountEntry) : MountEntry :=
  { hostPath := slashes .win32 m.hostPath
    sandboxPath := normalizeSandboxPath layout.worktreePath SANDBOX_REPO_DIR m.sandboxPath }

theorem normalized_repoDir : layout.normalized ⟨layout.worktreePath, SANDBOX_REPO_DIR⟩
    = ⟨slashes .win32 layout.worktreePath, SANDBOX_REPO_DIR⟩ := by
  rw [normalized, normalizeSandboxPath_of_mem _ (by simp)]

theorem normalized_overlay : layout.normalized layout.overlay
    = ⟨slashes .win32 layout.tempGitFile, gitInSandbox⟩ := by
  rw [normalized, overlay, normalizeSandboxPath_of_mem _ (by simp)]

theorem isAside_normalized {m : MountEntry} (h : m ∈ layout.hostMounts) :
    IsAside (layout.normalized m).sandboxPath := by
  obtain ⟨hsame, habsolute, hne, -⟩ := layout.mem_hostMounts h
  show IsAside (normalizeSandboxPath _ _ m.sandboxPath)
  rw [hsame]
  exact isAside_normalizeSandboxPath layout.absolute_worktree habsolute hne

theorem normalized_redirect {m : MountEntry} (h : m ∈ layout.hostMounts) :
    (slashes .win32 m.hostPath = layout.pointed ∧
        (layout.normalized (redirect layout.pointed m)).sandboxPath = PARENT_GIT_SANDBOX_DIR) ∨
      (slashes .win32 m.hostPath ≠ layout.pointed ∧
        IsAside (layout.normalized (redirect layout.pointed m)).sandboxPath) := by
  unfold redirect
  split
  · rename_i heq
    refine .inl ⟨heq, ?_⟩
    show normalizeSandboxPath layout.worktreePath SANDBOX_REPO_DIR PARENT_GIT_SANDBOX_DIR = _
    rw [normalizeSandboxPath_of_mem _ (by simp)]
  · rename_i hne
    exact .inr ⟨hne, layout.isAside_normalized h⟩

theorem not_resolves (files : Files) : ¬Resolves layout.parentGitDir
    ((⟨layout.worktreePath, SANDBOX_REPO_DIR⟩ :: layout.hostMounts).map layout.normalized)
    files := by
  rintro ⟨overlay, content, gitdir, hfilter, -⟩
  have hmem : overlay ∈ [overlay] := List.mem_singleton_self _
  rw [← hfilter, List.mem_filter, decide_eq_true_eq, List.map_cons, normalized_repoDir] at hmem
  obtain ⟨hin, hat⟩ := hmem
  rcases List.mem_cons.mp hin with rfl | hin
  · exact isAside_repoDir.ne hat
  · obtain ⟨m, hm, rfl⟩ := List.mem_map.mp hin
    exact (layout.isAside_normalized hm).ne hat

theorem filter_patched :
    ((⟨layout.worktreePath, SANDBOX_REPO_DIR⟩
        :: (layout.hostMounts.map (redirect layout.pointed) ++ [layout.overlay])).map
          layout.normalized).filter (·.sandboxPath = gitInSandbox)
      = [layout.normalized layout.overlay] := by
  have hhost : ((layout.hostMounts.map (redirect layout.pointed)).map layout.normalized).filter
      (·.sandboxPath = gitInSandbox) = [] := by
    rw [List.filter_eq_nil_iff]
    intro m hm
    rw [List.map_map] at hm
    obtain ⟨own, hmem, rfl⟩ := List.mem_map.mp hm
    rw [decide_eq_true_eq]
    show (layout.normalized (redirect layout.pointed own)).sandboxPath ≠ _
    rcases layout.normalized_redirect hmem with ⟨-, hparent⟩ | ⟨-, haside⟩
    · rw [hparent]
      decide
    · exact haside.ne
  have hrepo : ¬SANDBOX_REPO_DIR = gitInSandbox := isAside_repoDir.ne
  rw [List.map_cons, List.map_append, List.map_singleton, normalized_repoDir, normalized_overlay,
    List.filter_cons_of_neg (by simpa using hrepo), List.filter_append, hhost]
  simp

/-- The worktree's pointer spells the repository's directory as the host's does. -/
def SpelledAlike : Prop :=
  (segments layout.pointer.text).dropLast.dropLast = parts .win32 layout.gitDirPath

theorem spelledAlike_iff :
    layout.SpelledAlike ↔ slashes .win32 layout.gitDirPath = layout.pointed := by
  obtain ⟨-, habsolute, -, -⟩ := layout.resolveGitMounts_eq
  have hne : layout.gitDirPath ≠ [] := by
    intro hnil
    rw [hnil] at habsolute
    cases habsolute
  exact (eq_parentGitDir_iff layout.pointer.text hne).symm

theorem stat_overlay : (layout.files.writeFile .win32 layout.tempGitFile layout.overlayText).stat
    .win32 (layout.normalized layout.overlay).hostPath = some (.file layout.overlayText) := by
  rw [normalized_overlay, Files.stat, place_slashes layout.absolute_temp, Files.writeFile,
    if_pos rfl]

theorem resolves_patched_iff : Resolves layout.parentGitDir
    ((⟨layout.worktreePath, SANDBOX_REPO_DIR⟩
        :: (layout.hostMounts.map (redirect layout.pointed) ++ [layout.overlay])).map
          layout.normalized)
    (layout.files.writeFile .win32 layout.tempGitFile layout.overlayText)
      ↔ layout.SpelledAlike := by
  obtain ⟨hplace, habsolute, -, -⟩ := layout.resolveGitMounts_eq
  rw [layout.spelledAlike_iff]
  constructor
  · rintro ⟨overlay, content, gitdir, hfilter, hcontent, hgitdir, m, hm, hdir, habove⟩
    rw [layout.filter_patched] at hfilter
    cases hfilter
    rw [layout.stat_overlay] at hcontent
    cases hcontent
    rw [overlayText, gitReads_overrideText] at hgitdir
    cases hgitdir
    -- which mount is above the directory that the file names?
    rw [List.map_cons, normalized_repoDir, List.map_append, List.map_map, List.map_singleton,
      normalized_overlay] at hm
    rcases List.mem_cons.mp hm with rfl | hm
    · exact absurd habove (isAside_repoDir.above _)
    rcases List.mem_append.mp hm with hm | hm
    · obtain ⟨own, hmem, rfl⟩ := List.mem_map.mp hm
      rcases layout.normalized_redirect hmem with ⟨hsame, -⟩ | ⟨-, haside⟩
      · obtain ⟨-, hpath, -, hown⟩ := layout.mem_hostMounts hmem
        have hhost : place .win32 own.hostPath = layout.parentGitDir := by
          rw [← hdir, ← place_slashes hpath]
          show _ = place .win32 (slashes .win32 (redirect layout.pointed own).hostPath)
          rw [redirect_hostPath]
        rw [← hown hhost, hsame]
      · exact absurd habove (haside.above _)
    · rw [List.mem_singleton.mp hm] at habove
      exact absurd habove (not_above _ _)
  · intro halike
    have hmem := layout.gitDirPath_mem
    have hredirected : redirect layout.pointed ⟨layout.gitDirPath, layout.gitDirPath⟩
        = ⟨layout.gitDirPath, PARENT_GIT_SANDBOX_DIR⟩ := if_pos halike
    have hnormalized : layout.normalized ⟨layout.gitDirPath, PARENT_GIT_SANDBOX_DIR⟩
        = ⟨slashes .win32 layout.gitDirPath, PARENT_GIT_SANDBOX_DIR⟩ := by
      rw [normalized, normalizeSandboxPath_of_mem _ (by simp)]
    refine ⟨_, _, _, layout.filter_patched, layout.stat_overlay, gitReads_overrideText _,
      ⟨slashes .win32 layout.gitDirPath, PARENT_GIT_SANDBOX_DIR⟩, ?_, ?_, ?_⟩
    · rw [← hnormalized, ← hredirected]
      refine List.mem_map_of_mem (List.mem_cons_of_mem _ ?_)
      exact List.mem_append_left _ (List.mem_map_of_mem hmem)
    · rw [place_slashes habsolute, hplace]
    · exact List.prefix_append_right_inj _ |>.mpr ⟨_, rfl⟩

end Windows

/-! ### All entry points -/

variable {platform : Platform} (layout : Layout platform)

theorem gitMounts_eq (entry : EntryPoint) : entry.gitMounts platform layout.toHost
    = some (if entry.patches then
        patchGitMountsForWindows platform layout.files layout.tempGitFile layout.hostMounts
          layout.worktreePath
      else (layout.hostMounts, layout.files)) := by
  obtain ⟨-, -, -, hresolve⟩ := layout.resolveGitMounts_eq
  rw [gitPath] at hresolve
  unfold EntryPoint.gitMounts
  rw [hresolve]
  cases entry <;> rfl

def mountsOf (entry : EntryPoint) : Option (List MountEntry) :=
  (entry.gitMounts platform layout.toHost).map Prod.fst

/-- On Windows the provider gets a `.git` that resolves. -/
def ResolvesAt (entry : EntryPoint) : Prop :=
  platform = .win32 → ∃ mounts files,
    entry.sandboxMounts platform layout.toHost = some (mounts, files) ∧
      Resolves layout.parentGitDir mounts files

/-- On other platforms every path of the host is itself in the sandbox. -/
def KeepsPaths (entry : EntryPoint) : Prop :=
  platform ≠ .win32 → ∃ mounts, layout.mountsOf entry = some mounts ∧
    ∀ m ∈ mounts, m.sandboxPath = m.hostPath

/-- Every entry point gives the sandbox a `.git` that resolves, and the same mounts. -/
def GivesGit : Prop :=
  ∀ entry, layout.ResolvesAt entry ∧ layout.KeepsPaths entry ∧
    ∀ other, layout.mountsOf entry = layout.mountsOf other

theorem resolvesAt_iff (entry : EntryPoint) (layout : Layout .win32) :
    layout.ResolvesAt entry ↔ entry.patches = true ∧ layout.SpelledAlike := by
  have hmounts := layout.gitMounts_eq entry
  unfold ResolvesAt EntryPoint.sandboxMounts
  rw [hmounts]
  cases hpatches : entry.patches with
  | true =>
    rw [if_pos rfl, layout.patchGitMountsForWindows_eq, ← layout.resolves_patched_iff]
    constructor
    · intro h
      obtain ⟨mounts, files, hsome, hresolves⟩ := h rfl
      cases hsome
      exact ⟨rfl, hresolves⟩
    · rintro ⟨-, hresolves⟩ -
      exact ⟨_, _, rfl, hresolves⟩
  | false =>
    constructor
    · intro h
      obtain ⟨mounts, files, hsome, hresolves⟩ := h rfl
      cases hsome
      exact absurd hresolves (layout.not_resolves _)
    · rintro ⟨hpatch, -⟩
      cases hpatch

theorem mountsOf_eq_iff (entry other : EntryPoint) (layout : Layout .win32) :
    layout.mountsOf entry = layout.mountsOf other ↔ entry.patches = other.patches := by
  have hadded : (patchGitMountsForWindows .win32 layout.files layout.tempGitFile layout.hostMounts
      layout.worktreePath).1 ≠ layout.hostMounts := by
    rw [layout.patchGitMountsForWindows_eq]
    intro heq
    have hlength := congrArg List.length heq
    simp at hlength
  unfold mountsOf
  rw [layout.gitMounts_eq, layout.gitMounts_eq]
  cases entry.patches <;> cases other.patches <;> simp [hadded, hadded.symm]

theorem posix_gitMounts (hplatform : platform ≠ .win32) (entry : EntryPoint) :
    layout.mountsOf entry = some layout.hostMounts := by
  have hpatch : patchGitMountsForWindows platform layout.files layout.tempGitFile
      layout.hostMounts layout.worktreePath = (layout.hostMounts, layout.files) := if_neg hplatform
  rw [mountsOf, layout.gitMounts_eq, hpatch]
  simp

/-- The mounts are right, and the same at all entry points, exactly where they are not patched. On
Windows an entry point has to call the patch, and the worktree's pointer has to spell the
repository's directory as the path of the host does. -/
theorem givesGit_iff : (layout.GivesGit ↔ platform ≠ .win32) ∧
    ∀ entry : EntryPoint,
      (layout.ResolvesAt entry ↔ platform ≠ .win32 ∨
        entry.patches = true ∧
          (segments layout.pointer.text).dropLast.dropLast = parts .win32 layout.gitDirPath) ∧
      layout.KeepsPaths entry ∧
      ∀ other, layout.mountsOf entry = layout.mountsOf other ↔
        platform ≠ .win32 ∨ entry.patches = other.patches := by
  cases platform with
  | posix =>
    have hposix : Platform.posix ≠ .win32 := by decide
    have hkeeps : ∀ entry, layout.KeepsPaths entry := fun entry _ =>
      ⟨_, layout.posix_gitMounts hposix entry, fun m hm => (layout.mem_hostMounts hm).1⟩
    have hsame : ∀ entry other, layout.mountsOf entry = layout.mountsOf other := by
      intro entry other
      rw [layout.posix_gitMounts hposix entry, layout.posix_gitMounts hposix other]
    have hresolves : ∀ entry, layout.ResolvesAt entry := fun _ hwin => absurd hwin hposix
    refine ⟨⟨fun _ => hposix, fun _ entry => ⟨hresolves entry, hkeeps entry, hsame entry⟩⟩, ?_⟩
    exact fun entry => ⟨⟨fun _ => .inl hposix, fun _ => hresolves entry⟩, hkeeps entry,
      fun other => ⟨fun _ => .inl hposix, fun _ => hsame entry other⟩⟩
  | win32 =>
    have hwin : ¬Platform.win32 ≠ .win32 := fun h => h rfl
    constructor
    · constructor
      · intro h
        -- the entry points that patch differ from the others
        have hsame := (h .createSandbox).2.2 .worktreeInteractive
        rw [mountsOf_eq_iff] at hsame
        cases hsame
      · exact fun h => absurd rfl h
    · intro entry
      refine ⟨?_, fun h => absurd rfl h, fun other => ?_⟩
      · rw [resolvesAt_iff, or_iff_right hwin]
        rfl
      · rw [mountsOf_eq_iff, or_iff_right hwin]

end Layout

/-! ### A repository on drive `C:` -/

namespace Sample

/-- The pointer that git writes for a worktree on Windows. -/
def pointer : Pointer .win32 where
  text := "C:/repo/.git/worktrees/w".toList
  absolute := by decide
  line := eq_false_of_all (by decide)
  last c hc := by
    rw [show c = 'w' from (Option.some.inj hc).symm]
    decide

def files : Files := fun path =>
  if path = ⟨"c:".toList, ["repo".toList, ".git".toList]⟩ then some .directory
  else if path
      = ⟨"c:".toList, ["repo".toList, ".archloop".toList, "worktrees".toList, "w".toList,
          ".git".toList]⟩ then
    some (.file pointer.content)
  else none

def layout : Layout .win32 where
  files := files
  cwd := "C:\\repo".toList
  tempGitFile := "C:\\Temp\\git-override".toList
  hostRepoDir := "C:\\repo".toList
  worktreePath := "C:\\repo\\.archloop\\worktrees\\w".toList
  parentGitDir := ⟨"c:".toList, ["repo".toList, ".git".toList]⟩
  worktreeName := "w".toList
  pointer := pointer
  absolute_host := by decide
  absolute_worktree := by decide
  absolute_temp := by decide
  isDirectory := by decide
  hostGit := .inl (by decide)
  isBelow := ⟨[".archloop".toList, "worktrees".toList, "w".toList], by decide, by decide⟩
  worktreeGit := by decide
  pointer_place := by decide

end Sample

/-- The worktree's interactive session finds no `.git` that it can read. -/
theorem interactive_has_no_git : ¬Sample.layout.GivesGit := by
  intro h
  obtain ⟨mounts, files, hmounts, hresolves⟩ := (h .worktreeInteractive).1 rfl
  rw [EntryPoint.sandboxMounts, Sample.layout.gitMounts_eq] at hmounts
  cases hmounts
  exact Sample.layout.not_resolves _ hresolves

example : Sample.layout.ResolvesAt .createSandbox :=
  (Layout.resolvesAt_iff _ _).mpr ⟨rfl, by unfold Layout.SpelledAlike; decide⟩

end ArchLoop.GitMounts
