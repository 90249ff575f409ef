import ArchLoop.Lib.Text

/-!
# `ArchLoop.Lib.Path`: absolute paths as texts

A path is a text, and which place it names depends on the platform: on Windows both slashes
separate, a drive comes first, and letters of either case are the same. `Path.parse` reads a text
into its device and the names below it, with `.`, `..` and doubled separators gone; `Path.text`
writes one back.

Two texts with the same characters up to the kind of separator name the same place
(`parse_slashes`), and what is written is read back (`parse_text`).
-/

set_option autoImplicit false

namespace ArchLoop.Lib

inductive Platform where
  | posix
  | win32
  deriving DecidableEq, Repr

namespace Platform

def isSeparator : Platform → Char → Bool
  | posix, c => c == '/'
  | win32, c => c == '/' || c == '\\'

/-- The one that the platform writes. -/
def separator : Platform → Char
  | posix => '/'
  | win32 => '\\'

/-- How many characters of an absolute path name its device. -/
def deviceLength : Platform → Nat
  | posix => 0
  | win32 => 2

/-- Names are the same if they are so up to this. -/
def foldCase : Platform → Char → Char
  | posix, c => c
  | win32, c => c.toLower

def isAbsolute : Platform → List Char → Bool
  | posix, first :: _ => first == '/'
  | win32, letter :: ':' :: first :: _ => letter.isAlpha && win32.isSeparator first
  | _, _ => false

@[simp] theorem isSeparator_separator (platform : Platform) :
    platform.isSeparator platform.separator = true := by
  cases platform <;> rfl

@[simp] theorem isSeparator_slash (platform : Platform) : platform.isSeparator '/' = true := by
  cases platform <;> rfl

end Platform

variable (platform : Platform)

/-- The text with `/` for every separator. -/
def slashes (text : List Char) : List Char :=
  text.map fun c => if platform.isSeparator c then '/' else c

/-- What stands between the separators. -/
def parts (text : List Char) : List (List Char) := (slashes platform text).splitOn '/'

/-- Where a part leads from the place that the names lead to. -/
def enter (names : List (List Char)) (part : List Char) : List (List Char) :=
  if part = [] ∨ part = ['.'] then names
  else if part = ['.', '.'] then names.dropLast
  else names ++ [part]

def walk (names : List (List Char)) (more : List (List Char)) : List (List Char) :=
  more.foldl enter names

@[ext] structure Path where
  device : List Char
  names : List (List Char)
  deriving DecidableEq, Repr

namespace Path

/-- The path of an absolute text. -/
def parse (text : List Char) : Path :=
  { device := text.take platform.deviceLength
    names := walk [] (parts platform (text.drop platform.deviceLength)) }

/-- The place that the parts lead to from there. -/
def descend (path : Path) (more : List (List Char)) : Path :=
  { path with names := walk path.names more }

def child (path : Path) (more : List (List Char)) : Path :=
  { path with names := path.names ++ more }

def text (path : Path) : List Char :=
  path.device ++ platform.separator :: [platform.separator].intercalate path.names

/-- The same for all paths to one place. -/
def fold (path : Path) : Path :=
  { device := path.device.map platform.foldCase
    names := path.names.map (·.map platform.foldCase) }

end Path

/-! ### Separators -/

section Slashes

variable {platform}

@[simp] theorem slashes_nil : slashes platform [] = [] := rfl

@[simp] theorem slashes_append (a b : List Char) :
    slashes platform (a ++ b) = slashes platform a ++ slashes platform b := by
  simp [slashes]

theorem slashes_cons (c : Char) (text : List Char) :
    slashes platform (c :: text)
      = (if platform.isSeparator c then '/' else c) :: slashes platform text := rfl

theorem slashes_eq_self {text : List Char}
    (h : ∀ c ∈ text, platform.isSeparator c = true → c = '/') : slashes platform text = text := by
  show text.map _ = text
  rw [List.map_congr_left (g := id), List.map_id]
  intro c hc
  by_cases hsep : platform.isSeparator c = true
  · simp [h c hc hsep]
  · simp [hsep]

theorem eq_slash_of_mem_slashes {text : List Char} {c : Char} (h : c ∈ slashes platform text)
    (hsep : platform.isSeparator c = true) : c = '/' := by
  obtain ⟨d, -, rfl⟩ := List.mem_map.mp h
  by_cases hd : platform.isSeparator d = true
  · simp [hd]
  · simp only [hd, Bool.false_eq_true, if_false] at hsep

@[simp] theorem slashes_slashes (text : List Char) :
    slashes platform (slashes platform text) = slashes platform text :=
  slashes_eq_self fun _ => eq_slash_of_mem_slashes

@[simp] theorem parts_slashes (text : List Char) :
    parts platform (slashes platform text) = parts platform text := by
  simp [parts]

theorem not_isSeparator_of_mem_parts {text part : List Char} {c : Char}
    (hpart : part ∈ parts platform text) (hc : c ∈ part) : platform.isSeparator c = false := by
  have hsub : c ∈ slashes platform text := (sublist_of_mem_splitOn hpart).subset hc
  have hne : c ≠ '/' := fun heq => notMem_of_mem_splitOn hpart (heq ▸ hc)
  by_contra hsep
  exact hne (eq_slash_of_mem_slashes hsub (by simpa using hsep))

end Slashes

/-! ### Names -/

/-- A part that is the name of a file. -/
structure IsName (name : List Char) : Prop where
  ne : name ≠ []
  dot : name ≠ ['.']
  dots : name ≠ ['.', '.']
  plain : ∀ c ∈ name, platform.isSeparator c = false

section Walk

variable {platform} {names more : List (List Char)}

@[simp] theorem walk_nil : walk names [] = names := rfl

theorem walk_cons (part : List Char) :
    walk names (part :: more) = walk (enter names part) more := rfl

theorem walk_append (a b : List (List Char)) : walk names (a ++ b) = walk (walk names a) b :=
  List.foldl_append

theorem enter_of_isName {name : List Char} (h : IsName platform name) :
    enter names name = names ++ [name] := by
  rw [enter, if_neg (by simp [h.ne, h.dot]), if_neg h.dots]

@[simp] theorem enter_empty : enter names [] = names := by simp [enter]

@[simp] theorem enter_up : enter names ['.', '.'] = names.dropLast := by simp [enter]

theorem walk_of_isName (h : ∀ name ∈ more, IsName platform name) :
    walk names more = names ++ more := by
  induction more generalizing names with
  | nil => simp
  | cons name more ih =>
    have hrest := @ih (names ++ [name]) fun other hother =>
      h other (List.mem_cons_of_mem _ hother)
    rw [walk_cons, enter_of_isName (h name List.mem_cons_self), hrest, List.append_assoc,
      List.singleton_append]

theorem isName_enter {part : List Char} (hnames : ∀ name ∈ names, IsName platform name)
    (hpart : ∀ c ∈ part, platform.isSeparator c = false) :
    ∀ name ∈ enter names part, IsName platform name := by
  intro name hname
  unfold enter at hname
  split at hname
  · exact hnames name hname
  rename_i hdot
  split at hname
  · exact hnames name (List.dropLast_subset _ hname)
  rename_i hdots
  rcases List.mem_append.mp hname with hold | hnew
  · exact hnames name hold
  · rw [List.mem_singleton.mp hnew]
    exact ⟨fun h => hdot (.inl h), fun h => hdot (.inr h), hdots, hpart⟩

theorem isName_walk (hnames : ∀ name ∈ names, IsName platform name)
    (hmore : ∀ part ∈ more, ∀ c ∈ part, platform.isSeparator c = false) :
    ∀ name ∈ walk names more, IsName platform name := by
  induction more generalizing names with
  | nil => exact hnames
  | cons part more ih =>
    have hentered := isName_enter hnames (hmore part List.mem_cons_self)
    exact ih hentered fun other hother => hmore other (List.mem_cons_of_mem _ hother)

end Walk

/-! ### Reading and writing -/

namespace Path

variable {platform} {path : Path} {more : List (List Char)} {t u : List Char}

/-- What `parse` gives, and what `text` can write. -/
structure IsWritten (platform : Platform) (path : Path) : Prop where
  device_length : path.device.length = platform.deviceLength
  absolute : platform.isAbsolute (path.device ++ [platform.separator]) = true
  names : ∀ name ∈ path.names, IsName platform name

theorem device_cases (hlength : path.device.length = platform.deviceLength)
    {first : Char} {rest : List Char}
    (h : platform.isAbsolute (path.device ++ first :: rest) = true) :
    (platform = .posix ∧ path.device = []) ∨
      ∃ letter, platform = .win32 ∧ path.device = [letter, ':'] ∧ letter.isAlpha = true := by
  cases platform with
  | posix => exact .inl ⟨rfl, List.length_eq_zero_iff.mp hlength⟩
  | win32 =>
    obtain ⟨letter, colon, hdevice⟩ := List.length_eq_two.mp hlength
    rw [hdevice] at h
    change Platform.win32.isAbsolute (letter :: colon :: first :: rest) = true at h
    unfold Platform.isAbsolute at h
    split at h
    · rename_i hposix _
      cases hposix
    · rename_i letter' first' rest' heq
      simp only [List.cons.injEq] at heq
      obtain ⟨rfl, rfl, rfl, rfl⟩ := heq
      rw [Bool.and_eq_true] at h
      exact .inr ⟨letter, rfl, hdevice, h.1⟩
    · cases h

theorem IsWritten.device_plain (h : IsWritten platform path) :
    ∀ c ∈ path.device, platform.isSeparator c = false := by
  intro c hc
  rcases device_cases h.device_length h.absolute with
    ⟨-, hdevice⟩ | ⟨letter, rfl, hdevice, hletter⟩
  · simp [hdevice] at hc
  · rw [hdevice] at hc
    rcases List.mem_cons.mp hc with rfl | hcolon
    · -- a letter is no separator
      by_contra hsep
      simp only [Platform.isSeparator, Bool.not_eq_false, Bool.or_eq_true, beq_iff_eq] at hsep
      rcases hsep with rfl | rfl <;> exact absurd hletter (by decide)
    · rw [List.mem_singleton.mp hcolon]
      rfl

theorem exists_of_isAbsolute (h : platform.isAbsolute t = true) :
    ∃ device first rest, t = device ++ first :: rest ∧ platform.isSeparator first = true ∧
      IsWritten platform ⟨device, []⟩ := by
  unfold Platform.isAbsolute at h
  split at h
  · rename_i first rest
    exact ⟨[], first, rest, rfl, h, rfl, rfl, by simp⟩
  · rename_i letter first rest
    rw [Bool.and_eq_true] at h
    have habsolute : Platform.win32.isAbsolute [letter, ':', '\\'] = true := by
      show (letter.isAlpha && true) = true
      rw [h.1, Bool.and_true]
    exact ⟨[letter, ':'], first, rest, rfl, h.2, rfl, habsolute, by simp⟩
  · cases h

theorem IsWritten.isAbsolute_append (h : IsWritten platform path) {first : Char}
    (hfirst : platform.isSeparator first = true) (rest : List Char) :
    platform.isAbsolute (path.device ++ first :: rest) = true := by
  rcases device_cases h.device_length h.absolute with
    ⟨rfl, hdevice⟩ | ⟨letter, rfl, hdevice, hletter⟩
  · rw [hdevice]
    exact hfirst
  · rw [hdevice]
    show (letter.isAlpha && Platform.win32.isSeparator first) = true
    rw [hletter, hfirst]
    rfl

theorem IsWritten.parse_append (h : IsWritten platform path) {first : Char}
    (hfirst : platform.isSeparator first = true) (rest : List Char) :
    parse platform (path.device ++ first :: rest)
      = ⟨path.device, walk [] (parts platform rest)⟩ := by
  have hparts : parts platform (first :: rest) = [] :: parts platform rest := by
    rw [parts, slashes_cons, if_pos hfirst, List.splitOn_cons_eq_if_modifyHead]
    simp [parts]
  unfold parse
  rw [← h.device_length, List.take_left, List.drop_left, hparts, walk_cons, enter_empty]

theorem isWritten_parse (h : platform.isAbsolute t = true) :
    IsWritten platform (parse platform t) := by
  obtain ⟨device, first, rest, rfl, hfirst, hwritten⟩ := exists_of_isAbsolute h
  rw [hwritten.parse_append hfirst]
  refine ⟨hwritten.device_length, hwritten.absolute, ?_⟩
  exact isName_walk (by simp) fun part hpart c hc => not_isSeparator_of_mem_parts hpart hc

theorem isAbsolute_append (h : platform.isAbsolute t = true) (more : List Char) :
    platform.isAbsolute (t ++ more) = true := by
  obtain ⟨device, first, rest, rfl, hfirst, hwritten⟩ := exists_of_isAbsolute h
  rw [List.append_assoc, List.cons_append]
  exact hwritten.isAbsolute_append hfirst (rest ++ more)

theorem slashes_intercalate {names : List (List Char)}
    (hnames : ∀ name ∈ names, IsName platform name) :
    slashes platform ([platform.separator].intercalate names) = ['/'].intercalate names := by
  induction names with
  | nil => rfl
  | cons name names ih =>
    have hname : slashes platform name = name := slashes_eq_self fun c hc hsep => by
      simp [(hnames name List.mem_cons_self).plain c hc] at hsep
    have hrest := ih fun other hother => hnames other (List.mem_cons_of_mem _ hother)
    cases names with
    | nil => simpa using hname
    | cons next rest =>
      have hne : next :: rest ≠ [] := by simp
      rw [List.intercalate_cons_of_ne_nil hne, List.intercalate_cons_of_ne_nil hne,
        slashes_append, slashes_append, hname, hrest]
      simp [slashes]

theorem parts_intercalate {names : List (List Char)} (hne : names ≠ [])
    (hnames : ∀ name ∈ names, IsName platform name) :
    parts platform ([platform.separator].intercalate names) = names := by
  have hplain : ∀ name ∈ names, '/' ∉ name := by
    intro name hname hslash
    have hsep := (hnames name hname).plain _ hslash
    simp at hsep
  rw [parts, slashes_intercalate hnames]
  exact List.splitOn_intercalate '/' hplain hne

theorem IsWritten.parse_text (h : IsWritten platform path) :
    parse platform (path.text platform) = path := by
  rw [text, h.parse_append (by simp)]
  by_cases hne : path.names = []
  · -- no name: the one part is empty
    ext1
    · rfl
    · simp [hne, parts, walk_cons]
  · rw [parts_intercalate hne h.names, walk_of_isName h.names, List.nil_append]

theorem isAbsolute_text (h : IsWritten platform path) :
    platform.isAbsolute (path.text platform) = true :=
  h.isAbsolute_append (by simp) _

theorem parse_slashes (h : platform.isAbsolute t = true) :
    parse platform (slashes platform t) = parse platform t := by
  obtain ⟨device, first, rest, rfl, hfirst, hwritten⟩ := exists_of_isAbsolute h
  have hplain : slashes platform device = device :=
    slashes_eq_self fun c hc hsep => by simp [hwritten.device_plain c hc] at hsep
  have hslashes := hwritten.parse_append (platform.isSeparator_slash) (slashes platform rest)
  rw [slashes_append, slashes_cons, hplain, if_pos hfirst, hwritten.parse_append hfirst, hslashes,
    parts_slashes]

theorem IsWritten.descend (h : IsWritten platform path)
    (hmore : ∀ part ∈ more, ∀ c ∈ part, platform.isSeparator c = false) :
    IsWritten platform (path.descend more) :=
  ⟨h.device_length, h.absolute, isName_walk h.names hmore⟩

theorem parse_concat (h : platform.isAbsolute t = true) (part : List Char) :
    parse platform (t ++ '/' :: part) = (parse platform t).descend (parts platform part) := by
  obtain ⟨device, first, rest, rfl, hfirst, hwritten⟩ := exists_of_isAbsolute h
  have hparts : parts platform (rest ++ '/' :: part)
      = parts platform rest ++ parts platform part := by
    rw [parts, slashes_append, slashes_cons, if_pos (by simp), splitOn_separator]
    rfl
  rw [List.append_assoc, List.cons_append, hwritten.parse_append hfirst,
    hwritten.parse_append hfirst, hparts, walk_append]
  rfl

theorem parse_eq_of_slashes (ht : platform.isAbsolute t = true) (hu : platform.isAbsolute u = true)
    (h : slashes platform t = slashes platform u) : parse platform t = parse platform u := by
  rw [← parse_slashes ht, h, parse_slashes hu]

end Path

end ArchLoop.Lib
