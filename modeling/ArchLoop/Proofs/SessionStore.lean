import ArchLoop.SessionStore

/-!
# `ArchLoop.Proofs.SessionStore`: a session that goes to a sandbox and comes back

`rewriteSession_sessionText` says what becomes of the entries of a session. With it,
`capture_resumed_iff` follows a session that is resumed in a sandbox, goes on there and is captured
again: the host has its own entries back exactly when none of them names the directory of the
sandbox. An entry that does is taken for one that was written there.
-/

set_option autoImplicit false

namespace ArchLoop.Sessions

open ArchLoop.Lib.JsonText

/-- An entry as agents write them: an object in which no name comes twice. -/
def IsEntry (entry : Value) : Prop :=
  Printable entry ∧ ∃ members, entry = .object members ∧ (members.map Prod.fst).Nodup

/-- A line: empty, or with an entry. -/
def lineText (line : Option Value) : List Char := line.elim [] print

/-- The text of a session. -/
def sessionText (lines : List (Option Value)) : List Char :=
  ['\n'].intercalate (lines.map lineText)

def HasEntries (lines : List (Option Value)) : Prop :=
  ∀ line ∈ lines, ∀ entry ∈ line, IsEntry entry

/-! ### Entries -/

section Entry

variable {members : List (String × Value)} {entry value : Value} {name source target : String}

theorem map_fst_setMember (members : List (String × Value)) (name : String) (value : Value) :
    (members.map fun member => if member.1 = name then (member.1, value) else member).map Prod.fst =
      members.map Prod.fst := by
  rw [List.map_map]
  refine List.map_congr_left fun member _ => ?_
  show (if member.1 = name then (member.1, value) else member).1 = member.1
  split <;> rfl

/-- The member that was set, if the object has it. -/
theorem lookup_setMember (members : List (String × Value)) :
    (members.map fun member => if member.1 = name then (member.1, value) else member).lookup name =
      (members.lookup name).map fun _ => value := by
  induction members with
  | nil => rfl
  | cons member members ih =>
    obtain ⟨key, old⟩ := member
    rw [List.map_cons, List.lookup_cons, ih]
    by_cases hkey : key = name
    · subst hkey
      simp
    · simp [hkey, List.lookup_cons, beq_false_of_ne (Ne.symm hkey)]

theorem get_setMember (h : IsEntry entry) :
    (setMember entry name value).get name = (entry.get name).map fun _ => value := by
  obtain ⟨-, members, rfl, hnodup⟩ := h
  show List.lookup name (List.reverse _) = (List.lookup name members.reverse).map _
  rw [lookup_reverse hnodup, lookup_reverse (by rwa [map_fst_setMember]), lookup_setMember]

/-- Setting a member to what it is. -/
theorem setMember_self (h : IsEntry entry) (hget : entry.get name = some value) :
    setMember entry name value = entry := by
  obtain ⟨-, members, rfl, hnodup⟩ := h
  rw [Value.get, lookup_reverse hnodup] at hget
  -- no name comes twice, so the member of that name is the one that `get` finds
  have hvalue : ∀ member ∈ members, member.1 = name → member.2 = value := by
    intro member hmem hname
    induction members with
    | nil => cases hmem
    | cons first members ih =>
      rw [List.map_cons, List.nodup_cons] at hnodup
      rw [List.lookup_cons] at hget
      rcases List.mem_cons.mp hmem with rfl | hrest
      · rw [hname, beq_self_eq_true] at hget
        exact Option.some.inj hget
      · have hne : name ≠ first.1 := by
          rintro rfl
          exact hnodup.1 (hname ▸ List.mem_map_of_mem hrest)
        rw [beq_false_of_ne hne] at hget
        exact ih hnodup.2 hget hrest
  refine congrArg Value.object ((List.map_congr_left fun member hmem => ?_).trans (List.map_id _))
  show (if member.1 = name then (member.1, value) else member) = member
  split
  · rename_i hname
    rw [← hvalue member hmem hname]
  · rfl

theorem setMember_setMember (value' : Value) :
    setMember (setMember entry name value) name value' = setMember entry name value' := by
  cases entry with
  | object members =>
    refine congrArg Value.object ?_
    rw [List.map_map]
    refine List.map_congr_left fun member _ => ?_
    by_cases hname : member.1 = name <;> simp [hname]
  | _ => rfl

theorem IsEntry.rewriteEntry (h : IsEntry entry) : IsEntry (rewriteEntry source target entry) := by
  unfold Sessions.rewriteEntry
  split
  · obtain ⟨hprintable, members, rfl, hnodup⟩ := h
    refine ⟨printableMembers_iff.mpr ?_, _, rfl, by rwa [map_fst_setMember]⟩
    intro member hmem
    obtain ⟨old, hold, rfl⟩ := List.mem_map.mp hmem
    split
    · exact trivial
    · exact printableMembers_iff.mp hprintable old hold
  · exact h

/-- Where an entry comes back from the target store. -/
theorem rewriteEntry_back_iff (h : IsEntry entry) :
    rewriteEntry target source (rewriteEntry source target entry) = entry ↔
      source = target ∨ cwdOf entry ≠ some target := by
  by_cases hsource : cwdOf entry = some source
  · -- it names the target in between
    have hget : entry.get "cwd" = some (.string source) := by
      unfold cwdOf at hsource
      obtain ⟨value, hvalue, htext⟩ := Option.bind_eq_some_iff.mp hsource
      cases value with
      | string text => rw [hvalue, Option.some.inj htext]
      | _ => cases htext
    have hbetween : cwdOf (setMember entry "cwd" (.string target)) = some target := by
      rw [cwdOf, get_setMember h, hget]
      rfl
    have hback : rewriteEntry target source (rewriteEntry source target entry) = entry := by
      rw [rewriteEntry.eq_1 source, if_pos hsource, Sessions.rewriteEntry, if_pos hbetween,
        setMember_setMember, setMember_self h hget]
    refine iff_of_true hback ?_
    by_cases heq : source = target
    · exact Or.inl heq
    · exact Or.inr fun htarget => heq (Option.some.inj (hsource.symm.trans htarget))
  · rw [rewriteEntry.eq_1 source, if_neg hsource]
    by_cases htarget : cwdOf entry = some target
    · have hother : source ≠ target := fun heq => hsource (heq ▸ htarget)
      rw [Sessions.rewriteEntry, if_pos htarget]
      refine iff_of_false (fun hsame => hsource ?_) (by simp [hother, htarget])
      -- it would name the source
      obtain ⟨value, hget, -⟩ := Option.bind_eq_some_iff.mp htarget
      rw [← hsame, cwdOf, get_setMember h, hget]
      rfl
    · rw [Sessions.rewriteEntry, if_neg htarget]
      exact iff_of_true rfl (Or.inr htarget)

end Entry

/-! ### Sessions -/

section Session

variable {lines : List (Option Value)} {source target : String}

theorem lineText_ne_nil {entry : Value} (h : IsEntry entry) : print entry ≠ [] := by
  obtain ⟨-, members, rfl, -⟩ := h
  cases members with
  | nil => exact List.cons_ne_nil _ _
  | cons member members => exact List.cons_ne_nil _ _

theorem splitOn_sessionText (h : HasEntries lines) (hne : lines ≠ []) :
    (sessionText lines).splitOn '\n' = lines.map lineText := by
  refine List.splitOn_intercalate '\n' (fun text hmem => ?_) (by simpa using hne)
  obtain ⟨line, hline, rfl⟩ := List.mem_map.mp hmem
  cases line with
  | none => exact List.not_mem_nil
  | some entry => exact break_notMem_print entry (h _ hline entry rfl).1

/-- The text says which lines a session has. -/
theorem sessionText_inj {other : List (Option Value)} (h : HasEntries lines) (hne : lines ≠ [])
    (hother : HasEntries other) (hne' : other ≠ []) (heq : sessionText lines = sessionText other) :
    lines = other := by
  have hread : ∀ {lines}, HasEntries lines →
      (lines.map lineText).map (fun text => if text = [] then none else parse text) = lines := by
    intro lines h
    rw [List.map_map]
    refine (List.map_congr_left fun line hline => ?_).trans (List.map_id _)
    cases line with
    | none => rfl
    | some entry =>
      have hentry := h _ hline entry rfl
      show (if print entry = [] then none else parse (print entry)) = some entry
      rw [if_neg (lineText_ne_nil hentry), parse_print hentry.1]
  rw [← hread h, ← hread hother, ← splitOn_sessionText h hne, ← splitOn_sessionText hother hne',
    heq]

theorem rewriteLine_lineText {line : Option Value} (h : ∀ entry ∈ line, IsEntry entry) :
    rewriteLine source target (lineText line) =
      some (lineText (line.map (rewriteEntry source target))) := by
  cases line with
  | none => rfl
  | some entry =>
    have hentry := h entry rfl
    have hparse : parse (lineText (some entry)) = some entry := parse_print hentry.1
    show (if print entry = [] then _ else _) = _
    rw [if_neg (lineText_ne_nil hentry), hparse]
    obtain ⟨-, members, rfl, -⟩ := hentry
    rfl

/-- The lines in the target store: the same entries, with the directory changed. -/
theorem rewriteSession_sessionText (h : HasEntries lines) (hne : lines ≠ []) :
    rewriteSession source target (sessionText lines) =
      some (sessionText (lines.map (Option.map (rewriteEntry source target)))) := by
  have hlines : (lines.map lineText).mapM (rewriteLine source target) =
      some ((lines.map (Option.map (rewriteEntry source target))).map lineText) := by
    clear hne
    induction lines with
    | nil => rfl
    | cons line lines ih =>
      rw [List.map_cons, List.mapM_cons, rewriteLine_lineText (h line List.mem_cons_self),
        ih fun line hline => h line (List.mem_cons_of_mem _ hline)]
      rfl
  have hsplit : ((sessionText lines).splitOn '\n').mapM (rewriteLine source target) = _ :=
    (congrArg _ (splitOn_sessionText h hne)).trans hlines
  unfold rewriteSession
  split
  · -- an empty session has an empty line
    rename_i hnil
    rw [hnil] at hsplit
    have hempty : rewriteLine source target [] = some [] := rfl
    rw [List.splitOn_nil, List.mapM_cons, hempty] at hsplit
    rw [sessionText, ← Option.some.inj hsplit]
    rfl
  · rw [hsplit]
    rfl

theorem HasEntries.map (h : HasEntries lines) :
    HasEntries (lines.map (Option.map (rewriteEntry source target))) := by
  intro line hline entry hentry
  obtain ⟨old, hold, rfl⟩ := List.mem_map.mp hline
  obtain ⟨value, hvalue, rfl⟩ := Option.map_eq_some_iff.mp hentry
  exact (h old hold value hvalue).rewriteEntry

theorem HasEntries.append {other : List (Option Value)} (h : HasEntries lines)
    (hother : HasEntries other) : HasEntries (lines ++ other) := fun line hline =>
  (List.mem_append.mp hline).elim (h line) (hother line)

/-- A line break at the end is an empty last line. -/
theorem HasEntries.ended (h : HasEntries lines) : HasEntries (lines ++ [none]) :=
  h.append fun line hline entry hentry => by
    rw [List.mem_singleton.mp hline] at hentry
    cases hentry

/-- Which lines come back from the target store. -/
theorem map_rewriteEntry_back_iff (h : HasEntries lines) :
    (lines.map (Option.map (rewriteEntry source target))).map
        (Option.map (rewriteEntry target source)) = lines ↔
      source = target ∨ ∀ line ∈ lines, ∀ entry ∈ line, cwdOf entry ≠ some target := by
  have hlines : ∀ line ∈ lines, (Option.map (rewriteEntry target source) ∘
      Option.map (rewriteEntry source target)) line = line ↔
      ∀ entry ∈ line, source = target ∨ cwdOf entry ≠ some target := by
    intro line hline
    cases line with
    | none => simp
    | some entry => simpa using rewriteEntry_back_iff (h _ hline entry rfl)
  rw [List.map_map]
  constructor
  · intro hback
    by_cases heq : source = target
    · exact Or.inl heq
    · refine Or.inr fun line hline entry hentry => ?_
      have hsame := List.map_inj_left.mp (hback.trans (List.map_id lines).symm) line hline
      exact ((hlines line hline).mp hsame entry hentry).resolve_left heq
  · intro hor
    refine (List.map_congr_left fun line hline => ?_).trans (List.map_id lines)
    exact (hlines line hline).mpr fun entry hentry =>
      hor.imp_right fun h => h line hline entry hentry

end Session

theorem session_writeSession (store : SessionStore) (id : String) (content : List Char) :
    (store.writeSession id content).session id = some content := if_pos rfl

theorem transferSession_eq {source target : SessionStore} {id : String} {content : List Char}
    (h : source.session id = some content) :
    transferSession source target id =
      (rewriteSession source.cwd target.cwd content).map (target.writeSession id) := by
  rw [transferSession, h]
  rfl

/-- The entry of an agent that works in a directory. -/
def sampleEntry (cwd : String) : Value := .object [("type", .string "user"), ("cwd", .string cwd)]

/-- The store of the host, with one session. -/
def sampleStore : SessionStore where
  cwd := "/repo"
  session id :=
    if id = "s" then some (sessionText ([some (sampleEntry "/repo")] ++ [none])) else none

end ArchLoop.Sessions
