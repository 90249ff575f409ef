import Mathlib.Algebra.Order.BigOperators.Group.List
import ArchLoop.EnvFile

/-!
# `ArchLoop.Proofs.EnvFile`: which credentials survive a write

Setting one credential writes the whole file anew, and each value is written as it is. The reader
takes quotes off and undoes escapes, so a value that still has quotes around it, or a line break in
it, is another value at the next read.

`roundTrip_iff` says when a map of variables is read back as it was written. A value with a line
break writes lines of its own, which may set other variables, but never the longest such value
(`exists_longer`). `keepsOthers_iff` has the result for one credential.
-/

set_option autoImplicit false

namespace ArchLoop.EnvFile

open ArchLoop.Lib

/-! ### Statement -/

structure IsKey (key : String) : Prop where
  trimmed : trim key = key
  line : '\n' ∉ key.toList
  equals : '=' ∉ key.toList
  comment : key.toList.head? ≠ some '#'
  setter : key ≠ "__proto__"

/-- A value that the reader reads as it is written. -/
structure IsBare (value : String) : Prop where
  trimmed : trim value = value
  line : '\n' ∉ value.toList
  double : isQuotedBy '"' value.toList = false
  single : isQuotedBy '\'' value.toList = false

def changed (file : Option String) (key value k : String) : Option String :=
  if k = key then some (normalizeHubEnvValue value) else (readHubEnvFile file).lookup k

/-- After the write the file has this variable and all others as before, and the same write again
changes nothing. -/
structure KeepsOthers (file : Option String) (key value : String) : Prop where
  read : ∀ k, (readHubEnvFile (some (upsertHubEnvKey key value file))).lookup k =
    changed file key value k
  again : upsertHubEnvKey key value (some (upsertHubEnvKey key value file)) =
    upsertHubEnvKey key value file

/-! ### Blanks -/

section Blanks

variable {text : String} {l before middle after : List Char}

theorem getLast?_trimmed (l : List Char) :
    ∀ c ∈ ((l.dropWhile isBlank).rdropWhile isBlank).getLast?, isBlank c = false := by
  intro c hc
  have hnot := List.rdropWhile_last_not isBlank (l.dropWhile isBlank)
  cases htrimmed : (l.dropWhile isBlank).rdropWhile isBlank with
  | nil =>
    rw [htrimmed] at hc
    cases hc
  | cons d rest =>
    have hne : (l.dropWhile isBlank).rdropWhile isBlank ≠ [] := by
      rw [htrimmed]
      exact List.cons_ne_nil d rest
    have hlast := hnot hne
    rw [List.getLast?_eq_some_getLast hne] at hc
    cases hc
    simpa using hlast

theorem exists_trim (text : String) : ∃ before after, text.toList =
    before ++ (trim text).toList ++ after ∧ (∀ c ∈ before, isBlank c = true) ∧
      ∀ c ∈ after, isBlank c = true := by
  refine ⟨text.toList.takeWhile isBlank, (text.toList.dropWhile isBlank).rtakeWhile isBlank, ?_,
    fun c hc => List.mem_takeWhile_imp hc, fun c hc => ?_⟩
  · rw [trim, String.toList_ofList, List.append_assoc, List.rdropWhile_append_rtakeWhile,
      List.takeWhile_append_dropWhile]
  · exact List.mem_rtakeWhile_imp hc

theorem trim_eq (htext : text.toList = before ++ middle ++ after)
    (hbefore : ∀ c ∈ before, isBlank c = true) (hafter : ∀ c ∈ after, isBlank c = true)
    (hhead : ∀ c ∈ middle.head?, isBlank c = false)
    (hlast : ∀ c ∈ middle.getLast?, isBlank c = false) : (trim text).toList = middle := by
  have hdrop : ∀ front rest : List Char, (∀ c ∈ front, isBlank c = true) →
      (front ++ rest).dropWhile isBlank = rest.dropWhile isBlank := by
    intro front rest hfront
    induction front with
    | nil => rfl
    | cons c front ih =>
      rw [List.cons_append, List.dropWhile_cons_of_pos (hfront c List.mem_cons_self)]
      exact ih fun d hd => hfront d (List.mem_cons_of_mem _ hd)
  rw [trim, String.toList_ofList, htext, List.append_assoc, hdrop _ _ hbefore]
  by_cases hne : middle = []
  · subst hne
    rw [List.nil_append, List.dropWhile_eq_nil_iff.mpr hafter]
    rfl
  · exact trimmed_eq hhead hlast hne hafter

theorem length_trim_le (text : String) : (trim text).toList.length ≤ text.toList.length := by
  obtain ⟨before, after, htext, -, -⟩ := exists_trim text
  rw [htext]
  simp only [List.length_append]
  omega

theorem trim_eq_self (h : (trim text).toList.length = text.toList.length) : trim text = text := by
  obtain ⟨before, after, htext, -, -⟩ := exists_trim text
  have hlength := congrArg List.length htext
  simp only [List.length_append] at hlength
  have hbefore : before = [] := List.eq_nil_of_length_eq_zero (by omega)
  have hafter : after = [] := List.eq_nil_of_length_eq_zero (by omega)
  rw [hbefore, hafter, List.nil_append, List.append_nil] at htext
  exact (String.toList_inj.mp htext).symm

end Blanks

/-! ### Values -/

section Values

variable {value : List Char}

theorem length_unescape_le (value : List Char) : (unescape value).length ≤ value.length := by
  fun_induction unescape value with
  | case1 => rfl
  | case2 c => rfl
  | case3 ch rest read h ih => simp only [List.length_cons]; omega
  | case4 ch rest h ih => simpa using ih
  | case5 c ch rest h ih => simpa using ih

theorem length_readValue_le (value : List Char) : (readValue value).length ≤ value.length := by
  have hinner : value.tail.dropLast.length ≤ value.length := by
    simp only [List.length_dropLast, List.length_tail]
    omega
  have hunescape := length_unescape_le value.tail.dropLast
  rw [readValue]
  cases isQuotedBy '"' value with
  | true =>
    simp only [Bool.true_or, if_true]
    omega
  | false =>
    cases isQuotedBy '\'' value with
    | true => simpa using hinner
    | false => simp

theorem length_readValue_lt (h : (isQuotedBy '"' value || isQuotedBy '\'' value) = true) :
    (readValue value).length < value.length := by
  have hlong : 2 ≤ value.length := by
    rw [Bool.or_eq_true] at h
    rcases h with h | h <;> simp_all [isQuotedBy]
  have hunescape := length_unescape_le value.tail.dropLast
  have hinner : value.tail.dropLast.length < value.length := by
    simp only [List.length_dropLast, List.length_tail]
    omega
  rw [readValue, if_pos h]
  split
  · exact Nat.lt_of_le_of_lt hunescape hinner
  · exact hinner

theorem readValue_bare (h : (isQuotedBy '"' value || isQuotedBy '\'' value) = false) :
    readValue value = value := by
  rw [Bool.or_eq_false_iff] at h
  simp [readValue, h.1, h.2]

theorem readValue_trim_iff {value : String} (hline : '\n' ∉ value.toList) :
    readValue (trim value).toList = value.toList ↔ IsBare value := by
  constructor
  · intro h
    have hread := length_readValue_le (trim value).toList
    have htrim := length_trim_le value
    have hsame : trim value = value := trim_eq_self (by rw [h] at hread; omega)
    rw [hsame] at h
    have hquotes : (isQuotedBy '"' value.toList || isQuotedBy '\'' value.toList) = false := by
      rw [← Bool.not_eq_true]
      intro hquoted
      have hshort := length_readValue_lt hquoted
      rw [h] at hshort
      omega
    rw [Bool.or_eq_false_iff] at hquotes
    exact ⟨hsame, hline, hquotes.1, hquotes.2⟩
  · intro h
    rw [h.trimmed, readValue_bare (by rw [h.double, h.single]; rfl)]

end Values

/-! ### Entries -/

section Entries

variable {key value line k : String}

theorem head_of_trimmed {text : String} (h : trim text = text) :
    ∀ c ∈ text.toList.head?, isBlank c = false := by
  have hhead := head?_trimmed text.toList
  rw [← String.toList_ofList (l := (text.toList.dropWhile isBlank).rdropWhile isBlank)] at hhead
  rw [← h]
  exact hhead

theorem last_of_trimmed {text : String} (h : trim text = text) :
    ∀ c ∈ text.toList.getLast?, isBlank c = false := by
  have hlast := getLast?_trimmed text.toList
  rw [← String.toList_ofList (l := (text.toList.dropWhile isBlank).rdropWhile isBlank)] at hlast
  rw [← h]
  exact hlast

theorem readEntry_entry (hkey : IsKey key) (value : String) :
    readEntry (key ++ "=" ++ value) =
      some (key, String.ofList (readValue (trim value).toList)) := by
  obtain ⟨before, after, hvalue, hbefore, hafter⟩ := exists_trim value
  -- Blanks at the end of the value are the blanks at the end of the line.
  obtain ⟨kept, rest, hrest, hkept, hlast, hread⟩ : ∃ kept rest, before ++ (trim value).toList ++
      after = kept ++ rest ∧ (∀ c ∈ rest, isBlank c = true) ∧
      (∀ c ∈ kept.getLast?, isBlank c = false) ∧
      trim (String.ofList kept) = trim value := by
    by_cases hempty : (trim value).toList = []
    · refine ⟨[], before ++ after, by simp [hempty], ?_, by simp, ?_⟩
      · intro c hc
        rcases List.mem_append.mp hc with h | h
        · exact hbefore c h
        · exact hafter c h
      · rw [← String.toList_inj, hempty]
        rfl
    · refine ⟨before ++ (trim value).toList, after, rfl, hafter, ?_, ?_⟩
      · rw [List.getLast?_append_of_ne_nil _ hempty]
        exact last_of_trimmed (trim_trim value)
      · rw [← String.toList_inj]
        refine @trim_eq _ before _ [] (by simp) hbefore (by simp) ?_ ?_
        · exact head_of_trimmed (trim_trim value)
        · exact last_of_trimmed (trim_trim value)
  have hline : (key ++ "=" ++ value).toList = [] ++ (key.toList ++ '=' :: kept) ++ rest := by
    have hsign : "=".toList = ['='] := rfl
    rw [String.toList_append, String.toList_append, hvalue, hrest, hsign]
    simp
  have hhead : ∀ c ∈ (key.toList ++ '=' :: kept).head?, isBlank c = false := by
    intro c hc
    cases hchars : key.toList with
    | nil =>
      rw [hchars] at hc
      cases hc
      rfl
    | cons d chars =>
      rw [hchars] at hc
      exact head_of_trimmed hkey.trimmed c (by rw [hchars]; exact hc)
  have hend : ∀ c ∈ (key.toList ++ '=' :: kept).getLast?, isBlank c = false := by
    intro c hc
    rw [List.getLast?_append_of_ne_nil _ (by simp)] at hc
    cases kept with
    | nil =>
      cases hc
      rfl
    | cons d kept =>
      rw [List.getLast?_cons_cons] at hc
      exact hlast c hc
  have htrimmed := trim_eq hline (by simp) hkept hhead hend
  have hfront : (key.toList ++ '=' :: kept).takeWhile (· ≠ '=') = key.toList := by
    rw [List.takeWhile_append_of_pos]
    · simp
    · intro c hc
      have hne : c ≠ '=' := fun heq => hkey.equals (heq ▸ hc)
      simpa using hne
  have hback : ((key.toList ++ '=' :: kept).dropWhile (· ≠ '=')).tail = kept := by
    rw [List.dropWhile_append_of_pos]
    · simp
    · intro c hc
      have hne : c ≠ '=' := fun heq => hkey.equals (heq ▸ hc)
      simpa using hne
  have hcomment : (key.toList ++ '=' :: kept).head? ≠ some '#' := by
    intro hc
    cases hchars : key.toList with
    | nil =>
      rw [hchars] at hc
      simp at hc
    | cons d chars =>
      rw [hchars] at hc
      exact hkey.comment (by rw [hchars]; exact hc)
  rw [readEntry, htrimmed]
  simp only [hfront, hback, hread, String.ofList_toList, hkey.trimmed]
  rw [if_neg]
  simp only [Bool.or_eq_true, decide_eq_true_eq, not_or]
  exact ⟨⟨by simp, hcomment⟩, by simp⟩

theorem length_readEntry (h : readEntry line = some (key, value)) :
    value.toList.length < line.toList.length := by
  rw [readEntry] at h
  split at h
  · cases h
  · rename_i hreads
    obtain ⟨rfl, rfl⟩ := Prod.mk.inj (Option.some.inj h)
    simp only [Bool.or_eq_true, decide_eq_true_eq, not_or, not_not] at hreads
    have htrim := length_trim_le line
    have hsplit := congrArg List.length
      (List.takeWhile_append_dropWhile (p := (· ≠ '=')) (l := (trim line).toList))
    have hdrop : ((trim line).toList.dropWhile (· ≠ '=')) ≠ [] := by
      intro hnil
      have hall := List.dropWhile_eq_nil_iff.mp hnil '=' hreads.2
      simp at hall
    have hpos := List.length_pos_iff.mpr hdrop
    have hread := length_readValue_le
      (trim (String.ofList ((trim line).toList.dropWhile (· ≠ '=')).tail)).toList
    have hinner := length_trim_le (String.ofList ((trim line).toList.dropWhile (· ≠ '=')).tail)
    simp only [String.toList_ofList, List.length_append, List.length_tail] at *
    omega

/-- A line is read with a key that can be read, unless it is the one with the setter. -/
theorem isKey_of_readEntry (h : readEntry line = some (key, value)) (hline : '\n' ∉ line.toList)
    (hsetter : key ≠ "__proto__") : IsKey key := by
  rw [readEntry] at h
  split at h
  · cases h
  · rename_i hreads
    obtain ⟨rfl, rfl⟩ := Prod.mk.inj (Option.some.inj h)
    simp only [Bool.or_eq_true, decide_eq_true_eq, not_or, not_not] at hreads
    obtain ⟨before, after, htext, -, -⟩ :=
      exists_trim (String.ofList ((trim line).toList.takeWhile (· ≠ '=')))
    rw [String.toList_ofList] at htext
    have hsub : ∀ c ∈ (trim (String.ofList ((trim line).toList.takeWhile (· ≠ '=')))).toList,
        c ∈ (trim line).toList.takeWhile (· ≠ '=') := by
      intro c hc
      rw [htext]
      exact List.mem_append_left _ (List.mem_append_right _ hc)
    have hwhole : ∀ c ∈ (trim line).toList, c ∈ line.toList := by
      intro c hc
      obtain ⟨front, back, hfront, -, -⟩ := exists_trim line
      rw [hfront]
      simp [hc]
    refine ⟨trim_trim _, fun hc => ?_, fun hc => ?_, fun hc => ?_, hsetter⟩
    · exact hline (hwhole _ ((List.takeWhile_prefix _).subset (hsub _ hc)))
    · have htaken := List.mem_takeWhile_imp (hsub _ hc)
      simp at htaken
    · -- The line starts with no blank, so the key starts where the line does.
      have hhead := head_of_trimmed (trim_trim line)
      cases hchars : (trim line).toList with
      | nil => exact absurd hchars (by simpa using hreads.1.1)
      | cons d chars =>
        rw [hchars] at hhead hc hreads
        have hd : isBlank d = false := hhead d rfl
        by_cases hsign : d = '='
        · subst hsign
          simp [trim] at hc
        · have hstart : ((d :: chars).takeWhile (· ≠ '=')) =
              d :: chars.takeWhile (· ≠ '=') := by
            simp [hsign]
          have hkeyhead : (trim (String.ofList (d :: chars.takeWhile (· ≠ '=')))).toList.head? =
              some d := by
            obtain ⟨front, back, hfront, hblank, hback⟩ :=
              exists_trim (String.ofList (d :: chars.takeWhile (· ≠ '=')))
            rw [String.toList_ofList] at hfront
            cases front with
            | nil =>
              cases hin : (trim (String.ofList (d :: chars.takeWhile (· ≠ '=')))).toList with
              | nil =>
                rw [hin] at hfront
                have hdback : d ∈ back := by
                  rw [List.nil_append, List.nil_append] at hfront
                  rw [← hfront]
                  simp
                rw [hback d hdback] at hd
                cases hd
              | cons e rest =>
                rw [hin] at hfront
                simp only [List.nil_append, List.cons_append, List.cons.injEq] at hfront
                rw [hfront.1]
                rfl
            | cons e front =>
              simp only [List.cons_append, List.cons.injEq] at hfront
              have he := hblank e List.mem_cons_self
              rw [← hfront.1, hd] at he
              cases he
          rw [hstart, hkeyhead] at hc
          exact hreads.1.2 (by simpa using hc)

end Entries

/-! ### Reading the lines -/

section Reading

variable {k : String} {vars : EnvVars}

def written (k line : String) : Option String :=
  (readEntry line).bind fun entry =>
    if entry.1 = k ∧ k ≠ "__proto__" then some entry.2 else none

theorem lookup_readLine (vars : EnvVars) (line k : String) :
    (readLine vars line).lookup k = (written k line).or (vars.lookup k) := by
  rw [readLine, written]
  cases readEntry line with
  | none => rfl
  | some entry =>
    obtain ⟨key, value⟩ := entry
    simp only [Option.bind_some, assign]
    by_cases hsetter : key = "__proto__"
    · rw [if_pos hsetter, if_neg (fun h => h.2 (h.1 ▸ hsetter)), Option.none_or]
    · rw [if_neg hsetter]
      by_cases hkey : key = k
      · subst hkey
        rw [if_pos ⟨rfl, hsetter⟩, AList.lookup_insert]
        rfl
      · rw [if_neg (fun h => hkey h.1), AList.lookup_insert_ne (Ne.symm hkey), Option.none_or]

theorem lookup_foldl (lines : List String) (vars : EnvVars) (k : String) :
    (lines.foldl readLine vars).lookup k =
      (lines.reverse.findSome? (written k)).or (vars.lookup k) := by
  induction lines generalizing vars with
  | nil => rfl
  | cons line lines ih =>
    rw [List.foldl_cons, ih, lookup_readLine, List.reverse_cons, List.findSome?_append,
      Option.or_assoc]
    congr 1
    simp only [List.findSome?_cons, List.findSome?_nil]
    cases written k line <;> rfl

theorem lookup_parse (content k : String) : (parseEnvFileContent content).lookup k =
    (splitLines content).reverse.findSome? (written k) := by
  rw [parseEnvFileContent, lookup_foldl, AList.lookup_empty, Option.or_none]

theorem line_of_lookup {content value : String}
    (h : (parseEnvFileContent content).lookup k = some value) :
    ∃ line ∈ splitLines content, readEntry line = some (k, value) ∧ k ≠ "__proto__" := by
  rw [lookup_parse] at h
  obtain ⟨line, hline, hwritten⟩ := List.exists_of_findSome?_eq_some h
  refine ⟨line, List.mem_reverse.mp hline, ?_⟩
  rw [written] at hwritten
  obtain ⟨entry, hentry, hvalue⟩ := Option.bind_eq_some_iff.mp hwritten
  split at hvalue
  · rename_i hkey
    cases hvalue
    rw [hentry, ← hkey.1]
    exact ⟨rfl, hkey.1 ▸ hkey.2⟩
  · cases hvalue

theorem break_notMem_line {content line : String} (h : line ∈ splitLines content) :
    '\n' ∉ line.toList := by
  obtain ⟨piece, hpiece, rfl⟩ := List.mem_map.mp h
  rw [String.toList_ofList]
  exact notMem_of_mem_splitOn hpiece

theorem isKey_of_lookup {content value : String}
    (h : (parseEnvFileContent content).lookup k = some value) : IsKey k := by
  obtain ⟨line, hline, hentry, hsetter⟩ := line_of_lookup h
  exact isKey_of_readEntry hentry (break_notMem_line hline) hsetter

end Reading

/-! ### The lines of a map -/

section Writing

variable {vars : EnvVars} {k value : String} {header : List String}

theorem mem_sortedKeys : k ∈ sortedKeys vars ↔ k ∈ vars := by
  rw [sortedKeys, List.mem_mergeSort, AList.mem_keys]

def headerOf (headerLines : List String) : List String :=
  if headerLines ≠ [] && headerLines.getLast? ≠ some "" then headerLines ++ [""] else headerLines

theorem splitLines_serialize (vars : EnvVars) (headerLines : List String) :
    ∃ first, splitLines (serializeEnvFile vars headerLines) =
      first ++ (sortedKeys vars).flatMap (fun key => splitLines (entryLine vars key)) ++ [""] ∧
      (first = (headerOf headerLines).flatMap splitLines ∨ first = [""]) := by
  have htext : ∀ lines : List String, ("\n".intercalate lines ++ "\n").toList =
      ['\n'].intercalate (lines.map String.toList) ++ '\n' :: [] := by
    intro lines
    have hbreak : "\n".toList = ['\n'] := rfl
    rw [String.toList_append, String.toList_intercalate, hbreak]
  have hlines : ∀ lines : List String, lines ≠ [] →
      splitLines ("\n".intercalate lines ++ "\n") = lines.flatMap splitLines ++ [""] := by
    intro lines hne
    rw [splitLines, htext, splitOn_separator, splitOn_intercalate (by simpa using hne),
      List.map_append, List.flatMap_map, List.map_flatMap]
    rfl
  have hserialize : serializeEnvFile vars headerLines = "\n".intercalate
      (headerOf headerLines ++ (sortedKeys vars).map (entryLine vars)) ++ "\n" := rfl
  by_cases hne : headerOf headerLines ++ (sortedKeys vars).map (entryLine vars) = []
  · refine ⟨[""], ?_, Or.inr rfl⟩
    have hkeys : sortedKeys vars = [] := by simpa using (List.append_eq_nil_iff.mp hne).2
    rw [hserialize, hne, hkeys, List.flatMap_nil]
    decide
  · refine ⟨_, ?_, Or.inl rfl⟩
    rw [hserialize, hlines _ hne, List.flatMap_append, List.flatMap_map]

theorem splitOn_append_front {d : Char} {front : List Char} (hfront : d ∉ front)
    (b : List Char) : (front ++ b).splitOn d = (b.splitOn d).modifyHead (front ++ ·) := by
  induction front with
  | nil => cases h : b.splitOn d <;> simp [h]
  | cons c front ih =>
    have hc : ¬(c == d) = true := by
      simp only [beq_iff_eq]
      rintro rfl
      exact hfront List.mem_cons_self
    rw [List.cons_append, List.splitOn_cons_eq_if_modifyHead, if_neg hc,
      ih fun h => hfront (List.mem_cons_of_mem _ h)]
    cases b.splitOn d <;> rfl

theorem mem_splitOn_append {d : Char} {front b piece : List Char} (hfront : d ∉ front)
    (h : piece ∈ (front ++ b).splitOn d) :
    ∃ part ∈ b.splitOn d, piece = part ∨ piece = front ++ part := by
  rw [splitOn_append_front hfront] at h
  cases hsplit : b.splitOn d with
  | nil => exact absurd hsplit (List.splitOn_ne_nil _ _)
  | cons first rest =>
    rw [hsplit, List.modifyHead_cons] at h
    rcases List.mem_cons.mp h with rfl | hrest
    · exact ⟨first, List.mem_cons_self, Or.inr rfl⟩
    · exact ⟨piece, List.mem_cons_of_mem _ hrest, Or.inl rfl⟩

theorem findSome_of_key {keys : List String} {f : String → Option String}
    (h : ∀ key ∈ keys, key ≠ k → f key = none) :
    keys.findSome? f = if k ∈ keys then f k else none := by
  induction keys with
  | nil => rfl
  | cons key keys ih =>
    have hrest := ih fun other hother => h other (List.mem_cons_of_mem _ hother)
    rw [List.findSome?_cons, hrest]
    by_cases hkey : key = k
    · subst hkey
      rw [if_pos List.mem_cons_self]
      cases f key with
      | some value => rfl
      | none => simp
    · rw [h key List.mem_cons_self hkey]
      simp [Ne.symm hkey]

def IsQuiet (headerLines : List String) : Prop :=
  ∀ line ∈ (headerOf headerLines).flatMap splitLines, readEntry line = none

instance (headerLines : List String) : Decidable (IsQuiet headerLines) :=
  inferInstanceAs (Decidable (∀ line ∈ (headerOf headerLines).flatMap splitLines,
    readEntry line = none))

theorem line_of_entry {line : String} (hquiet : IsQuiet header)
    (hline : line ∈ splitLines (serializeEnvFile vars header)) (hread : readEntry line ≠ none) :
    ∃ key ∈ vars, line ∈ splitLines (entryLine vars key) := by
  obtain ⟨first, hlines, hfirst⟩ := splitLines_serialize vars header
  have hempty : readEntry "" = none := by decide
  rw [hlines, List.mem_append, List.mem_append, List.mem_flatMap, List.mem_singleton] at hline
  rcases hline with (hhead | ⟨key, hkey, hentry⟩) | rfl
  · rcases hfirst with rfl | rfl
    · exact absurd (hquiet line hhead) hread
    · rw [List.mem_singleton.mp hhead] at hread
      exact absurd hempty hread
  · exact ⟨key, mem_sortedKeys.mp hkey, hentry⟩
  · exact absurd hempty hread

theorem entryLine_eq (h : vars.lookup k = some value) : entryLine vars k = k ++ "=" ++ value := by
  rw [entryLine, h]
  rfl

theorem lookup_serialize (hquiet : IsQuiet header) (hkeys : ∀ key ∈ vars, IsKey key)
    (hbreak : ∀ key value, vars.lookup key = some value → '\n' ∉ value.toList) :
    (parseEnvFileContent (serializeEnvFile vars header)).lookup k =
      (vars.lookup k).map fun value => String.ofList (readValue (trim value).toList) := by
  have hone : ∀ key ∈ vars, splitLines (entryLine vars key) = [entryLine vars key] := by
    intro key hkey
    obtain ⟨value, hvalue⟩ := Option.isSome_iff_exists.mp (AList.lookup_isSome.mpr hkey)
    have hsign : "=".toList = ['='] := rfl
    rw [entryLine_eq hvalue, splitLines, List.splitOn_eq_singleton]
    · rw [List.map_singleton, String.ofList_toList]
    · rw [String.toList_append, String.toList_append, hsign]
      simp [(hkeys key hkey).line, hbreak key value hvalue]
  have hwritten : ∀ key ∈ vars, written k (entryLine vars key) =
      if key = k then (vars.lookup k).map fun value =>
        String.ofList (readValue (trim value).toList) else none := by
    intro key hkey
    obtain ⟨value, hvalue⟩ := Option.isSome_iff_exists.mp (AList.lookup_isSome.mpr hkey)
    rw [entryLine_eq hvalue, written, readEntry_entry (hkeys key hkey), Option.bind_some]
    by_cases heq : key = k
    · subst heq
      rw [if_pos ⟨rfl, (hkeys key hkey).setter⟩, if_pos rfl, hvalue]
      rfl
    · rw [if_neg fun h => heq h.1, if_neg heq]
  obtain ⟨first, hlines, hfirst⟩ := splitLines_serialize vars header
  have hsilent : ∀ line ∈ first, written k line = none := by
    intro line hline
    have hnone : readEntry line = none := by
      rcases hfirst with rfl | rfl
      · exact hquiet line hline
      · rw [List.mem_singleton.mp hline]
        decide
    rw [written, hnone]
    rfl
  have hentries : (sortedKeys vars).flatMap (fun key => splitLines (entryLine vars key)) =
      (sortedKeys vars).map (entryLine vars) := by
    rw [← List.flatMap_singleton' ((sortedKeys vars).map (entryLine vars)), List.flatMap_map]
    exact List.flatMap_congr fun key hkey => hone key (mem_sortedKeys.mp hkey)
  have hempty : written k "" = none := rfl
  rw [lookup_parse, hlines, hentries, List.reverse_append, List.reverse_append,
    List.findSome?_append, List.findSome?_append, ← List.map_reverse, List.findSome?_map]
  have hnone : first.reverse.findSome? (written k) = none := by
    rw [List.findSome?_eq_none_iff]
    intro line hline
    exact hsilent line (List.mem_reverse.mp hline)
  rw [hnone, List.reverse_singleton, List.findSome?_singleton, hempty, Option.none_or,
    Option.or_none, findSome_of_key (k := k)]
  · by_cases hk : k ∈ vars
    · rw [if_pos (List.mem_reverse.mpr (mem_sortedKeys.mpr hk)), Function.comp_apply,
        hwritten k hk, if_pos rfl]
    · rw [if_neg (fun h => hk (mem_sortedKeys.mp (List.mem_reverse.mp h))),
        AList.lookup_eq_none.mpr hk]
      rfl
  · intro key hkey hne
    rw [Function.comp_apply, hwritten key (mem_sortedKeys.mp (List.mem_reverse.mp hkey)),
      if_neg hne]

theorem exists_longer {read : String} (hquiet : IsQuiet header)
    (hkeys : ∀ key ∈ vars, IsKey key) (hvalue : vars.lookup k = some value)
    (hbreak : '\n' ∈ value.toList)
    (hread : (parseEnvFileContent (serializeEnvFile vars header)).lookup k = some read)
    (hlength : value.toList.length ≤ read.toList.length) :
    ∃ key longer, vars.lookup key = some longer ∧ '\n' ∈ longer.toList ∧
      value.toList.length < longer.toList.length := by
  obtain ⟨line, hline, hentry, -⟩ := line_of_lookup hread
  have hsome : readEntry line ≠ none := by simp [hentry]
  obtain ⟨key, hkey, hpiece⟩ := line_of_entry hquiet hline hsome
  obtain ⟨longer, hlonger⟩ := Option.isSome_iff_exists.mp (AList.lookup_isSome.mpr hkey)
  have hsign : "=".toList = ['='] := rfl
  rw [entryLine_eq hlonger] at hpiece
  obtain ⟨piece, hsplit, rfl⟩ := List.mem_map.mp hpiece
  have hshort := length_readEntry hentry
  rw [String.toList_ofList] at hshort
  have hfront : '\n' ∉ key.toList ++ ['='] := by simp [(hkeys key hkey).line]
  rw [String.toList_append, String.toList_append, hsign] at hsplit
  obtain ⟨part, hpart, hcase⟩ := mem_splitOn_append hfront hsplit
  have hown : piece = key.toList ++ ['='] ++ part →
      key = k ∧ longer = value ∧
        read = String.ofList (readValue (trim (String.ofList part)).toList) := by
    intro heq
    have hline : String.ofList piece = key ++ "=" ++ String.ofList part := by
      rw [← String.toList_inj, heq]
      simp [hsign]
    rw [hline, readEntry_entry (hkeys key hkey)] at hentry
    obtain ⟨rfl, rfl⟩ := Prod.mk.inj (Option.some.inj hentry)
    rw [hlonger] at hvalue
    exact ⟨rfl, Option.some.inj hvalue, rfl⟩
  have hin : '\n' ∈ longer.toList := by
    by_contra hnone
    rw [List.splitOn_eq_singleton hnone, List.mem_singleton] at hpart
    rcases hcase with heq | heq
    · -- The only line of the entry starts with its key.
      rw [List.splitOn_eq_singleton (by simp [hnone, (hkeys key hkey).line]),
        List.mem_singleton] at hsplit
      obtain ⟨-, rfl, -⟩ := hown (by rw [hsplit, hpart])
      exact hnone hbreak
    · obtain ⟨-, rfl, -⟩ := hown heq
      exact hnone hbreak
  refine ⟨key, longer, hlonger, hin, ?_⟩
  have hless := length_lt_of_mem_splitOn hin hpart
  rcases hcase with rfl | heq
  · omega
  · obtain ⟨rfl, rfl, rfl⟩ := hown heq
    have hbound := length_readValue_le (trim (String.ofList part)).toList
    have htrim := length_trim_le (String.ofList part)
    simp only [String.toList_ofList] at hlength htrim
    omega

/-- The map is read back when each value is bare, and only then. What is done to the values behind
the reader makes none of them longer. -/
theorem roundTrip_iff {g : String → String}
    (hg : ∀ read, (g read).toList.length ≤ read.toList.length)
    (hquiet : IsQuiet header) (hkeys : ∀ key ∈ vars, IsKey key)
    (hfixed : ∀ key value, vars.lookup key = some value → g value = value) :
    (∀ k, ((parseEnvFileContent (serializeEnvFile vars header)).lookup k).map g = vars.lookup k) ↔
      ∀ key value, vars.lookup key = some value → IsBare value := by
  constructor
  · intro hback
    have hread : ∀ key value, vars.lookup key = some value →
        ∃ read, (parseEnvFileContent (serializeEnvFile vars header)).lookup key = some read ∧
          value.toList.length ≤ read.toList.length := by
      intro key value hvalue
      have hkey := hback key
      rw [hvalue] at hkey
      obtain ⟨read, hread, rfl⟩ := Option.map_eq_some_iff.mp hkey
      exact ⟨read, hread, hg read⟩
    -- Among the values with a line break there would always be a longer one.
    have hbreak : ∀ key value, vars.lookup key = some value → '\n' ∉ value.toList := by
      have hbound : ∀ key value, vars.lookup key = some value →
          value.toList.length ≤ (vars.entries.map fun entry => entry.2.toList.length).sum := by
        intro key value hvalue
        have hmem := AList.mem_lookup_iff.mp hvalue
        exact List.le_sum_of_mem (List.mem_map_of_mem hmem)
      have hnone : ∀ n key value, vars.lookup key = some value → '\n' ∈ value.toList →
          (vars.entries.map fun entry => entry.2.toList.length).sum < value.toList.length + n →
            False := by
        intro n
        induction n with
        | zero =>
          intro key value hvalue _ hlong
          have hle := hbound key value hvalue
          omega
        | succ n ih =>
          intro key value hvalue hin hlong
          obtain ⟨read, hfound, hlength⟩ := hread key value hvalue
          obtain ⟨other, longer, hlonger, hinner, hless⟩ :=
            exists_longer hquiet hkeys hvalue hin hfound hlength
          exact ih other longer hlonger hinner (by omega)
      intro key value hvalue hin
      exact hnone ((vars.entries.map fun entry => entry.2.toList.length).sum + 1) key value hvalue
        hin (by omega)
    intro key value hvalue
    obtain ⟨read, hfound, hlength⟩ := hread key value hvalue
    rw [lookup_serialize hquiet hkeys hbreak, hvalue, Option.map_some] at hfound
    have hsame : readValue (trim value).toList = value.toList := by
      rw [← Option.some.inj hfound, String.toList_ofList] at hlength
      have hbound := length_readValue_le (trim value).toList
      have htrim := length_trim_le value
      have hwhole : trim value = value := trim_eq_self (by omega)
      rw [hwhole] at hlength ⊢
      cases hquotes : isQuotedBy '"' value.toList || isQuotedBy '\'' value.toList with
      | true =>
        have hless := length_readValue_lt hquotes
        omega
      | false => exact readValue_bare hquotes
    exact (readValue_trim_iff (hbreak key value hvalue)).mp hsame
  · intro hbare k
    rw [lookup_serialize hquiet hkeys fun key value hvalue => (hbare key value hvalue).line]
    cases hvalue : vars.lookup k with
    | none => rfl
    | some value =>
      have hread := (readValue_trim_iff (hbare k value hvalue).line).mpr (hbare k value hvalue)
      rw [Option.map_some, Option.map_some, hread, String.ofList_toList, hfixed k value hvalue]

end Writing

/-! ### The Hub file -/

section Hub

variable {vars other : EnvVars} {file : Option String} {key value k : String}

theorem codeUnits_inj {a b : String} (h : codeUnits a = codeUnits b) : a = b := by
  have hread := congrArg JsonText.ofUnits h
  rw [codeUnits, codeUnits, JsonText.ofUnits_flatMap, JsonText.ofUnits_flatMap] at hread
  exact String.toList_inj.mp hread

theorem sortedKeys_congr (h : ∀ k, vars.lookup k = other.lookup k) :
    sortedKeys vars = sortedKeys other := by
  have hperm : vars.keys.Perm other.keys := by
    rw [List.perm_ext_iff_of_nodup vars.keys_nodup other.keys_nodup]
    intro k
    rw [← AList.mem_keys, ← AList.mem_keys, ← AList.lookup_isSome, ← AList.lookup_isSome, h]
  have hsorted : ∀ keys : List String,
      (keys.mergeSort keyLe).Pairwise fun a b => keyLe a b = true :=
    List.pairwise_mergeSort
      (fun a b c hab hbc => by
        simp only [keyLe, decide_eq_true_eq] at hab hbc ⊢
        exact le_trans hab hbc)
      (fun a b => by
        simp only [keyLe, Bool.or_eq_true, decide_eq_true_eq]
        exact le_total _ _)
  refine List.Perm.eq_of_pairwise (fun a b _ _ hab hba => ?_) (hsorted vars.keys)
    (hsorted other.keys) ?_
  · simp only [keyLe, decide_eq_true_eq] at hab hba
    exact codeUnits_inj (le_antisymm hab hba)
  · exact ((List.mergeSort_perm _ _).trans hperm).trans (List.mergeSort_perm _ _).symm

theorem serializeEnvFile_congr (h : ∀ k, vars.lookup k = other.lookup k)
    (headerLines : List String) :
    serializeEnvFile vars headerLines = serializeEnvFile other headerLines := by
  have hlines : entryLine vars = entryLine other := by
    funext key
    rw [entryLine, entryLine, h]
  rw [serializeEnvFile, serializeEnvFile, sortedKeys_congr h, hlines]

theorem lookup_mapValues (f : String → String) (vars : EnvVars) (k : String) :
    (mapValues f vars).lookup k = (vars.lookup k).map f := by
  have hmap := List.dlookup_map₂ (l := vars.entries) (f := fun _ => f) k
  exact hmap

theorem normalize_normalize (value : String) :
    normalizeHubEnvValue (normalizeHubEnvValue value) = normalizeHubEnvValue value := by
  by_cases hempty : String.ofList ((trim value).toList.map Char.toLower) ∈ EMPTY_PLACEHOLDER_VALUES
  · have hnone : normalizeHubEnvValue value = "" := by rw [normalizeHubEnvValue, if_pos hempty]
    rw [hnone]
    decide
  · have hsome : normalizeHubEnvValue value = trim value := by
      rw [normalizeHubEnvValue, if_neg hempty]
    rw [hsome, normalizeHubEnvValue, trim_trim, if_neg hempty]

theorem length_normalize_le (value : String) :
    (normalizeHubEnvValue value).toList.length ≤ value.toList.length := by
  rw [normalizeHubEnvValue]
  split
  · simp
  · exact length_trim_le value

theorem lookup_readHubEnvFile (content k : String) : (readHubEnvFile (some content)).lookup k =
    ((parseEnvFileContent content).lookup k).map normalizeHubEnvValue :=
  lookup_mapValues _ _ _

theorem normalize_of_lookup (h : (readHubEnvFile file).lookup k = some value) :
    normalizeHubEnvValue value = value := by
  cases file with
  | none => cases h
  | some content =>
    rw [lookup_readHubEnvFile] at h
    obtain ⟨read, -, rfl⟩ := Option.map_eq_some_iff.mp h
    exact normalize_normalize read

theorem isKey_of_readHubEnvFile (h : (readHubEnvFile file).lookup k = some value) : IsKey k := by
  cases file with
  | none => cases h
  | some content =>
    rw [lookup_readHubEnvFile] at h
    obtain ⟨read, hread, -⟩ := Option.map_eq_some_iff.mp h
    exact isKey_of_lookup hread

theorem lookup_merged (file : Option String) (key value k : String) :
    (normalizeHubEnvRecord (AList.singleton key value ∪ readHubEnvFile file)).lookup k =
      changed file key value k := by
  rw [normalizeHubEnvRecord, lookup_mapValues, changed]
  by_cases hkey : k = key
  · subst hkey
    have hmem : k ∈ (AList.singleton k value : EnvVars) := by
      rw [AList.mem_keys, AList.keys_singleton]
      exact List.mem_singleton_self k
    have hfound : (AList.singleton k value : EnvVars).lookup k = some value := by
      simp [AList.lookup]
    rw [if_pos rfl, AList.lookup_union_left hmem, hfound]
    rfl
  · have hmem : k ∉ (AList.singleton key value : EnvVars) := by
      rw [AList.mem_keys, AList.keys_singleton]
      simpa using hkey
    rw [if_neg hkey, AList.lookup_union_right hmem]
    cases hvalue : (readHubEnvFile file).lookup k with
    | none => rfl
    | some read => rw [Option.map_some, normalize_of_lookup hvalue]

theorem isQuiet_hub : IsQuiet HUB_ENV_HEADER := by decide

theorem lookup_written (file : Option String) (key value k : String) :
    (readHubEnvFile (some (upsertHubEnvKey key value file))).lookup k =
      ((parseEnvFileContent (serializeEnvFile (normalizeHubEnvRecord
        (AList.singleton key value ∪ readHubEnvFile file)) HUB_ENV_HEADER)).lookup k).map
          normalizeHubEnvValue :=
  lookup_readHubEnvFile _ _

/-- All keys in the file are read back, if the new one can be read. What becomes of the values is
a matter of the values. -/
theorem read_iff (hkey : IsKey key) :
    (∀ k, (readHubEnvFile (some (upsertHubEnvKey key value file))).lookup k =
      changed file key value k) ↔ ∀ k v, changed file key value k = some v → IsBare v := by
  have hkeys : ∀ k ∈ normalizeHubEnvRecord (AList.singleton key value ∪ readHubEnvFile file),
      IsKey k := by
    intro k hk
    obtain ⟨v, hv⟩ := Option.isSome_iff_exists.mp (AList.lookup_isSome.mpr hk)
    rw [lookup_merged, changed] at hv
    split at hv
    · rename_i heq
      exact heq ▸ hkey
    · exact isKey_of_readHubEnvFile hv
  have hfixed : ∀ k v, (normalizeHubEnvRecord (AList.singleton key value ∪
      readHubEnvFile file)).lookup k = some v → normalizeHubEnvValue v = v := by
    intro k v hv
    rw [lookup_merged, changed] at hv
    split at hv
    · obtain rfl := Option.some.inj hv
      exact normalize_normalize value
    · exact normalize_of_lookup hv
  have htrip := roundTrip_iff length_normalize_le isQuiet_hub hkeys hfixed
  simp only [lookup_written, ← lookup_merged]
  exact htrip

theorem KeepsOthers.isKey (h : KeepsOthers file key value) : IsKey key := by
  have hread := h.read key
  rw [changed, if_pos rfl] at hread
  exact isKey_of_readHubEnvFile hread

end Hub

/-! ### Result -/

/-- Setting one credential keeps the others just when its key can be read and all values that the
file then has are bare. And a map that was read is read back just when its values are bare. -/
theorem keepsOthers_iff (file : Option String) (key value : String) :
    (KeepsOthers file key value ↔
      IsKey key ∧ ∀ k v, changed file key value k = some v → IsBare v) ∧
    ∀ content : String,
      ((∀ k, (parseEnvFileContent (serializeEnvFile (parseEnvFileContent content) [])).lookup k =
          (parseEnvFileContent content).lookup k) ↔
        ∀ k v, (parseEnvFileContent content).lookup k = some v → IsBare v) := by
  refine ⟨⟨fun h => ⟨h.isKey, (read_iff h.isKey).mp h.read⟩,
    fun h => ⟨(read_iff h.1).mpr h.2, ?_⟩⟩, fun content => ?_⟩
  · -- The second write finds the variables of the first one.
    refine serializeEnvFile_congr (fun k => ?_) _
    have hread := (read_iff h.1).mpr h.2
    rw [lookup_merged, lookup_merged, changed, changed]
    split
    · rfl
    · rename_i hne
      rw [hread, changed, if_neg hne]
  · have hkeys : ∀ k ∈ parseEnvFileContent content, IsKey k := by
      intro k hk
      obtain ⟨v, hv⟩ := Option.isSome_iff_exists.mp (AList.lookup_isSome.mpr hk)
      exact isKey_of_lookup hv
    have htrip := @roundTrip_iff (parseEnvFileContent content) [] id (fun read => le_refl _)
      (by decide) hkeys (fun k v _ => rfl)
    simpa using htrip

/-- A value without quotes stays beside the one that is set. -/
theorem bare_value_stays : KeepsOthers (some "# keys\nOPENAI_KEY='sk-1'\n") "GH_TOKEN" "t" := by
  have hkey : IsKey "GH_TOKEN" := ⟨by decide, by decide, by decide, by decide, by decide⟩
  have hentries : (readHubEnvFile (some "# keys\nOPENAI_KEY='sk-1'\n")).entries =
      [⟨"OPENAI_KEY", "sk-1"⟩] := by decide
  refine (keepsOthers_iff _ "GH_TOKEN" "t").1.mpr ⟨hkey, fun k v hv => ?_⟩
  rw [changed] at hv
  split at hv
  · obtain rfl := Option.some.inj hv
    exact ⟨by decide, by decide, by decide, by decide⟩
  · have hmem := AList.mem_lookup_iff.mp hv
    rw [hentries, List.mem_singleton] at hmem
    cases hmem
    exact ⟨by decide, by decide, by decide, by decide⟩

/-- The Hub file of one who has quoted a value with a line break. -/
def quotedFile : Option String := some "SSH_KEY=\"a\\nb\"\n"

/-- Setting another credential takes the second line off that value. -/
theorem quoted_value_changes : ¬KeepsOthers quotedFile "GH_TOKEN" "t" := by
  intro h
  have hbefore : changed quotedFile "GH_TOKEN" "t" "SSH_KEY" = some "a\nb" := by decide
  have hbare := (read_iff h.isKey).mp h.read "SSH_KEY" "a\nb" hbefore
  exact hbare.line (by decide)

end ArchLoop.EnvFile
