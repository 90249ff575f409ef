import ArchLoop.DraftPrompt

/-!
# `ArchLoop.Proofs.DraftPrompt`: task texts in prompts

A prompt should be its template with each placeholder replaced by its value, all at once
(`simultaneously`). The program replaces them one after the other, and with values that may stand
for something else than themselves.

`drafts_literal` says when this makes no difference: no value that is put in has one of the pairs
that `replaceAll` reads, and when it is the turn of a placeholder, the text has it just where the
template has it.
-/

set_option autoImplicit false

namespace ArchLoop.DraftPrompt

open ArchLoop.Lib.Pattern

/-! ### Statement -/

/-- One of the placeholders at the front of a text. -/
def anyOf (substitutions : List Substitution) : Matcher Char (List Char) := fun text =>
  ((substitutions.map (·.1)).find? fun key => key.isPrefixOf text).map fun key =>
    (key, key.length - 1)

def parsed (substitutions : List Substitution) (template : List Char) :
    List (Char ⊕ List Char) :=
  scan (anyOf substitutions) template

/-- What some of the substitutions put in for a placeholder. The others stay. -/
def valueOf (done : List Substitution) (key : List Char) : List Char :=
  (done.lookup key).getD key

/-- The template with all its placeholders replaced at once. -/
def simultaneously (substitutions : List Substitution) (template : List Char) : List Char :=
  replace (valueOf substitutions) (parsed substitutions template)

/-- There is a pair of characters that stands for something else in a replacement. -/
def hasReplacementPattern : List Char → Bool
  | '$' :: c :: rest =>
    c == '$' || c == '&' || c == '`' || c == '\x27' || hasReplacementPattern (c :: rest)
  | _ :: rest => hasReplacementPattern rest
  | [] => false

/-- Where the template has a placeholder, after some substitutions. -/
def ownPlaces (done : List Substitution) (key : List Char) (pieces : List (Char ⊕ List Char)) :
    List (Char ⊕ Unit) :=
  pieces.flatMap (Sum.elim (fun c => [.inl c]) fun other =>
    if other = key then [.inr ()] else (valueOf done other).map .inl)

/-- The values stay as they are: none of those that are put in has a replacement pattern, and when
it is the turn of a placeholder, the text has it only where the template has it. -/
structure StaysLiteral (substitutions : List Substitution) (template : List Char) : Prop where
  plain : ∀ substitution ∈ substitutions,
    substitution.1 ∈ values (parsed substitutions template) →
      hasReplacementPattern substitution.2 = false
  own : ∀ turn, ∀ h : turn < substitutions.length,
    scan (literal substitutions[turn].1)
        (replace (valueOf (substitutions.take turn)) (parsed substitutions template)) =
      ownPlaces (substitutions.take turn) substitutions[turn].1 (parsed substitutions template)

/-! ### One placeholder -/

theorem getSubstitution_plain (before matched after : List Char) {value : List Char}
    (h : hasReplacementPattern value = false) :
    getSubstitution before matched after value = value := by
  fun_induction hasReplacementPattern value with
  | case1 c rest ih =>
    simp only [Bool.or_eq_false_iff, beq_eq_false_iff_ne] at h
    obtain ⟨⟨⟨⟨hdollar, hand⟩, hback⟩, hquote⟩, hrest⟩ := h
    rw [getSubstitution.eq_5 _ _ _ _ _ (by simpa using hdollar) (by simpa using hand)
      (by simpa using hback) (by simpa using hquote), ih hrest]
  | case2 c rest hne ih =>
    rw [getSubstitution.eq_5 _ _ _ _ _ (by grind) (by grind) (by grind) (by grind), ih h]
  | case3 => rfl

theorem replaceAll_plain {key value text : List Char}
    (h : values (scan (literal key) text) ≠ [] → hasReplacementPattern value = false) :
    replaceAll key value text = replace (fun _ => value) (scan (literal key) text) := by
  unfold replaceAll
  by_cases hnone : values (scan (literal key) text) = []
  · rw [← weave_map, ← map_value_matchAll] at *
    rw [List.map_eq_nil_iff.mp hnone]
    rfl
  · have hvalue : ∀ before after, getSubstitution before key after value = value :=
      fun before after => getSubstitution_plain before key after (h hnone)
    simp only [hvalue]
    rw [← weave_map, ← map_value_matchAll, List.map_map]
    rfl

/-! ### The values put in so far -/

/-- The placeholders are different texts, and none of them is empty. -/
structure Placeholders (substitutions : List Substitution) : Prop where
  nodup : (substitutions.map (·.1)).Nodup
  nonempty : ∀ substitution ∈ substitutions, substitution.1 ≠ []

theorem lookup_eq_none {done : List Substitution} {key : List Char} (h : key ∉ done.map (·.1)) :
    done.lookup key = none := by
  induction done with
  | nil => rfl
  | cons substitution done ih =>
    obtain ⟨other, value⟩ := substitution
    simp only [List.map_cons, List.mem_cons, not_or] at h
    have hne : (key == other) = false := by simpa using h.1
    simpa [List.lookup_cons, hne] using ih h.2

theorem lookup_concat (done : List Substitution) (key value other : List Char) :
    (done ++ [(key, value)]).lookup other =
      (done.lookup other).or (if other = key then some value else none) := by
  induction done with
  | nil =>
    by_cases hother : other = key
    · simp [hother]
    · have hne : (other == key) = false := by simpa using hother
      simp [List.lookup_cons, hne, hother]
  | cons substitution done ih =>
    obtain ⟨first, text⟩ := substitution
    cases hfirst : other == first with
    | true => simp [List.lookup_cons, hfirst]
    | false => simpa [List.lookup_cons, hfirst] using ih

theorem valueOf_concat {done : List Substitution} {key : List Char} (value other : List Char)
    (h : key ∉ done.map (·.1)) :
    valueOf (done ++ [(key, value)]) other =
      if other = key then value else valueOf done other := by
  unfold valueOf
  rw [lookup_concat]
  by_cases hother : other = key
  · rw [if_pos hother, if_pos hother, hother, lookup_eq_none h]
    rfl
  · rw [if_neg hother, if_neg hother, Option.or_none]

theorem replace_ownPlaces {done : List Substitution} {key : List Char} (value : List Char)
    (h : key ∉ done.map (·.1)) (pieces : List (Char ⊕ List Char)) :
    replace (fun _ => value) (ownPlaces done key pieces) =
      replace (valueOf (done ++ [(key, value)])) pieces := by
  induction pieces with
  | nil => rfl
  | cons piece pieces ih =>
    have hcons : ownPlaces done key (piece :: pieces) =
        ownPlaces done key [piece] ++ ownPlaces done key pieces := by
      simp [ownPlaces]
    rw [hcons, replace_append, ih]
    cases piece with
    | inl c => simp [ownPlaces]
    | inr other =>
      rw [replace_inr, valueOf_concat value other h]
      by_cases hother : other = key
      · simp [ownPlaces, hother]
      · simp [ownPlaces, hother]

theorem mem_of_ownPlaces {done : List Substitution} {key : List Char}
    {pieces : List (Char ⊕ List Char)} (h : values (ownPlaces done key pieces) ≠ []) :
    key ∈ values pieces := by
  induction pieces with
  | nil => simp [ownPlaces] at h
  | cons piece pieces ih =>
    have hcons : ownPlaces done key (piece :: pieces) =
        ownPlaces done key [piece] ++ ownPlaces done key pieces := by
      simp [ownPlaces]
    rw [hcons, values_append] at h
    cases piece with
    | inl c => exact ih (by simpa [ownPlaces] using h)
    | inr other =>
      by_cases hother : other = key
      · exact hother ▸ List.mem_cons_self
      · exact List.mem_cons_of_mem _ (ih (by simpa [ownPlaces, hother] using h))

theorem original_anyOf {substitutions : List Substitution}
    (hplaceholders : Placeholders substitutions) (x : Char) (text key : List Char) (more : Nat)
    (h : anyOf substitutions (x :: text) = some (key, more)) :
    valueOf [] key = x :: text.take more := by
  obtain ⟨found, hfind, hpair⟩ := Option.map_eq_some_iff.mp h
  obtain ⟨rfl, rfl⟩ := Prod.mk.inj hpair
  obtain ⟨substitution, hmem, rfl⟩ := List.mem_map.mp (List.mem_of_find?_eq_some hfind)
  have hprefix : substitution.1 <+: x :: text := by
    simpa using List.find?_some hfind
  have hne := hplaceholders.nonempty substitution hmem
  obtain ⟨rest, hrest⟩ := hprefix
  cases hkey : substitution.1 with
  | nil => exact absurd hkey hne
  | cons y key =>
    rw [hkey, List.cons_append] at hrest
    obtain ⟨rfl, rfl⟩ := List.cons.inj hrest
    simp [valueOf]

/-! ### All placeholders -/

section
variable {substitutions : List Substitution} {template : List Char}

theorem replaceEach_take (hplaceholders : Placeholders substitutions)
    (h : StaysLiteral substitutions template) (turn : Nat) (hturn : turn ≤ substitutions.length) :
    replaceEach (substitutions.take turn) template =
      replace (valueOf (substitutions.take turn)) (parsed substitutions template) := by
  induction turn with
  | zero => exact (replace_scan_original (original_anyOf hplaceholders) template).symm
  | succ turn ih =>
    have hlt : turn < substitutions.length := by omega
    have hsplit : substitutions.take (turn + 1) =
        substitutions.take turn ++ [substitutions[turn]] := by
      rw [List.take_succ_eq_append_getElem hlt]
    have hnew : substitutions[turn].1 ∉ (substitutions.take turn).map (·.1) := by
      have hnodup := hplaceholders.nodup.sublist
        ((List.take_sublist (turn + 1) substitutions).map (·.1))
      rw [hsplit, List.map_append, List.nodup_append] at hnodup
      exact fun hmem => hnodup.2.2 _ hmem _ (by simp) rfl
    have hown := h.own turn hlt
    have hplain : values (scan (literal substitutions[turn].1)
        (replace (valueOf (substitutions.take turn)) (parsed substitutions template))) ≠ [] →
          hasReplacementPattern substitutions[turn].2 = false := by
      intro hfound
      rw [hown] at hfound
      exact h.plain _ (List.getElem_mem hlt) (mem_of_ownPlaces hfound)
    have hstep : replaceEach (substitutions.take (turn + 1)) template =
        replaceAll substitutions[turn].1 substitutions[turn].2
          (replaceEach (substitutions.take turn) template) := by
      rw [hsplit]
      unfold replaceEach
      rw [List.foldl_append]
      rfl
    rw [hstep, ih (by omega), replaceAll_plain hplain, hown, replace_ownPlaces _ hnew, hsplit]

theorem replaceEach_eq (hplaceholders : Placeholders substitutions)
    (h : StaysLiteral substitutions template) :
    replaceEach substitutions template = simultaneously substitutions template := by
  have htake := replaceEach_take hplaceholders h substitutions.length (Nat.le_refl _)
  rw [List.take_length] at htake
  exact htake

end

theorem placeholders_triage (context : TriagePreparedContext) :
    Placeholders (triageSubstitutions context) where
  nodup := by
    simp only [triageSubstitutions, List.map_cons, List.map_nil]
    decide
  nonempty := by simp [triageSubstitutions, placeholder]

theorem placeholders_prd (context : PrdDecompositionPreparedContext) :
    Placeholders (prdSubstitutions context) where
  nodup := by
    simp only [prdSubstitutions, List.map_cons, List.map_nil]
    decide
  nonempty := by simp [prdSubstitutions, placeholder]

/-- Both prompts are their templates with all placeholders replaced at once, when the values stay
as they are. -/
theorem drafts_literal (template : List Char) (triage : TriagePreparedContext)
    (prd : PrdDecompositionPreparedContext) :
    (StaysLiteral (triageSubstitutions triage) template →
      substituteTriageDraftPrompt template triage =
        simultaneously (triageSubstitutions triage) template) ∧
    (StaysLiteral (prdSubstitutions prd) template →
      substitutePrdDecompositionDraftPrompt template prd =
        simultaneously (prdSubstitutions prd) template) :=
  ⟨replaceEach_eq (placeholders_triage triage), replaceEach_eq (placeholders_prd prd)⟩

/-! ### Two documents -/

def sampleSummary : HubTaskSummary where
  totalTasks := 1
  inboxCount := 1
  needsInfoCount := 0

def sampleTriage : TriagePreparedContext where
  taskQuery := "t-1"
  taskCount := 1
  hubTaskSummary := sampleSummary
  boardTaskCatalog := [{ id := "t-1", title := "a $ b", hubStatus := "inbox" }]
  taskDetails := "see \x7b\x7bTASK_QUERY\x7d\x7d"

def samplePrd (content : String) : PrdDecompositionPreparedContext where
  prdRef := "prd.md"
  prdTitle := "Costs"
  prdContent := content
  hubTaskSummary := sampleSummary

def triageTemplate : List Char :=
  placeholder "TASK_QUERY" ++ [' '] ++ placeholder "BOARD_TASK_CATALOG" ++
    placeholder "TASK_DETAILS"

def prdTemplate : List Char :=
  placeholder "PRD_TITLE" ++ [':'] ++ placeholder "PRD_CONTENT"

/-- A dollar sign alone stays, and so does a placeholder that had its turn. -/
theorem drafts_literal_sample :
    substituteTriageDraftPrompt triageTemplate sampleTriage =
        simultaneously (triageSubstitutions sampleTriage) triageTemplate ∧
      substitutePrdDecompositionDraftPrompt prdTemplate (samplePrd "5$ or $5") =
        simultaneously (prdSubstitutions (samplePrd "5$ or $5")) prdTemplate :=
  ⟨(drafts_literal triageTemplate sampleTriage (samplePrd "")).1 ⟨by decide, by decide⟩,
    (drafts_literal prdTemplate sampleTriage (samplePrd "5$ or $5")).2 ⟨by decide, by decide⟩⟩

/-- Two dollar signs become one. -/
theorem dollars_dropped :
    ∃ template prd, substitutePrdDecompositionDraftPrompt template prd ≠
      simultaneously (prdSubstitutions prd) template :=
  ⟨prdTemplate, samplePrd "$$", by decide⟩

end ArchLoop.DraftPrompt
