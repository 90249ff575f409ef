import ArchLoop.SectionText

/-!
# `ArchLoop.Proofs.TextWrap`: what breaking a text into lines keeps

`wrapText` is meant to be a "soft word-wrap that ignores ANSI for width but keeps escapes intact".
No line is ever too wide (`visibleLength_wrapText`), and no character other than blanks is lost. But
the words that are too long are cut by their characters, those of escape sequences included.

`scan_split` says what a cut makes of the sequences of a word: they stay as they are, unless the cut
is inside of one. So the lines have what the text has, sequence by sequence, if and only if in each
word that is cut no sequence stands over a place where it is (`wrapText_keeps_iff`).
-/

set_option autoImplicit false

namespace ArchLoop.SectionText

open ArchLoop.Lib ArchLoop.Lib.Pattern

/-! ### Sequences -/

theorem csi_of_ne {x : Char} (text : List Char) (h : x ≠ escape) : csi (x :: text) = none := by
  unfold csi
  split
  · rename_i first rest heq
    cases heq
    dsimp only
    split
    · simp [h]
    · rfl
  · rfl

theorem isParameter_of_isAlpha {c : Char} (h : c.isAlpha = true) : isParameter c = false := by
  have hletter := isAlpha_toNat h
  rw [isParameter, Bool.or_eq_false_iff, decide_eq_false_iff_not]
  constructor
  · rw [← Bool.not_eq_true]
    intro hdigit
    have hcases : (decide (48 ≤ c.val) && decide (c.val ≤ 57)) = true := hdigit
    simp only [Bool.and_eq_true, decide_eq_true_eq, UInt32.le_iff_toNat_le] at hcases
    have hhigh : c.toNat ≤ 57 := hcases.2
    omega
  · rintro rfl
    exact absurd h (by decide)

theorem csi_sequence {parameters : List Char} {final : Char} (rest : List Char)
    (hparameters : ∀ c ∈ parameters, isParameter c = true) (hfinal : final.isAlpha = true) :
    csi (escape :: '[' :: (parameters ++ final :: rest)) =
      some (escape :: '[' :: (parameters ++ [final]), parameters.length + 2) := by
  have hstop := isParameter_of_isAlpha hfinal
  have htake : (parameters ++ final :: rest).takeWhile isParameter = parameters := by
    rw [List.takeWhile_append_of_pos hparameters, List.takeWhile_cons_of_neg (by simp [hstop]),
      List.append_nil]
  have hdrop : (parameters ++ final :: rest).dropWhile isParameter = final :: rest := by
    rw [List.dropWhile_append_of_pos hparameters, List.dropWhile_cons_of_neg (by simp [hstop])]
  simp [csi, htake, hdrop, hfinal]

theorem csi_eq_some {x : Char} {text value : List Char} {more : Nat}
    (h : csi (x :: text) = some (value, more)) :
    ∃ parameters final rest, x = escape ∧ text = '[' :: (parameters ++ final :: rest) ∧
      (∀ c ∈ parameters, isParameter c = true) ∧ final.isAlpha = true ∧
      value = escape :: '[' :: (parameters ++ [final]) ∧ more = parameters.length + 2 := by
  unfold csi at h
  split at h
  · rename_i first rest heq
    cases heq
    dsimp only at h
    split at h
    · rename_i final behind hbehind
      split at h
      · rename_i hsequence
        rw [Bool.and_eq_true, decide_eq_true_eq] at hsequence
        cases h
        refine ⟨rest.takeWhile isParameter, final, behind, hsequence.1, ?_,
          fun c hc => List.mem_takeWhile_imp hc, hsequence.2, by rw [hsequence.1], rfl⟩
        rw [← hbehind, List.takeWhile_append_dropWhile]
      · cases h
    · cases h
  · cases h

theorem isParameter_of_isBlank {c : Char} (h : isBlank c = true) : isParameter c = false := by
  rw [← Bool.not_eq_true]
  intro hparameter
  simp only [isParameter, Char.isDigit, Bool.or_eq_true, Bool.and_eq_true,
    decide_eq_true_eq] at hparameter
  rcases hparameter with ⟨hlow, hhigh⟩ | rfl
  · have hval : c.toNat = c.val.toNat := rfl
    simp only [isBlank, Bool.or_eq_true, Bool.and_eq_true, decide_eq_true_eq, beq_iff_eq] at h
    have hlow := UInt32.le_iff_toNat_le.mp hlow
    have hhigh := UInt32.le_iff_toNat_le.mp hhigh
    simp at hlow hhigh
    omega
  · revert h
    decide

theorem ne_of_isBlank {c d : Char} (hc : isBlank c = true) (hd : isBlank d = false) : c ≠ d := by
  rintro rfl
  rw [hc] at hd
  cases hd

theorem separates_blank {c : Char} (hc : isBlank c = true) : Separates csi c where
  here := fun rest => csi_of_ne rest (ne_of_isBlank hc (by decide))
  before := by
    intro x text rest
    by_cases hx : x = escape
    · cases text with
      | nil =>
        have hbracket : c ≠ '[' := ne_of_isBlank hc (by decide)
        unfold csi
        simp [hbracket]
      | cons d text =>
        by_cases hd : d = '['
        · subst hx hd
          have hparameter := isParameter_of_isBlank hc
          have halpha := isAlpha_of_isBlank hc
          -- The parameters end at the same place, or at the blank.
          cases hrest : text.dropWhile isParameter with
          | nil =>
            have hall := List.dropWhile_eq_nil_iff.mp hrest
            simp [csi, List.dropWhile_append_of_pos hall, hrest, hparameter, halpha]
          | cons final more =>
            have hne : text.dropWhile isParameter ≠ [] := by simp [hrest]
            have hstop : isParameter final = false := by
              simpa [hrest] using List.head_dropWhile_not isParameter hne
            have hall : ∀ p ∈ text.takeWhile isParameter, isParameter p = true :=
              fun p hp => List.mem_takeWhile_imp hp
            have htext : text.takeWhile isParameter ++ final :: more = text := by
              rw [← hrest, List.takeWhile_append_dropWhile]
            rw [← htext]
            simp [csi, List.takeWhile_append_of_pos hall, List.dropWhile_append_of_pos hall, hstop]
        · unfold csi
          simp [hd]
    · rw [csi_of_ne _ hx, csi_of_ne _ hx]
  inside := by
    intro x text value more h
    obtain ⟨parameters, final, rest, -, rfl, -, -, -, rfl⟩ := csi_eq_some h
    simp

/-! ### A cut in a text -/

def lengthOf (pieces : List (Char ⊕ List Char)) : Nat := (replace id pieces).length

theorem csi_original (x : Char) (text value : List Char) (more : Nat)
    (h : csi (x :: text) = some (value, more)) : id value = x :: text.take more := by
  obtain ⟨parameters, final, rest, rfl, rfl, -, -, rfl, rfl⟩ := csi_eq_some h
  have hlength : parameters.length + 2 = ('[' :: (parameters ++ [final])).length := by simp
  have htext : '[' :: (parameters ++ final :: rest) = '[' :: (parameters ++ [final]) ++ rest := by
    simp
  rw [hlength, htext, List.take_left]
  rfl

theorem lengthOf_scan (text : List Char) : lengthOf (scan csi text) = text.length := by
  unfold lengthOf
  rw [replace_scan_original csi_original]

theorem scan_plain {front : List Char} (h : escape ∉ front) (rest : List Char) :
    scan csi (front ++ rest) = front.map .inl ++ scan csi rest := by
  apply scan_append_of_none
  intro x tail hsuffix
  apply csi_of_ne
  rintro rfl
  exact h (hsuffix.subset List.mem_cons_self)

theorem csi_take {x : Char} {text : List Char} (k : Nat) (h : csi (x :: text) = none) :
    csi (x :: text.take k) = none := by
  cases hfront : csi (x :: text.take k) with
  | none => rfl
  | some found =>
    obtain ⟨value, more⟩ := found
    obtain ⟨parameters, final, rest, rfl, htext, hparameters, hfinal, -, -⟩ := csi_eq_some hfront
    have hwhole : text = '[' :: (parameters ++ final :: (rest ++ text.drop k)) := by
      conv_lhs => rw [← List.take_append_drop k text, htext]
      simp
    rw [hwhole, csi_sequence _ hparameters hfinal] at h
    cases h

theorem scan_sequence {parameters : List Char} {final : Char} (rest : List Char)
    (hparameters : ∀ c ∈ parameters, isParameter c = true) (hfinal : final.isAlpha = true) :
    scan csi (escape :: ('[' :: (parameters ++ [final])) ++ rest) =
      .inr (escape :: '[' :: (parameters ++ [final])) :: scan csi rest := by
  have hmatch := csi_sequence rest hparameters hfinal
  have hlength : parameters.length + 2 = ('[' :: (parameters ++ [final])).length := by simp
  have htext : '[' :: (parameters ++ final :: rest) = '[' :: (parameters ++ [final]) ++ rest := by
    simp
  rw [hlength, htext] at hmatch
  exact scan_match hmatch

theorem scan_take_sequence {parameters : List Char} {final : Char} {k : Nat}
    (hparameters : ∀ c ∈ parameters, isParameter c = true) (hfinal : final.isAlpha = true)
    (hescape : escape ∉ '[' :: (parameters ++ [final])) (hk : k < parameters.length + 2) :
    scan csi (escape :: ('[' :: (parameters ++ [final])).take k) =
      (escape :: ('[' :: (parameters ++ [final])).take k).map .inl := by
  have hnone : csi (escape :: ('[' :: (parameters ++ [final])).take k) = none := by
    cases hfront : csi (escape :: ('[' :: (parameters ++ [final])).take k) with
    | none => rfl
    | some found =>
      obtain ⟨value, more⟩ := found
      obtain ⟨others, last, rest, -, htake, hothers, hlast, -, -⟩ := csi_eq_some hfront
      have hwhole : '[' :: (parameters ++ [final]) =
          '[' :: (others ++ last :: (rest ++ ('[' :: (parameters ++ [final])).drop k)) := by
        conv_lhs => rw [← List.take_append_drop k ('[' :: (parameters ++ [final])), htake]
        simp
      -- Both readings of the whole sequence have their letter at the same place.
      have hmatch := csi_sequence [] hparameters hfinal
      rw [hwhole, csi_sequence _ hothers hlast] at hmatch
      have hsame := (Prod.mk.inj (Option.some.inj hmatch)).2
      have hlength := congrArg List.length htake
      simp only [List.length_take, List.length_cons, List.length_append] at hlength
      omega
  have hrest : escape ∉ ('[' :: (parameters ++ [final])).take k :=
    fun h => hescape (List.mem_of_mem_take h)
  have hplain := scan_plain hrest []
  rw [List.append_nil, scan_nil, List.append_nil] at hplain
  rw [scan_of_none hnone, hplain]
  rfl

theorem escape_notMem {parameters : List Char} {final : Char}
    (hparameters : ∀ c ∈ parameters, isParameter c = true) (hfinal : final.isAlpha = true) :
    escape ∉ '[' :: (parameters ++ [final]) := by
  simp only [List.mem_cons, List.mem_append, List.not_mem_nil, or_false, not_or]
  refine ⟨by decide, ?_, ?_⟩
  · intro h
    exact absurd (hparameters _ h) (by decide)
  · rintro rfl
    exact absurd hfinal (by decide)

theorem scan_split (text : List Char) (k : Nat) (hk : k ≤ text.length) :
    (∃ front back, scan csi text = front ++ back ∧ scan csi (text.take k) = front ∧
      scan csi (text.drop k) = back ∧ lengthOf front = k) ∨
    ∃ front left right back, left ≠ [] ∧ right ≠ [] ∧
      scan csi text = front ++ .inr (left ++ right) :: back ∧
      scan csi (text.take k) = front ++ left.map .inl ∧
      scan csi (text.drop k) = right.map .inl ++ back ∧ lengthOf front + left.length = k := by
  induction hn : text.length using Nat.strong_induction_on generalizing text k with
  | _ n ih =>
    cases text with
    | nil =>
      left
      have hzero : k = 0 := by simpa using hk
      exact ⟨[], [], rfl, by simp, by simp, by rw [hzero]; rfl⟩
    | cons x text =>
      cases k with
      | zero => exact .inl ⟨[], _, rfl, rfl, rfl, rfl⟩
      | succ k =>
        rw [List.length_cons] at hk hn
        rw [List.take_succ_cons, List.drop_succ_cons]
        cases hmatch : csi (x :: text) with
        | none =>
          rw [scan_of_none hmatch, scan_of_none (csi_take k hmatch)]
          rcases ih text.length (by omega) text k (by omega) rfl with
            ⟨front, back, hscan, hfront, hback, hlength⟩ |
            ⟨front, left, right, back, hleft, hright, hscan, hfront, hback, hlength⟩
          · left
            refine ⟨.inl x :: front, back, by rw [hscan]; rfl, by rw [hfront], hback, ?_⟩
            simp [lengthOf] at hlength ⊢
            omega
          · right
            refine ⟨.inl x :: front, left, right, back, hleft, hright, by rw [hscan]; rfl,
              by rw [hfront]; rfl, hback, ?_⟩
            simp [lengthOf] at hlength ⊢
            omega
        | some found =>
          obtain ⟨value, more⟩ := found
          obtain ⟨parameters, final, rest, rfl, rfl, hparameters, hfinal, -, -⟩ :=
            csi_eq_some hmatch
          have htext : '[' :: (parameters ++ final :: rest) =
              '[' :: (parameters ++ [final]) ++ rest := by simp
          have hlen : ('[' :: (parameters ++ [final])).length = parameters.length + 2 := by simp
          have hnotMem := escape_notMem hparameters hfinal
          have hall := scan_sequence rest hparameters hfinal
          rw [htext] at hk hn ⊢
          rw [List.length_append, hlen] at hk hn
          rw [← List.cons_append, hall]
          by_cases hwhole : parameters.length + 2 ≤ k
          · -- The cut is behind the sequence.
            obtain ⟨j, rfl⟩ := Nat.exists_eq_add_of_le hwhole
            have hfront := scan_sequence (rest.take j) hparameters hfinal
            rw [List.cons_append] at hfront
            rw [← hlen, List.take_length_add_append, List.drop_length_add_append, hfront]
            rcases ih rest.length (by omega) rest j (by omega) rfl with
              ⟨front, back, hscan, hfront, hback, hlength⟩ |
              ⟨front, left, right, back, hleft, hright, hscan, hfront, hback, hlength⟩
            · left
              refine ⟨_ :: front, back, by rw [hscan]; rfl, by rw [hfront], hback, ?_⟩
              simp [lengthOf] at hlength ⊢
              omega
            · right
              refine ⟨_ :: front, left, right, back, hleft, hright, by rw [hscan]; rfl,
                by rw [hfront]; rfl, hback, ?_⟩
              simp [lengthOf] at hlength ⊢
              omega
          · -- The cut is inside the sequence.
            right
            have hk' : k < parameters.length + 2 := by omega
            have htake : ('[' :: (parameters ++ [final]) ++ rest).take k =
                ('[' :: (parameters ++ [final])).take k :=
              List.take_append_of_le_length (by omega)
            have hdrop : ('[' :: (parameters ++ [final]) ++ rest).drop k =
                ('[' :: (parameters ++ [final])).drop k ++ rest :=
              List.drop_append_of_le_length (by omega)
            refine ⟨[], escape :: ('[' :: (parameters ++ [final])).take k,
              ('[' :: (parameters ++ [final])).drop k, scan csi rest, by simp, ?_, ?_, ?_, ?_, ?_⟩
            · rw [ne_eq, List.drop_eq_nil_iff]
              omega
            · rw [List.cons_append, List.take_append_drop]
              rfl
            · rw [htake]
              exact scan_take_sequence hparameters hfinal hnotMem hk'
            · rw [hdrop]
              exact scan_plain (fun h => hnotMem (List.mem_of_mem_drop h)) rest
            · simp [lengthOf]
              omega

/-! ### Words that are cut -/

/-- No sequence stands over a place where the word is cut: both its ends are in the same stretch of
`width` characters. -/
def uncutFrom (width : Nat) : Nat → List (Char ⊕ List Char) → Bool
  | _, [] => true
  | offset, .inl _ :: pieces => uncutFrom width (offset + 1) pieces
  | offset, .inr sequence :: pieces =>
    offset / width = (offset + (sequence.length - 1)) / width &&
      uncutFrom width (offset + sequence.length) pieces

def sequences (pieces : List (Char ⊕ List Char)) : Nat := (values pieces).length

@[simp] theorem sequences_append (front back : List (Char ⊕ List Char)) :
    sequences (front ++ back) = sequences front + sequences back := by
  simp [sequences]

@[simp] theorem sequences_map_inl (text : List Char) :
    sequences (text.map .inl) = 0 := by
  simp [sequences]

theorem uncutFrom_append (width : Nat) (front back : List (Char ⊕ List Char)) (offset : Nat) :
    uncutFrom width offset (front ++ back) =
      (uncutFrom width offset front && uncutFrom width (offset + lengthOf front) back) := by
  induction front generalizing offset with
  | nil => simp [uncutFrom, lengthOf]
  | cons piece front ih =>
    cases piece with
    | inl c =>
      have hlength : lengthOf (.inl c :: front) = 1 + lengthOf front := by
        simp [lengthOf]
        omega
      rw [List.cons_append, uncutFrom, uncutFrom, ih, hlength, Nat.add_assoc]
    | inr sequence =>
      have hlength : lengthOf (.inr sequence :: front) = sequence.length + lengthOf front := by
        simp [lengthOf]
      rw [List.cons_append, uncutFrom, uncutFrom, ih, hlength, Nat.add_assoc, Bool.and_assoc]

theorem uncutFrom_of_le {width offset : Nat} {pieces : List (Char ⊕ List Char)}
    (h : offset + lengthOf pieces ≤ width) :
    uncutFrom width offset pieces = true := by
  induction pieces generalizing offset with
  | nil => rfl
  | cons piece pieces ih =>
    cases piece with
    | inl c =>
      simp [lengthOf] at h
      exact ih (by simp [lengthOf]; omega)
    | inr sequence =>
      have hlength : lengthOf (.inr sequence :: pieces) = sequence.length + lengthOf pieces := by
        simp [lengthOf]
      rw [hlength] at h
      rw [uncutFrom, ih (by omega), Bool.and_true, decide_eq_true_eq]
      by_cases hfirst : offset < width
      · rw [Nat.div_eq_of_lt hfirst, Nat.div_eq_of_lt (by omega)]
      · -- Nothing is left of the stretch, and nothing of the sequence.
        have hzero : sequence.length = 0 := by omega
        rw [hzero]
        rfl

theorem uncutFrom_add_width {width : Nat} (hwidth : 0 < width) (offset : Nat)
    (pieces : List (Char ⊕ List Char)) :
    uncutFrom width (offset + width) pieces = uncutFrom width offset pieces := by
  induction pieces generalizing offset with
  | nil => rfl
  | cons piece pieces ih =>
    cases piece with
    | inl c =>
      rw [uncutFrom, uncutFrom, ← ih (offset + 1), Nat.add_right_comm offset width 1]
    | inr sequence =>
      have hlast : offset + width + (sequence.length - 1) =
          offset + (sequence.length - 1) + width := Nat.add_right_comm _ _ _
      have hnext : offset + width + sequence.length = offset + sequence.length + width :=
        Nat.add_right_comm _ _ _
      rw [uncutFrom, uncutFrom, hnext, ih, hlast, Nat.add_div_right _ hwidth,
        Nat.add_div_right _ hwidth]
      simp

/-- The stretches of a word, with `n` places left in the first one. -/
def chunkFrom (width : Nat) : Nat → List Char → List (List Char)
  | _, [] => [[]]
  | 0, c :: text =>
    match chunkFrom width (width - 1) text with
    | [] => [[], [c]]
    | chunk :: chunks => [] :: (c :: chunk) :: chunks
  | n + 1, c :: text =>
    match chunkFrom width n text with
    | [] => [[c]]
    | chunk :: chunks => (c :: chunk) :: chunks

theorem chunkFrom_of_le {width n : Nat} {text : List Char} (h : text.length ≤ n) :
    chunkFrom width n text = [text] := by
  induction text generalizing n with
  | nil => cases n <;> rfl
  | cons c text ih =>
    cases n with
    | zero => simp at h
    | succ n => rw [chunkFrom, ih (by simpa using h)]

theorem chunkFrom_of_lt {width n : Nat} {text : List Char} (hwidth : 0 < width)
    (h : n < text.length) :
    chunkFrom width n text = text.take n :: chunkFrom width width (text.drop n) := by
  induction text generalizing n with
  | nil => simp at h
  | cons c text ih =>
    cases n with
    | zero =>
      -- The next stretch begins here.
      obtain ⟨width, rfl⟩ := Nat.exists_eq_add_one_of_ne_zero hwidth.ne'
      rw [List.take_zero, List.drop_zero, chunkFrom, chunkFrom, Nat.add_sub_cancel]
      cases chunkFrom (width + 1) width text <;> rfl
    | succ n =>
      rw [chunkFrom, ih (by simpa using h)]
      rfl

/-- Cut into stretches, a word keeps its sequences if none of them is cut, and loses some
otherwise. -/
theorem scan_chunks {width : Nat} (hwidth : 0 < width) (text : List Char) :
    (uncutFrom width 0 (scan csi text) = true →
      (chunkFrom width width text).flatMap (scan csi) = scan csi text) ∧
    (uncutFrom width 0 (scan csi text) = false →
      sequences ((chunkFrom width width text).flatMap (scan csi)) < sequences (scan csi text)) := by
  induction hn : text.length using Nat.strong_induction_on generalizing text with
  | _ n ih =>
    by_cases hshort : text.length ≤ width
    · rw [chunkFrom_of_le hshort, List.flatMap_singleton,
        uncutFrom_of_le (by rw [lengthOf_scan]; omega)]
      exact ⟨fun _ => rfl, (nomatch ·)⟩
    · have hlong : width < text.length := by omega
      have hdrop : (text.drop width).length < n := by
        rw [List.length_drop]
        omega
      obtain ⟨hkeep, hlose⟩ := ih _ hdrop (text.drop width) rfl
      have hle : sequences ((chunkFrom width width (text.drop width)).flatMap (scan csi)) ≤
          sequences (scan csi (text.drop width)) := by
        cases hcut : uncutFrom width 0 (scan csi (text.drop width)) with
        | true => rw [hkeep hcut]
        | false => exact (hlose hcut).le
      rw [chunkFrom_of_lt hwidth hlong, List.flatMap_cons]
      rcases scan_split text width hlong.le with
        ⟨front, back, hscan, hfront, hback, hlength⟩ |
        ⟨front, left, right, back, hleft, hright, hscan, hfront, hback, hlength⟩
      · -- The first stretch ends between two pieces.
        rw [hback] at hkeep hlose hle
        rw [hscan, hfront, uncutFrom_append, uncutFrom_of_le (by omega), hlength,
          uncutFrom_add_width hwidth, Bool.true_and, sequences_append, sequences_append]
        constructor
        · intro h
          rw [hkeep h]
        · intro h
          have := hlose h
          omega
      · -- The sequence at its end is cut, and lost.
        rw [hback] at hle
        have hcut : uncutFrom width 0 (scan csi text) = false := by
          rw [hscan, uncutFrom_append, uncutFrom]
          have hleft' := List.length_pos_iff.mpr hleft
          have hright' := List.length_pos_iff.mpr hright
          have hstart : (0 + lengthOf front) / width = 0 := Nat.div_eq_of_lt (by omega)
          have hend : (0 + lengthOf front + ((left ++ right).length - 1)) / width ≠ 0 := by
            rw [Nat.div_ne_zero_iff, List.length_append]
            omega
          rw [hstart, decide_eq_false (Ne.symm hend)]
          simp
        rw [hcut, hscan, hfront]
        refine ⟨(nomatch ·), fun _ => ?_⟩
        have hone : sequences (.inr (left ++ right) :: back) = 1 + sequences back := by
          simp [sequences]
          omega
        rw [sequences_append, sequences_append, sequences_append, sequences_map_inl, hone]
        rw [sequences_append, sequences_map_inl] at hle
        omega

/-! ### Lines -/

def isInk : Char ⊕ List Char → Bool
  | .inl c => !isBlank c
  | .inr _ => true

/-- The characters other than blanks and the escape sequences of a text, in their order. -/
def ink (text : List Char) : List (Char ⊕ List Char) := (scan csi text).filter isInk

/-- A word can follow: the line is empty, or ends with a blank. -/
def AtBoundary (cur : List Char) : Prop :=
  cur = [] ∨ ∃ front b, isBlank b = true ∧ cur = front ++ [b]

theorem scan_append_of_atBoundary {cur : List Char} (h : AtBoundary cur) (word : List Char) :
    scan csi (cur ++ word) = scan csi cur ++ scan csi word := by
  rcases h with rfl | ⟨front, b, hb, rfl⟩
  · rfl
  · have hsplit := scan_separator (separates_blank hb) front
    rw [List.append_assoc, List.singleton_append, hsplit, hsplit []]
    simp

theorem scan_append_blanks {blanks : List Char} (h : ∀ c ∈ blanks, isBlank c = true)
    (cur : List Char) : scan csi (cur ++ blanks) = scan csi cur ++ blanks.map .inl := by
  by_cases hne : blanks = []
  · simp [hne]
  · have hsplit := scan_separators (fun c hc => separates_blank (h c hc)) hne cur []
    simpa using hsplit

theorem ink_append_blanks {blanks : List Char} (h : ∀ c ∈ blanks, isBlank c = true)
    (cur : List Char) : ink (cur ++ blanks) = ink cur := by
  unfold ink
  rw [scan_append_blanks h, List.filter_append, List.append_right_eq_self, List.filter_eq_nil_iff]
  intro piece hpiece
  obtain ⟨c, hc, rfl⟩ := List.mem_map.mp hpiece
  simp [isInk, h c hc]

theorem ink_blanks {blanks : List Char} (h : ∀ c ∈ blanks, isBlank c = true) : ink blanks = [] := by
  have hblanks := ink_append_blanks h []
  rwa [List.nil_append] at hblanks

theorem visibleLength_append_blanks {blanks : List Char} (h : ∀ c ∈ blanks, isBlank c = true)
    (cur : List Char) : visibleLength (cur ++ blanks) = visibleLength cur + blanks.length := by
  unfold visibleLength
  rw [scan_append_blanks h, replace_append, replace_map_inl, List.length_append]

theorem visibleLength_append {cur : List Char} (h : AtBoundary cur) (word : List Char) :
    visibleLength (cur ++ word) = visibleLength cur + visibleLength word := by
  unfold visibleLength
  rw [scan_append_of_atBoundary h, replace_append, List.length_append]

theorem ink_append {cur : List Char} (h : AtBoundary cur) (word : List Char) :
    ink (cur ++ word) = ink cur ++ ink word := by
  unfold ink
  rw [scan_append_of_atBoundary h, List.filter_append]

theorem visibleLength_le (text : List Char) : visibleLength text ≤ text.length := by
  rw [← lengthOf_scan]
  unfold visibleLength lengthOf
  induction scan csi text with
  | nil => simp
  | cons piece pieces ih => cases piece <;> simp <;> omega

theorem trimmed_blanks (cur : List Char) :
    ∃ blanks, (∀ c ∈ blanks, isBlank c = true) ∧ cur = cur.rdropWhile isBlank ++ blanks := by
  refine ⟨(cur.reverse.takeWhile isBlank).reverse, ?_, ?_⟩
  · intro c hc
    exact List.mem_takeWhile_imp (List.mem_reverse.mp hc)
  · unfold List.rdropWhile
    rw [← List.reverse_append, List.takeWhile_append_dropWhile, List.reverse_reverse]

theorem ink_trimmed (cur : List Char) : ink (cur.rdropWhile isBlank) = ink cur := by
  obtain ⟨blanks, hblanks, hcur⟩ := trimmed_blanks cur
  conv_rhs => rw [hcur, ink_append_blanks hblanks]

theorem visibleLength_trimmed (cur : List Char) :
    visibleLength (cur.rdropWhile isBlank) ≤ visibleLength cur := by
  obtain ⟨blanks, hblanks, hcur⟩ := trimmed_blanks cur
  conv_rhs => rw [hcur, visibleLength_append_blanks hblanks]
  omega

theorem ink_word {word : List Char} (h : ∀ c ∈ word, isBlank c = false) :
    ink word = scan csi word := by
  unfold ink
  rw [List.filter_eq_self]
  intro piece hpiece
  cases piece with
  | inr sequence => rfl
  | inl c => simp [isInk, h c (mem_of_inl_mem_scan hpiece)]

/-- A line is as wide as it is taken to be, and fits. -/
structure Fits (max : Nat) (state : WrapState) : Prop where
  lines_le : ∀ line ∈ state.lines, visibleLength line ≤ max
  cur_le : visibleLength state.cur ≤ state.curVL
  vl_le : state.curVL ≤ max

def WrapState.ink (state : WrapState) : List (Char ⊕ List Char) :=
  state.lines.flatMap SectionText.ink ++ SectionText.ink state.cur

def WrapState.ended (state : WrapState) : List (List Char) :=
  if state.cur.length > 0 then state.lines ++ [state.cur.rdropWhile isBlank] else state.lines

theorem ink_ended (state : WrapState) : state.ended.flatMap ink = state.ink := by
  unfold WrapState.ended WrapState.ink
  split
  · rw [List.flatMap_append, List.flatMap_singleton, ink_trimmed]
  · have hnil : state.cur = [] := by
      rw [← List.length_eq_zero_iff]
      omega
    rw [hnil, show SectionText.ink [] = [] from rfl, List.append_nil]

theorem ended_le {max : Nat} {state : WrapState} (h : Fits max state) :
    ∀ line ∈ state.ended, visibleLength line ≤ max := by
  unfold WrapState.ended
  split
  · intro line hline
    rcases List.mem_append.mp hline with hline | hline
    · exact h.lines_le line hline
    · rw [List.mem_singleton.mp hline]
      exact (visibleLength_trimmed _).trans (h.cur_le.trans h.vl_le)
  · exact h.lines_le

theorem foldl_cutStep {max : Nat} (hmax : 0 < max) (tok : List Char) (state : WrapState)
    (hlength : state.curVL = state.cur.length) (hle : state.cur.length ≤ max) :
    ∃ chunk chunks, chunkFrom max (max - state.cur.length) tok = chunk :: chunks ∧
      (tok.foldl (cutStep max) state).lines ++ [(tok.foldl (cutStep max) state).cur] =
        state.lines ++ (state.cur ++ chunk) :: chunks ∧
      (tok.foldl (cutStep max) state).curVL = (tok.foldl (cutStep max) state).cur.length ∧
      (tok.foldl (cutStep max) state).cur.length ≤ max := by
  induction tok generalizing state with
  | nil => exact ⟨[], [], by cases max - state.cur.length <;> rfl, by simp, hlength, hle⟩
  | cons c tok ih =>
    rw [List.foldl_cons]
    by_cases hfull : state.curVL + 1 > max
    · have hstep : cutStep max state c =
          { lines := state.lines ++ [state.cur], cur := [c], curVL := 1 } := if_pos hfull
      have hzero : max - state.cur.length = 0 := by omega
      rw [hstep, hzero]
      obtain ⟨chunk, chunks, hchunks, hlines, hcur⟩ := ih
        { lines := state.lines ++ [state.cur], cur := [c], curVL := 1 } rfl (by simp; omega)
      refine ⟨[], (c :: chunk) :: chunks, ?_, ?_, hcur⟩
      · have hnext : chunkFrom max (max - 1) tok = chunk :: chunks := hchunks
        rw [chunkFrom, hnext]
      · rw [hlines]
        simp
    · have hstep : cutStep max state c =
          { state with cur := state.cur ++ [c], curVL := state.curVL + 1 } := if_neg hfull
      have hplace : max - state.cur.length = (max - (state.cur ++ [c]).length) + 1 := by
        rw [List.length_append, List.length_singleton]
        omega
      rw [hstep, hplace]
      obtain ⟨chunk, chunks, hchunks, hlines, hcur⟩ := ih
        { state with cur := state.cur ++ [c], curVL := state.curVL + 1 }
        (by simp [hlength]) (by simp; omega)
      refine ⟨c :: chunk, chunks, ?_, ?_, hcur⟩
      · rw [chunkFrom, hchunks]
      · rw [hlines]
        simp

theorem length_chunkFrom {width : Nat} (hwidth : 0 < width) (text : List Char) :
    ∀ chunk ∈ chunkFrom width width text, chunk.length ≤ width := by
  induction hn : text.length using Nat.strong_induction_on generalizing text with
  | _ n ih =>
    by_cases hshort : text.length ≤ width
    · rw [chunkFrom_of_le hshort]
      simpa using hshort
    · rw [chunkFrom_of_lt hwidth (by omega), List.forall_mem_cons]
      constructor
      · rw [List.length_take]
        omega
      · exact ih (text.drop width).length (by rw [List.length_drop]; omega) _ rfl

theorem subset_of_mem_chunkFrom {width : Nat} (hwidth : 0 < width) (text : List Char) :
    ∀ chunk ∈ chunkFrom width width text, chunk ⊆ text := by
  induction hn : text.length using Nat.strong_induction_on generalizing text with
  | _ n ih =>
    by_cases hshort : text.length ≤ width
    · rw [chunkFrom_of_le hshort]
      simp
    · rw [chunkFrom_of_lt hwidth (by omega), List.forall_mem_cons]
      constructor
      · exact List.take_subset _ _
      · intro chunk hchunk
        have hshorter : (text.drop width).length < n := by
          rw [List.length_drop]
          omega
        exact List.Subset.trans (ih _ hshorter _ rfl chunk hchunk) (List.drop_subset _ _)

theorem foldl_cutStep_lines {max : Nat} (hmax : 0 < max) (tok : List Char)
    (lines : List (List Char)) (hlines : ∀ line ∈ lines, visibleLength line ≤ max) :
    Fits max (tok.foldl (cutStep max) { lines }) ∧
      (tok.foldl (cutStep max) { lines }).ink =
        lines.flatMap ink ++ (chunkFrom max max tok).flatMap ink ∧
      ∀ c ∈ (tok.foldl (cutStep max) { lines }).cur, c ∈ tok := by
  obtain ⟨chunk, chunks, hchunks, hall, hcurVL, hcur⟩ :=
    foldl_cutStep hmax tok { lines } rfl (by simp)
  have hplaces : max - ({ lines } : WrapState).cur.length = max := by simp
  rw [hplaces] at hchunks
  have hall' : (tok.foldl (cutStep max) { lines }).lines ++
      [(tok.foldl (cutStep max) { lines }).cur] = lines ++ chunkFrom max max tok := by
    rw [hall, hchunks]
    simp
  refine ⟨⟨?_, ?_, ?_⟩, ?_, ?_⟩
  · intro line hline
    have hmem : line ∈ lines ++ chunkFrom max max tok := by
      rw [← hall']
      exact List.mem_append_left _ hline
    rcases List.mem_append.mp hmem with hmem | hmem
    · exact hlines line hmem
    · exact (visibleLength_le line).trans (length_chunkFrom hmax tok line hmem)
  · rw [hcurVL]
    exact visibleLength_le _
  · rw [hcurVL]
    exact hcur
  · unfold WrapState.ink
    rw [← List.flatMap_append, ← hall', List.flatMap_append, List.flatMap_singleton]
  · have hlast : some (tok.foldl (cutStep max) { lines }).cur =
        (chunkFrom max max tok).getLast? := by
      have hboth := congrArg List.getLast? hall'
      rw [List.getLast?_concat, List.getLast?_append, hchunks, List.getLast?_cons] at hboth
      rw [hboth, hchunks, List.getLast?_cons]
      rfl
    intro c hc
    exact subset_of_mem_chunkFrom hmax tok _ (List.mem_of_getLast? hlast.symm) hc

def wordInk (max : Nat) (word : List Char) : List (Char ⊕ List Char) :=
  if visibleLength word > max then (chunkFrom max max word).flatMap ink else ink word

theorem addToken_word {max : Nat} (hmax : 0 < max) {state : WrapState} (h : Fits max state)
    (hboundary : AtBoundary state.cur) {word : List Char} (hword : ∀ c ∈ word, isBlank c = false) :
    Fits max (addToken max state word) ∧
      (addToken max state word).ink = state.ink ++ wordInk max word := by
  unfold addToken wordInk
  dsimp only
  by_cases hfits : state.curVL + visibleLength word ≤ max
  · have hshort : ¬ visibleLength word > max := by omega
    rw [if_pos hfits, if_neg hshort]
    refine ⟨⟨h.lines_le, ?_, hfits⟩, ?_⟩
    · rw [visibleLength_append hboundary]
      exact Nat.add_le_add_right h.cur_le _
    · unfold WrapState.ink
      rw [ink_append hboundary, List.append_assoc]
  · rw [if_neg hfits]
    have hended : (if state.cur.length > 0 then
        state.lines ++ [state.cur.rdropWhile isBlank] else state.lines) = state.ended := rfl
    rw [hended]
    by_cases hlong : visibleLength word > max
    · rw [if_pos hlong, if_pos hlong]
      obtain ⟨hfit, hink, -⟩ := foldl_cutStep_lines hmax word state.ended (ended_le h)
      rw [ink_ended] at hink
      exact ⟨hfit, hink⟩
    · have hblank : ¬ (!word.isEmpty && word.all isBlank) = true := by
        cases word with
        | nil => simp
        | cons c word => simp [hword c List.mem_cons_self]
      rw [if_neg hlong, if_neg hlong, if_neg hblank]
      refine ⟨⟨ended_le h, le_rfl, Nat.le_of_not_lt hlong⟩, ?_⟩
      unfold WrapState.ink
      rw [ink_ended]
      rfl

theorem atBoundary_append_blanks {blanks : List Char} (hblanks : ∀ c ∈ blanks, isBlank c = true)
    {cur : List Char} (h : blanks = [] → AtBoundary cur) : AtBoundary (cur ++ blanks) := by
  cases hlast : blanks.getLast? with
  | none =>
    have hnil := List.getLast?_eq_none_iff.mp hlast
    rw [hnil, List.append_nil]
    exact h hnil
  | some b =>
    have hb := hblanks b (List.mem_of_getLast? hlast)
    obtain ⟨front, rfl⟩ := List.getLast?_eq_some_iff.mp hlast
    exact .inr ⟨cur ++ front, b, hb, by rw [List.append_assoc]⟩

theorem addToken_blanks {max : Nat} (hmax : 0 < max) {state : WrapState} (h : Fits max state)
    {blanks : List Char} (hne : blanks ≠ []) (hblanks : ∀ c ∈ blanks, isBlank c = true) :
    Fits max (addToken max state blanks) ∧ (addToken max state blanks).ink = state.ink ∧
      AtBoundary (addToken max state blanks).cur := by
  have hlength : visibleLength blanks = blanks.length := by
    have happend := visibleLength_append_blanks hblanks []
    rw [List.nil_append] at happend
    rw [happend]
    exact Nat.zero_add _
  unfold addToken
  dsimp only
  rw [hlength]
  by_cases hfits : state.curVL + blanks.length ≤ max
  · rw [if_pos hfits]
    refine ⟨⟨h.lines_le, ?_, hfits⟩, ?_, ?_⟩
    · rw [visibleLength_append_blanks hblanks]
      exact Nat.add_le_add_right h.cur_le _
    · unfold WrapState.ink
      rw [ink_append_blanks hblanks]
    · exact atBoundary_append_blanks hblanks fun hnil => absurd hnil hne
  · rw [if_neg hfits]
    have hended : (if state.cur.length > 0 then
        state.lines ++ [state.cur.rdropWhile isBlank] else state.lines) = state.ended := rfl
    rw [hended]
    by_cases hlong : blanks.length > max
    · rw [if_pos hlong]
      obtain ⟨hfit, hink, hcur⟩ := foldl_cutStep_lines hmax blanks state.ended (ended_le h)
      refine ⟨hfit, ?_, ?_⟩
      · have hnone : (chunkFrom max max blanks).flatMap ink = [] := by
          rw [List.flatMap_eq_nil_iff]
          intro chunk hchunk
          exact ink_blanks fun c hc =>
            hblanks c (subset_of_mem_chunkFrom hmax blanks chunk hchunk hc)
        rw [hink, hnone, ink_ended, List.append_nil]
      · have hnil : AtBoundary ([] : List Char) := .inl rfl
        have hboundary := atBoundary_append_blanks (fun c hc => hblanks c (hcur c hc)) fun _ => hnil
        exact hboundary
    · have hblank : (!blanks.isEmpty && blanks.all isBlank) = true := by
        rw [List.all_eq_true.mpr hblanks]
        simp [hne]
      rw [if_neg hlong, if_pos hblank]
      refine ⟨⟨ended_le h, Nat.zero_le _, Nat.zero_le _⟩, ?_, .inl rfl⟩
      unfold WrapState.ink
      rw [ink_ended]
      exact List.append_nil _

/-! ### Texts -/

def words (text : List Char) : List (List Char) :=
  (splitBlanks text).1 :: (splitBlanks text).2.map (·.2)

structure Separated (part : List Char × List Char) : Prop where
  ne : part.1 ≠ []
  blanks : ∀ c ∈ part.1, isBlank c = true
  word : ∀ c ∈ part.2, isBlank c = false

theorem splitBlanks_spec (text : List Char) :
    text = (splitBlanks text).1 ++ (splitBlanks text).2.flatMap (fun part => part.1 ++ part.2) ∧
      (∀ c ∈ (splitBlanks text).1, isBlank c = false) ∧
      ∀ part ∈ (splitBlanks text).2, Separated part := by
  induction text with
  | nil => simp [splitBlanks]
  | cons c text ih =>
    obtain ⟨htext, hword, hrest⟩ := ih
    unfold splitBlanks
    dsimp only
    by_cases hc : isBlank c = true
    · rw [if_pos hc]
      split
      · rename_i blanks next more hfirst hsecond
        rw [hfirst, hsecond] at htext
        rw [hsecond, List.forall_mem_cons] at hrest
        refine ⟨?_, by simp, List.forall_mem_cons.mpr ⟨⟨by simp, ?_, hrest.1.word⟩, hrest.2⟩⟩
        · conv_lhs => rw [htext]
          simp
        · exact List.forall_mem_cons.mpr ⟨hc, hrest.1.blanks⟩
      · refine ⟨?_, by simp, List.forall_mem_cons.mpr ⟨⟨by simp, by simp [hc], hword⟩, hrest⟩⟩
        conv_lhs => rw [htext]
        simp
    · rw [if_neg hc]
      refine ⟨?_, ?_, hrest⟩
      · conv_lhs => rw [htext]
        simp
      · exact List.forall_mem_cons.mpr ⟨by simpa using hc, hword⟩

theorem ink_parts (rest : List (List Char × List Char)) (hrest : ∀ part ∈ rest, Separated part)
    (word : List Char) :
    ink (word ++ rest.flatMap fun part => part.1 ++ part.2) =
      ink word ++ rest.flatMap fun part => ink part.2 := by
  induction rest generalizing word with
  | nil => simp
  | cons part rest ih =>
    rw [List.forall_mem_cons] at hrest
    have hsplit := scan_separators (fun c hc => separates_blank (hrest.1.blanks c hc)) hrest.1.ne
      word (part.2 ++ rest.flatMap fun part => part.1 ++ part.2)
    have hnone : (part.1.map .inl : List (Char ⊕ List Char)).filter isInk = [] := by
      rw [List.filter_eq_nil_iff]
      intro piece hpiece
      obtain ⟨c, hc, rfl⟩ := List.mem_map.mp hpiece
      simp [isInk, hrest.1.blanks c hc]
    have hmore := ih hrest.2 part.2
    unfold ink at hmore ⊢
    rw [List.flatMap_cons, List.flatMap_cons, List.append_assoc, ← List.append_assoc word, hsplit,
      List.filter_append, List.filter_append, hnone, hmore, List.append_nil]

theorem ink_text (text : List Char) : ink text = (words text).flatMap ink := by
  obtain ⟨htext, -, hrest⟩ := splitBlanks_spec text
  unfold words
  rw [List.flatMap_cons, List.flatMap_map, ← ink_parts _ hrest, ← htext]

theorem foldl_addToken {max : Nat} (hmax : 0 < max) (rest : List (List Char × List Char))
    (hrest : ∀ part ∈ rest, Separated part) (state : WrapState) (h : Fits max state) :
    Fits max ((rest.flatMap fun part => [part.1, part.2]).foldl (addToken max) state) ∧
      ((rest.flatMap fun part => [part.1, part.2]).foldl (addToken max) state).ink =
        state.ink ++ rest.flatMap fun part => wordInk max part.2 := by
  induction rest generalizing state with
  | nil => simpa using h
  | cons part rest ih =>
    rw [List.forall_mem_cons] at hrest
    obtain ⟨hfits, hink, hboundary⟩ := addToken_blanks hmax h hrest.1.ne hrest.1.blanks
    obtain ⟨hfits', hink'⟩ := addToken_word hmax hfits hboundary hrest.1.word
    obtain ⟨hall, hallInk⟩ := ih hrest.2 _ hfits'
    rw [List.flatMap_cons, List.foldl_append, List.flatMap_cons]
    refine ⟨hall, ?_⟩
    rw [← List.append_assoc, ← hink, ← hink']
    exact hallInk

theorem run_tokens {max : Nat} (hmax : 0 < max) (text : List Char) :
    Fits max ((tokens text).foldl (addToken max) {}) ∧
      ((tokens text).foldl (addToken max) {}).ink = (words text).flatMap (wordInk max) := by
  obtain ⟨-, hword, hrest⟩ := splitBlanks_spec text
  have hstart : Fits max {} :=
    { lines_le := by simp
      cur_le := le_rfl
      vl_le := Nat.zero_le _ }
  obtain ⟨hfits, hink⟩ := addToken_word hmax hstart (.inl rfl) hword
  obtain ⟨hall, hallInk⟩ := foldl_addToken hmax _ hrest _ hfits
  unfold words
  rw [List.flatMap_cons, List.flatMap_map]
  rw [hink] at hallInk
  exact ⟨hall, hallInk⟩

theorem wrapText_run {width : Nat} (hwidth : 0 < width) (text : List Char) :
    (∀ line ∈ wrapText text width, visibleLength line ≤ width) ∧
      (wrapText text width).flatMap ink = (words text).flatMap (wordInk width) := by
  obtain ⟨hfits, hink⟩ := run_tokens hwidth text
  have hmax : (if width = 0 then 20 else width) = width := if_neg hwidth.ne'
  unfold wrapText
  dsimp only
  rw [hmax]
  generalize (tokens text).foldl (addToken width) {} = state at hfits hink ⊢
  have hlines : (∀ line ∈ if state.cur.length > 0 then state.lines ++ [state.cur] else state.lines,
        visibleLength line ≤ width) ∧
      (if state.cur.length > 0 then state.lines ++ [state.cur] else state.lines).flatMap ink =
        (words text).flatMap (wordInk width) := by
    rw [← hink]
    unfold WrapState.ink
    split
    · constructor
      · intro line hline
        rcases List.mem_append.mp hline with hline | hline
        · exact hfits.lines_le line hline
        · rw [List.mem_singleton.mp hline]
          exact hfits.cur_le.trans hfits.vl_le
      · rw [List.flatMap_append, List.flatMap_singleton]
    · have hnil : state.cur = [] := by
        rw [← List.length_eq_zero_iff]
        omega
      rw [hnil, show SectionText.ink [] = [] from rfl, List.append_nil]
      exact ⟨hfits.lines_le, rfl⟩
  generalize (if state.cur.length > 0 then state.lines ++ [state.cur] else state.lines) = lines
    at hlines ⊢
  split
  · -- A text without lines has one that is empty.
    rename_i hempty
    rw [List.isEmpty_iff.mp hempty] at hlines
    rw [← hlines.2]
    exact ⟨by simp [visibleLength], rfl⟩
  · exact hlines

/-! ### What is kept -/

/-- No sequence of the word is cut, when the word is. -/
def uncut (width : Nat) (word : List Char) : Bool := uncutFrom width 0 (scan csi word)

theorem wordInk_spec {width : Nat} (hwidth : 0 < width) {word : List Char}
    (hword : ∀ c ∈ word, isBlank c = false) :
    (wordInk width word = ink word ∧ (visibleLength word > width → uncut width word = true)) ∨
      (sequences (wordInk width word) < sequences (ink word) ∧ visibleLength word > width ∧
        uncut width word = false) := by
  unfold wordInk
  by_cases hlong : visibleLength word > width
  · rw [if_pos hlong]
    have hchunks : (chunkFrom width width word).flatMap ink =
        (chunkFrom width width word).flatMap (scan csi) :=
      List.flatMap_congr fun chunk hchunk => ink_word fun c hc =>
        hword c (subset_of_mem_chunkFrom hwidth word chunk hchunk hc)
    obtain ⟨hkeep, hlose⟩ := scan_chunks hwidth word
    rw [hchunks, ink_word hword]
    cases hcut : uncut width word with
    | true => exact .inl ⟨hkeep hcut, fun _ => rfl⟩
    | false => exact .inr ⟨hlose hcut, hlong, rfl⟩
  · rw [if_neg hlong]
    exact .inl ⟨rfl, fun h => absurd h hlong⟩

theorem wordsInk_spec {width : Nat} (hwidth : 0 < width) (all : List (List Char))
    (hall : ∀ word ∈ all, ∀ c ∈ word, isBlank c = false) :
    (all.flatMap (wordInk width) = all.flatMap ink ∧
        ∀ word ∈ all, visibleLength word > width → uncut width word = true) ∨
      (sequences (all.flatMap (wordInk width)) < sequences (all.flatMap ink) ∧
        ¬ ∀ word ∈ all, visibleLength word > width → uncut width word = true) := by
  induction all with
  | nil => simp
  | cons word all ih =>
    rw [List.forall_mem_cons] at hall
    simp only [List.flatMap_cons, List.forall_mem_cons, sequences_append]
    rcases wordInk_spec hwidth hall.1 with ⟨hink, huncut⟩ | ⟨hfewer, hlong, hcut⟩ <;>
      rcases ih hall.2 with ⟨hinks, huncuts⟩ | ⟨hfewers, hcuts⟩
    · exact .inl ⟨by rw [hink, hinks], huncut, huncuts⟩
    · exact .inr ⟨by rw [hink]; omega, fun h => hcuts h.2⟩
    · refine .inr ⟨by rw [hinks]; omega, fun h => ?_⟩
      rw [h.1 hlong] at hcut
      cases hcut
    · exact .inr ⟨by omega, fun h => hcuts h.2⟩

/-- No line is wider than it may be, and the lines have the characters and the sequences of the
text. -/
def Keeps (text : List Char) (width : Nat) : Prop :=
  (∀ line ∈ wrapText text width, visibleLength line ≤ width) ∧
    (wrapText text width).flatMap ink = ink text

/-- `wrapText` keeps everything if and only if no sequence is cut in the words that are too long for
a line. -/
theorem wrapText_keeps_iff (text : List Char) (width : Nat) (hwidth : 1 ≤ width) :
    Keeps text width ↔
      ∀ word ∈ words text, visibleLength word > width → uncut width word = true := by
  obtain ⟨hfits, hlines⟩ := wrapText_run hwidth text
  obtain ⟨-, hword, hrest⟩ := splitBlanks_spec text
  have hplain : ∀ word ∈ words text, ∀ c ∈ word, isBlank c = false := by
    unfold words
    rw [List.forall_mem_cons, List.forall_mem_map]
    exact ⟨hword, fun part hpart => (hrest part hpart).word⟩
  unfold Keeps
  rw [hlines, ink_text]
  rcases wordsInk_spec hwidth (words text) hplain with ⟨hsame, huncut⟩ | ⟨hfewer, hcut⟩
  · exact iff_of_true ⟨hfits, hsame⟩ huncut
  · refine iff_of_false (fun h => ?_) hcut
    rw [h.2] at hfewer
    exact absurd hfewer (lt_irrefl _)

def redWord : List Char := "\x1b[31mabcd\x1b[39m".toList

theorem redWord_is_cut : ¬ ∀ text width, 1 ≤ width → Keeps text width := by
  intro h
  have hkeeps := (h redWord 3 (by decide)).2
  revert hkeeps
  decide +kernel

/-- A line is wide enough for a short word in red. -/
theorem redWord_is_kept : Keeps redWord 4 :=
  (wrapText_keeps_iff redWord 4 (by decide)).mpr (by decide +kernel)

end ArchLoop.SectionText
