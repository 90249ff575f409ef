import Mathlib.Data.List.Infix

/-!
# `ArchLoop.Lib.Search`: the first occurrence of a pattern

`cut` takes a text apart at the first occurrence of a pattern, as `indexOf` and `slice` do together.
`cut_eq_some_iff` and `cut_eq_none_iff` say what it finds, so that no proof unfolds it again.

`ReadsLast` is the scan for the last block between an opening and a closing pattern: each opening
pattern is paired with the next closing one, and the scan goes on behind it. `readsLast_of_blocks`
says when a given block is the one that it finds. For patterns that share a first element and have
it nowhere else, `blocks_of_readsLast` says that there is no other way.
-/

set_option autoImplicit false

namespace ArchLoop.Lib.Search

variable {α : Type}

/-- What stands before the first occurrence of the pattern, and what stands behind it. -/
def cut [DecidableEq α] (pattern : List α) : List α → Option (List α × List α)
  | [] => none
  | c :: text =>
    if pattern.isPrefixOf (c :: text) then some ([], (c :: text).drop pattern.length)
    else (cut pattern text).map fun found => (c :: found.1, found.2)

/-- Behind `front`, the pattern occurs for the first time. -/
def First (pattern front : List α) : Prop :=
  ∀ a b, front ++ pattern = a ++ pattern ++ b → b = []

section Cut

variable {pattern text front : List α} {c : α}

theorem first_nil (pattern : List α) : First pattern [] := by
  intro a b h
  have hlength := congrArg List.length h
  simp only [List.length_append, List.length_nil] at hlength
  exact List.eq_nil_of_length_eq_zero (by omega)

theorem First.not_prefix (h : First pattern (c :: front)) (rest : List α) :
    ¬pattern <+: c :: (front ++ pattern ++ rest) := by
  intro hprefix
  have hshort : pattern <+: c :: front ++ pattern := by
    refine List.prefix_of_prefix_length_le hprefix ⟨rest, ?_⟩ ?_
    · simp
    · simp only [List.cons_append, List.length_cons, List.length_append]
      omega
  obtain ⟨b, hb⟩ := hshort
  have hnil : b = [] := h [] b (by simpa using hb.symm)
  have hlength := congrArg List.length hb
  rw [hnil] at hlength
  simp only [List.append_nil, List.cons_append, List.length_cons, List.length_append] at hlength
  omega

theorem First.tail (h : First pattern (c :: front)) : First pattern front := by
  intro a b heq
  exact h (c :: a) b (by simp [heq])

theorem first_cons (hnot : ¬pattern <+: c :: (front ++ pattern)) (h : First pattern front) :
    First pattern (c :: front) := by
  intro a b heq
  cases a with
  | nil => exact absurd ⟨b, by simpa using heq.symm⟩ hnot
  | cons d a =>
    simp only [List.cons_append, List.cons.injEq] at heq
    exact h a b heq.2

theorem cut_eq_some_iff [DecidableEq α] (hpattern : pattern ≠ []) {rest : List α} :
    cut pattern text = some (front, rest) ↔
      text = front ++ pattern ++ rest ∧ First pattern front := by
  induction text generalizing front with
  | nil => simp [cut, hpattern]
  | cons c text ih =>
    rw [cut]
    by_cases hprefix : pattern <+: c :: text
    · rw [if_pos (by simpa using hprefix)]
      constructor
      · intro h
        cases h
        refine ⟨?_, first_nil pattern⟩
        obtain ⟨b, hb⟩ := hprefix
        simp [← hb]
      · rintro ⟨heq, hfirst⟩
        cases front with
        | nil => simp [heq]
        | cons d front =>
          simp only [List.cons_append, List.cons.injEq] at heq
          obtain ⟨rfl, rfl⟩ := heq
          exact absurd hprefix (hfirst.not_prefix rest)
    · rw [if_neg (by simpa using hprefix)]
      constructor
      · intro h
        obtain ⟨found, hfound, heq⟩ := Option.map_eq_some_iff.mp h
        cases heq
        obtain ⟨rfl, hfirst⟩ := ih.mp hfound
        refine ⟨by simp, first_cons (fun hno => hprefix ?_) hfirst⟩
        obtain ⟨b, hb⟩ := hno
        exact ⟨b ++ found.2, by rw [← List.append_assoc, hb]; simp⟩
      · rintro ⟨heq, hfirst⟩
        cases front with
        | nil => exact absurd ⟨rest, by simpa using heq.symm⟩ hprefix
        | cons d front =>
          simp only [List.cons_append, List.cons.injEq] at heq
          obtain ⟨rfl, rfl⟩ := heq
          rw [ih.mpr ⟨rfl, hfirst.tail⟩]
          rfl

theorem cut_eq_none_iff [DecidableEq α] (hpattern : pattern ≠ []) :
    cut pattern text = none ↔ ¬pattern <:+: text := by
  induction text with
  | nil => simp [cut, hpattern]
  | cons c text ih =>
    rw [cut, List.infix_cons_iff]
    by_cases hhere : pattern <+: c :: text
    · simp [hhere]
    · simp [hhere, ih]

theorem exists_first (hpattern : pattern ≠ []) (h : pattern <:+: text) :
    ∃ front rest, text = front ++ pattern ++ rest ∧ First pattern front := by
  classical
  cases hcut : cut pattern text with
  | none => exact absurd h ((cut_eq_none_iff hpattern).mp hcut)
  | some found => exact ⟨found.1, found.2, (cut_eq_some_iff hpattern).mp hcut⟩

theorem First.length_le {rest a b : List α} (h : First pattern front)
    (heq : front ++ pattern ++ rest = a ++ pattern ++ b) : front.length ≤ a.length := by
  by_contra hlt
  have hprefix : a ++ pattern <+: front ++ pattern := by
    refine List.prefix_of_prefix_length_le ⟨b, heq.symm⟩ ⟨rest, rfl⟩ ?_
    simp only [List.length_append]
    omega
  obtain ⟨c, hc⟩ := hprefix
  have hnil := h a c hc.symm
  have hlength := congrArg List.length hc
  rw [hnil] at hlength
  simp only [List.append_nil, List.length_append] at hlength
  omega

end Cut

/-! ### Patterns that do not overlap -/

/-- The pattern starts with the mark and has it nowhere else. -/
def StartsWith (mark : α) (pattern : List α) : Prop :=
  ∃ tail, pattern = mark :: tail ∧ mark ∉ tail

section Marked

variable {mark : α} {p q a b c d : List α}

theorem StartsWith.ne_nil (h : StartsWith mark p) : p ≠ [] := by
  obtain ⟨tail, rfl, -⟩ := h
  simp

theorem StartsWith.apart (hp : StartsWith mark p) (hq : StartsWith mark q)
    (heq : a ++ p ++ b = c ++ q ++ d) (hlt : a.length < c.length) :
    ∃ between, c = a ++ p ++ between ∧ b = between ++ q ++ d := by
  obtain ⟨tail, rfl, htail⟩ := hp
  obtain ⟨other, rfl, -⟩ := hq
  rw [List.append_assoc, List.append_assoc] at heq
  rcases List.append_eq_append_iff.mp heq with ⟨gap, rfl, hgap⟩ | ⟨gap, rfl, -⟩
  · rcases List.append_eq_append_iff.mp hgap with ⟨between, rfl, hb⟩ | ⟨rest, hrest, hb⟩
    · exact ⟨between, by simp, by simpa using hb⟩
    · cases rest with
      | nil => exact ⟨[], by simp [hrest], by simpa using hb.symm⟩
      | cons e rest =>
        -- The second occurrence would start inside the first one.
        simp only [List.cons_append, List.cons.injEq] at hb
        cases gap with
        | nil => simp at hlt
        | cons g gap =>
          simp only [List.cons_append, List.cons.injEq] at hrest
          refine absurd ?_ htail
          rw [hrest.2, ← hb.1]
          simp
  · simp only [List.length_append] at hlt
    omega

theorem StartsWith.first (hp : StartsWith mark p) (h : ¬p <:+: a) : First p a := by
  intro c d heq
  rcases Nat.lt_or_ge c.length a.length with hlt | hge
  · have hswap : c ++ p ++ d = a ++ p ++ [] := by rw [List.append_nil, heq]
    obtain ⟨between, hbetween, -⟩ := hp.apart hp hswap hlt
    exact absurd ⟨c, between, hbetween.symm⟩ h
  · have hlength := congrArg List.length heq
    simp only [List.length_append] at hlength
    exact List.eq_nil_of_length_eq_zero (by omega)

end Marked

/-! ### The last block -/

variable {opening closing text p c s : List α}

/-- Somewhere an opening pattern is followed by a closing one. -/
def HasBlock (opening closing text : List α) : Prop :=
  ∃ a b c, text = a ++ opening ++ b ++ closing ++ c

/-- The scan of the text ends with this content, if it finds any block. -/
inductive ReadsLast (opening closing : List α) : List α → Option (List α) → Prop where
  | done {text : List α} (h : ¬HasBlock opening closing text) :
      ReadsLast opening closing text none
  | block {front content rest : List α} {last : Option (List α)} (hopen : First opening front)
      (hclose : First closing content) (hrest : ReadsLast opening closing rest last) :
      ReadsLast opening closing (front ++ opening ++ content ++ closing ++ rest)
        (some (last.getD content))

/-- Read from the left, each opening pattern has its closing pattern behind it. -/
inductive Paired (opening closing : List α) : List α → Prop where
  | plain {front : List α} (hopen : First opening front) : Paired opening closing front
  | block {front content rest : List α} (hopen : First opening front)
      (hclose : First closing content) (hrest : Paired opening closing rest) :
      Paired opening closing (front ++ opening ++ content ++ closing ++ rest)

theorem First.unique {pattern a b r t : List α} (ha : First pattern a) (hb : First pattern b)
    (heq : a ++ pattern ++ r = b ++ pattern ++ t) : a = b ∧ r = t := by
  have hlength : a.length = b.length :=
    Nat.le_antisymm (ha.length_le heq) (hb.length_le heq.symm)
  rw [List.append_assoc, List.append_assoc] at heq
  obtain ⟨rfl, hrest⟩ := List.append_inj heq hlength
  exact ⟨rfl, List.append_cancel_left hrest⟩

theorem hasBlock_iff {front rest : List α} (hopen : First opening front) :
    HasBlock opening closing (front ++ opening ++ rest) ↔ closing <:+: rest := by
  constructor
  · rintro ⟨a, b, c, heq⟩
    have hlater : front.length ≤ a.length := by
      refine hopen.length_le (heq.trans ?_) (b := b ++ closing ++ c)
      simp
    -- What stands behind the later opening pattern stands behind the first one, too.
    have hsuffix : b ++ closing ++ c <:+ rest := by
      have hbehind : b ++ closing ++ c <:+ front ++ opening ++ rest :=
        ⟨a ++ opening, by rw [heq]; simp⟩
      refine List.suffix_of_suffix_length_le hbehind ⟨front ++ opening, rfl⟩ ?_
      have hlength := congrArg List.length heq
      simp only [List.length_append] at hlength ⊢
      omega
    exact List.IsInfix.trans ⟨b, c, rfl⟩ hsuffix.isInfix
  · rintro ⟨b, c, rfl⟩
    exact ⟨front, b, c, by simp⟩

theorem readsLast_none_iff :
    ReadsLast opening closing text none ↔ ¬HasBlock opening closing text := by
  constructor
  · intro h
    cases h with
    | done h => exact h
  · exact ReadsLast.done

theorem ReadsLast.unique {last other : Option (List α)} (h : ReadsLast opening closing text last)
    (hother : ReadsLast opening closing text other) : last = other := by
  induction h generalizing other with
  | done hnone =>
    cases hother with
    | done _ => rfl
    | block hopen hclose hrest => exact absurd ⟨_, _, _, rfl⟩ hnone
  | @block front content rest last hopen hclose hrest ih =>
    generalize htext : front ++ opening ++ content ++ closing ++ rest = text at hother
    cases hother with
    | done hnone => exact absurd ⟨_, _, _, htext.symm⟩ hnone
    | @block front' content' rest' last' hopen' hclose' hrest' =>
      have hshape : front ++ opening ++ (content ++ closing ++ rest) =
          front' ++ opening ++ (content' ++ closing ++ rest') := by simpa using htext
      obtain ⟨rfl, hbehind⟩ := hopen.unique hopen' hshape
      obtain ⟨rfl, rfl⟩ := hclose.unique hclose' hbehind
      rw [ih hrest']

theorem readsLast_of_blocks (hp : Paired opening closing p) (hclose : First closing c)
    (hs : ¬opening <:+: s) :
    ReadsLast opening closing (p ++ opening ++ c ++ closing ++ s) (some c) := by
  have hnone : ¬HasBlock opening closing s := by
    rintro ⟨a, b, c, rfl⟩
    exact hs ⟨a, b ++ closing ++ c, by simp⟩
  induction hp with
  | plain hopen => exact .block hopen hclose (.done hnone)
  | @block front content rest hopen hcontent hrest ih =>
    have hread := ReadsLast.block hopen hcontent ih
    simpa using hread

theorem blocks_of_readsLast {mark : α} (hopening : StartsWith mark opening)
    (hclosing : StartsWith mark closing) (hdistinct : ∀ r t, closing ++ r ≠ opening ++ t)
    (hcclose : ¬closing <:+: c) (hs : ¬opening <:+: s)
    (h : ReadsLast opening closing (p ++ opening ++ c ++ closing ++ s) (some c)) :
    Paired opening closing p := by
  generalize htext : p ++ opening ++ c ++ closing ++ s = text at h
  generalize hlast : some c = found at h
  induction h generalizing p with
  | done h => cases hlast
  | @block front content rest last hopen hclose hrest ih =>
    have hc : c = last.getD content := Option.some.inj hlast
    have hshape : front ++ opening ++ (content ++ closing ++ rest) =
        p ++ opening ++ (c ++ closing ++ s) := by simpa using htext.symm
    rcases Nat.lt_or_eq_of_le (hopen.length_le hshape) with hlt | heq
    · -- The scan pairs an opening pattern of `p`.
      obtain ⟨p', rfl, hbehind⟩ := hopening.apart hopening hshape hlt
      have hpair : content ++ closing ++ rest = (p' ++ opening ++ c) ++ closing ++ s := by
        rw [hbehind]
        simp
      rcases Nat.lt_trichotomy content.length p'.length with hin | hat | hout
      · -- Its closing pattern is in `p`, too.
        obtain ⟨p'', rfl, hrest'⟩ := hclosing.apart hopening hbehind hin
        have hblock : ReadsLast opening closing rest (some c) := by
          cases last with
          | none =>
            have hnone := readsLast_none_iff.mp hrest
            exact absurd ⟨p'', c, s, by rw [hrest']; simp⟩ hnone
          | some read =>
            rw [hc]
            exact hrest
        have hread : Paired opening closing p'' :=
          ih (by rw [hrest']; simp) (hblock.unique hrest)
        have hblocks := Paired.block hopen hclose hread
        simpa using hblocks
      · have hstart : closing ++ rest = opening ++ (c ++ closing ++ s) := by
          simp only [List.append_assoc] at hbehind
          obtain ⟨-, hstart⟩ := List.append_inj hbehind hat
          simpa using hstart
        exact absurd hstart (hdistinct rest _)
      · obtain ⟨d, rfl, hd⟩ := hopening.apart hclosing hbehind.symm hout
        rcases Nat.lt_or_ge d.length c.length with hshort | hlong
        · obtain ⟨e, rfl, -⟩ := hclosing.apart hclosing hd.symm hshort
          exact absurd ⟨d, e, rfl⟩ hcclose
        · -- The block would be longer than `c`.
          have hsame : d.length ≤ c.length := by
            have hle := hclose.length_le hpair
            simp only [List.length_append] at hle
            omega
          have hrest' : rest = s := by
            simp only [List.append_assoc] at hd
            obtain ⟨-, htail⟩ := List.append_inj hd (Nat.le_antisymm hlong hsame)
            exact (List.append_cancel_left htail).symm
          have hnone : last = none := by
            refine hrest.unique (readsLast_none_iff.mpr ?_)
            rw [hrest']
            rintro ⟨a, b, e, rfl⟩
            exact hs ⟨a, b ++ closing ++ e, by simp⟩
          have hlength := congrArg List.length hc
          rw [hnone] at hlength
          have hne : 0 < opening.length := List.length_pos_iff.mpr hopening.ne_nil
          simp only [Option.getD_none, List.length_append] at hlength
          omega
    · simp only [List.append_assoc] at hshape
      obtain ⟨rfl, -⟩ := List.append_inj hshape heq
      exact .plain hopen

end ArchLoop.Lib.Search
