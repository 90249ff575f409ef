import ArchLoop.StructuredOutput
import ArchLoop.TaskNotes

/-!
# `ArchLoop.Proofs.TaggedOutput`: which tagged block is read

The agent ends its output with a block between two tags, and `findLastTagContent` should find that
block, whatever stands before it. There are two copies of the loop. Both pair an opening tag with
the next closing tag and go on behind it, so an opening tag that the agent only mentions takes the
closing tag of the block, and its content then starts in the prose.

`lastBlock_iff` says when the block is found. The scan itself is `ReadsLast` of `Lib.Search`, and
each copy is shown to compute it.
-/

set_option autoImplicit false

namespace ArchLoop.StructuredOutput

open ArchLoop.Lib ArchLoop.Lib.Search

/-! ### Statement -/

def openTag (tag : String) : List Char := ("<" ++ tag ++ ">").toList

def closeTag (tag : String) : List Char := ("</" ++ tag ++ ">").toList

def block (tag content : String) : String := "<" ++ tag ++ ">" ++ content ++ "</" ++ tag ++ ">"

/-- Each opening tag in the text has a closing tag behind it in the text. -/
def ReadsAsBlocks (tag text : String) : Prop := Paired (openTag tag) (closeTag tag) text.toList

/-- The closing tag behind the content is the first one. -/
def ClosesBehind (tag content : String) : Prop := First (closeTag tag) content.toList

/-! ### The two loops -/

section Loops

variable {opening closing : List Char}

theorem cutAt_eq (pattern text : List Char) : TaskNotes.cutAt pattern text = cut pattern text := by
  induction text with
  | nil => rfl
  | cons c text ih => rw [TaskNotes.cutAt, cut, ih]

theorem not_hasBlock_of_cut (hopening : opening ≠ []) (hclosing : closing ≠ []) {text : List Char}
    (h : ∀ front rest, cut opening text = some (front, rest) → cut closing rest = none) :
    ¬HasBlock opening closing text := by
  intro hblock
  have hopen : opening <:+: text := by
    obtain ⟨a, b, c, rfl⟩ := hblock
    exact ⟨a, b ++ closing ++ c, by simp⟩
  obtain ⟨front, rest, rfl, hfirst⟩ := exists_first hopening hopen
  have hcut : cut opening (front ++ opening ++ rest) = some (front, rest) :=
    (cut_eq_some_iff hopening).mpr ⟨rfl, hfirst⟩
  have hnone := (cut_eq_none_iff hclosing).mp (h front rest hcut)
  exact hnone ((hasBlock_iff hfirst).mp hblock)

theorem readsLast_lastContentFrom (hopening : opening ≠ []) (hclosing : closing ≠ []) {turns : Nat}
    {text : List Char} (hturns : text.length < turns) (lastContent : Option (List Char)) :
    ∃ last, ReadsLast opening closing text last ∧
      TaskNotes.lastContentFrom opening closing turns text lastContent = last.or lastContent := by
  induction turns generalizing text lastContent with
  | zero => omega
  | succ turns ih =>
    simp only [TaskNotes.lastContentFrom, cutAt_eq]
    cases hopen : cut opening text with
    | none =>
      refine ⟨none, .done (not_hasBlock_of_cut hopening hclosing fun front rest hno => ?_), rfl⟩
      rw [hopen] at hno
      cases hno
    | some found =>
      cases hclose : cut closing found.2 with
      | none =>
        refine ⟨none, .done (not_hasBlock_of_cut hopening hclosing fun front rest hcut => ?_), ?_⟩
        · rw [hopen] at hcut
          cases hcut
          exact hclose
        · simp [hclose]
      | some inner =>
        obtain ⟨rfl, hfirst⟩ := (cut_eq_some_iff hopening).mp hopen
        obtain ⟨hbehind, hsecond⟩ := (cut_eq_some_iff hclosing).mp hclose
        have hshort : inner.2.length < turns := by
          have hpos : 0 < opening.length := List.length_pos_iff.mpr hopening
          have hlength := congrArg List.length hbehind
          simp only [List.length_append] at hlength hturns
          omega
        obtain ⟨last, hlast, hrun⟩ := ih hshort (some inner.1)
        refine ⟨some (last.getD inner.1), ?_, ?_⟩
        · have hread := ReadsLast.block hfirst hsecond hlast
          rw [hbehind]
          simpa using hread
        · simp only [hclose]
          rw [hrun]
          cases last <;> rfl

theorem readsLast_lastTagContent (hopening : opening ≠ []) (hclosing : closing ≠ []) {turns : Nat}
    {text : List Char} {searchFrom : Nat} (hturns : text.length < turns + searchFrom)
    (hin : searchFrom ≤ text.length) (lastContent : Option (List Char)) :
    ∃ last, ReadsLast opening closing (text.drop searchFrom) last ∧
      lastTagContent opening closing text turns searchFrom lastContent =
        some (last.or lastContent) := by
  induction turns generalizing searchFrom lastContent with
  | zero => omega
  | succ turns ih =>
    simp only [lastTagContent, indexOf]
    cases hopen : cut opening (text.drop searchFrom) with
    | none =>
      refine ⟨none, .done (not_hasBlock_of_cut hopening hclosing fun front rest hno => ?_), rfl⟩
      rw [hopen] at hno
      cases hno
    | some found =>
      obtain ⟨htext, hfirst⟩ := (cut_eq_some_iff hopening).mp hopen
      -- What is searched for the closing tag is what stands behind the opening one.
      have hbehind : text.drop (searchFrom + found.1.length + opening.length) = found.2 := by
        have hdrop := congrArg (List.drop (found.1.length + opening.length)) htext
        rw [List.drop_drop, ← Nat.add_assoc] at hdrop
        rw [hdrop]
        simp
      simp only [Option.map_some, hbehind]
      cases hclose : cut closing found.2 with
      | none =>
        refine ⟨none, .done (not_hasBlock_of_cut hopening hclosing fun front rest hcut => ?_), ?_⟩
        · rw [hopen] at hcut
          cases hcut
          exact hclose
        · simp
      | some inner =>
        obtain ⟨hinner, hsecond⟩ := (cut_eq_some_iff hclosing).mp hclose
        have hlength : text.length - searchFrom = found.1.length + opening.length +
            (inner.1.length + closing.length + inner.2.length) := by
          have hlength := congrArg List.length htext
          rw [hinner] at hlength
          simp only [List.length_append, List.length_drop] at hlength
          omega
        have hpos : 0 < opening.length := List.length_pos_iff.mpr hopening
        have hslice : slice text (searchFrom + found.1.length + opening.length)
            (searchFrom + found.1.length + opening.length + inner.1.length) = inner.1 := by
          rw [slice, hbehind, hinner, Nat.add_sub_cancel_left]
          simp
        have hrest : text.drop (searchFrom + found.1.length + opening.length + inner.1.length +
            closing.length) = inner.2 := by
          rw [Nat.add_assoc _ inner.1.length, ← List.drop_drop, hbehind, hinner]
          simp
        obtain ⟨last, hlast, hrun⟩ := @ih (searchFrom + found.1.length + opening.length +
          inner.1.length + closing.length) (by omega) (by omega) (some inner.1)
        rw [hrest] at hlast
        refine ⟨some (last.getD inner.1), ?_, ?_⟩
        · have hread := ReadsLast.block hfirst hsecond hlast
          rw [htext, hinner]
          simpa using hread
        · simp only [Option.map_some, hslice]
          rw [hrun]
          cases last <;> rfl

end Loops

/-! ### The tags -/

section Tags

variable (tag : String)

theorem openTag_eq : openTag tag = '<' :: (tag.toList ++ ['>']) := by
  simp [openTag]

theorem closeTag_eq : closeTag tag = '<' :: '/' :: (tag.toList ++ ['>']) := by
  simp [closeTag]

theorem openTag_ne : openTag tag ≠ [] := by
  simp [openTag_eq]

theorem closeTag_ne : closeTag tag ≠ [] := by
  simp [closeTag_eq]

variable {tag}

theorem startsWith_openTag (h : '<' ∉ tag.toList) : StartsWith '<' (openTag tag) :=
  ⟨tag.toList ++ ['>'], openTag_eq tag, by simp [h]⟩

theorem startsWith_closeTag (h : '<' ∉ tag.toList) : StartsWith '<' (closeTag tag) :=
  ⟨'/' :: (tag.toList ++ ['>']), closeTag_eq tag, by simp [h]⟩

theorem tags_differ (r t : List Char) : closeTag tag ++ r ≠ openTag tag ++ t := by
  rw [openTag_eq, closeTag_eq]
  intro h
  have hinner : ('/' :: tag.toList) ++ ('>' :: r) = (tag.toList ++ ['>']) ++ t := by
    simpa using h
  -- With the same length, the two fronts would be the same, and have as many `>`.
  obtain ⟨hfront, -⟩ := List.append_inj hinner (by simp)
  have hcount := congrArg (List.count '>') hfront
  simp at hcount

theorem toList_output (p c s : String) : (p ++ block tag c ++ s).toList =
    p.toList ++ openTag tag ++ c.toList ++ closeTag tag ++ s.toList := by
  simp [block, openTag, closeTag]

theorem readsAsBlocks_plain {text : String} (htag : '<' ∉ tag.toList)
    (h : ¬openTag tag <:+: text.toList) : ReadsAsBlocks tag text :=
  .plain ((startsWith_openTag htag).first h)

theorem readsAsBlocks_block {front content rest : String} (htag : '<' ∉ tag.toList)
    (hfront : ¬openTag tag <:+: front.toList) (hcontent : ¬closeTag tag <:+: content.toList)
    (hrest : ReadsAsBlocks tag rest) : ReadsAsBlocks tag (front ++ block tag content ++ rest) := by
  rw [ReadsAsBlocks, toList_output]
  exact .block ((startsWith_openTag htag).first hfront)
    ((startsWith_closeTag htag).first hcontent) hrest

theorem findLastTagContent_eq (text : String) {turns : Nat} (hturns : text.toList.length < turns) :
    ∃ last, ReadsLast (openTag tag) (closeTag tag) text.toList last ∧
      findLastTagContent turns text tag = some (last.map String.ofList) ∧
      TaskNotes.findLastTagContent text tag = last.map String.ofList := by
  obtain ⟨last, hlast, hrun⟩ := readsLast_lastContentFrom (openTag_ne tag) (closeTag_ne tag)
    (Nat.lt_succ_self text.toList.length) none
  obtain ⟨other, hother, hloop⟩ := readsLast_lastTagContent (openTag_ne tag) (closeTag_ne tag)
    (by omega : text.toList.length < turns + 0) (Nat.zero_le _) none
  rw [List.drop_zero] at hother
  rw [hother.unique hlast, Option.or_none] at hloop
  rw [Option.or_none] at hrun
  refine ⟨last, hlast, ?_, ?_⟩
  · rw [findLastTagContent]
    show Option.map _ (lastTagContent (openTag tag) (closeTag tag) text.toList turns 0 none) = _
    rw [hloop]
    rfl
  · rw [TaskNotes.findLastTagContent]
    show Option.map _ (TaskNotes.lastContentFrom (openTag tag) (closeTag tag) _ _ none) = _
    rw [hrun]

theorem find_eq_some_iff {text c : String} : TaskNotes.findLastTagContent text tag = some c ↔
    ReadsLast (openTag tag) (closeTag tag) text.toList (some c.toList) := by
  obtain ⟨last, hlast, -, hfind⟩ := @findLastTagContent_eq tag text _
    (Nat.lt_succ_self text.toList.length)
  rw [hfind]
  constructor
  · intro h
    obtain ⟨content, rfl, rfl⟩ := Option.map_eq_some_iff.mp h
    simpa using hlast
  · intro h
    rw [hlast.unique h]
    simp

end Tags

/-! ### Result -/

/-- Both copies end on every text and agree. They find nothing just where no opening tag has a
closing tag behind it. They find the last block, with content `c`, when the text before it reads as
blocks; and a tag without `<` leaves no other way. -/
theorem lastBlock_iff (tag : String) :
    (∀ (text : String) (turns : Nat), text.toList.length < turns →
      findLastTagContent turns text tag = some (TaskNotes.findLastTagContent text tag)) ∧
    (∀ text : String, TaskNotes.findLastTagContent text tag = none ↔
      ¬HasBlock (openTag tag) (closeTag tag) text.toList) ∧
    ∀ p c s : String, ¬openTag tag <:+: c.toList → ¬closeTag tag <:+: c.toList →
      ¬openTag tag <:+: s.toList →
        (ReadsAsBlocks tag p → ClosesBehind tag c →
          TaskNotes.findLastTagContent (p ++ block tag c ++ s) tag = some c) ∧
        ('<' ∉ tag.toList →
          (TaskNotes.findLastTagContent (p ++ block tag c ++ s) tag = some c ↔
            ReadsAsBlocks tag p)) := by
  refine ⟨fun text turns hturns => ?_, fun text => ?_, fun p c s hopen hclose hbehind => ?_⟩
  · obtain ⟨last, -, hfind, hother⟩ := @findLastTagContent_eq tag text turns hturns
    rw [hfind, hother]
  · obtain ⟨last, hlast, -, hfind⟩ := @findLastTagContent_eq tag text _
      (Nat.lt_succ_self text.toList.length)
    rw [hfind, Option.map_eq_none_iff, ← readsLast_none_iff]
    constructor
    · rintro rfl
      exact hlast
    · exact hlast.unique
  · have henough : ReadsAsBlocks tag p → ClosesBehind tag c →
        TaskNotes.findLastTagContent (p ++ block tag c ++ s) tag = some c := by
      intro hp hc
      rw [find_eq_some_iff, toList_output]
      exact readsLast_of_blocks hp hc hbehind
    refine ⟨henough, fun htag => ⟨fun hfind => ?_, fun hp => henough hp ?_⟩⟩
    · rw [find_eq_some_iff, toList_output] at hfind
      exact blocks_of_readsLast (startsWith_openTag htag) (startsWith_closeTag htag) tags_differ
        hclose hbehind hfind
    · exact (startsWith_closeTag htag).first hclose

/-- The agent corrects itself, and the second block is read. -/
theorem lastBlock_corrected : TaskNotes.findLastTagContent
    ("" ++ block "result" "2" ++ " No: " ++ block "result" "4" ++ "\n") "result" = some "4" := by
  have hblocks : ReadsAsBlocks "result" ("" ++ block "result" "2" ++ " No: ") :=
    readsAsBlocks_block (by decide) (by decide) (by decide)
      (readsAsBlocks_plain (by decide) (by decide))
  exact ((lastBlock_iff "result").2.2 _ "4" "\n" (by decide) (by decide) (by decide)).2 (by decide)
    |>.mpr hblocks

/-- The agent mentions the opening tag, and the content starts there. -/
theorem mentioned_tag_opens :
    ¬openTag "result" <:+: "4".toList ∧ ¬closeTag "result" <:+: "4".toList ∧
      TaskNotes.findLastTagContent ("The <result> is " ++ block "result" "4" ++ "") "result" =
        some " is <result>4" := by
  decide

end ArchLoop.StructuredOutput
