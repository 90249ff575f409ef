import Mathlib.Tactic.Common

/-!
# `ArchLoop.Lib.Utf8`: octets, decoded with replacement characters

A program that reads a file as text gets a character for each well-formed sequence of octets,
and U+FFFD for each ill-formed one (`decode`). Two files may so read the same. `decode_inj` says
that this takes a replacement character, and `exists_decode_eq` that each of them allows it.
-/

set_option autoImplicit false

namespace ArchLoop.Lib.Utf8

/-- The character that stands for ill-formed octets. -/
def replacement : Char := '\uFFFD'

/-- The octet continues a character. -/
def continues (octet : UInt8) : Bool := 0x80 ≤ octet && octet ≤ 0xBF

/-- The second octet may follow the first one in a character of three or four octets. -/
def opens (first second : UInt8) : Bool :=
  if first = 0xE0 then 0xA0 ≤ second && second ≤ 0xBF
  else if first = 0xED then 0x80 ≤ second && second ≤ 0x9F
  else if first = 0xF0 then 0x90 ≤ second && second ≤ 0xBF
  else if first = 0xF4 then 0x80 ≤ second && second ≤ 0x8F
  else 0xE1 ≤ first && first ≤ 0xF3 && continues second

/-- How many of the octets one replacement character stands for: those that begin a character, as
far as they go. -/
def illFormedLength : List UInt8 → Nat
  | first :: second :: third :: _ =>
    if opens first second then if 0xF0 ≤ first && continues third then 3 else 2 else 1
  | [first, second] => if opens first second then 2 else 1
  | _ => 1

/-- The characters of the octets behind the first ones. -/
def decodeFrom : Nat → List UInt8 → List Char
  | _, [] => []
  | skip + 1, _ :: rest => decodeFrom skip rest
  | 0, first :: rest =>
    match (first :: rest).toByteArray.utf8DecodeChar? 0 with
    | some c => c :: decodeFrom (c.utf8Size - 1) rest
    | none => replacement :: decodeFrom (illFormedLength (first :: rest) - 1) rest

/-- The characters of the octets. -/
def decode (octets : List UInt8) : List Char := decodeFrom 0 octets

example : decode [0x61, 0xC3, 0xA9, 0xFF, 0xE2, 0x82, 0x62] =
    ['a', 'é', replacement, replacement, 'b'] := by
  decide +kernel

@[simp] theorem decode_nil : decode [] = [] := rfl

theorem decodeFrom_eq (skip : Nat) (octets : List UInt8) :
    decodeFrom skip octets = decode (octets.drop skip) := by
  induction skip generalizing octets with
  | zero => rfl
  | succ skip ih =>
    cases octets with
    | nil => rfl
    | cons first rest => exact ih rest

theorem toByteArray_append (a b : List UInt8) :
    (a ++ b).toByteArray = a.toByteArray ++ b.toByteArray := by
  simp

theorem encode_eq_take {octets : List UInt8} {c : Char}
    (h : octets.toByteArray.utf8DecodeChar? 0 = some c) :
    String.utf8EncodeChar c = octets.take c.utf8Size := by
  have hbytes := String.toByteArray_utf8EncodeChar_of_utf8DecodeChar?_eq_some h
  have hlists := congrArg (fun bytes => bytes.data.toList) hbytes
  simpa using hlists

theorem decode_encode_append (c : Char) (octets : List UInt8) :
    decode (String.utf8EncodeChar c ++ octets) = c :: decode octets := by
  have hread : (String.utf8EncodeChar c ++ octets).toByteArray.utf8DecodeChar? 0 = some c := by
    rw [toByteArray_append]
    exact ByteArray.utf8DecodeChar?_utf8EncodeChar_append
  have hlength : (String.utf8EncodeChar c).length = c.utf8Size := String.length_utf8EncodeChar c
  cases hencode : String.utf8EncodeChar c with
  | nil => exact absurd hencode String.utf8EncodeChar_ne_nil
  | cons first tail =>
    rw [hencode] at hread hlength
    rw [List.cons_append] at hread ⊢
    have hdrop : (tail ++ octets).drop (c.utf8Size - 1) = octets := by
      rw [← hlength, List.length_cons, Nat.add_sub_cancel]
      exact List.drop_left
    rw [decode, decodeFrom, hread]
    dsimp only
    rw [decodeFrom_eq, hdrop]

/-- What the octets begin with: a well-formed sequence, or octets that a replacement character
stands for. -/
theorem decode_cases {octets : List UInt8} (hne : octets ≠ []) :
    (∃ c rest, octets = String.utf8EncodeChar c ++ rest) ∨
      ∃ head rest, octets = head ++ rest ∧ head ≠ [] ∧
        decode octets = replacement :: decode rest ∧ head ≠ String.utf8EncodeChar replacement := by
  cases hread : octets.toByteArray.utf8DecodeChar? 0 with
  | some c =>
    have htake := encode_eq_take hread
    exact Or.inl ⟨c, octets.drop c.utf8Size, by rw [htake, List.take_append_drop]⟩
  | none =>
    cases octets with
    | nil => exact absurd rfl hne
    | cons first tail =>
      refine Or.inr ⟨first :: tail.take (illFormedLength (first :: tail) - 1),
        tail.drop (illFormedLength (first :: tail) - 1), ?_, by simp, ?_, ?_⟩
      · rw [List.cons_append, List.take_append_drop]
      · rw [decode, decodeFrom, hread]
        dsimp only
        rw [decodeFrom_eq]
      · -- The sequence of U+FFFD itself is well formed.
        intro hhead
        have hwell : (first :: tail).toByteArray.utf8DecodeChar? 0 = some replacement := by
          have hsplit : first :: tail = String.utf8EncodeChar replacement ++
              tail.drop (illFormedLength (first :: tail) - 1) := by
            rw [← hhead, List.cons_append, List.take_append_drop]
          rw [hsplit, toByteArray_append]
          exact ByteArray.utf8DecodeChar?_utf8EncodeChar_append
        rw [hread] at hwell
        cases hwell

theorem decode_inj {a b : List UInt8} (h : decode a = decode b) (hclean : replacement ∉ decode a) :
    a = b := by
  -- By induction on the text: each of its characters has one well-formed sequence.
  generalize htext : decode a = text at h hclean
  induction text generalizing a b with
  | nil =>
    have hnil : ∀ octets : List UInt8, decode octets = [] → octets = [] := by
      intro octets hempty
      by_contra hne
      rcases decode_cases hne with ⟨c, rest, rfl⟩ | ⟨_, rest, -, -, hdecode, -⟩
      · rw [decode_encode_append] at hempty
        cases hempty
      · rw [hdecode] at hempty
        cases hempty
    rw [hnil a htext, hnil b h.symm]
  | cons c text ih =>
    have hsplit : ∀ octets : List UInt8, decode octets = c :: text →
        ∃ rest, octets = String.utf8EncodeChar c ++ rest ∧ decode rest = text := by
      intro octets hoctets
      have hne : octets ≠ [] := by
        rintro rfl
        cases hoctets
      rcases decode_cases hne with ⟨d, rest, rfl⟩ | ⟨_, rest, -, -, hdecode, -⟩
      · rw [decode_encode_append, List.cons.injEq] at hoctets
        obtain ⟨rfl, hrest⟩ := hoctets
        exact ⟨rest, rfl, hrest⟩
      · rw [hdecode, List.cons.injEq] at hoctets
        obtain ⟨rfl, -⟩ := hoctets
        exact absurd List.mem_cons_self hclean
    obtain ⟨restA, rfl, hA⟩ := hsplit a htext
    obtain ⟨restB, rfl, hB⟩ := hsplit b h.symm
    rw [ih hA hB.symm fun hmem => hclean (List.mem_cons_of_mem _ hmem)]

theorem encode_replacement : String.utf8EncodeChar replacement = [0xEF, 0xBF, 0xBD] := by
  decide

theorem head_encode_ne (c : Char) : (String.utf8EncodeChar c).head? ≠ some 0xFF := by
  intro h
  have hne : ∀ n : Nat, n < 255 → UInt8.ofNat n ≠ 0xFF := by
    intro n hn heq
    have hvalue := congrArg UInt8.toNat heq
    rw [UInt8.toNat_ofNat'] at hvalue
    have h255 : (0xFF : UInt8).toNat = 255 := rfl
    omega
  -- For each length, the first octet leaves a bit unset.
  unfold String.utf8EncodeChar at h
  dsimp only at h
  split at h
  · exact hne _ (by omega) (Option.some.inj h)
  split at h
  · exact hne _ (by omega) (Option.some.inj h)
  split at h
  · exact hne _ (by omega) (Option.some.inj h)
  · exact hne _ (by omega) (Option.some.inj h)

theorem decode_invalid_cons (octets : List UInt8) :
    decode (0xFF :: octets) = replacement :: decode octets := by
  have hread : (0xFF :: octets).toByteArray.utf8DecodeChar? 0 = none := by
    cases hread : (0xFF :: octets).toByteArray.utf8DecodeChar? 0 with
    | none => rfl
    | some c =>
      have htake := encode_eq_take hread
      have hpos := c.utf8Size_pos
      refine absurd ?_ (head_encode_ne c)
      rw [htake]
      cases hsize : c.utf8Size with
      | zero => omega
      | succ n => rfl
  have hopens : ∀ second, opens 0xFF second = false := by simp [opens]
  have hlength : illFormedLength (0xFF :: octets) = 1 := by
    rcases octets with _ | ⟨second, _ | ⟨third, rest⟩⟩ <;> simp [illFormedLength, hopens]
  rw [decode, decodeFrom, hread]
  dsimp only
  rw [hlength]
  rfl

theorem exists_decode_eq {a : List UInt8} (h : replacement ∈ decode a) :
    ∃ b, b ≠ a ∧ decode b = decode a := by
  generalize htext : decode a = text at h
  induction text generalizing a with
  | nil => cases h
  | cons c text ih =>
    have hne : a ≠ [] := by
      rintro rfl
      cases htext
    rcases decode_cases hne with ⟨d, rest, rfl⟩ | ⟨head, rest, rfl, -, hdecode, hhead⟩
    · rw [decode_encode_append, List.cons.injEq] at htext
      obtain ⟨rfl, hrest⟩ := htext
      by_cases hd : d = replacement
      · subst hd
        refine ⟨0xFF :: rest, ?_, by rw [decode_invalid_cons, hrest]⟩
        rw [encode_replacement]
        simp
      · obtain ⟨b, hb, hsame⟩ := ih hrest ((List.mem_cons.mp h).resolve_left fun heq => hd heq.symm)
        refine ⟨String.utf8EncodeChar d ++ b, ?_, ?_⟩
        · intro heq
          exact hb (List.append_cancel_left heq)
        · rw [decode_encode_append, hsame]
    · refine ⟨String.utf8EncodeChar replacement ++ rest, ?_, ?_⟩
      · intro heq
        exact hhead (List.append_cancel_right heq).symm
      · rw [decode_encode_append, ← hdecode, htext]

/-! ### Texts behind octets -/

/-- The octets of a text. -/
def encode (text : List Char) : List UInt8 := text.flatMap String.utf8EncodeChar

theorem decode_encode (text : List Char) : decode (encode text) = text := by
  induction text with
  | nil => rfl
  | cons c text ih => rw [encode, List.flatMap_cons, decode_encode_append, ← encode, ih]

theorem octet_ge {c : Char} (hsize : 1 < c.utf8Size) {octet : UInt8}
    (hmem : octet ∈ String.utf8EncodeChar c) : 0x80 ≤ octet := by
  have hge : ∀ n : Nat, 128 ≤ n → n < 256 → 0x80 ≤ UInt8.ofNat n := by
    intro n hlow hhigh
    rw [UInt8.le_iff_toNat_le, UInt8.toNat_ofNat', Nat.mod_eq_of_lt hhigh]
    exact hlow
  have hlength : (String.utf8EncodeChar c).length = c.utf8Size := String.length_utf8EncodeChar c
  unfold String.utf8EncodeChar at hmem hlength
  dsimp only at hmem hlength
  split at hmem
  · rename_i hshort
    rw [if_pos hshort, List.length_singleton] at hlength
    omega
  split at hmem
  · simp only [List.mem_cons, List.not_mem_nil, or_false] at hmem
    rcases hmem with rfl | rfl <;> exact hge _ (by omega) (by omega)
  split at hmem
  · simp only [List.mem_cons, List.not_mem_nil, or_false] at hmem
    rcases hmem with rfl | rfl | rfl <;> exact hge _ (by omega) (by omega)
  · simp only [List.mem_cons, List.not_mem_nil, or_false] at hmem
    rcases hmem with rfl | rfl | rfl | rfl <;> exact hge _ (by omega) (by omega)

theorem illFormedLength_le {octets : List UInt8} (hne : octets ≠ []) :
    illFormedLength octets ≤ octets.length := by
  rcases octets with _ | ⟨first, _ | ⟨second, _ | ⟨third, more⟩⟩⟩
  · exact absurd rfl hne
  · exact Nat.le_refl 1
  · change (if opens first second then 2 else 1) ≤ 2
    split <;> omega
  · change (if opens first second then if 0xF0 ≤ first && continues third then 3 else 2 else 1) ≤
      more.length + 3
    split
    · split <;> omega
    · omega

section Ascii

variable {ascii : UInt8} (hascii : ascii < 0x80)

include hascii

theorem continues_ascii : continues ascii = false := by
  rw [continues, Bool.and_eq_false_iff]
  exact Or.inl (decide_eq_false (by rw [UInt8.not_le]; exact hascii))

theorem opens_ascii (first : UInt8) : opens first ascii = false := by
  have hlow : ∀ bound : UInt8, 0x80 ≤ bound → (bound ≤ ascii : Bool) = false := by
    intro bound hbound
    refine decide_eq_false ?_
    rw [UInt8.not_le]
    exact UInt8.lt_of_lt_of_le hascii hbound
  simp only [opens, continues_ascii hascii, Bool.and_false, hlow 0xA0 (by decide),
    hlow 0x80 (by decide), hlow 0x90 (by decide), Bool.false_and, ite_self]

theorem illFormedLength_append {octets : List UInt8} (hne : octets ≠ []) (rest : List UInt8) :
    illFormedLength (octets ++ ascii :: rest) = illFormedLength octets := by
  rcases octets with _ | ⟨first, _ | ⟨second, _ | ⟨third, more⟩⟩⟩
  · exact absurd rfl hne
  · cases rest with
    | nil => simp [illFormedLength, opens_ascii hascii]
    | cons next rest => simp [illFormedLength, opens_ascii hascii]
  · simp [illFormedLength, continues_ascii hascii]
  · rfl

theorem read_append {octets : List UInt8} (hne : octets ≠ [])
    (hread : octets.toByteArray.utf8DecodeChar? 0 = none) (rest : List UInt8) :
    (octets ++ ascii :: rest).toByteArray.utf8DecodeChar? 0 = none := by
  cases hlong : (octets ++ ascii :: rest).toByteArray.utf8DecodeChar? 0 with
  | none => rfl
  | some c =>
    have htake := encode_eq_take hlong
    have hpos : 0 < octets.length := List.length_pos_iff.mpr hne
    rcases Nat.lt_or_ge octets.length c.utf8Size with hlonger | hshort
    · -- The character would have the ASCII octet.
      have hmem : ascii ∈ String.utf8EncodeChar c := by
        rw [htake]
        have hindex : (octets ++ ascii :: rest)[octets.length]? = some ascii := by simp
        exact List.mem_of_getElem? ((List.getElem?_take_of_lt hlonger).trans hindex)
      have hge := octet_ge (by omega) hmem
      exact absurd hascii (by rw [UInt8.not_lt]; exact hge)
    · rw [List.take_append_of_le_length hshort] at htake
      have hsplit : octets = String.utf8EncodeChar c ++ octets.drop c.utf8Size := by
        rw [htake, List.take_append_drop]
      rw [hsplit, toByteArray_append] at hread
      rw [ByteArray.utf8DecodeChar?_utf8EncodeChar_append] at hread
      cases hread

theorem decode_append (octets rest : List UInt8) :
    decode (octets ++ ascii :: rest) = decode octets ++ decode (ascii :: rest) := by
  induction hlength : octets.length using Nat.strongRecOn generalizing octets with
  | ind n ih =>
    by_cases hne : octets = []
    · subst hne
      rfl
    cases hread : octets.toByteArray.utf8DecodeChar? 0 with
    | some c =>
      have hpos := c.utf8Size_pos
      have hsplit : octets = String.utf8EncodeChar c ++ octets.drop c.utf8Size := by
        rw [encode_eq_take hread, List.take_append_drop]
      have hlt : (octets.drop c.utf8Size).length < n := by
        have := List.length_pos_iff.mpr hne
        rw [List.length_drop]
        omega
      rw [hsplit, List.append_assoc, decode_encode_append, decode_encode_append,
        ih _ hlt _ rfl, List.cons_append]
    | none =>
      have hlong := read_append hascii hne hread rest
      have hsame := illFormedLength_append hascii hne rest
      have hle := illFormedLength_le hne
      cases octets with
      | nil => exact absurd rfl hne
      | cons first tail =>
        have hlt : (tail.drop (illFormedLength (first :: tail) - 1)).length < n := by
          rw [List.length_drop, ← hlength, List.length_cons]
          omega
        have hdrop : (tail ++ ascii :: rest).drop (illFormedLength (first :: tail) - 1) =
            tail.drop (illFormedLength (first :: tail) - 1) ++ ascii :: rest := by
          rw [List.drop_append_of_le_length]
          rw [List.length_cons] at hle
          omega
        rw [List.cons_append] at hlong hsame ⊢
        rw [decode, decodeFrom, hlong, decode, decodeFrom, hread]
        dsimp only
        rw [hsame, decodeFrom_eq, decodeFrom_eq, hdrop, ih _ hlt _ rfl, List.cons_append]

end Ascii

theorem decode_append_encode (octets : List UInt8) {c : Char} (hc : c.toNat < 0x80)
    (text : List Char) : decode (octets ++ encode (c :: text)) = decode octets ++ c :: text := by
  have hsplit : encode (c :: text) = UInt8.ofNat c.toNat :: encode text := by
    rw [encode, List.flatMap_cons]
    have hone : String.utf8EncodeChar c = [UInt8.ofNat c.toNat] :=
      if_pos (show c.toNat ≤ 127 by omega)
    rw [hone]
    rfl
  have hascii : UInt8.ofNat c.toNat < 0x80 := by
    rw [UInt8.lt_iff_toNat_lt, UInt8.toNat_ofNat', Nat.mod_eq_of_lt (by omega)]
    exact hc
  rw [hsplit, decode_append hascii, ← hsplit, decode_encode]

theorem eq_of_mem_encode {c : Char} {octet : UInt8} (hascii : octet < 0x80)
    (hmem : octet ∈ String.utf8EncodeChar c) : c.toNat = octet.toNat := by
  have hlength : (String.utf8EncodeChar c).length = c.utf8Size := String.length_utf8EncodeChar c
  have hshort : c.utf8Size ≤ 1 := by
    by_contra hlong
    have hge := octet_ge (by omega) hmem
    exact absurd hascii (by rw [UInt8.not_lt]; exact hge)
  have hone : c.toNat ≤ 127 := by
    by_contra hlarge
    have hsize : 1 < (String.utf8EncodeChar c).length := by
      unfold String.utf8EncodeChar
      dsimp only
      rw [if_neg (show ¬c.val.toNat ≤ 127 from hlarge)]
      split
      · exact Nat.le_refl 2
      split
      · exact Nat.le_succ 2
      · exact Nat.le_add_left 2 2
    omega
  have hencode : String.utf8EncodeChar c = [UInt8.ofNat c.toNat] := if_pos hone
  rw [hencode, List.mem_singleton] at hmem
  rw [hmem, UInt8.toNat_ofNat', Nat.mod_eq_of_lt (by omega)]

theorem break_mem_of_decode {octets : List UInt8} (h : '\n' ∈ decode octets) : 0x0A ∈ octets := by
  generalize htext : decode octets = text at h
  induction text generalizing octets with
  | nil => cases h
  | cons c text ih =>
    have hne : octets ≠ [] := by
      rintro rfl
      cases htext
    rcases decode_cases hne with ⟨d, rest, rfl⟩ | ⟨head, rest, rfl, -, hdecode, -⟩
    · rw [decode_encode_append, List.cons.injEq] at htext
      obtain ⟨rfl, hrest⟩ := htext
      rcases List.mem_cons.mp h with rfl | htail
      · exact List.mem_append_left _ (by decide)
      · exact List.mem_append_right _ (ih hrest htail)
    · rw [hdecode, List.cons.injEq] at htext
      obtain ⟨rfl, hrest⟩ := htext
      rcases List.mem_cons.mp h with heq | htail
      · exact absurd heq (by decide)
      · exact List.mem_append_right _ (ih hrest htail)

end ArchLoop.Lib.Utf8
