import ArchLoop.Lib.JsonText
import Mathlib.Data.Int.Log
import Mathlib.Data.Rat.Floor

/-!
# `ArchLoop.Lib.Double`: the number that a JSON number is read as

`JSON.parse` rounds a decimal number to the nearest number with 53 significant bits, the even one
of two (`ofRat`). A number that is too large becomes infinite, which is none here. `JSON.stringify`
writes the fewest digits that are read as the number (`toText`). Whole numbers below `2 ^ 53` are
written with all their digits and come back as they are (`double?_ofInt`).
-/

set_option autoImplicit false

namespace ArchLoop.Lib.Double

open ArchLoop.Lib.JsonText

/-! ### Rounding -/

/-- The nearest whole number, and of two the even one. -/
def roundEven (q : ℚ) : ℤ :=
  let rest := q - ⌊q⌋
  if rest < 1 / 2 then ⌊q⌋
  else if 1 / 2 < rest then ⌊q⌋ + 1
  else if ⌊q⌋ % 2 = 0 then ⌊q⌋ else ⌊q⌋ + 1

/-- The exponent of the last significant bit of a number. -/
def lastBit (q : ℚ) : ℤ := max (Int.log 2 |q| - 52) (-1074)

/-- The nearest number in double precision, if it is finite. -/
def ofRat (q : ℚ) : Option ℚ :=
  let rounded := (roundEven (q / 2 ^ lastBit q) : ℚ) * 2 ^ lastBit q
  if |rounded| < 2 ^ (1024 : ℤ) then some rounded else none

theorem roundEven_int (n : ℤ) : roundEven n = n := by
  have hhalf : (0 : ℚ) < 1 / 2 := by norm_num
  unfold roundEven
  rw [Int.floor_intCast, sub_self]
  exact if_pos hhalf

theorem ofRat_natCast {n : Nat} (h : n < 2 ^ 53) : ofRat n = some n := by
  have habs : |(n : ℚ)| = n := abs_of_nonneg n.cast_nonneg
  -- The last bit of such a number is not behind the point.
  have hlast : lastBit n ≤ 0 := by
    unfold lastBit
    rw [habs]
    rcases Nat.eq_zero_or_pos n with rfl | hpos
    · simp
    · have hpos' : (0 : ℚ) < n := Nat.cast_pos.mpr hpos
      have hlt : Int.log 2 (n : ℚ) < 53 := by
        rw [← Int.lt_zpow_iff_log_lt one_lt_two hpos']
        exact_mod_cast h
      omega
  obtain ⟨k, hk⟩ := Int.eq_ofNat_of_zero_le (a := -lastBit n) (by omega)
  have hbit : lastBit n = -(k : ℤ) := by omega
  have hscale : (n : ℚ) / 2 ^ lastBit n = ((n * 2 ^ k : ℤ) : ℚ) := by
    rw [hbit, zpow_neg, div_inv_eq_mul, zpow_natCast]
    push_cast
    rfl
  have hrounded : (roundEven ((n : ℚ) / 2 ^ lastBit n) : ℚ) * 2 ^ lastBit n = n := by
    rw [hscale, roundEven_int, ← hscale]
    exact div_mul_cancel₀ _ (zpow_ne_zero _ two_ne_zero)
  have hfinite : |(n : ℚ)| < 2 ^ (1024 : ℤ) := by
    rw [habs]
    have hlt : (n : ℚ) < 2 ^ (53 : ℤ) := by exact_mod_cast h
    exact hlt.trans (zpow_lt_zpow_right₀ one_lt_two (by norm_num))
  unfold ofRat
  rw [hrounded]
  exact if_pos hfinite

/-! ### Decimal numbers -/

/-- The number of the digits, and zero for none. -/
def digitsValue (digits : List Char) : ℤ := (ofDigits digits).getD 0

/-- The number of the digits behind a sign. -/
def signedValue : List Char → ℤ
  | '-' :: digits => -digitsValue digits
  | '+' :: digits => digitsValue digits
  | digits => digitsValue digits

/-- The number without its sign: the digits, and the power of ten behind them. -/
def magnitude (body : List Char) : ℚ :=
  let isExponent := fun c => c == 'e' || c == 'E'
  let mantissa := body.takeWhile fun c => !isExponent c
  let exponent := (body.dropWhile fun c => !isExponent c).drop 1
  let whole := mantissa.takeWhile (· != '.')
  let fraction := (mantissa.dropWhile (· != '.')).drop 1
  (digitsValue (whole ++ fraction) : ℚ) * 10 ^ (signedValue exponent - fraction.length)

/-- The number that a JSON number writes. -/
def decimalValue : List Char → ℚ
  | '-' :: body => -magnitude body
  | body => magnitude body

/-- The number that a value is read as, if it is a finite number. -/
def double? : Value → Option ℚ
  | .number written => ofRat (decimalValue written)
  | _ => none

/-- The whole number that a value is read as: `Number.isInteger`. -/
def integer? (value : Value) : Option ℤ :=
  (double? value).bind fun q => if q.den = 1 then some q.num else none

/-! ### Whole numbers -/

theorem magnitude_of_digits {digits : List Char} (h : ∀ c ∈ digits, c.isDigit = true) :
    magnitude digits = digitsValue digits := by
  have hplain : ∀ c ∈ digits, c ≠ 'e' ∧ c ≠ 'E' ∧ c ≠ '.' := by
    intro c hc
    refine ⟨?_, ?_, ?_⟩ <;> rintro rfl <;> exact absurd (h _ hc) (by decide)
  have hmantissa : (digits.takeWhile fun c => !(c == 'e' || c == 'E')) = digits := by
    rw [List.takeWhile_eq_self_iff]
    intro c hc
    simp [hplain c hc]
  have hexponent : (digits.dropWhile fun c => !(c == 'e' || c == 'E')) = [] := by
    rw [List.dropWhile_eq_nil_iff]
    intro c hc
    simp [hplain c hc]
  have hwhole : digits.takeWhile (· != '.') = digits := by
    rw [List.takeWhile_eq_self_iff]
    intro c hc
    simp [hplain c hc]
  have hfraction : digits.dropWhile (· != '.') = [] := by
    rw [List.dropWhile_eq_nil_iff]
    intro c hc
    simp [hplain c hc]
  unfold magnitude
  simp only [hmantissa, hexponent, hwhole, hfraction]
  simp [signedValue, digitsValue, ofDigits]

theorem double?_ofInt {n : Nat} (h : n < 2 ^ 53) : double? (.ofInt n) = some (n : ℚ) := by
  have hlist : decimal n = decimalDigits (n + 1) n := by
    unfold decimal
    simp
  have hdigits : ∀ c ∈ decimalDigits (n + 1) n, c.isDigit = true :=
    fun c hc => (mem_decimalDigits hc).1
  have hvalue : decimalValue (decimal n) = (n : ℚ) := by
    have hbody : decimalValue (decimalDigits (n + 1) n) =
        magnitude (decimalDigits (n + 1) n) := by
      cases hcase : decimalDigits (n + 1) n with
      | nil => rfl
      | cons c rest =>
        have hsign : c ≠ '-' := (mem_decimalDigits (hcase ▸ List.mem_cons_self)).2.1
        unfold decimalValue
        split
        · rename_i heq
          cases heq
          exact absurd rfl hsign
        · rfl
    have hread : digitsValue (decimalDigits (n + 1) n) = n := by
      unfold digitsValue ofDigits
      rw [if_pos ⟨decimalDigits_ne _ _, List.all_eq_true.mpr hdigits⟩,
        foldl_decimalDigits (by omega)]
      rfl
    rw [hlist, hbody, magnitude_of_digits hdigits, hread]
    exact Int.cast_natCast n
  show ofRat (decimalValue (decimal n)) = some (n : ℚ)
  rw [hvalue]
  exact ofRat_natCast h

theorem integer?_ofInt {n : Nat} (h : n < 2 ^ 53) : integer? (.ofInt n) = some (n : ℤ) := by
  unfold integer?
  rw [double?_ofInt h]
  rfl

/-! ### Printing -/

/-- The multiple of `10 ^ unit` that is read as the number, the nearest one first. -/
def multipleOf (q : ℚ) (unit : ℤ) : Option ℤ :=
  let scaled := q / 10 ^ unit
  let nearest := roundEven scaled
  let other := if nearest = ⌊scaled⌋ then ⌊scaled⌋ + 1 else ⌊scaled⌋
  [nearest, other].find? fun n => ofRat (n * 10 ^ unit) = some q

/-- The fewest digits that are read as a positive number, and how many of them stand before the
point. Seventeen digits always suffice. -/
def shortest (q : ℚ) : List Char × ℤ :=
  let places := Int.log 10 q + 1
  let found := (List.range 17).findSome? fun k =>
    (multipleOf q (places - k - 1)).map fun n =>
      ((decimal n).rdropWhile (· == '0'), (decimal n).length + (places - k - 1))
  found.getD ([], 0)

/-- `Number::toString` of a positive number. -/
def positiveText (q : ℚ) : List Char :=
  let (digits, point) := shortest q
  if digits.length ≤ point ∧ point ≤ 21 then
    digits ++ List.replicate (point - digits.length).toNat '0'
  else if 0 < point ∧ point ≤ 21 then
    digits.take point.toNat ++ '.' :: digits.drop point.toNat
  else if -6 < point ∧ point ≤ 0 then
    '0' :: '.' :: List.replicate (-point).toNat '0' ++ digits
  else
    let sign := if point - 1 < 0 then '-' else '+'
    let rest := if digits.length = 1 then [] else '.' :: digits.drop 1
    digits.take 1 ++ rest ++ 'e' :: sign :: decimal |point - 1|

/-- `Number::toString` of a finite number. Whole numbers below `2 ^ 53` are all their digits. -/
def toText (q : ℚ) : List Char :=
  if q.den = 1 ∧ q.num.natAbs < 2 ^ 53 then decimal q.num
  else if q < 0 then '-' :: positiveText (-q)
  else positiveText q

theorem toText_natCast {n : Nat} (h : n < 2 ^ 53) : toText n = decimal n := by
  have hsmall : ((n : ℚ)).den = 1 ∧ ((n : ℚ)).num.natAbs < 2 ^ 53 := by
    rw [Rat.den_natCast, Rat.num_natCast, Int.natAbs_natCast]
    exact ⟨rfl, h⟩
  rw [toText, if_pos hsmall, Rat.num_natCast]

end ArchLoop.Lib.Double
