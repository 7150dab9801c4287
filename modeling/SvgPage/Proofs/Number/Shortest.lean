import Mathlib
import SvgPage.Proofs.Number.Numeral
import SvgPage.Proofs.Number.Rounding

/-!
# Printed numbers read back

The shortest decimal of a number lies in the interval of values that are rounded to it. Nine digits
are finer than the last place of 24 bits, so a search that takes one digit more at a time finds a
decimal there at the latest. A printed number is therefore read as itself.
-/

namespace SvgPage

def IsPrinted (c : Char) : Prop := c.isAlphanum ∨ c = '.' ∨ c = '-'

theorem isPrinted_of_isDigit {c : Char} (digit : c.isDigit) : IsPrinted c :=
  .inl (by simp [Char.isAlphanum, digit])

theorem isDigit_of_mem_toDigits {n : ℕ} {c : Char} (inside : c ∈ Nat.toDigits 10 n) : c.isDigit :=
  Nat.isDigit_of_mem_toDigits (by decide) (by decide) inside

namespace Digits

theorem mem_positional {d : Digits} {c : Char} (inside : c ∈ d.positional) :
    c.isDigit ∨ c = '.' := by
  have zero : ('0' : Char).isDigit := rfl
  unfold positional at inside
  simp only at inside
  split_ifs at inside with whole none few
  · simp_all
  · rcases List.mem_append.mp inside with h | h
    · exact .inl (isDigit_of_mem_toDigits h)
    · exact .inl ((List.eq_of_mem_replicate h) ▸ zero)
  · rcases List.mem_append.mp inside with h | h
    · exact .inl (isDigit_of_mem_toDigits (List.mem_of_mem_take h))
    · rcases List.mem_cons.mp h with rfl | h
      · exact .inr rfl
      · exact .inl (isDigit_of_mem_toDigits (List.mem_of_mem_drop h))
  · simp only [List.mem_cons, List.mem_append] at inside
    rcases inside with rfl | rfl | h | h
    · exact .inl zero
    · exact .inr rfl
    · exact .inl ((List.eq_of_mem_replicate h) ▸ zero)
    · exact .inl (isDigit_of_mem_toDigits h)

theorem positional_ne_nil (d : Digits) : d.positional ≠ [] := by
  unfold positional
  simp only
  split_ifs <;> simp

end Digits

theorem isPrinted_of_mem_singleText {x : Float32} {c : Char} (inside : c ∈ singleText x) :
    IsPrinted c := by
  have sign {negative : Bool} (h : c ∈ if negative then ['-'] else []) : IsPrinted c := by
    cases negative <;> simp_all [IsPrinted]
  unfold singleText at inside
  split at inside
  · simp only [List.mem_cons, List.not_mem_nil, or_false] at inside
    rcases inside with rfl | rfl | rfl <;> exact .inl rfl
  · rcases List.mem_append.mp inside with h | h
    · exact sign h
    · simp only [List.mem_cons, List.not_mem_nil, or_false] at h
      rcases h with rfl | rfl | rfl <;> exact .inl rfl
  · rcases List.mem_append.mp inside with h | h
    · exact sign h
    · split_ifs at h
      · exact .inl (List.mem_singleton.mp h ▸ rfl)
      · rcases Digits.mem_positional h with digit | point
        · exact isPrinted_of_isDigit digit
        · exact .inr (.inl point)

theorem singleText_ne_nil (x : Float32) : singleText x ≠ [] := by
  unfold singleText
  split
  · simp
  · simp
  · split_ifs <;> simp [Digits.positional_ne_nil]

namespace Digits

theorem value_go (fuel : ℕ) (d : Digits) : (trim.go fuel d).value = d.value := by
  induction fuel generalizing d with
  | zero => rfl
  | succ fuel ih =>
    unfold trim.go
    split_ifs with round
    · have tens : (d.digits : ℚ) = 10 * (d.digits / 10 : ℕ) := by
        exact_mod_cast (show d.digits = 10 * (d.digits / 10) by omega)
      rw [ih, value, value, zpow_add_one₀ (by norm_num), tens]
      ring
    · rfl

theorem value_trim (d : Digits) : d.trim.value = d.value := value_go _ d

namespace Interval

variable {i : Interval} {top : ℤ} {count : ℕ} {d : Digits}

theorem holds_of_hit? (h : i.hit? top count = some d) : i.Holds d.value := by
  rw [← contains_iff]
  unfold hit? at h
  simp only at h
  split at h <;> simp only [Option.some.injEq, reduceCtorEq] at h
  · subst h
    split_ifs <;> assumption
  · exact h ▸ ‹_›
  · exact h ▸ ‹_›

/-- Something is found where the upper neighbour of the value lies in the interval. -/
theorem isSome_hit? {upper : ℕ}
    (neighbour : upper = ((Ratio.ofBinary i.value i.quantum).scaleTen (count - top)).floor + 1)
    (h : i.Holds (upper * 10 ^ (top - count))) : (i.hit? top count).isSome := by
  have inside : i.contains ⟨upper, top - count⟩ = true := (contains_iff ..).mpr h
  unfold hit?
  simp only [neg_sub, ← neighbour, inside]
  split <;> simp_all

theorem holds_shortest {limit : ℕ} (h : count < limit)
    (last : (i.hit? (Ratio.ofBinary i.value i.quantum).decade (count + 1)).isSome) :
    i.Holds (i.shortest limit).value := by
  have found : ((List.range limit).findSome? fun k =>
      i.hit? (Ratio.ofBinary i.value i.quantum).decade (k + 1)).isSome := by
    rw [List.findSome?_isSome_iff]
    exact ⟨count, List.mem_range.mpr h, last⟩
  obtain ⟨d, first⟩ := Option.isSome_iff_exists.mp found
  obtain ⟨k, -, hit⟩ := List.exists_of_findSome?_eq_some first
  rw [shortest, first]
  exact value_trim d ▸ holds_of_hit? hit

variable {s : ℕ} {e : ℤ}

theorem isSome_hit?_nine (single : Binary.IsSingle s e) (positive : 0 < s) :
    ((rounding s e).hit? (Ratio.ofBinary (4 * s) (e - 2)).decade 9).isSome := by
  let exact : Ratio := .ofBinary (4 * s) (e - 2)
  let scaled := exact.scaleTen (9 - exact.decade)
  have unit : (0 : ℚ) < 2 ^ (e - 2) := by positivity
  have value : exact.value = 4 * s * 2 ^ (e - 2) := by simp [exact, Ratio.value_ofBinary]
  have grid : (0 : ℚ) < 10 ^ (exact.decade - 9) := by positivity
  have back : scaled.value * 10 ^ (exact.decade - 9) = 4 * s * 2 ^ (e - 2) := by
    rw [← value, Ratio.value_scaleTen, mul_assoc, ← zpow_add₀ (by norm_num)]
    simp
  obtain ⟨floor, next⟩ := Ratio.floor_le_lt
    (Ratio.den_scaleTen_pos (Ratio.den_ofBinary_pos (4 * s) (e - 2)) (9 - exact.decade))
  have above := mul_lt_mul_of_pos_right next grid
  have near := mul_le_mul_of_nonneg_right floor grid.le
  rw [back] at above near
  -- Nine digits are finer than the last place of 24 bits.
  have fine : (10 : ℚ) ^ (exact.decade - 9) < 2 * 2 ^ (e - 2) := by
    have decade := Ratio.ten_zpow_decade_le (Ratio.num_ofBinary_pos (e - 2) (by omega : 0 < 4 * s))
      (Ratio.den_ofBinary_pos (4 * s) (e - 2))
    have places : (10 : ℚ) ^ (exact.decade - 9) * 10 ^ 8 = 10 ^ (exact.decade - 1) := by
      rw [← zpow_natCast, ← zpow_add₀ (by norm_num)]
      congr 1
      omega
    have significand : 4 * (s : ℚ) * 2 ^ (e - 2) ≤ 4 * 2 ^ 24 * 2 ^ (e - 2) := by
      have bounded : (s : ℚ) ≤ 2 ^ 24 := by exact_mod_cast single.bounded.le
      gcongr
    have top : (10 : ℚ) ^ (exact.decade - 1) ≤ 4 * s * 2 ^ (e - 2) := value ▸ decade
    linarith
  have low : (rounding s e).low * (2 : ℚ) ^ (e - 2) ≤ 4 * s * 2 ^ (e - 2) := by
    have fewer : (rounding s e).low ≤ 4 * s := Nat.sub_le ..
    have fewer' : ((rounding s e).low : ℚ) ≤ 4 * s := by exact_mod_cast fewer
    gcongr
  have upper : ((scaled.floor + 1 : ℕ) : ℚ) * 10 ^ (exact.decade - 9) <
      ((4 * s + 2 : ℕ) : ℚ) * 2 ^ (e - 2) := by
    push_cast
    linarith
  exact isSome_hit? rfl ⟨(low.trans_lt above).le, upper.le, fun _ => ⟨low.trans_lt above, upper⟩⟩

theorem holds_ofSingle (single : Binary.IsSingle s e) (positive : 0 < s) :
    (rounding s e).Holds (ofSingle s e).value :=
  holds_shortest (by decide : 8 < 9) (isSome_hit?_nine single positive)

end Interval

end Digits

namespace Decimal

/-- The value without its sign. -/
def magnitude (d : Decimal) : ℚ := d.mantissa * 10 ^ d.exponent

theorem digits_toDigits (n : ℕ) : Digits (Nat.toDigits 10 n) := by
  intro c inside
  have digit := isDigit_of_mem_toDigits inside
  simpa [Char.isDigit, isDigit, Char.le_def] using digit

theorem digits_replicate (n : ℕ) : Digits (List.replicate n '0') := by
  intro c inside
  rw [List.eq_of_mem_replicate inside]
  rfl

theorem wholeOfDigits_toDigits (n : ℕ) : wholeOfDigits (Nat.toDigits 10 n) = n :=
  Nat.ofDigitChars_ten_toDigits

theorem wholeOfDigits_append_zeros (ds : List Char) (n : ℕ) :
    wholeOfDigits (ds ++ List.replicate n '0') = 10 ^ n * wholeOfDigits ds :=
  (Nat.ofDigitChars_append 0).trans Nat.ofDigitChars_replicate_zero

theorem wholeOfDigits_zeros_append (ds : List Char) (n : ℕ) :
    wholeOfDigits (List.replicate n '0' ++ ds) = wholeOfDigits ds := by
  refine (Nat.ofDigitChars_append 0).trans ?_
  rw [Nat.ofDigitChars_replicate_zero, Nat.mul_zero]
  rfl

end Decimal

namespace Digits

open Decimal (Mantissa wholeOfDigits digits_toDigits digits_replicate)

theorem mantissa_positional (d : Digits) : ∃ whole fraction, Mantissa d.positional whole fraction ∧
    (wholeOfDigits (whole ++ fraction) : ℚ) * 10 ^ (0 - fraction.length : ℤ) = d.value := by
  have text := digits_toDigits d.digits
  have number := Decimal.wholeOfDigits_toDigits d.digits
  have filled : Nat.toDigits 10 d.digits ≠ [] := Nat.toDigits_ne_nil
  have zero : Decimal.Digits ['0'] := digits_replicate 1
  unfold positional value
  simp only
  split_ifs with whole none few
  · exact ⟨['0'], [], .whole zero (by simp), by simp [none, wholeOfDigits]⟩
  · obtain ⟨n, exponent⟩ := Int.eq_ofNat_of_zero_le whole
    refine ⟨_, [], .whole (List.forall_mem_append.mpr ⟨text, digits_replicate _⟩) (by simp [filled]), ?_⟩
    rw [List.append_nil, Decimal.wholeOfDigits_append_zeros, number, exponent]
    simp [mul_comm]
  · have places : d.exponent = -(d.exponent.natAbs : ℤ) := by omega
    have left : (Nat.toDigits 10 d.digits).length -
        ((Nat.toDigits 10 d.digits).length - d.exponent.natAbs) = d.exponent.natAbs := by omega
    refine ⟨_, _, .pointed (fun c h => text c (List.mem_of_mem_take h))
      (fun c h => text c (List.mem_of_mem_drop h)) (.inr ?_), ?_⟩
    · rw [← List.length_pos_iff, List.length_drop, left]
      omega
    · rw [List.take_append_drop, List.length_drop, left, number, zero_sub, ← places]
  · have places : d.exponent = -(d.exponent.natAbs : ℤ) := by omega
    have left : d.exponent.natAbs - (Nat.toDigits 10 d.digits).length +
        (Nat.toDigits 10 d.digits).length = d.exponent.natAbs := by omega
    refine ⟨['0'], _, .pointed zero (List.forall_mem_append.mpr ⟨digits_replicate _, text⟩)
      (.inl (by simp)), ?_⟩
    rw [← List.append_assoc, show ['0'] = List.replicate 1 '0' from rfl, List.replicate_append_replicate,
      Decimal.wholeOfDigits_zeros_append, number, List.length_append, List.length_replicate, left,
      zero_sub, ← places]

end Digits

/-- What texts stand for: a numeral stands for the number that its value is rounded to. -/
inductive Denotes : List Char → Float32 → Prop
  | notANumber {x} : Binary.ofSingle x = .notANumber → Denotes ['N', 'a', 'N'] x
  | infinite {x sign negative} : Decimal.Sign sign negative →
      Binary.ofSingle x = .infinite negative → Denotes (sign ++ ['i', 'n', 'f']) x
  | finite {x cs d s e} : Decimal.Numeral cs d → Binary.ofSingle x = .finite d.negative s e →
      (Digits.Interval.rounding s e).Holds d.magnitude → Denotes cs x

namespace Denotes

open Decimal (Numeral Sign)

variable {cs : List Char} {x y : Float32}

theorem not_numeral {d : Decimal} (unread : Decimal.scan cs = .error .digits) : ¬Numeral cs d := by
  intro numeral
  have scanned := (Decimal.left?_of_numeral numeral []).2 rfl
  rw [List.append_nil, unread] at scanned
  cases scanned

theorem scan_infinite {sign : List Char} {negative : Bool} (h : Sign sign negative) :
    Decimal.scan (sign ++ ['i', 'n', 'f']) = .error .digits := by
  cases h <;> rfl

theorem unique (h : Denotes cs x) (h' : Denotes cs y) : x = y := by
  apply Binary.ofSingle_injective
  cases h with
  | notANumber hx =>
    generalize text : ['N', 'a', 'N'] = cs at h'
    cases h' with
    | notANumber hy => rw [hx, hy]
    | infinite sign => cases sign <;> cases text
    | finite numeral => exact absurd numeral (not_numeral (text ▸ rfl))
  | @infinite _ mark negative sign hx =>
    generalize text : mark ++ ['i', 'n', 'f'] = cs at h'
    cases h' with
    | notANumber => cases sign <;> cases text
    | infinite sign' hy => cases sign <;> cases sign' <;> cases text <;> rw [hx, hy]
    | finite numeral => exact absurd numeral (not_numeral (text ▸ scan_infinite sign))
  | finite numeral hx holds =>
    cases h' with
    | notANumber => exact absurd numeral (not_numeral rfl)
    | infinite sign => exact absurd numeral (not_numeral (scan_infinite sign))
    | finite numeral' hy holds' =>
      obtain rfl := numeral.unique numeral'
      obtain ⟨rfl, rfl⟩ := holds.unique (Binary.isSingle_of_ofSingle hx)
        (Binary.isSingle_of_ofSingle hy) holds'
      rw [hx, hy]

theorem sign_ofBool (negative : Bool) : Sign (if negative then ['-'] else []) negative := by
  cases negative
  · exact .absent
  · exact .minus

theorem numeral_of_mantissa {mark cs whole fraction : List Char} {negative : Bool}
    (sign : Sign mark negative) (mantissa : Decimal.Mantissa cs whole fraction) :
    Numeral (mark ++ cs)
      ⟨negative, Decimal.wholeOfDigits (whole ++ fraction), 0 - fraction.length⟩ := by
  have numeral := Numeral.spelled sign mantissa .absent
  rwa [List.append_nil] at numeral

theorem holds_zero (e : ℤ) : (Digits.Interval.rounding 0 e).Holds 0 where
  low := by simp [Digits.Interval.rounding, Digits.Interval.of]
  high := by positivity
  inner := by simp [Digits.Interval.rounding, Digits.Interval.of]

/-- What is printed stands for the number. -/
theorem singleText (x : Float32) : Denotes (singleText x) x := by
  unfold SvgPage.singleText
  cases number : Binary.ofSingle x with
  | notANumber => exact .notANumber number
  | infinite negative => exact .infinite (sign_ofBool negative) number
  | finite negative s e =>
    have sign := sign_ofBool negative
    by_cases none : s = 0
    · have zero : Decimal.Mantissa ['0'] ['0'] [] := .whole (Decimal.digits_replicate 1) (by simp)
      simp only [none, if_true]
      refine .finite (numeral_of_mantissa sign zero) number ?_
      simpa [none, Decimal.magnitude, Decimal.wholeOfDigits] using holds_zero e
    · obtain ⟨whole, fraction, mantissa, value⟩ := (Digits.ofSingle s e).mantissa_positional
      simp only [none, if_false]
      refine .finite (numeral_of_mantissa sign mantissa) number ?_
      rw [Decimal.magnitude, value]
      exact Digits.Interval.holds_ofSingle (Binary.isSingle_of_ofSingle number)
        (Nat.pos_of_ne_zero none)

end Denotes

open Classical in
/-- Reads a number in single precision, rounded to the nearest one. What is too large is not read. -/
noncomputable def readSingle? (cs : List Char) : Option Float32 :=
  if h : ∃ x, Denotes cs x then some h.choose else none

theorem readSingle?_eq_some_iff {cs : List Char} {x : Float32} :
    readSingle? cs = some x ↔ Denotes cs x := by
  unfold readSingle?
  constructor
  · intro read
    split_ifs at read with h
    · cases read
      exact h.choose_spec
  · intro h
    have some : ∃ x, Denotes cs x := ⟨x, h⟩
    rw [dif_pos some, some.choose_spec.unique h]

/-- Printed numbers are read back. -/
theorem readSingle?_singleText (x : Float32) : readSingle? (singleText x) = some x :=
  readSingle?_eq_some_iff.mpr (.singleText x)

end SvgPage
