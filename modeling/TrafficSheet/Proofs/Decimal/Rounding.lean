import Mathlib
import TrafficSheet.Decimal.Reader

/-!
# Decimals that round to a binary number

Comparisons of decimals with binary numbers are made in whole numbers. They are comparisons of the
values (`compareScaled_eq_lt`, `compareScaled_eq_eq`, `compareScaled_eq_gt`), and so it depends on
the value of a decimal alone whether it reads back as a number (`Magnitude.readsBack_congr`). The
value of the number itself does (`Magnitude.readsBack_of_value_eq`), and so does the decimal of
fewest digits, however it was found (`Magnitude.readsBack_shortest`).

## Not proved

That there is no decimal with fewer digits that reads back, and that of two the nearer one is taken,
is left to the definition of `Magnitude.shortest`.
-/

namespace TrafficSheet.Decimal

/-! ### Values -/

/-- The value of a decimal. -/
def Scientific.value (d : Scientific) : ℚ := d.coefficient * 10 ^ d.exponent

/-- The value of a magnitude. -/
def Magnitude.value (m : Magnitude) : ℚ := m.significand * 2 ^ m.exponent

theorem power_pos {base : Nat} (hbase : 0 < base) (exponent : Int) : 0 < power base exponent :=
  Nat.pow_pos hbase

/-- Any power is a quotient of whole ones. -/
theorem zpow_eq_power_div (base : Nat) (hbase : 0 < base) (exponent : Int) :
    (base : ℚ) ^ exponent = power base exponent / power base (-exponent) := by
  have hpower : ∀ e : Int, (power base e : ℚ) = (base : ℚ) ^ (e.toNat : Int) := fun e => by
    rw [zpow_natCast]
    exact Nat.cast_pow base e.toNat
  have hne : (base : ℚ) ≠ 0 := Nat.cast_ne_zero.mpr hbase.ne'
  rw [hpower, hpower, ← zpow_sub₀ hne]
  congr 1
  omega

section Comparing

variable (a : Nat) (i : Int) (b : Nat) (j : Int)

/-- The difference of two scaled numbers has the sign of that of the whole numbers which are
compared. -/
theorem scaled_sub_eq :
    (a : ℚ) * 10 ^ i - b * 2 ^ j =
      ((a * power 10 i * power 2 (-j) : Nat) - (b * power 2 j * power 10 (-i) : Nat) : ℚ) /
        (power 10 (-i) * power 2 (-j)) := by
  have hten : (power 10 (-i) : ℚ) ≠ 0 := Nat.cast_ne_zero.mpr (power_pos (by decide) _).ne'
  have htwo : (power 2 (-j) : ℚ) ≠ 0 := Nat.cast_ne_zero.mpr (power_pos (by decide) _).ne'
  have hi := zpow_eq_power_div 10 (by decide) i
  have hj := zpow_eq_power_div 2 (by decide) j
  push_cast at hi hj ⊢
  rw [hi, hj]
  field_simp

theorem scale_pos : (0 : ℚ) < power 10 (-i) * power 2 (-j) :=
  mul_pos (Nat.cast_pos.mpr (power_pos (by decide) _)) (Nat.cast_pos.mpr (power_pos (by decide) _))

theorem compareScaled_eq_lt :
    compareScaled a i b j = .lt ↔ (a : ℚ) * 10 ^ i < b * 2 ^ j := by
  rw [compareScaled, Nat.compare_eq_lt, ← sub_neg (a := (a : ℚ) * 10 ^ i), scaled_sub_eq,
    div_lt_iff₀ (scale_pos i j), zero_mul, sub_neg, Nat.cast_lt]

theorem compareScaled_eq_eq :
    compareScaled a i b j = .eq ↔ (a : ℚ) * 10 ^ i = b * 2 ^ j := by
  rw [compareScaled, Nat.compare_eq_eq, ← sub_eq_zero (a := (a : ℚ) * 10 ^ i), scaled_sub_eq,
    div_eq_zero_iff, or_iff_left (scale_pos i j).ne', sub_eq_zero, Nat.cast_inj]

theorem compareScaled_eq_gt :
    compareScaled a i b j = .gt ↔ (b : ℚ) * 2 ^ j < a * 10 ^ i := by
  rw [compareScaled, Nat.compare_eq_gt, ← sub_pos (a := (a : ℚ) * 10 ^ i), scaled_sub_eq,
    div_pos_iff_of_pos_right (scale_pos i j), sub_pos, Nat.cast_lt]

end Comparing

/-! ### The interval of a number -/

namespace Magnitude

/-- The lower end of the interval: halfway to the number below. -/
def low (m : Magnitude) : ℚ :=
  (4 * m.significand - (if m.narrowBelow then 1 else 2) : Nat) * 2 ^ (m.exponent - 2)

/-- The upper end of the interval: halfway to the number above. -/
def high (m : Magnitude) : ℚ := (4 * m.significand + 2 : Nat) * 2 ^ (m.exponent - 2)

/-- **Reading back** is lying between the ends of the interval. The ends themselves belong to it if
the significand is even. -/
theorem readsBack_iff (m : Magnitude) (d : Scientific) :
    m.readsBack d = true ↔
      (m.low < d.value ∨ m.significand % 2 = 0 ∧ d.value = m.low) ∧
        (d.value < m.high ∨ m.significand % 2 = 0 ∧ d.value = m.high) := by
  unfold readsBack
  simp only [Bool.and_eq_true, Bool.or_eq_true, beq_iff_eq, compareScaled_eq_lt,
    compareScaled_eq_eq, compareScaled_eq_gt]
  rfl

variable {m : Magnitude} {d d' : Scientific}

/-- Decimals of one value read back as the same. -/
theorem readsBack_congr (h : d.value = d'.value) : m.readsBack d = m.readsBack d' := by
  rw [Bool.eq_iff_iff, readsBack_iff, readsBack_iff, h]

theorem value_eq (m : Magnitude) : m.value = (4 * m.significand : Nat) * 2 ^ (m.exponent - 2) := by
  rw [value, zpow_sub₀ (by norm_num)]
  push_cast
  ring

/-- **The value of a number** reads back as the number. -/
theorem readsBack_of_value_eq (h : d.value = m.value) : m.readsBack d = true := by
  have hscale : (0 : ℚ) < 2 ^ (m.exponent - 2) := by positivity
  rw [readsBack_iff, h, value_eq, low, high, mul_lt_mul_iff_left₀ hscale,
    mul_lt_mul_iff_left₀ hscale, mul_left_inj' hscale.ne', Nat.cast_lt, Nat.cast_lt, Nat.cast_inj]
  refine ⟨?_, Or.inl (by omega)⟩
  rcases Nat.eq_zero_or_pos m.significand with hzero | hpos
  · exact Or.inr (by simp [hzero])
  · exact Or.inl (by split <;> omega)

/-! ### The fewest digits -/

theorem value_exactDecimal (m : Magnitude) : m.exactDecimal.value = m.value := by
  rcases le_total 0 m.exponent with hexponent | hexponent
  · obtain ⟨e, he⟩ := Int.eq_ofNat_of_zero_le hexponent
    simp [exactDecimal, Scientific.value, value, power, he]
  · obtain ⟨e, he⟩ := Int.exists_eq_neg_ofNat hexponent
    have hten : (10 : ℚ) = 2 * 5 := by norm_num
    simp only [exactDecimal, Scientific.value, value, power, he, Int.toNat_neg_natCast, neg_neg,
      Int.toNat_natCast, min_eq_left (neg_nonpos.mpr (Int.natCast_nonneg e)), zpow_neg,
      zpow_natCast, hten, mul_pow, Nat.pow_eq, pow_zero]
    push_cast
    field_simp

theorem readsBack_of_onGrid? {tie : Tie} {grid : Int} (h : m.onGrid? tie grid = some d) :
    m.readsBack d = true := by
  unfold onGrid? at h
  dsimp only at h
  split at h
  case h_1 => cases h
  case h_2 hlower _ =>
    cases h
    exact hlower
  case h_3 _ hupper =>
    cases h
    exact hupper
  case h_4 hlower hupper =>
    split at h
    case h_1 => cases h; exact hlower
    case h_2 => cases h; exact hupper
    case h_3 => cases h; exact hupper
    case h_4 =>
      split at h
      · cases h; exact hlower
      · cases h; exact hupper

/-- **The decimal of fewest digits** reads back as the number. -/
theorem readsBack_shortest (tie : Tie) (m : Magnitude) : m.readsBack (m.shortest tie) = true := by
  unfold shortest
  split
  · rename_i hzero
    exact readsBack_of_value_eq (by simp [Scientific.value, value, hzero])
  · dsimp only
    cases hfound : (List.range 17).findSome? fun (n : Nat) =>
        m.onGrid? tie (m.decimalScale - 1 - n) with
    | none => exact readsBack_of_value_eq m.value_exactDecimal
    | some d =>
      obtain ⟨n, -, hn⟩ := List.exists_of_findSome?_eq_some hfound
      exact readsBack_of_onGrid? hn

end Magnitude

end TrafficSheet.Decimal
