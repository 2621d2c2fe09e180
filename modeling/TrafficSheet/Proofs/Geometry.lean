import Mathlib
import TrafficSheet.Canvas.Basic
import TrafficSheet.Geometry

/-!
# Exact geometry

Geometry over the rational numbers has no rounding, so where things stand can be proved by
arithmetic. A call stays between two heights if all that it draws does (`Call.Between`).

In floating point a comparison fails if one side is no number. Still, what is above zero is not at
or below it (`not_le_zero_of_zero_lt`), and numbers below zero are below it (`le_of_zero_lt`).
-/

namespace TrafficSheet

/-- Geometry without rounding. -/
instance : Scalar ℚ where
  ofInt n := n
  larger := max
  smaller := min
  atMost a b := decide (a ≤ b)

namespace Scalar

variable {a b : ℚ}

@[simp] theorem larger_eq : larger a b = max a b := rfl

@[simp] theorem smaller_eq : smaller a b = min a b := rfl

@[simp] theorem ofNat_eq (n : Nat) : (ofNat n : ℚ) = n := Int.cast_natCast n

end Scalar

namespace TextMetrics

variable {size : ℚ}

/-- The height of a text is nothing, that of capitals, or that of capitals and descenders. -/
theorem height_measure (text : String) (size : ℚ) :
    (measure text size).height = 0 ∨ (measure text size).height = 0.718 * size ∨
      (measure text size).height = 0.925 * size := by
  unfold measure
  split_ifs
  · left
    norm_num
  · right; right
    norm_num
  · right; left
    norm_num

theorem height_measure_nonneg (text : String) (hsize : 0 ≤ size) :
    0 ≤ (measure text size).height := by
  rcases height_measure text size with h | h | h <;> linarith

theorem height_measure_le (text : String) (hsize : 0 ≤ size) :
    (measure text size).height ≤ 0.925 * size := by
  rcases height_measure text size with h | h | h <;> linarith

end TextMetrics

/-- All that the call draws stands between two heights, whatever was drawn before. -/
def Call.Between (top bottom : ℚ) : Call ℚ → Prop
  | .font _ | .color _ | .measure _ => True
  | .text at_ _ => top ≤ at_.y ∧ at_.y ≤ bottom
  | .line start stop _ => (top ≤ start.y ∧ start.y ≤ bottom) ∧ top ≤ stop.y ∧ stop.y ≤ bottom
  | .fill rect | .stroke rect _ => top ≤ rect.y ∧ 0 ≤ rect.height ∧ rect.bottom ≤ bottom
  | .shift _ _ => False

/-- More room is room enough. -/
theorem Call.Between.mono {top top' bottom bottom' : ℚ} {call : Call ℚ}
    (h : call.Between top bottom) (htop : top' ≤ top) (hbottom : bottom ≤ bottom') :
    call.Between top' bottom' := by
  cases call with
  | font | color | measure => trivial
  | text => exact ⟨htop.trans h.1, h.2.trans hbottom⟩
  | line =>
    obtain ⟨⟨hstart, hstart'⟩, hstop, hstop'⟩ := h
    exact ⟨⟨htop.trans hstart, hstart'.trans hbottom⟩, htop.trans hstop, hstop'.trans hbottom⟩
  | fill | stroke =>
    obtain ⟨hy, hheight, hend⟩ := h
    exact ⟨htop.trans hy, hheight, hend.trans hbottom⟩
  | shift => exact h

/-! ### Numbers above zero -/

/-- What is above zero is positive infinity, or has a plus sign. -/
theorem unpack_of_zero_lt {x : Float} (h : 0.0 < x) :
    x.toModel.unpack = .infinity .positive ∨
      ∃ mantissa exponent hpos, x.toModel.unpack = .finite .positive mantissa exponent hpos := by
  have hzero : (0.0 : Float).toModel.unpack = .zero .positive := rfl
  have hlt : (0.0 : Float).toModel.unpack.lt x.toModel.unpack = true := of_decide_eq_true h
  rw [hzero] at hlt
  cases hx : x.toModel.unpack with
  | notANumber | zero =>
    rw [hx] at hlt
    cases hlt
  | infinity sign =>
    rw [hx] at hlt
    cases sign with
    | positive => exact Or.inl rfl
    | negative => cases hlt
  | finite sign mantissa exponent hpos =>
    rw [hx] at hlt
    cases sign with
    | positive => exact Or.inr ⟨mantissa, exponent, hpos, rfl⟩
    | negative => cases hlt

/-- What is above zero is not at or below it. -/
theorem not_le_zero_of_zero_lt {x : Float} (h : 0.0 < x) : ¬ x ≤ 0.0 := by
  intro hle
  have hzero : (0.0 : Float).toModel.unpack = .zero .positive := rfl
  have hnot : x.toModel.unpack.le (0.0 : Float).toModel.unpack = true := of_decide_eq_true hle
  rw [hzero] at hnot
  obtain hx | ⟨_, _, _, hx⟩ := unpack_of_zero_lt h
  · rw [hx] at hnot
    cases hnot
  · rw [hx] at hnot
    cases hnot

/-- What has a minus sign is at or below what is above zero. -/
theorem le_of_zero_lt {x y : Float} (hy : ∃ mantissa exponent hpos,
      y.toModel.unpack = .finite .negative mantissa exponent hpos) (hx : 0.0 < x) : y ≤ x := by
  obtain ⟨_, _, _, hy⟩ := hy
  have hle : y.toModel.unpack.le x.toModel.unpack = true := by
    rw [hy]
    obtain hx | ⟨_, _, _, hx⟩ := unpack_of_zero_lt hx
    · rw [hx]
      rfl
    · rw [hx]
      rfl
  exact decide_eq_true hle

theorem Scalar.atMost_zero_of_zero_lt {x : Float} (h : 0.0 < x) :
    Scalar.atMost x (0.0 : Float) = false :=
  decide_eq_false (not_le_zero_of_zero_lt h)

end TrafficSheet
