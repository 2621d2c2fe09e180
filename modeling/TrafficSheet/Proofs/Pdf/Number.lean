import TrafficSheet.Proofs.Pdf.Syntax

/-!
# Numbers are written in one piece

Whatever a number is, too large for its format or no number at all included, its text is made of
digits, a sign, a point and a few letters (`numeral_numberText`). So it is one word for a reader
(`isWord_of_numeral`), and not the letter that ends a reference (`ne_letter_of_numeral`).

The text is read as a decimal that rounds to the number (`says_numberText`). The power of
two just past the largest word is the one whole number that is not written as it is. The number one
below it, which is written in its place, rounds to it.
-/

namespace TrafficSheet.Pdf

open Decimal

/-! ### Texts of numbers -/

theorem numeral_wordText? {negative : Bool} {n : Nat} {word : String}
    (h : wordText? negative n = some word) : Numeral word.toList := by
  unfold wordText? at h
  split at h
  · split at h
    · cases h
      exact ⟨by decide, by decide⟩
    · split at h
      · cases h
        rw [String.toList_append]
        exact Numeral.append (by decide) (numeral_toString n)
      · cases h
        exact numeral_toString _
  · cases h

/-- **The text of every single** is a number in one piece. -/
theorem numeral_numberText (x : Float32) : Numeral (numberText x).toList := by
  unfold numberText
  dsimp only
  split
  · rename_i word hword
    split at hword
    · obtain ⟨n, -, hn⟩ := Option.bind_eq_some_iff.mp hword
      exact numeral_wordText? hn
    · cases hword
  · split <;> exact Number.numeral_text _ rfl rfl _

/-! ### Numbers as words -/

theorem isRegular_of_isNumeric {c : Char} (h : isNumeric c = true) :
    isRegular (byteOf c) = true ∧ byteOf c ≠ byteOf 'R' := by
  rw [isNumeric, Bool.or_eq_true] at h
  rcases h with hdigit | hletter
  · obtain ⟨hbyte, hregular, -⟩ := byteOf_digit hdigit
    exact ⟨hregular, fun h => by rw [h] at hbyte; cases hbyte⟩
  · revert c
    simp only [List.contains_iff_mem, List.mem_cons, List.not_mem_nil, or_false]
    rintro _ (rfl | rfl | rfl | rfl | rfl | rfl | rfl | rfl) <;> decide

variable {word : String}

theorem isWord_of_numeral (h : Numeral word.toList) : IsWord (ascii word) := by
  refine ⟨mt List.map_eq_nil_iff.mp h.ne_nil, fun byte hbyte => ?_⟩
  obtain ⟨c, hc, rfl⟩ := List.mem_map.mp hbyte
  exact (isRegular_of_isNumeric (List.all_eq_true.mp h.numeric c hc)).1

theorem ne_letter_of_numeral (h : Numeral word.toList) : ascii word ≠ ascii "R" := by
  intro hletter
  obtain ⟨c, hc, hbyte⟩ := List.mem_map.mp (hletter ▸ List.mem_singleton.mpr rfl :
    byteOf 'R' ∈ ascii word)
  exact (isRegular_of_isNumeric (List.all_eq_true.mp h.numeric c hc)).2 hbyte

/-! ### What numbers say -/

/-- A whole value is the value. -/
theorem value_eq_of_wholeValue? {m : Magnitude} {n : Nat} (h : wholeValue? m = some n) :
    m.value = n := by
  unfold wholeValue? at h
  dsimp only at h
  split at h
  · rename_i hmod
    cases h
    have hpos : 0 < power 2 (-m.exponent) := power_pos (by decide) _
    rw [Magnitude.value, Nat.cast_div (Nat.dvd_of_mod_eq_zero hmod) (Nat.cast_ne_zero.mpr hpos.ne')]
    have hscale := zpow_eq_power_div 2 (by decide) m.exponent
    push_cast at hscale ⊢
    rw [hscale, mul_div_assoc]
  · cases h

/-- A significand has one bit more than are kept of it. -/
theorem significand_lt_of_ofBits {f : BinaryFormat} {bits : Nat} {negative : Bool} {m : Magnitude}
    (h : Number.ofBits f bits = .finite negative m) : m.significand < 2 ^ (f.fractionBits + 1) := by
  have hfraction : bits % power 2 f.fractionBits < 2 ^ f.fractionBits :=
    Nat.mod_lt _ (power_pos (by decide) _)
  have hpower : power 2 f.fractionBits = 2 ^ f.fractionBits := rfl
  rw [pow_succ]
  unfold Number.ofBits at h
  dsimp only at h
  split_ifs at h
  · cases h
    dsimp only
    omega
  · cases h
    dsimp only
    omega

/-- Near a single of this size the next ones are more than one away. -/
theorem readsBack_pred {m : Magnitude} (hvalue : m.value = 0x80000000)
    (hsignificand : m.significand < 2 ^ 24) : m.readsBack ⟨0x7FFFFFFF, 0⟩ = true := by
  have hpred : (⟨0x7FFFFFFF, 0⟩ : Scientific).value = 0x7FFFFFFF := by norm_num [Scientific.value]
  have hpos : 0 < m.significand := by
    refine Nat.pos_of_ne_zero fun hzero => ?_
    rw [Magnitude.value, hzero] at hvalue
    norm_num at hvalue
  have hlow : m.low ≤ (4 * m.significand - 1 : Nat) * 2 ^ (m.exponent - 2) := by
    refine mul_le_mul_of_nonneg_right (Nat.cast_le.mpr ?_) (by positivity)
    split <;> omega
  have hhigh : m.value < m.high := by
    rw [m.value_eq, Magnitude.high]
    exact mul_lt_mul_of_pos_right (Nat.cast_lt.mpr (by omega)) (by positivity)
  -- With so few bits before it, the exponent is not small.
  have hexponent : 7 < m.exponent := by
    have hscale : (2 : ℚ) ^ (7 : ℤ) < 2 ^ m.exponent := by
      have hle : m.value < 2 ^ 24 * 2 ^ m.exponent :=
        mul_lt_mul_of_pos_right (by exact_mod_cast hsignificand) (by positivity)
      rw [hvalue] at hle
      norm_num at hle ⊢
      linarith
    exact (zpow_lt_zpow_iff_right₀ (by norm_num)).mp hscale
  have hstep : (1 : ℚ) < 2 ^ (m.exponent - 2) := one_lt_zpow₀ (by norm_num) (by omega)
  have hends : ((4 * m.significand - 1 : Nat) : ℚ) * 2 ^ (m.exponent - 2) =
      m.value - 2 ^ (m.exponent - 2) := by
    rw [m.value_eq, Nat.cast_sub (by omega)]
    push_cast
    ring
  rw [Magnitude.readsBack_iff, hpred]
  exact ⟨Or.inl (by linarith), Or.inl (by linarith)⟩

theorem isText_toString (n : Nat) : IsText (toString n).toList n := by
  have htext := (isDigits_toDigits n).isText
  rwa [digitsValue_toDigits, ← toList_toString] at htext

/-- The text of a whole number is read as a decimal that rounds to it. -/
theorem exists_figure_wordText? {negative : Bool} {m : Magnitude} {n : Nat} {word : String}
    (hvalue : m.value = n) (hsignificand : m.significand < 2 ^ 24)
    (h : wordText? negative n = some word) :
    ∃ f, Figure.read? word.toList = some f ∧ f.RoundsTo (.finite negative m) := by
  unfold wordText? at h
  split_ifs at h with hfits hzero hnegative
  · cases h
    rw [hzero, Magnitude.value, Nat.cast_zero, mul_eq_zero,
      or_iff_left (zpow_ne_zero _ (by norm_num)), Nat.cast_eq_zero] at hvalue
    exact ⟨.decimal false ⟨0, 0⟩, by decide, .zero rfl hvalue⟩
  · cases h
    obtain ⟨d, hread, hd⟩ := (isText_toString n).read? true
    rw [hnegative]
    exact ⟨_, (congrArg Figure.read? String.toList_append).trans hread,
      .finite (Magnitude.readsBack_of_value_eq (hd.trans hvalue.symm))⟩
  · cases h
    obtain ⟨d, hread, hd⟩ := (isText_toString (min n 0x7FFFFFFF)).read? false
    rw [Bool.not_eq_true] at hnegative
    rw [hnegative]
    refine ⟨_, hread, .finite ?_⟩
    rcases Nat.lt_or_eq_of_le hfits with hlt | rfl
    · rw [min_eq_left (by omega)] at hd
      exact Magnitude.readsBack_of_value_eq (hd.trans hvalue.symm)
    · have hpred : d.value = (⟨0x7FFFFFFF, 0⟩ : Scientific).value := by
        rw [hd]
        norm_num [Scientific.value]
      rw [Magnitude.readsBack_congr hpred]
      exact readsBack_pred (by exact_mod_cast hvalue) hsignificand

/-- A text says a number: what is read from it rounds to the number. -/
def Says (text : String) (x : Float32) : Prop :=
  ∃ f, Figure.read? text.toList = some f ∧ f.RoundsTo (Number.ofFloat32 x)

/-- **The text of every single** says it. -/
theorem says_numberText (x : Float32) : Says (numberText x) x := by
  unfold numberText
  dsimp only
  split
  · rename_i word hword
    split at hword
    · rename_i negative m hnumber
      obtain ⟨n, hwhole, hn⟩ := Option.bind_eq_some_iff.mp hword
      rw [Says, hnumber]
      exact exists_figure_wordText? (value_eq_of_wholeValue? hwhole)
        (significand_lt_of_ofBits hnumber) hn
    · cases hword
  · split <;> exact Number.exists_figure_text _ rfl rfl _

end TrafficSheet.Pdf
