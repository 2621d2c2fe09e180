import TrafficSheet.Proofs.Decimal.Rounding

/-!
# Texts of numbers are read back

Whatever the style, the text of a number is read as a decimal that rounds to it, with its sign; and
what has no digits is read from the words for it (`Number.exists_figure_text`). The digits may be
laid out in three ways around a point, or with an exponent, and have the same value in all of them
(`positionalText_isText`, `exponentText_isText`). No text of a number has other characters than
digits, a sign, a point and a few letters (`Number.numeral_text`).
-/

namespace TrafficSheet.Decimal

variable {cs digits whole fraction rest : List Char}

/-! ### Digits -/

/-- One digit or more. -/
structure IsDigits (digits : List Char) : Prop where
  /-- There is a digit. -/
  ne_nil : digits ≠ []
  /-- There is nothing else. -/
  isDigit : ∀ c ∈ digits, c.isDigit = true

theorem digitsValue_eq (digits : List Char) : digitsValue digits = Nat.ofDigitChars 10 digits 0 := by
  have hfold : ∀ value, digits.foldl (fun value c => value * 10 + (c.toNat - '0'.toNat)) value =
      Nat.ofDigitChars 10 digits value := by
    induction digits with
    | nil => exact fun _ => Nat.ofDigitChars_nil.symm
    | cons c digits ih =>
      intro value
      rw [List.foldl_cons, ih, Nat.ofDigitChars_cons, Nat.mul_comm]
  exact hfold 0

theorem digitsValue_append (whole fraction : List Char) :
    digitsValue (whole ++ fraction) = Nat.ofDigitChars 10 fraction (digitsValue whole) := by
  rw [digitsValue_eq, digitsValue_eq, Nat.ofDigitChars_append]

theorem digitsValue_zeros (count : Nat) : digitsValue (List.replicate count '0') = 0 := by
  rw [digitsValue_eq, Nat.ofDigitChars_replicate_zero, Nat.mul_zero]

/-- Zeros in front change nothing. -/
theorem digitsValue_zeros_append (count : Nat) (digits : List Char) :
    digitsValue (List.replicate count '0' ++ digits) = digitsValue digits := by
  rw [digitsValue_append, digitsValue_zeros, ← digitsValue_eq]

/-- Each zero after the digits is a factor of ten. -/
theorem digitsValue_append_zeros (digits : List Char) (count : Nat) :
    digitsValue (digits ++ List.replicate count '0') = 10 ^ count * digitsValue digits := by
  rw [digitsValue_append, Nat.ofDigitChars_replicate_zero]

theorem digitsValue_toDigits (n : Nat) : digitsValue (Nat.toDigits 10 n) = n := by
  rw [digitsValue_eq, Nat.ofDigitChars_ten_toDigits]

theorem isDigits_toDigits (n : Nat) : IsDigits (Nat.toDigits 10 n) :=
  ⟨Nat.toDigits_ne_nil, fun _ hc => Nat.isDigit_of_mem_toDigits (by decide) (by decide) hc⟩

theorem isDigit_of_mem_zeros (count : Nat) : ∀ c ∈ List.replicate count '0', c.isDigit = true := by
  intro c hc
  rw [List.eq_of_mem_replicate hc]
  decide

theorem isDigits_zero : IsDigits ['0'] :=
  ⟨List.cons_ne_nil _ _, isDigit_of_mem_zeros 1⟩

theorem IsDigits.append_right (h : IsDigits digits) (hrest : ∀ c ∈ rest, c.isDigit = true) :
    IsDigits (digits ++ rest) :=
  ⟨List.append_ne_nil_of_left_ne_nil h.ne_nil rest, List.forall_mem_append.mpr ⟨h.isDigit, hrest⟩⟩

theorem IsDigits.readDigits? (h : IsDigits digits) :
    readDigits? digits = some (digitsValue digits) := by
  have hall : digits.all Char.isDigit = true := List.all_eq_true.mpr h.isDigit
  have hsome : digits.isEmpty = false := by simpa using h.ne_nil
  rw [Decimal.readDigits?, hall, hsome]
  rfl

/-- A digit is no sign. -/
theorem splitSign_of_digit {c : Char} (hc : c.isDigit = true) (rest : List Char) :
    splitSign (c :: rest) = (false, c :: rest) := by
  unfold splitSign
  split
  · rename_i hminus
    cases hminus
    exact absurd hc (by decide)
  · rename_i hplus
    cases hplus
    exact absurd hc (by decide)
  · rfl

theorem IsDigits.splitSign (h : IsDigits digits) : splitSign digits = (false, digits) := by
  obtain ⟨c, rest, rfl⟩ := List.exists_cons_of_ne_nil h.ne_nil
  exact splitSign_of_digit (h.isDigit c List.mem_cons_self) rest

/-! ### Characters -/

/-- Whether a character may stand in a number, or in what is written for one that has no digits. -/
def isNumeric (c : Char) : Bool :=
  c.isDigit || ['-', '.', 'e', 'i', 'n', 'f', 'N', 'a'].contains c

/-- A text that a number can have. -/
structure Numeral (text : List Char) : Prop where
  /-- There is something to read. -/
  ne_nil : text ≠ []
  /-- It is made of what numbers are made of. -/
  numeric : text.all isNumeric = true

theorem all_isNumeric (h : ∀ c ∈ digits, c.isDigit = true) : digits.all isNumeric = true := by
  refine List.all_eq_true.mpr fun c hc => ?_
  rw [isNumeric, h c hc, Bool.true_or]

theorem IsDigits.numeral (h : IsDigits digits) : Numeral digits :=
  ⟨h.ne_nil, all_isNumeric h.isDigit⟩

theorem Numeral.append {front text : List Char} (hfront : front.all isNumeric = true)
    (htext : Numeral text) : Numeral (front ++ text) :=
  ⟨List.append_ne_nil_of_right_ne_nil front htext.ne_nil,
    by rw [List.all_append, hfront, htext.numeric, Bool.and_self]⟩

theorem Numeral.append_right {text back : List Char} (htext : Numeral text)
    (hback : back.all isNumeric = true) : Numeral (text ++ back) :=
  ⟨List.append_ne_nil_of_left_ne_nil htext.ne_nil back,
    by rw [List.all_append, hback, htext.numeric, Bool.and_self]⟩

/-- Digits stay a number with a point among them, and with zeros where digits are missing. -/
theorem numeral_positionalText (h : IsDigits digits) (pointZero : Bool) (point : Int) :
    Numeral (positionalText pointZero digits point) := by
  have hzeros : ∀ count, (List.replicate count '0').all isNumeric = true := fun _ =>
    all_isNumeric (isDigit_of_mem_zeros _)
  unfold positionalText
  split
  · exact Numeral.append (by decide : ['0', '.'].all isNumeric = true)
      (Numeral.append (hzeros _) h.numeral)
  · split
    · refine (h.numeral.append_right (hzeros _)).append_right ?_
      split <;> decide
    · have hparts : (digits.take point.toNat).all isNumeric = true ∧
          (digits.drop point.toNat).all isNumeric = true := by
        rw [← Bool.and_eq_true, ← List.all_append, List.take_append_drop]
        exact h.numeral.numeric
      refine ⟨by simp, ?_⟩
      rw [List.all_append, List.all_cons, hparts.1, hparts.2]
      decide

theorem toList_toString (n : Nat) : (toString n).toList = Nat.toDigits 10 n := String.toList_ofList

theorem numeral_toString (n : Nat) : Numeral (toString n).toList :=
  toList_toString n ▸ (isDigits_toDigits n).numeral

theorem numeral_toString_int (n : Int) : Numeral (toString n).toList := by
  cases n with
  | ofNat n => exact numeral_toString n
  | negSucc n =>
    rw [show toString (Int.negSucc n) = "-" ++ toString (n + 1) from rfl, String.toList_append]
    exact Numeral.append (by decide) (numeral_toString _)

/-- So do they with an exponent after them. -/
theorem numeral_exponentText (h : IsDigits digits) (point : Int) :
    Numeral (exponentText digits point) := by
  have htake : (digits.take 1).all isNumeric = true :=
    all_isNumeric fun c hc => h.isDigit c (List.mem_of_mem_take hc)
  have hdrop : (digits.drop 1).all isNumeric = true :=
    all_isNumeric fun c hc => h.isDigit c (List.mem_of_mem_drop hc)
  have hexponent : ('e' :: (toString (point - 1)).toList).all isNumeric = true :=
    (Numeral.append (by decide : ['e'].all isNumeric = true)
      (numeral_toString_int (point - 1))).numeric
  refine ⟨by simp [exponentText], ?_⟩
  unfold exponentText
  dsimp only
  rw [List.all_append, List.all_append, htake, hexponent]
  split
  · rfl
  · rw [List.all_cons, hdrop]
    decide

/-! ### Decimals -/

/-- What follows the digits of a number is no digit. -/
def EndsDigits (rest : List Char) : Prop := ∀ c ∈ rest.head?, c.isDigit = false

theorem endsDigits_nil : EndsDigits [] := fun _ h => nomatch h

theorem endsDigits_cons {c : Char} (h : c.isDigit = false) (rest : List Char) :
    EndsDigits (c :: rest) := by
  rintro _ ⟨⟩
  exact h

theorem takeWhile_isDigit (hdigits : ∀ c ∈ digits, c.isDigit = true) (hrest : EndsDigits rest) :
    (digits ++ rest).takeWhile Char.isDigit = digits := by
  rw [List.takeWhile_append_of_pos hdigits]
  cases rest with
  | nil => exact List.append_nil digits
  | cons c rest =>
    rw [List.takeWhile_cons_of_neg (by simpa using hrest c rfl), List.append_nil]

theorem dropWhile_isDigit (hdigits : ∀ c ∈ digits, c.isDigit = true) (hrest : EndsDigits rest) :
    (digits ++ rest).dropWhile Char.isDigit = rest := by
  rw [List.dropWhile_append_of_pos hdigits]
  cases rest with
  | nil => rfl
  | cons c rest => exact List.dropWhile_cons_of_neg (by simpa using hrest c rfl)

/-- A decimal with a point is read with the digits on both sides of it. -/
theorem readDecimal?_point (hwhole : ∀ c ∈ whole, c.isDigit = true)
    (hfraction : ∀ c ∈ fraction, c.isDigit = true) (hsome : whole ++ fraction ≠ [])
    (hrest : EndsDigits rest) :
    readDecimal? (whole ++ '.' :: (fraction ++ rest)) = (readExponent? rest).map fun exponent =>
      ⟨digitsValue (whole ++ fraction), exponent - fraction.length⟩ := by
  have hpoint : EndsDigits ('.' :: (fraction ++ rest)) := endsDigits_cons (by decide) _
  have hdigits : IsDigits (whole ++ fraction) :=
    ⟨hsome, List.forall_mem_append.mpr ⟨hwhole, hfraction⟩⟩
  rw [readDecimal?, takeWhile_isDigit hwhole hpoint, dropWhile_isDigit hwhole hpoint, splitFraction,
    takeWhile_isDigit hfraction hrest, dropWhile_isDigit hfraction hrest]
  dsimp only
  rw [hdigits.readDigits?]
  cases readExponent? rest <;> rfl

/-- A decimal without a point is a whole number, exponent apart. -/
theorem readDecimal?_whole (hwhole : IsDigits whole) (hrest : EndsDigits rest)
    (hpoint : ∀ c ∈ rest.head?, c ≠ '.') :
    readDecimal? (whole ++ rest) = (readExponent? rest).map fun exponent =>
      ⟨digitsValue whole, exponent⟩ := by
  have hsplit : splitFraction rest = ([], rest) := by
    unfold splitFraction
    split
    · exact absurd rfl (hpoint '.' rfl)
    · rfl
  rw [readDecimal?, takeWhile_isDigit hwhole.isDigit hrest, dropWhile_isDigit hwhole.isDigit hrest,
    hsplit]
  dsimp only
  rw [List.append_nil, hwhole.readDigits?]
  cases readExponent? rest <;> simp

/-- A text that starts with a digit and is read as a decimal of some value. -/
structure IsText (cs : List Char) (value : ℚ) : Prop where
  /-- It starts with a digit. -/
  head : ∃ c rest, cs = c :: rest ∧ c.isDigit = true
  /-- It is read. -/
  read : ∃ d, readDecimal? cs = some d ∧ d.value = value

theorem IsDigits.exists_cons (h : IsDigits digits) (rest : List Char) :
    ∃ c rest', digits ++ rest = c :: rest' ∧ c.isDigit = true := by
  obtain ⟨c, digits', rfl⟩ := List.exists_cons_of_ne_nil h.ne_nil
  exact ⟨c, digits' ++ rest, rfl, h.isDigit c List.mem_cons_self⟩

theorem IsDigits.isText (h : IsDigits digits) : IsText digits (digitsValue digits) := by
  have hread := readDecimal?_whole h endsDigits_nil (fun _ h => nomatch h)
  rw [List.append_nil] at hread
  refine ⟨?_, _, hread, ?_⟩
  · simpa using h.exists_cons []
  · simp [Scientific.value]

/-- Whole digits, a point and more digits. -/
theorem isText_point (hwhole : IsDigits whole) (hfraction : ∀ c ∈ fraction, c.isDigit = true) :
    IsText (whole ++ '.' :: fraction)
      (digitsValue (whole ++ fraction) * 10 ^ (-(fraction.length : Int))) := by
  have hread := readDecimal?_point hwhole.isDigit hfraction
    (List.append_ne_nil_of_left_ne_nil hwhole.ne_nil fraction) endsDigits_nil
  rw [List.append_nil] at hread
  refine ⟨hwhole.exists_cons _, _, hread, ?_⟩
  simp [Scientific.value]

/-! ### Layouts -/

/-- Digits of which all are after the point. -/
theorem IsDigits.isText_after (h : IsDigits digits) (zeros : Nat) :
    IsText ('0' :: '.' :: (List.replicate zeros '0' ++ digits))
      (digitsValue digits * 10 ^ (-((zeros + digits.length : Nat) : Int))) := by
  have hfraction : ∀ c ∈ List.replicate zeros '0' ++ digits, c.isDigit = true :=
    List.forall_mem_append.mpr ⟨isDigit_of_mem_zeros zeros, h.isDigit⟩
  have hvalue := digitsValue_zeros_append (1 + zeros) digits
  rw [List.replicate_add, List.append_assoc] at hvalue
  have htext := isText_point isDigits_zero hfraction
  rwa [show ['0'] = List.replicate 1 '0' from rfl, hvalue, List.length_append,
    List.length_replicate] at htext

/-- Digits of which all are before the point. -/
theorem IsDigits.isText_before (h : IsDigits digits) (pointZero : Bool) :
    IsText (digits ++ (if pointZero then ['.', '0'] else [])) (digitsValue digits) := by
  split
  · have htext := isText_point h isDigits_zero.isDigit
    have hzero : digitsValue (digits ++ ['0']) = 10 ^ 1 * digitsValue digits :=
      digitsValue_append_zeros digits 1
    rw [hzero, List.length_singleton] at htext
    convert htext using 1
    push_cast
    field_simp
  · rw [List.append_nil]
    exact h.isText

/-- Digits with the point somewhere between them. -/
theorem IsDigits.isText_between (h : IsDigits digits) {place : Nat} (hpos : 0 < place) :
    IsText (digits.take place ++ '.' :: digits.drop place)
      (digitsValue digits * 10 ^ (-((digits.length - place : Nat) : Int))) := by
  have hwhole : IsDigits (digits.take place) :=
    ⟨by simpa using ⟨hpos.ne', h.ne_nil⟩, fun c hc => h.isDigit c (List.mem_of_mem_take hc)⟩
  have hfraction : ∀ c ∈ digits.drop place, c.isDigit = true :=
    fun c hc => h.isDigit c (List.mem_of_mem_drop hc)
  have htext := isText_point hwhole hfraction
  rwa [List.take_append_drop, List.length_drop] at htext

/-- **Positional notation** has the value of its digits, the point standing where it is said to. -/
theorem positionalText_isText (h : IsDigits digits) (pointZero : Bool) (point : Int) :
    IsText (positionalText pointZero digits point)
      (digitsValue digits * 10 ^ (point - digits.length)) := by
  rcases le_or_gt point 0 with hsmall | hpos
  · have htext := h.isText_after (-point).toNat
    rw [positionalText, if_pos hsmall]
    rwa [show -(((-point).toNat + digits.length : Nat) : Int) = point - digits.length by omega]
      at htext
  rw [positionalText, if_neg (by omega)]
  rcases le_or_gt (digits.length : Int) point with hlarge | hinside
  · obtain ⟨zeros, hzeros⟩ : ∃ zeros : Nat, point = digits.length + zeros :=
      ⟨(point - digits.length).toNat, by omega⟩
    have hfilled := h.append_right (isDigit_of_mem_zeros zeros)
    have htext := hfilled.isText_before pointZero
    rw [digitsValue_append_zeros, Nat.cast_mul, mul_comm, Nat.cast_pow] at htext
    rw [if_pos hlarge, show point.toNat - digits.length = zeros by omega,
      show point - digits.length = zeros by omega, zpow_natCast]
    exact htext
  · have htext := h.isText_between (by omega : 0 < point.toNat)
    rw [if_neg (by omega)]
    rwa [show -((digits.length - point.toNat : Nat) : Int) = point - digits.length by omega]
      at htext

theorem readExponent?_toString (exponent : Int) :
    readExponent? ('e' :: (toString exponent).toList) = some exponent := by
  have hmark : 'e'.toLower = 'e' := by decide
  rw [readExponent?, if_pos hmark]
  cases exponent with
  | ofNat n =>
    have hdigits := isDigits_toDigits n
    have hsign := hdigits.splitSign
    rw [show toString (Int.ofNat n) = toString n from rfl, toList_toString, hsign]
    dsimp only
    rw [hdigits.readDigits?, digitsValue_toDigits]
    rfl
  | negSucc n =>
    rw [show toString (Int.negSucc n) = "-" ++ toString (n + 1) from rfl, String.toList_append,
      toList_toString, show "-".toList = ['-'] from rfl, List.singleton_append, splitSign]
    dsimp only
    rw [(isDigits_toDigits (n + 1)).readDigits?, digitsValue_toDigits]
    rfl

/-- **Notation with an exponent** has the same value. -/
theorem exponentText_isText (h : IsDigits digits) (point : Int) :
    IsText (exponentText digits point) (digitsValue digits * 10 ^ (point - digits.length)) := by
  obtain ⟨first, fraction, rfl⟩ := List.exists_cons_of_ne_nil h.ne_nil
  have hexponent := readExponent?_toString (point - 1)
  have hends : EndsDigits ('e' :: (toString (point - 1)).toList) := endsDigits_cons (by decide) _
  obtain ⟨hfirst, hfraction⟩ := List.forall_mem_cons.mp h.isDigit
  have hhead : IsDigits [first] := ⟨List.cons_ne_nil _ _, by simpa using hfirst⟩
  have hvalue : point - (first :: fraction).length = point - 1 - fraction.length := by
    rw [List.length_cons]
    omega
  unfold exponentText
  simp only [List.drop_succ_cons, List.drop_zero, List.take_succ_cons, List.take_zero]
  split_ifs with hempty
  · obtain rfl := List.isEmpty_iff.mp hempty
    refine ⟨⟨first, _, rfl, hfirst⟩, ⟨digitsValue [first], point - 1⟩, ?_, ?_⟩
    · rw [List.append_nil, readDecimal?_whole hhead hends (by rintro _ ⟨⟩; decide), hexponent]
      rfl
    · rw [hvalue, Scientific.value, List.length_nil, Nat.cast_zero, sub_zero]
  · refine ⟨⟨first, _, rfl, hfirst⟩, ⟨digitsValue (first :: fraction), point - 1 - fraction.length⟩,
      ?_, ?_⟩
    · have hread := readDecimal?_point hhead.isDigit hfraction
        (List.append_ne_nil_of_left_ne_nil hhead.ne_nil fraction) hends
      rw [hexponent] at hread
      exact hread
    · rw [hvalue, Scientific.value]

/-! ### Numbers -/

/-- What is dropped at the end of a decimal's digits are zeros. -/
theorem exists_dropped_zeros (digits : List Char) :
    ∃ count, digits =
      (digits.reverse.dropWhile (· == '0')).reverse ++ List.replicate count '0' := by
  have hzeros : ∀ c ∈ digits.reverse.takeWhile (· == '0'), c = '0' :=
    fun c hc => by simpa using List.mem_takeWhile_imp hc
  refine ⟨(digits.reverse.takeWhile (· == '0')).length, ?_⟩
  rw [← List.reverse_replicate, ← List.eq_replicate_of_mem hzeros, ← List.reverse_append,
    List.takeWhile_append_dropWhile, List.reverse_reverse]

/-- The significant digits of a decimal have its value. -/
theorem Scientific.significant_value (d : Scientific) :
    IsDigits d.significant.1 ∧
      (digitsValue d.significant.1 : ℚ) * 10 ^ (d.significant.2 - d.significant.1.length) =
        d.value := by
  have hdigits := isDigits_toDigits d.coefficient
  have hcoefficient := digitsValue_toDigits d.coefficient
  obtain ⟨count, hcount⟩ := exists_dropped_zeros (Nat.toDigits 10 d.coefficient)
  unfold significant
  dsimp only
  generalize ((Nat.toDigits 10 d.coefficient).reverse.dropWhile (· == '0')).reverse = kept at *
  split_ifs with hempty
  · obtain rfl := List.isEmpty_iff.mp hempty
    rw [List.nil_append] at hcount
    rw [hcount, digitsValue_zeros] at hcoefficient
    refine ⟨isDigits_zero, ?_⟩
    rw [show digitsValue ['0'] = 0 from rfl, value, ← hcoefficient]
    simp
  · refine ⟨⟨by simpa using hempty, fun c hc => hdigits.isDigit c ?_⟩, ?_⟩
    · rw [hcount]
      exact List.mem_append_left _ hc
    · rw [hcount, digitsValue_append_zeros] at hcoefficient
      rw [hcount, List.length_append, List.length_replicate, value, ← hcoefficient]
      push_cast
      rw [show (kept.length : Int) + count + d.exponent - kept.length = count + d.exponent by omega,
        zpow_add₀ (by norm_num), zpow_natCast]
      ring

/-- **The text of a magnitude** is read as a decimal that reads back as the magnitude. -/
theorem Magnitude.text_isText (style : NumberStyle) (m : Magnitude) :
    IsText (m.text style).toList (m.shortest style.tie).value := by
  obtain ⟨hdigits, hvalue⟩ := (m.shortest style.tie).significant_value
  rw [Magnitude.text, String.toList_ofList, ← hvalue]
  split
  · exact positionalText_isText hdigits _ _
  · exact exponentText_isText hdigits _

/-- What a text says rounds to a number. The sign of a zero may be lost. -/
inductive Figure.RoundsTo : Figure → Number → Prop where
  /-- A decimal in the interval of the number, with the same sign. -/
  | finite {negative : Bool} {d : Scientific} {m : Magnitude} :
      m.readsBack d = true → RoundsTo (.decimal negative d) (.finite negative m)
  /-- A zero, with any sign. -/
  | zero {negative negative' : Bool} {d : Scientific} {m : Magnitude} :
      d.coefficient = 0 → m.significand = 0 →
      RoundsTo (.decimal negative d) (.finite negative' m)
  /-- The same infinity. -/
  | infinite (negative : Bool) : RoundsTo (.infinite negative) (.infinite negative)
  /-- Not a number either. -/
  | nan : RoundsTo .nan .nan

theorem toLower_of_isDigit {c : Char} (h : c.isDigit = true) : c.toLower = c := by
  have hle : c.val ≤ '9'.val := by simpa using (Bool.and_eq_true_iff.mp h).2
  refine dif_neg fun hupper => ?_
  exact absurd (UInt32.le_trans hupper.1 hle) (by decide)

/-- A text that starts with a digit is none of the words. -/
theorem Figure.readUnsigned?_of_digit {c : Char} (hc : c.isDigit = true) (rest : List Char)
    (negative : Bool) :
    Figure.readUnsigned? negative (c :: rest) =
      (readDecimal? (c :: rest)).map (.decimal negative) := by
  have hword : ∀ word : String, word.toList.head?.any Char.isDigit = false →
      String.ofList ((c :: rest).map Char.toLower) ≠ word := by
    rintro _ hnot rfl
    rw [String.toList_ofList, List.map_cons, toLower_of_isDigit hc, List.head?_cons,
      Option.any_some, hc] at hnot
    cases hnot
  unfold Figure.readUnsigned?
  rw [if_neg (not_or.mpr ⟨hword "inf" (by decide), hword "infinity" (by decide)⟩),
    if_neg (hword "nan" (by decide))]

/-- A sign in front of a digit is read as one, and so is the lack of it. -/
theorem Figure.read?_signText {c : Char} (hc : c.isDigit = true) (rest : List Char)
    (negative : Bool) :
    Figure.read? ((signText negative).toList ++ c :: rest) =
      (readDecimal? (c :: rest)).map (.decimal negative) := by
  rw [← Figure.readUnsigned?_of_digit hc]
  cases negative with
  | true => rfl
  | false =>
    rw [signText, if_neg Bool.false_ne_true, String.toList_empty, List.nil_append, Figure.read?,
      splitSign_of_digit hc]

theorem IsText.read? {value : ℚ} (h : IsText cs value) (negative : Bool) :
    ∃ d, Figure.read? ((signText negative).toList ++ cs) = some (.decimal negative d) ∧
      d.value = value := by
  obtain ⟨⟨c, rest, rfl, hc⟩, d, hread, hvalue⟩ := h
  refine ⟨d, ?_, hvalue⟩
  rw [Figure.read?_signText hc, hread]
  rfl

/-- A whole number is read as it is. -/
theorem Figure.read?_toString (n : Nat) :
    Figure.read? (toString n).toList = some (.decimal false ⟨n, 0⟩) := by
  have hdigits := isDigits_toDigits n
  have hread := readDecimal?_whole hdigits endsDigits_nil (fun _ h => nomatch h)
  obtain ⟨c, rest, hcons, hc⟩ := hdigits.exists_cons []
  rw [hcons, digitsValue_toDigits] at hread
  rw [toList_toString, ← List.append_nil (Nat.toDigits 10 n), hcons]
  have hsign := Figure.read?_signText hc rest false
  rw [hread] at hsign
  exact hsign

/-- **The text of every number** is read as what rounds to it. -/
theorem Number.exists_figure_text (style : NumberStyle) (hinfinity : style.infinity = "inf")
    (hnan : style.nan = "NaN") (number : Number) :
    ∃ f, Figure.read? (number.text style).toList = some f ∧ f.RoundsTo number := by
  cases number with
  | finite negative m =>
    rw [Number.text, String.toList_append]
    obtain ⟨d, hread, hvalue⟩ := (m.text_isText style).read? negative
    refine ⟨_, hread, .finite ?_⟩
    rw [Magnitude.readsBack_congr hvalue]
    exact m.readsBack_shortest style.tie
  | infinite negative =>
    rw [Number.text, hinfinity]
    refine ⟨.infinite negative, ?_, .infinite negative⟩
    cases negative <;> decide
  | nan =>
    rw [Number.text, hnan]
    exact ⟨.nan, by decide, .nan⟩

/-- And it is made of what numbers are made of. -/
theorem Number.numeral_text (style : NumberStyle) (hinfinity : style.infinity = "inf")
    (hnan : style.nan = "NaN") (number : Number) : Numeral (number.text style).toList := by
  have hsign : ∀ negative, (signText negative).toList.all isNumeric = true := by decide
  cases number with
  | finite negative m =>
    rw [Number.text, String.toList_append, Magnitude.text, String.toList_ofList]
    refine Numeral.append (hsign negative) ?_
    have hdigits := (m.shortest style.tie).significant_value.1
    split
    · exact numeral_positionalText hdigits _ _
    · exact numeral_exponentText hdigits _
  | infinite negative =>
    rw [Number.text, String.toList_append, hinfinity]
    exact Numeral.append (hsign negative) ⟨by decide, by decide⟩
  | nan =>
    rw [Number.text, hnan]
    exact ⟨by decide, by decide⟩

end TrafficSheet.Decimal
