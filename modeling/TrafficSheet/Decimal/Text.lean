import TrafficSheet.Decimal.Binary

/-!
# Texts of numbers

A number is written with a fixed number of places, or with the fewest digits that read back. With
a fixed number of places the exact binary value is rounded once, a tie going to the even
neighbour; the sign of a negative number stays even when all its digits are rounded away. The
fewest digits come from `Magnitude.shortest`; a `NumberStyle` holds what a format decides beyond
them: where positional notation ends, whether a whole number keeps a `.0`, and what is written for
the numbers that have no digits.
-/

namespace TrafficSheet.Decimal

/-- The quotient `num / den` rounded to the nearest integer, a half to the even one. -/
def roundHalfEven (num den : Nat) : Nat :=
  let quotient := num / den
  let remainder := num % den
  if 2 * remainder < den then quotient
  else if den < 2 * remainder then quotient + 1
  else quotient + quotient % 2

/-- The magnitude in units of `10 ^ -places`, rounded to the nearest whole number of them. -/
def Magnitude.roundedUnits (places : Nat) (m : Magnitude) : Nat :=
  roundHalfEven (m.significand * power 2 m.exponent * power 10 places) (power 2 (-m.exponent))

/-- A natural number's digits, led by zeros up to the given width. -/
def zeroPadded (width n : Nat) : String :=
  let digits := Nat.toDigits 10 n
  String.ofList (List.replicate (width - digits.length) '0' ++ digits)

/-- The text of `units * 10 ^ -places`. -/
def unitsText (places units : Nat) : String :=
  if places = 0 then toString units
  else toString (units / power 10 places) ++ "." ++ zeroPadded places (units % power 10 places)

/-- A minus sign for a negative number, nothing otherwise. -/
def signText (negative : Bool) : String := if negative then "-" else ""

/-- The number with exactly `places` digits after the point. -/
def Number.fixed (places : Nat) : Number → String
  | .finite negative m => signText negative ++ unitsText places (m.roundedUnits places)
  | .infinite negative => signText negative ++ "inf"
  | .nan => "NaN"

/-! ### How the digits of a number are laid out -/

/-- The decisions of a number format. -/
structure NumberStyle where
  /-- Whether a number whose point stands after this many digits is written positionally. -/
  positional : Int → Bool
  /-- Whether a whole number ends in `.0`. -/
  pointZero : Bool
  /-- Which of two equally near decimals is taken. -/
  tie : Tie
  /-- What stands for an infinity, sign apart. -/
  infinity : String
  /-- What stands for not-a-number. -/
  nan : String

/-- The significant digits of a decimal, and how many of them stand before the point. -/
def Scientific.significant (d : Scientific) : List Char × Int :=
  let digits := Nat.toDigits 10 d.coefficient
  let kept := (digits.reverse.dropWhile (· == '0')).reverse
  if kept.isEmpty then (['0'], 1) else (kept, digits.length + d.exponent)

/-- Digits with a point after the first `point` of them, and zeros where digits are missing. -/
def positionalText (pointZero : Bool) (digits : List Char) (point : Int) : List Char :=
  if point ≤ 0 then
    '0' :: '.' :: (List.replicate (-point).toNat '0' ++ digits)
  else if (digits.length : Int) ≤ point then
    digits ++ List.replicate (point.toNat - digits.length) '0'
      ++ (if pointZero then ['.', '0'] else [])
  else
    digits.take point.toNat ++ '.' :: digits.drop point.toNat

/-- One digit before the point, and the exponent after the mark `e`. -/
def exponentText (digits : List Char) (point : Int) : List Char :=
  let fraction := digits.drop 1
  digits.take 1 ++ (if fraction.isEmpty then [] else '.' :: fraction)
    ++ 'e' :: (toString (point - 1)).toList

/-- The text of a magnitude. -/
def Magnitude.text (style : NumberStyle) (m : Magnitude) : String :=
  let (digits, point) := (m.shortest style.tie).significant
  String.ofList <|
    if style.positional point then positionalText style.pointZero digits point
    else exponentText digits point

/-- The text of a number: the fewest digits that read back, laid out by the style. -/
def Number.text (style : NumberStyle) : Number → String
  | .finite negative m => signText negative ++ m.text style
  | .infinite negative => signText negative ++ style.infinity
  | .nan => style.nan

/-- Always positional, and whole numbers without a point. -/
def NumberStyle.plain : NumberStyle where
  positional _ := true
  pointZero := false
  tie := .up
  infinity := "inf"
  nan := "NaN"

end TrafficSheet.Decimal
