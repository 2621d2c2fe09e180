import TrafficSheet.Decimal.Binary
import TrafficSheet.Decimal.Text

/-!
# Reading numbers

A text says a figure: a decimal with a sign, an infinity or not-a-number (`Figure.read?`). A decimal
is read as the double nearest to it, a tie going to the even significand. The decimal is a quotient
of whole numbers; dividing it by the power of two that leaves a quotient of fifty-three bits, and
rounding once, gives the significand.

On the command line whole numbers are decimal digits, with a plus sign in front at most. Real
numbers may have either sign, a point and an exponent; the words for infinity and for not-a-number
are known in any case.
-/

namespace TrafficSheet.Decimal

/-- The least exponent of a double's significand. -/
def lowestExponent : Int := -1074

/-- The exponent at which the quotient `num / den` has a significand of fifty-three bits, or
the least one there is. -/
def significandExponent (num den : Nat) : Int :=
  let guess : Int := (num.log2 : Int) - den.log2 - 53
  let fits := num * power 2 (-guess) < power 2 53 * den * power 2 guess
  max lowestExponent (if fits then guess else guess + 1)

/-- The bits of the double nearest to the quotient `num / den`, those of infinity if it is
past the largest double. A significand that is rounded up to the next power of two carries
into the exponent. -/
def nearestBits (num den : Nat) : Nat :=
  let exponent := significandExponent num den
  let significand := roundHalfEven (num * power 2 (-exponent)) (den * power 2 exponent)
  let stored := (exponent - lowestExponent).toNat * power 2 52 + significand
  min stored (2047 * power 2 52)

namespace Scientific

/-- How many digits stand before the point. -/
def magnitude (d : Scientific) : Int := (Nat.toDigits 10 d.coefficient).length + d.exponent

/-- The double nearest to a decimal. Decimals far beyond the largest double are infinite,
and those far below the least one zero. -/
def nearest (d : Scientific) : Float :=
  if d.coefficient = 0 ∨ d.magnitude < -400 then 0.0
  else if 400 < d.magnitude then 1.0 / 0.0
  else
    .ofBits (UInt64.ofNat
      (nearestBits (d.coefficient * power 10 d.exponent) (power 10 (-d.exponent))))

end Scientific

/-! ### Numbers on the command line -/

/-- The number that decimal digits spell. -/
def digitsValue (digits : List Char) : Nat :=
  digits.foldl (fun value c => value * 10 + (c.toNat - '0'.toNat)) 0

/-- Reads decimal digits, of which there has to be one. -/
def readDigits? (cs : List Char) : Option Nat :=
  if !cs.isEmpty && cs.all Char.isDigit then some (digitsValue cs) else none

/-- Reads a whole number that is at most `most`. -/
def readNat? (most : Nat) (text : String) : Option Nat :=
  let digits :=
    match text.toList with
    | '+' :: rest => rest
    | cs => cs
  (readDigits? digits).filter (· ≤ most)

/-- Splits off a sign, and tells whether it was a minus. -/
def splitSign : List Char → Bool × List Char
  | '-' :: rest => (true, rest)
  | '+' :: rest => (false, rest)
  | cs => (false, cs)

/-- Reads what follows the digits of a number: nothing, or an exponent. -/
def readExponent? : List Char → Option Int
  | [] => some 0
  | mark :: rest =>
    if mark.toLower = 'e' then
      let (negative, digits) := splitSign rest
      (readDigits? digits).map fun n => if negative then -(n : Int) else n
    else none

/-- The digits after a point, if there is one, and what follows them. -/
def splitFraction : List Char → List Char × List Char
  | '.' :: rest => (rest.takeWhile Char.isDigit, rest.dropWhile Char.isDigit)
  | cs => ([], cs)

/-- Reads a decimal without a sign. It needs a digit before or after its point. -/
def readDecimal? (cs : List Char) : Option Scientific := do
  let whole := cs.takeWhile Char.isDigit
  let (fraction, rest) := splitFraction (cs.dropWhile Char.isDigit)
  let coefficient ← readDigits? (whole ++ fraction)
  let exponent ← readExponent? rest
  return ⟨coefficient, exponent - fraction.length⟩

/-- What the text of a real number says. -/
inductive Figure where
  /-- A decimal, and whether there is a minus sign in front of it. -/
  | decimal (negative : Bool) (d : Scientific)
  /-- An infinity. -/
  | infinite (negative : Bool)
  /-- Not a number. -/
  | nan
  deriving DecidableEq

namespace Figure

/-- Reads a real number without a sign, as one with the given sign. -/
def readUnsigned? (negative : Bool) (cs : List Char) : Option Figure :=
  let word := String.ofList (cs.map Char.toLower)
  if word = "inf" ∨ word = "infinity" then some (.infinite negative)
  else if word = "nan" then some .nan
  else (readDecimal? cs).map (.decimal negative)

/-- Reads a real number. -/
def read? (cs : List Char) : Option Figure :=
  let (negative, rest) := splitSign cs
  readUnsigned? negative rest

/-- The double nearest to what is said. -/
def nearest : Figure → Float
  | .decimal negative d => if negative then -d.nearest else d.nearest
  | .infinite negative => if negative then -1.0 / 0.0 else 1.0 / 0.0
  | .nan => 0.0 / 0.0

end Figure

/-- Reads a real number as the double nearest to it. -/
def readFloat? (text : String) : Option Float := (Figure.read? text.toList).map (·.nearest)

end TrafficSheet.Decimal
