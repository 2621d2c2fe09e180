
/-!
# Binary floating-point numbers, and the fewest digits that read back

The bits of a binary64 or binary32 number, read as an exact value: a sign and
`significand * 2 ^ exponent`. All text of floating-point numbers is made from this reading in
exact integer arithmetic; nothing is computed in floating point on the way.

The reals that round to a binary number form an interval around it: halfway to the neighbour
below, halfway to the neighbour above, the ends included exactly when the significand is even.
`Magnitude.shortest` looks for a decimal in that interval, first with one digit, then with two,
and so on, and takes the first grid that has one; of two decimals on it the one nearer to the
value.
-/

namespace TrafficSheet.Decimal

/-- The whole number `base ^ exponent`, or one if the exponent is negative. So a quotient of
`power base exponent` and `power base (-exponent)` has the value of any power. -/
def power (base : Nat) (exponent : Int) : Nat := Nat.pow base exponent.toNat

/-- A binary interchange format: how many bits its fraction and its exponent take. -/
structure BinaryFormat where
  /-- Bits of the fraction. -/
  fractionBits : Nat
  /-- Bits of the biased exponent. -/
  exponentBits : Nat
  deriving DecidableEq

/-- The format of `Float`. -/
def BinaryFormat.double : BinaryFormat := ⟨52, 11⟩

/-- The format of `Float32`. -/
def BinaryFormat.single : BinaryFormat := ⟨23, 8⟩

/-- What is added to an exponent before it is stored. -/
def BinaryFormat.bias (f : BinaryFormat) : Nat := power 2 (f.exponentBits - 1) - 1

/-- The magnitude of a finite number, `significand * 2 ^ exponent`. -/
structure Magnitude where
  /-- The whole significand, leading bit included. -/
  significand : Nat
  /-- The power of two that scales it. -/
  exponent : Int
  /-- Whether the next number below is half as far away as the next one above. -/
  narrowBelow : Bool
  deriving DecidableEq

/-- What a bit pattern stands for. -/
inductive Number where
  /-- A finite number. -/
  | finite (negative : Bool) (magnitude : Magnitude)
  /-- An infinity. -/
  | infinite (negative : Bool)
  /-- Not a number. -/
  | nan
  deriving DecidableEq

/-- The number that a bit pattern of the format stands for. -/
def Number.ofBits (f : BinaryFormat) (bits : Nat) : Number :=
  let fraction := bits % power 2 f.fractionBits
  let stored := bits / power 2 f.fractionBits % power 2 f.exponentBits
  let negative := bits / power 2 (f.fractionBits + f.exponentBits) % 2 == 1
  let lowest : Int := 1 - (f.bias : Int) - (f.fractionBits : Int)
  if stored = power 2 f.exponentBits - 1 then
    if fraction = 0 then .infinite negative else .nan
  else if stored = 0 then
    .finite negative ⟨fraction, lowest, false⟩
  else
    .finite negative
      ⟨power 2 f.fractionBits + fraction, lowest + (stored : Int) - 1, fraction == 0 && stored != 1⟩

/-- The exact reading of a double. -/
def Number.ofFloat (x : Float) : Number := .ofBits .double x.toBits.toNat

/-- The exact reading of a single. -/
def Number.ofFloat32 (x : Float32) : Number := .ofBits .single x.toBits.toNat

/-! ### The fewest digits that read back -/

/-- The decimal `coefficient * 10 ^ exponent`. -/
structure Scientific where
  /-- The digits, read as a whole number. -/
  coefficient : Nat
  /-- The power of ten that scales it. -/
  exponent : Int
  deriving DecidableEq

/-- Where two decimals are equally near, which one is taken. -/
inductive Tie where
  /-- The one with the even last digit. -/
  | toEven
  /-- The larger one. -/
  | up
  deriving DecidableEq

/-- Compares `a * 10 ^ i` with `b * 2 ^ j`, exactly. -/
def compareScaled (a : Nat) (i : Int) (b : Nat) (j : Int) : Ordering :=
  compare (a * power 10 i * power 2 (-j)) (b * power 2 j * power 10 (-i))

namespace Magnitude

/-- Whether the decimal lies in the interval of reals that round to this magnitude. -/
def readsBack (m : Magnitude) (d : Scientific) : Bool :=
  let low := 4 * m.significand - (if m.narrowBelow then 1 else 2)
  let high := 4 * m.significand + 2
  let closed := m.significand % 2 == 0
  let fromLow := compareScaled d.coefficient d.exponent low (m.exponent - 2)
  let fromHigh := compareScaled d.coefficient d.exponent high (m.exponent - 2)
  (fromLow == .gt || (closed && fromLow == .eq)) && (fromHigh == .lt || (closed && fromHigh == .eq))

/-- How many whole steps of `10 ^ grid` fit into the magnitude. -/
def stepsOf (m : Magnitude) (grid : Int) : Nat :=
  m.significand * power 2 m.exponent * power 10 (-grid) / (power 2 (-m.exponent) * power 10 grid)

/-- The decimal on the grid of steps `10 ^ grid` that reads back, the nearer one if both
neighbours of the magnitude do. -/
def onGrid? (tie : Tie) (m : Magnitude) (grid : Int) : Option Scientific :=
  let below := m.stepsOf grid
  let lower : Scientific := ⟨below, grid⟩
  let upper : Scientific := ⟨below + 1, grid⟩
  match m.readsBack lower, m.readsBack upper with
  | false, false => none
  | true, false => some lower
  | false, true => some upper
  | true, true =>
    match compareScaled (2 * below + 1) grid (2 * m.significand) m.exponent, tie with
    | .gt, _ => some lower
    | .lt, _ => some upper
    | .eq, .up => some upper
    | .eq, .toEven => some (if below % 2 = 0 then lower else upper)

/-- The least `k` with the magnitude below `10 ^ k`, found from the binary logarithm,
which is off by at most one. -/
def decimalScale (m : Magnitude) : Int :=
  let binary : Int := m.significand.log2 + m.exponent
  let guess := binary * 30103 / 100000
  if compareScaled 1 guess m.significand m.exponent == .gt then guess
  else if compareScaled 1 (guess + 1) m.significand m.exponent == .gt then guess + 1
  else guess + 2

/-- The magnitude itself, which is always a decimal. -/
def exactDecimal (m : Magnitude) : Scientific :=
  ⟨m.significand * power 2 m.exponent * power 5 (-m.exponent), min m.exponent 0⟩

/-- The decimal of fewest digits that reads back. Seventeen digits always suffice. -/
def shortest (tie : Tie) (m : Magnitude) : Scientific :=
  if m.significand = 0 then ⟨0, 0⟩
  else
    let scale := m.decimalScale
    ((List.range 17).findSome? fun (n : Nat) => m.onGrid? tie (scale - 1 - n)).getD m.exactDecimal

end Magnitude

end TrafficSheet.Decimal
