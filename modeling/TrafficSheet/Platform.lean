/-!
# The machine that the program runs on

Two things about the machine show in what the program does. Numbers are kept in words, and when
the program is built it is settled what becomes of a number that does not fit its word: either the
program stops, or it goes on with what is left in the word (`Overflow`). And times are shown in the
time of the place (`Zone`).

Words are formalized where a number can get too large for one: for the seconds that a chart spans,
for amounts that are added up label by label, and for the length of a frame. All other counters
count packets of a capture and are natural numbers. Where the program stops in the middle of its
work, only the reason is formalized (`Abort`), not what the machine makes of it.
-/

namespace TrafficSheet

/-! ### Stopping -/

/-- What is computed from two numbers. -/
inductive Operation where
  /-- Their sum. -/
  | add
  /-- Their difference. -/
  | subtract
  /-- Their product. -/
  | multiply
  deriving DecidableEq

/-- The name of an operation. -/
def Operation.name : Operation → String
  | .add => "add"
  | .subtract => "subtract"
  | .multiply => "multiply"

/-- Why the program stops in the middle of its work. -/
inductive Abort where
  /-- A number does not fit its word. -/
  | overflow (operation : Operation)
  /-- A number is to be brought into a range that is empty. -/
  | emptyRange
  /-- An array has no such place. -/
  | outOfBounds (size index : Nat)
  /-- A line is to have a width that is negative, or no number. -/
  | lineWidth
  deriving DecidableEq

/-- The text of a reason. -/
def Abort.message : Abort → String
  | .overflow operation => "attempt to " ++ operation.name ++ " with overflow"
  | .emptyRange => "assertion failed: min <= max"
  | .outOfBounds size index =>
    "index out of bounds: the len is " ++ toString size ++ " but the index is " ++ toString index
  | .lineWidth => "line width must be positive"

/-! ### Words -/

/-- What becomes of a number that does not fit the word that it is kept in. -/
inductive Overflow where
  /-- The program stops. -/
  | stops
  /-- The program goes on with what is left in the word. -/
  | wraps
  deriving DecidableEq

namespace Overflow

/-- What is kept of a number in a word of 64 bits with a sign. -/
def signed (o : Overflow) (operation : Operation) (n : Int) : Except Abort Int :=
  if -0x8000000000000000 ≤ n ∧ n < 0x8000000000000000 then .ok n
  else
    match o with
    | .stops => .error (.overflow operation)
    | .wraps => .ok (Int.bmod n 0x10000000000000000)

/-- What is kept of a number in a word without a sign, which all numbers below `size` fit. -/
def unsigned (o : Overflow) (size : Nat) (operation : Operation) (n : Nat) : Except Abort Nat :=
  if n < size then .ok n
  else
    match o with
    | .stops => .error (.overflow operation)
    | .wraps => .ok (n % size)

variable {o : Overflow} {operation : Operation} {size : Nat}

theorem signed_of_fits {n : Int} (hlow : -0x8000000000000000 ≤ n) (hhigh : n < 0x8000000000000000) :
    o.signed operation n = .ok n :=
  if_pos ⟨hlow, hhigh⟩

theorem unsigned_of_fits {n : Nat} (h : n < size) : o.unsigned size operation n = .ok n :=
  if_pos h

theorem signed_wraps (operation : Operation) (n : Int) :
    wraps.signed operation n = .ok (Int.bmod n 0x10000000000000000) := by
  rw [signed]
  split
  · exact congrArg Except.ok (Int.bmod_eq_of_le_mul_two (by omega) (by omega)).symm
  · rfl

theorem unsigned_wraps (size : Nat) (operation : Operation) (n : Nat) :
    wraps.unsigned size operation n = .ok (n % size) := by
  rw [unsigned]
  split
  · exact congrArg Except.ok (Nat.mod_eq_of_lt ‹_›).symm
  · rfl

end Overflow

/-- A word of 64 bits with a sign, read as one of 128 bits without. -/
def widened (n : Int) : Nat := (n % 0x100000000000000000000000000000000).toNat

theorem widened_of_nonneg {n : Int} (hlow : 0 ≤ n) (hhigh : n < 0x8000000000000000) :
    widened n = n.toNat := by
  rw [widened, Int.emod_eq_of_lt hlow (by omega)]

theorem widened_of_neg {n : Int} (hlow : -0x8000000000000000 ≤ n) (hhigh : n < 0) :
    widened n = 0x100000000000000000000000000000000 - n.natAbs := by
  rw [widened]
  omega

/-- A number that fits a word with a sign is widened to itself, -/
theorem widened_bmod_of_lt {n : Int} (hlow : 0 ≤ n) (hhigh : n < 0x8000000000000000) :
    widened (Int.bmod n 0x10000000000000000) = n.toNat := by
  rw [Int.bmod_eq_of_le_mul_two (by omega) (by omega)]
  exact widened_of_nonneg hlow hhigh

/-- and one that is taken for a negative number is widened to a very large one. -/
theorem widened_bmod_of_ge {n : Int} (hlow : 0x8000000000000000 ≤ n)
    (hhigh : n < 0x10000000000000000) :
    widened (Int.bmod n 0x10000000000000000) =
      0x100000000000000000000000000000000 - (0x10000000000000000 - n).toNat := by
  have hwrapped : Int.bmod n 0x10000000000000000 = n - 0x10000000000000000 := by
    rw [Int.bmod]
    omega
  rw [hwrapped, widened_of_neg (by omega) (by omega)]
  omega

/-! ### Time -/

/-- By how many seconds the time of the place is ahead of universal time, at each second. -/
structure Zone where
  /-- The seconds that are added to universal time. -/
  ahead : Int → Int

/-- The zone of universal time. -/
def Zone.universal : Zone := ⟨fun _ => 0⟩

/-- What shows of the machine. -/
structure Platform where
  /-- What becomes of numbers that do not fit their words. -/
  overflow : Overflow
  /-- The time of the place. -/
  zone : Zone

end TrafficSheet
