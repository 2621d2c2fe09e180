/-!
# Bytes

Headers are read from lists of bytes by offset and width, most significant byte first or
last, and written the same way.
-/

namespace TrafficSheet

/-- A run of bytes, such as a frame or a file. -/
abbrev Bytes := List UInt8

/-- Which end of a number is written first. -/
inductive ByteOrder where
  /-- The most significant byte first. -/
  | big
  /-- The least significant byte first. -/
  | little
  deriving DecidableEq

namespace Bytes

/-- The number that bytes spell, most significant byte first. -/
def bigValue (bytes : Bytes) : Nat :=
  bytes.foldl (fun value byte => value * 256 + byte.toNat) 0

/-- The number that bytes spell, least significant byte first. -/
def littleValue (bytes : Bytes) : Nat :=
  bytes.foldr (fun byte value => byte.toNat + 256 * value) 0

/-- The number that bytes spell in the given order. -/
def value : ByteOrder → Bytes → Nat
  | .big => bigValue
  | .little => littleValue

/-- The low `width` bytes of a number, least significant byte first. -/
def ofLittle : Nat → Nat → Bytes
  | 0, _ => []
  | width + 1, n => UInt8.ofNat (n % 256) :: ofLittle width (n / 256)

/-- The low `width` bytes of a number in the given order. -/
def ofValue (order : ByteOrder) (width n : Nat) : Bytes :=
  match order with
  | .little => ofLittle width n
  | .big => (ofLittle width n).reverse

/-- The `width` bytes from `offset` on, or as many of them as there are. -/
def field (offset width : Nat) (bytes : Bytes) : Bytes := (bytes.drop offset).take width

/-- The byte at an offset, read as a number; zero beyond the end. -/
def byteAt (offset : Nat) (bytes : Bytes) : Nat := (bytes.getD offset 0).toNat

/-- The two hexadecimal digits of a byte. -/
def hexPair (byte : UInt8) : String :=
  let digits := Nat.toDigits 16 byte.toNat
  String.ofList (List.replicate (2 - digits.length) '0' ++ digits)

end Bytes

end TrafficSheet
