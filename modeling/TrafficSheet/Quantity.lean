import Std.Data.TreeMap
import TrafficSheet.Decimal.Text
import TrafficSheet.Frame

/-!
# Amounts and shares in a line of text

Byte amounts in decimal units, whole numbers grouped in threes, and whole percentages.

Packets are counted by the type of what their frames carry. A share is the percentage that one
type makes of all counted packets; whatever is neither of the two versions of the Internet
Protocol nor address resolution goes into one remaining share.
-/

namespace TrafficSheet.Quantity

/-- The decimal units of a byte amount, by power of 1000. -/
def byteUnits : List String := ["B", "KB", "MB", "GB", "TB", "PB", "EB"]

/-- The power of 1000 whose unit suits an amount: the whole part of its logarithm to base
1000, or 0 where that is no unit's. -/
def unitIndex (amount : Float) : Nat :=
  let index := (amount.log10 / 3.0).floor
  if 0.0 ≤ index && index < Float.ofNat byteUnits.length then index.toUInt64.toNat else 0

/-- A byte amount with two places and its unit, such as `1.50 MB`. -/
def byteSize (bytes : Nat) : String :=
  let amount := Float.ofNat bytes
  let index := unitIndex amount
  (Decimal.Number.ofFloat (amount / Float.ofNat (Nat.pow 1000 index))).fixed 2
    ++ " " ++ byteUnits.getD index ""

/-- Puts a comma before every third digit from the end; the digits come last one first. -/
def groupReversed : List Char → List Char
  | a :: b :: c :: d :: rest => a :: b :: c :: ',' :: groupReversed (d :: rest)
  | few => few

/-- A whole number with commas between groups of three digits. -/
def grouped (n : Nat) : String :=
  String.ofList (groupReversed (Nat.toDigits 10 n).reverse).reverse

/-- The percentage that a count makes of a total, rounded down; 0 of nothing. It is kept in
a word of 64 bits, which only a count far above its total exceeds. -/
def percentage (count total : Nat) : Nat :=
  if total = 0 then 0 else count * 100 / total % 0x10000000000000000

end TrafficSheet.Quantity

/-! ### Shares of what frames carry -/

namespace TrafficSheet

/-- How many packets there were of each type. -/
abbrev TransportCounts := Std.TreeMap EtherType Nat

namespace TransportCounts

/-- Counts one packet. -/
def increment (counts : TransportCounts) (type : EtherType) : TransportCounts :=
  counts.alter type fun known? => some (known?.getD 0 + 1)

/-- How many packets there were of one type. -/
def ofType (type : EtherType) (counts : TransportCounts) : Nat := counts.getD type 0

/-- How many packets there were of all types. -/
def total (counts : TransportCounts) : Nat :=
  counts.toList.foldr (fun entry sum => entry.2 + sum) 0

end TransportCounts

/-- The shares of the types, in percent. -/
structure TransportShares where
  /-- Internet Protocol, version 4. -/
  ipv4 : Float
  /-- Internet Protocol, version 6. -/
  ipv6 : Float
  /-- Address resolution. -/
  arp : Float
  /-- All that is none of these. -/
  other : Float

namespace TransportShares

/-- The shares where nothing was counted. -/
def zero : TransportShares := ⟨0.0, 0.0, 0.0, 0.0⟩

/-- The percentage that a count makes of a total. -/
def percent (count : Nat) (total : Float) : Float := Float.ofNat count / total * 100.0

/-- The shares of counts. The last one is computed as what is left of the whole. -/
def ofCounts (counts : TransportCounts) : TransportShares :=
  let ipv4 := counts.ofType .ipv4
  let ipv6 := counts.ofType .ipv6
  let arp := counts.ofType .arp
  let total := Float.ofNat counts.total
  if counts.total = 0 then zero
  else
    { ipv4 := percent ipv4 total
      ipv6 := percent ipv6 total
      arp := percent arp total
      other := (1.0 - Float.ofNat (ipv4 + ipv6 + arp) / total) * 100.0 }

/-- A share with two places and a percent sign. -/
def shareText (share : Float) : String := (Decimal.Number.ofFloat share).fixed 2 ++ "%"

/-- All shares in one line. -/
def line (s : TransportShares) : String :=
  "IPv4 " ++ shareText s.ipv4 ++ " IPv6 " ++ shareText s.ipv6 ++ " ARP " ++ shareText s.arp
    ++ " Other " ++ shareText s.other

end TransportShares

end TrafficSheet
