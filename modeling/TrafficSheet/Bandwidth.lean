import Std.Data.TreeMap
import TrafficSheet.Datagram
import TrafficSheet.Frame

/-!
# Volume over time

Packets and bytes are counted per second. For a chart the seconds from the first to the
last are divided evenly into slots.

Seconds are words of 64 bits with a sign, and so is the number of seconds from the first to the
last, which may be too large for one. `Bandwidth.binsInWords` is the division that is computed;
`Bandwidth.bins` is the same division with numbers of any size.

What is not formalized: the words of the counters themselves, and the places of an array that
is divided into more slots than a machine has memory for.
-/

namespace TrafficSheet

/-- The traffic of some span of time. -/
structure Volume where
  /-- How many packets there were. -/
  packets : Nat
  /-- How many bytes they had. -/
  bytes : Nat
  /-- How many of the bytes were in packets that carried a segment. -/
  segmentBytes : Nat
  deriving DecidableEq

namespace Volume

/-- No traffic. -/
def zero : Volume := ⟨0, 0, 0⟩

instance : Add Volume where
  add a b := ⟨a.packets + b.packets, a.bytes + b.bytes, a.segmentBytes + b.segmentBytes⟩

/-- The traffic of one packet. -/
def ofPacket (p : Packet) (segment? : Option Segment) : Volume where
  packets := 1
  bytes := p.capturedLength
  segmentBytes := if segment?.isSome then p.capturedLength else 0

end Volume

/-- Traffic per second. -/
structure Bandwidth where
  /-- The traffic of each second that had any. -/
  seconds : Std.TreeMap Int Volume
  /-- The traffic of all seconds. -/
  totals : Volume

namespace Bandwidth

/-- No traffic. -/
def empty : Bandwidth := ⟨∅, .zero⟩

/-- Counts a packet, with the segment that it carried. -/
def count (b : Bandwidth) (p : Packet) (segment? : Option Segment) : Bandwidth :=
  let volume := Volume.ofPacket p segment?
  { seconds := b.seconds.alter p.time.seconds fun known? => some (known?.getD .zero + volume)
    totals := b.totals + volume }

/-- The first and the last second that had traffic. -/
def span? (b : Bandwidth) : Option (Int × Int) :=
  match b.seconds.minKey?, b.seconds.maxKey? with
  | some first, some last => some (first, last)
  | _, _ => none

/-- The slot of a second, where `covered` seconds from `first` on are divided into `slots`. -/
def slotOf (first : Int) (covered slots : Nat) (second : Int) : Nat :=
  (second - first).toNat * slots / covered

/-- The seconds from the first to the last in at most `wanted` slots of equal length, but
in at least one, and in no more than there are seconds. -/
def bins (wanted : Nat) (b : Bandwidth) : List Volume :=
  match b.span? with
  | none => []
  | some (first, last) =>
    let covered := (last - first + 1).toNat
    let slots := max 1 (min wanted covered)
    (b.seconds.toList.foldl
      (fun (filled : Array Volume) entry =>
        filled.modify (slotOf first covered slots entry.1) (· + entry.2))
      (Array.replicate slots Volume.zero)).toList

/-! ### Slots in words -/

/-- The number of seconds from the first to the last, as it is kept. -/
def coveredInWords (o : Overflow) (first last : Int) : Except Abort Nat := do
  let between ← o.signed .subtract (last - first)
  let covered ← o.signed .add (between + 1)
  return widened covered

/-- The slot of a second, as it is computed. -/
def slotInWords (o : Overflow) (first : Int) (covered slots : Nat) (second : Int) :
    Except Abort Nat := do
  let since ← o.signed .subtract (second - first)
  let scaled ← o.unsigned 0x100000000000000000000000000000000 .multiply (widened since * slots)
  return scaled / covered % 0x10000000000000000

/-- Adds the traffic of a second to its slot. -/
def addToSlot (o : Overflow) (first : Int) (covered slots : Nat) (filled : Array Volume)
    (entry : Int × Volume) : Except Abort (Array Volume) := do
  let index ← slotInWords o first covered slots entry.1
  if index < filled.size then return filled.modify index (· + entry.2)
  else throw (.outOfBounds filled.size index)

/-- The seconds from the first to the last in at most `wanted` slots, as they are computed. There
is no number of slots that is at least one and at most none. -/
def binsInWords (o : Overflow) (wanted : Nat) (b : Bandwidth) : Except Abort (List Volume) :=
  match b.span? with
  | none => return []
  | some (first, last) => do
    let covered ← coveredInWords o first last
    if covered = 0 then throw .emptyRange
    else
      let slots := max 1 (min wanted covered)
      let filled ← b.seconds.toList.foldlM (addToSlot o first covered slots)
        (Array.replicate slots Volume.zero)
      return filled.toList

end Bandwidth

end TrafficSheet
