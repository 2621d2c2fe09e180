import TrafficSheet.Bandwidth
import TrafficSheet.Tally
import TrafficSheet.Clock
import TrafficSheet.Quantity
import TrafficSheet.Waterfall

/-!
# The statistics of a capture

A report counts packets one by one. Every packet counts towards the number of packets and
bytes, the range of times, the bandwidth and the waterfall. Its type counts towards the
transports if the frame has one, its addresses towards the two trees if it carries a
datagram, and its ports towards the two tallies if that carries a segment.
-/

namespace TrafficSheet

/-- The statistics of the packets counted so far. -/
structure Report where
  /-- The name of what the packets were read from. -/
  source : String
  /-- How many packets there were. -/
  packetCount : Nat
  /-- How many bytes they had. -/
  byteCount : Nat
  /-- The range of their times. -/
  range : TimeRange
  /-- How many of them had each type. -/
  transports : TransportCounts
  /-- Their volume over time. -/
  bandwidth : Bandwidth
  /-- The addresses that they were sent from. -/
  sources : AddressTree
  /-- The addresses that they were sent to. -/
  destinations : AddressTree
  /-- The ports that segments were sent from. -/
  sourcePorts : Tally
  /-- The ports that segments were sent to. -/
  destinationPorts : Tally
  /-- Samples of them. -/
  waterfall : Waterfall

namespace Report

/-- A report on no packets. -/
def empty (source : String) (addressLimit : Nat) : Report where
  source
  packetCount := 0
  byteCount := 0
  range := .empty
  transports := ∅
  bandwidth := .empty
  sources := .empty addressLimit
  destinations := .empty addressLimit
  sourcePorts := .empty
  destinationPorts := .empty
  waterfall := .empty Waterfall.defaultLimit

/-! ### Counting packets -/

/-- Counts the type of a frame, if it has one. -/
def countType (counts : TransportCounts) : Option EtherType → TransportCounts
  | some type => counts.increment type
  | none => counts

/-- Counts an address of a datagram, if there is one. -/
def countAddress (side : Side) (tree : AddressTree) : Option Datagram → AddressTree
  | some datagram => tree.add (datagram.address side)
  | none => tree

/-- Counts a port of a segment, if there is one. -/
def countPort (side : Side) (ports : Tally) : Option Segment → Tally
  | some segment => ports.countPort side segment
  | none => ports

/-- Counts a packet with the datagram and the segment that it carries. -/
def countDecoded (r : Report) (p : Packet) (datagram? : Option Datagram)
    (segment? : Option Segment) : Report where
  source := r.source
  packetCount := r.packetCount + 1
  byteCount := r.byteCount + p.capturedLength
  range := r.range.extend p.time
  transports := countType r.transports p.etherType?
  bandwidth := r.bandwidth.count p segment?
  sources := countAddress .source r.sources datagram?
  destinations := countAddress .destination r.destinations datagram?
  sourcePorts := countPort .source r.sourcePorts segment?
  destinationPorts := countPort .destination r.destinationPorts segment?
  waterfall := r.waterfall.count p segment?

/-- Counts a packet. -/
def count (r : Report) (p : Packet) : Report := r.countDecoded p p.datagram? p.segment?

/-- Counts packets one after another. -/
def countAll (r : Report) (packets : List Packet) : Report := packets.foldl count r

/-! ### What is listed -/

/-- The addresses on one side. -/
def addresses : Side → Report → AddressTree
  | .source, r => r.sources
  | .destination, r => r.destinations

/-- The ports on one side. -/
def ports : Side → Report → Tally
  | .source, r => r.sourcePorts
  | .destination, r => r.destinationPorts

/-- The first addresses on one side. -/
def topAddresses (side : Side) (r : Report) : RankedList := (r.addresses side).ranked

/-- The first ports on one side. -/
def topPorts (side : Side) (r : Report) : RankedList := (r.ports side).ranked RankedList.limit

/-- The shares of the types. -/
def shares (r : Report) : TransportShares := .ofCounts r.transports

end Report

end TrafficSheet
