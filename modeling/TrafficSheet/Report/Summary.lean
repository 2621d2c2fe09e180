import TrafficSheet.Json
import TrafficSheet.Quantity
import TrafficSheet.Report.Basic

/-!
# The summary of a report

A summary holds what the page of a report says in words and numbers. Its ranked lists are
cut to as many entries as are asked for.
-/

namespace TrafficSheet

/-- An entry of a ranked list. -/
structure ListedEntry where
  /-- The label. -/
  label : String
  /-- Its count. -/
  count : Nat
  /-- The percentage that the count makes of the whole ranking, rounded down. -/
  percentage : Nat
  deriving DecidableEq

/-- The first entries of a ranked list, at most `listed` of them. -/
def RankedList.listing (listed : Nat) (l : RankedList) : List ListedEntry :=
  (l.entries.take listed).map fun (label, count) =>
    { label, count, percentage := Quantity.percentage count l.total }

/-- What is said about a capture. -/
structure Summary where
  /-- The name of what the packets were read from. -/
  source : String
  /-- How many packets there were. -/
  packetCount : Nat
  /-- How many bytes they had. -/
  byteCount : Nat
  /-- The number of bytes with a unit. -/
  byteSize : String
  /-- The earliest time. -/
  earliest : String
  /-- The latest time. -/
  latest : String
  /-- The shares of the types. -/
  transports : TransportShares
  /-- How many packets had each type, by the type's name. -/
  transportCounts : List (String × Nat)
  /-- The first addresses that packets were sent from. -/
  sourceAddresses : List ListedEntry
  /-- The first addresses that packets were sent to. -/
  destinationAddresses : List ListedEntry
  /-- The first ports that segments were sent from. -/
  sourcePorts : List ListedEntry
  /-- The first ports that segments were sent to. -/
  destinationPorts : List ListedEntry

/-- The name of a type: its number in hexadecimal. -/
def EtherType.name (type : EtherType) : String :=
  let digits := Nat.toDigits 16 type
  "0x" ++ String.ofList (List.replicate (4 - digits.length) '0' ++ digits)

/-- The summary of a report at a place, with at most `listed` entries in each ranked list. -/
def Report.summary (zone : Zone) (listed : Nat) (r : Report) : Summary where
  source := r.source
  packetCount := r.packetCount
  byteCount := r.byteCount
  byteSize := Quantity.byteSize r.byteCount
  earliest := r.range.earliest.text zone
  latest := r.range.latest.text zone
  transports := r.shares
  transportCounts := r.transports.toList.map fun (type, count) => (EtherType.name type, count)
  sourceAddresses := (r.topAddresses .source).listing listed
  destinationAddresses := (r.topAddresses .destination).listing listed
  sourcePorts := (r.topPorts .source).listing listed
  destinationPorts := (r.topPorts .destination).listing listed

/-! ### The summary as data -/

/-- Shares as named numbers. -/
def TransportShares.toJson (s : TransportShares) : Json.Value :=
  .object
    [("ipv4", .real s.ipv4), ("ipv6", .real s.ipv6), ("arp", .real s.arp), ("other", .real s.other)]

/-- A listed entry as named values. -/
def ListedEntry.toJson (e : ListedEntry) : Json.Value :=
  .object [("label", .text e.label), ("count", .whole e.count), ("percentage", .whole e.percentage)]

/-- A listing as a list of objects. -/
def listingToJson (l : List ListedEntry) : Json.Value := .list (l.map (·.toJson))

/-- A summary as named values. -/
def Summary.toJson (s : Summary) : Json.Value :=
  .object
    [("source", .text s.source),
     ("packet_count", .whole s.packetCount),
     ("byte_count", .whole s.byteCount),
     ("byte_size", .text s.byteSize),
     ("earliest", .text s.earliest),
     ("latest", .text s.latest),
     ("transports", s.transports.toJson),
     ("transport_counts",
       .object (s.transportCounts.map fun (name, count) => (name, .whole count))),
     ("top_source_addresses", listingToJson s.sourceAddresses),
     ("top_destination_addresses", listingToJson s.destinationAddresses),
     ("top_source_ports", listingToJson s.sourcePorts),
     ("top_destination_ports", listingToJson s.destinationPorts)]

end TrafficSheet
