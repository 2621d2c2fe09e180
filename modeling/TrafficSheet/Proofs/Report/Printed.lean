import TrafficSheet.Proofs.Json
import TrafficSheet.Report.Summary

/-!
# What is printed of a summary

The summary of a report is printed as one object. What is read back from it has a field for each
part of the summary, by its name and in a fixed order, and in each field what the part is
(`Summary.isPrintedAs_indented`). Counts are read back as they are, and shares as decimals that
round to them.
-/

namespace TrafficSheet

namespace Json

theorem treesOf_map {β : Type} (value : β → Value) (items : List β) :
    treesOf (items.map value) = items.map fun item => (value item).tree := by
  induction items with
  | nil => rfl
  | cons item items ih => rw [List.map_cons, treesOf, ih, List.map_cons]

theorem fieldTreesOf_map {β : Type} (name : β → String) (value : β → Value) (items : List β) :
    fieldTreesOf (items.map fun item => (name item, value item)) =
      items.map fun item => (name item, (value item).tree) := by
  induction items with
  | nil => rfl
  | cons item items ih => rw [List.map_cons, fieldTreesOf, ih, List.map_cons]

namespace Tree

/-- The fields of an object. -/
def fields : Tree → List (String × Tree)
  | .object fields => fields
  | _ => []

/-- The value of a field. -/
def field? (t : Tree) (name : String) : Option Tree := t.fields.lookup name

end Tree

end Json

open Json

/-- A ranked list as it is read. -/
def listingTree (l : List ListedEntry) : Tree :=
  .list (l.map fun e => .object
    [("label", .text e.label), ("count", .whole e.count), ("percentage", .whole e.percentage)])

/-- The shares of the types as they are read. -/
inductive TransportShares.IsToldBy (s : TransportShares) : Tree → Prop where
  /-- Four fields. -/
  | object {ipv4 ipv6 arp other : Tree} :
      ipv4.IsReal s.ipv4 → ipv6.IsReal s.ipv6 → arp.IsReal s.arp → other.IsReal s.other →
      s.IsToldBy (.object [("ipv4", ipv4), ("ipv6", ipv6), ("arp", arp), ("other", other)])

/-- What is read tells a summary: it has these fields in this order, and in each of them this. -/
structure Summary.IsToldBy (s : Summary) (t : Tree) : Prop where
  /-- The names of all fields. -/
  names : t.fields.map (·.1) =
    ["source", "packet_count", "byte_count", "byte_size", "earliest", "latest", "transports",
      "transport_counts", "top_source_addresses", "top_destination_addresses", "top_source_ports",
      "top_destination_ports"]
  /-- The name of what the packets were read from. -/
  source : t.field? "source" = some (.text s.source)
  /-- How many packets there were. -/
  packetCount : t.field? "packet_count" = some (.whole s.packetCount)
  /-- How many bytes they had. -/
  byteCount : t.field? "byte_count" = some (.whole s.byteCount)
  /-- The number of bytes with a unit. -/
  byteSize : t.field? "byte_size" = some (.text s.byteSize)
  /-- The earliest time. -/
  earliest : t.field? "earliest" = some (.text s.earliest)
  /-- The latest time. -/
  latest : t.field? "latest" = some (.text s.latest)
  /-- The shares of the types. -/
  transports : ∃ shares, t.field? "transports" = some shares ∧ s.transports.IsToldBy shares
  /-- How many packets had each type. -/
  transportCounts : t.field? "transport_counts" =
    some (.object (s.transportCounts.map fun (name, count) => (name, .whole count)))
  /-- The first addresses that packets were sent from. -/
  sourceAddresses : t.field? "top_source_addresses" = some (listingTree s.sourceAddresses)
  /-- The first addresses that packets were sent to. -/
  destinationAddresses :
    t.field? "top_destination_addresses" = some (listingTree s.destinationAddresses)
  /-- The first ports that segments were sent from. -/
  sourcePorts : t.field? "top_source_ports" = some (listingTree s.sourcePorts)
  /-- The first ports that segments were sent to. -/
  destinationPorts : t.field? "top_destination_ports" = some (listingTree s.destinationPorts)

/-- A text from which a summary is read back. -/
def Summary.IsPrintedAs (s : Summary) (text : String) : Prop :=
  ∃ t, Json.read? text = some t ∧ s.IsToldBy t

theorem tree_listingToJson (l : List ListedEntry) : (listingToJson l).tree = listingTree l := by
  rw [listingToJson, Value.tree, treesOf_map, listingTree]
  rfl

theorem TransportShares.isToldBy_tree (s : TransportShares) : s.IsToldBy s.toJson.tree :=
  .object (isReal_realTree _) (isReal_realTree _) (isReal_realTree _) (isReal_realTree _)

theorem Summary.isToldBy_tree (s : Summary) : s.IsToldBy s.toJson.tree where
  names := rfl
  source := rfl
  packetCount := rfl
  byteCount := rfl
  byteSize := rfl
  earliest := rfl
  latest := rfl
  transports := ⟨_, rfl, s.transports.isToldBy_tree⟩
  transportCounts := by
    have hcounts := fieldTreesOf_map (·.1) (fun p => Value.whole p.2) s.transportCounts
    exact congrArg (some <| Tree.object ·) hcounts
  sourceAddresses := congrArg some (tree_listingToJson s.sourceAddresses)
  destinationAddresses := congrArg some (tree_listingToJson s.destinationAddresses)
  sourcePorts := congrArg some (tree_listingToJson s.sourcePorts)
  destinationPorts := congrArg some (tree_listingToJson s.destinationPorts)

/-- **The summary is read back** from what is printed of it, on a line that is ended. -/
theorem Summary.isPrintedAs_indented (s : Summary) : s.IsPrintedAs (s.toJson.indented ++ "\n") :=
  ⟨_, Json.read?_render .indented s.toJson (List.all_eq_true.mp (by decide)), s.isToldBy_tree⟩

end TrafficSheet
