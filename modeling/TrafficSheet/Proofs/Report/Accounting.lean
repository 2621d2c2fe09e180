import Mathlib
import TrafficSheet.Bytes.Lemmas
import TrafficSheet.Proofs.AddressTree.Runs
import TrafficSheet.Proofs.Datagram.Headers
import TrafficSheet.Proofs.KeyedSums
import TrafficSheet.Proofs.Report.Components

/-!
# The components of a report agree

Every component of a report counts those packets that it is about, and no others. What each
of them counts is said here in terms of the packets alone: how many have a type, how many
carry a datagram, how many of these a segment. From this it follows that the numbers of the
components agree with each other, whatever the packets are.
-/

namespace TrafficSheet

open Std

/-! ### What a packet carries -/

namespace Packet

/-- Whether a packet carries a datagram of version 4. -/
def carriesIpv4 (p : Packet) : Bool := (Datagram.ofIpv4? p.datagramBytes).isSome

/-- Whether a packet carries a datagram of version 6. -/
def carriesIpv6 (p : Packet) : Bool := (Datagram.ofIpv6? p.datagramBytes).isSome

/-- Whether a packet carries a datagram of either version. -/
def carriesDatagram (p : Packet) : Bool := p.carriesIpv4 || p.carriesIpv6

/-- Whether a packet carries a datagram whose payload is announced as a segment, and is one. -/
def carriesSegment (p : Packet) : Bool :=
  p.datagram?.any fun d =>
    d.protocol = Datagram.segmentProtocol && (Segment.decode? d.payload).isSome

/-- The address on one side of the datagram that a packet carries, if it carries one. -/
def address? (side : Side) (p : Packet) : Option Bytes := p.datagram?.map (·.address side)

theorem isSome_datagram? (p : Packet) : p.datagram?.isSome = p.carriesDatagram :=
  Option.isSome_or

theorem isSome_segment? (p : Packet) : p.segment?.isSome = p.carriesSegment := by
  rw [segment?, Option.isSome_bind, carriesSegment]
  congr 1
  funext d
  rw [Datagram.segment?]
  split_ifs with hprotocol <;> simp [hprotocol]

theorem carriesDatagram_of_carriesSegment {p : Packet} (h : p.carriesSegment = true) :
    p.carriesDatagram = true := by
  rw [← isSome_datagram?, Option.isSome_iff_exists]
  obtain ⟨d, hd, -⟩ := (Option.any_eq_true ..).mp h
  exact ⟨d, hd⟩

/-- The version stands in one place, so it is not both. -/
theorem not_carries_both (p : Packet) : ¬(p.carriesIpv4 = true ∧ p.carriesIpv6 = true) := by
  rintro ⟨h4, h6⟩
  have hfour := (Datagram.isSome_ofIpv4?_iff.mp h4).2.1
  have hsix := (Datagram.isSome_ofIpv6?_iff.mp h6).2
  omega

end Packet

namespace Datagram

theorem length_address_of_ofIpv4? {data : Bytes} {d : Datagram} (h : ofIpv4? data = some d)
    (side : Side) : (d.address side).length = 4 := by
  rw [ofIpv4?, Option.ite_none_right_eq_some] at h
  obtain ⟨⟨hlength, -⟩, hd⟩ := h
  obtain rfl := Option.some.inj hd
  cases side <;> exact Bytes.length_field (by omega)

theorem length_address_of_ofIpv6? {data : Bytes} {d : Datagram} (h : ofIpv6? data = some d)
    (side : Side) : (d.address side).length = 16 := by
  rw [ofIpv6?, Option.ite_none_right_eq_some] at h
  obtain ⟨⟨hlength, -⟩, hd⟩ := h
  obtain rfl := Option.some.inj hd
  cases side <;> exact Bytes.length_field (by omega)

/-- An address has four bytes, or sixteen if the datagram is of version 6. -/
theorem length_address {data : Bytes} {d : Datagram} (h : decode? data = some d) (side : Side) :
    (d.address side).length = 4 ∨
      (d.address side).length = 16 ∧ (ofIpv6? data).isSome = true := by
  obtain h4 | ⟨-, h6⟩ := Option.or_eq_some_iff.mp h
  · exact Or.inl (length_address_of_ofIpv4? h4 side)
  · exact Or.inr ⟨length_address_of_ofIpv6? h6 side, Option.isSome_of_eq_some h6⟩

theorem address_ne_nil {data : Bytes} {d : Datagram} (h : decode? data = some d)
    (side : Side) : d.address side ≠ [] := by
  refine List.ne_nil_of_length_pos ?_
  rcases length_address h side with hfour | ⟨hsixteen, -⟩ <;> omega

end Datagram

/-! ### Types -/

namespace TransportCounts

/-- Counting a type adds one to it. -/
theorem foldl_increment (types : List EtherType) :
    types.foldl increment ∅ = (types.map fun type => (type, 1)).foldl addAt ∅ := by
  rw [List.foldl_map]
  rfl

/-- A type has an entry once it was counted. -/
theorem getElem?_foldl_increment (types : List EtherType) (type : EtherType) :
    (types.foldl increment ∅)[type]? =
      if types.count type = 0 then none else some (types.count type) := by
  rw [foldl_increment]
  exact getElem?_foldl_addAt_one types type

theorem total_eq_sumOver (counts : TransportCounts) : counts.total = sumOver id counts := by
  rw [total, sumOver, List.sum_eq_foldr, List.foldr_map]
  rfl

theorem total_foldl_increment (types : List EtherType) :
    total (types.foldl increment ∅) = types.length := by
  rw [total_eq_sumOver, foldl_increment, sumOver_foldl_addAt, List.map_map]
  simp [Function.comp_def]

end TransportCounts

/-! ### Ports -/

theorem Tally.sum_foldl_countPort (side : Side) (t : Tally) (segments : List Segment) :
    (segments.foldl (countPort side) t).sum = t.sum + segments.length := by
  induction segments generalizing t with
  | nil => rfl
  | cons s segments ih =>
    rw [List.foldl_cons, ih, List.length_cons, Nat.add_comm segments.length, ← Nat.add_assoc]
    rfl

/-! ### Samples -/

namespace Waterfall

/-- Of the packets counted as many were kept as the bound allows, and the others dropped. -/
structure Holds (w : Waterfall) (packets : Nat) : Prop where
  /-- The bound is filled before a packet is dropped. -/
  kept : w.samples.size = min packets w.limit
  /-- Every packet is kept or dropped. -/
  all : w.samples.size + w.dropped = packets

theorem holds_empty (limit : Nat) : (empty limit).Holds 0 := ⟨(Nat.zero_min _).symm, rfl⟩

theorem limit_count (w : Waterfall) (p : Packet) (segment? : Option Segment) :
    (w.count p segment?).limit = w.limit := by
  rw [count]
  split_ifs <;> rfl

theorem Holds.count {w : Waterfall} {packets : Nat} (hw : w.Holds packets) (p : Packet)
    (segment? : Option Segment) : (w.count p segment?).Holds (packets + 1) := by
  obtain ⟨hkept, hall⟩ := hw
  rw [Waterfall.count]
  split_ifs with hfull
  · constructor
    · show w.samples.size = min (packets + 1) w.limit
      omega
    · show w.samples.size + (w.dropped + 1) = packets + 1
      omega
  · constructor
    · show (w.samples.push _).size = min (packets + 1) w.limit
      rw [Array.size_push]
      omega
    · show (w.samples.push _).size + w.dropped = packets + 1
      rw [Array.size_push]
      omega

theorem Holds.foldl {w : Waterfall} {n : Nat} (hw : w.Holds n) (packets : List Packet) :
    (packets.foldl (fun w p => w.count p p.segment?) w).Holds (n + packets.length) ∧
      (packets.foldl (fun w p => w.count p p.segment?) w).limit = w.limit := by
  induction packets generalizing w n with
  | nil => exact ⟨hw, rfl⟩
  | cons p packets ih =>
    obtain ⟨hholds, hlimit⟩ := ih (hw.count p p.segment?)
    rw [List.length_cons, Nat.add_comm packets.length, ← Nat.add_assoc]
    exact ⟨hholds, hlimit.trans (limit_count ..)⟩

end Waterfall

/-! ### The whole report -/

namespace Report

/-- The numbers of a report's components agree with the packets, and so with each other. -/
structure Agrees (r : Report) (packets : List Packet) : Prop where
  /-- Every packet was counted. -/
  packetCount : r.packetCount = packets.length
  /-- Every captured byte was counted. -/
  byteCount : r.byteCount = (packets.map (·.capturedLength)).sum
  /-- The bandwidth has all packets. -/
  bandwidthPackets : r.bandwidth.totals.packets = r.packetCount
  /-- The bandwidth has all bytes. -/
  bandwidthBytes : r.bandwidth.totals.bytes = r.byteCount
  /-- The bytes of segments are those of the packets that carry one. -/
  bandwidthSegmentBytes : r.bandwidth.totals.segmentBytes =
    ((packets.filter (·.carriesSegment)).map (·.capturedLength)).sum
  /-- The totals of the bandwidth are the sum of its seconds, field by field. -/
  bandwidthSeconds :
    r.bandwidth.totals.packets = (r.bandwidth.seconds.toList.map (·.2.packets)).sum ∧
    r.bandwidth.totals.bytes = (r.bandwidth.seconds.toList.map (·.2.bytes)).sum ∧
    r.bandwidth.totals.segmentBytes = (r.bandwidth.seconds.toList.map (·.2.segmentBytes)).sum
  /-- Samples are kept up to the bound. -/
  sampled : r.waterfall.samples.size = min r.packetCount 10000
  /-- Every packet is a sample or was dropped. -/
  sampledOrDropped : r.waterfall.samples.size + r.waterfall.dropped = r.packetCount
  /-- A type's count is the number of packets of that type; there is none for zero. -/
  types : ∀ type, r.transports[type]? =
    if packets.countP (·.etherType? = some type) = 0 then none
    else some (packets.countP (·.etherType? = some type))
  /-- The types together count the packets that have one. -/
  typesTotal : r.transports.total = packets.countP (·.etherType?.isSome)
  /-- A packet carries a datagram of one version at most. -/
  oneVersion : ∀ p ∈ packets, ¬(p.carriesIpv4 = true ∧ p.carriesIpv6 = true)
  /-- Both trees count the packets that carry a datagram. -/
  addresses : ∀ side, (r.addresses side).total =
    packets.countP fun p => p.carriesIpv4 || p.carriesIpv6
  /-- Both tallies of ports count the packets that carry a segment. -/
  ports : ∀ side, (r.ports side).sum = packets.countP (·.carriesSegment)
  /-- Segments are in datagrams, and datagrams in packets. -/
  nested : ∀ side, (r.ports side).sum ≤ (r.addresses side).total ∧
    (r.addresses side).total ≤ r.packetCount

section Run

variable (source : String) (addressLimit : Nat) (packets : List Packet)

theorem packetCount_run :
    ((empty source addressLimit).countAll packets).packetCount = packets.length :=
  (packetCount_countAll ..).trans (Nat.zero_add _)

theorem byteCount_run :
    ((empty source addressLimit).countAll packets).byteCount =
      (packets.map (·.capturedLength)).sum :=
  (byteCount_countAll ..).trans (Nat.zero_add _)

/-- The tree of one side has counted the addresses of the datagrams on that side. -/
theorem addresses_run (side : Side) :
    ((empty source addressLimit).countAll packets).addresses side =
      (AddressTree.empty addressLimit).addAll (packets.filterMap (·.address? side)) := by
  have hempty : (empty source addressLimit).addresses side = .empty addressLimit := by
    cases side <;> rfl
  rw [addresses_countAll, hempty]
  rfl

/-- The tally of one side has counted the ports of the segments on that side. -/
theorem ports_run (side : Side) :
    ((empty source addressLimit).countAll packets).ports side =
      (packets.filterMap (·.segment?)).foldl (Tally.countPort side) .empty := by
  have hempty : (empty source addressLimit).ports side = .empty := by cases side <;> rfl
  rw [ports_countAll, hempty]

theorem total_addresses_run (side : Side) :
    (((empty source addressLimit).countAll packets).addresses side).total =
      packets.countP (·.carriesDatagram) := by
  rw [addresses_run, (AddressTree.holds_addAll addressLimit _).total, List.countP_filterMap]
  refine List.countP_congr fun p _ => ?_
  rw [Packet.address?, ← p.isSome_datagram?]
  cases hd : p.datagram? with
  | none => simp
  | some d => simpa using Datagram.address_ne_nil hd side

theorem sum_ports_run (side : Side) :
    (((empty source addressLimit).countAll packets).ports side).sum =
      packets.countP (·.carriesSegment) := by
  rw [ports_run, Tally.sum_foldl_countPort, List.length_filterMap_eq_countP]
  simp only [Packet.isSome_segment?]
  exact Nat.zero_add _

theorem getElem?_transports_run (type : EtherType) :
    ((empty source addressLimit).countAll packets).transports[type]? =
      if packets.countP (·.etherType? = some type) = 0 then none
      else some (packets.countP (·.etherType? = some type)) := by
  have hcount : (packets.filterMap (·.etherType?)).count type =
      packets.countP (·.etherType? = some type) := by
    rw [List.count_filterMap]
    exact List.countP_congr fun p _ => by simp
  rw [transports_countAll, ← hcount]
  exact TransportCounts.getElem?_foldl_increment _ type

theorem total_transports_run :
    ((empty source addressLimit).countAll packets).transports.total =
      packets.countP (·.etherType?.isSome) := by
  rw [transports_countAll, ← List.length_filterMap_eq_countP]
  exact TransportCounts.total_foldl_increment _

/-- The totals of the bandwidth, field by field, are sums over the packets. -/
theorem totals_bandwidth_run {f : Volume → Nat} (hf : Volume.AddsUp f) :
    f ((empty source addressLimit).countAll packets).bandwidth.totals =
      (packets.map fun p => f (Volume.ofPacket p p.segment?)).sum := by
  rw [bandwidth_countAll, Bandwidth.totals_countAll, hf.2, hf.sum, List.map_map]
  exact (congrArg (· + _) hf.1).trans (Nat.zero_add _)

theorem balanced_bandwidth_run :
    ((empty source addressLimit).countAll packets).bandwidth.Balanced := by
  rw [bandwidth_countAll]
  exact Bandwidth.balanced_empty.countAll packets

theorem waterfall_holds_run :
    ((empty source addressLimit).countAll packets).waterfall.Holds packets.length ∧
      ((empty source addressLimit).countAll packets).waterfall.limit = 10000 := by
  obtain ⟨hholds, hlimit⟩ :=
    (Waterfall.holds_empty Waterfall.defaultLimit).foldl packets
  rw [waterfall_countAll]
  exact ⟨Nat.zero_add packets.length ▸ hholds, hlimit⟩

end Run

end Report

end TrafficSheet
