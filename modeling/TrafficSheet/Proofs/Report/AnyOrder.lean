import TrafficSheet.Proofs.AddressTree.Unfolded
import TrafficSheet.Proofs.Ranking
import TrafficSheet.Proofs.Report.Accounting

/-!
# Packets in any order

What a report counts does not depend on the order in which the packets came, and neither do its
rankings of ports (`Report.agree_countAll`). The samples and the range of times do. So may an
address tree: which entries are folded depends on which were there first. But where there are no
more different addresses than the tree may hold, nothing is folded, and then the order does not
matter to it either.
-/

namespace TrafficSheet

open Std

/-! ### Types -/

namespace TransportCounts

theorem equiv_foldl_increment {types types' : List EtherType} (h : types.Perm types') :
    (types.foldl increment ∅).Equiv (types'.foldl increment ∅) := by
  rw [foldl_increment, foldl_increment]
  exact equiv_foldl_addAt (h.map _)

end TransportCounts

/-- The shares depend on what the counts are only. -/
theorem TransportShares.ofCounts_congr {counts counts' : TransportCounts}
    (h : counts.Equiv counts') : ofCounts counts = ofCounts counts' := by
  have htype : ∀ type, counts.ofType type = counts'.ofType type := fun type => h.getD_eq
  have htotal : counts.total = counts'.total := by
    rw [TransportCounts.total, TransportCounts.total, h.toList_eq]
  rw [ofCounts, ofCounts, htype, htype, htype, htotal]

/-! ### Volume over time -/

namespace Bandwidth

/-- Counting a packet adds its volume to the second of its time. -/
theorem seconds_countAll (packets : List Packet) :
    (empty.countAll packets).seconds =
      (packets.map fun p => (p.time.seconds, Volume.ofPacket p p.segment?)).foldl addAt ∅ := by
  rw [countAll_eq, seconds_countEach, List.map_map]
  rfl

variable {b b' : Bandwidth}

theorem span?_congr (h : b.seconds.Equiv b'.seconds) : b.span? = b'.span? := by
  rw [span?, span?, h.minKey?_eq, h.maxKey?_eq]

theorem bins_congr (h : b.seconds.Equiv b'.seconds) (wanted : Nat) :
    b.bins wanted = b'.bins wanted := by
  rw [bins, bins, span?_congr h, h.toList_eq]

theorem binsInWords_congr (h : b.seconds.Equiv b'.seconds) (o : Overflow) (wanted : Nat) :
    b.binsInWords o wanted = b'.binsInWords o wanted := by
  rw [binsInWords, binsInWords, span?_congr h, h.toList_eq]

end Bandwidth

/-! ### The whole report -/

theorem card_distinct_le {addresses : List Bytes} {limit : Nat}
    (h : addresses.toFinset.card ≤ max 1 limit) : (distinct addresses).card ≤ max limit 1 := by
  rw [max_comm]
  exact (Finset.card_le_card (Finset.erase_subset _ _)).trans h

namespace Report

/-- Reports agree on all that is counted, but for the entries of the address trees. -/
structure Agree (r r' : Report) : Prop where
  /-- The number of packets. -/
  packetCount : r.packetCount = r'.packetCount
  /-- The number of bytes. -/
  byteCount : r.byteCount = r'.byteCount
  /-- The types with their counts. -/
  transports : r.transports.toList = r'.transports.toList
  /-- The shares of the types. -/
  shares : r.shares = r'.shares
  /-- The volume of all seconds. -/
  totals : r.bandwidth.totals = r'.bandwidth.totals
  /-- The first and the last second. -/
  span : r.bandwidth.span? = r'.bandwidth.span?
  /-- The volume over time, in any number of slots. -/
  bins : ∀ wanted, r.bandwidth.bins wanted = r'.bandwidth.bins wanted
  /-- The same as it is computed. -/
  binsInWords : ∀ o wanted, r.bandwidth.binsInWords o wanted = r'.bandwidth.binsInWords o wanted
  /-- How many segments had ports. -/
  portSums : ∀ side, (r.ports side).sum = (r'.ports side).sum
  /-- The ranked ports. -/
  topPorts : ∀ side, r.topPorts side = r'.topPorts side
  /-- How many addresses were counted. -/
  addressTotals : ∀ side, (r.addresses side).total = (r'.addresses side).total
  /-- The number of samples. -/
  sampled : r.waterfall.samples.size = r'.waterfall.samples.size
  /-- The number of packets that were not kept. -/
  dropped : r.waterfall.dropped = r'.waterfall.dropped

section Run

variable (source : String) (addressLimit : Nat) {packets packets' : List Packet}

theorem equiv_transports_run (h : packets.Perm packets') :
    ((empty source addressLimit).countAll packets).transports.Equiv
      ((empty source addressLimit).countAll packets').transports := by
  rw [transports_countAll, transports_countAll]
  exact TransportCounts.equiv_foldl_increment (h.filterMap _)

theorem equiv_seconds_run (h : packets.Perm packets') :
    ((empty source addressLimit).countAll packets).bandwidth.seconds.Equiv
      ((empty source addressLimit).countAll packets').bandwidth.seconds := by
  rw [bandwidth_countAll, bandwidth_countAll]
  show (Bandwidth.empty.countAll packets).seconds.Equiv (Bandwidth.empty.countAll packets').seconds
  rw [Bandwidth.seconds_countAll, Bandwidth.seconds_countAll]
  exact equiv_foldl_addAt (h.map _)

theorem totals_bandwidth_perm (h : packets.Perm packets') :
    ((empty source addressLimit).countAll packets).bandwidth.totals =
      ((empty source addressLimit).countAll packets').bandwidth.totals := by
  rw [bandwidth_countAll, bandwidth_countAll, Bandwidth.totals_countAll, Bandwidth.totals_countAll,
    (h.map _).sum_eq]

theorem topPorts_perm (h : packets.Perm packets') (side : Side) :
    ((empty source addressLimit).countAll packets).topPorts side =
      ((empty source addressLimit).countAll packets').topPorts side := by
  rw [topPorts, topPorts, ports_run, ports_run, Tally.foldl_countPort, Tally.foldl_countPort]
  exact Tally.ranked_ofList_perm ((h.filterMap _).map _) _

theorem unfolded_addresses_run (side : Side)
    (hle : (packets.filterMap (·.address? side)).toFinset.card ≤ max 1 addressLimit) :
    (((empty source addressLimit).countAll packets).addresses side).Unfolded := by
  rw [addresses_run]
  exact AddressTree.unfolded_addAll _ _ (card_distinct_le hle)

theorem entries_addresses_perm (h : packets.Perm packets') (side : Side)
    (hle : (packets.filterMap (·.address? side)).toFinset.card ≤ max 1 addressLimit) :
    (((empty source addressLimit).countAll packets).addresses side).entries =
      (((empty source addressLimit).countAll packets').addresses side).entries := by
  rw [addresses_run, addresses_run]
  exact AddressTree.entries_addAll_perm (h.filterMap _) (card_distinct_le hle)

/-- As many packets are kept, and as many are not. -/
theorem waterfall_perm (h : packets.Perm packets') :
    ((empty source addressLimit).countAll packets).waterfall.samples.size =
        ((empty source addressLimit).countAll packets').waterfall.samples.size ∧
      ((empty source addressLimit).countAll packets).waterfall.dropped =
        ((empty source addressLimit).countAll packets').waterfall.dropped := by
  obtain ⟨⟨hkept, hall⟩, hlimit⟩ := waterfall_holds_run source addressLimit packets
  obtain ⟨⟨hkept', hall'⟩, hlimit'⟩ := waterfall_holds_run source addressLimit packets'
  have hlength := h.length_eq
  rw [hlimit] at hkept
  rw [hlimit'] at hkept'
  omega

/-- **The order of the packets does not matter** to what is counted. Where no more addresses differ
than the tree may hold, none is folded, and the order does not matter to the entries either. -/
theorem agree_countAll (h : packets.Perm packets') :
    let r := (empty source addressLimit).countAll packets
    let r' := (empty source addressLimit).countAll packets'
    r.Agree r' ∧
      ∀ side, (packets.filterMap (·.address? side)).toFinset.card ≤ max 1 addressLimit →
        (r.addresses side).Unfolded ∧
          (r.addresses side).entries = (r'.addresses side).entries ∧
          r.topAddresses side = r'.topAddresses side := by
  intro r r'
  have htransports : r.transports.Equiv r'.transports := equiv_transports_run source addressLimit h
  have hseconds : r.bandwidth.seconds.Equiv r'.bandwidth.seconds :=
    equiv_seconds_run source addressLimit h
  have hwaterfall := waterfall_perm source addressLimit h
  refine ⟨?_, fun side hle => ?_⟩
  · exact
      { packetCount := by
          rw [packetCount_run, packetCount_run, h.length_eq]
        byteCount := by
          rw [byteCount_run, byteCount_run]
          exact (h.map _).sum_eq
        transports := htransports.toList_eq
        shares := TransportShares.ofCounts_congr htransports
        totals := totals_bandwidth_perm source addressLimit h
        span := Bandwidth.span?_congr hseconds
        bins := Bandwidth.bins_congr hseconds
        binsInWords := Bandwidth.binsInWords_congr hseconds
        portSums := fun side => by
          rw [sum_ports_run, sum_ports_run, h.countP_eq]
        topPorts := topPorts_perm source addressLimit h
        addressTotals := fun side => by
          rw [total_addresses_run, total_addresses_run, h.countP_eq]
        sampled := hwaterfall.1
        dropped := hwaterfall.2 }
  · have hentries := entries_addresses_perm source addressLimit h side hle
    refine ⟨unfolded_addresses_run source addressLimit side hle, hentries, ?_⟩
    rw [topAddresses, topAddresses, AddressTree.ranked, AddressTree.ranked, AddressTree.tally,
      AddressTree.tally, hentries]

end Run

/-- Two datagrams and a frame that is too short, read forwards and backwards, with two different
senders in a tree that may hold two. -/
theorem agree_countAll_reversed :
    let packets : List Packet :=
      [.ofFrame ⟨2, 0⟩ .raw [0x45, 0, 0, 20, 0, 0, 0, 0, 64, 17, 0, 0, 10, 0, 0, 1, 10, 0, 0, 9],
        .ofFrame ⟨1, 0⟩ .raw [0x45, 0, 0, 20, 0, 0, 0, 0, 64, 17, 0, 0, 10, 0, 0, 2, 10, 0, 0, 9],
        .ofFrame ⟨1, 5⟩ .ethernet [1, 2, 3]]
    let r := (empty "forwards" 2).countAll packets
    let r' := (empty "forwards" 2).countAll packets.reverse
    packets.Perm packets.reverse ∧
      (packets.filterMap (·.address? .source)).toFinset.card ≤ max 1 2 ∧ r.Agree r' ∧
      (r.addresses .source).entries = [⟨4, [10, 0, 0, 1], 1⟩, ⟨4, [10, 0, 0, 2], 1⟩] ∧
      (r.addresses .source).entries = (r'.addresses .source).entries ∧
      r.topAddresses .source = r'.topAddresses .source := by
  intro packets r r'
  have hperm : packets.Perm packets.reverse := packets.reverse_perm.symm
  have hcard : (packets.filterMap (·.address? .source)).toFinset.card ≤ max 1 2 := by decide
  obtain ⟨hagree, haddresses⟩ := agree_countAll "forwards" 2 hperm
  obtain ⟨-, hentries, htop⟩ := haddresses .source hcard
  exact ⟨hperm, hcard, hagree, by decide, hentries, htop⟩

end Report

end TrafficSheet
