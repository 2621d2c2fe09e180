import TrafficSheet.Proofs.AddressTree.Labels
import TrafficSheet.Proofs.Ranking.Top
import TrafficSheet.Proofs.Report.Accounting
import TrafficSheet.Report.Settings
import TrafficSheet.Report.Summary

/-!
# The percentages of a summary

A summary says of each listed label which part of all its ranking counts. The listed counts are
parts of one total, which is kept apart from them: the sum of a tally. Since no count is lost or
taken twice on the way there, each is at most the total, all of them together too, and so are their
percentages (`PartsOf`). What the totals are is known from the packets: the datagrams for addresses,
the segments for ports (`Report.parts_of_packets`).
-/

namespace TrafficSheet

open Std

/-- Listed entries are parts of a total. -/
structure PartsOf (total : Nat) (l : List ListedEntry) : Prop where
  /-- Every entry counts something, and no more than the total. -/
  count_mem : ∀ e ∈ l, 1 ≤ e.count ∧ e.count ≤ total
  /-- Its percentage is that of the total, rounded down. -/
  percentage_eq : ∀ e ∈ l, e.percentage = 100 * e.count / total
  /-- Percentages do not increase. -/
  pairwise_le : l.Pairwise fun e next => next.percentage ≤ e.percentage
  /-- Together they are no more than all. -/
  sum_le : (l.map (·.percentage)).sum ≤ 100

/-! ### Rounding down -/

namespace Quantity

theorem percentage_le {count total : Nat} (hle : count ≤ total) : 100 * count / total ≤ 100 :=
  Nat.div_le_of_le_mul (by rw [Nat.mul_comm total]; exact Nat.mul_le_mul_left 100 hle)

/-- A part of a total is not cut to 64 bits. -/
theorem percentage_eq {count total : Nat} (hpos : 0 < total) (hle : count ≤ total) :
    percentage count total = 100 * count / total := by
  have hfits : 100 * count / total < 0x10000000000000000 :=
    (percentage_le hle).trans_lt (by decide)
  rw [percentage, if_neg hpos.ne', Nat.mul_comm count, Nat.mod_eq_of_lt hfits]

/-- Percentages that are rounded down one by one come to no more than that of the sum. -/
theorem sum_percentages_le (total : Nat) (counts : List Nat) :
    (counts.map fun count => 100 * count / total).sum ≤ 100 * counts.sum / total := by
  induction counts with
  | nil => simp
  | cons count counts ih =>
    rw [List.map_cons, List.sum_cons, List.sum_cons, Nat.mul_add]
    exact (Nat.add_le_add_left ih _).trans (Nat.div_add_div_le_add_div ..)

end Quantity

/-! ### The listed labels of a tally -/

/-- **Listed counts** are parts of a total that they do not exceed together. -/
theorem RankedList.partsOf_listing {l : RankedList} (hpos : ∀ e ∈ l.entries, 0 < e.2)
    (hbefore : l.entries.Pairwise Ranked.Before) (hsum : (l.entries.map Prod.snd).sum ≤ l.total)
    (n : Nat) : PartsOf l.total (l.listing n) := by
  have hlisted : (l.entries.take n).Sublist l.entries := List.take_sublist ..
  have hcount : ∀ e ∈ l.entries.take n, 1 ≤ e.2 ∧ e.2 ≤ l.total := by
    intro e he
    have hmem := hlisted.subset he
    exact ⟨hpos e hmem, (List.le_sum_of_mem (List.mem_map_of_mem hmem)).trans hsum⟩
  have hpercentage : ∀ e ∈ l.entries.take n,
      Quantity.percentage e.2 l.total = 100 * e.2 / l.total := by
    intro e he
    obtain ⟨hone, hle⟩ := hcount e he
    exact Quantity.percentage_eq (hone.trans hle) hle
  constructor
  · intro entry hentry
    obtain ⟨e, he, rfl⟩ := List.mem_map.mp hentry
    exact hcount e he
  · intro entry hentry
    obtain ⟨e, he, rfl⟩ := List.mem_map.mp hentry
    exact hpercentage e he
  · refine List.pairwise_map.mpr ((hbefore.sublist hlisted).imp_of_mem ?_)
    intro e next he hnext hbefore
    dsimp only
    rw [hpercentage e he, hpercentage next hnext]
    exact Nat.div_le_div_right (Nat.mul_le_mul_left 100 hbefore.count_le)
  · have hlistedSum : ((l.entries.take n).map Prod.snd).sum ≤ l.total :=
      ((hlisted.map Prod.snd).sum_le_sum fun _ _ => Nat.zero_le _).trans hsum
    have hrounded := (Quantity.sum_percentages_le l.total ((l.entries.take n).map Prod.snd)).trans
      (Quantity.percentage_le hlistedSum)
    rw [List.map_map] at hrounded
    rw [listing, List.map_map]
    exact (congrArg List.sum (List.map_congr_left hpercentage)).trans_le hrounded

namespace Tally

variable {amounts : List Ranked}

/-- The counts of all labels are the amounts. -/
theorem sum_ranking (amounts : List Ranked) :
    ((ofList amounts).ranking.map Prod.snd).sum = (ofList amounts).sum := by
  have hsum : ((ofList amounts).counts.toList.map Prod.snd).sum = (amounts.map Prod.snd).sum := by
    rw [counts_ofList]
    exact sumOver_foldl_addAt amounts
  rw [((perm_ranking _).map Prod.snd).sum_eq, hsum, sum_ofList]

/-- Where no amount is zero, no label counts nothing. -/
theorem count_pos (hpos : ∀ e ∈ amounts, 0 < e.2) {e : Ranked} (he : e ∈ (ofList amounts).ranking) :
    0 < e.2 := by
  rw [mem_ranking, getElem?_counts_ofList, amountOf?] at he
  split_ifs at he with hlabel
  obtain ⟨amount, hamount, heq⟩ := List.mem_map.mp hlabel
  have hmem : amount.2 ∈ (amounts.filter (·.1 = e.1)).map Prod.snd :=
    List.mem_map_of_mem (List.mem_filter.mpr ⟨hamount, decide_eq_true heq⟩)
  exact (hpos amount hamount).trans_le ((List.le_sum_of_mem hmem).trans_eq (Option.some.inj he))

/-- The labels listed of a tally are parts of its sum. -/
theorem partsOf_listing (hpos : ∀ e ∈ amounts, 0 < e.2) (limit n : Nat) :
    PartsOf (ofList amounts).sum (((ofList amounts).ranked limit).listing n) := by
  have hfirst : ((ofList amounts).top limit).Sublist (ofList amounts).ranking :=
    List.take_sublist ..
  refine RankedList.partsOf_listing (l := (ofList amounts).ranked limit) (fun e he => ?_)
    ((pairwise_ranking _).sublist hfirst) ?_ n
  · exact count_pos hpos (hfirst.subset he)
  · exact ((hfirst.map Prod.snd).sum_le_sum fun _ _ => Nat.zero_le _).trans_eq (sum_ranking amounts)

end Tally

/-! ### The lists of a summary -/

theorem AddressTree.Holds.partsOf_listing {t : AddressTree} {addresses : List Bytes}
    (h : t.Holds addresses) (n : Nat) : PartsOf t.total (t.ranked.listing n) := by
  rw [← h.sum_tally]
  refine Tally.partsOf_listing (fun entry hentry => ?_) RankedList.limit n
  obtain ⟨e, he, rfl⟩ := List.mem_map.mp hentry
  exact (h.standsFor he).2.pos

/-- **Percentages are sound.** With any settings and after any packets, the total of a list of
addresses is the number of datagrams, and that of a list of ports the number of segments; and the
entries of each of the four lists of the summary are parts of its total. -/
theorem Report.parts_of_packets (source : String) (settings : Settings Float)
    (packets : List Packet) (zone : Zone) :
    let r := (empty source settings.addressLimit).countAll packets
    let s := r.summary zone settings.listed
    let datagrams := packets.countP (·.carriesDatagram)
    let segments := packets.countP (·.carriesSegment)
    (∀ side, (r.topAddresses side).total = datagrams ∧ (r.topPorts side).total = segments) ∧
      PartsOf datagrams s.sourceAddresses ∧ PartsOf datagrams s.destinationAddresses ∧
      PartsOf segments s.sourcePorts ∧ PartsOf segments s.destinationPorts := by
  intro r s datagrams segments
  have htree : ∀ side, (r.addresses side).Holds (packets.filterMap (·.address? side)) := by
    intro side
    rw [addresses_run]
    exact AddressTree.holds_addAll _ _
  have haddresses : ∀ side, PartsOf datagrams ((r.topAddresses side).listing settings.listed) := by
    intro side
    have htotal : (r.addresses side).total = datagrams := total_addresses_run ..
    exact htotal ▸ (htree side).partsOf_listing settings.listed
  have hports : ∀ side, PartsOf segments ((r.topPorts side).listing settings.listed) := by
    intro side
    have hsum : (r.ports side).sum = segments := sum_ports_run ..
    rw [← hsum, topPorts, ports_run, Tally.foldl_countPort]
    refine Tally.partsOf_listing (fun amount hamount => ?_) _ _
    obtain ⟨segment, -, rfl⟩ := List.mem_map.mp hamount
    exact Nat.one_pos
  refine ⟨fun side => ⟨?_, sum_ports_run ..⟩, haddresses .source, haddresses .destination,
    hports .source, hports .destination⟩
  exact (htree side).sum_tally.trans (total_addresses_run ..)

end TrafficSheet
