import Mathlib
import TrafficSheet.Proofs.Page.Listing
import TrafficSheet.Proofs.Ranking
import TrafficSheet.Report.Rendering

/-!
# How many labels are listed

The settings say how many labels are listed, up to fifty. But a ranked list holds ten labels
only, and both the summary and the page list from it: a larger number lists ten
(`Report.lists_iff`). Where no more than ten are asked for, or there are no more labels, as many
are listed as the settings say (`Tally.listed_eq_iff`).
-/

namespace TrafficSheet

open Std

/-! ### Rankings -/

theorem RankedList.length_listing (n : Nat) (l : RankedList) :
    (l.listing n).length = min n l.entries.length := by
  rw [listing, List.length_map, List.length_take]

/-- How many labels of a tally are listed where `n` are asked for. -/
def Tally.listed (n : Nat) (t : Tally) : Nat :=
  min (min n Settings.mostListed) (min RankedList.limit t.size)

/-- As many labels are listed as the settings say and there are, exactly if that is no more
than a ranked list holds. -/
theorem Tally.listed_eq_iff {n : Nat} {t : Tally} :
    t.listed n = min (min n Settings.mostListed) t.size ↔
      min (min n Settings.mostListed) t.size ≤ RankedList.limit := by
  rw [listed]
  omega

theorem Tally.length_listing_ranked (n : Nat) (t : Tally) :
    ((t.ranked RankedList.limit).listing (min n Settings.mostListed)).length = t.listed n := by
  rw [RankedList.length_listing, Tally.length_entries_ranked, Tally.listed]

/-! ### The summary and the page -/

/-- With these settings the summary of a report lists the given number of labels of every
tally, and the page draws a line for each of them below its charts. -/
structure Report.Lists (r : Report) (settings : Settings Float) (listed : Tally → Nat) :
    Prop where
  /-- The addresses of senders. -/
  sourceAddresses : ∀ zone, (r.summary zone settings.listed).sourceAddresses.length =
    listed (r.addresses .source).tally
  /-- The addresses of receivers. -/
  destinationAddresses : ∀ zone, (r.summary zone settings.listed).destinationAddresses.length =
    listed (r.addresses .destination).tally
  /-- The ports of senders. -/
  sourcePorts : ∀ zone,
    (r.summary zone settings.listed).sourcePorts.length = listed (r.ports .source)
  /-- The ports of receivers. -/
  destinationPorts : ∀ zone,
    (r.summary zone settings.listed).destinationPorts.length = listed (r.ports .destination)
  /-- The lines of addresses. -/
  addressLines : ∀ platform generated, let page := r.page platform settings generated
    page.DrawsListings (page.stage .addresses) (page.addressPanel .source)
      (page.addressPanel .destination)
      (listingLines (r.summary platform.zone settings.listed).sourceAddresses)
      (listingLines (r.summary platform.zone settings.listed).destinationAddresses)
  /-- The lines of ports. -/
  portLines : ∀ platform generated, let page := r.page platform settings generated
    page.DrawsListings (page.stage .ports) (page.portPanel .source)
      (page.portPanel .destination)
      (listingLines (r.summary platform.zone settings.listed).sourcePorts)
      (listingLines (r.summary platform.zone settings.listed).destinationPorts)

/-- What a report lists, with as many labels asked for as given. -/
theorem Report.lists_iff {r : Report} {settings : Settings Float} {n : Nat}
    {listed : Tally → Nat} :
    r.Lists (settings.withListed n) listed ↔
      ∀ side, (r.addresses side).tally.listed n = listed (r.addresses side).tally ∧
        (r.ports side).listed n = listed (r.ports side) := by
  have haddresses : ∀ side, ((r.topAddresses side).listing (min n Settings.mostListed)).length =
      (r.addresses side).tally.listed n := fun side => Tally.length_listing_ranked n _
  have hports : ∀ side, ((r.topPorts side).listing (min n Settings.mostListed)).length =
      (r.ports side).listed n := fun side => Tally.length_listing_ranked n _
  constructor
  · rintro h (_ | _)
    · exact ⟨(haddresses _).symm.trans (h.sourceAddresses .universal),
        (hports _).symm.trans (h.sourcePorts .universal)⟩
    · exact ⟨(haddresses _).symm.trans (h.destinationAddresses .universal),
        (hports _).symm.trans (h.destinationPorts .universal)⟩
  · intro h
    exact
      { sourceAddresses := fun _ => (haddresses .source).trans (h .source).1
        destinationAddresses := fun _ => (haddresses .destination).trans (h .destination).1
        sourcePorts := fun _ => (hports .source).trans (h .source).2
        destinationPorts := fun _ => (hports .destination).trans (h .destination).2
        addressLines := fun _ _ => Page.drawsListings_pair _ _ _
        portLines := fun _ _ => Page.drawsListings_pair _ _ _ }

/-- **How many labels are listed**: as many as are asked for, but at most fifty, and of those at
most ten. So the settings alone say how many are listed exactly if they ask for ten at most, or
there are no more labels. -/
theorem Report.lists_withListed (r : Report) (settings : Settings Float) (n : Nat) :
    r.Lists (settings.withListed n) (fun t => min (min n 50) (min 10 t.size)) ∧
      (r.Lists (settings.withListed n) (fun t => min (min n 50) t.size) ↔
        ∀ side, min (min n 50) (r.addresses side).tally.size ≤ 10 ∧
          min (min n 50) (r.ports side).size ≤ 10) :=
  ⟨lists_iff.mpr fun _ => ⟨rfl, rfl⟩,
    lists_iff.trans (forall_congr' fun _ => and_congr Tally.listed_eq_iff Tally.listed_eq_iff)⟩

/-- A packet with a segment that was sent from the given port, below 256. -/
def Packet.sentFrom (port : UInt8) : Packet :=
  .ofFrame ⟨1, 0⟩ .raw
    [0x45, 0, 0, 40, 0, 0, 0, 0, 64, 6, 0, 0, 10, 0, 0, 1, 10, 0, 0, 2,
      0, port, 0, 80, 0, 0, 0, 0, 0, 0, 0, 0, 0x50, 0, 0, 0, 0, 0, 0, 0]

/-- Eleven ports of which eleven are asked for are not all listed. -/
theorem Report.not_lists_eleven :
    ¬((Report.empty "eleven ports" AddressTree.defaultLimit).countAll
        ([1, 2, 3, 4, 5, 6, 7, 8, 9, 10, 11].map Packet.sentFrom)).Lists
      (Settings.standard.withListed 11) (fun t => min (min 11 50) t.size) := by
  intro h
  have hsize : (((Report.empty "eleven ports" AddressTree.defaultLimit).countAll
      ([1, 2, 3, 4, 5, 6, 7, 8, 9, 10, 11].map Packet.sentFrom)).ports .source).size = 11 := by
    decide +kernel
  have hlisted := (lists_iff.mp h .source).2
  rw [Tally.listed, hsize] at hlisted
  exact absurd hlisted (by decide)

end TrafficSheet
