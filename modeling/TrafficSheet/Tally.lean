import Std.Data.TreeMap
import TrafficSheet.AddressTree.Basic
import TrafficSheet.Datagram
import TrafficSheet.Platform

/-!
# Counts per label, and their ranking

A tally adds up amounts per label. Its ranking lists labels by falling count, and labels of equal
count in the order of their characters; it does not depend on the order or the steps in which the
amounts came in. Addresses are ranked by the entries of their tree, ports by how many segments had
them. Of either ranking only the first labels are listed, but the total counts all of it.

The count of a label and the sum are words of 64 bits without a sign. `Tally.incrementInWords` is
what is computed for any amounts; `Tally.increment` is the same with numbers of any size. Ports and
addresses are counted with the latter, for each packet counts once.
-/

namespace TrafficSheet

/-- A label with its count. -/
abbrev Ranked := String × Nat

namespace Ranked

/-- Whether one label ranks before another: by a larger count, or by a smaller label at the
same count. -/
def Before (a b : Ranked) : Prop := b.2 < a.2 ∨ (a.2 = b.2 ∧ a.1 < b.1)

instance (a b : Ranked) : Decidable (Before a b) :=
  inferInstanceAs (Decidable (b.2 < a.2 ∨ (a.2 = b.2 ∧ a.1 < b.1)))

end Ranked

/-- Counts per label. -/
structure Tally where
  /-- The count of each label. -/
  counts : Std.TreeMap String Nat
  /-- The sum of all amounts. -/
  sum : Nat

namespace Tally

/-- A tally without labels. -/
def empty : Tally := ⟨∅, 0⟩

/-- Adds an amount to a label, which may be zero: the label is known from then on. -/
def increment (t : Tally) (label : String) (amount : Nat) : Tally where
  counts := t.counts.alter label fun count? => some (count?.getD 0 + amount)
  sum := t.sum + amount

/-- How many labels are known. -/
def size (t : Tally) : Nat := t.counts.size

/-- All labels with their counts, in the order of the ranking. -/
def ranking (t : Tally) : List Ranked :=
  t.counts.toList.mergeSort fun a b => decide (¬ Ranked.Before b a)

/-- The first labels of the ranking. -/
def top (limit : Nat) (t : Tally) : List Ranked := t.ranking.take limit

/-- The tally of labels with amounts. -/
def ofList (l : List Ranked) : Tally := l.foldl (fun t entry => t.increment entry.1 entry.2) empty

/-! ### Counting in words -/

/-- Adds an amount to a label, as it is computed. -/
def incrementInWords (o : Overflow) (t : Tally) (label : String) (amount : Nat) :
    Except Abort Tally :=
  if t.counts.getD label 0 + amount < 0x10000000000000000 ∧
      t.sum + amount < 0x10000000000000000 then
    .ok (t.increment label amount)
  else
    match o with
    | .stops => .error (.overflow .add)
    | .wraps =>
      .ok
        { counts := t.counts.alter label fun count? =>
            some ((count?.getD 0 + amount) % 0x10000000000000000)
          sum := (t.sum + amount) % 0x10000000000000000 }

/-- The tally of labels with amounts, as it is computed. -/
def ofListInWords (o : Overflow) (l : List Ranked) : Except Abort Tally :=
  l.foldlM (fun t entry => t.incrementInWords o entry.1 entry.2) empty

end Tally

/-! ### Ranked addresses and ports -/

/-- The first labels of a ranking. -/
structure RankedList where
  /-- The labels with their counts, in order. -/
  entries : List Ranked
  /-- The sum of all counts, also of those not listed. -/
  total : Nat
  deriving DecidableEq

/-- How many labels are listed. -/
def RankedList.limit : Nat := 10

/-- The first labels of a tally. -/
def Tally.ranked (limit : Nat) (t : Tally) : RankedList where
  entries := t.top limit
  total := t.sum

/-- Counts a segment under its port on one side. -/
def Tally.countPort (side : Side) (t : Tally) (s : Segment) : Tally :=
  t.increment (toString (s.port side)) 1

/-- The entries of an address tree, counted per label. -/
def AddressTree.tally (t : AddressTree) : Tally :=
  .ofList (t.entries.map fun entry => (entry.label, entry.count))

/-- The first labels of an address tree. -/
def AddressTree.ranked (t : AddressTree) : RankedList := t.tally.ranked RankedList.limit

end TrafficSheet
