import Mathlib
import TrafficSheet.Bandwidth
import TrafficSheet.Proofs.KeyedSums

/-!
# The totals of the volume over time

Volumes are added field by field. Counting packets adds the volume of each to the totals
(`totals_countAll`), and to the second of its time only, so the totals stay the sum over the
seconds (`Balanced.countAll`).
-/

namespace TrafficSheet

attribute [ext] Volume

namespace Volume

/-! ### Adding volumes -/

instance : Zero Volume := ⟨zero⟩

@[simp] theorem packets_add (a b : Volume) : (a + b).packets = a.packets + b.packets := rfl

@[simp] theorem bytes_add (a b : Volume) : (a + b).bytes = a.bytes + b.bytes := rfl

@[simp] theorem segmentBytes_add (a b : Volume) :
    (a + b).segmentBytes = a.segmentBytes + b.segmentBytes := rfl

@[simp] theorem packets_zero : (0 : Volume).packets = 0 := rfl

@[simp] theorem bytes_zero : (0 : Volume).bytes = 0 := rfl

@[simp] theorem segmentBytes_zero : (0 : Volume).segmentBytes = 0 := rfl

instance : AddCommMonoid Volume where
  add_assoc a b c := by ext <;> simp [Nat.add_assoc]
  zero_add a := by ext <;> simp
  add_zero a := by ext <;> simp
  add_comm a b := by ext <;> simp [Nat.add_comm]
  nsmul := nsmulRec

/-- A field of volumes that is added for itself. -/
def AddsUp (f : Volume → Nat) : Prop := f 0 = 0 ∧ ∀ a b, f (a + b) = f a + f b

theorem addsUp_packets : AddsUp packets := ⟨rfl, fun _ _ => rfl⟩

theorem addsUp_bytes : AddsUp bytes := ⟨rfl, fun _ _ => rfl⟩

theorem addsUp_segmentBytes : AddsUp segmentBytes := ⟨rfl, fun _ _ => rfl⟩

theorem AddsUp.sum {f : Volume → Nat} (hf : AddsUp f) (volumes : List Volume) :
    f volumes.sum = (volumes.map f).sum :=
  map_list_sum (⟨⟨f, hf.1⟩, hf.2⟩ : Volume →+ Nat) volumes

end Volume

namespace Bandwidth

/-- The totals are the sum of what the seconds had. -/
def Balanced (b : Bandwidth) : Prop := sumOver id b.seconds = b.totals

theorem balanced_empty : empty.Balanced := rfl

theorem Balanced.count {b : Bandwidth} (hb : b.Balanced) (p : Packet)
    (segment? : Option Segment) : (b.count p segment?).Balanced := by
  have hsum := sumOver_alter_add id (v := Volume.ofPacket p segment?) (· + ·)
    (rfl : id Volume.zero = 0) (fun _ => rfl) b.seconds p.time.seconds
  rw [hb] at hsum
  exact hsum

/-- A packet is counted in the second of its time. -/
theorem getElem?_seconds_count (b : Bandwidth) (p : Packet) (segment? : Option Segment)
    (second : Int) :
    (b.count p segment?).seconds[second]? =
      if p.time.seconds = second then
        some (b.seconds[second]?.getD .zero + Volume.ofPacket p segment?)
      else b.seconds[second]? := by
  rw [count, Std.TreeMap.getElem?_alter]
  simp only [Std.compare_eq_iff_eq]
  split_ifs with hsecond
  · rw [hsecond]
  · rfl

/-- Counts packets one after another, each with the segment that is given for it. -/
def countEach (b : Bandwidth) (entries : List (Packet × Option Segment)) : Bandwidth :=
  entries.foldl (fun b entry => b.count entry.1 entry.2) b

theorem Balanced.countEach {b : Bandwidth} (hb : b.Balanced)
    (entries : List (Packet × Option Segment)) : (b.countEach entries).Balanced := by
  induction entries generalizing b with
  | nil => exact hb
  | cons entry entries ih => exact ih (hb.count entry.1 entry.2)

/-- The seconds are a map of amounts. -/
theorem seconds_countEach (entries : List (Packet × Option Segment)) :
    (empty.countEach entries).seconds =
      (entries.map fun entry => (entry.1.time.seconds, Volume.ofPacket entry.1 entry.2)).foldl
        addAt ∅ := by
  rw [List.foldl_map]
  exact (List.foldl_hom seconds fun _ _ => rfl).symm

/-- Counts packets one after another, each with the segment that it carries. -/
def countAll (b : Bandwidth) (packets : List Packet) : Bandwidth :=
  packets.foldl (fun b p => b.count p p.segment?) b

theorem countAll_eq (b : Bandwidth) (packets : List Packet) :
    b.countAll packets = b.countEach (packets.map fun p => (p, p.segment?)) := by
  rw [countEach, List.foldl_map]
  rfl

theorem Balanced.countAll {b : Bandwidth} (hb : b.Balanced) (packets : List Packet) :
    (b.countAll packets).Balanced := by
  rw [countAll_eq]
  exact hb.countEach _

theorem totals_countAll (b : Bandwidth) (packets : List Packet) :
    (b.countAll packets).totals =
      b.totals + (packets.map fun p => Volume.ofPacket p p.segment?).sum := by
  induction packets generalizing b with
  | nil => exact (add_zero _).symm
  | cons p packets ih =>
    rw [List.map_cons, List.sum_cons, ← add_assoc]
    exact ih (b.count p p.segment?)

/-- A field of the totals is the sum of that field over the seconds. -/
theorem Balanced.field {b : Bandwidth} (hb : b.Balanced) {f : Volume → Nat}
    (hf : Volume.AddsUp f) :
    f b.totals = (b.seconds.toList.map fun second => f second.2).sum := by
  rw [← hb, sumOver, hf.sum, List.map_map]
  rfl

end Bandwidth

end TrafficSheet
