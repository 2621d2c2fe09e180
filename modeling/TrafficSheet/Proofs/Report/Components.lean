import Mathlib
import TrafficSheet.Proofs.Bandwidth.Totals
import TrafficSheet.Report.Basic

/-!
# The components of a report

A report counts each packet in several components. Each of them sees the packets, or what was
decoded of them, in their order, and nothing of the other components: after any packets it is
what it was, with all of these counted one after another.
-/

namespace TrafficSheet.Report

theorem countAll_cons (r : Report) (p : Packet) (packets : List Packet) :
    r.countAll (p :: packets) = (r.count p).countAll packets := rfl

theorem packetCount_countAll (r : Report) (packets : List Packet) :
    (r.countAll packets).packetCount = r.packetCount + packets.length := by
  induction packets generalizing r with
  | nil => rfl
  | cons p packets ih =>
    rw [countAll_cons, ih, List.length_cons, Nat.add_comm packets.length, ← Nat.add_assoc]
    rfl

theorem byteCount_countAll (r : Report) (packets : List Packet) :
    (r.countAll packets).byteCount = r.byteCount + (packets.map (·.capturedLength)).sum := by
  induction packets generalizing r with
  | nil => rfl
  | cons p packets ih =>
    rw [countAll_cons, ih, List.map_cons, List.sum_cons, ← Nat.add_assoc]
    rfl

/-- The times are those of the packets. -/
theorem range_countAll (r : Report) (packets : List Packet) :
    (r.countAll packets).range = (packets.map (·.time)).foldl TimeRange.extend r.range := by
  induction packets generalizing r with
  | nil => rfl
  | cons p packets ih => exact ih (r.count p)

theorem transports_countAll (r : Report) (packets : List Packet) :
    (r.countAll packets).transports =
      (packets.filterMap (·.etherType?)).foldl TransportCounts.increment r.transports := by
  induction packets generalizing r with
  | nil => rfl
  | cons p packets ih =>
    have hstep : (r.count p).transports = countType r.transports p.etherType? := rfl
    rw [countAll_cons, ih, hstep, List.filterMap_cons]
    cases p.etherType? <;> rfl

theorem addresses_count (side : Side) (r : Report) (p : Packet) :
    (r.count p).addresses side = countAddress side (r.addresses side) p.datagram? := by
  cases side <;> rfl

theorem ports_count (side : Side) (r : Report) (p : Packet) :
    (r.count p).ports side = countPort side (r.ports side) p.segment? := by
  cases side <;> rfl

/-- The addresses on one side are those of the decoded datagrams. -/
theorem addresses_countAll (side : Side) (r : Report) (packets : List Packet) :
    (r.countAll packets).addresses side =
      (r.addresses side).addAll
        (packets.filterMap fun p => p.datagram?.map (·.address side)) := by
  induction packets generalizing r with
  | nil => rfl
  | cons p packets ih =>
    rw [countAll_cons, ih, addresses_count, List.filterMap_cons]
    cases p.datagram? <;> rfl

/-- The ports on one side are those of the decoded segments. -/
theorem ports_countAll (side : Side) (r : Report) (packets : List Packet) :
    (r.countAll packets).ports side =
      (packets.filterMap (·.segment?)).foldl (Tally.countPort side) (r.ports side) := by
  induction packets generalizing r with
  | nil => rfl
  | cons p packets ih =>
    rw [countAll_cons, ih, ports_count, List.filterMap_cons]
    cases p.segment? <;> rfl

theorem bandwidth_countAll (r : Report) (packets : List Packet) :
    (r.countAll packets).bandwidth = r.bandwidth.countAll packets := by
  induction packets generalizing r with
  | nil => rfl
  | cons p packets ih => exact ih (r.count p)

theorem waterfall_countAll (r : Report) (packets : List Packet) :
    (r.countAll packets).waterfall =
      packets.foldl (fun w p => w.count p p.segment?) r.waterfall := by
  induction packets generalizing r with
  | nil => rfl
  | cons p packets ih => exact ih (r.count p)

end TrafficSheet.Report
