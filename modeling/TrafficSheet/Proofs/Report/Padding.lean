import Mathlib
import TrafficSheet.Proofs.Datagram.Headers
import TrafficSheet.Proofs.Report.Components

/-!
# Padding behind a datagram

A link may put bytes behind a datagram, to make a frame long enough. A datagram says itself how
long it is, and nothing behind its end is read: with any padding the same datagram is decoded, and
the same segment or none (`Packet.datagram?_padded`, `Packet.segment?_padded`). So of a report only
lengths depend on the padding (`Report.sameButLengths_padded`).
-/

namespace TrafficSheet

/-! ### Datagrams with padding behind them -/

namespace Datagram

variable {data : Bytes}

/-- Bytes hold the whole of a version 4 datagram, by the length that its header gives. -/
def WholeIpv4 (data : Bytes) : Prop :=
  (ofIpv4? data).isSome ∧ (data.field 2 2).bigValue ≤ data.length

/-- Bytes hold the whole of a version 6 datagram, by the length that its header gives. -/
def WholeIpv6 (data : Bytes) : Prop :=
  (ofIpv6? data).isSome ∧ 40 + (data.field 4 2).bigValue ≤ data.length

instance : Decidable (WholeIpv4 data) := inferInstanceAs (Decidable (_ ∧ _))

instance : Decidable (WholeIpv6 data) := inferInstanceAs (Decidable (_ ∧ _))

theorem ofIpv4?_append (h : WholeIpv4 data) (padding : Bytes) :
    ofIpv4? (data ++ padding) = ofIpv4? data := by
  obtain ⟨hsome, hwhole⟩ := h
  obtain ⟨hlength, hversion, hmin, hheader⟩ := isSome_ofIpv4?_iff.mp hsome
  have hbyte : ∀ offset < 20, (data ++ padding).byteAt offset = data.byteAt offset := by
    intro offset hoffset
    exact Bytes.byteAt_append_left (hoffset.trans_le hlength) padding
  have hfield : ∀ offset width, offset + width ≤ 20 →
      (data ++ padding).field offset width = data.field offset width := by
    intro offset width hfits
    exact Bytes.field_append_left (hfits.trans hlength) padding
  rw [ofIpv4?, if_pos, ofIpv4?, if_pos ⟨hlength, hversion, hmin, hheader⟩]
  · rw [hbyte 0 (by decide), hbyte 9 (by decide), hfield 12 4 (by decide),
      hfield 16 4 (by decide), hfield 2 2 (by decide), List.take_append_of_le_length hwhole]
  · rw [hbyte 0 (by decide), List.length_append]
    omega

theorem ofIpv6?_append (h : WholeIpv6 data) (padding : Bytes) :
    ofIpv6? (data ++ padding) = ofIpv6? data := by
  obtain ⟨hsome, hwhole⟩ := h
  obtain ⟨hlength, hversion⟩ := isSome_ofIpv6?_iff.mp hsome
  have hbyte : ∀ offset < 40, (data ++ padding).byteAt offset = data.byteAt offset := by
    intro offset hoffset
    exact Bytes.byteAt_append_left (hoffset.trans_le hlength) padding
  have hfield : ∀ offset width, offset + width ≤ 40 →
      (data ++ padding).field offset width = data.field offset width := by
    intro offset width hfits
    exact Bytes.field_append_left (hfits.trans hlength) padding
  rw [ofIpv6?, if_pos, ofIpv6?, if_pos ⟨hlength, hversion⟩]
  · rw [hbyte 6 (by decide), hfield 8 16 (by decide), hfield 24 16 (by decide),
      hfield 4 2 (by decide), List.take_append_of_le_length hwhole]
  · rw [hbyte 0 (by decide), List.length_append]
    omega

/-- **Nothing behind a whole datagram** is decoded. -/
theorem decode?_append (h : WholeIpv4 data ∨ WholeIpv6 data) (padding : Bytes) :
    decode? (data ++ padding) = decode? data := by
  obtain hfour | hsix := h
  · rw [decode?, decode?, ofIpv4?_append hfour, Option.or_of_isSome hfour.1,
      Option.or_of_isSome hfour.1]
  · -- The version stands in the first byte, so it is not 4 with the padding either.
    obtain ⟨hlength, hversion⟩ := isSome_ofIpv6?_iff.mp hsix.1
    have hfirst : (data ++ padding).byteAt 0 = data.byteAt 0 :=
      Bytes.byteAt_append_left (by omega) padding
    rw [decode?, decode?, ofIpv6?_append hsix, ofIpv4?_eq_none_of_version (by omega),
      ofIpv4?_eq_none_of_version (by omega)]

theorem ne_nil_of_whole (h : WholeIpv4 data ∨ WholeIpv6 data) : data ≠ [] := by
  rintro rfl
  revert h
  decide

end Datagram

/-! ### Frames with padding -/

namespace Packet

variable {p : Packet}

/-- The packet with bytes put behind it. -/
def padded (p : Packet) (padding : Bytes) : Packet :=
  .ofFrame p.time p.link (p.frame ++ padding)

theorem time_padded (p : Packet) (padding : Bytes) : (p.padded padding).time = p.time := rfl

/-- A packet holds the whole of the datagram that it carries. -/
def HoldsDatagram (p : Packet) : Prop :=
  Datagram.WholeIpv4 p.datagramBytes ∨ Datagram.WholeIpv6 p.datagramBytes

instance : Decidable p.HoldsDatagram := inferInstanceAs (Decidable (_ ∨ _))

/-- The header of the link is whole if anything stands behind it. -/
theorem exists_headerLength (h : p.datagramBytes ≠ []) :
    ∃ length, p.link.headerLength? = some length ∧ length < p.frame.length ∧
      p.datagramBytes = p.frame.drop length := by
  rw [datagramBytes] at h ⊢
  cases hlink : p.link.headerLength? with
  | none => exact absurd (by rw [hlink]) h
  | some length =>
    rw [hlink] at h
    exact ⟨length, rfl, by simpa using h, rfl⟩

theorem datagramBytes_padded (h : p.datagramBytes ≠ []) (padding : Bytes) :
    (p.padded padding).datagramBytes = p.datagramBytes ++ padding := by
  obtain ⟨length, hlink, hlength, hbytes⟩ := exists_headerLength h
  have hpadded : (p.padded padding).datagramBytes = (p.frame ++ padding).drop length := by
    simp only [datagramBytes, padded, ofFrame, hlink]
  rw [hpadded, hbytes, List.drop_append_of_le_length hlength.le]

/-- **The type** of a frame does not depend on padding behind a datagram. -/
theorem etherType?_padded (h : p.datagramBytes ≠ []) (padding : Bytes) :
    (p.padded padding).etherType? = p.etherType? := by
  obtain ⟨length, hlink, hlength, -⟩ := exists_headerLength h
  obtain ⟨time, captured, link, frame⟩ := p
  have hpadded : length ≤ (frame ++ padding).length := by
    rw [List.length_append]
    exact hlength.le.trans (Nat.le_add_right ..)
  have hmk : padded ⟨time, captured, link, frame⟩ padding =
      ⟨time, (frame ++ padding).length % 0x100000000, link, frame ++ padding⟩ := rfl
  rw [hmk]
  cases link with
  | ethernet =>
    obtain rfl := Option.some.inj hlink
    simp only [etherType?]
    rw [if_pos hpadded, if_pos hlength.le, Bytes.field_append_left hlength.le]
  | cooked =>
    obtain rfl := Option.some.inj hlink
    simp only [etherType?]
    rw [if_pos hpadded, if_pos hlength.le, Bytes.field_append_left hlength.le]
  | raw =>
    cases frame with
    | nil => exact absurd rfl h
    | cons first rest => rfl
  | loopback =>
    obtain rfl := Option.some.inj hlink
    simp only [etherType?]
    rw [if_pos hpadded, if_pos hlength.le, List.take_append_of_le_length hlength.le]
  | unsupported number => exact absurd rfl h

theorem datagram?_padded (h : p.HoldsDatagram) (padding : Bytes) :
    (p.padded padding).datagram? = p.datagram? := by
  rw [datagram?, datagram?, datagramBytes_padded (Datagram.ne_nil_of_whole h),
    Datagram.decode?_append h]

theorem segment?_padded (h : p.HoldsDatagram) (padding : Bytes) :
    (p.padded padding).segment? = p.segment? := by
  rw [segment?, segment?, datagram?_padded h]

end Packet

/-! ### Reports that differ in lengths -/

/-- The traffic differs at most in numbers of bytes, in all and in one second. -/
structure Bandwidth.SameButBytes (second : Int) (b b' : Bandwidth) : Prop where
  /-- As many packets were counted in all, -/
  packets : b'.totals.packets = b.totals.packets
  /-- and in every second. -/
  packetsInSecond : ∀ s : Int, b'.seconds[s]?.map (·.packets) = b.seconds[s]?.map (·.packets)
  /-- All seconds but one are the same. -/
  otherSeconds : ∀ s ≠ second, b'.seconds[s]? = b.seconds[s]?

/-- A packet counts in the second of its time, with its number of bytes. -/
theorem Bandwidth.sameButBytes_count (b : Bandwidth) {p p' : Packet} (h : p'.time = p.time)
    (segment? : Option Segment) :
    SameButBytes p.time.seconds (b.count p segment?) (b.count p' segment?) where
  packets := rfl
  packetsInSecond s := by
    rw [getElem?_seconds_count, getElem?_seconds_count, h]
    split_ifs <;> rfl
  otherSeconds s hs := by
    rw [getElem?_seconds_count, getElem?_seconds_count, h, if_neg hs.symm, if_neg hs.symm]

/-- What a sample is apart from the length of its packet. -/
def Sample.withoutLength (s : Sample) : Timestamp × Service := (s.time, s.service)

/-- The samples differ at most in the length of one of them. -/
structure Waterfall.SameButLength (place : Nat) (w w' : Waterfall) : Prop where
  /-- As many samples are kept. -/
  limit : w'.limit = w.limit
  /-- As many packets were dropped. -/
  dropped : w'.dropped = w.dropped
  /-- The samples are the same apart from lengths. -/
  samples : ∀ i : Nat, w'.samples[i]?.map (·.withoutLength) = w.samples[i]?.map (·.withoutLength)
  /-- All samples but one are the same. -/
  otherSamples : ∀ i ≠ place, w'.samples[i]? = w.samples[i]?

/-- A packet is dropped, or is the last sample, with its length. -/
theorem Waterfall.sameButLength_count (w : Waterfall) {p p' : Packet} (h : p'.time = p.time)
    (segment? : Option Segment) :
    SameButLength w.samples.size (w.count p segment?) (w.count p' segment?) := by
  rw [count, count]
  split_ifs with hfull
  · exact ⟨rfl, rfl, fun _ => rfl, fun _ _ => rfl⟩
  · refine ⟨rfl, rfl, fun i => ?_, fun i hi => ?_⟩
    · simp only [Array.getElem?_push]
      split_ifs
      · simp only [Option.map_some, Sample.ofPacket, Sample.withoutLength, h]
      · rfl
    · simp only [Array.getElem?_push, if_neg hi]

/-- Two reports differ at most in numbers of bytes, in all and in one second, and in the length of
one sample. -/
structure Report.SameButLengths (second : Int) (place : Nat) (r r' : Report) : Prop where
  /-- All components without numbers of bytes are the same. -/
  components : r' =
    { r with byteCount := r'.byteCount, bandwidth := r'.bandwidth, waterfall := r'.waterfall }
  /-- The traffic differs at most in numbers of bytes. -/
  bandwidth : Bandwidth.SameButBytes second r.bandwidth r'.bandwidth
  /-- The samples differ at most in a length. -/
  waterfall : Waterfall.SameButLength place r.waterfall r'.waterfall

namespace Report

/-- **Padding is not read.** Behind a whole datagram it changes neither the type nor what is decoded,
and of a report that counts the packet it changes lengths only: the packet's own, and those that
they are added to. -/
theorem sameButLengths_padded {p : Packet} (h : p.HoldsDatagram) (padding : Bytes) :
    (p.padded padding).etherType? = p.etherType? ∧
      (p.padded padding).datagram? = p.datagram? ∧
      (p.padded padding).segment? = p.segment? ∧
      ∀ r : Report, SameButLengths p.time.seconds r.waterfall.samples.size (r.count p)
        (r.count (p.padded padding)) := by
  have htype := Packet.etherType?_padded (Datagram.ne_nil_of_whole h) padding
  have hdatagram := Packet.datagram?_padded h padding
  have hsegment := Packet.segment?_padded h padding
  refine ⟨htype, hdatagram, hsegment, fun r => ?_⟩
  have hcount : r.count (p.padded padding) =
      r.countDecoded (p.padded padding) p.datagram? p.segment? := by
    rw [count, hdatagram, hsegment]
  rw [hcount]
  constructor
  · rw [countDecoded, htype]
    rfl
  · exact r.bandwidth.sameButBytes_count (p.time_padded padding) p.segment?
  · exact r.waterfall.sameButLength_count (p.time_padded padding) p.segment?

/-- A datagram of version 4 that announces fewer bytes than its header has, and a segment's header
behind it. -/
theorem sameButLengths_padded_short :
    let p : Packet := .ofFrame ⟨1, 0⟩ .raw
      [0x45, 0, 0, 7, 0, 0, 0, 0, 64, 6, 0, 0, 10, 0, 0, 1, 10, 0, 0, 2]
    let padding : Bytes := [0, 80, 0, 80, 0, 0, 0, 0, 0, 0, 0, 0, 0x50, 0, 0, 0, 0, 0, 0, 0]
    p.HoldsDatagram ∧ (p.padded padding).datagram? = p.datagram? ∧
      (p.padded padding).segment? = none ∧
      SameButLengths 1 0 ((empty "padded" 8).count p) ((empty "padded" 8).count (p.padded padding)) := by
  intro p padding
  have hholds : p.HoldsDatagram := by decide
  obtain ⟨-, hdatagram, hsegment, hreport⟩ := sameButLengths_padded hholds padding
  exact ⟨hholds, hdatagram, hsegment.trans (by decide), hreport (empty "padded" 8)⟩

end Report

end TrafficSheet
