import Mathlib
import TrafficSheet.Proofs.Datagram.Headers
import TrafficSheet.Proofs.Report.Framing

/-!
# Frames that were cut off

A capture may keep only the first bytes of a frame. What a report counts of it depends on which
headers are whole in what was kept, and on nothing else (`Report.countsCut_count`): the type if the
link's header is, the addresses if the datagram's header is, and the ports if the header of the
segment is, with its options. What is counted is always what stands in the whole frame.
-/

namespace TrafficSheet

/-! ### Frames as they are sent -/

/-- What a datagram carries. -/
inductive Payload where
  /-- A segment with its data. -/
  | segment (header : SegmentHeader) (data : Bytes)
  /-- Any bytes, of a protocol whose number is not that of segments. -/
  | other (protocol : UInt8) (bytes : Bytes) (ne : protocol.toNat ≠ Datagram.segmentProtocol)

namespace Payload

/-- The number of the protocol. -/
def protocol : Payload → UInt8
  | .segment .. => 6
  | .other protocol .. => protocol

/-- The bytes that are carried. -/
def bytes : Payload → Bytes
  | .segment header data => header.encode ++ data
  | .other _ bytes _ => bytes

end Payload

/-- An Ethernet frame with a datagram in it. -/
structure SentFrame where
  /-- The addresses of the link. -/
  addresses : List.Vector UInt8 12
  /-- The header of the datagram. -/
  header : DatagramHeader
  /-- What the datagram carries. -/
  payload : Payload
  /-- The datagram is not too long. -/
  fits : header.Fits payload.bytes.length
  /-- What the link puts after the datagram. -/
  trailer : Bytes

namespace SentFrame

variable (f : SentFrame)

/-- The version of the datagram. -/
def version : Version :=
  match f.header with
  | .four _ => .four
  | .six _ => .six

/-- The datagram, and what is after it. -/
def afterLink : Bytes :=
  f.header.encode f.payload.protocol f.payload.bytes.length ++ (f.payload.bytes ++ f.trailer)

/-- The whole frame. -/
def bytes : Bytes := f.addresses.toList ++ Bytes.ofValue .big 2 f.version.type ++ f.afterLink

/-- Where the datagram's header ends. -/
def addressesEnd : Nat := 14 + f.header.length

/-- The packet that is captured of the frame's first `k` bytes. -/
def cut (k : Nat) (time : Timestamp) : Packet :=
  .ofFrame time .ethernet (f.bytes.take k)

variable (k : Nat) (time : Timestamp)

theorem length_linkHeader :
    (f.addresses.toList ++ Bytes.ofValue .big 2 f.version.type).length = 14 := by
  simp only [List.length_append, List.Vector.toList_length, Bytes.length_ofValue]

/-- **The type** is found if the link's header is whole. -/
theorem etherType?_cut :
    (f.cut k time).etherType? = if 14 ≤ k then some f.version.type else none := by
  have hlink := f.length_linkHeader
  by_cases hk : 14 ≤ k
  · have hbytes : f.bytes.take k = f.addresses.toList ++ Bytes.ofValue .big 2 f.version.type ++
        f.afterLink.take (k - 14) := by
      rw [bytes, List.take_append, List.take_of_length_le (by omega), hlink]
    have hlength : 14 ≤ (f.bytes.take k).length := by
      rw [hbytes, List.length_append, hlink]
      omega
    rw [if_pos hk]
    refine (if_pos hlength).trans (congrArg some ?_)
    show (Bytes.field 12 2 (f.bytes.take k)).bigValue = f.version.type
    rw [hbytes]
    exact Framed.bigValue_field_type _ (List.Vector.toList_length _) _
  · have hlength : ¬14 ≤ (f.bytes.take k).length := by
      rw [List.length_take]
      omega
    rw [if_neg hk]
    exact if_neg hlength

theorem capturedLength_cut (h : min k f.bytes.length < 0x100000000) :
    (f.cut k time).capturedLength = min k f.bytes.length := by
  have hlength : (f.bytes.take k).length = min k f.bytes.length := List.length_take
  rw [cut, Packet.ofFrame, hlength, Nat.mod_eq_of_lt h]

theorem datagramBytes_cut : (f.cut k time).datagramBytes = f.afterLink.take (k - 14) := by
  have hdrop : f.bytes.drop 14 = f.afterLink := List.drop_left' f.length_linkHeader
  have hbytes : (f.cut k time).datagramBytes = (f.bytes.take k).drop 14 := rfl
  rw [hbytes, List.drop_take, hdrop]

/-- **The datagram** is found if its header is whole, with as much of its payload as was kept. -/
theorem datagram?_cut :
    (f.cut k time).datagram? =
      if f.addressesEnd ≤ k then
        some ⟨f.header.address .source, f.header.address .destination, f.payload.protocol.toNat,
          f.payload.bytes.take (k - f.addressesEnd)⟩
      else none := by
  have hlength : (f.header.encode f.payload.protocol f.payload.bytes.length).length =
      f.header.length := f.header.length_encode f.payload.protocol
  rw [Packet.datagram?, datagramBytes_cut, afterLink]
  by_cases hk : f.addressesEnd ≤ k
  · have hheader : f.header.length ≤ k - 14 := by
      rw [addressesEnd] at hk
      omega
    have hpayload : ((f.payload.bytes ++ f.trailer).take (k - f.addressesEnd)).take
        f.payload.bytes.length = f.payload.bytes.take (k - f.addressesEnd) := by
      rw [List.take_take, Nat.min_comm, ← List.take_take, List.take_left]
    rw [if_pos hk, List.take_append, List.take_of_length_le (by omega), hlength, Nat.sub_sub,
      f.header.decode?_encode_append _ f.fits]
    exact congrArg some (congrArg (Datagram.mk _ _ _) hpayload)
  · have hheader : k - 14 < f.header.length := by
      have hpos := f.header.length_pos
      rw [addressesEnd] at hk
      omega
    rw [if_neg hk, List.take_append_of_le_length (by omega)]
    exact f.header.decode?_take_encode _ hheader

variable {f}

/-- **The segment** is found if its header is whole, with as much of its data as was kept. -/
theorem segment?_cut {s : SegmentHeader} {data : Bytes} (h : f.payload = .segment s data) :
    (f.cut k time).segment? =
      if f.addressesEnd + s.length ≤ k then
        some ⟨s.port .source, s.port .destination, s.length,
          data.take (k - f.addressesEnd - s.length)⟩
      else none := by
  have hlength := s.length_encode
  have hpos := s.length_pos
  rw [Packet.segment?, datagram?_cut, h]
  by_cases haddresses : f.addressesEnd ≤ k
  · have hprotocol : (Payload.segment s data).protocol.toNat = Datagram.segmentProtocol := rfl
    rw [if_pos haddresses, Option.bind_some, Datagram.segment?, if_pos hprotocol]
    show Segment.decode? ((s.encode ++ data).take (k - f.addressesEnd)) = _
    by_cases hk : f.addressesEnd + s.length ≤ k
    · rw [if_pos hk, List.take_append, List.take_of_length_le (by omega), hlength,
        s.decode?_encode_append]
    · rw [if_neg hk, List.take_append_of_le_length (by omega)]
      exact s.decode?_take_encode (by omega)
  · rw [if_neg haddresses, if_neg (by omega)]
    rfl

/-- A datagram of another protocol carries no segment, however it was cut off. -/
theorem segment?_cut_other {protocol : UInt8} {bytes : Bytes}
    {ne : protocol.toNat ≠ Datagram.segmentProtocol} (h : f.payload = .other protocol bytes ne) :
    (f.cut k time).segment? = none := by
  rw [Packet.segment?, datagram?_cut, h]
  split_ifs
  · rw [Option.bind_some, Datagram.segment?]
    exact if_neg ne
  · rfl

end SentFrame

/-! ### What is counted of them -/

namespace Report

theorem totals_segmentBytes_count (r : Report) (p : Packet) :
    (r.count p).bandwidth.totals.segmentBytes =
      r.bandwidth.totals.segmentBytes + if p.segment?.isSome then p.capturedLength else 0 := rfl

theorem seconds_segmentBytes_count (r : Report) (p : Packet) :
    ((r.count p).bandwidth.seconds.getD p.time.seconds .zero).segmentBytes =
      (r.bandwidth.seconds.getD p.time.seconds .zero).segmentBytes +
        if p.segment?.isSome then p.capturedLength else 0 := by
  have hcount : (r.count p).bandwidth = r.bandwidth.count p p.segment? := rfl
  rw [Std.TreeMap.getD_eq_getD_getElem?, Std.TreeMap.getD_eq_getD_getElem?, hcount,
    Bandwidth.getElem?_seconds_count, if_pos rfl]
  rfl

/-- What a report has counted once it has counted the first `k` bytes of a frame. -/
structure CountsCut (r : Report) (f : SentFrame) (k : Nat) (time : Timestamp) : Prop where
  /-- The frame has its type if the link's header is whole. -/
  type : (f.cut k time).etherType? = if 14 ≤ k then some f.version.type else none
  /-- The type is counted then. -/
  types : (r.count (f.cut k time)).transports =
    if 14 ≤ k then r.transports.increment f.version.type else r.transports
  /-- The addresses are counted if the datagram's header is whole. -/
  addresses : ∀ side, (r.count (f.cut k time)).addresses side =
    if f.addressesEnd ≤ k then (r.addresses side).add (f.header.address side)
    else r.addresses side
  /-- The ports of a segment are counted if its header is whole. -/
  ports : ∀ s data, f.payload = .segment s data → ∀ side,
    (r.count (f.cut k time)).ports side =
      if f.addressesEnd + s.length ≤ k then (r.ports side).increment (toString (s.port side)) 1
      else r.ports side
  /-- As many bytes are captured as were kept, if a word of 32 bits holds the number. -/
  captured : min k f.bytes.length < 0x100000000 →
    (f.cut k time).capturedLength = min k f.bytes.length
  /-- The bytes of a segment's packet are counted then, in all and in its second. -/
  segmentBytes : ∀ s data, f.payload = .segment s data →
    let amount := if f.addressesEnd + s.length ≤ k then (f.cut k time).capturedLength else 0
    (r.count (f.cut k time)).bandwidth.totals.segmentBytes =
        r.bandwidth.totals.segmentBytes + amount ∧
      ((r.count (f.cut k time)).bandwidth.seconds.getD time.seconds .zero).segmentBytes =
        (r.bandwidth.seconds.getD time.seconds .zero).segmentBytes + amount
  /-- Of another protocol nothing is counted as a segment. -/
  other : ∀ protocol bytes ne, f.payload = .other protocol bytes ne →
    (∀ side, (r.count (f.cut k time)).ports side = r.ports side) ∧
      (r.count (f.cut k time)).bandwidth.totals.segmentBytes = r.bandwidth.totals.segmentBytes

/-- **A frame is counted by its whole headers.** -/
theorem countsCut_count (r : Report) (f : SentFrame) (k : Nat) (time : Timestamp) :
    r.CountsCut f k time where
  type := f.etherType?_cut k time
  types := by
    have hstep : (r.count (f.cut k time)).transports =
        countType r.transports (f.cut k time).etherType? := rfl
    rw [hstep, f.etherType?_cut]
    split_ifs <;> rfl
  addresses side := by
    rw [addresses_count, f.datagram?_cut]
    split_ifs
    · cases side <;> rfl
    · rfl
  ports s data h side := by
    rw [ports_count, SentFrame.segment?_cut k time h]
    split_ifs
    · cases side <;> rfl
    · rfl
  captured := f.capturedLength_cut k time
  segmentBytes s data h := by
    have hamount : (if (f.cut k time).segment?.isSome then (f.cut k time).capturedLength else 0) =
        if f.addressesEnd + s.length ≤ k then (f.cut k time).capturedLength else 0 := by
      rw [SentFrame.segment?_cut k time h]
      by_cases hk : f.addressesEnd + s.length ≤ k
      · rw [if_pos hk, if_pos hk, Option.isSome_some, if_pos rfl]
      · rw [if_neg hk, if_neg hk]
        rfl
    have htotals := r.totals_segmentBytes_count (f.cut k time)
    have hsecond := r.seconds_segmentBytes_count (f.cut k time)
    rw [hamount] at htotals hsecond
    exact ⟨htotals, hsecond⟩
  other protocol bytes ne h := by
    have hnone := SentFrame.segment?_cut_other k time h
    constructor
    · intro side
      rw [ports_count, hnone]
      rfl
    · rw [totals_segmentBytes_count, hnone]
      rfl

/-- With a word of options in either header, the ports are lost with byte 62: of 61 bytes the
addresses are counted, and of 63 the ports as well. -/
theorem countsCut_count_options :
    let header : DatagramHeader := .four
      { service := 0, fragment := .replicate 5 0, checksum := .replicate 2 0, optionWords := 1,
        source := ⟨[10, 0, 0, 1], rfl⟩, destination := ⟨[10, 0, 0, 2], rfl⟩,
        options := .replicate 4 1 }
    let segment : SegmentHeader :=
      { sourcePort := 50000, destinationPort := 443, numbers := .replicate 8 0, reserved := 0,
        control := .replicate 7 0, optionWords := 1, options := .replicate 4 1 }
    let f : SentFrame := ⟨.replicate 12 0xee, header, .segment segment [1, 2], by decide, [0, 0]⟩
    let r := empty "cut" 8
    ((r.count (f.cut 61 ⟨0, 0⟩)).addresses .source).entries = [⟨4, [10, 0, 0, 1], 1⟩] ∧
      (r.count (f.cut 61 ⟨0, 0⟩)).ports .source = r.ports .source ∧
      (r.count (f.cut 63 ⟨0, 0⟩)).ports .source = (r.ports .source).increment "50000" 1 ∧
      (r.count (f.cut 63 ⟨0, 0⟩)).bandwidth.totals.segmentBytes = 63 := by
  intro header segment f r
  have hearly := r.countsCut_count f 61 ⟨0, 0⟩
  have hlate := r.countsCut_count f 63 ⟨0, 0⟩
  have hport : toString (segment.port .source) = "50000" := by decide
  refine ⟨?_, hearly.ports segment [1, 2] rfl .source, ?_, ?_⟩
  · rw [hearly.addresses .source]
    decide
  · rw [← hport]
    exact hlate.ports segment [1, 2] rfl .source
  · have hsegment := (hlate.segmentBytes segment [1, 2] rfl).1
    rw [hlate.captured (by decide)] at hsegment
    exact hsegment

end Report

end TrafficSheet
