import Mathlib
import TrafficSheet.Bytes.Lemmas
import TrafficSheet.Datagram

/-!
# Headers as they are sent

The headers of datagrams of either version and of segments, field by field, in the order in which
they are sent. A decoder finds the fields of a header, whatever bytes follow it
(`DatagramHeader.decode?_encode_append`, `SegmentHeader.decode?_encode_append`), and it finds
nothing in what is only a part of a header (`DatagramHeader.decode?_take_encode`,
`SegmentHeader.decode?_take_encode`).
-/

namespace TrafficSheet

/-! ### When bytes are a datagram -/

namespace Datagram

variable {data : Bytes}

theorem isSome_ofIpv4?_iff :
    (ofIpv4? data).isSome ↔ 20 ≤ data.length ∧ data.byteAt 0 / 16 = 4 ∧
      20 ≤ data.byteAt 0 % 16 * 4 ∧ data.byteAt 0 % 16 * 4 ≤ data.length := by
  rw [ofIpv4?, Option.isSome_ite]

theorem isSome_ofIpv6?_iff :
    (ofIpv6? data).isSome ↔ 40 ≤ data.length ∧ data.byteAt 0 / 16 = 6 := by
  rw [ofIpv6?, Option.isSome_ite]

theorem ofIpv4?_eq_none_of_version (h : data.byteAt 0 / 16 ≠ 4) : ofIpv4? data = none :=
  Option.not_isSome_iff_eq_none.mp fun hsome => h (isSome_ofIpv4?_iff.mp hsome).2.1

theorem ofIpv6?_eq_none_of_version (h : data.byteAt 0 / 16 ≠ 6) : ofIpv6? data = none :=
  Option.not_isSome_iff_eq_none.mp fun hsome => h (isSome_ofIpv6?_iff.mp hsome).2

end Datagram

/-! ### Datagrams of version 4 -/

/-- The header of a version 4 datagram, without what depends on the payload. -/
structure Ipv4Header where
  /-- The type of service. -/
  service : UInt8
  /-- The identification, the fragment and the time to live. -/
  fragment : List.Vector UInt8 5
  /-- The checksum, right or wrong. -/
  checksum : List.Vector UInt8 2
  /-- The sender's address. -/
  source : List.Vector UInt8 4
  /-- The receiver's address. -/
  destination : List.Vector UInt8 4
  /-- How many words of four bytes the options take. -/
  optionWords : Fin 11
  /-- The options. -/
  options : List.Vector UInt8 (4 * optionWords)

namespace Ipv4Header

variable (h : Ipv4Header) (protocol : UInt8) (payloadLength : Nat)

/-- The length of the header in bytes. -/
def length : Nat := 20 + 4 * h.optionWords

/-- The header of a datagram with a payload of some protocol and length. It starts with the version
and with its own length in words; the other length in it is that of the whole datagram. -/
def encode : Bytes :=
  [UInt8.ofNat (4 * 16 + (5 + h.optionWords)), h.service] ++
    .ofValue .big 2 (h.length + payloadLength) ++ h.fragment.toList ++ [protocol] ++
    h.checksum.toList ++ h.source.toList ++ h.destination.toList ++ h.options.toList

theorem length_encode : (h.encode protocol payloadLength).length = h.length := by
  simp only [encode, List.length_append, List.length_cons, List.length_nil, Bytes.length_ofValue,
    List.Vector.toList_length, length]

/-- The fields of a header, one after the other. -/
theorem encode_append (rest : Bytes) :
    h.encode protocol payloadLength ++ rest =
      [UInt8.ofNat (4 * 16 + (5 + h.optionWords)), h.service] ++
        (.ofValue .big 2 (h.length + payloadLength) ++ (h.fragment.toList ++ ([protocol] ++
          (h.checksum.toList ++ (h.source.toList ++ (h.destination.toList ++
            (h.options.toList ++ rest))))))) := by
  simp only [encode, List.append_assoc]

/-- The first byte holds the version and the length. -/
theorem byteAt_zero_encode (rest : Bytes) :
    (h.encode protocol payloadLength ++ rest).byteAt 0 = 4 * 16 + (5 + h.optionWords) := by
  have hwords := h.optionWords.isLt
  rw [encode_append]
  exact UInt8.toNat_ofNat_of_lt' (by rw [UInt8.size]; omega)

/-- **A whole header** is decoded, and of what follows it as much as belongs to the datagram. -/
theorem ofIpv4?_encode_append (hfits : h.length + payloadLength < 256 ^ 2) (rest : Bytes) :
    Datagram.ofIpv4? (h.encode protocol payloadLength ++ rest) =
      some ⟨h.source.toList, h.destination.toList, protocol.toNat, rest.take payloadLength⟩ := by
  have hfirst := h.byteAt_zero_encode protocol payloadLength rest
  have hlength := h.length_encode protocol payloadLength
  have hwords := h.optionWords.isLt
  have hheader : (h.encode protocol payloadLength ++ rest).byteAt 0 % 16 * 4 = h.length := by
    rw [hfirst, length]
    omega
  have htotal : ((h.encode protocol payloadLength ++ rest).field 2 2).bigValue =
      h.length + payloadLength := by
    rw [encode_append]
    simp only [Bytes.field_append_of_le, List.length_cons, List.length_nil, Nat.reduceAdd,
      Nat.reduceLeDiff, Nat.reduceSub, Bytes.field_zero_append, Bytes.length_ofValue]
    exact Bytes.value_ofValue .big hfits
  have hpayload : ((h.encode protocol payloadLength ++ rest).take
      (h.length + payloadLength)).drop h.length = rest.take payloadLength := by
    rw [List.drop_take, List.drop_left' hlength, Nat.add_sub_cancel_left]
  rw [Datagram.ofIpv4?, if_pos, hheader, htotal, hpayload, encode_append]
  · simp only [Bytes.field_append_of_le, Bytes.byteAt_append_of_le, List.length_cons,
      List.length_nil, Nat.reduceAdd, Nat.reduceLeDiff, Nat.reduceSub, Bytes.field_zero_append,
      Bytes.length_ofValue, List.Vector.toList_length]
    rfl
  · rw [hheader, hfirst, List.length_append, hlength, length]
    omega

/-- **A part of a header** is no datagram. -/
theorem ofIpv4?_take_encode {n : Nat} (hn : n < h.length) :
    Datagram.ofIpv4? ((h.encode protocol payloadLength).take n) = none := by
  have hwords := h.optionWords.isLt
  have hlength := h.length_encode protocol payloadLength
  refine Option.not_isSome_iff_eq_none.mp fun hsome => ?_
  obtain ⟨hlong, -, -, hheader⟩ := Datagram.isSome_ofIpv4?_iff.mp hsome
  rw [List.length_take, hlength] at hlong hheader
  have hfirst := h.byteAt_zero_encode protocol payloadLength []
  rw [List.append_nil] at hfirst
  rw [Bytes.byteAt_take (by omega), hfirst] at hheader
  rw [length] at hn hheader
  omega

end Ipv4Header

/-! ### Datagrams of version 6 -/

/-- The header of a version 6 datagram, without what depends on the payload. -/
structure Ipv6Header where
  /-- The first half of the traffic class. -/
  traffic : Fin 16
  /-- The second half of it, and the flow label. -/
  flow : List.Vector UInt8 3
  /-- The hop limit. -/
  hops : UInt8
  /-- The sender's address. -/
  source : List.Vector UInt8 16
  /-- The receiver's address. -/
  destination : List.Vector UInt8 16

namespace Ipv6Header

variable (h : Ipv6Header) (protocol : UInt8) (payloadLength : Nat)

/-- The header of a datagram with a payload of some protocol and length. -/
def encode : Bytes :=
  [UInt8.ofNat (6 * 16 + h.traffic)] ++ h.flow.toList ++ .ofValue .big 2 payloadLength ++
    [protocol, h.hops] ++ h.source.toList ++ h.destination.toList

theorem length_encode : (h.encode protocol payloadLength).length = 40 := by
  simp only [encode, List.length_append, List.length_cons, List.length_nil, Bytes.length_ofValue,
    List.Vector.toList_length]

/-- The fields of a header, one after the other. -/
theorem encode_append (rest : Bytes) :
    h.encode protocol payloadLength ++ rest =
      [UInt8.ofNat (6 * 16 + h.traffic)] ++ (h.flow.toList ++ (.ofValue .big 2 payloadLength ++
        ([protocol, h.hops] ++ (h.source.toList ++ (h.destination.toList ++ rest))))) := by
  simp only [encode, List.append_assoc]

/-- The first half byte holds the version. -/
theorem byteAt_zero_encode (rest : Bytes) :
    (h.encode protocol payloadLength ++ rest).byteAt 0 = 6 * 16 + h.traffic := by
  have htraffic := h.traffic.isLt
  rw [encode_append]
  exact UInt8.toNat_ofNat_of_lt' (by rw [UInt8.size]; omega)

/-- **A whole header** is decoded, and of what follows it as much as belongs to the datagram. -/
theorem ofIpv6?_encode_append (hfits : payloadLength < 256 ^ 2) (rest : Bytes) :
    Datagram.ofIpv6? (h.encode protocol payloadLength ++ rest) =
      some ⟨h.source.toList, h.destination.toList, protocol.toNat, rest.take payloadLength⟩ := by
  have hfirst := h.byteAt_zero_encode protocol payloadLength rest
  have hlength := h.length_encode protocol payloadLength
  have htraffic := h.traffic.isLt
  have htotal : ((h.encode protocol payloadLength ++ rest).field 4 2).bigValue = payloadLength := by
    rw [encode_append]
    simp only [Bytes.field_append_of_le, List.length_cons, List.length_nil, Nat.reduceAdd,
      Nat.reduceLeDiff, Nat.reduceSub, Bytes.field_zero_append, Bytes.length_ofValue,
      List.Vector.toList_length]
    exact Bytes.value_ofValue .big hfits
  have hpayload : ((h.encode protocol payloadLength ++ rest).take (40 + payloadLength)).drop 40 =
      rest.take payloadLength := by
    rw [List.drop_take, List.drop_left' hlength, Nat.add_sub_cancel_left]
  rw [Datagram.ofIpv6?, if_pos, htotal, hpayload, encode_append]
  · simp only [Bytes.field_append_of_le, Bytes.byteAt_append_of_le, List.length_cons,
      List.length_nil, Nat.reduceAdd, Nat.reduceLeDiff, Nat.reduceSub, Bytes.field_zero_append,
      Bytes.length_ofValue, List.Vector.toList_length]
    rfl
  · rw [hfirst, List.length_append, hlength]
    omega

/-- **A part of a header** is no datagram. -/
theorem ofIpv6?_take_encode {n : Nat} (hn : n < 40) :
    Datagram.ofIpv6? ((h.encode protocol payloadLength).take n) = none := by
  refine Option.not_isSome_iff_eq_none.mp fun hsome => ?_
  obtain ⟨hlong, -⟩ := Datagram.isSome_ofIpv6?_iff.mp hsome
  rw [List.length_take] at hlong
  omega

end Ipv6Header

/-! ### Datagrams of either version -/

/-- The header of a datagram, without what depends on the payload. -/
inductive DatagramHeader where
  /-- A header of version 4. -/
  | four (h : Ipv4Header)
  /-- A header of version 6. -/
  | six (h : Ipv6Header)

namespace DatagramHeader

/-- The length of the header in bytes. -/
def length : DatagramHeader → Nat
  | .four h => h.length
  | .six _ => 40

/-- The address on one side. -/
def address : Side → DatagramHeader → Bytes
  | .source, .four h => h.source.toList
  | .source, .six h => h.source.toList
  | .destination, .four h => h.destination.toList
  | .destination, .six h => h.destination.toList

/-- The length that is sent fits in two bytes: that of the datagram in version 4, and that of the
payload in version 6. -/
def Fits (payloadLength : Nat) : DatagramHeader → Prop
  | .four h => h.length + payloadLength ≤ 65535
  | .six _ => payloadLength ≤ 65535

instance (payloadLength : Nat) (h : DatagramHeader) : Decidable (h.Fits payloadLength) :=
  match h with
  | .four h => inferInstanceAs (Decidable (h.length + payloadLength ≤ 65535))
  | .six _ => inferInstanceAs (Decidable (payloadLength ≤ 65535))

/-- The header of a datagram with a payload of some protocol and length. -/
def encode (protocol : UInt8) (payloadLength : Nat) : DatagramHeader → Bytes
  | .four h => h.encode protocol payloadLength
  | .six h => h.encode protocol payloadLength

variable (h : DatagramHeader) (protocol : UInt8) {payloadLength : Nat}

theorem length_pos : 0 < h.length := by
  cases h with
  | four h => exact Nat.add_pos_left (by decide) _
  | six h => exact Nat.succ_pos _

theorem length_encode : (h.encode protocol payloadLength).length = h.length := by
  cases h with
  | four h => exact h.length_encode protocol payloadLength
  | six h => exact h.length_encode protocol payloadLength

/-- **A whole header** of either version is decoded. -/
theorem decode?_encode_append (hfits : h.Fits payloadLength) (rest : Bytes) :
    Datagram.decode? (h.encode protocol payloadLength ++ rest) =
      some ⟨h.address .source, h.address .destination, protocol.toNat,
        rest.take payloadLength⟩ := by
  cases h with
  | four h =>
    have hsome := h.ofIpv4?_encode_append protocol payloadLength (Nat.lt_succ_of_le hfits) rest
    rw [Datagram.decode?, encode, hsome]
    rfl
  | six h =>
    have hfirst := h.byteAt_zero_encode protocol payloadLength rest
    have htraffic := h.traffic.isLt
    have hnone : Datagram.ofIpv4? (h.encode protocol payloadLength ++ rest) = none :=
      Datagram.ofIpv4?_eq_none_of_version (by omega)
    have hsome := h.ofIpv6?_encode_append protocol payloadLength (Nat.lt_succ_of_le hfits) rest
    rw [Datagram.decode?, encode, hnone, hsome]
    rfl

/-- **A part of a header** of either version is no datagram. -/
theorem decode?_take_encode {n : Nat} (hn : n < h.length) :
    Datagram.decode? ((h.encode protocol payloadLength).take n) = none := by
  have hcut := Bytes.byteAt_take_eq_or 0 n (h.encode protocol payloadLength)
  cases h with
  | four h =>
    have hwords := h.optionWords.isLt
    have hfirst := h.byteAt_zero_encode protocol payloadLength []
    rw [List.append_nil] at hfirst
    rw [encode, hfirst] at hcut
    rw [Datagram.decode?, encode, h.ofIpv4?_take_encode protocol payloadLength hn,
      Datagram.ofIpv6?_eq_none_of_version (by omega)]
    rfl
  | six h =>
    have htraffic := h.traffic.isLt
    have hfirst := h.byteAt_zero_encode protocol payloadLength []
    rw [List.append_nil] at hfirst
    rw [encode, hfirst] at hcut
    rw [Datagram.decode?, encode, h.ofIpv6?_take_encode protocol payloadLength hn,
      Datagram.ofIpv4?_eq_none_of_version (by omega)]
    rfl

end DatagramHeader

/-! ### Segments -/

/-- A port is a number of two bytes. -/
theorem Segment.port_lt {data : Bytes} {s : Segment} (h : decode? data = some s) (side : Side) :
    s.port side < 256 ^ 2 := by
  rw [decode?, Option.ite_none_right_eq_some] at h
  obtain ⟨⟨hlength, -⟩, hs⟩ := h
  obtain rfl := Option.some.inj hs
  cases side <;> exact Bytes.value_field_lt .big (by omega)

/-- The header of a segment. -/
structure SegmentHeader where
  /-- The sender's port. -/
  sourcePort : UInt16
  /-- The receiver's port. -/
  destinationPort : UInt16
  /-- The sequence and the acknowledgment number. -/
  numbers : List.Vector UInt8 8
  /-- The half byte after the length of the header. -/
  reserved : Fin 16
  /-- The flags, the window, the checksum and the urgent pointer. -/
  control : List.Vector UInt8 7
  /-- How many words of four bytes the options take. -/
  optionWords : Fin 11
  /-- The options. -/
  options : List.Vector UInt8 (4 * optionWords)

namespace SegmentHeader

variable (h : SegmentHeader)

/-- The length of the header in bytes. -/
def length : Nat := 20 + 4 * h.optionWords

/-- The port on one side. -/
def port : Side → Nat
  | .source => h.sourcePort.toNat
  | .destination => h.destinationPort.toNat

/-- The header. Its own length is in it in words. -/
def encode : Bytes :=
  .ofValue .big 2 h.sourcePort.toNat ++ .ofValue .big 2 h.destinationPort.toNat ++
    h.numbers.toList ++ [UInt8.ofNat ((5 + h.optionWords) * 16 + h.reserved)] ++
    h.control.toList ++ h.options.toList

theorem length_pos : 0 < h.length := Nat.add_pos_left (by decide) _

theorem length_encode : h.encode.length = h.length := by
  simp only [encode, List.length_append, List.length_cons, List.length_nil, Bytes.length_ofValue,
    List.Vector.toList_length, length]

/-- The fields of a header, one after the other. -/
theorem encode_append (rest : Bytes) :
    h.encode ++ rest =
      .ofValue .big 2 h.sourcePort.toNat ++ (.ofValue .big 2 h.destinationPort.toNat ++
        (h.numbers.toList ++ ([UInt8.ofNat ((5 + h.optionWords) * 16 + h.reserved)] ++
          (h.control.toList ++ (h.options.toList ++ rest))))) := by
  simp only [encode, List.append_assoc]

/-- The length of the header stands in the half byte at offset twelve. -/
theorem byteAt_twelve_encode (rest : Bytes) :
    (h.encode ++ rest).byteAt 12 = (5 + h.optionWords) * 16 + h.reserved := by
  have hwords := h.optionWords.isLt
  have hreserved := h.reserved.isLt
  rw [encode_append]
  simp only [Bytes.byteAt_append_of_le, Bytes.length_ofValue, Nat.reduceLeDiff, Nat.reduceSub,
    List.Vector.toList_length]
  exact UInt8.toNat_ofNat_of_lt' (by rw [UInt8.size]; omega)

/-- **A whole header** is decoded, whatever follows it. -/
theorem decode?_encode_append (rest : Bytes) :
    Segment.decode? (h.encode ++ rest) =
      some ⟨h.port .source, h.port .destination, h.length, rest⟩ := by
  have htwelfth := h.byteAt_twelve_encode rest
  have hlength := h.length_encode
  have hreserved := h.reserved.isLt
  have hheader : (h.encode ++ rest).byteAt 12 / 16 * 4 = h.length := by
    rw [htwelfth, length]
    omega
  rw [Segment.decode?, if_pos, hheader, List.drop_left' hlength, encode_append]
  · simp only [Bytes.field_append_of_le, Bytes.length_ofValue, Nat.reduceLeDiff, Nat.reduceSub,
      Bytes.field_zero_append]
    exact congrArg some (Segment.mk.injEq .. ▸
      ⟨Bytes.value_ofValue .big h.sourcePort.toNat_lt,
        Bytes.value_ofValue .big h.destinationPort.toNat_lt, rfl, rfl⟩)
  · rw [hheader, List.length_append, hlength, length]
    omega

/-- **A part of a header** is no segment. -/
theorem decode?_take_encode {n : Nat} (hn : n < h.length) :
    Segment.decode? (h.encode.take n) = none := by
  have hlength := h.length_encode
  refine if_neg fun ⟨hlong, _, hheader⟩ => ?_
  rw [List.length_take, hlength] at hlong hheader
  have htwelfth := h.byteAt_twelve_encode []
  rw [List.append_nil] at htwelfth
  rw [Bytes.byteAt_take (by omega), htwelfth] at hheader
  rw [length] at hn hheader
  omega

end SegmentHeader

end TrafficSheet
