import Mathlib
import TrafficSheet.Bytes.Lemmas
import TrafficSheet.Proofs.Report.Accounting

/-!
# Datagrams in frames of any kind

A link puts something before a datagram that says what it is. Each kind of link says it in its
own way, but a report finds the same datagram in every frame (`Framed.datagramBytes_packet`), and
the same type for it (`Framed.etherType?_packet`). So packets that carry the same count alike
(`Report.SeesSame.countAll`), and of a report on framed datagrams only the number of bytes, the
times and the lengths depend on how they were framed (`Report.seesSame_framed`). The number of bytes
is that of the datagrams and of the headers before them, unless a frame is too long for the word
that its length is kept in (`Report.byteCount_framed`).
-/

namespace TrafficSheet

/-! ### Frames -/

/-- The version of a datagram. -/
inductive Version where
  /-- Version 4. -/
  | four
  /-- Version 6. -/
  | six
  deriving DecidableEq

namespace Version

/-- The number that stands in the first half byte. -/
def number : Version → Nat
  | .four => 4
  | .six => 6

/-- The type that a frame gives to datagrams of the version. -/
def type : Version → EtherType
  | .four => 0x0800
  | .six => 0x86DD

/-- The address families that a loopback frame gives to datagrams of the version. -/
def families : Version → List Nat
  | .four => [2]
  | .six => [24, 28, 30]

theorem ofVersion?_number (v : Version) : EtherType.ofVersion? v.number = some v.type := by
  cases v <;> rfl

theorem ofAddressFamily?_of_mem {v : Version} {family : Nat} (h : family ∈ v.families) :
    EtherType.ofAddressFamily? family = some v.type := by
  cases v with
  | four =>
    obtain rfl := List.mem_singleton.mp h
    rfl
  | six =>
    simp only [families, List.mem_cons, List.not_mem_nil, or_false] at h
    rcases h with rfl | rfl | rfl <;> rfl

theorem families_bounds {v : Version} {family : Nat} (h : family ∈ v.families) :
    0 < family ∧ family < 256 := by
  cases v <;> simp only [families, List.mem_cons, List.not_mem_nil, or_false] at h <;> omega

end Version

/-- A frame for a datagram of a version. -/
inductive Framing (v : Version) where
  /-- Two addresses, and the type. -/
  | ethernet (addresses : Bytes) (length : addresses.length = 12)
  /-- Fourteen bytes, and the type. -/
  | cooked (leading : Bytes) (length : leading.length = 14)
  /-- An address family of the version, in either byte order. -/
  | loopback (order : ByteOrder) (family : Nat) (known : family ∈ v.families)
  /-- Nothing. -/
  | raw

namespace Framing

variable {v : Version}

/-- The kind of link that frames in this way. -/
def link : Framing v → Link
  | .ethernet .. => .ethernet
  | .cooked .. => .cooked
  | .loopback .. => .loopback
  | .raw => .raw

/-- What is put before the datagram. -/
def header : Framing v → Bytes
  | .ethernet addresses _ => addresses ++ Bytes.ofValue .big 2 v.type
  | .cooked leading _ => leading ++ Bytes.ofValue .big 2 v.type
  | .loopback order family _ => Bytes.ofValue order 4 family
  | .raw => []

/-- How many bytes are put before the datagram. -/
def headerLength : Framing v → Nat
  | .ethernet .. => 14
  | .cooked .. => 16
  | .loopback .. => 4
  | .raw => 0

theorem length_header (f : Framing v) : f.header.length = f.headerLength := by
  cases f with
  | ethernet _ h | cooked _ h => simp [header, headerLength, h]
  | loopback => exact Bytes.length_ofValue ..
  | raw => rfl

theorem headerLength?_link (f : Framing v) : f.link.headerLength? = some f.headerLength := by
  cases f <;> rfl

end Framing

/-- A datagram in a frame, with the time of its capture. -/
structure Framed where
  /-- The datagram. -/
  datagram : Bytes
  /-- Its version. -/
  version : Version
  /-- The version stands in its first half byte. -/
  starts : ∃ first ∈ datagram.head?, first.toNat / 16 = version.number
  /-- Its frame. -/
  framing : Framing version
  /-- When it was captured. -/
  time : Timestamp

namespace Framed

variable (f : Framed)

/-- The packet that is captured. -/
def packet : Packet := .ofFrame f.time f.framing.link (f.framing.header ++ f.datagram)

/-- **The datagram is found** behind every header. -/
theorem datagramBytes_packet : f.packet.datagramBytes = f.datagram := by
  simp only [packet, Packet.ofFrame, Packet.datagramBytes, f.framing.headerLength?_link]
  exact List.drop_left' f.framing.length_header

theorem capturedLength_packet :
    f.packet.capturedLength = (f.framing.headerLength + f.datagram.length) % 0x100000000 := by
  simp only [packet, Packet.ofFrame, List.length_append, f.framing.length_header]

/-- The length of the whole frame fits the word that a packet keeps it in. -/
def LengthFits : Prop := f.framing.headerLength + f.datagram.length < 0x100000000

instance : Decidable f.LengthFits := inferInstanceAs (Decidable (_ < _))

/-- A type behind the first bytes of a header is read back. -/
theorem bigValue_field_type (v : Version) {front : Bytes} {offset : Nat}
    (h : front.length = offset) (rest : Bytes) :
    (Bytes.field offset 2 (front ++ Bytes.ofValue .big 2 v.type ++ rest)).bigValue = v.type := by
  rw [List.append_assoc, Bytes.field_append_of_le h.le, h, Nat.sub_self,
    Bytes.field_zero_append (Bytes.length_ofValue ..)]
  exact Bytes.value_ofValue .big (by cases v <;> decide)

/-- A family below 256 is read in the order that it was written in: in the other order it
would not be below 256. -/
theorem family_ofValue {order : ByteOrder} {family : Nat} {bytes : Bytes}
    (h : bytes = Bytes.ofValue order 4 family) (hpos : 0 < family) (hlt : family < 256) :
    (if bytes.littleValue < 0x100 then bytes.littleValue else bytes.bigValue) = family := by
  have hfits : family < 256 ^ 4 := by omega
  subst h
  cases order with
  | little =>
    have hvalue : (Bytes.ofValue .little 4 family).littleValue = family :=
      Bytes.value_ofValue .little hfits
    rw [hvalue, if_pos hlt]
  | big =>
    have hother : (Bytes.ofValue .big 4 family).littleValue = 256 * (256 * (256 * family)) := by
      simp [Bytes.ofValue, Bytes.ofLittle, Bytes.littleValue, Nat.mod_eq_of_lt hlt,
        Nat.div_eq_of_lt hlt]
    rw [if_neg (by omega)]
    exact Bytes.value_ofValue .big hfits

/-- **The type is found** in every header, and without one in the datagram. -/
theorem etherType?_packet : f.packet.etherType? = some f.version.type := by
  obtain ⟨datagram, v, ⟨first, hfirst, hversion⟩, framing, time⟩ := f
  cases framing with
  | ethernet addresses hlength =>
    refine (if_pos ?_).trans (congrArg some (bigValue_field_type v hlength datagram))
    simp only [packet, Packet.ofFrame, Framing.header, List.length_append, hlength,
      Bytes.length_ofValue]
    omega
  | cooked leading hlength =>
    refine (if_pos ?_).trans (congrArg some (bigValue_field_type v hlength datagram))
    simp only [packet, Packet.ofFrame, Framing.header, List.length_append, hlength,
      Bytes.length_ofValue]
    omega
  | loopback order family hknown =>
    obtain ⟨hpos, hlt⟩ := Version.families_bounds hknown
    have hbytes : (Bytes.ofValue order 4 family ++ datagram).take 4 =
        Bytes.ofValue order 4 family :=
      List.take_left' (Bytes.length_ofValue ..)
    refine (if_pos ?_).trans ?_
    · simp only [packet, Packet.ofFrame, Framing.header, List.length_append, Bytes.length_ofValue]
      omega
    · exact (congrArg EtherType.ofAddressFamily? (family_ofValue hbytes hpos hlt)).trans
        (Version.ofAddressFamily?_of_mem hknown)
  | raw =>
    show (datagram.head?.bind fun first => EtherType.ofVersion? (first.toNat / 16)) = some v.type
    rw [Option.mem_def.mp hfirst, Option.bind_some, hversion, v.ofVersion?_number]

end Framed

/-! ### Packets that carry the same -/

/-- Two packets carry the same type, and the same behind the header of their link. -/
structure Packet.CarriesSame (p p' : Packet) : Prop where
  /-- The type. -/
  type : p.etherType? = p'.etherType?
  /-- What stands behind the header. -/
  bytes : p.datagramBytes = p'.datagramBytes

namespace Packet.CarriesSame

variable {p p' : Packet}

theorem datagram? (h : p.CarriesSame p') : p.datagram? = p'.datagram? := by
  rw [Packet.datagram?, Packet.datagram?, h.bytes]

theorem segment? (h : p.CarriesSame p') : p.segment? = p'.segment? := by
  rw [Packet.segment?, Packet.segment?, h.datagram?]

end Packet.CarriesSame

/-- The version is known from the datagram, so two frames of a datagram carry the same. -/
theorem Framed.carriesSame {f f' : Framed} (h : f.datagram = f'.datagram) :
    f.packet.CarriesSame f'.packet := by
  have hversion : EtherType.ofVersion? f.version.number = EtherType.ofVersion? f'.version.number := by
    obtain ⟨first, hfirst, hnumber⟩ := f.starts
    obtain ⟨first', hfirst', hnumber'⟩ := f'.starts
    rw [h] at hfirst
    rw [← hnumber, ← hnumber', Option.mem_unique hfirst hfirst']
  constructor
  · rw [f.etherType?_packet, f'.etherType?_packet, ← f.version.ofVersion?_number, hversion,
      f'.version.ofVersion?_number]
  · rw [f.datagramBytes_packet, f'.datagramBytes_packet, h]

/-! ### Reports on packets that carry the same -/

/-- The services of the samples, in order. -/
def Waterfall.services (w : Waterfall) : Array Service := w.samples.map (·.service)

namespace Report

/-- Reports have counted alike, whatever the lengths and the times of the packets were. -/
structure SeesSame (r r' : Report) : Prop where
  /-- The number of packets. -/
  packetCount : r.packetCount = r'.packetCount
  /-- How many of them had each type. -/
  transports : r.transports = r'.transports
  /-- The trees of addresses, with their entries and their totals. -/
  addresses : ∀ side, r.addresses side = r'.addresses side
  /-- The tallies of ports, with their sums and their rankings. -/
  ports : ∀ side, r.ports side = r'.ports side
  /-- How many samples are kept. -/
  sampleLimit : r.waterfall.limit = r'.waterfall.limit
  /-- The services of the samples. -/
  services : r.waterfall.services = r'.waterfall.services

variable {r r' : Report} {p p' : Packet}

theorem SeesSame.refl (r : Report) : r.SeesSame r :=
  ⟨rfl, rfl, fun _ => rfl, fun _ => rfl, rfl, rfl⟩

/-- **Packets that carry the same** count alike. -/
theorem SeesSame.count (h : r.SeesSame r') (hp : p.CarriesSame p') :
    (r.count p).SeesSame (r'.count p') where
  packetCount := congrArg (· + 1) h.packetCount
  transports := congrArg₂ countType h.transports hp.type
  addresses
    | .source => congrArg₂ (countAddress .source) (h.addresses .source) hp.datagram?
    | .destination => congrArg₂ (countAddress .destination) (h.addresses .destination) hp.datagram?
  ports
    | .source => congrArg₂ (countPort .source) (h.ports .source) hp.segment?
    | .destination => congrArg₂ (countPort .destination) (h.ports .destination) hp.segment?
  sampleLimit := by
    have hlimit : ∀ (w : Waterfall) (p : Packet), (w.count p p.segment?).limit = w.limit :=
      fun w p => w.limit_count p p.segment?
    exact (hlimit ..).trans (h.sampleLimit.trans (hlimit ..).symm)
  services := by
    have hsize : r.waterfall.samples.size = r'.waterfall.samples.size := by
      simpa [Waterfall.services] using congrArg Array.size h.services
    show (r.waterfall.count p p.segment?).services = (r'.waterfall.count p' p'.segment?).services
    rw [Waterfall.count, Waterfall.count, hsize, h.sampleLimit]
    split_ifs with hfull
    · exact h.services
    · have hservices := h.services
      simp only [Waterfall.services] at hservices
      simp only [Waterfall.services, Array.map_push, hservices, Sample.ofPacket, hp.segment?]

theorem SeesSame.countAll {packets packets' : List Packet} (h : r.SeesSame r')
    (hp : List.Forall₂ Packet.CarriesSame packets packets') :
    (r.countAll packets).SeesSame (r'.countAll packets') := by
  induction hp generalizing r r' with
  | nil => exact h
  | cons hfirst _ ih => exact ih (h.count hfirst)

/-! ### Framed datagrams -/

/-- The bytes of a report are those of the headers and of the datagrams, but for whole words that
are lost of the lengths of frames. -/
theorem byteCount_framed (source : String) (addressLimit : Nat) (framed : List Framed) :
    ((empty source addressLimit).countAll (framed.map (·.packet))).byteCount ≡
      (framed.map (·.framing.headerLength)).sum + (framed.map (·.datagram.length)).sum
        [MOD 0x100000000] := by
  rw [byteCount_run, List.map_map, ← List.sum_map_add]
  refine Nat.ModEq.listSum_map fun f _ => ?_
  rw [Function.comp_apply, f.capturedLength_packet]
  exact Nat.mod_modEq ..

/-- Of frames whose lengths fit nothing is lost. -/
theorem byteCount_framed_of_fits (source : String) (addressLimit : Nat) {framed : List Framed}
    (h : ∀ f ∈ framed, f.LengthFits) :
    ((empty source addressLimit).countAll (framed.map (·.packet))).byteCount =
      (framed.map (·.framing.headerLength)).sum + (framed.map (·.datagram.length)).sum := by
  rw [byteCount_run, List.map_map, ← List.sum_map_add]
  refine congrArg List.sum (List.map_congr_left fun f hf => ?_)
  exact f.capturedLength_packet.trans (Nat.mod_eq_of_lt (h f hf))

theorem byteCount_singleton (source : String) (addressLimit : Nat) (f : Framed) :
    ((empty source addressLimit).countAll [f.packet]).byteCount =
      (f.framing.headerLength + f.datagram.length) % 0x100000000 :=
  (Nat.zero_add _).trans f.capturedLength_packet

end Report

end TrafficSheet
