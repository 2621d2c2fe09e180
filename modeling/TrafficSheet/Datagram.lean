import TrafficSheet.Frame

/-!
# Datagrams and segments

Decoders for the headers of the Internet Protocol, versions 4 and 6, and of the
Transmission Control Protocol. Each answers none for bytes that do not start with a whole
header of its kind. Extension headers of version 6 are left in the payload.

What is not formalized: checksums, fragments, and all other protocols. Nothing looks at them.
-/

namespace TrafficSheet

/-- The two sides of a conversation. -/
inductive Side where
  /-- The sender. -/
  | source
  /-- The receiver. -/
  | destination
  deriving DecidableEq

/-- A datagram of either version. -/
structure Datagram where
  /-- The sender's address, four or sixteen bytes. -/
  source : Bytes
  /-- The receiver's address, as long as the sender's. -/
  destination : Bytes
  /-- The number of the protocol that the payload belongs to. -/
  protocol : Nat
  /-- What follows the header, cut off where the datagram ends. -/
  payload : Bytes
  deriving DecidableEq

namespace Datagram

/-- Decodes a version 4 datagram. Its header is counted in words of four bytes, and its
total length includes the header. -/
def ofIpv4? (data : Bytes) : Option Datagram :=
  let version := data.byteAt 0 / 16
  let headerLength := data.byteAt 0 % 16 * 4
  if 20 ≤ data.length ∧ version = 4 ∧ 20 ≤ headerLength ∧ headerLength ≤ data.length then
    some
      { source := data.field 12 4
        destination := data.field 16 4
        protocol := data.byteAt 9
        payload := (data.take (data.field 2 2).bigValue).drop headerLength }
  else none

/-- Decodes a version 6 datagram. Its length counts what follows the forty bytes of header. -/
def ofIpv6? (data : Bytes) : Option Datagram :=
  if 40 ≤ data.length ∧ data.byteAt 0 / 16 = 6 then
    some
      { source := data.field 8 16
        destination := data.field 24 16
        protocol := data.byteAt 6
        payload := (data.take (40 + (data.field 4 2).bigValue)).drop 40 }
  else none

/-- Decodes a datagram of either version. -/
def decode? (data : Bytes) : Option Datagram := (ofIpv4? data).or (ofIpv6? data)

/-- The address on one side. -/
def address : Side → Datagram → Bytes
  | .source, d => d.source
  | .destination, d => d.destination

/-- The protocol number of segments. -/
def segmentProtocol : Nat := 6

end Datagram

/-- A segment of the Transmission Control Protocol. -/
structure Segment where
  /-- The sender's port. -/
  sourcePort : Nat
  /-- The receiver's port. -/
  destinationPort : Nat
  /-- The length of the header in bytes, options included. -/
  headerLength : Nat
  /-- What follows the header. -/
  payload : Bytes
  deriving DecidableEq

/-- The port on one side. -/
def Segment.port : Side → Segment → Nat
  | .source, s => s.sourcePort
  | .destination, s => s.destinationPort

/-- Decodes a segment. Its header is counted in words of four bytes. -/
def Segment.decode? (data : Bytes) : Option Segment :=
  let headerLength := data.byteAt 12 / 16 * 4
  if 20 ≤ data.length ∧ 20 ≤ headerLength ∧ headerLength ≤ data.length then
    some
      { sourcePort := (data.field 0 2).bigValue
        destinationPort := (data.field 2 2).bigValue
        headerLength
        payload := data.drop headerLength }
  else none

/-- The segment that a datagram carries, if it carries one. -/
def Datagram.segment? (d : Datagram) : Option Segment :=
  if d.protocol = segmentProtocol then Segment.decode? d.payload else none

namespace Packet

/-- The datagram that a packet carries, if it carries one. -/
def datagram? (p : Packet) : Option Datagram := Datagram.decode? p.datagramBytes

/-- The segment that a packet's datagram carries, if it carries one. -/
def segment? (p : Packet) : Option Segment := p.datagram?.bind (·.segment?)

end Packet

end TrafficSheet
