import TrafficSheet.Bytes
import TrafficSheet.Clock

/-!
# Captured frames

A packet is a captured frame with its time, its length and the framing of its link. The framing
says where the type of the carried datagram stands and where the datagram starts. The length is
kept beside the frame, in a word that may be too small for it.

What is not formalized: tags between an address and a type, and the framings of other links. What
stands behind such a header is not looked into.
-/

namespace TrafficSheet

/-- The number that says what a frame carries. -/
abbrev EtherType := Nat

namespace EtherType

/-- Internet Protocol, version 4. -/
def ipv4 : EtherType := 0x0800

/-- Address resolution. -/
def arp : EtherType := 0x0806

/-- Internet Protocol, version 6. -/
def ipv6 : EtherType := 0x86DD

end EtherType

/-- How a link wraps the datagrams that it carries. -/
inductive Link where
  /-- Two addresses and a type, fourteen bytes. -/
  | ethernet
  /-- Bare datagrams. -/
  | raw
  /-- The sixteen bytes of a capture on all interfaces, the type in the last two. -/
  | cooked
  /-- An address family in four bytes, in the byte order of the capturing host. -/
  | loopback
  /-- A framing that is not looked into, with its number. -/
  | unsupported (number : Nat)
  deriving DecidableEq

/-- The link that a capture file's number names. -/
def Link.ofNumber : Nat → Link
  | 0 => .loopback
  | 1 => .ethernet
  | 101 => .raw
  | 113 => .cooked
  | n => .unsupported n

/-- How many bytes a link puts before a datagram, if that is known. -/
def Link.headerLength? : Link → Option Nat
  | .ethernet => some 14
  | .raw => some 0
  | .cooked => some 16
  | .loopback => some 4
  | .unsupported _ => none

/-- The type that an address family of a loopback frame stands for. -/
def EtherType.ofAddressFamily? (family : Nat) : Option EtherType :=
  if family = 2 then some ipv4
  else if family = 24 ∨ family = 28 ∨ family = 30 then some ipv6
  else none

/-- The type that the version in a bare datagram's first half byte stands for. -/
def EtherType.ofVersion? (version : Nat) : Option EtherType :=
  if version = 4 then some ipv4 else if version = 6 then some ipv6 else none

/-- A captured frame. -/
structure Packet where
  /-- When it was captured. -/
  time : Timestamp
  /-- How many bytes were captured, as the packet says. -/
  capturedLength : Nat
  /-- How the link frames it. -/
  link : Link
  /-- The bytes that were captured. -/
  frame : Bytes
  deriving DecidableEq

namespace Packet

/-- The packet of a frame, with as much of its length as a word of 32 bits holds. -/
def ofFrame (time : Timestamp) (link : Link) (frame : Bytes) : Packet where
  time
  capturedLength := frame.length % 0x100000000
  link
  frame

/-- The type of what the frame carries; none if the frame is too short for it or its
framing says nothing that is recognized. A loopback family below 256 in little-endian
order was written that way, any other one in big-endian order. -/
def etherType? (p : Packet) : Option EtherType :=
  match p.link with
  | .ethernet => if 14 ≤ p.frame.length then some (Bytes.field 12 2 p.frame).bigValue else none
  | .cooked => if 16 ≤ p.frame.length then some (Bytes.field 14 2 p.frame).bigValue else none
  | .raw => p.frame.head?.bind fun first => EtherType.ofVersion? (first.toNat / 16)
  | .loopback =>
    if 4 ≤ p.frame.length then
      let family : Bytes := p.frame.take 4
      EtherType.ofAddressFamily?
        (if family.littleValue < 0x100 then family.littleValue else family.bigValue)
    else none
  | .unsupported _ => none

/-- What stands after the link's header; nothing if the framing is not known. -/
def datagramBytes (p : Packet) : Bytes :=
  match p.link.headerLength? with
  | some length => p.frame.drop length
  | none => []

end Packet

end TrafficSheet
