import TrafficSheet.Frame

/-!
# Capture files

A capture file starts with twenty-four bytes that fix its encoding, the largest length of
a record and the link, and goes on with records: sixteen bytes of header, then the
captured bytes. This module holds the parts of a capture, what may be wrong with one, and the
bytes of a file that has given parts; `TrafficSheet.Capture.Reader` is the inverse.

What is not formalized: the version, the time zone and the accuracy that the head also holds.
They are filler, of which any bytes will do. Of the formats of captures this one only is read.
-/

namespace TrafficSheet.Capture

/-- The unit of the part of a time below one second. -/
inductive Resolution where
  /-- Microseconds. -/
  | micro
  /-- Nanoseconds. -/
  | nano
  deriving DecidableEq

/-- How numbers and times are written in a file. -/
structure Encoding where
  /-- The byte order of all numbers. -/
  order : ByteOrder
  /-- The unit of fractions of a second. -/
  resolution : Resolution
  deriving DecidableEq

/-- The number that a file of this resolution starts with, in its own byte order. -/
def Resolution.magic : Resolution → Nat
  | .micro => 0xa1b2c3d4
  | .nano => 0xa1b23c4d

/-- What the head of a file says. -/
structure Header where
  /-- How the file is written. -/
  encoding : Encoding
  /-- The largest number of bytes that a record may have. -/
  snapLength : Nat
  /-- The number of the link. -/
  linkNumber : Nat
  deriving DecidableEq

/-- One record of a file. -/
structure Record where
  /-- Seconds since the start of 1970. -/
  seconds : Nat
  /-- The part of the time below one second, in the file's unit. -/
  fraction : Nat
  /-- How long the frame was on the link. -/
  wireLength : Nat
  /-- The bytes that were captured. -/
  data : Bytes
  deriving DecidableEq

/-- What may be wrong with the bytes of a capture. -/
inductive Fault where
  /-- The bytes end inside a header or a record. -/
  | incomplete
  /-- The file starts with no known number. -/
  | wrongMagic
  /-- The fraction of a second, in nanoseconds, takes more than 32 bits. -/
  | fractionOverflow
  /-- The fraction makes a second or more. -/
  | fractionTooLarge
  /-- More bytes were captured than the file allows. -/
  | capturedOverSnap
  /-- The frame was longer than the file allows. -/
  | wireOverSnap
  /-- More bytes were captured than the frame had. -/
  | capturedOverWire
  deriving DecidableEq

/-- The text of a fault. -/
def Fault.message : Fault → String
  | .incomplete => "Error reading bytes"
  | .wrongMagic => "Invalid field value: PcapHeader: wrong magic number"
  | .fractionOverflow => "Invalid field value: PacketHeader ts_nanosecond is invalid"
  | .fractionTooLarge => "Invalid field value: PacketHeader ts_nanosecond >= 1_000_000_000"
  | .capturedOverSnap => "Invalid field value: PacketHeader incl_len > snap_len"
  | .wireOverSnap => "Invalid field value: PacketHeader orig_len > snap_len"
  | .capturedOverWire => "Invalid field value: PacketHeader incl_len > orig_len"

/-- The fraction of a record's time in nanoseconds. -/
def Record.nanos (resolution : Resolution) (r : Record) : Nat :=
  match resolution with
  | .micro => r.fraction * 1000
  | .nano => r.fraction

/-- The first thing that is wrong with a record's numbers, if anything is. -/
def Record.fault? (h : Header) (r : Record) : Option Fault :=
  if 0x100000000 ≤ r.nanos h.encoding.resolution then some .fractionOverflow
  else if 1000000000 ≤ r.nanos h.encoding.resolution then some .fractionTooLarge
  else if h.snapLength < r.data.length then some .capturedOverSnap
  else if h.snapLength < r.wireLength then some .wireOverSnap
  else if r.wireLength < r.data.length then some .capturedOverWire
  else none

/-- The packet that a record holds. -/
def Record.packet (h : Header) (r : Record) : Packet :=
  .ofFrame (.ofElapsed r.seconds (r.nanos h.encoding.resolution)) (.ofNumber h.linkNumber) r.data

/-! ### Writing captures -/

/-- The four bytes that a file of this encoding starts with. -/
def Encoding.magicBytes (e : Encoding) : Bytes := .ofValue e.order 4 e.resolution.magic

/-- The head of a file; `filler` are the twelve bytes of version and time zone. -/
def Header.encode (filler : Bytes) (h : Header) : Bytes :=
  h.encoding.magicBytes ++ filler ++ .ofValue h.encoding.order 4 h.snapLength
    ++ .ofValue h.encoding.order 4 h.linkNumber

/-- A record with its header. -/
def Record.encode (order : ByteOrder) (r : Record) : Bytes :=
  .ofValue order 4 r.seconds ++ .ofValue order 4 r.fraction ++ .ofValue order 4 r.data.length
    ++ .ofValue order 4 r.wireLength ++ r.data

/-- Records one after another. -/
def encodeRecords (order : ByteOrder) (records : List Record) : Bytes :=
  records.flatMap (·.encode order)

end TrafficSheet.Capture
