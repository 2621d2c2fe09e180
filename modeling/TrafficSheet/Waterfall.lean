import TrafficSheet.Datagram
import TrafficSheet.Frame

/-!
# Samples of packets

A waterfall keeps the first packets of a capture, up to a bound, with what is needed to
draw each as a dot: its time, its length and the service that it was sent to. Packets past
the bound are counted only.
-/

namespace TrafficSheet

/-- What a packet was sent to, by the receiver's port. -/
inductive Service where
  /-- A web server. -/
  | web
  /-- A remote shell. -/
  | ssh
  /-- A name server. -/
  | dns
  /-- Anything else, or no port. -/
  | other
  deriving DecidableEq

/-- The service of a port. -/
def Service.ofPort? : Option Nat → Service
  | some port =>
    if port ∈ [80, 443, 8080, 8443] then .web
    else if port = 22 then .ssh
    else if port = 53 then .dns
    else .other
  | none => .other

/-- A packet that is kept for drawing. -/
structure Sample where
  /-- When it was captured. -/
  time : Timestamp
  /-- How many bytes were captured. -/
  length : Nat
  /-- What it was sent to. -/
  service : Service
  deriving DecidableEq

/-- The sample of a packet, with the segment that it carried. -/
def Sample.ofPacket (p : Packet) (segment? : Option Segment) : Sample where
  time := p.time
  length := p.capturedLength
  service := .ofPort? (segment?.map (·.destinationPort))

/-- Samples up to a bound. -/
structure Waterfall where
  /-- The samples in the order of arrival. -/
  samples : Array Sample
  /-- How many samples are kept. -/
  limit : Nat
  /-- How many packets came after the bound was reached. -/
  dropped : Nat
  deriving DecidableEq

namespace Waterfall

/-- The bound of a waterfall that is given none. -/
def defaultLimit : Nat := 10000

/-- A waterfall without samples. -/
def empty (limit : Nat) : Waterfall := ⟨#[], limit, 0⟩

/-- Keeps a packet's sample, or counts the packet as dropped. -/
def count (w : Waterfall) (p : Packet) (segment? : Option Segment) : Waterfall :=
  if w.limit ≤ w.samples.size then { w with dropped := w.dropped + 1 }
  else { w with samples := w.samples.push (.ofPacket p segment?) }

end Waterfall

end TrafficSheet
