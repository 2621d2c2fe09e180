import TrafficSheet.Bandwidth
import TrafficSheet.Plot.Basic
import TrafficSheet.Quantity
import TrafficSheet.Tally
import TrafficSheet.Waterfall

/-!
# The charts of a page

Volume over time is drawn in sixty columns at most, the bytes of each slot and over them the bytes
of packets that carried a segment, on the same scale. A ranked panel draws the first labels of a
ranking as bars: there is one for addresses and one for ports, on each side of a conversation;
they differ in color, and in the room that their labels take. Of single packets every sample is a
dot: its place from left to right is its time, its height its length, and its color its service.
-/

namespace TrafficSheet.BandwidthPanel

variable {α : Type} [Scalar α]

/-- The most columns that are drawn. -/
def columnLimit : Nat := 60

/-- The title and the proportions of the chart. -/
def style : PlotStyle α :=
  { PlotStyle.titled "TCP Packets Received" with padLeftFactor := 0.2 }

/-- The columns and the labels of the axes, for slots of which the fullest has `most` bytes. -/
def plotted (zone : Zone) (area : Rect α) (style : PlotStyle α) (slots : List Volume) (most : Nat)
    (first last : Int) : List (Call α) :=
  Plot.columns area (slots.map (·.bytes)) most .gray
    ++ Plot.columns area (slots.map (·.segmentBytes)) most .blue
    ++ Plot.yTicks area style (Quantity.byteSize most)
    ++ Plot.xTicks area style (Clock.axisLabel zone first) (Clock.axisLabel zone last)

/-- Draws the chart; only its frame if there were no bytes, or if there are no slots to be had. -/
def draw (bounds : Rect α) (style : PlotStyle α) (platform : Platform) (b : Bandwidth) :
    List (Call α) :=
  Plot.frame bounds style ++
    match b.binsInWords platform.overflow columnLimit, b.span? with
    | .ok slots, some (first, last) =>
      let most := (slots.map (·.bytes)).foldl max 0
      if most = 0 then []
      else plotted platform.zone (Plot.frameArea bounds style) style slots most first last
    | _, _ => []

/-- Why the drawing of the chart stops at its frame, if it does. -/
def abort? (platform : Platform) (b : Bandwidth) : Option Abort :=
  match b.binsInWords platform.overflow columnLimit with
  | .ok _ => none
  | .error reason => some reason

end TrafficSheet.BandwidthPanel

/-! ### Charts of ranked labels -/

namespace TrafficSheet

/-- A chart of ranked labels. -/
structure RankedPanel (α : Type) where
  /-- The title and the proportions. -/
  style : PlotStyle α
  /-- The color of the bars. -/
  color : Color α
  /-- What is shown. -/
  list : RankedList

namespace RankedPanel

variable {α : Type} [Scalar α]

/-- The color of addresses on one side. -/
def addressColor : Side → Color α
  | .source => .blue
  | .destination => .purple

/-- The color of ports on one side. -/
def portColor : Side → Color α
  | .source => .green
  | .destination => .orange

/-- A panel of addresses. -/
def ofAddresses (side : Side) (title : String) (list : RankedList) : RankedPanel α where
  style := { PlotStyle.titled title with padLeftFactor := 0.45 }
  color := addressColor side
  list

/-- A panel of ports. -/
def ofPorts (side : Side) (title : String) (list : RankedList) : RankedPanel α where
  style := { PlotStyle.titled title with padLeftFactor := 0.2 }
  color := portColor side
  list

/-- Draws the panel. -/
def draw (bounds : Rect α) (p : RankedPanel α) : List (Call α) :=
  Plot.frame bounds p.style
    ++ Plot.bars (Plot.frameArea bounds p.style) p.style p.list.entries p.color

end RankedPanel

/-! ### The chart of single packets -/

variable {α : Type} [Scalar α]

/-- A timestamp as one number of seconds. -/
def Timestamp.inSeconds (t : Timestamp) : α :=
  Scalar.ofInt t.seconds + Scalar.ofInt t.micros / 1000000.0

/-- The color of a service. -/
def Service.color : Service → Color α
  | .web => .blue
  | .ssh => .green
  | .dns => .orange
  | .other => .gray

namespace WaterfallPanel

/-- The size of a dot. -/
def dotSize : α := 1.5

/-- The title and the proportions of the chart. -/
def style : PlotStyle α := { PlotStyle.plain with padLeftFactor := 0.2 }

/-- The ranges that samples are scaled to. -/
structure Scale (α : Type) where
  /-- The time of the earliest sample. -/
  start : α
  /-- The time from the earliest to the latest sample, a little above zero at the least. -/
  span : α
  /-- The length of the longest sample, one at the least. -/
  longest : Nat

/-- The ranges of a first sample and others. -/
def Scale.ofSamples (first : Sample) (others : List Sample) : Scale α :=
  let start := others.foldl (fun t s => Scalar.smaller t s.time.inSeconds) first.time.inSeconds
  let stop := others.foldl (fun t s => Scalar.larger t s.time.inSeconds) first.time.inSeconds
  { start
    span := Scalar.larger (stop - start) 2.220446049250313e-16
    longest := others.foldl (fun n s => max n s.length) (max 1 first.length) }

/-- The dot of a sample. -/
def dot (area : Rect α) (scale : Scale α) (s : Sample) : Rect α :=
  let across := (s.time.inSeconds - scale.start) / scale.span
  let up := Scalar.ofNat s.length / Scalar.ofNat scale.longest
  { x := area.x + across * Scalar.larger (area.width - dotSize) 0.0
    y := area.bottom - up * Scalar.larger (area.height - dotSize) 0.0 - dotSize
    width := dotSize
    height := dotSize }

/-- The dots of all samples in their order. -/
def dots (area : Rect α) : List Sample → List (Call α)
  | [] => []
  | first :: others =>
    let scale : Scale α := .ofSamples first others
    (first :: others).flatMap fun s => [.color s.service.color, .fill (dot area scale s)]

/-- Draws the chart; only its frame if its area has no width or no height. -/
def draw (bounds : Rect α) (style : PlotStyle α) (w : Waterfall) : List (Call α) :=
  let area := Plot.frameArea bounds style
  Plot.frame bounds style ++
    (if Scalar.atMost area.width (0.0 : α) || Scalar.atMost area.height (0.0 : α) then []
     else dots area w.samples.toList)

end WaterfallPanel

end TrafficSheet
