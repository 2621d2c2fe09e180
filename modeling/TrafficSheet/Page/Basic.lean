import TrafficSheet.Canvas.Basic
import TrafficSheet.Page.Panels
import TrafficSheet.Report.Basic
import TrafficSheet.Report.Settings

/-!
# Drawing down a page

A flow draws at a height of the page, the cursor, and says where the next one draws. Flows
are put one below the other.

From top to bottom a page has a header of six lines, the volume over time, the single
packets, the addresses and the ports. Addresses and ports are shown as two charts side by
side, senders at the left and receivers at the right, with the first of their labels listed
below. Everything is drawn from the left edge of the content area.
-/

namespace TrafficSheet

/-- The calls that draw something from a cursor on, and the cursor after it. -/
abbrev Flow (α : Type) := α → List (Call α) × α

namespace Flow

variable {α : Type} [Scalar α]

/-- Draws nothing and takes no room. -/
def nothing : Flow α := fun cursor => ([], cursor)

/-- Leaves a space. -/
def space (height : α) : Flow α := fun cursor => ([], cursor + height)

/-- Draws one flow below another. -/
def below (upper lower : Flow α) : Flow α := fun cursor =>
  let drawn := upper cursor
  let rest := lower drawn.2
  (drawn.1 ++ rest.1, rest.2)

/-- Draws flows from top to bottom. -/
def stack (flows : List (Flow α)) : Flow α := flows.foldr below nothing

/-- The calls that draw a text with its top at a height. -/
def textCalls (size : α) (at_ : Point α) (text : String) : List (Call α) :=
  [.color .black, .font size,
   .text ⟨at_.x, at_.y + (TextMetrics.measure text size).height⟩ text]

/-- Draws a text at the left edge, and leaves a space below it. -/
def line (size space : α) (text : String) : Flow α := fun cursor =>
  (textCalls size ⟨0.0, cursor⟩ text, cursor + ((TextMetrics.measure text size).height + space))

/-- Draws a panel that takes the given height. -/
def panel (width height : α) (draw : Rect α → List (Call α)) : Flow α := fun cursor =>
  (draw ⟨0.0, cursor, width, height⟩, cursor + height)

end Flow

/-! ### The page of a report -/

/-- A page and all that is said on it. -/
structure Page (α : Type) where
  /-- The settings of the report. -/
  settings : Settings α
  /-- The statistics. -/
  report : Report
  /-- When the page was made. -/
  generated : Timestamp
  /-- The area that is drawn in. -/
  content : Rect α
  /-- The machine that the page is made on. -/
  platform : Platform

/-- A part of the page. -/
inductive Stage where
  /-- The lines at the top. -/
  | header
  /-- The chart of volume over time. -/
  | bandwidth
  /-- The place of a map, which takes no room and has nothing on it. -/
  | map
  /-- The chart of single packets. -/
  | waterfall
  /-- The charts and lists of addresses. -/
  | addresses
  /-- The charts and lists of ports. -/
  | ports
  deriving DecidableEq

/-- All parts from top to bottom. -/
def Stage.all : List Stage := [.header, .bandwidth, .map, .waterfall, .addresses, .ports]

namespace Page

variable {α : Type} [Scalar α]

/-- The title of every page. -/
def title : String := "netviz 0.1.0"

/-! ### The header -/

/-- The space below a line of the header. -/
def lineSpace (p : Page α) : α := p.settings.headerSize * 0.25

/-- The space below a block of the header. -/
def blockSpace (p : Page α) : α := p.lineSpace * 4.0

/-- The lines that say what the page is about. -/
def originLines (p : Page α) : List String :=
  [title, "Input: " ++ p.report.source, "Generated: " ++ p.generated.text p.platform.zone]

/-- The lines that say what was captured. -/
def captureLines (p : Page α) : List String :=
  ["Date range: " ++ p.report.range.earliest.text p.platform.zone ++ " to "
     ++ p.report.range.latest.text p.platform.zone,
   "Packets analyzed: " ++ Quantity.grouped p.report.packetCount ++ " ("
     ++ Quantity.byteSize p.report.byteCount ++ ")",
   "Transports: " ++ p.report.shares.line]

/-- Lines of the header with a space below them. -/
def block (p : Page α) (lines : List String) : Flow α :=
  .below (.stack (lines.map (Flow.line p.settings.headerSize p.lineSpace)))
    (.space p.blockSpace)

/-! ### Charts side by side -/

/-- The height of every chart. -/
def chartHeight : α := 100.0

/-- The width of one of two charts side by side. -/
def halfWidth (p : Page α) : α := p.content.width / 2.5

/-- The left edge of the right one of two charts. -/
def rightEdge (p : Page α) : α := p.content.width - p.halfWidth

/-- The line of a listed label; ranks count from zero. -/
def listLine (rank total : Nat) (entry : Ranked) : String :=
  toString (rank + 1) ++ ". " ++ entry.1 ++ " - " ++ Quantity.grouped entry.2 ++ " ("
    ++ toString (Quantity.percentage entry.2 total) ++ "%)"

/-- The calls that draw one side's line of a rank, if that side has one, and its height. -/
def listCell (p : Page α) (rank : Nat) (list : RankedList) (at_ : Point α) :
    List (Call α) × α :=
  match list.entries[rank]? with
  | some entry =>
    let text := listLine rank list.total entry
    (Flow.textCalls p.settings.listSize at_ text,
     (TextMetrics.measure text p.settings.listSize).height)
  | none => ([], 0.0)

/-- Draws both sides' lines of a rank. -/
def listRow (p : Page α) (left right : RankedList) (rank : Nat) : Flow α := fun cursor =>
  let leftCell := p.listCell rank left ⟨0.0, cursor⟩
  let rightCell := p.listCell rank right ⟨p.rightEdge, cursor⟩
  (leftCell.1 ++ rightCell.1, cursor + Scalar.larger leftCell.2 rightCell.2 * 1.5)

/-- Draws two charts side by side. -/
def charts (p : Page α) (left right : RankedPanel α) : Flow α := fun cursor =>
  (left.draw ⟨0.0, cursor, p.halfWidth, chartHeight⟩
     ++ right.draw ⟨p.rightEdge, cursor, p.halfWidth, chartHeight⟩,
   cursor + chartHeight)

/-- Draws two charts side by side and the first of their labels below them. -/
def pair (p : Page α) (left right : RankedPanel α) : Flow α :=
  .below (p.charts left right)
    (.stack ((List.range p.settings.listed).map (p.listRow left.list right.list)))

/-! ### The parts of the page -/

/-- The chart of addresses on one side. -/
def addressPanel (p : Page α) : Side → RankedPanel α
  | .source => .ofAddresses .source "Top Source Addresses" (p.report.topAddresses .source)
  | .destination =>
    .ofAddresses .destination "Top Destination Addresses" (p.report.topAddresses .destination)

/-- The chart of ports on one side. -/
def portPanel (p : Page α) : Side → RankedPanel α
  | .source => .ofPorts .source "Top Source Ports" (p.report.topPorts .source)
  | .destination =>
    .ofPorts .destination "Top Destination Ports" (p.report.topPorts .destination)

/-- Draws a part of the page. -/
def stage (p : Page α) : Stage → Flow α
  | .header => .below (p.block p.originLines) (p.block p.captureLines)
  | .bandwidth =>
    .panel p.content.width chartHeight fun bounds =>
      BandwidthPanel.draw bounds BandwidthPanel.style p.platform p.report.bandwidth
  | .map => .nothing
  | .waterfall =>
    .panel p.content.width chartHeight fun bounds =>
      WaterfallPanel.draw bounds WaterfallPanel.style p.report.waterfall
  | .addresses => p.pair (p.addressPanel .source) (p.addressPanel .destination)
  | .ports => p.pair (p.portPanel .source) (p.portPanel .destination)

/-- Draws all parts of the page. -/
def flow (p : Page α) : Flow α := .stack (Stage.all.map p.stage)

/-- The calls that draw the page, relative to its content area. -/
def calls (p : Page α) : List (Call α) := (p.flow 0.0).1

/-- Where the drawing ends. -/
def bottom (p : Page α) : α := (p.flow 0.0).2

/-- Where a part of the page starts: after all parts before it. -/
def start (p : Page α) (s : Stage) : α :=
  (Flow.stack ((Stage.all.takeWhile (· != s)).map p.stage) 0.0).2

/-! ### Drawing as far as it gets -/

/-- Why a part of the page is not drawn to its end, if it is not. -/
def abort? (p : Page α) : Stage → Option Abort
  | .bandwidth => BandwidthPanel.abort? p.platform p.report.bandwidth
  | .header | .map | .waterfall | .addresses | .ports => none

/-- Draws parts of the page one below the other. With the calls stands where the drawing ends, or
why it stopped in a part. -/
def runFrom (p : Page α) : List Stage → α → List (Call α) × Except Abort α
  | [], cursor => ([], .ok cursor)
  | s :: rest, cursor =>
    let drawn := p.stage s cursor
    match p.abort? s with
    | some reason => (drawn.1, .error reason)
    | none =>
      let below := p.runFrom rest drawn.2
      (drawn.1 ++ below.1, below.2)

/-- Draws all parts of the page, from its top on. -/
def run (p : Page α) : List (Call α) × Except Abort α := p.runFrom Stage.all 0.0

end Page

end TrafficSheet
