import TrafficSheet.Canvas.Basic

/-!
# Parts of charts

A chart is a frame with a title and two axes, which leaves an area for what is plotted,
and in it columns over time or bars with labels, and labels at the ends of the axes.
-/

namespace TrafficSheet

/-- The title, the proportions and the font sizes of a chart. -/
structure PlotStyle (α : Type) where
  /-- The title; none if it is empty. -/
  title : String
  /-- The part of the width that is kept free for labels left of the plot. -/
  padLeftFactor : α
  /-- The font size of the title. -/
  titleSize : α
  /-- The font size of labels left of the plot. -/
  yTickSize : α
  /-- The font size of labels below the plot. -/
  xTickSize : α

namespace PlotStyle

variable {α : Type} [Scalar α]

/-- A chart without a title. -/
def plain : PlotStyle α where
  title := ""
  padLeftFactor := 0.1
  titleSize := 8.0
  yTickSize := 6.0
  xTickSize := 6.0

/-- A chart with a title. -/
def titled (title : String) : PlotStyle α := { plain with title }

end PlotStyle

namespace Plot

variable {α : Type} [Scalar α]

/-- The width of the axes. -/
def axisWidth : α := 0.5

/-- The part of its slot that a bar leaves free. -/
def barGap : α := 0.2

/-! ### The frame -/

/-- The title of a chart, centered at the top of its bounds, and where the plot may start. -/
def title (bounds : Rect α) (style : PlotStyle α) : List (Call α) × α :=
  if style.title.isEmpty then ([], bounds.y)
  else
    let extent := TextMetrics.measure style.title style.titleSize
    let baseline := bounds.y + extent.height
    ([.font style.titleSize,
      .text ⟨bounds.x + (bounds.width - extent.width) / 2.0, baseline⟩ style.title],
     baseline + style.titleSize * 0.5)

/-- The area inside the axes of a plot that starts at `top`. -/
def area (bounds : Rect α) (style : PlotStyle α) (top : α) : Rect α :=
  let padLeft := bounds.width * style.padLeftFactor
  let padBottom := bounds.height * 0.12
  { x := bounds.x + padLeft
    y := top
    width := Scalar.larger (bounds.width - padLeft - bounds.width * 0.04) 0.0
    height := Scalar.larger (bounds.bottom - padBottom - top) 0.0 }

/-- The lines at the left and at the bottom of an area. -/
def axes (area : Rect α) : List (Call α) :=
  [.line ⟨area.x, area.y⟩ ⟨area.x, area.bottom⟩ axisWidth,
   .line ⟨area.x, area.bottom⟩ ⟨area.right, area.bottom⟩ axisWidth]

/-- The area of the chart with this style in these bounds. -/
def frameArea (bounds : Rect α) (style : PlotStyle α) : Rect α :=
  area bounds style (title bounds style).2

/-- Title and axes of a chart. -/
def frame (bounds : Rect α) (style : PlotStyle α) : List (Call α) :=
  .color .black :: ((title bounds style).1 ++ axes (frameArea bounds style))

/-! ### Labels at the axes -/

/-- A label left of the area, centered on a height. -/
def yTick (area : Rect α) (style : PlotStyle α) (label : String) (y : α) : Call α :=
  let extent := TextMetrics.measure label style.yTickSize
  .text ⟨area.x - extent.width - style.yTickSize * 0.5, y + extent.height / 2.0⟩ label

/-- Labels the top of the left axis, and its origin with a zero. -/
def yTicks (area : Rect α) (style : PlotStyle α) (label : String) : List (Call α) :=
  [.color .black, .font style.yTickSize, yTick area style label area.y,
   yTick area style "0" area.bottom]

/-- Labels both ends of the bottom axis. -/
def xTicks (area : Rect α) (style : PlotStyle α) (left right : String) : List (Call α) :=
  let baseline := area.bottom + style.xTickSize * 1.2
  let extent := TextMetrics.measure right style.xTickSize
  [.color .black, .font style.xTickSize, .text ⟨area.x, baseline⟩ left,
   .text ⟨area.right - extent.width, baseline⟩ right]

/-! ### Columns and bars -/

/-- Columns side by side, as high as the area at the value `most`; none for a zero. -/
def columns (area : Rect α) (values : List Nat) (most : Nat) (color : Color α) : List (Call α) :=
  if most = 0 ∨ values = [] ∨ Scalar.atMost area.width (0.0 : α) = true then []
  else
    let slot : α := area.width / Scalar.ofNat values.length
    .color color :: values.zipIdx.filterMap fun (value, i) =>
      if value = 0 then none
      else
        let height : α := area.height * (Scalar.ofNat (min value most) / Scalar.ofNat most)
        some (.fill ⟨area.x + slot * Scalar.ofNat i, area.bottom - height, slot, height⟩)

/-- The font size of bar labels: that of the left axis, or the height of a bar if that is less. -/
def barLabelSize (style : PlotStyle α) (barHeight : α) : α :=
  Scalar.smaller style.yTickSize (Scalar.larger barHeight 1.0)

/-- Horizontal bars from top to bottom, as wide as the area at the largest count, each with
its label to the left of the area. -/
def bars (area : Rect α) (style : PlotStyle α) (entries : List (String × Nat)) (color : Color α) :
    List (Call α) :=
  let most := (entries.map (·.2)).foldl max 0
  if most = 0 ∨ Scalar.atMost area.height (0.0 : α) = true then []
  else
    let slot : α := area.height / Scalar.ofNat entries.length
    let barHeight := slot * (1.0 - barGap)
    let labelSize := barLabelSize style barHeight
    entries.zipIdx.flatMap fun ((label, count), i) =>
      let y := area.y + slot * Scalar.ofNat i + slot * barGap / 2.0
      let extent := TextMetrics.measure label labelSize
      [.color color,
       .fill ⟨area.x, y, area.width * Scalar.ofNat count / Scalar.ofNat most, barHeight⟩,
       .color .black,
       .font labelSize,
       .text ⟨area.x - extent.width - labelSize * 0.5, y + (barHeight + extent.height) / 2.0⟩ label]

end Plot

end TrafficSheet
