import TrafficSheet.Canvas.Basic
import TrafficSheet.Pdf.Content
import TrafficSheet.Platform

/-!
# Drawing a page

A sheet turns drawing calls into operators. A page description measures from the bottom
left corner and in singles, so every point is moved by the origin, turned over at the height
of the page and rounded, in this order.

A line of a width that is negative, or no number, cannot be described (`Pdf.holds`). It stops the
program, and there is no sheet then (`Sheet.take`).
-/

namespace TrafficSheet.Pdf

/-- A page that is being drawn. -/
structure Sheet where
  /-- The width of the page. -/
  width : Float
  /-- The height of the page. -/
  height : Float
  /-- What was drawn, in order. -/
  operators : Array Operator
  /-- The font size that is set. -/
  fontSize : Float
  /-- The origin that is set. -/
  origin : Point Float

namespace Sheet

/-- An empty page. -/
def empty (width height : Float) : Sheet := ⟨width, height, #[], initialFontSize, ⟨0.0, 0.0⟩⟩

/-- The place of a point from the left of the page. -/
def across (s : Sheet) (x : Float) : Float32 := (x + s.origin.x).toFloat32

/-- The place of a point from the bottom of the page. -/
def up (s : Sheet) (y : Float) : Float32 := (s.height - (y + s.origin.y)).toFloat32

/-- A rectangle as a path. -/
def path (s : Sheet) (rect : Rect Float) : Operator :=
  .rectangle (s.across rect.x) (s.up rect.bottom) rect.width.toFloat32 rect.height.toFloat32

/-- The operators of a call. -/
def operatorsOf (s : Sheet) : Call Float → List Operator
  | .color color =>
    [.fillColor color.r.toFloat32 color.g.toFloat32 color.b.toFloat32,
     .strokeColor color.r.toFloat32 color.g.toFloat32 color.b.toFloat32]
  | .text at_ text =>
    [.beginText, .font s.fontSize.toFloat32, .textPosition (s.across at_.x) (s.up at_.y),
     .showText (shownBytes text), .endText]
  | .line start stop width =>
    [.lineWidth width.toFloat32, .moveTo (s.across start.x) (s.up start.y),
     .lineTo (s.across stop.x) (s.up stop.y), .stroke]
  | .fill rect => [s.path rect, .fill]
  | .stroke rect width => [.lineWidth width.toFloat32, s.path rect, .stroke]
  | .font _ | .measure _ | .shift _ _ => []

/-- Takes one call. -/
def draw (s : Sheet) (call : Call Float) : Sheet :=
  let drawn := { s with operators := s.operators.appendList (s.operatorsOf call) }
  match call with
  | .font size => { drawn with fontSize := size }
  | .shift dx dy => { drawn with origin := ⟨s.origin.x + dx, s.origin.y + dy⟩ }
  | _ => drawn

theorem width_draw (s : Sheet) (call : Call Float) : (s.draw call).width = s.width := by
  cases call <;> rfl

theorem height_draw (s : Sheet) (call : Call Float) : (s.draw call).height = s.height := by
  cases call <;> rfl

theorem operators_draw (s : Sheet) (call : Call Float) :
    (s.draw call).operators.toList = s.operators.toList ++ s.operatorsOf call := by
  cases call <;> exact Array.toList_appendList

instance : Surface Sheet Float where
  draw := draw
  answer? s
    | .measure text => some (TextMetrics.measure text s.fontSize)
    | _ => none

/-- The content stream of the page. -/
def content (s : Sheet) : Bytes := encodeContent s.operators.toList

end Sheet

/-! ### Calls that cannot be drawn -/

/-- The least width that a line may have, minus two to the power of -150. It is the least number
that is rounded to a single that is not negative. -/
def leastWidth : Float := -7.006492321624085e-46

/-- Whether a page description can hold the call: the width of a line, as a single, is a
number and not negative. -/
def holds : Call Float → Bool
  | .line _ _ width | .stroke _ width => leastWidth ≤ width
  | _ => true

namespace Sheet

/-- Takes one call, if a page description can hold it. -/
def take (s : Sheet) (call : Call Float) : Except Abort Sheet :=
  if holds call then .ok (s.draw call) else .error .lineWidth

/-- Takes calls up to the first that a page description cannot hold. -/
def takeAll (s : Sheet) (calls : List (Call Float)) : Except Abort Sheet := calls.foldlM take s

end Sheet

end TrafficSheet.Pdf
