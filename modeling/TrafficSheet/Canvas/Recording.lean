import TrafficSheet.Canvas.Basic

/-!
# Recordings of drawings

A recording keeps what was drawn, at its place on the page: the origin that was set when it
was drawn is added to its coordinates. Line widths are not kept, and colors only as the
color set last.
-/

namespace TrafficSheet

/-- Something drawn, at its place on the page. -/
inductive Mark (α : Type) where
  /-- A text with the left end of its baseline and the font size it was drawn in. -/
  | text (at_ : Point α) (size : α) (text : String)
  /-- A straight line. -/
  | line (start stop : Point α)
  /-- A filled rectangle. -/
  | fill (rect : Rect α)
  /-- The outline of a rectangle. -/
  | stroke (rect : Rect α)

/-- What was drawn, and what is set. -/
structure Recording (α : Type) where
  /-- What was drawn, in order. -/
  marks : Array (Mark α)
  /-- The font size that is set. -/
  fontSize : α
  /-- The color that is set. -/
  color : Color α
  /-- The origin that is set. -/
  origin : Point α

namespace Recording

variable {α : Type} [Scalar α]

/-- A recording of nothing. -/
def empty : Recording α := ⟨#[], initialFontSize, .black, ⟨0.0, 0.0⟩⟩

/-- The place of a point on the page. -/
def place (r : Recording α) (p : Point α) : Point α := ⟨p.x + r.origin.x, p.y + r.origin.y⟩

/-- The place of a rectangle on the page. -/
def placeRect (r : Recording α) (rect : Rect α) : Rect α :=
  ⟨rect.x + r.origin.x, rect.y + r.origin.y, rect.width, rect.height⟩

/-- What a call draws, at its place on the page. -/
def mark? (r : Recording α) : Call α → Option (Mark α)
  | .text at_ text => some (.text (r.place at_) r.fontSize text)
  | .line start stop _ => some (.line (r.place start) (r.place stop))
  | .fill rect => some (.fill (r.placeRect rect))
  | .stroke rect _ => some (.stroke (r.placeRect rect))
  | _ => none

/-- Takes one call. -/
def draw (r : Recording α) (call : Call α) : Recording α :=
  match call with
  | .font size => { r with fontSize := size }
  | .color color => { r with color }
  | .shift dx dy => { r with origin := ⟨r.origin.x + dx, r.origin.y + dy⟩ }
  | _ =>
    match r.mark? call with
    | some mark => { r with marks := r.marks.push mark }
    | none => r

instance : Surface (Recording α) α where
  draw := draw
  answer? r
    | .measure text => some (TextMetrics.measure text r.fontSize)
    | _ => none

end Recording

end TrafficSheet
