/-!
# Geometry on the page

Lengths are measured in points, from the top left corner to the right and downwards. All
geometry is written once over a `Scalar`, the arithmetic that it needs, so that it can be
computed in floating point and reasoned about over another number type.
-/

namespace TrafficSheet

/-- The arithmetic that geometry needs. -/
class Scalar (α : Type) extends Add α, Sub α, Mul α, Div α, OfScientific α where
  /-- A whole number. -/
  ofInt : Int → α
  /-- The larger of two numbers. -/
  larger : α → α → α
  /-- The smaller of two numbers. -/
  smaller : α → α → α
  /-- Whether the first number is at most the second. -/
  atMost : α → α → Bool

namespace Scalar

/-- A natural number. -/
def ofNat {α : Type} [Scalar α] (n : Nat) : α := ofInt n

end Scalar

/-- In floating point a number counts as larger and as smaller than what is no number. -/
instance : Scalar Float where
  ofInt := Float.ofInt
  larger a b := if a.isNaN then b else if a < b then b else a
  smaller a b := if a.isNaN then b else if b < a then b else a
  atMost a b := a ≤ b

/-- A point of the page. -/
structure Point (α : Type) where
  /-- The distance from the left. -/
  x : α
  /-- The distance from the top. -/
  y : α

/-- A rectangle, given by its top left corner and its size. -/
structure Rect (α : Type) where
  /-- The left edge. -/
  x : α
  /-- The top edge. -/
  y : α
  /-- The distance from the left to the right edge. -/
  width : α
  /-- The distance from the top to the bottom edge. -/
  height : α

namespace Rect

variable {α : Type} [Scalar α]

/-- The right edge. -/
def right (r : Rect α) : α := r.x + r.width

/-- The bottom edge. -/
def bottom (r : Rect α) : α := r.y + r.height

end Rect

/-- A color by its parts of red, green and blue, from 0 to 1. -/
structure Color (α : Type) where
  /-- The part of red. -/
  r : α
  /-- The part of green. -/
  g : α
  /-- The part of blue. -/
  b : α

namespace Color

variable {α : Type} [Scalar α]

/-- The color of text and axes. -/
def black : Color α := ⟨0.0, 0.0, 0.0⟩

/-- The color of what belongs to no class of its own. -/
def gray : Color α := ⟨0.6, 0.6, 0.6⟩

/-- The color of web traffic and of source addresses. -/
def blue : Color α := ⟨0.16, 0.38, 0.72⟩

/-- The color of remote shells and of source ports. -/
def green : Color α := ⟨0.2, 0.6, 0.3⟩

/-- The color of name lookups and of destination ports. -/
def orange : Color α := ⟨0.9, 0.55, 0.1⟩

/-- The color of destination addresses. -/
def purple : Color α := ⟨0.5, 0.3, 0.7⟩

end Color

end TrafficSheet
