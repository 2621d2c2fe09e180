import TrafficSheet.Geometry

/-!
# Drawing calls

A drawing is a list of calls. Whatever takes the calls one by one is a surface: it keeps what the
calls set (font size, color, origin) and answers how large a text is in the font that is set.

Texts are set in Helvetica. Their width is the sum of the advance widths of their characters;
their height is that of capitals, and that of descenders more if any of their characters reaches
below the line.

What is not formalized: what a text looks like. The widths are those of a table that the program
has; that they are the widths of the font which a viewer takes, is not proved.
-/

namespace TrafficSheet

/-- The size of a text's box. -/
structure Extent (α : Type) where
  /-- The width. -/
  width : α
  /-- The height. -/
  height : α

namespace TextMetrics

/-- The advance widths of the printable characters from the blank to the tilde, in
thousandths of the font size. -/
def advances : List Nat :=
  [278, 278, 355, 556, 556, 889, 667, 191, 333, 333, 389, 584, 278, 333, 278, 278,
   556, 556, 556, 556, 556, 556, 556, 556, 556, 556,
   278, 278, 584, 584, 584, 556, 1015,
   667, 667, 722, 722, 667, 611, 778, 722, 278, 500, 667, 556, 833,
   722, 778, 667, 778, 722, 667, 611, 722, 667, 944, 667, 667, 611,
   278, 278, 278, 469, 556, 333,
   556, 556, 500, 556, 556, 278, 556, 556, 222, 222, 500, 222, 833,
   556, 556, 556, 556, 333, 500, 278, 556, 500, 722, 500, 500, 500,
   334, 260, 334, 584]

/-- The advance width of a character; that of a digit for one without a width of its own. -/
def advance (c : Char) : Nat :=
  if 32 ≤ c.toNat then advances.getD (c.toNat - 32) 556 else 556

/-- The characters that reach below the line. -/
def descending : List Char :=
  ['g', 'j', 'p', 'q', 'y', ',', ';', '(', ')', '[', ']', '{', '}', '|', '_', '@']

/-- The sum of the advance widths of a text's characters. -/
def advanceSum (text : String) : Nat := text.toList.foldr (fun c total => advance c + total) 0

/-- Whether a character of the text reaches below the line. -/
def descends (text : String) : Bool := text.toList.any descending.contains

variable {α : Type} [Scalar α]

/-- The size of a text in a font of the given size. -/
def measure (text : String) (size : α) : Extent α :=
  if text.isEmpty then ⟨0.0, 0.0⟩
  else
    { width := Scalar.ofNat (advanceSum text) * size / 1000.0
      height := (0.718 + (if descends text then 0.207 else 0.0)) * size }

end TextMetrics

/-! ### Drawing calls -/

/-- One call to a surface. -/
inductive Call (α : Type) where
  /-- Sets the size of the font. -/
  | font (size : α)
  /-- Sets the color of all that is drawn after it. -/
  | color (color : Color α)
  /-- Asks for the size of a text, and draws nothing. -/
  | measure (text : String)
  /-- Draws a text with the left end of its baseline at a point. -/
  | text (at_ : Point α) (text : String)
  /-- Draws a straight line. -/
  | line (start stop : Point α) (width : α)
  /-- Fills a rectangle. -/
  | fill (rect : Rect α)
  /-- Draws the outline of a rectangle. -/
  | stroke (rect : Rect α) (width : α)
  /-- Moves the origin of all that comes after it. -/
  | shift (dx dy : α)

/-- A way of taking drawing calls. -/
class Surface (σ : Type) (α : outParam Type) where
  /-- Takes one call. -/
  draw : σ → Call α → σ
  /-- The answer to a call that asks for a size. -/
  answer? : σ → Call α → Option (Extent α)

namespace Surface

variable {σ α : Type} [Surface σ α]

/-- Takes calls one after another. -/
def drawAll (s : σ) (calls : List (Call α)) : σ := calls.foldl draw s

/-- The answers to calls taken one after another. -/
def answers : σ → List (Call α) → List (Option (Extent α))
  | _, [] => []
  | s, call :: calls => answer? s call :: answers (draw s call) calls

end Surface

/-- The size of the font before any is set. -/
def initialFontSize {α : Type} [Scalar α] : α := 10.0

end TrafficSheet
