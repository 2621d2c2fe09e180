import TrafficSheet.Decimal.Text
import TrafficSheet.Pdf.LiteralString

/-!
# Numbers in a page description

Numbers are singles. A whole one that fits a signed word of 32 bits is written as an
integer, the power of two just past the largest word as that largest word. Any other is
written positionally with the fewest digits that read back; a whole one then ends in `.0`,
unless it is extremely large.

The marks on a page are a sequence of operators. Each is an instruction on a line of its own: a
keyword after the operands that it applies to.
-/

namespace TrafficSheet.Pdf

open Decimal

/-- The value of a magnitude, if it is a whole number. -/
def wholeValue? (m : Magnitude) : Option Nat :=
  let scaled := m.significand * power 2 m.exponent
  let den := power 2 (-m.exponent)
  if scaled % den = 0 then some (scaled / den) else none

/-- The text of a whole number that a signed word of 32 bits holds, or just fails to. -/
def wordText? (negative : Bool) (n : Nat) : Option String :=
  if n ≤ 0x80000000 then
    if n = 0 then some "0"
    else if negative then some ("-" ++ toString n)
    else some (toString (min n 0x7FFFFFFF))
  else none

/-- How numbers between the extremes are written. -/
def ordinaryStyle : NumberStyle := { NumberStyle.plain with pointZero := true, tie := .toEven }

/-- Whether a number is so small or so large that it is written without `.0`. -/
def isExtreme (x : Float32) : Bool := !(1e-6 < x.abs && x.abs < 1e12)

/-- The text of a number. -/
def numberText (x : Float32) : String :=
  let number := Number.ofFloat32 x
  let word? :=
    match number with
    | .finite negative m => (wholeValue? m).bind (wordText? negative)
    | _ => none
  match word? with
  | some text => text
  | none => number.text (if isExtreme x then .plain else ordinaryStyle)

/-! ### Instructions -/

/-- What an instruction applies to; `ν` are its numbers. -/
inductive Operand (ν : Type) where
  /-- A number. -/
  | number (value : ν)
  /-- A name. -/
  | name (text : Bytes)
  /-- A string. -/
  | string (bytes : Bytes)

/-- An instruction of a content stream. -/
structure Instruction (ν : Type) where
  /-- What it applies to. -/
  operands : List (Operand ν)
  /-- What it does. -/
  keyword : Bytes

/-- The bytes of an operand. -/
def Operand.encode : Operand Float32 → Bytes
  | .number x => ascii (numberText x)
  | .name text => byteOf '/' :: text
  | .string bytes => LiteralString.encode bytes

/-- The line of an instruction: its operands, each followed by a blank, and its keyword. -/
def Instruction.encode (i : Instruction Float32) : Bytes :=
  i.operands.flatMap (fun o => o.encode ++ ascii " ") ++ i.keyword

/-- An instruction that applies to numbers. -/
def Instruction.ofNumbers (numbers : List Float32) (keyword : String) : Instruction Float32 :=
  ⟨numbers.map .number, ascii keyword⟩

/-! ### Content streams -/

/-- What is done in a content stream. -/
inductive Operator where
  /-- Sets the color of text and filled areas. -/
  | fillColor (red green blue : Float32)
  /-- Sets the color of lines. -/
  | strokeColor (red green blue : Float32)
  /-- Starts a text object. -/
  | beginText
  /-- Sets the size of the page's font. -/
  | font (size : Float32)
  /-- Moves to where the next text starts. -/
  | textPosition (x y : Float32)
  /-- Shows a string. -/
  | showText (bytes : Bytes)
  /-- Ends a text object. -/
  | endText
  /-- Sets the width of lines. -/
  | lineWidth (width : Float32)
  /-- Starts a path at a point. -/
  | moveTo (x y : Float32)
  /-- Adds a straight line to a point. -/
  | lineTo (x y : Float32)
  /-- Adds a rectangle, given by its lower left corner and its size. -/
  | rectangle (x y width height : Float32)
  /-- Draws the path as a line. -/
  | stroke
  /-- Fills the path. -/
  | fill

/-- The instruction of an operator. -/
def Operator.instruction : Operator → Instruction Float32
  | .fillColor r g b => .ofNumbers [r, g, b] "rg"
  | .strokeColor r g b => .ofNumbers [r, g, b] "RG"
  | .beginText => .ofNumbers [] "BT"
  | .font size => ⟨[.name (ascii "F1"), .number size], ascii "Tf"⟩
  | .textPosition x y => .ofNumbers [x, y] "Td"
  | .showText bytes => ⟨[.string bytes], ascii "Tj"⟩
  | .endText => .ofNumbers [] "ET"
  | .lineWidth width => .ofNumbers [width] "w"
  | .moveTo x y => .ofNumbers [x, y] "m"
  | .lineTo x y => .ofNumbers [x, y] "l"
  | .rectangle x y width height => .ofNumbers [x, y, width, height] "re"
  | .stroke => .ofNumbers [] "S"
  | .fill => .ofNumbers [] "f"

/-- The line of an operator. -/
def Operator.encode (o : Operator) : Bytes := o.instruction.encode

/-- A content stream: one line for each operator, with nothing after the last. -/
def encodeContent (operators : List Operator) : Bytes :=
  (operators.map Operator.encode).intersperse (ascii "\n") |>.flatten

end TrafficSheet.Pdf
