import TrafficSheet.Bytes
import TrafficSheet.Decimal.Text

/-!
# Values in JSON

The text of a value, either in one line without blanks or indented by two blanks a level.
Only quotes, backslashes and control characters are escaped; empty lists and objects stay
on their line.
-/

namespace TrafficSheet.Json

open Decimal

/-- A value. -/
inductive Value where
  /-- A whole number. -/
  | whole (n : Nat)
  /-- A number in floating point. -/
  | real (x : Float)
  /-- A text. -/
  | text (s : String)
  /-- Values in order. -/
  | list (items : List Value)
  /-- Named values in order. -/
  | object (fields : List (String × Value))

/-! ### Texts and numbers -/

/-- A character as it stands in a text. -/
def escape (c : Char) : List Char :=
  match c with
  | '"' => ['\\', '"']
  | '\\' => ['\\', '\\']
  | '\x08' => ['\\', 'b']
  | '\t' => ['\\', 't']
  | '\n' => ['\\', 'n']
  | '\x0c' => ['\\', 'f']
  | '\r' => ['\\', 'r']
  | _ =>
    if c.toNat < 32 then ['\\', 'u', '0', '0'] ++ (Bytes.hexPair (UInt8.ofNat c.toNat)).toList
    else [c]

/-- A text between quotes. -/
def quoted (s : String) : String := String.ofList ('"' :: (s.toList.flatMap escape ++ ['"']))

/-- Numbers have the fewest digits that read back. They are written positionally if at most
four zeros follow the point or at most sixteen digits stand before it; whole ones end in `.0`. -/
def numberStyle : NumberStyle :=
  { NumberStyle.plain with
    positional := fun point => decide (-5 < point ∧ point ≤ 16)
    pointZero := true
    tie := .toEven }

/-- The text of a number; what is not finite has no number in this format. -/
def numberText (x : Float) : String :=
  if x.isFinite then (Number.ofFloat x).text numberStyle else "null"

/-! ### Layout -/

/-- How a value is laid out. -/
inductive Layout where
  /-- In one line without blanks. -/
  | compact
  /-- Every item on a line of its own, two blanks further in than what it belongs to. -/
  | indented

/-- What stands before an item at a depth. -/
def Layout.lineBreak (depth : Nat) : Layout → String
  | .compact => ""
  | .indented => String.ofList ('\n' :: List.replicate (2 * depth) ' ')

/-- What stands between a name and its value. -/
def Layout.colon : Layout → String
  | .compact => ":"
  | .indented => ": "

/-- Items between brackets. -/
def enclose (layout : Layout) (depth : Nat) (opening closing : String) (items : List String) :
    String :=
  if items.isEmpty then opening ++ closing
  else
    opening ++ ",".intercalate (items.map (layout.lineBreak (depth + 1) ++ ·))
      ++ layout.lineBreak depth ++ closing

mutual

/-- The text of a value at a depth. -/
def Value.render (layout : Layout) (depth : Nat) : Value → String
  | .whole n => toString n
  | .real x => numberText x
  | .text s => quoted s
  | .list items => enclose layout depth "[" "]" (renderItems layout (depth + 1) items)
  | .object fields =>
    enclose layout depth "\x7b" "\x7d" (renderFields layout (depth + 1) fields)

/-- The texts of values at a depth. -/
def renderItems (layout : Layout) (depth : Nat) : List Value → List String
  | [] => []
  | item :: items => item.render layout depth :: renderItems layout depth items

/-- The texts of named values at a depth. -/
def renderFields (layout : Layout) (depth : Nat) : List (String × Value) → List String
  | [] => []
  | (name, value) :: fields =>
    (quoted name ++ layout.colon ++ value.render layout depth) :: renderFields layout depth fields

end

/-- The text of a value in one line. -/
def Value.compact (v : Value) : String := v.render .compact 0

/-- The indented text of a value. -/
def Value.indented (v : Value) : String := v.render .indented 0

end TrafficSheet.Json
