import TrafficSheet.Decimal.Reader
import TrafficSheet.Pdf.Content
import TrafficSheet.Pdf.Syntax

/-!
# Reading content streams

A content stream is read piece by piece. Strings, names and words that say a number are operands;
every other word is a keyword, and ends the instruction that the operands before it belong to. A
stream ends after a keyword.

Words for an infinity and for not-a-number are read as numbers. Page descriptions have no such
words, but what is written for such numbers is nothing else.
-/

namespace TrafficSheet.Pdf

open Decimal

/-- A part of an instruction. -/
inductive Piece where
  /-- What it applies to. -/
  | operand (o : Operand Figure)
  /-- What it does. -/
  | keyword (text : Bytes)

/-- The number that a word says, or else the keyword that it is. -/
def Piece.ofWord (text : Bytes) : Piece :=
  match Figure.read? (text.map fun byte => Char.ofNat byte.toNat) with
  | some f => .operand (.number f)
  | none => .keyword text

/-- Reads what comes next, if it is no string. -/
def readPlainPiece? (bytes : Bytes) : Option (Piece × Bytes) :=
  match next? bytes with
  | some (.word text, rest) => some (.ofWord text, rest)
  | some (.name text, rest) => some (.operand (.name text), rest)
  | _ => none

/-- Reads what comes next. -/
def readPiece? (bytes : Bytes) : Option (Piece × Bytes) :=
  match LiteralString.read? (skip false bytes) with
  | some (text, rest) => some (.operand (.string text), rest)
  | none => readPlainPiece? bytes

theorem length_lt_of_readPiece? {bytes rest : Bytes} {piece : Piece}
    (h : readPiece? bytes = some (piece, rest)) : rest.length < bytes.length := by
  unfold readPiece? at h
  split at h
  · rename_i text left hstring
    cases h
    refine Nat.lt_of_lt_of_le ?_ (length_skip_le false bytes)
    unfold LiteralString.read? at hstring
    split at hstring
    · cases hstring
    · split at hstring
      · rename_i hafter _
        rw [hafter]
        exact Nat.lt_succ_of_lt (LiteralString.length_lt_of_readFrom hstring)
      · cases hstring
  · unfold readPlainPiece? at h
    split at h
    · rename_i hnext
      cases h
      exact length_lt_of_next? hnext
    · rename_i hnext
      cases h
      exact length_lt_of_next? hnext
    · cases h

/-- Reads instructions, of the first of which some operands were read, the last one first. -/
def readInstructions? (operands : List (Operand Figure)) (bytes : Bytes) :
    Option (List (Instruction Figure)) :=
  match _hpiece : readPiece? bytes with
  | some (.operand o, rest) => readInstructions? (o :: operands) rest
  | some (.keyword text, rest) =>
    (readInstructions? [] rest).map (⟨operands.reverse, text⟩ :: ·)
  | none => if (skip false bytes).isEmpty && operands.isEmpty then some [] else none
termination_by bytes.length
decreasing_by all_goals exact length_lt_of_readPiece? ‹_›

/-- Reads a content stream. -/
def readContent? (bytes : Bytes) : Option (List (Instruction Figure)) := readInstructions? [] bytes

/-- An operand is kept for the keyword after it. -/
theorem readInstructions?_operand {operands : List (Operand Figure)} {bytes rest : Bytes}
    {o : Operand Figure} (h : readPiece? bytes = some (.operand o, rest)) :
    readInstructions? operands bytes = readInstructions? (o :: operands) rest := by
  rw [readInstructions?]
  split <;> simp_all

/-- A keyword ends an instruction. -/
theorem readInstructions?_keyword {operands : List (Operand Figure)} {bytes rest : Bytes}
    {text : Bytes} (h : readPiece? bytes = some (.keyword text, rest)) :
    readInstructions? operands bytes =
      (readInstructions? [] rest).map (⟨operands.reverse, text⟩ :: ·) := by
  rw [readInstructions?]
  split <;> simp_all

end TrafficSheet.Pdf
