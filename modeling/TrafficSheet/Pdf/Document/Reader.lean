import TrafficSheet.Pdf.Syntax

/-!
# Reading files

A file is read from its start to its end: its objects one after another, then the table of where
they start, the trailer, and where the table starts. It is noted where the objects and the table
were found, so that this can be compared with what the file says of it. Whatever the bytes of a
stream are, they are not looked at: the dictionary in front of them says how many they are.
-/

namespace TrafficSheet.Pdf

/-- An object as it stands in a file. -/
structure Indirect where
  /-- How many bytes there are before it. -/
  offset : Nat
  /-- Its number. -/
  number : Nat
  /-- What it is made of. -/
  value : Value
  /-- The bytes of its stream, if it has one. -/
  stream? : Option Bytes

/-- A line of the table of objects. -/
structure TableLine where
  /-- Where an object starts. -/
  offset : Nat
  /-- How often the number was used before. -/
  generation : Nat
  /-- Whether there is an object with the number. -/
  inUse : Bool
  deriving DecidableEq

/-- What is found in a file. -/
structure Document where
  /-- The objects, in the order in which they stand. -/
  objects : List Indirect
  /-- How many bytes there are before the table. -/
  tableOffset : Nat
  /-- The lines of the table, for the numbers from zero on. -/
  table : List TableLine
  /-- The dictionary after the table. -/
  trailer : Value
  /-- Where the file says that the table starts. -/
  start : Nat

/-! ### Numbers, keywords and fixed bytes -/

/-- Reads a whole number. -/
def readNumber? (bytes : Bytes) : Option (Nat × Bytes) :=
  match next? bytes with
  | some (.word text, rest) => (decimal? text).map fun n => (n, rest)
  | _ => none

/-- Reads a keyword: what is left after it. -/
def afterWord? (word : String) (bytes : Bytes) : Option Bytes :=
  match next? bytes with
  | some (.word text, rest) => if text = ascii word then some rest else none
  | _ => none

/-- Reads the given bytes: what is left after them. -/
def afterBytes? (front bytes : Bytes) : Option Bytes :=
  if front.isPrefixOf bytes then some (bytes.drop front.length) else none

/-! ### Objects -/

/-- Reads the bytes of a stream after its keyword. A line ends before them, and another one after
them. -/
def readStream? (dictionary : Value) (bytes : Bytes) : Option (Bytes × Bytes) := do
  let length ← (dictionary.lookup? "Length").bind Value.number?
  let content ← afterBytes? (ascii "\n") bytes
  let rest ← afterBytes? (ascii "\nendstream") (content.drop length)
  return (content.take length, rest)

/-- Reads the stream of an object, if it has one. -/
def readStreamIfAny? (value : Value) (bytes : Bytes) : Option (Option Bytes × Bytes) :=
  match afterWord? "stream" bytes with
  | none => some (none, bytes)
  | some rest => (readStream? value rest).map fun (content, rest) => (some content, rest)

/-- Reads an object of a file with `total` bytes, of which these are the last ones. -/
def readObject? (total : Nat) (bytes : Bytes) : Option (Indirect × Bytes) := do
  let (number, rest) ← readNumber? bytes
  let rest ← afterWord? "0" rest
  let rest ← afterWord? "obj" rest
  let (value, rest) ← readGroup? rest
  let (stream?, rest) ← readStreamIfAny? value rest
  let rest ← afterWord? "endobj" rest
  return (⟨total - (skip false bytes).length, number, value, stream?⟩, rest)

/-- Reads objects as long as there are any. -/
def readObjects (total : Nat) (bytes : Bytes) : List Indirect × Bytes :=
  match readObject? total bytes with
  | none => ([], bytes)
  | some (o, rest) =>
    if rest.length < bytes.length then
      let (objects, rest) := readObjects total rest
      (o :: objects, rest)
    else ([], bytes)
termination_by bytes.length

/-! ### The table and the end of a file -/

/-- Reads a line of the table. -/
def readLine? (bytes : Bytes) : Option (TableLine × Bytes) := do
  let (offset, rest) ← readNumber? bytes
  let (generation, rest) ← readNumber? rest
  match afterWord? "n" rest with
  | some rest => return (⟨offset, generation, true⟩, rest)
  | none =>
    let rest ← afterWord? "f" rest
    return (⟨offset, generation, false⟩, rest)

/-- Reads some lines of the table. -/
def readLines? : Nat → Bytes → Option (List TableLine × Bytes)
  | 0, bytes => some ([], bytes)
  | count + 1, bytes => do
    let (line, rest) ← readLine? bytes
    let (lines, rest) ← readLines? count rest
    return (line :: lines, rest)

/-- Reads a table that starts with number zero. -/
def readTable? (bytes : Bytes) : Option (List TableLine × Bytes) := do
  let rest ← afterWord? "xref" bytes
  let rest ← afterWord? "0" rest
  let (count, rest) ← readNumber? rest
  readLines? count rest

/-- Reads a file. -/
def Document.read? (file : Bytes) : Option Document := do
  let body ← afterBytes? (ascii "%PDF-1.7\n") file
  let (objects, rest) := readObjects file.length body
  let tableOffset := file.length - (skip false rest).length
  let (table, rest) ← readTable? rest
  let rest ← afterWord? "trailer" rest
  let (trailer, rest) ← readGroup? rest
  let rest ← afterWord? "startxref" rest
  let (start, rest) ← readNumber? rest
  if rest = ascii "\n%%EOF" then some ⟨objects, tableOffset, table, trailer, start⟩ else none

end TrafficSheet.Pdf
