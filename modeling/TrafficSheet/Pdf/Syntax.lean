import TrafficSheet.Pdf.LiteralString

/-!
# The syntax of files

Outside of its streams a file is made of words, names and brackets, with blanks and comments
between them. Numbers and keywords are words; a name starts with a slash. In brackets there is a
sequence of values, or a dictionary, in which keys and values take turns. A value may stand in for
an object: then it is the number of the object, another number and the letter R.
-/

namespace TrafficSheet.Pdf

/-! ### Words, names and brackets -/

/-- Whether a byte separates words and has no other meaning. -/
def isBlank (byte : UInt8) : Bool := [0, 9, 10, 12, 13, 32].contains byte

/-- Whether a byte may be part of a word or of a name. -/
def isRegular (byte : UInt8) : Bool := !isBlank byte && !(ascii "()<>[]{}/%").contains byte

/-- Whether a byte is a decimal digit. -/
def isDigit (byte : UInt8) : Bool := byteOf '0' ≤ byte && byte ≤ byteOf '9'

/-- The number that a word spells, if it is made of decimal digits. -/
def decimal? (word : Bytes) : Option Nat :=
  if word ≠ [] ∧ word.all isDigit then
    some (word.foldl (fun value digit => 10 * value + (digit.toNat - 48)) 0)
  else none

/-- What is left after blanks and comments. A comment goes from a percent sign to the end of its
line. -/
def skip (inComment : Bool) : Bytes → Bytes
  | [] => []
  | byte :: rest =>
    if inComment then skip (byte ≠ 10 ∧ byte ≠ 13) rest
    else if isBlank byte then skip false rest
    else if byte = byteOf '%' then skip true rest
    else byte :: rest

/-- What is between brackets. -/
inductive Bracket where
  /-- A sequence of values. -/
  | array
  /-- Keys and values, taking turns. -/
  | dictionary
  deriving DecidableEq

/-- What files are made of. -/
inductive Token where
  /-- An opening bracket. -/
  | opening (bracket : Bracket)
  /-- A closing bracket. -/
  | closing (bracket : Bracket)
  /-- A name, without its slash, as it is written. -/
  | name (text : Bytes)
  /-- A number or a keyword. -/
  | word (text : Bytes)

/-- Reads what starts with a byte that is no blank. Strings, which have brackets of their own, are
not read. -/
def tokenFrom? (byte : UInt8) (rest : Bytes) : Option (Token × Bytes) :=
  if byte = byteOf '[' then some (.opening .array, rest)
  else if byte = byteOf ']' then some (.closing .array, rest)
  else if byte = byteOf '<' then
    if rest.head? = some (byteOf '<') then some (.opening .dictionary, rest.tail) else none
  else if byte = byteOf '>' then
    if rest.head? = some (byteOf '>') then some (.closing .dictionary, rest.tail) else none
  else if byte = byteOf '/' then
    some (.name (rest.takeWhile isRegular), rest.dropWhile isRegular)
  else if isRegular byte then
    some (.word (byte :: rest.takeWhile isRegular), rest.dropWhile isRegular)
  else none

/-- Reads what comes next. -/
def next? (bytes : Bytes) : Option (Token × Bytes) :=
  match skip false bytes with
  | [] => none
  | byte :: rest => tokenFrom? byte rest

theorem length_skip_le (inComment : Bool) (bytes : Bytes) :
    (skip inComment bytes).length ≤ bytes.length := by
  induction bytes generalizing inComment with
  | nil => exact Nat.le_refl _
  | cons byte rest ih =>
    rw [skip]
    split
    · exact Nat.le_succ_of_le (ih _)
    · split
      · exact Nat.le_succ_of_le (ih _)
      · split
        · exact Nat.le_succ_of_le (ih _)
        · exact Nat.le_refl _

theorem length_le_of_tokenFrom? {byte : UInt8} {rest left : Bytes} {token : Token}
    (h : tokenFrom? byte rest = some (token, left)) : left.length ≤ rest.length := by
  have htail : rest.tail.length ≤ rest.length := by simp
  have hdrop : (rest.dropWhile isRegular).length ≤ rest.length :=
    (List.dropWhile_suffix _).length_le
  grind [tokenFrom?]

theorem length_lt_of_next? {bytes rest : Bytes} {token : Token}
    (h : next? bytes = some (token, rest)) : rest.length < bytes.length := by
  have hskip := length_skip_le false bytes
  unfold next? at h
  split at h
  · cases h
  · rename_i byte after hafter
    rw [hafter] at hskip
    exact Nat.lt_of_lt_of_le (Nat.lt_succ_of_le (length_le_of_tokenFrom? h)) hskip

/-! ### Values -/

/-- What an object is made of. -/
inductive Value where
  /-- A number, or a keyword. -/
  | word (text : Bytes)
  /-- A name. -/
  | name (text : Bytes)
  /-- The number of an object. -/
  | reference (number : Nat)
  /-- What is between brackets. -/
  | group (bracket : Bracket) (items : List Value)

/-- A bracket that is not closed yet. -/
structure Frame where
  /-- Which kind of bracket it is. -/
  bracket : Bracket
  /-- The values after it, the last one first. -/
  items : List Value

namespace Frame

/-- One more value. -/
def push (f : Frame) (v : Value) : Frame := { f with items := v :: f.items }

/-- The value of a bracket that is closed. -/
def value (f : Frame) : Value := .group f.bracket f.items.reverse

/-- One more word. The letter R makes a reference of the two numbers before it. -/
def pushWord? (f : Frame) (text : Bytes) : Option Frame :=
  if text = ascii "R" then
    match f.items with
    | .word generation :: .word number :: items =>
      if generation = ascii "0" then
        (decimal? number).map fun n => { f with items := .reference n :: items }
      else none
    | _ => none
  else some (f.push (.word text))

end Frame

/-- How far reading has come. -/
inductive Progress where
  /-- The outermost bracket is closed. -/
  | done (value : Value)
  /-- A bracket is open, and those around it. -/
  | inside (f : Frame) (around : List Frame)

/-- How far reading has come after one more token. -/
def Frame.step? (f : Frame) (around : List Frame) : Token → Option Progress
  | .opening bracket => some (.inside ⟨bracket, []⟩ (f :: around))
  | .closing bracket =>
    if bracket = f.bracket then
      match around with
      | [] => some (.done f.value)
      | outer :: around => some (.inside (outer.push f.value) around)
    else none
  | .name text => some (.inside (f.push (.name text)) around)
  | .word text => (f.pushWord? text).map (.inside · around)

/-- Reads the rest of a bracket, and of those around it: the value of the outermost one. -/
def readIn (f : Frame) (around : List Frame) (bytes : Bytes) : Option (Value × Bytes) :=
  match _hnext : next? bytes with
  | none => none
  | some (token, rest) =>
    match f.step? around token with
    | none => none
    | some (.done value) => some (value, rest)
    | some (.inside f around) => readIn f around rest
termination_by bytes.length
decreasing_by exact length_lt_of_next? ‹_›

/-- Reading takes one token after another. -/
theorem readIn_eq (f : Frame) (around : List Frame) (bytes : Bytes) :
    readIn f around bytes = (next? bytes).bind fun (token, rest) =>
      (f.step? around token).bind fun
        | .done value => some (value, rest)
        | .inside f around => readIn f around rest := by
  rw [readIn]
  split
  · simp_all
  · rename_i token rest h
    rw [h, Option.bind_some]
    dsimp only
    split <;> simp_all

/-- Reads a value in brackets. -/
def readGroup? (bytes : Bytes) : Option (Value × Bytes) :=
  match next? bytes with
  | some (.opening bracket, rest) => readIn ⟨bracket, []⟩ [] rest
  | _ => none

namespace Value

/-- The value of a key, where keys and values take turns. -/
def lookupAmong? (key : Bytes) : List Value → Option Value
  | .name text :: value :: rest => if text = key then some value else lookupAmong? key rest
  | _ => none

/-- The value of a key in a dictionary. -/
def lookup? (key : String) : Value → Option Value
  | .group .dictionary items => lookupAmong? (ascii key) items
  | _ => none

/-- The number that a value is. -/
def number? : Value → Option Nat
  | .word text => decimal? text
  | _ => none

mutual

/-- The numbers of all objects that are referred to in a value. -/
def references : Value → List Nat
  | .word _ | .name _ => []
  | .reference number => [number]
  | .group _ items => referencesAmong items

/-- The numbers of all objects that are referred to in some values. -/
def referencesAmong : List Value → List Nat
  | [] => []
  | value :: rest => value.references ++ referencesAmong rest

end

end Value

end TrafficSheet.Pdf
