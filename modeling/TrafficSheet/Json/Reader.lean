import TrafficSheet.Decimal.Reader
import TrafficSheet.Json

/-!
# Reading JSON

A text is split into brackets, commas, colons, texts between quotes, and words; and the tree that
they stand for is put together from them one after another. Brackets that are not closed yet wait on
a stack. Of words only numbers and the word for nothing are known.
-/

namespace TrafficSheet.Json

open Decimal

/-! ### Texts between quotes -/

/-- The number that a hexadecimal digit spells. -/
def hexDigit? (c : Char) : Option Nat :=
  if c.isDigit then some (c.toNat - '0'.toNat)
  else if 'a' ≤ c ∧ c ≤ 'f' then some (c.toNat - 'a'.toNat + 10)
  else if 'A' ≤ c ∧ c ≤ 'F' then some (c.toNat - 'A'.toNat + 10)
  else none

/-- The number that hexadecimal digits spell. -/
def hexValue? (digits : List Char) : Option Nat :=
  digits.foldlM (fun value c => (hexDigit? c).map (16 * value + ·)) 0

/-- What a letter after a backslash stands for. -/
def unescape? (c : Char) : Option Char :=
  [('"', '"'), ('\\', '\\'), ('/', '/'), ('b', '\x08'), ('f', '\x0c'), ('n', '\n'), ('r', '\r'),
    ('t', '\t')].lookup c

/-- What stands after a backslash, and what is left after it. -/
def readEscape? : List Char → Option (Char × List Char)
  | [] => none
  | mark :: rest =>
    if mark = 'u' then
      if 4 ≤ rest.length then
        (hexValue? (rest.take 4)).map fun code => (Char.ofNat code, rest.drop 4)
      else none
    else (unescape? mark).map (·, rest)

theorem length_lt_of_readEscape? {cs rest : List Char} {c : Char}
    (h : readEscape? cs = some (c, rest)) : rest.length < cs.length := by
  cases cs with
  | nil => cases h
  | cons mark cs =>
    rw [readEscape?] at h
    split at h
    · split at h
      · obtain ⟨code, -, hcode⟩ := Option.map_eq_some_iff.mp h
        cases hcode
        simp only [List.length_drop, List.length_cons]
        omega
      · cases h
    · obtain ⟨c', -, hc'⟩ := Option.map_eq_some_iff.mp h
      cases hc'
      exact Nat.lt_succ_self _

/-- Puts a character in front of those that were read. -/
def prepend (c : Char) (read : List Char × List Char) : List Char × List Char :=
  (c :: read.1, read.2)

/-- Reads a text whose opening quote was read, and what is left after the closing one. -/
def readText? (cs : List Char) : Option (List Char × List Char) :=
  match cs with
  | [] => none
  | c :: rest =>
    if c = '"' then some ([], rest)
    else if c = '\\' then
      match _hescape : readEscape? rest with
      | none => none
      | some (c, rest) => (readText? rest).map (prepend c)
    else if c.toNat < 32 then none
    else (readText? rest).map (prepend c)
termination_by cs.length
decreasing_by
  · exact Nat.lt_succ_of_lt (length_lt_of_readEscape? ‹_›)
  · exact Nat.lt_succ_self _

theorem length_lt_of_readText? {cs : List Char} {read : List Char × List Char}
    (h : readText? cs = some read) : read.2.length < cs.length := by
  induction cs using readText?.induct generalizing read with
  | case1 => rw [readText?] at h; cases h
  | case2 rest =>
    rw [readText?, if_pos rfl] at h
    cases h
    exact Nat.lt_succ_self _
  | case3 rest hnone hne =>
    rw [readText?, if_neg hne, if_pos rfl] at h
    split at h <;> simp_all
  | case4 rest c left hescape hne ih =>
    rw [readText?, if_neg hne, if_pos rfl] at h
    split at h
    · cases h
    · rename_i hescape'
      rw [hescape] at hescape'
      cases hescape'
      obtain ⟨after, hafter, rfl⟩ := Option.map_eq_some_iff.mp h
      have hless := ih hafter
      exact Nat.lt_succ_of_lt (Nat.lt_trans hless (length_lt_of_readEscape? hescape))
  | case5 c rest hne hne' hlow =>
    rw [readText?, if_neg hne, if_neg hne', if_pos hlow] at h
    cases h
  | case6 c rest hne hne' hlow ih =>
    rw [readText?, if_neg hne, if_neg hne', if_neg hlow] at h
    obtain ⟨after, hafter, rfl⟩ := Option.map_eq_some_iff.mp h
    have hless := ih hafter
    exact Nat.lt_succ_of_lt hless

/-! ### Tokens -/

/-- What is between brackets. -/
inductive Bracket where
  /-- Values in order. -/
  | list
  /-- Named values in order. -/
  | object
  deriving DecidableEq

/-- What texts in JSON are made of. -/
inductive Token where
  /-- An opening bracket. -/
  | opening (bracket : Bracket)
  /-- A closing bracket. -/
  | closing (bracket : Bracket)
  /-- A comma. -/
  | comma
  /-- A colon. -/
  | colon
  /-- A text between quotes. -/
  | text (s : String)
  /-- A number, or the word for nothing. -/
  | word (cs : List Char)

/-- Whether a character only separates others. -/
def isBlank (c : Char) : Bool := [' ', '\t', '\n', '\r'].contains c

/-- The token that a character is by itself. -/
def mark? (c : Char) : Option Token :=
  if c = '[' then some (.opening .list)
  else if c = ']' then some (.closing .list)
  else if c = '\x7b' then some (.opening .object)
  else if c = '\x7d' then some (.closing .object)
  else if c = ',' then some .comma
  else if c = ':' then some .colon
  else none

/-- Whether a character may be part of a word. -/
def isWordPart (c : Char) : Bool := !isBlank c && (mark? c).isNone && c ≠ '"'

/-- Splits a text into tokens. -/
def tokens? (cs : List Char) : Option (List Token) :=
  match cs with
  | [] => some []
  | c :: rest =>
    if isBlank c then tokens? rest
    else
      match mark? c with
      | some token => (tokens? rest).map (token :: ·)
      | none =>
        if c = '"' then
          match _htext : readText? rest with
          | none => none
          | some (text, rest) => (tokens? rest).map (.text (String.ofList text) :: ·)
        else
          (tokens? (rest.dropWhile isWordPart)).map
            (.word (c :: rest.takeWhile isWordPart) :: ·)
termination_by cs.length
decreasing_by
  · exact Nat.lt_succ_self _
  · exact Nat.lt_succ_self _
  · exact Nat.lt_succ_of_lt (length_lt_of_readText? ‹_›)
  · exact Nat.lt_succ_of_le (List.dropWhile_suffix _).length_le

/-! ### Trees -/

/-- What is read. -/
inductive Tree where
  /-- The word for nothing. -/
  | null
  /-- A number, by its sign and its decimal. -/
  | number (negative : Bool) (d : Scientific)
  /-- A text. -/
  | text (s : String)
  /-- Values in order. -/
  | list (items : List Tree)
  /-- Named values in order. -/
  | object (fields : List (String × Tree))

/-- A whole number. -/
def Tree.whole (n : Nat) : Tree := .number false ⟨n, 0⟩

/-- What a word stands for. -/
def Tree.ofWord? (cs : List Char) : Option Tree :=
  if cs = "null".toList then some .null
  else
    match Figure.read? cs with
    | some (.decimal negative d) => some (.number negative d)
    | _ => none

/-- A bracket that is not closed yet. What was read of it stands the last one first. -/
inductive Open where
  /-- A list, of which some values were read. -/
  | list (items : List Tree)
  /-- An object, of which some fields were read, and the name of the next one. -/
  | object (fields : List (String × Tree)) (key : String)

/-- How far reading has come. The brackets that are open stand the innermost one first. -/
inductive Progress where
  /-- A value comes next. -/
  | value (stack : List Open)
  /-- A list was opened. -/
  | listStart (stack : List Open)
  /-- A value of a list was read. -/
  | afterItem (items : List Tree) (stack : List Open)
  /-- An object was opened. -/
  | objectStart (stack : List Open)
  /-- A name comes next. -/
  | name (fields : List (String × Tree)) (stack : List Open)
  /-- A name was read. -/
  | afterName (fields : List (String × Tree)) (key : String) (stack : List Open)
  /-- A field of an object was read. -/
  | afterField (fields : List (String × Tree)) (stack : List Open)
  /-- All is read. -/
  | done (t : Tree)

namespace Progress

/-- A value was read. -/
def put (t : Tree) : List Open → Progress
  | [] => .done t
  | .list items :: stack => .afterItem (t :: items) stack
  | .object fields key :: stack => .afterField ((key, t) :: fields) stack

/-- How far reading has come after a token that a value starts with. -/
def begin? (stack : List Open) : Token → Option Progress
  | .opening .list => some (.listStart stack)
  | .opening .object => some (.objectStart stack)
  | .text s => some (put (.text s) stack)
  | .word cs => (Tree.ofWord? cs).map (put · stack)
  | .closing _ | .comma | .colon => none

/-- How far reading has come after one more token. -/
def step? : Progress → Token → Option Progress
  | .value stack, token => begin? stack token
  | .listStart stack, .closing .list => some (put (.list []) stack)
  | .listStart stack, token => begin? (.list [] :: stack) token
  | .afterItem items stack, .comma => some (.value (.list items :: stack))
  | .afterItem items stack, .closing .list => some (put (.list items.reverse) stack)
  | .objectStart stack, .closing .object => some (put (.object []) stack)
  | .objectStart stack, .text key => some (.afterName [] key stack)
  | .name fields stack, .text key => some (.afterName fields key stack)
  | .afterName fields key stack, .colon => some (.value (.object fields key :: stack))
  | .afterField fields stack, .comma => some (.name fields stack)
  | .afterField fields stack, .closing .object => some (put (.object fields.reverse) stack)
  | _, _ => none

end Progress

/-- The tree that tokens stand for. -/
def treeOf? (tokens : List Token) : Option Tree :=
  match tokens.foldlM Progress.step? (.value []) with
  | some (.done t) => some t
  | _ => none

/-- Reads a text. -/
def read? (text : String) : Option Tree := (tokens? text.toList).bind treeOf?

end TrafficSheet.Json
