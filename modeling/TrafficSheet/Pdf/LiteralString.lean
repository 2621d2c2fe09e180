import TrafficSheet.Bytes

/-!
# Strings between parentheses

A string of bytes is written between parentheses. Backslashes and control characters are
escaped; parentheses are escaped unless they balance, for then a reader finds the end of the
string by counting them.

A reader counts parentheses: those inside a string belong to it as long as they balance, and the
one that closes none of them ends it. A backslash takes the bytes after it out of this: up to
three octal digits stand for a byte, some letters for control characters, the end of a line for
nothing, and any other byte for itself.
-/

namespace TrafficSheet.Pdf

/-- The byte of an ASCII character. -/
def byteOf (c : Char) : UInt8 := UInt8.ofNat c.toNat

/-- The bytes of a text of ASCII characters. -/
def ascii (text : String) : Bytes := text.toList.map fun c => UInt8.ofNat c.toNat

/-- The bytes that show a text: one for each character, a question mark for one outside ASCII. -/
def shownBytes (text : String) : Bytes :=
  text.toList.map fun c => if c.toNat < 128 then UInt8.ofNat c.toNat else 63

namespace LiteralString

/-- The opening parenthesis. -/
def opening : UInt8 := 40

/-- The closing parenthesis. -/
def closing : UInt8 := 41

/-- The backslash. -/
def backslash : UInt8 := 92

/-- Whether every closing parenthesis closes an open one, and none of them, nor of `depth`
others, stays open. -/
def balancedFrom : Nat → Bytes → Bool
  | depth, [] => depth == 0
  | depth, byte :: rest =>
    if byte = opening then balancedFrom (depth + 1) rest
    else if byte = closing then
      match depth with
      | 0 => false
      | depth + 1 => balancedFrom depth rest
    else balancedFrom depth rest

/-- Whether the parentheses of a string balance. -/
def balanced (bytes : Bytes) : Bool := balancedFrom 0 bytes

/-- The octal digit of a byte that counts the given power of eight. -/
def octalDigit (weight : Nat) (byte : UInt8) : UInt8 := UInt8.ofNat (48 + byte.toNat / weight % 8)

/-- A byte as it stands in a string; `escapeParens` says whether parentheses are escaped. -/
def encodeByte (escapeParens : Bool) (byte : UInt8) : Bytes :=
  if byte = opening ∨ byte = closing then
    if escapeParens then [backslash, byte] else [byte]
  else if byte = backslash then [backslash, backslash]
  else if 32 ≤ byte ∧ byte ≤ 126 then [byte]
  else if byte = 10 then ascii "\\n"
  else if byte = 13 then ascii "\\r"
  else if byte = 9 then ascii "\\t"
  else if byte = 8 then ascii "\\b"
  else if byte = 12 then ascii "\\f"
  else [backslash, octalDigit 64 byte, octalDigit 8 byte, octalDigit 1 byte]

/-- A string with its parentheses around it. -/
def encode (bytes : Bytes) : Bytes :=
  opening :: (bytes.flatMap (encodeByte (!balanced bytes)) ++ [closing])

end LiteralString

end TrafficSheet.Pdf

/-! ### Reading strings between parentheses -/

namespace TrafficSheet.Pdf.LiteralString

/-- What is left after a carriage return: a line feed right after it ends the same line. -/
def afterReturn : Bytes → Bytes
  | [] => []
  | byte :: rest => if byte = 10 then rest else byte :: rest

/-- The byte that a byte after a backslash stands for, if it is no digit and ends no line. -/
def escapedByte (byte : UInt8) : UInt8 :=
  if byte = byteOf 'n' then 10
  else if byte = byteOf 'r' then 13
  else if byte = byteOf 't' then 9
  else if byte = byteOf 'b' then 8
  else if byte = byteOf 'f' then 12
  else byte

/-- Whether a byte is an octal digit. -/
def isOctal (byte : UInt8) : Bool := byteOf '0' ≤ byte && byte ≤ byteOf '7'

/-- The byte that octal digits spell; what exceeds a byte is dropped. -/
def octalByte (digits : Bytes) : UInt8 :=
  UInt8.ofNat (digits.foldl (fun value digit => value * 8 + (digit.toNat - 48)) 0)

/-- What a backslash stands for together with the bytes after it, and what is left of these. -/
def readEscape : Bytes → Bytes × Bytes
  | [] => ([], [])
  | byte :: rest =>
    if isOctal byte then
      let digits := ((byte :: rest).take 3).takeWhile isOctal
      ([octalByte digits], (byte :: rest).drop digits.length)
    else if byte = 13 then ([], afterReturn rest)
    else if byte = 10 then ([], rest)
    else ([escapedByte byte], rest)

theorem length_afterReturn_le (bytes : Bytes) : (afterReturn bytes).length ≤ bytes.length := by
  unfold afterReturn
  split
  · exact Nat.le_refl _
  · split
    · exact Nat.le_succ _
    · exact Nat.le_refl _

theorem length_readEscape_le (bytes : Bytes) : (readEscape bytes).2.length ≤ bytes.length := by
  cases bytes with
  | nil => exact Nat.le_refl _
  | cons byte rest =>
    simp only [readEscape]
    split
    · simp
    · split
      · exact Nat.le_succ_of_le (length_afterReturn_le rest)
      · split <;> exact Nat.le_succ _

/-- Puts bytes in front of those that were read. -/
def prepend (front : Bytes) (read : Bytes × Bytes) : Bytes × Bytes := (front ++ read.1, read.2)

/-- Reads a string whose opening parenthesis, and `depth` others after it, were read: the bytes
that it stands for, and what is left after the parenthesis that closes it. -/
def readFrom (depth : Nat) (bytes : Bytes) : Option (Bytes × Bytes) :=
  match bytes with
  | [] => none
  | byte :: rest =>
    if byte = backslash then
      (readFrom depth (readEscape rest).2).map (prepend (readEscape rest).1)
    else if byte = opening then (readFrom (depth + 1) rest).map (prepend [byte])
    else if byte = closing then
      if depth = 0 then some ([], rest) else (readFrom (depth - 1) rest).map (prepend [byte])
    else if byte = 13 then (readFrom depth (afterReturn rest)).map (prepend [10])
    else (readFrom depth rest).map (prepend [byte])
termination_by bytes.length
decreasing_by
  · exact Nat.lt_succ_of_le (length_readEscape_le rest)
  · exact Nat.lt_succ_self _
  · exact Nat.lt_succ_self _
  · exact Nat.lt_succ_of_le (length_afterReturn_le rest)
  · exact Nat.lt_succ_self _

/-- Fewer bytes are left than there were. -/
theorem length_lt_of_readFrom {depth : Nat} {bytes : Bytes} {read : Bytes × Bytes}
    (h : readFrom depth bytes = some read) : read.2.length < bytes.length := by
  induction depth, bytes using readFrom.induct generalizing read with
  | case1 => rw [readFrom] at h; cases h
  | case2 depth rest ih =>
    rw [readFrom, if_pos rfl] at h
    obtain ⟨after, hafter, rfl⟩ := Option.map_eq_some_iff.mp h
    have hless := ih hafter
    exact Nat.lt_trans hless (Nat.lt_succ_of_le (length_readEscape_le rest))
  | case3 depth rest hne ih =>
    rw [readFrom, if_neg hne, if_pos rfl] at h
    obtain ⟨after, hafter, rfl⟩ := Option.map_eq_some_iff.mp h
    have hless := ih hafter
    exact Nat.lt_succ_of_lt hless
  | case4 rest hne hne' =>
    rw [readFrom, if_neg hne, if_neg hne', if_pos rfl, if_pos rfl] at h
    cases h
    exact Nat.lt_succ_self _
  | case5 depth rest hne hne' hdepth ih =>
    rw [readFrom, if_neg hne, if_neg hne', if_pos rfl, if_neg hdepth] at h
    obtain ⟨after, hafter, rfl⟩ := Option.map_eq_some_iff.mp h
    have hless := ih hafter
    exact Nat.lt_succ_of_lt hless
  | case6 depth rest hne hne' hne'' ih =>
    rw [readFrom, if_neg hne, if_neg hne', if_neg hne'', if_pos rfl] at h
    obtain ⟨after, hafter, rfl⟩ := Option.map_eq_some_iff.mp h
    have hless := ih hafter
    exact Nat.lt_trans hless (Nat.lt_succ_of_le (length_afterReturn_le rest))
  | case7 depth byte rest hne hne' hne'' hne''' ih =>
    rw [readFrom, if_neg hne, if_neg hne', if_neg hne'', if_neg hne'''] at h
    obtain ⟨after, hafter, rfl⟩ := Option.map_eq_some_iff.mp h
    have hless := ih hafter
    exact Nat.lt_succ_of_lt hless

/-- Reads a string that starts with the first of the bytes. -/
def read? : Bytes → Option (Bytes × Bytes)
  | [] => none
  | byte :: rest => if byte = opening then readFrom 0 rest else none

end TrafficSheet.Pdf.LiteralString
