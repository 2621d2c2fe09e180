import Mathlib
import TrafficSheet.Pdf.Sheet

/-!
# Strings are read back

Whatever bytes are written between parentheses, a reader finds them again and stops at the closing
parenthesis that was written for them, whatever comes after it (`read?_encode`). A byte that is
escaped is read back in front of anything (`readFrom_encodeByte`). Parentheses that are not
escaped balance, and so the reader counts them as the writer did (`readFrom_balanced`).

So no text that is shown on a page can end its string early or run past its end
(`read?_shownText`).
-/

namespace TrafficSheet.Pdf

namespace LiteralString

variable {byte : UInt8} {bytes rest : Bytes} {depth : Nat}

/-! ### One byte -/

/-- A byte that means nothing to the reader stands for itself. -/
theorem readFrom_plain (hopening : byte ≠ opening) (hclosing : byte ≠ closing)
    (hbackslash : byte ≠ backslash) (hreturn : byte ≠ 13) :
    readFrom depth (byte :: rest) = (readFrom depth rest).map (prepend [byte]) := by
  rw [readFrom, if_neg hbackslash, if_neg hopening, if_neg hclosing, if_neg hreturn]

theorem readFrom_backslash (depth : Nat) (rest : Bytes) :
    readFrom depth (backslash :: rest) =
      (readFrom depth (readEscape rest).2).map (prepend (readEscape rest).1) := by
  rw [readFrom, if_pos rfl]

theorem readFrom_opening (depth : Nat) (rest : Bytes) :
    readFrom depth (opening :: rest) = (readFrom (depth + 1) rest).map (prepend [opening]) := by
  rw [readFrom, if_neg (by decide), if_pos rfl]

theorem readFrom_closing_zero (rest : Bytes) : readFrom 0 (closing :: rest) = some ([], rest) := by
  rw [readFrom, if_neg (by decide), if_neg (by decide), if_pos rfl, if_pos rfl]

theorem readFrom_closing_succ (depth : Nat) (rest : Bytes) :
    readFrom (depth + 1) (closing :: rest) = (readFrom depth rest).map (prepend [closing]) := by
  rw [readFrom, if_neg (by decide), if_neg (by decide), if_pos rfl, if_neg (Nat.succ_ne_zero depth),
    Nat.add_sub_cancel]

/-! ### Octal digits -/

theorem toNat_octalDigit (weight : Nat) (byte : UInt8) :
    (octalDigit weight byte).toNat = 48 + byte.toNat / weight % 8 := by
  have hlt : 48 + byte.toNat / weight % 8 < 256 := by omega
  rw [octalDigit, UInt8.toNat_ofNat', Nat.mod_eq_of_lt hlt]

theorem isOctal_octalDigit (weight : Nat) (byte : UInt8) :
    isOctal (octalDigit weight byte) = true := by
  have hdigit := toNat_octalDigit weight byte
  have hzero : (byteOf '0').toNat = 48 := rfl
  have hseven : (byteOf '7').toNat = 55 := rfl
  rw [isOctal, Bool.and_eq_true, decide_eq_true_eq, decide_eq_true_eq, UInt8.le_iff_toNat_le,
    UInt8.le_iff_toNat_le, hdigit, hzero, hseven]
  omega

/-- Three octal digits spell the byte that they were taken from. -/
theorem octalByte_octalDigits (byte : UInt8) :
    octalByte [octalDigit 64 byte, octalDigit 8 byte, octalDigit 1 byte] = byte := by
  have hlt := byte.toNat_lt
  have hvalue : byte.toNat / 64 % 8 * 8 * 8 + byte.toNat / 8 % 8 * 8 + byte.toNat % 8 =
      byte.toNat := by omega
  refine UInt8.toNat_inj.mp ?_
  simp only [octalByte, List.foldl_cons, List.foldl_nil, toNat_octalDigit]
  rw [UInt8.toNat_ofNat']
  omega

/-- After three octal digits the reader stops, even if there is another one. -/
theorem readEscape_octalDigits (byte : UInt8) (rest : Bytes) :
    readEscape (octalDigit 64 byte :: octalDigit 8 byte :: octalDigit 1 byte :: rest) =
      ([byte], rest) := by
  rw [readEscape, if_pos (isOctal_octalDigit 64 byte)]
  simp [isOctal_octalDigit, octalByte_octalDigits]

/-- What is read back after a backslash, is read back with it. -/
theorem readFrom_escape (code : Bytes) (h : readEscape (code ++ rest) = ([byte], rest))
    (depth : Nat) :
    readFrom depth (backslash :: code ++ rest) = (readFrom depth rest).map (prepend [byte]) := by
  rw [List.cons_append, readFrom_backslash, h]

/-- **A byte that is written** is read back in front of anything, if it is escaped or no
parenthesis. -/
theorem readFrom_encodeByte {escapeParens : Bool}
    (h : escapeParens = true ∨ byte ≠ opening ∧ byte ≠ closing) (depth : Nat) (rest : Bytes) :
    readFrom depth (encodeByte escapeParens byte ++ rest) =
      (readFrom depth rest).map (prepend [byte]) := by
  unfold encodeByte
  split_ifs with hparen hescape hbackslash hplain hlf hcr htab hbs hff
  · refine readFrom_escape [byte] ?_ depth
    rcases hparen with rfl | rfl <;> rfl
  · have hnot := h.resolve_left hescape
    exact absurd hparen (not_or.mpr hnot)
  · rw [hbackslash]
    exact readFrom_escape [backslash] rfl depth
  · obtain ⟨hopening, hclosing⟩ := not_or.mp hparen
    refine readFrom_plain hopening hclosing hbackslash ?_
    rintro rfl
    exact absurd hplain.1 (by decide)
  · rw [hlf]
    exact readFrom_escape [byteOf 'n'] rfl depth
  · rw [hcr]
    exact readFrom_escape [byteOf 'r'] rfl depth
  · rw [htab]
    exact readFrom_escape [byteOf 't'] rfl depth
  · rw [hbs]
    exact readFrom_escape [byteOf 'b'] rfl depth
  · rw [hff]
    exact readFrom_escape [byteOf 'f'] rfl depth
  · exact readFrom_escape [octalDigit 64 byte, octalDigit 8 byte, octalDigit 1 byte]
      (readEscape_octalDigits byte rest) depth

/-! ### All bytes -/

/-- With all parentheses escaped, the first one that is not ends the string. -/
theorem readFrom_escaped (bytes rest : Bytes) :
    readFrom 0 (bytes.flatMap (encodeByte true) ++ closing :: rest) = some (bytes, rest) := by
  induction bytes with
  | nil => exact readFrom_closing_zero rest
  | cons byte bytes ih =>
    rw [List.flatMap_cons, List.append_assoc, readFrom_encodeByte (Or.inl rfl), ih]
    rfl

/-- **Balanced parentheses** may stand as they are: the reader is as deep in them as the writer
was. -/
theorem readFrom_balanced (h : balancedFrom depth bytes = true) (rest : Bytes) :
    readFrom depth (bytes.flatMap (encodeByte false) ++ closing :: rest) = some (bytes, rest) := by
  induction bytes generalizing depth with
  | nil =>
    obtain rfl : depth = 0 := by simpa [balancedFrom] using h
    exact readFrom_closing_zero rest
  | cons byte bytes ih =>
    rw [List.flatMap_cons, List.append_assoc]
    unfold balancedFrom at h
    split_ifs at h with hopening hclosing
    · have hcode : encodeByte false byte = [opening] := by rw [hopening]; rfl
      rw [hcode, List.singleton_append, readFrom_opening, ih h, hopening]
      rfl
    · have hcode : encodeByte false byte = [closing] := by rw [hclosing]; rfl
      cases depth with
      | zero => exact absurd h Bool.false_ne_true
      | succ depth =>
        rw [hcode, List.singleton_append, readFrom_closing_succ, ih h, hclosing]
        rfl
    · rw [readFrom_encodeByte (Or.inr ⟨hopening, hclosing⟩), ih h]
      rfl

/-- **Strings are read back**, and what comes after them is left. -/
theorem read?_encode (bytes rest : Bytes) : read? (encode bytes ++ rest) = some (bytes, rest) := by
  have hread : read? (encode bytes ++ rest) =
      readFrom 0 (bytes.flatMap (encodeByte (!balanced bytes)) ++ closing :: rest) := by
    rw [encode, List.cons_append, List.append_assoc]
    rfl
  rw [hread]
  cases hbalanced : balanced bytes with
  | true => exact readFrom_balanced hbalanced rest
  | false => exact readFrom_escaped bytes rest

/-- An escape in front of a digit, and a parenthesis that closes nothing. -/
example : encode (shownBytes "\x017)") = ascii "(\\0017\\))" ∧
    read? (ascii "(\\0017\\))") = some (shownBytes "\x017)", []) := by
  constructor <;> cbv

end LiteralString

/-! ### Texts on a page -/

/-- How a character of a text is shown: as itself if it is ASCII, and else as a question mark. -/
def ShownAs (c : Char) (byte : UInt8) : Prop :=
  (c.toNat < 128 → byte.toNat = c.toNat) ∧ (128 ≤ c.toNat → byte = 63)

/-- A text has one byte for each of its characters. -/
theorem forall₂_shownBytes (text : String) :
    List.Forall₂ ShownAs text.toList (shownBytes text) := by
  rw [shownBytes, List.forall₂_map_right_iff, List.forall₂_same]
  intro c _
  constructor
  · intro hascii
    rw [if_pos hascii, UInt8.toNat_ofNat', Nat.mod_eq_of_lt (hascii.trans (by decide))]
  · intro hother
    rw [if_neg (Nat.not_lt.mpr hother)]

/-- Operators, each on a line that is ended. -/
def lines (operators : List Operator) : Bytes :=
  operators.flatMap fun o => o.encode ++ ascii "\n"

/-- Where an operator stands in a content stream: on a line of its own, after the lines of those
before it. -/
theorem encodeContent_append_cons (before : List Operator) (o : Operator) (after : List Operator) :
    ∃ back, encodeContent (before ++ o :: after) = lines before ++ (o.encode ++ back) := by
  have hlast : ∀ (o : Operator) (after : List Operator),
      ∃ back, encodeContent (o :: after) = o.encode ++ back := by
    intro o after
    cases after with
    | nil => exact ⟨[], by simp [encodeContent]⟩
    | cons next after =>
      exact ⟨ascii "\n" ++ encodeContent (next :: after), by simp [encodeContent]⟩
  induction before with
  | nil => exact hlast o after
  | cons first before ih =>
    obtain ⟨back, hback⟩ := ih
    refine ⟨back, ?_⟩
    rw [lines, List.flatMap_cons, List.append_assoc, ← lines, ← hback]
    cases before <;> simp [encodeContent]

/-- Later calls leave the operators that there are. -/
theorem exists_operators_drawAll (s : Sheet) (calls : List (Call Float)) :
    ∃ more, (Surface.drawAll s calls).operators.toList = s.operators.toList ++ more := by
  induction calls generalizing s with
  | nil => exact ⟨[], (List.append_nil _).symm⟩
  | cons call calls ih =>
    obtain ⟨more, hmore⟩ := ih (s.draw call)
    rw [s.operators_draw, List.append_assoc] at hmore
    exact ⟨_, hmore⟩

/-- The operators of a call stand between those of the calls before it and of those after it. -/
theorem operators_drawAll_append_cons (s : Sheet) (before : List (Call Float)) (call : Call Float)
    (after : List (Call Float)) :
    ∃ more, (Surface.drawAll s (before ++ call :: after)).operators.toList =
      (Surface.drawAll s before).operators.toList ++
        (Surface.drawAll s before).operatorsOf call ++ more := by
  obtain ⟨more, hmore⟩ := exists_operators_drawAll ((Surface.drawAll s before).draw call) after
  rw [Sheet.operators_draw] at hmore
  refine ⟨more, ?_⟩
  rw [← hmore, Surface.drawAll, List.foldl_append]
  rfl

theorem encode_showText (bytes : Bytes) :
    (Operator.showText bytes).encode = LiteralString.encode bytes ++ ascii " Tj" := by
  simp [Operator.encode, Operator.instruction, Instruction.encode, Operand.encode, ascii]

/-- **A text cannot leave its string.** Whatever was drawn before and is drawn after it, the
string of a text that is shown stands in the content stream between the place that is set for it
and the operator that shows it. A reader that starts at its opening parenthesis stops right after
the closing one that was written for it, whatever comes next, and has one byte for each character
of the text. -/
theorem read?_shownText (width height : Float) (before : List (Call Float)) (at_ : Point Float)
    (text : String) (after : List (Call Float)) :
    let page := Surface.drawAll (Sheet.empty width height) before
    let start := page.operators.toList ++
      [.beginText, .font page.fontSize.toFloat32, .textPosition (page.across at_.x) (page.up at_.y)]
    ∃ operand back,
      (Surface.drawAll (Sheet.empty width height) (before ++ .text at_ text :: after)).content =
        lines start ++ (operand ++ (ascii " Tj" ++ back)) ∧
      operand.head? = some LiteralString.opening ∧ operand.getLast? = some LiteralString.closing ∧
      List.Forall₂ ShownAs text.toList (shownBytes text) ∧
      ∀ rest, LiteralString.read? (operand ++ rest) = some (shownBytes text, rest) := by
  intro page start
  obtain ⟨more, hoperators⟩ :=
    operators_drawAll_append_cons (Sheet.empty width height) before (.text at_ text) after
  have hstart : (Surface.drawAll (Sheet.empty width height)
      (before ++ .text at_ text :: after)).operators.toList =
        start ++ .showText (shownBytes text) :: .endText :: more := by
    rw [hoperators, Sheet.operatorsOf, List.append_assoc, List.append_assoc]
    rfl
  obtain ⟨back, hback⟩ := encodeContent_append_cons start (.showText (shownBytes text))
    (.endText :: more)
  refine ⟨LiteralString.encode (shownBytes text), back, ?_, rfl, ?_, forall₂_shownBytes text,
    LiteralString.read?_encode (shownBytes text)⟩
  · rw [Sheet.content, hstart, hback, encode_showText, List.append_assoc]
  · rw [LiteralString.encode, ← List.cons_append, List.getLast?_append]
    rfl

end TrafficSheet.Pdf
