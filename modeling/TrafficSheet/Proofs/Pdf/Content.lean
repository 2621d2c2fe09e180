import TrafficSheet.Pdf.Content.Reader
import TrafficSheet.Proofs.Pdf.LiteralString
import TrafficSheet.Proofs.Pdf.Number

/-!
# Content streams are read back

The instructions of a content stream are read back in order, each with its operands and its keyword
(`exists_readContent?`). A number is one word that says it, rounding included
(`says_numberText`); a string is read to its end (`LiteralString.read?_encode`); and the
keywords say no number, so each of them ends its instruction.
-/

namespace TrafficSheet.Pdf

open Decimal

variable {gap bytes rest : Bytes}

/-! ### What was read, against what was written -/

/-- An operand that was read is the one that was written, numbers being rounded. -/
inductive Operand.Says : Operand Figure → Operand Float32 → Prop where
  /-- A number that rounds to the one that was written. -/
  | number {f : Figure} {x : Float32} :
      f.RoundsTo (.ofFloat32 x) → Says (.number f) (.number x)
  /-- The same name. -/
  | name (text : Bytes) : Says (.name text) (.name text)
  /-- The same string. -/
  | string (bytes : Bytes) : Says (.string bytes) (.string bytes)

/-- An instruction that was read is the one that was written, numbers being rounded. -/
structure Instruction.Says (read : Instruction Figure) (written : Instruction Float32) : Prop where
  /-- It does the same. -/
  keyword : read.keyword = written.keyword
  /-- It does so with the same operands. -/
  operands : List.Forall₂ Operand.Says read.operands written.operands

/-! ### Pieces -/

/-- What is in front of a piece is skipped. -/
theorem readPiece?_append (hgap : IsGap gap) (bytes : Bytes) :
    readPiece? (gap ++ bytes) = readPiece? bytes := by
  rw [readPiece?, hgap, readPlainPiece?, hgap.next?_append, ← readPlainPiece?, ← readPiece?]

/-- What comes after a piece, so that it is read as far as it goes. -/
theorem readPiece?_of_next? {byte : UInt8} (hbyte : isBlank byte = false ∧ byte ≠ byteOf '%')
    (hopening : byte ≠ LiteralString.opening) :
    readPiece? (byte :: bytes) = readPlainPiece? (byte :: bytes) := by
  rw [readPiece?, skip, if_neg Bool.false_ne_true, if_neg (by simp [hbyte.1]), if_neg hbyte.2,
    LiteralString.read?, if_neg hopening]

/-- A word is a number or a keyword. -/
theorem readPiece?_word {text : Bytes} (htext : IsWord text) (hrest : Stops rest) :
    readPiece? (text ++ rest) = some (.ofWord text, rest) := by
  have hnext := next?_word htext hrest
  obtain ⟨byte, text', rfl⟩ := List.exists_cons_of_ne_nil htext.ne_nil
  have hregular := htext.regular byte List.mem_cons_self
  have hblank : isBlank byte = false := by
    rw [isRegular, Bool.and_eq_true] at hregular
    simpa using hregular.1
  rw [List.cons_append] at hnext ⊢
  rw [readPiece?_of_next? ⟨hblank, ne_of_isRegular hregular (by decide)⟩
    (ne_of_isRegular hregular (by decide)), readPlainPiece?, hnext]

/-- The characters of a text are read back from its bytes, if they are ASCII. -/
theorem map_ascii {text : String} (h : ∀ c ∈ text.toList, c.toNat < 128) :
    (ascii text).map (fun byte => Char.ofNat byte.toNat) = text.toList := by
  have hchar : ∀ c ∈ text.toList, Char.ofNat (UInt8.ofNat c.toNat).toNat = c := by
    intro c hc
    have hlt : c.toNat < UInt8.size := (h c hc).trans (by decide)
    rw [UInt8.toNat_ofNat', Nat.mod_eq_of_lt hlt, Char.ofNat_toNat]
  rw [ascii, List.map_map]
  exact (List.map_congr_left hchar).trans (List.map_id _)

theorem toNat_lt_of_isNumeric {c : Char} (h : isNumeric c = true) : c.toNat < 128 := by
  rw [isNumeric, Bool.or_eq_true, Char.isDigit_iff_toNat] at h
  rcases h with hdigit | hletter
  · exact hdigit.2.trans_lt (by decide)
  · revert c
    simp only [List.contains_iff_mem, List.mem_cons, List.not_mem_nil, or_false]
    rintro _ (rfl | rfl | rfl | rfl | rfl | rfl | rfl | rfl) <;> decide

/-- **The text of a number** is read as what rounds to it. -/
theorem exists_readPiece?_number (x : Float32) :
    ∃ f : Figure, f.RoundsTo (.ofFloat32 x) ∧ ∀ rest, Stops rest →
      readPiece? (ascii (numberText x) ++ rest) = some (.operand (.number f), rest) := by
  have hnumeral := numeral_numberText x
  obtain ⟨f, hread, hf⟩ := says_numberText x
  refine ⟨f, hf, fun rest hrest => ?_⟩
  have hascii : ∀ c ∈ (numberText x).toList, c.toNat < 128 := fun c hc =>
    toNat_lt_of_isNumeric (List.all_eq_true.mp hnumeral.numeric c hc)
  rw [readPiece?_word (isWord_of_numeral hnumeral) hrest, Piece.ofWord, map_ascii hascii, hread]

/-- An operand that can be written: the bytes of a name do not end it. -/
def Operand.Sound : Operand Float32 → Prop
  | .name text => ∀ byte ∈ text, isRegular byte = true
  | .number _ | .string _ => True

/-- **Every operand** is read back. -/
theorem exists_readPiece?_operand {o : Operand Float32} (ho : o.Sound) :
    ∃ o' : Operand Figure, o'.Says o ∧ ∀ rest, Stops rest →
      readPiece? (o.encode ++ rest) = some (.operand o', rest) := by
  cases o with
  | number x =>
    obtain ⟨f, hf, hread⟩ := exists_readPiece?_number x
    exact ⟨.number f, .number hf, hread⟩
  | name text =>
    refine ⟨.name text, .name text, fun rest hrest => ?_⟩
    rw [Operand.encode, List.cons_append, readPiece?_of_next? (by decide) (by decide),
      readPlainPiece?, next?_name ho hrest]
  | string bytes =>
    refine ⟨.string bytes, .string bytes, fun rest _ => ?_⟩
    have hskip : skip false (LiteralString.encode bytes ++ rest) =
        LiteralString.encode bytes ++ rest := by
      rw [LiteralString.encode, List.cons_append, skip]
      rfl
    rw [readPiece?, Operand.encode, hskip, LiteralString.read?_encode]

/-! ### Instructions -/

/-- What is written as a keyword: a word that says no number. -/
structure IsKeyword (text : Bytes) : Prop where
  /-- It is a word. -/
  isWord : IsWord text
  /-- No number is read from it. -/
  read? : Figure.read? (text.map fun byte => Char.ofNat byte.toNat) = none

/-- An instruction that can be written. -/
structure Instruction.Sound (i : Instruction Float32) : Prop where
  /-- All operands can be. -/
  operands : ∀ o ∈ i.operands, o.Sound
  /-- The keyword is one. -/
  keyword : IsKeyword i.keyword

/-- Operands are read one after another. -/
theorem exists_readInstructions?_operands {operands : List (Operand Float32)}
    (h : ∀ o ∈ operands, o.Sound) (hgap : IsGap gap) :
    ∃ gap' read, IsGap gap' ∧ List.Forall₂ Operand.Says read operands ∧ ∀ before rest,
      readInstructions? before (gap ++ (operands.flatMap (fun o => o.encode ++ ascii " ") ++ rest)) =
        readInstructions? (read.reverse ++ before) (gap' ++ rest) := by
  induction operands generalizing gap with
  | nil => exact ⟨gap, [], hgap, .nil, fun _ _ => rfl⟩
  | cons o operands ih =>
    obtain ⟨ho, hoperands⟩ := List.forall_mem_cons.mp h
    obtain ⟨o', hsays, hread⟩ := exists_readPiece?_operand ho
    have hspace : IsGap (ascii " ") := isGap_space
    obtain ⟨gap', read, hgap', hsaysAll, hreadAll⟩ := ih hoperands hspace
    refine ⟨gap', o' :: read, hgap', .cons hsays hsaysAll, fun before rest => ?_⟩
    have hpiece := hread (ascii " " ++ (operands.flatMap (fun o => o.encode ++ ascii " ") ++ rest))
      (stops_space _)
    rw [List.flatMap_cons, List.append_assoc, List.append_assoc,
      readInstructions?_operand ((readPiece?_append hgap _).trans hpiece), hreadAll,
      List.reverse_cons, List.append_assoc]
    rfl

/-- **An instruction** is read back. -/
theorem exists_readInstructions?_encode {i : Instruction Float32} (h : i.Sound) (hgap : IsGap gap) :
    ∃ i' : Instruction Figure, i'.Says i ∧ ∀ rest, Stops rest →
      readInstructions? [] (gap ++ (i.encode ++ rest)) =
        (readInstructions? [] rest).map (i' :: ·) := by
  obtain ⟨gap', read, hgap', hsays, hread⟩ :=
    exists_readInstructions?_operands h.operands hgap
  refine ⟨⟨read, i.keyword⟩, ⟨rfl, hsays⟩, fun rest hrest => ?_⟩
  have hpiece := readPiece?_word h.keyword.isWord hrest
  rw [Piece.ofWord, h.keyword.read?] at hpiece
  rw [Instruction.encode, List.append_assoc, hread,
    readInstructions?_keyword ((readPiece?_append hgap' _).trans hpiece), List.append_nil,
    List.reverse_reverse]

/-! ### Content streams -/

theorem sound_ofNumbers (numbers : List Float32) (keyword : String) :
    ∀ o ∈ (Instruction.ofNumbers numbers keyword).operands, o.Sound := by
  intro o ho
  obtain ⟨x, -, rfl⟩ := List.mem_map.mp ho
  trivial

/-- Every operator can be written. -/
theorem sound_instruction (o : Operator) : o.instruction.Sound := by
  constructor
  case keyword =>
    cases o <;> dsimp only [Operator.instruction, Instruction.ofNumbers] <;>
      exact ⟨by decide, by decide⟩
  case operands =>
    cases o with
    | font size =>
      have hname : Operand.Sound (.name (ascii "F1")) :=
        List.all_eq_true.mp (by decide : (ascii "F1").all isRegular = true)
      exact List.forall_mem_cons.mpr ⟨hname, List.forall_mem_singleton.mpr trivial⟩
    | showText bytes => exact List.forall_mem_singleton.mpr trivial
    | _ => exact sound_ofNumbers _ _

/-- Operators on lines of their own, each after the end of another line. -/
def linesAfter (operators : List Operator) : Bytes :=
  operators.flatMap fun o => ascii "\n" ++ o.encode

theorem encodeContent_cons (o : Operator) (operators : List Operator) :
    encodeContent (o :: operators) = o.encode ++ linesAfter operators := by
  induction operators generalizing o with
  | nil => simp [encodeContent, linesAfter]
  | cons next operators ih =>
    have hnext := ih next
    simp only [encodeContent, List.map_cons, List.intersperse_cons_cons,
      List.flatten_cons] at hnext ⊢
    rw [hnext, linesAfter, linesAfter, List.flatMap_cons, List.append_assoc]

theorem stops_linesAfter (operators : List Operator) : Stops (linesAfter operators) := by
  cases operators with
  | nil => exact fun _ h => nomatch h
  | cons o operators => exact stops_cons (by decide) _

theorem readInstructions?_nil : readInstructions? [] [] = some [] := by
  rw [readInstructions?]
  rfl

theorem exists_readInstructions?_linesAfter (operators : List Operator) :
    ∃ read, readInstructions? [] (linesAfter operators) = some read ∧
      List.Forall₂ Instruction.Says read (operators.map (·.instruction)) := by
  induction operators with
  | nil => exact ⟨[], readInstructions?_nil, .nil⟩
  | cons o operators ih =>
    obtain ⟨read, hread, hsays⟩ := ih
    have hline : IsGap (ascii "\n") := fun _ => rfl
    obtain ⟨i, hi, hencode⟩ := exists_readInstructions?_encode (sound_instruction o) hline
    refine ⟨i :: read, ?_, .cons hi hsays⟩
    have hlines : linesAfter (o :: operators) =
        ascii "\n" ++ (o.instruction.encode ++ linesAfter operators) := by
      rw [linesAfter, List.flatMap_cons, List.append_assoc]
      rfl
    rw [hlines, hencode _ (stops_linesAfter operators), hread, Option.map_some]

/-- **Content streams are read back**, instruction by instruction. -/
theorem exists_readContent? (operators : List Operator) :
    ∃ read, readContent? (encodeContent operators) = some read ∧
      List.Forall₂ Instruction.Says read (operators.map (·.instruction)) := by
  cases operators with
  | nil => exact ⟨[], readInstructions?_nil, .nil⟩
  | cons o operators =>
    obtain ⟨read, hread, hsays⟩ := exists_readInstructions?_linesAfter operators
    have hnone : IsGap [] := fun _ => rfl
    obtain ⟨i, hi, hencode⟩ := exists_readInstructions?_encode (sound_instruction o) hnone
    refine ⟨i :: read, ?_, .cons hi hsays⟩
    have hfirst := hencode _ (stops_linesAfter operators)
    rw [readContent?, encodeContent_cons]
    rw [hread, Option.map_some] at hfirst
    exact hfirst

end TrafficSheet.Pdf
