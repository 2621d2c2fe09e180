import TrafficSheet.Pdf.Document
import TrafficSheet.Pdf.Syntax
import TrafficSheet.Proofs.Decimal.Texts

/-!
# Words, names and numbers are read back

What is written as a word, a name or a bracket is read as such, if what comes after it cannot
belong to it (`next?_word`, `next?_name`, `next?_start`, `next?_finish`), and blanks and comments
in front of it make no difference (`IsGap.next?_append`). Numbers are words, with zeros in front
of them or not, and are read back from their digits (`decimal?_toString`, `decimal?_zeroPadded`).
-/

namespace TrafficSheet.Pdf

open Decimal

variable {text gap bytes rest : Bytes}

/-! ### Words, names and brackets -/

theorem ascii_append (a b : String) : ascii (a ++ b) = ascii a ++ ascii b := by
  rw [ascii, String.toList_append, List.map_append]
  rfl

/-- What comes after a word or a name ends it. -/
def Stops (bytes : Bytes) : Prop := ∀ byte ∈ bytes.head?, isRegular byte = false

/-- Bytes that are read as one word. -/
structure IsWord (text : Bytes) : Prop where
  /-- There is at least one. -/
  ne_nil : text ≠ []
  /-- None of them ends it. -/
  regular : ∀ byte ∈ text, isRegular byte = true

instance (text : Bytes) : Decidable (IsWord text) :=
  decidable_of_iff (text ≠ [] ∧ text.all isRegular = true)
    ⟨fun h => ⟨h.1, List.all_eq_true.mp h.2⟩, fun h => ⟨h.ne_nil, List.all_eq_true.mpr h.regular⟩⟩

theorem stops_cons {byte : UInt8} (h : isRegular byte = false) (rest : Bytes) :
    Stops (byte :: rest) := by
  rintro _ ⟨⟩
  exact h

theorem stops_space (rest : Bytes) : Stops ([32] ++ rest) := stops_cons (by decide) rest

theorem takeWhile_append_of_stops (htext : ∀ byte ∈ text, isRegular byte = true)
    (hrest : Stops rest) : (text ++ rest).takeWhile isRegular = text := by
  rw [List.takeWhile_append_of_pos htext]
  cases rest with
  | nil => exact List.append_nil text
  | cons byte rest =>
    rw [List.takeWhile_cons_of_neg (by simpa using hrest byte rfl), List.append_nil]

theorem dropWhile_append_of_stops (htext : ∀ byte ∈ text, isRegular byte = true)
    (hrest : Stops rest) : (text ++ rest).dropWhile isRegular = rest := by
  rw [List.dropWhile_append_of_pos htext]
  cases rest with
  | nil => rfl
  | cons byte rest => exact List.dropWhile_cons_of_neg (by simpa using hrest byte rfl)

/-- Bytes that mean nothing in front of others: blanks and comments. -/
def IsGap (gap : Bytes) : Prop := ∀ rest, skip false (gap ++ rest) = skip false rest

theorem isGap_of_blank (hgap : ∀ byte ∈ gap, isBlank byte = true) : IsGap gap := by
  intro rest
  induction gap with
  | nil => rfl
  | cons byte gap ih =>
    obtain ⟨hbyte, hgap⟩ := List.forall_mem_cons.mp hgap
    rw [List.cons_append, skip, if_neg (by decide), if_pos hbyte, ih hgap]

theorem isGap_space : IsGap [32] := fun _ => rfl

theorem IsGap.next?_append (hgap : IsGap gap) (bytes : Bytes) :
    next? (gap ++ bytes) = next? bytes := by
  rw [next?, hgap, next?]

theorem ne_of_isRegular {byte other : UInt8} (h : isRegular byte = true)
    (hother : isRegular other = false) : byte ≠ other := by
  rintro rfl
  rw [h] at hother
  cases hother

theorem skip_regular {byte : UInt8} (h : isRegular byte = true) (rest : Bytes) :
    skip false (byte :: rest) = byte :: rest := by
  have hblank : isBlank byte = false := by
    rw [isRegular, Bool.and_eq_true] at h
    simpa using h.1
  rw [skip, if_neg (by decide), hblank, if_neg (by decide), if_neg (ne_of_isRegular h (by decide))]

theorem tokenFrom?_regular {byte : UInt8} (h : isRegular byte = true) (rest : Bytes) :
    tokenFrom? byte rest =
      some (.word (byte :: rest.takeWhile isRegular), rest.dropWhile isRegular) := by
  have hne : ∀ other, isRegular other = false → byte ≠ other := fun _ => ne_of_isRegular h
  rw [tokenFrom?, if_neg (hne _ (by decide)), if_neg (hne _ (by decide)),
    if_neg (hne _ (by decide)), if_neg (hne _ (by decide)), if_neg (hne _ (by decide)), if_pos h]

/-- **A word** is read as far as it goes. -/
theorem next?_word (htext : IsWord text) (hrest : Stops rest) :
    next? (text ++ rest) = some (.word text, rest) := by
  obtain ⟨hne, hregular⟩ := htext
  cases text with
  | nil => exact absurd rfl hne
  | cons byte text =>
    obtain ⟨hbyte, htext⟩ := List.forall_mem_cons.mp hregular
    rw [next?, List.cons_append, skip_regular hbyte]
    dsimp only
    rw [tokenFrom?_regular hbyte, takeWhile_append_of_stops htext hrest,
      dropWhile_append_of_stops htext hrest]

/-- **A name** is read as far as it goes. -/
theorem next?_name (htext : ∀ byte ∈ text, isRegular byte = true) (hrest : Stops rest) :
    next? (byteOf '/' :: (text ++ rest)) = some (.name text, rest) := by
  have hnext : next? (byteOf '/' :: (text ++ rest)) =
      some (.name ((text ++ rest).takeWhile isRegular), (text ++ rest).dropWhile isRegular) := rfl
  rw [hnext, takeWhile_append_of_stops htext hrest, dropWhile_append_of_stops htext hrest]

/-- How a bracket is opened. -/
def Bracket.start : Bracket → Bytes
  | .array => ascii "["
  | .dictionary => ascii "<<"

/-- How a bracket is closed. -/
def Bracket.finish : Bracket → Bytes
  | .array => ascii "]"
  | .dictionary => ascii ">>"

theorem next?_start (b : Bracket) (rest : Bytes) :
    next? (b.start ++ rest) = some (.opening b, rest) := by
  cases b <;> rfl

theorem next?_finish (b : Bracket) (rest : Bytes) :
    next? (b.finish ++ rest) = some (.closing b, rest) := by
  cases b <;> rfl

theorem stops_finish (b : Bracket) (rest : Bytes) : Stops (b.finish ++ rest) := by
  cases b <;> exact stops_cons (by decide) _

/-! ### Numbers -/

theorem byteOf_digit {c : Char} (h : c.isDigit = true) :
    isDigit (byteOf c) = true ∧ isRegular (byteOf c) = true ∧ (byteOf c).toNat = c.toNat := by
  obtain ⟨hlow, hhigh⟩ := Char.isDigit_iff_toNat.mp h
  rw [show '0'.toNat = 48 from rfl] at hlow
  rw [show '9'.toNat = 57 from rfl] at hhigh
  unfold byteOf
  interval_cases c.toNat <;> decide

theorem decimal?_ascii {word : String} (hne : word.toList ≠ [])
    (h : ∀ c ∈ word.toList, c.isDigit = true) :
    decimal? (ascii word) = some (Nat.ofDigitChars 10 word.toList 0) := by
  have hdigits : (ascii word).all isDigit = true := by
    rw [ascii, List.all_map, List.all_eq_true]
    exact fun c hc => (byteOf_digit (h c hc)).1
  have hfold : ∀ (cs : List Char), (∀ c ∈ cs, c.isDigit = true) → ∀ value,
      (cs.map byteOf).foldl (fun value digit => 10 * value + (digit.toNat - 48)) value =
        Nat.ofDigitChars 10 cs value := by
    intro cs hcs
    induction cs with
    | nil => exact fun _ => Nat.ofDigitChars_nil.symm
    | cons c cs ih =>
      obtain ⟨hc, hcs⟩ := List.forall_mem_cons.mp hcs
      intro value
      rw [List.map_cons, List.foldl_cons, ih hcs, Nat.ofDigitChars_cons, (byteOf_digit hc).2.2]
      rfl
  rw [decimal?, if_pos ⟨by simpa [ascii] using hne, hdigits⟩]
  exact congrArg some (hfold word.toList h 0)

/-- A number is read back from its digits. -/
theorem decimal?_toString (n : Nat) : decimal? (ascii (toString n)) = some n := by
  have htext := toList_toString n
  have hdigits := isDigits_toDigits n
  rw [decimal?_ascii (htext ▸ hdigits.ne_nil) (htext ▸ hdigits.isDigit), htext,
    Nat.ofDigitChars_ten_toDigits]

/-- Zeros in front of a number do not change it. -/
theorem decimal?_zeroPadded (width n : Nat) :
    decimal? (ascii (Decimal.zeroPadded width n)) = some n := by
  have htext : (Decimal.zeroPadded width n).toList =
      List.replicate (width - (Nat.toDigits 10 n).length) '0' ++ Nat.toDigits 10 n :=
    String.toList_ofList
  have hdigits : ∀ c ∈ (Decimal.zeroPadded width n).toList, c.isDigit = true := by
    rw [htext]
    intro c hc
    rcases List.mem_append.mp hc with hzero | hdigit
    · exact isDigit_of_mem_zeros _ c hzero
    · exact (isDigits_toDigits n).isDigit c hdigit
  rw [decimal?_ascii (by simp [htext, Nat.toDigits_ne_nil]) hdigits, htext, Nat.ofDigitChars_append,
    Nat.ofDigitChars_replicate_zero, Nat.mul_zero, Nat.ofDigitChars_ten_toDigits]

theorem isRegular_of_isDigit {byte : UInt8} (h : isDigit byte = true) : isRegular byte = true := by
  rw [isDigit, Bool.and_eq_true, decide_eq_true_eq, decide_eq_true_eq] at h
  have hlow : 48 ≤ byte.toNat := h.1
  have hhigh : byte.toNat ≤ 57 := h.2
  rw [← UInt8.ofNat_toNat (x := byte)]
  interval_cases byte.toNat <;> decide

/-- A number is a word. -/
theorem isWord_of_decimal? {n : Nat} (h : decimal? text = some n) : IsWord text := by
  unfold decimal? at h
  split at h
  · rename_i hdigits
    exact ⟨hdigits.1, fun byte hbyte =>
      isRegular_of_isDigit (List.all_eq_true.mp hdigits.2 byte hbyte)⟩
  · cases h

end TrafficSheet.Pdf
