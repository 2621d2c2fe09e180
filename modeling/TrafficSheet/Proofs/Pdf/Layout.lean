import TrafficSheet.Proofs.Pdf.Syntax

/-!
# Values are read back

Values are laid out with each entry of a dictionary on a line of its own, further to the right
than the brackets of the dictionary (`Value.encode`). Reading goes from bracket to bracket: a
value inside of one is added to its items, and nothing else changes (`readIn_encode`). So a value
in brackets is found again in front of anything (`readGroup?_encode`).
-/

namespace TrafficSheet.Pdf

variable {blanks bytes rest : Bytes} {f f' : Frame} {around around' : List Frame} {b : Bracket}
  {v : Value} {items : List Value}

/-! ### The layout of values -/

/-- The start of a new line. -/
def newLine (indent : Nat) : Bytes := 10 :: List.replicate indent 32

/-- What stands in front of an item. In a dictionary each key starts a line. -/
def Bracket.gap (indent place : Nat) : Bracket → Bytes
  | .array => if place = 0 then [] else [32]
  | .dictionary => if place % 2 = 0 then newLine indent else [32]

/-- What stands in front of the closing bracket. -/
def Bracket.lastGap (indent : Nat) : Bracket → Bytes
  | .array => []
  | .dictionary => newLine indent

mutual

/-- A value as it is written. -/
def Value.encode (indent : Nat) : Value → Bytes
  | .word text => text
  | .name text => byteOf '/' :: text
  | .reference number => ascii (Pdf.reference number)
  | .group b items =>
    b.start ++ encodeItems (indent + 2) b 0 items ++ b.lastGap indent ++ b.finish

/-- The items of a bracket from the given place on, as they are written. -/
def encodeItems (indent : Nat) (b : Bracket) (place : Nat) : List Value → Bytes
  | [] => []
  | v :: items =>
    b.gap indent place ++ v.encode indent ++ encodeItems indent b (place + 1) items

end

/-- Values that can be written: words and names are in one piece, and no word is taken for the end
of a reference. -/
inductive Value.Sound : Value → Prop
  /-- A number or a keyword. -/
  | word {text : Bytes} (htext : IsWord text) (hne : text ≠ ascii "R") : Sound (.word text)
  /-- A name. -/
  | name {text : Bytes} (htext : ∀ byte ∈ text, isRegular byte = true) : Sound (.name text)
  /-- The number of an object. -/
  | reference {number : Nat} : Sound (.reference number)
  /-- What is between brackets. -/
  | group {b : Bracket} {items : List Value} (hitems : ∀ v ∈ items, Sound v) :
    Sound (.group b items)

theorem isGap_newLine (indent : Nat) : IsGap (newLine indent) := by
  refine isGap_of_blank (List.forall_mem_cons.mpr ⟨by decide, fun byte hbyte => ?_⟩)
  rw [List.eq_of_mem_replicate hbyte]
  decide

theorem isGap_gap (b : Bracket) (indent place : Nat) : IsGap (b.gap indent place) := by
  cases b with
  | array =>
    rw [Bracket.gap]
    split
    · exact fun _ => rfl
    · exact isGap_space
  | dictionary =>
    rw [Bracket.gap]
    split
    · exact isGap_newLine indent
    · exact isGap_space

theorem isGap_lastGap (b : Bracket) (indent : Nat) : IsGap (b.lastGap indent) := by
  cases b with
  | array => exact fun _ => rfl
  | dictionary => exact isGap_newLine indent

theorem stops_lastGap (b : Bracket) (indent : Nat) (rest : Bytes) :
    Stops (b.lastGap indent ++ (b.finish ++ rest)) := by
  cases b with
  | array => exact stops_finish .array rest
  | dictionary => exact stops_cons (by decide) _

theorem stops_encodeItems (indent : Nat) (b : Bracket) (place : Nat) (items : List Value)
    (hrest : Stops rest) : Stops (encodeItems indent b (place + 1) items ++ rest) := by
  cases items with
  | nil => exact hrest
  | cons v items =>
    rw [encodeItems]
    cases b with
    | array => exact stops_space _
    | dictionary =>
      rw [Bracket.gap]
      split
      · exact stops_cons (by decide) _
      · exact stops_space _

/-! ### Reading in brackets -/

theorem readIn_gap (hblanks : IsGap blanks) :
    readIn f around (blanks ++ bytes) = readIn f around bytes := by
  rw [readIn_eq, hblanks.next?_append, readIn_eq f around bytes]

/-- One more token inside of brackets. -/
theorem readIn_inside {token : Token} (h : next? bytes = some (token, rest))
    (hstep : f.step? around token = some (.inside f' around')) :
    readIn f around bytes = readIn f' around' rest := by
  rw [readIn_eq, h, Option.bind_some]
  dsimp only
  rw [hstep, Option.bind_some]

theorem readIn_done {token : Token} (h : next? bytes = some (token, rest))
    (hstep : f.step? around token = some (.done v)) :
    readIn f around bytes = some (v, rest) := by
  rw [readIn_eq, h, Option.bind_some]
  dsimp only
  rw [hstep, Option.bind_some]

theorem step?_word {text : Bytes} (hne : text ≠ ascii "R") :
    f.step? around (.word text) = some (.inside (f.push (.word text)) around) := by
  rw [Frame.step?, Frame.pushWord?, if_neg hne]
  rfl

theorem readIn_word {text : Bytes} (htext : IsWord text) (hne : text ≠ ascii "R")
    (hrest : Stops rest) :
    readIn f around (text ++ rest) = readIn (f.push (.word text)) around rest :=
  readIn_inside (next?_word htext hrest) (step?_word hne)

/-- A number is not the letter that ends a reference. -/
theorem ne_of_decimal? {text : Bytes} {n : Nat} (h : decimal? text = some n) :
    text ≠ ascii "R" := by
  rintro rfl
  cases h

theorem step?_reference {text : Bytes} {number : Nat} (h : decimal? text = some number) :
    ((f.push (.word text)).push (.word (ascii "0"))).step? around (.word (ascii "R")) =
      some (.inside (f.push (.reference number)) around) := by
  simp [Frame.step?, Frame.pushWord?, Frame.push, h]

/-- **A reference** is read in three steps: two numbers, and the letter that joins them. -/
theorem readIn_reference (number : Nat) (hrest : Stops rest) :
    readIn f around (ascii (Pdf.reference number) ++ rest) =
      readIn (f.push (.reference number)) around rest := by
  have hnumber := decimal?_toString number
  have hzero : IsWord (ascii "0") := by decide
  have hletter : IsWord (ascii "R") := by decide
  have hne : ascii "0" ≠ ascii "R" := by decide
  have htext : ascii (Pdf.reference number) ++ rest =
      ascii (toString number) ++ ([32] ++ (ascii "0" ++ ([32] ++ (ascii "R" ++ rest)))) := by
    rw [Pdf.reference, ascii_append, List.append_assoc]
    rfl
  rw [htext, readIn_word (isWord_of_decimal? hnumber) (ne_of_decimal? hnumber) (stops_space _),
    readIn_gap isGap_space, readIn_word hzero hne (stops_space _), readIn_gap isGap_space]
  exact readIn_inside (next?_word hletter hrest) (step?_reference hnumber)

/-- Items are read one after another, if each of them is. -/
theorem readIn_encodeItems (hitems : ∀ v ∈ items, ∀ (indent : Nat) (f : Frame) (rest : Bytes),
      Stops rest → readIn f around (v.encode indent ++ rest) = readIn (f.push v) around rest)
    (indent place : Nat) (f : Frame) (hrest : Stops rest) :
    readIn f around (encodeItems indent b place items ++ rest) =
      readIn ⟨f.bracket, items.reverse ++ f.items⟩ around rest := by
  -- The values that were read are in the frame, the last one first.
  induction items generalizing place f with
  | nil => rfl
  | cons v items ih =>
    obtain ⟨hv, hitems⟩ := List.forall_mem_cons.mp hitems
    rw [encodeItems, List.append_assoc, List.append_assoc, readIn_gap (isGap_gap b indent place),
      hv indent f _ (stops_encodeItems indent b place items hrest),
      ih hitems (place + 1) (f.push v), List.reverse_cons, List.append_assoc]
    rfl

theorem encode_group_append (b : Bracket) (items : List Value) (indent : Nat) (rest : Bytes) :
    (Value.group b items).encode indent ++ rest =
      b.start ++ (encodeItems (indent + 2) b 0 items ++
        (b.lastGap indent ++ (b.finish ++ rest))) := by
  rw [Value.encode, List.append_assoc, List.append_assoc, List.append_assoc]

/-- A bracket that is closed is an item of the one around it. -/
theorem readIn_finish (f outer : Frame) (around : List Frame) (rest : Bytes) :
    readIn f (outer :: around) (f.bracket.finish ++ rest) =
      readIn (outer.push f.value) around rest :=
  readIn_inside (next?_finish f.bracket rest) (if_pos rfl)

theorem readIn_finish_outermost (f : Frame) (rest : Bytes) :
    readIn f [] (f.bracket.finish ++ rest) = some (f.value, rest) :=
  readIn_done (next?_finish f.bracket rest) (if_pos rfl)

theorem value_reverse (b : Bracket) (items : List Value) :
    Frame.value ⟨b, items.reverse ++ []⟩ = .group b items := by
  rw [Frame.value, List.append_nil, List.reverse_reverse]

/-- **A value inside of brackets** is one more item, and what is around it does not matter. -/
theorem readIn_encode (hv : v.Sound) (indent : Nat) (f : Frame) (around : List Frame)
    (rest : Bytes) (hrest : Stops rest) :
    readIn f around (v.encode indent ++ rest) = readIn (f.push v) around rest := by
  induction hv generalizing indent f around rest with
  | word htext hne => exact readIn_word htext hne hrest
  | name htext => exact readIn_inside (next?_name htext hrest) rfl
  | reference => exact readIn_reference _ hrest
  | @group b items _ ih =>
    rw [encode_group_append, readIn_inside (next?_start b _) rfl,
      readIn_encodeItems (fun v hv indent f => ih v hv indent f _) _ _ _
        (stops_lastGap b indent rest),
      readIn_gap (isGap_lastGap b indent), readIn_finish ⟨b, items.reverse ++ []⟩ f,
      value_reverse]

/-- **A value in brackets** is found again in front of anything. -/
theorem readGroup?_encode (hitems : ∀ v ∈ items, v.Sound) (indent : Nat) (rest : Bytes) :
    readGroup? ((Value.group b items).encode indent ++ rest) = some (.group b items, rest) := by
  rw [encode_group_append, readGroup?, next?_start]
  dsimp only
  rw [readIn_encodeItems (fun v hv indent f => readIn_encode (hitems v hv) indent f []) _ _ _
      (stops_lastGap b indent rest),
    readIn_gap (isGap_lastGap b indent), readIn_finish_outermost ⟨b, items.reverse ++ []⟩,
    value_reverse]

end TrafficSheet.Pdf
