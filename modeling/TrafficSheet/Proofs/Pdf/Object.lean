import TrafficSheet.Pdf.Document.Reader
import TrafficSheet.Proofs.Pdf.Layout
import TrafficSheet.Proofs.Pdf.Number

/-!
# Objects are read back

An object is laid out as a dictionary (`Object.body_eq`), and a stream as the dictionary that says
how many bytes it has, and these bytes. A reader of objects finds it again where it stands,
whatever follows (`readObject?_encode`); the bytes of a stream may look like anything, for a
reader does not look at them.
-/

namespace TrafficSheet.Pdf

open Decimal

variable {gap text rest : Bytes} {word : String} {n total start : Nat}

/-! ### What is in front of the rest -/

theorem stops_newLine (rest : Bytes) : Stops ([10] ++ rest) := stops_cons (by decide) rest

theorem isGap_lineFeed : IsGap [10] := fun _ => rfl

theorem readNumber?_append (hgap : IsGap gap) (htext : decimal? text = some n)
    (hrest : Stops rest) : readNumber? (gap ++ (text ++ rest)) = some (n, rest) := by
  rw [readNumber?, hgap.next?_append, next?_word (isWord_of_decimal? htext) hrest]
  dsimp only
  rw [htext]
  rfl

theorem afterWord?_append (word : String) (hgap : IsGap gap) (hword : IsWord (ascii word))
    (hrest : Stops rest) : afterWord? word (gap ++ (ascii word ++ rest)) = some rest := by
  rw [afterWord?, hgap.next?_append, next?_word hword hrest]
  exact if_pos rfl

theorem afterWord?_of_ne (word other : String) (hgap : IsGap gap) (hother : IsWord (ascii other))
    (hne : ascii other ≠ ascii word) (hrest : Stops rest) :
    afterWord? word (gap ++ (ascii other ++ rest)) = none := by
  rw [afterWord?, hgap.next?_append, next?_word hother hrest]
  exact if_neg hne

theorem readGroup?_append (hgap : IsGap gap) (bytes : Bytes) :
    readGroup? (gap ++ bytes) = readGroup? bytes := by
  rw [readGroup?, hgap.next?_append, readGroup?]

theorem afterBytes?_append (front rest : Bytes) :
    afterBytes? front (front ++ rest) = some rest := by
  rw [afterBytes?, if_pos (List.isPrefixOf_iff_prefix.mpr (List.prefix_append front rest)),
    List.drop_left]

theorem skip_word (htext : IsWord text) (rest : Bytes) :
    skip false (text ++ rest) = text ++ rest := by
  obtain ⟨hne, hregular⟩ := htext
  cases text with
  | nil => exact absurd rfl hne
  | cons byte text => exact skip_regular (hregular byte List.mem_cons_self) (text ++ rest)

/-! ### Objects -/

/-- The keys and values of an object; of a stream those in front of it. -/
def Object.entries : Object → List Value
  | .catalog list =>
    [.name (ascii "Type"), .name (ascii "Catalog"), .name (ascii "Pages"), .reference list]
  | .pageList kids =>
    [.name (ascii "Type"), .name (ascii "Pages"),
     .name (ascii "Kids"), .group .array (kids.map .reference),
     .name (ascii "Count"), .word (ascii (toString kids.length))]
  | .page width height parent contents face =>
    [.name (ascii "Type"), .name (ascii "Page"),
     .name (ascii "MediaBox"), .group .array [.word (ascii "0"), .word (ascii "0"),
       .word (ascii (numberText width)), .word (ascii (numberText height))],
     .name (ascii "Parent"), .reference parent, .name (ascii "Contents"), .reference contents,
     .name (ascii "Resources"), .group .dictionary
       [.name (ascii "Font"), .group .dictionary [.name (ascii "F1"), .reference face]]]
  | .font name =>
    [.name (ascii "Type"), .name (ascii "Font"), .name (ascii "Subtype"), .name (ascii "Type1"),
     .name (ascii "BaseFont"), .name (ascii name)]
  | .stream content => [.name (ascii "Length"), .word (ascii (toString content.length))]

/-- What an object is made of, a stream apart. -/
def Object.value (o : Object) : Value := .group .dictionary o.entries

/-- The bytes of the stream of an object, if it has one. -/
def Object.stream? : Object → Option Bytes
  | .stream content => some content
  | _ => none

/-- An object with its number, as it is found at some place of a file. -/
def Object.placed (offset number : Nat) (o : Object) : Indirect :=
  ⟨offset, number, o.value, o.stream?⟩

/-- Objects that can be written: what is used as a name is in one piece. -/
def Object.Sound : Object → Prop
  | .font name => ∀ byte ∈ ascii name, isRegular byte = true
  | _ => True

/-- What stands after the entries of an object. -/
def Object.tail (o : Object) : Bytes :=
  match o.stream? with
  | none => []
  | some content => ascii "\nstream\n" ++ (content ++ ascii "\nendstream")

theorem ascii_intercalate (kid : Nat) (kids : List Nat) :
    ascii (" ".intercalate ((kid :: kids).map reference)) =
      ascii (reference kid) ++ kids.flatMap fun kid => [32] ++ ascii (reference kid) := by
  induction kids generalizing kid with
  | nil => rw [List.map_singleton, String.intercalate_singleton, List.flatMap_nil, List.append_nil]
  | cons next kids ih =>
    rw [List.map_cons, List.map_cons, String.intercalate_cons_cons, ascii_append, ascii_append,
      ← List.map_cons, ih, List.flatMap_cons, List.append_assoc, List.append_assoc]
    rfl

theorem encodeItems_more_references (indent place : Nat) (kids : List Nat) :
    encodeItems indent .array (place + 1) (kids.map .reference) =
      kids.flatMap fun kid => [32] ++ ascii (reference kid) := by
  induction kids generalizing place with
  | nil => rfl
  | cons kid kids ih =>
    rw [List.map_cons, encodeItems, ih, List.flatMap_cons]
    rfl

/-- References in a sequence have a blank between them. -/
theorem encodeItems_references (indent : Nat) (kids : List Nat) :
    encodeItems indent .array 0 (kids.map .reference) =
      ascii (" ".intercalate (kids.map reference)) := by
  cases kids with
  | nil => rfl
  | cons kid kids =>
    rw [ascii_intercalate, List.map_cons, encodeItems, encodeItems_more_references]
    rfl

/-- An object is laid out as its value, and what comes after it. -/
theorem Object.body_eq (o : Object) : o.body = o.value.encode 0 ++ o.tail := by
  cases o <;>
    simp [Object.body, Object.value, Object.entries, Object.tail, Object.stream?, Value.encode,
      encodeItems, encodeItems_references, Bracket.gap, Bracket.lastGap, Bracket.start,
      Bracket.finish, newLine, byteOf, ascii]

/-- Entries are sound one by one: the key is in one piece, and the value is sound. -/
theorem sound_entry {key : String} {v : Value} {entries : List Value}
    (hkey : (ascii key).all isRegular = true) (hv : v.Sound) (hentries : ∀ v ∈ entries, v.Sound) :
    ∀ u ∈ .name (ascii key) :: v :: entries, u.Sound :=
  List.forall_mem_cons.mpr
    ⟨.name (List.all_eq_true.mp hkey), List.forall_mem_cons.mpr ⟨hv, hentries⟩⟩

theorem sound_nil : ∀ v ∈ ([] : List Value), v.Sound := List.forall_mem_nil _

theorem sound_name (h : (ascii word).all isRegular = true) : (Value.name (ascii word)).Sound :=
  .name (List.all_eq_true.mp h)

theorem sound_number (h : Numeral word.toList) : (Value.word (ascii word)).Sound :=
  .word (isWord_of_numeral h) (ne_letter_of_numeral h)

theorem Object.sound_entries {o : Object} (ho : o.Sound) : ∀ v ∈ o.entries, v.Sound := by
  cases o with
  | catalog list =>
    exact sound_entry (by decide) (sound_name (by decide))
      (sound_entry (by decide) .reference sound_nil)
  | pageList kids =>
    have hkids : (Value.group .array (kids.map .reference)).Sound :=
      .group (List.forall_mem_map.mpr fun _ _ => .reference)
    exact sound_entry (by decide) (sound_name (by decide)) (sound_entry (by decide) hkids
      (sound_entry (by decide) (sound_number (numeral_toString _)) sound_nil))
  | page width height parent contents face =>
    have hbox : (Value.group .array [.word (ascii "0"), .word (ascii "0"),
        .word (ascii (numberText width)), .word (ascii (numberText height))]).Sound := by
      have hzero : (Value.word (ascii "0")).Sound := sound_number (numeral_toString 0)
      refine .group ?_
      simp only [List.forall_mem_cons]
      exact ⟨hzero, hzero, sound_number (numeral_numberText width),
        sound_number (numeral_numberText height), sound_nil⟩
    have hfonts : (Value.group .dictionary [.name (ascii "F1"), .reference face]).Sound :=
      .group (sound_entry (by decide) .reference sound_nil)
    exact sound_entry (by decide) (sound_name (by decide)) (sound_entry (by decide) hbox
      (sound_entry (by decide) .reference (sound_entry (by decide) .reference
        (sound_entry (by decide) (.group (sound_entry (by decide) hfonts sound_nil)) sound_nil))))
  | font name =>
    exact sound_entry (by decide) (sound_name (by decide)) (sound_entry (by decide)
      (sound_name (by decide)) (sound_entry (by decide) (.name ho) sound_nil))
  | stream content => exact sound_entry (by decide) (sound_number (numeral_toString _)) sound_nil

/-- The dictionary in front of a stream says how long it is. -/
theorem Object.lookup?_length {o : Object} {content : Bytes} (ho : o.stream? = some content) :
    (o.value.lookup? "Length").bind Value.number? = some content.length := by
  cases o <;> cases ho
  exact decimal?_toString _

theorem readStreamIfAny?_tail (o : Object) (rest : Bytes) :
    readStreamIfAny? o.value (o.tail ++ ([10] ++ (ascii "endobj" ++ ([10] ++ rest)))) =
      some (o.stream?, [10] ++ (ascii "endobj" ++ ([10] ++ rest))) := by
  rw [Object.tail, readStreamIfAny?]
  cases ho : o.stream? with
  | none =>
    dsimp only
    rw [List.nil_append, afterWord?_of_ne "stream" "endobj" isGap_lineFeed (by decide) (by decide)
      (stops_newLine rest)]
  | some content =>
    have htext : ∀ more, ascii "\nstream\n" ++ (content ++ ascii "\nendstream") ++ more =
        [10] ++ (ascii "stream" ++ ([10] ++ (content ++ (ascii "\nendstream" ++ more)))) := by
      intro more
      rw [List.append_assoc, List.append_assoc]
      rfl
    dsimp only
    rw [htext, afterWord?_append "stream" isGap_lineFeed (by decide) (stops_newLine _)]
    dsimp only
    rw [readStream?, Object.lookup?_length ho]
    simp only [Option.bind_eq_bind, Option.bind_some]
    rw [show ascii "\n" = [10] from rfl, afterBytes?_append, Option.bind_some, List.drop_left,
      List.take_left, afterBytes?_append]
    rfl

/-- An object with its number, in words. -/
theorem Object.encode_append (number : Nat) (o : Object) (rest : Bytes) :
    o.encode number ++ rest =
      ascii (toString number) ++ ([32] ++ (ascii "0" ++ ([32] ++ (ascii "obj" ++ ([10] ++
        (o.value.encode 0 ++ (o.tail ++ ([10] ++ (ascii "endobj" ++
          ([10] ++ ([10] ++ rest))))))))))) := by
  rw [Object.encode, ascii_append, Object.body_eq]
  simp only [List.append_assoc]
  rfl

/-- **An object** is read back where it stands. -/
theorem readObject?_encode {o : Object} (ho : o.Sound) (number : Nat) (hgap : IsGap gap)
    (htotal : total = start + (o.encode number ++ rest).length) :
    readObject? total (gap ++ (o.encode number ++ rest)) =
      some (o.placed start number, [10, 10] ++ rest) := by
  have hnumber := decimal?_toString number
  have hstart : total - (skip false (gap ++ (o.encode number ++ rest))).length = start := by
    rw [hgap, Object.encode_append, skip_word (isWord_of_decimal? hnumber), ← Object.encode_append,
      htotal, Nat.add_sub_cancel]
  rw [readObject?, hstart, Object.encode_append, readNumber?_append hgap hnumber (stops_space _)]
  simp only [Option.bind_eq_bind, Option.bind_some]
  rw [afterWord?_append "0" isGap_space (by decide) (stops_space _), Option.bind_some,
    afterWord?_append "obj" isGap_space (by decide) (stops_newLine _), Option.bind_some,
    readGroup?_append isGap_lineFeed, Object.value, readGroup?_encode (Object.sound_entries ho),
    Option.bind_some, ← Object.value]
  dsimp only
  rw [readStreamIfAny?_tail, Option.bind_some]
  dsimp only
  rw [afterWord?_append "endobj" isGap_lineFeed (by decide) (stops_newLine _)]
  rfl

end TrafficSheet.Pdf
