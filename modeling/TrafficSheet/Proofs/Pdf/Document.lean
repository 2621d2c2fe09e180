import TrafficSheet.Proofs.Pdf.Object

/-!
# Files are read back

The file of any objects is read back (`read?_encodeFile`): a reader finds the objects one after
another (`readObjects_encode`), then the table (`readTable?_table`), the trailer, and the place of
the table. What the file says of places and lengths is so (`isIndexed_documentOf`): each object is
where its line of the table says, and each stream is as long as the dictionary in front of it
says.

The lines of the table are read word by word, and so a place of more than ten digits is read too.
-/

namespace TrafficSheet.Pdf

variable {gap bytes rest : Bytes} {total start : Nat}

/-! ### Objects one after another -/

/-- Numbered objects, as they are found in a file from the given place on. -/
def placeFrom (start : Nat) : List (Object × Nat) → List Indirect
  | [] => []
  | (o, i) :: rest =>
    o.placed start (i + 1) :: placeFrom (start + (o.encode (i + 1)).length) rest

/-- The bytes of numbered objects. -/
def encodeNumbered (numbered : List (Object × Nat)) : List Bytes :=
  numbered.map fun (o, i) => o.encode (i + 1)

theorem map_offset_placeFrom (start : Nat) (numbered : List (Object × Nat)) :
    (placeFrom start numbered).map (·.offset) = offsetsFrom start (encodeNumbered numbered) := by
  induction numbered generalizing start with
  | nil => rfl
  | cons p numbered ih => exact congrArg (start :: ·) (ih _)

/-- Every object is written where it is said to start. -/
theorem exists_object_of_mem_placeFrom {numbered : List (Object × Nat)} {o : Indirect}
    (front rest : Bytes) (ho : o ∈ placeFrom front.length numbered) :
    ∃ object : Object, o = object.placed o.offset o.number ∧
      object.encode o.number <+:
        (front ++ ((encodeNumbered numbered).flatten ++ rest)).drop o.offset := by
  induction numbered generalizing front with
  | nil => cases ho
  | cons p numbered ih =>
    obtain ⟨object, i⟩ := p
    have hparts : front ++ ((encodeNumbered ((object, i) :: numbered)).flatten ++ rest) =
        (front ++ object.encode (i + 1)) ++ ((encodeNumbered numbered).flatten ++ rest) := by
      simp [encodeNumbered]
    rw [hparts]
    rcases List.mem_cons.mp ho with rfl | hlater
    · refine ⟨object, rfl, ?_⟩
      have hoffset : (object.placed front.length (i + 1)).offset = front.length := rfl
      rw [hoffset, List.append_assoc, List.drop_left]
      exact List.prefix_append _ _
    -- For those after it, this object is part of what is in front.
    · exact ih (front ++ object.encode (i + 1)) (by rwa [List.length_append])

theorem readObjects_of_none (h : readObject? total bytes = none) :
    readObjects total bytes = ([], bytes) := by
  rw [readObjects, h]

theorem readObjects_of_some {o : Indirect} (h : readObject? total bytes = some (o, rest))
    (hlength : rest.length < bytes.length) :
    readObjects total bytes = (o :: (readObjects total rest).1, (readObjects total rest).2) := by
  rw [readObjects, h]
  dsimp only
  rw [if_pos hlength]

/-- **Objects** are read one after another, up to where there is none. -/
theorem readObjects_encode {numbered : List (Object × Nat)} (hsound : ∀ p ∈ numbered, p.1.Sound)
    (hrest : ∀ gap, IsGap gap → readObject? total (gap ++ rest) = none) (hgap : IsGap gap)
    (htotal : total = start + ((encodeNumbered numbered).flatten ++ rest).length) :
    ∃ gap', IsGap gap' ∧ readObjects total (gap ++ ((encodeNumbered numbered).flatten ++ rest)) =
      (placeFrom start numbered, gap' ++ rest) := by
  induction numbered generalizing start gap with
  | nil => exact ⟨gap, hgap, readObjects_of_none (hrest gap hgap)⟩
  | cons p numbered ih =>
    obtain ⟨o, i⟩ := p
    obtain ⟨ho, hsound⟩ := List.forall_mem_cons.mp hsound
    have hparts : (encodeNumbered ((o, i) :: numbered)).flatten ++ rest =
        o.encode (i + 1) ++ ((encodeNumbered numbered).flatten ++ rest) := by
      simp [encodeNumbered]
    rw [hparts] at htotal ⊢
    have hread := readObject?_encode ho (i + 1) hgap htotal
    -- The ends of lines after this object are the gap in front of the next one.
    have hlines : IsGap [10, 10] := fun _ => rfl
    have hlater : total = start + (o.encode (i + 1)).length +
        ((encodeNumbered numbered).flatten ++ rest).length := by
      rw [htotal, List.length_append, Nat.add_assoc]
    obtain ⟨gap', hgap', hobjects⟩ := ih hsound hlines hlater
    refine ⟨gap', hgap', ?_⟩
    rw [readObjects_of_some hread (by simp [Object.encode, ascii]; omega), hobjects]
    rfl

/-! ### The table and the trailer -/

/-- What ends a line of the table. -/
def tableEnd : Bytes := [13, 10]

theorem isGap_tableEnd : IsGap tableEnd := fun _ => rfl

theorem stops_tableEnd (rest : Bytes) : Stops (tableEnd ++ rest) := stops_cons (by decide) _

/-- The letter that says whether there is an object with a number. -/
def useLetter (inUse : Bool) : String := if inUse then "n" else "f"

/-- A line of the table is read back, whether or not its number is in use. -/
theorem readLine?_append {offset generation : Nat} {first second : Bytes} (hgap : IsGap gap)
    (hfirst : decimal? first = some offset) (hsecond : decimal? second = some generation)
    (inUse : Bool) (rest : Bytes) :
    readLine? (gap ++ (first ++ ([32] ++ (second ++ ([32] ++
        (ascii (useLetter inUse) ++ (tableEnd ++ rest))))))) =
      some (⟨offset, generation, inUse⟩, tableEnd ++ rest) := by
  rw [readLine?, readNumber?_append hgap hfirst (stops_space _)]
  simp only [Option.bind_eq_bind, Option.bind_some]
  rw [readNumber?_append isGap_space hsecond (stops_space _), Option.bind_some]
  dsimp only
  cases inUse with
  | true =>
    rw [show useLetter true = "n" from rfl,
      afterWord?_append "n" isGap_space (by decide) (stops_tableEnd rest)]
    rfl
  | false =>
    rw [show useLetter false = "f" from rfl,
      afterWord?_of_ne "n" "f" isGap_space (by decide) (by decide) (stops_tableEnd rest)]
    dsimp only
    rw [afterWord?_append "f" isGap_space (by decide) (stops_tableEnd rest)]
    rfl

theorem readLine?_tableLine (offset : Nat) (rest : Bytes) :
    readLine? (tableEnd ++ (tableLine offset ++ rest)) =
      some (⟨offset, 0, true⟩, tableEnd ++ rest) := by
  have hgeneration : decimal? (ascii "00000") = some 0 := by decide
  have htext : tableLine offset ++ rest = ascii (Decimal.zeroPadded 10 offset) ++
      ([32] ++ (ascii "00000" ++ ([32] ++ (ascii (useLetter true) ++ (tableEnd ++ rest))))) := by
    rw [tableLine, ascii_append, List.append_assoc]
    rfl
  rw [htext]
  exact readLine?_append isGap_tableEnd (decimal?_zeroPadded 10 offset) hgeneration true rest

theorem readLines?_tableLines (offsets : List Nat) (rest : Bytes) :
    readLines? offsets.length (tableEnd ++ (offsets.flatMap tableLine ++ rest)) =
      some (offsets.map (⟨·, 0, true⟩), tableEnd ++ rest) := by
  induction offsets with
  | nil => rfl
  | cons offset offsets ih =>
    rw [List.length_cons, readLines?, List.flatMap_cons, List.append_assoc,
      readLine?_tableLine]
    simp only [Option.bind_eq_bind, Option.bind_some]
    rw [ih, Option.bind_some]
    rfl

theorem isWord_xref : IsWord (ascii "xref") := by decide

/-- **The table** is read back, after the line for the number zero. -/
theorem readTable?_table (hgap : IsGap gap) (offsets : List Nat) (rest : Bytes) :
    readTable? (gap ++ (table offsets ++ rest)) =
      some (⟨0, 65535, false⟩ :: offsets.map (⟨·, 0, true⟩), tableEnd ++ rest) := by
  have hfree := readLine?_append isGap_lineFeed (by decide : decimal? (ascii "0000000000") = some 0)
    (by decide : decimal? (ascii "65535") = some 65535) false (offsets.flatMap tableLine ++ rest)
  have htext : table offsets ++ rest = ascii "xref" ++ ([10] ++ (ascii "0" ++ ([32] ++
      (ascii (toString (offsets.length + 1)) ++ ([10] ++ (ascii "0000000000" ++ ([32] ++
        (ascii "65535" ++ ([32] ++ (ascii (useLetter false) ++ (tableEnd ++
          (offsets.flatMap tableLine ++ rest)))))))))))) := by
    rw [table, ascii_append, ascii_append]
    simp only [List.append_assoc]
    rfl
  rw [readTable?, htext, afterWord?_append "xref" hgap isWord_xref (stops_newLine _)]
  simp only [Option.bind_eq_bind, Option.bind_some]
  rw [afterWord?_append "0" isGap_lineFeed (by decide) (stops_space _), Option.bind_some,
    readNumber?_append isGap_space (decimal?_toString _) (stops_newLine _), Option.bind_some]
  dsimp only
  rw [readLines?, hfree]
  simp only [Option.bind_eq_bind, Option.bind_some]
  rw [readLines?_tableLines, Option.bind_some]
  rfl

/-- The keys and values after the table. -/
def trailerEntries (size root : Nat) : List Value :=
  [.name (ascii "Size"), .word (ascii (toString size)), .name (ascii "Root"), .reference root]

theorem trailer_eq (size root tableOffset : Nat) :
    trailer size root tableOffset = ascii "trailer" ++ ([10] ++
      ((Value.group .dictionary (trailerEntries size root)).encode 0 ++ ([10] ++
        (ascii "startxref" ++ ([10] ++ (ascii (toString tableOffset) ++ ascii "\n%%EOF")))))) := by
  simp [trailer, trailerEntries, Value.encode, encodeItems, Bracket.gap, Bracket.lastGap,
    Bracket.start, Bracket.finish, newLine, byteOf, ascii]

theorem sound_trailerEntries (size root : Nat) : ∀ v ∈ trailerEntries size root, v.Sound :=
  sound_entry (by decide) (sound_number (Decimal.numeral_toString size))
    (sound_entry (by decide) .reference sound_nil)

/-! ### Files -/

/-- What marks a file as binary, and what follows it up to the first object. -/
def binaryMark : Bytes := ascii "%" ++ [128, 128, 128, 128] ++ [10, 10]

theorem isGap_binaryMark : IsGap binaryMark := fun _ => rfl

theorem head_eq : head = ascii "%PDF-1.7\n" ++ binaryMark := rfl

/-- How many bytes there are before the table. -/
def tableStart (objects : List Object) : Nat :=
  head.length + (encodeObjects objects).flatten.length

/-- The table and the trailer. -/
def ending (objects : List Object) : Bytes :=
  table (offsetsFrom head.length (encodeObjects objects)) ++
    trailer (objects.length + 1) 1 (tableStart objects)

theorem encodeFile_eq (objects : List Object) :
    encodeFile objects =
      head ++ ((encodeNumbered objects.zipIdx).flatten ++ ending objects) := by
  rw [encodeFile, ending]
  simp only [List.append_assoc]
  rfl

/-- The table starts with its keyword. -/
theorem exists_ending_eq (objects : List Object) :
    ∃ more, ending objects = ascii "xref" ++ ([10] ++ more) := by
  have htable : ∀ offsets, ∃ lines, table offsets = ascii "xref" ++ ([10] ++ lines) := by
    intro offsets
    exact ⟨ascii ("0 " ++ toString (offsets.length + 1) ++ "\n0000000000 65535 f\r\n") ++
      offsets.flatMap tableLine, by simp [table, ascii]⟩
  obtain ⟨lines, hlines⟩ := htable (offsetsFrom head.length (encodeObjects objects))
  rw [ending, hlines, List.append_assoc, List.append_assoc]
  exact ⟨_, rfl⟩

theorem skip_ending (objects : List Object) : skip false (ending objects) = ending objects := by
  obtain ⟨more, hmore⟩ := exists_ending_eq objects
  rw [hmore, skip_word isWord_xref]

/-- No object starts where the table does. -/
theorem readObject?_ending (hgap : IsGap gap) (objects : List Object) :
    readObject? total (gap ++ ending objects) = none := by
  obtain ⟨more, hmore⟩ := exists_ending_eq objects
  rw [readObject?, readNumber?, hgap.next?_append, hmore, next?_word isWord_xref (stops_newLine _)]
  rfl

/-- What a reader finds in the file of some objects. -/
def documentOf (objects : List Object) : Document where
  objects := placeFrom head.length objects.zipIdx
  tableOffset := tableStart objects
  table := ⟨0, 65535, false⟩ ::
    (offsetsFrom head.length (encodeObjects objects)).map (⟨·, 0, true⟩)
  trailer := .group .dictionary (trailerEntries (objects.length + 1) 1)
  start := tableStart objects

/-- **The file of objects** is read back to its end, with each of them and with the table. -/
theorem read?_encodeFile {objects : List Object} (hsound : ∀ o ∈ objects, o.Sound) :
    Document.read? (encodeFile objects) = some (documentOf objects) := by
  have hnumbered : ∀ p ∈ objects.zipIdx, p.1.Sound := fun p hp =>
    hsound p.1 (List.fst_mem_of_mem_zipIdx hp)
  have htotal : (encodeFile objects).length =
      head.length + ((encodeNumbered objects.zipIdx).flatten ++ ending objects).length := by
    rw [encodeFile_eq, List.length_append]
  obtain ⟨gap, hgap, hobjects⟩ := readObjects_encode hnumbered
    (fun gap hgap => readObject?_ending hgap objects) isGap_binaryMark htotal
  have hstart : (encodeFile objects).length - (skip false (gap ++ ending objects)).length =
      tableStart objects := by
    rw [hgap, skip_ending, encodeFile_eq, ← List.append_assoc, List.length_append,
      Nat.add_sub_cancel, List.length_append]
    rfl
  have hend : Stops (ascii "\n%%EOF") := stops_newLine (ascii "%%EOF")
  -- The head and the objects, then the table, and then the trailer with the place of the table.
  rw [Document.read?]
  simp only [Option.bind_eq_bind]
  rw [htotal, encodeFile_eq, head_eq, List.append_assoc, afterBytes?_append, Option.bind_some,
    ← head_eq, ← htotal, hobjects]
  dsimp only
  rw [hstart, ending, readTable?_table hgap]
  simp only [Option.bind_some]
  rw [trailer_eq, afterWord?_append "trailer" isGap_tableEnd (by decide) (stops_newLine _),
    Option.bind_some, readGroup?_append isGap_lineFeed,
    readGroup?_encode (sound_trailerEntries _ _), Option.bind_some]
  dsimp only
  rw [afterWord?_append "startxref" isGap_lineFeed (by decide) (stops_newLine _),
    Option.bind_some, readNumber?_append isGap_lineFeed (decimal?_toString _) hend,
    Option.bind_some]
  exact if_pos rfl

/-- What the places and lengths in a file have to be, whatever its objects are. -/
structure Document.IsIndexed (d : Document) (file : Bytes) : Prop where
  /-- An object starts where its line of the table says; the line for zero is that of no object. -/
  table : d.table = ⟨0, 65535, false⟩ :: d.objects.map fun o => ⟨o.offset, 0, true⟩
  /-- What starts there is the object with the number of the line. -/
  placed : ∀ o ∈ d.objects, ascii (toString o.number ++ " 0 obj\n") <+: file.drop o.offset
  /-- The table was found where it is said to start, and its keyword stands there. -/
  start : d.start = d.tableOffset ∧ ascii "xref\n" <+: file.drop d.start
  /-- The length of a stream is the number of bytes between its two keywords. -/
  streams : ∀ o ∈ d.objects, ∀ content ∈ o.stream?,
    (o.value.lookup? "Length").bind Value.number? = some content.length ∧
      ascii (toString o.number ++ " 0 obj\n<<\n  /Length " ++ toString content.length ++
        "\n>>\nstream\n") ++ content ++ ascii "\nendstream" <+: file.drop o.offset

theorem prefix_encode (o : Object) (number : Nat) :
    ascii (toString number ++ " 0 obj\n") <+: o.encode number := by
  rw [Object.encode, List.append_assoc]
  exact List.prefix_append _ _

theorem prefix_encode_stream {o : Object} {content : Bytes} (ho : o.stream? = some content)
    (number : Nat) :
    ascii (toString number ++ " 0 obj\n<<\n  /Length " ++ toString content.length ++
      "\n>>\nstream\n") ++ content ++ ascii "\nendstream" <+: o.encode number := by
  cases o <;> cases ho
  refine ⟨ascii "\nendobj\n\n", ?_⟩
  simp [Object.encode, Object.body, ascii]

/-- **All places and lengths** in a file are what they should be. -/
theorem isIndexed_documentOf (objects : List Object) :
    (documentOf objects).IsIndexed (encodeFile objects) := by
  have hobject : ∀ o ∈ (documentOf objects).objects, ∃ object : Object,
      o = object.placed o.offset o.number ∧
        object.encode o.number <+: (encodeFile objects).drop o.offset := by
    intro o ho
    rw [encodeFile_eq]
    exact exists_object_of_mem_placeFrom head (ending objects) ho
  constructor
  case table =>
    have hoffsets : offsetsFrom head.length (encodeObjects objects) =
        (documentOf objects).objects.map (·.offset) :=
      (map_offset_placeFrom head.length objects.zipIdx).symm
    have hlines : (offsetsFrom head.length (encodeObjects objects)).map (TableLine.mk · 0 true) =
        (documentOf objects).objects.map fun o => ⟨o.offset, 0, true⟩ := by
      rw [hoffsets, List.map_map]
      rfl
    exact congrArg (_ :: ·) hlines
  case placed =>
    intro o ho
    obtain ⟨object, -, hbytes⟩ := hobject o ho
    exact (prefix_encode object o.number).trans hbytes
  case start =>
    obtain ⟨more, hmore⟩ := exists_ending_eq objects
    have htable : (encodeFile objects).drop (tableStart objects) = ending objects := by
      rw [encodeFile_eq, ← List.append_assoc]
      exact List.drop_left' (by rw [List.length_append]; rfl)
    refine ⟨rfl, ?_⟩
    rw [documentOf, htable, hmore]
    exact ⟨more, rfl⟩
  case streams =>
    intro o ho content hcontent
    obtain ⟨object, hplaced, hbytes⟩ := hobject o ho
    have hstream : object.stream? = some content := by
      rw [hplaced] at hcontent
      exact hcontent
    refine ⟨?_, (prefix_encode_stream hstream o.number).trans hbytes⟩
    rw [hplaced]
    exact Object.lookup?_length hstream

/-- The trailer counts the numbers, with zero among them. -/
theorem size_documentOf (objects : List Object) :
    ((documentOf objects).trailer.lookup? "Size").bind Value.number? = some (objects.length + 1) :=
  decimal?_toString (objects.length + 1)

end TrafficSheet.Pdf
