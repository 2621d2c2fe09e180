import TrafficSheet.Bytes.Lemmas
import TrafficSheet.Capture.Reader
import TrafficSheet.Capture.Basic

/-!
# The format of captures

A header fits its file if its two numbers take no more than four bytes each, and a record is
well formed in a file if its time is one and its lengths are in order. What is proved of the
reader is that it is the inverse of the writer on these: `readHeader_eq_ok_iff` and
`readRecord_eq_ok_iff` say so of the head and of one record, whatever comes after it.

A run of the reader goes through the well-formed records at the start of the bytes and no
further (`readRecords_append`, `exists_unread`). The twelve bytes of a head that are of no
account are called its filler.
-/

namespace TrafficSheet.Capture

/-- How many units a second has. -/
def Resolution.perSecond : Resolution → Nat
  | .micro => 1000000
  | .nano => 1000000000

/-- A whole number of microseconds, what is below being cut off. -/
def Resolution.toMicros : Resolution → Nat → Nat
  | .micro, units => units
  | .nano, units => units / 1000

/-- The numbers of a header take four bytes at most. -/
structure Header.Fits (h : Header) : Prop where
  /-- The largest length of a record does. -/
  snapLength_lt : h.snapLength < 256 ^ 4
  /-- The number of the link does. -/
  linkNumber_lt : h.linkNumber < 256 ^ 4

/-- The record may stand in a file with the given head. -/
structure Record.WellFormed (h : Header) (r : Record) : Prop where
  /-- The seconds take four bytes at most. -/
  seconds_lt : r.seconds < 256 ^ 4
  /-- The fraction is less than a second. -/
  fraction_lt : r.fraction < h.encoding.resolution.perSecond
  /-- No more was captured than there was. -/
  captured_le : r.data.length ≤ r.wireLength
  /-- The frame was no longer than the file allows. -/
  wire_le : r.wireLength ≤ h.snapLength

variable {h : Header} {r : Record} {records : List Record} {bytes rest body file filler : Bytes}

/-! ### One record -/

theorem Record.WellFormed.fraction_lt_word (hr : r.WellFormed h) : r.fraction < 256 ^ 4 := by
  have hlt := hr.fraction_lt
  cases hres : h.encoding.resolution <;> rw [hres, Resolution.perSecond] at hlt <;> omega

theorem Record.WellFormed.wireLength_lt (hr : r.WellFormed h) (hh : h.Fits) :
    r.wireLength < 256 ^ 4 :=
  hr.wire_le.trans_lt hh.snapLength_lt

theorem Record.WellFormed.captured_lt (hr : r.WellFormed h) (hh : h.Fits) :
    r.data.length < 256 ^ 4 :=
  hr.captured_le.trans_lt (hr.wireLength_lt hh)

/-- A fraction of a second or more shows in nanoseconds. -/
theorem Record.nanos_lt_iff (resolution : Resolution) (r : Record) :
    r.nanos resolution < 1000000000 ↔ r.fraction < resolution.perSecond := by
  cases resolution <;> simp only [Record.nanos, Resolution.perSecond]
  omega

/-- **Nothing is wrong with a record** whose fraction is less than a second and whose lengths
are in order. -/
theorem Record.fault?_eq_none_iff :
    r.fault? h = none ↔ r.fraction < h.encoding.resolution.perSecond ∧
      r.data.length ≤ r.wireLength ∧ r.wireLength ≤ h.snapLength := by
  rw [← Record.nanos_lt_iff, Record.fault?]
  split_ifs <;> simp <;> omega

theorem length_encode (order : ByteOrder) (r : Record) :
    (r.encode order).length = 16 + r.data.length := by
  simp [Record.encode]
  omega

/-- The fields of a record, one after the other. -/
theorem encode_append (order : ByteOrder) (r : Record) (rest : Bytes) :
    r.encode order ++ rest = .ofValue order 4 r.seconds ++ (.ofValue order 4 r.fraction ++
      (.ofValue order 4 r.data.length ++ (.ofValue order 4 r.wireLength ++ (r.data ++ rest)))) := by
  simp only [Record.encode, List.append_assoc]

/-- What is written of a record spells it. -/
theorem announcedLength_encode (hh : h.Fits) (hr : r.WellFormed h) (rest : Bytes) :
    announcedLength h (r.encode h.encoding.order ++ rest) = r.data.length := by
  rw [announcedLength, recordNumber, encode_append]
  simp only [Bytes.field_append_of_le, Bytes.length_ofValue, Nat.reduceLeDiff, Nat.reduceSub,
    Bytes.field_zero_append, Bytes.value_ofValue _ (hr.captured_lt hh)]

theorem recordAt_encode (hh : h.Fits) (hr : r.WellFormed h) (rest : Bytes) :
    recordAt h (r.encode h.encoding.order ++ rest) = r := by
  rw [recordAt, announcedLength_encode hh hr, encode_append]
  simp only [recordNumber, Bytes.field_append_of_le, Bytes.length_ofValue, Nat.reduceLeDiff,
    Nat.reduceSub, Bytes.field_zero_append, Bytes.value_ofValue _ hr.seconds_lt,
    Bytes.value_ofValue _ hr.fraction_lt_word, Bytes.value_ofValue _ (hr.wireLength_lt hh)]

/-- Bytes that are long enough are what is written of the record that they spell. -/
theorem encode_recordAt (hlen : 16 + announcedLength h bytes ≤ bytes.length) :
    (recordAt h bytes).encode h.encoding.order ++ bytes.drop (16 + announcedLength h bytes) =
      bytes := by
  have hnumber : ∀ offset, offset + 4 ≤ 16 →
      Bytes.ofValue h.encoding.order 4 (recordNumber h offset bytes) = bytes.field offset 4 := by
    intro offset hoffset
    exact Bytes.ofValue_value_field _ (by omega)
  have hdata : (recordAt h bytes).data.length = announcedLength h bytes := Bytes.length_field hlen
  rw [encode_append, hdata, announcedLength]
  simp only [recordAt, hnumber, Nat.reduceAdd, Nat.reduceLeDiff, announcedLength]
  rw [Bytes.field_append_drop, Bytes.field_append_drop 12 4, Bytes.field_append_drop 8 4,
    Bytes.field_append_drop 4 4, Bytes.field_append_drop 0 4, List.drop_zero]

theorem length_recordAt_lt_iff (hlen : 16 ≤ bytes.length) :
    (recordAt h bytes).data.length < announcedLength h bytes ↔
      bytes.length < 16 + announcedLength h bytes := by
  simp only [recordAt, Bytes.field, List.length_take, List.length_drop]
  omega

/-- **A record is read** exactly where a well-formed one is written, and the bytes after it are
left. -/
theorem readRecord_eq_ok_iff (hh : h.Fits) :
    readRecord h bytes = .ok (r, rest) ↔
      r.WellFormed h ∧ bytes = r.encode h.encoding.order ++ rest := by
  constructor
  · intro hread
    rw [readRecord, List.length_take] at hread
    split_ifs at hread with hshort hcut
    rw [length_recordAt_lt_iff (by omega)] at hcut
    have hbytes := encode_recordAt (h := h) (Nat.not_lt.mp hcut)
    split at hread
    · simp at hread
    · rename_i hfault
      obtain ⟨rfl, rfl⟩ := Prod.mk.inj (Except.ok.inj hread)
      obtain ⟨hfraction, hcaptured, hwire⟩ := Record.fault?_eq_none_iff.mp hfault
      have hseconds : recordNumber h 0 bytes < 256 ^ 4 := Bytes.value_field_lt _ (by omega)
      exact ⟨⟨hseconds, hfraction, hcaptured, hwire⟩, hbytes.symm⟩
  · rintro ⟨hr, rfl⟩
    have hlen : (r.encode h.encoding.order ++ rest).length = 16 + r.data.length + rest.length := by
      rw [List.length_append, length_encode]
    have hfault := Record.fault?_eq_none_iff.mpr ⟨hr.fraction_lt, hr.captured_le, hr.wire_le⟩
    rw [readRecord, recordAt_encode hh hr, announcedLength_encode hh hr, List.length_take, hfault,
      if_neg (by omega), if_neg (Nat.lt_irrefl _)]
    simp only [← length_encode h.encoding.order, List.drop_left]

/-! ### All records -/

theorem readRecords_nil (h : Header) : readRecords h [] = ([], none) := by
  rw [readRecords]
  rfl

theorem readRecords_of_ok (hread : readRecord h bytes = .ok (r, rest)) :
    readRecords h bytes = (r :: (readRecords h rest).1, (readRecords h rest).2) := by
  have hne : bytes ≠ [] := by
    rintro rfl
    simp [readRecord] at hread
  rw [readRecords, if_neg (by simpa using hne)]
  split
  · rename_i heq
    simp [heq] at hread
  · rename_i heq
    obtain ⟨rfl, rfl⟩ := Prod.mk.inj (Except.ok.inj (heq.symm.trans hread))
    rfl

theorem readRecords_of_error (hne : bytes ≠ []) {fault : Fault}
    (hread : readRecord h bytes = .error fault) : readRecords h bytes = ([], some fault) := by
  rw [readRecords, if_neg (by simpa using hne)]
  split
  · rename_i heq
    rw [Except.error.inj (heq.symm.trans hread)]
  · rename_i heq
    simp [heq] at hread

/-- **The reader goes through well-formed records** one by one, and then reads on after them. -/
theorem readRecords_append (hh : h.Fits) (hrecords : ∀ r ∈ records, r.WellFormed h)
    (rest : Bytes) :
    readRecords h (encodeRecords h.encoding.order records ++ rest) =
      (records ++ (readRecords h rest).1, (readRecords h rest).2) := by
  induction records with
  | nil => rfl
  | cons r records ih =>
    have hread : readRecord h (encodeRecords h.encoding.order (r :: records) ++ rest) =
        .ok (r, encodeRecords h.encoding.order records ++ rest) := by
      refine (readRecord_eq_ok_iff hh).mpr ⟨hrecords r List.mem_cons_self, ?_⟩
      rw [encodeRecords, List.flatMap_cons, List.append_assoc]
      rfl
    rw [readRecords_of_ok hread, ih fun r hr => hrecords r (List.mem_cons_of_mem _ hr)]
    rfl

/-- The records that were read are well formed. -/
theorem wellFormed_of_mem_readRecords (hh : h.Fits) (hr : r ∈ (readRecords h bytes).1) :
    r.WellFormed h := by
  induction hlen : bytes.length using Nat.strong_induction_on generalizing bytes with
  | _ n ih =>
    cases hread : readRecord h bytes with
    | error fault =>
      by_cases hne : bytes = []
      · simp [hne, readRecords_nil] at hr
      · simp [readRecords_of_error hne hread] at hr
    | ok read =>
      obtain ⟨first, rest⟩ := read
      rw [readRecords_of_ok hread] at hr
      rcases List.mem_cons.mp hr with rfl | hr
      · exact ((readRecord_eq_ok_iff hh).mp hread).1
      · exact ih _ (hlen ▸ length_lt_of_readRecord hread) hr rfl

/-- **What is left unread** after the records that were read. There is nothing left exactly if the
reader found no fault. -/
theorem exists_unread (hh : h.Fits) (bytes : Bytes) :
    ∃ rest, bytes = encodeRecords h.encoding.order (readRecords h bytes).1 ++ rest ∧
      ((readRecords h bytes).2 = none ↔ rest = []) := by
  -- On the number of bytes, some of which every record uses up.
  induction hlen : bytes.length using Nat.strong_induction_on generalizing bytes with
  | _ n ih =>
    cases hread : readRecord h bytes with
    | error fault =>
      refine ⟨bytes, ?_⟩
      by_cases hne : bytes = []
      · simp [hne, readRecords_nil, encodeRecords]
      · simp [readRecords_of_error hne hread, encodeRecords, hne]
    | ok read =>
      obtain ⟨first, rest⟩ := read
      obtain ⟨unread, hrest, hfault⟩ := ih _ (hlen ▸ length_lt_of_readRecord hread) rest rfl
      obtain ⟨-, rfl⟩ := (readRecord_eq_ok_iff hh).mp hread
      refine ⟨unread, ?_, ?_⟩
      · rw [readRecords_of_ok hread, encodeRecords, List.flatMap_cons, List.append_assoc]
        exact congrArg _ hrest
      · rw [readRecords_of_ok hread]
        exact hfault

/-! ### The head of a file -/

theorem length_magicBytes (e : Encoding) : e.magicBytes.length = 4 := Bytes.length_ofValue ..

theorem length_header (h : Header) (hfiller : filler.length = 12) :
    (h.encode filler).length = 24 := by
  simp [Header.encode, length_magicBytes, hfiller]

theorem ofMagic?_magicBytes (e : Encoding) : Encoding.ofMagic? e.magicBytes = some e := by
  obtain ⟨order, resolution⟩ := e
  cases order <;> cases resolution <;> decide

theorem ofMagic?_eq_some_iff {magic : Bytes} (hlen : magic.length = 4) {e : Encoding} :
    Encoding.ofMagic? magic = some e ↔ magic = e.magicBytes := by
  constructor
  · intro hmagic
    have hbig := Bytes.ofValue_value .big magic
    have hlittle := Bytes.ofValue_value .little magic
    simp only [hlen, Bytes.value] at hbig hlittle
    rw [Encoding.ofMagic?] at hmagic
    split_ifs at hmagic with hvalue hvalue hvalue hvalue <;> obtain rfl := Option.some.inj hmagic
    · rw [← hbig, hvalue, Encoding.magicBytes]
    · rw [← hbig, hvalue, Encoding.magicBytes]
    · rw [← hlittle, hvalue, Encoding.magicBytes]
    · rw [← hlittle, hvalue, Encoding.magicBytes]
  · rintro rfl
    exact ofMagic?_magicBytes e

/-- The fields of a head, one after the other. -/
theorem header_append (h : Header) (filler body : Bytes) :
    h.encode filler ++ body = h.encoding.magicBytes ++ (filler ++
      (.ofValue h.encoding.order 4 h.snapLength ++
        (.ofValue h.encoding.order 4 h.linkNumber ++ body))) := by
  simp only [Header.encode, List.append_assoc]

/-- What a head of twenty-four bytes says, if it starts with a known number. -/
theorem readHeader_of_magic {e : Encoding} (hlen : 24 ≤ file.length)
    (hmagic : file.take 4 = e.magicBytes) :
    readHeader file = .ok
      (⟨e, (file.field 16 4).value e.order, (file.field 20 4).value e.order⟩, file.drop 24) := by
  have hfield : ∀ offset, offset + 4 ≤ 24 →
      Bytes.field offset 4 (file.take 24) = file.field offset 4 := by
    intro offset hoffset
    rw [Bytes.field, Bytes.field, List.drop_take, List.take_take, Nat.min_eq_left (by omega)]
  simp only [readHeader, List.length_take, List.take_take, Nat.min_eq_left hlen, Nat.lt_irrefl,
    if_false, Nat.reduceLeDiff, Nat.min_eq_left, hmagic, ofMagic?_magicBytes, hfield, Nat.reduceAdd,
    Nat.le_refl]

/-- A head that is read has twenty-four bytes and starts with a known number. -/
theorem exists_magic_of_readHeader (hread : readHeader file = .ok (h, body)) :
    24 ≤ file.length ∧ ∃ e : Encoding, file.take 4 = e.magicBytes := by
  simp only [readHeader, List.length_take, List.take_take, Nat.reduceLeDiff,
    Nat.min_eq_left] at hread
  split_ifs at hread with hshort
  have hlen : 24 ≤ file.length := by omega
  split at hread
  · simp at hread
  · rename_i e hmagic
    exact ⟨hlen, e, (ofMagic?_eq_some_iff (List.length_take_of_le (by omega))).mp hmagic⟩

/-- **The head of a file is read** exactly where one is written, with any filler. -/
theorem readHeader_eq_ok_iff :
    readHeader file = .ok (h, body) ↔
      h.Fits ∧ ∃ filler : Bytes, filler.length = 12 ∧ file = h.encode filler ++ body := by
  constructor
  · intro hread
    obtain ⟨hlen, e, hmagic⟩ := exists_magic_of_readHeader hread
    rw [readHeader_of_magic hlen hmagic] at hread
    obtain ⟨rfl, rfl⟩ := Prod.mk.inj (Except.ok.inj hread)
    have hlen' : 16 + 4 ≤ file.length := by omega
    refine ⟨⟨Bytes.value_field_lt _ hlen', Bytes.value_field_lt _ hlen⟩, file.field 4 12,
      Bytes.length_field (by omega), ?_⟩
    rw [header_append, Bytes.ofValue_value_field _ hlen', Bytes.ofValue_value_field _ hlen,
      Bytes.field_append_drop 20 4, Bytes.field_append_drop 16 4, Bytes.field_append_drop 4 12,
      ← hmagic, List.take_append_drop]
  · rintro ⟨hh, filler, hfiller, rfl⟩
    have hmagic : (h.encode filler ++ body).take 4 = h.encoding.magicBytes := by
      rw [header_append, List.take_left' (length_magicBytes _)]
    have hlen : 24 ≤ (h.encode filler ++ body).length := by
      rw [List.length_append, length_header h hfiller]
      exact Nat.le_add_right ..
    rw [readHeader_of_magic hlen hmagic, header_append]
    simp only [Bytes.field_append_of_le, length_magicBytes, hfiller, Bytes.length_ofValue,
      Nat.reduceLeDiff, Nat.reduceSub, Bytes.field_zero_append,
      Bytes.value_ofValue _ hh.snapLength_lt, Bytes.value_ofValue _ hh.linkNumber_lt]
    rw [← header_append, ← length_header h hfiller, List.drop_left]

end TrafficSheet.Capture
