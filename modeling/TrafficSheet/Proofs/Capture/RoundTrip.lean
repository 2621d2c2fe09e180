import TrafficSheet.Proofs.Capture.Format

/-!
# Reading captures is the inverse of writing them

`Consists file h records` says that a file is a head and well-formed records, one after the
other, and nothing else. The reader finds no fault with exactly these files, and finds these
records in them (`consists_iff`). So what is written is visited record by record, in each of
the four encodings, and nothing but what is written is read to its end.
-/

namespace TrafficSheet.Capture

variable {h : Header} {r : Record} {records : List Record} {file : Bytes} {c : Capture}

/-- The file has the given head, and after it the given records, all of them well formed. -/
structure Consists (file : Bytes) (h : Header) (records : List Record) : Prop where
  /-- The head can be written. -/
  fits : h.Fits
  /-- The records can be written. -/
  wellFormed : ∀ r ∈ records, r.WellFormed h
  /-- They are what the file is made of. -/
  written : ∃ filler : Bytes, filler.length = 12 ∧
    file = h.encode filler ++ encodeRecords h.encoding.order records

theorem ofFile_eq_ok_iff :
    ofFile (.ok file) = .ok c ↔
      ∃ body, readHeader file = .ok (c.header, body) ∧
        readRecords c.header body = (c.records, c.fault?) := by
  rw [ofFile, read]
  cases hread : readHeader file with
  | error fault => simp [Except.mapError]
  | ok parts =>
    obtain ⟨h, body⟩ := parts
    obtain ⟨header, records, fault?⟩ := c
    simp only [Except.mapError, Except.ok.injEq, Capture.mk.injEq, Prod.mk.injEq]
    constructor
    · rintro ⟨rfl, rfl, rfl⟩
      exact ⟨body, ⟨rfl, rfl⟩, rfl⟩
    · rintro ⟨_, ⟨rfl, rfl⟩, hrecords⟩
      rw [hrecords]
      exact ⟨rfl, rfl, rfl⟩

/-- What an opened file is made of: its head, the records that were read, and what was left
unread, which is nothing exactly if there was no fault. -/
theorem exists_unread_of_ofFile (hopen : ofFile (.ok file) = .ok c) :
    c.header.Fits ∧ (∀ r ∈ c.records, r.WellFormed c.header) ∧
      ∃ filler rest : Bytes, filler.length = 12 ∧
        file = c.header.encode filler ++ (encodeRecords c.header.encoding.order c.records ++ rest) ∧
        (c.fault? = none ↔ rest = []) := by
  obtain ⟨body, hheader, hrecords⟩ := ofFile_eq_ok_iff.mp hopen
  obtain ⟨hh, filler, hfiller, rfl⟩ := readHeader_eq_ok_iff.mp hheader
  obtain ⟨rest, hbody, hfault⟩ := exists_unread hh body
  rw [hrecords] at hbody hfault
  have hwell : ∀ r ∈ c.records, r.WellFormed c.header := fun r hr =>
    have hmem : r ∈ (readRecords c.header body).1 := by rwa [hrecords]
    wellFormed_of_mem_readRecords hh hmem
  exact ⟨hh, hwell, filler, rest, hfiller, by rw [← hbody], hfault⟩

/-- **The files without a fault** are those that are made of a head and well-formed records. -/
theorem consists_iff : Consists file h records ↔ ofFile (.ok file) = .ok ⟨h, records, none⟩ := by
  constructor
  · rintro ⟨hh, hrecords, filler, hfiller, rfl⟩
    refine ofFile_eq_ok_iff.mpr ⟨_, readHeader_eq_ok_iff.mpr ⟨hh, filler, hfiller, rfl⟩, ?_⟩
    have hall := readRecords_append hh hrecords []
    rwa [readRecords_nil, List.append_nil, List.append_nil] at hall
  · intro hopen
    obtain ⟨hh, hrecords, filler, rest, hfiller, rfl, hfault⟩ := exists_unread_of_ofFile hopen
    obtain rfl := hfault.mp rfl
    exact ⟨hh, hrecords, filler, hfiller, by rw [List.append_nil]⟩

theorem packetCount_eq_ok_iff {n : Nat} :
    c.packetCount = .ok n ↔ c.fault? = none ∧ c.records.length = n := by
  rw [packetCount]
  cases c.fault? <;> simp

/-- A time of a word of seconds and less than a second is kept, but for what is below a
microsecond. -/
theorem ofElapsed_of_lt {seconds nanos : Nat} (hseconds : seconds < 256 ^ 4)
    (hnanos : nanos < 1000000000) :
    Timestamp.ofElapsed seconds nanos = ⟨seconds, (nanos / 1000 : Nat)⟩ := by
  have hword : Int.bmod (seconds : Int) 0x10000000000000000 = seconds :=
    Int.bmod_eq_of_le_mul_two (by omega) (by omega)
  have hsum : seconds + nanos / 1000000000 = seconds := by omega
  unfold Timestamp.ofElapsed
  rw [hsum, hword, Nat.mod_eq_of_lt hnanos]

theorem Record.nanos_div (resolution : Resolution) (r : Record) :
    r.nanos resolution / 1000 = resolution.toMicros r.fraction := by
  cases resolution <;> simp [Record.nanos, Resolution.toMicros]

/-- The packet of a well-formed record has its seconds, its fraction in microseconds, and its
length, which fits its word because the head's does. -/
theorem Record.WellFormed.packet_eq (hh : h.Fits) (hr : r.WellFormed h) :
    r.packet h =
      { time := ⟨r.seconds, h.encoding.resolution.toMicros r.fraction⟩
        capturedLength := r.data.length
        link := .ofNumber h.linkNumber
        frame := r.data } := by
  have hnanos := (Record.nanos_lt_iff h.encoding.resolution r).mpr hr.fraction_lt
  have hlength : r.data.length < 0x100000000 :=
    (hr.captured_le.trans hr.wire_le).trans_lt hh.snapLength_lt
  rw [Record.packet, Packet.ofFrame, ofElapsed_of_lt hr.seconds_lt hnanos, Record.nanos_div,
    Nat.mod_eq_of_lt hlength]

/-- **The reader accepts exactly its format**, and undoes the writer on it. What is written of
records is opened, and visited record by record; and an opened file is read to its end only if
what follows its head is what is written of the records that were visited. -/
theorem reads_exactly_what_is_written :
    (∀ (h : Header) (filler : Bytes) (records : List Record), h.Fits → filler.length = 12 →
      (∀ r ∈ records, r.WellFormed h) →
      ∃ c, ofFile (.ok (h.encode filler ++ encodeRecords h.encoding.order records)) = .ok c ∧
        c.packets = records.map (fun r =>
          { time := ⟨r.seconds, h.encoding.resolution.toMicros r.fraction⟩
            capturedLength := r.data.length
            link := .ofNumber h.linkNumber
            frame := r.data }) ∧
        c.packets.map (·.capturedLength) = records.map (·.data.length) ∧
        c.packetCount = .ok records.length) ∧
    ∀ (file : Bytes) (c : Capture) (n : Nat), ofFile (.ok file) = .ok c → c.packetCount = .ok n →
      c.records.length = n ∧ (∀ r ∈ c.records, r.WellFormed c.header) ∧
        file.drop 24 = encodeRecords c.header.encoding.order c.records := by
  constructor
  · intro h filler records hh hfiller hrecords
    have hopen := consists_iff.mp ⟨hh, hrecords, filler, hfiller, rfl⟩
    have hpackets := List.map_congr_left fun r hr => (hrecords r hr).packet_eq hh
    refine ⟨_, hopen, hpackets, ?_, rfl⟩
    rw [packets, hpackets, List.map_map]
    rfl
  · intro file c n hopen hcount
    obtain ⟨hnone, hlength⟩ := packetCount_eq_ok_iff.mp hcount
    obtain ⟨-, hrecords, filler, rest, hfiller, rfl, hfault⟩ := exists_unread_of_ofFile hopen
    refine ⟨hlength, hrecords, ?_⟩
    rw [hfault.mp hnone, List.append_nil, ← length_header c.header hfiller, List.drop_left]

/-- A file of raw datagrams in nanoseconds, most significant byte first, with one record cut to
two of its nine bytes. -/
theorem reads_exactly_what_is_written_nanos :
    let h : Header := ⟨⟨.big, .nano⟩, 16, 101⟩
    let r : Record := ⟨7, 999999999, 9, [0x45, 0x00]⟩
    let file : Bytes :=
      [0xa1, 0xb2, 0x3c, 0x4d, 0, 2, 0, 4, 0, 0, 0, 0, 0, 0, 0, 0, 0, 0, 0, 16, 0, 0, 0, 101,
       0, 0, 0, 7, 0x3b, 0x9a, 0xc9, 0xff, 0, 0, 0, 2, 0, 0, 0, 9, 0x45, 0x00]
    h.Fits ∧ r.WellFormed h ∧
      ∃ c, ofFile (.ok file) = .ok c ∧ c.packets = [⟨⟨7, 999999⟩, 2, .raw, [0x45, 0x00]⟩] ∧
        c.packetCount = .ok 1 ∧ file.drop 24 = encodeRecords c.header.encoding.order c.records := by
  intro h r file
  have hh : h.Fits := ⟨by decide, by decide⟩
  have hr : r.WellFormed h := ⟨by decide, by decide, by decide, by decide⟩
  have hfile : h.encode [0, 2, 0, 4, 0, 0, 0, 0, 0, 0, 0, 0] ++
      encodeRecords h.encoding.order [r] = file := by decide
  obtain ⟨c, hopen, hpackets, -, hcount⟩ := reads_exactly_what_is_written.1 h
    [0, 2, 0, 4, 0, 0, 0, 0, 0, 0, 0, 0] [r] hh rfl (by simpa using hr)
  rw [hfile] at hopen
  obtain ⟨-, -, hdrop⟩ := reads_exactly_what_is_written.2 file c 1 hopen hcount
  exact ⟨hh, hr, c, hopen, hpackets.trans (by decide), hcount, hdrop⟩

end TrafficSheet.Capture
