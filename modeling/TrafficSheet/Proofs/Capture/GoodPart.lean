import TrafficSheet.Proofs.Capture.RoundTrip
import TrafficSheet.Proofs.Report.Components

/-!
# The good part of a capture

A file that opens but is at fault further on starts with a good one: the longest of its starts
that is a head and well-formed records, its good part. What is visited of the file is what is
visited of that part, so a report on either is the same. Bytes that are appended to a file
leave what was visited before in place.
-/

namespace TrafficSheet.Capture

variable {h : Header} {records : List Record} {file part other : Bytes} {c : Capture}

/-- The file is a head and well-formed records, and nothing else. -/
def IsGood (file : Bytes) : Prop := ∃ h records, Consists file h records

/-- The part is the longest start of the file that is good. -/
structure IsGoodPart (part file : Bytes) : Prop where
  /-- The file starts with it. -/
  starts : part <+: file
  /-- It is good. -/
  good : IsGood part
  /-- Every other good start of the file is one of the part. -/
  longest : ∀ other, other <+: file → IsGood other → other <+: part

/-- **More bytes after a good file** leave its records in place. -/
theorem Consists.ofFile_append (hpart : Consists part h records) (more : Bytes) :
    ofFile (.ok (part ++ more)) =
      .ok ⟨h, records ++ (readRecords h more).1, (readRecords h more).2⟩ := by
  obtain ⟨hh, hrecords, filler, hfiller, rfl⟩ := hpart
  refine ofFile_eq_ok_iff.mpr ⟨_, readHeader_eq_ok_iff.mpr ⟨hh, filler, hfiller, ?_⟩,
    readRecords_append hh hrecords more⟩
  rw [List.append_assoc]

theorem Consists.length_eq (hpart : Consists part h records) :
    part.length = 24 + (encodeRecords h.encoding.order records).length := by
  obtain ⟨-, -, filler, hfiller, rfl⟩ := hpart
  rw [List.length_append, length_header h hfiller]

/-- A file that opens has a start made of the records that were read of it. That is all of it
exactly if there was no fault. -/
theorem exists_consists_of_ofFile (hopen : ofFile (.ok file) = .ok c) :
    ∃ part, part <+: file ∧ Consists part c.header c.records ∧ (c.fault? = none ↔ file = part) := by
  obtain ⟨hh, hrecords, filler, rest, hfiller, rfl, hfault⟩ := exists_unread_of_ofFile hopen
  refine ⟨_, ⟨rest, List.append_assoc ..⟩, ⟨hh, hrecords, filler, hfiller, rfl⟩, ?_⟩
  rw [hfault, ← List.append_assoc, List.append_right_eq_self]

/-- The records of a good start of the file were all read. -/
theorem Consists.prefix_records (hother : Consists other h records) (hstarts : other <+: file)
    (hopen : ofFile (.ok file) = .ok c) : c.header = h ∧ records <+: c.records := by
  obtain ⟨more, rfl⟩ := hstarts
  obtain rfl := Except.ok.inj ((hother.ofFile_append more).symm.trans hopen)
  exact ⟨rfl, List.prefix_append ..⟩

/-- **The good part** of a file is made of the records that were read of it. -/
theorem Consists.isGoodPart (hpart : Consists part c.header c.records) (hstarts : part <+: file)
    (hopen : ofFile (.ok file) = .ok c) : IsGoodPart part file := by
  refine ⟨hstarts, ⟨_, _, hpart⟩, fun other hother hgood => ?_⟩
  obtain ⟨h, records, hconsists⟩ := hgood
  obtain ⟨rfl, more, hrecords⟩ := hconsists.prefix_records hother hopen
  refine List.prefix_of_prefix_length_le hother hstarts ?_
  rw [hconsists.length_eq, hpart.length_eq, ← hrecords, encodeRecords, encodeRecords,
    List.flatMap_append, List.length_append]
  omega

/-- A good file is its own good part, and its records are those of the part. -/
theorem IsGoodPart.eq_of_consists (hpart : IsGoodPart part file) (hfile : Consists file h records)
    {header : Header} {others : List Record} (hothers : Consists part header others) :
    header = h ∧ others = records := by
  obtain rfl : file = part :=
    (hpart.longest file List.prefix_rfl ⟨h, records, hfile⟩).eq_of_length_le hpart.starts.length_le
  simpa using (consists_iff.mp hothers).symm.trans (consists_iff.mp hfile)

theorem packetCount_eq_error_iff :
    (∃ e, c.packetCount = .error e) ↔ c.fault? ≠ none := by
  rw [packetCount]
  cases c.fault? <;> simp

/-- **A broken capture gives the report of its good part.** Of a file that opens, what is visited
leaves any report as its good part does, which is read to its end; the file itself is not exactly
if there is more to it. And more bytes after a file only add to what is visited. -/
theorem report_of_good_part :
    (∀ (file : Bytes) (c : Capture), ofFile (.ok file) = .ok c →
      ∃ part whole k, IsGoodPart part file ∧ ofFile (.ok part) = .ok whole ∧
        whole.packetCount = .ok k ∧
        (∀ r : Report, r.countAll c.packets = r.countAll whole.packets ∧
          (r.countAll c.packets).packetCount = r.packetCount + k) ∧
        ((∃ e, c.packetCount = .error e) ↔ file ≠ part)) ∧
    ∀ (shorter longer : Bytes) (c c' : Capture), shorter <+: longer →
      ofFile (.ok shorter) = .ok c → ofFile (.ok longer) = .ok c' → c.packets <+: c'.packets := by
  constructor
  · intro file c hopen
    obtain ⟨part, hstarts, hpart, hfault⟩ := exists_consists_of_ofFile hopen
    refine ⟨part, ⟨c.header, c.records, none⟩, c.records.length, hpart.isGoodPart hstarts hopen,
      consists_iff.mp hpart, rfl, fun r => ⟨rfl, ?_⟩, packetCount_eq_error_iff.trans hfault.not⟩
    rw [r.packetCount_countAll, packets, List.length_map]
  · intro shorter longer c c' hprefix hopen hopen'
    obtain ⟨part, hstarts, hpart, -⟩ := exists_consists_of_ofFile hopen
    obtain ⟨hheader, hrecords⟩ := hpart.prefix_records (hstarts.trans hprefix) hopen'
    rw [packets, packets, hheader]
    exact hrecords.map _

/-- A file of two records, and the same file cut three bytes into the second one. -/
theorem report_of_good_part_cut :
    let h : Header := ⟨⟨.little, .micro⟩, 65535, 1⟩
    let first : Record := ⟨5, 10, 2, [1, 2]⟩
    let second : Record := ⟨6, 20, 3, [3]⟩
    let filler : Bytes := [2, 0, 4, 0, 0, 0, 0, 0, 0, 0, 0, 0]
    let file : Bytes := h.encode filler ++ encodeRecords .little [first, second]
    let cut : Bytes := file.take 45
    let c : Capture := ⟨h, [first], some .incomplete⟩
    ofFile (.ok cut) = .ok c ∧
      (∃ part whole k, IsGoodPart part cut ∧ ofFile (.ok part) = .ok whole ∧
        whole.packetCount = .ok k ∧ cut ≠ part ∧
        (Report.empty "" 1).countAll c.packets = (Report.empty "" 1).countAll whole.packets ∧
        ((Report.empty "" 1).countAll c.packets).packetCount = 0 + k) ∧
      c.packets <+: (Capture.mk h [first, second] none).packets := by
  intro h first second filler file cut c
  have hh : h.Fits := ⟨by decide, by decide⟩
  have hfirst : first.WellFormed h := ⟨by decide, by decide, by decide, by decide⟩
  have hsecond : second.WellFormed h := ⟨by decide, by decide, by decide, by decide⟩
  have hfile : ofFile (.ok file) = .ok ⟨h, [first, second], none⟩ :=
    consists_iff.mp ⟨hh, by simp [hfirst, hsecond], filler, rfl, rfl⟩
  have hpart : Consists (file.take 42) h [first] :=
    ⟨hh, by simp [hfirst], filler, rfl, by decide⟩
  have hread : readRecord h [6, 0, 0] = .error .incomplete := by decide
  have hcut : ofFile (.ok cut) = .ok c := by
    have happend : cut = file.take 42 ++ [6, 0, 0] := by decide
    rw [happend, hpart.ofFile_append, readRecords_of_error (by simp) hread]
    rfl
  obtain ⟨part, whole, k, hgood, hwhole, hcount, hreport, herror⟩ :=
    report_of_good_part.1 cut c hcut
  obtain ⟨hsame, hpackets⟩ := hreport (Report.empty "" 1)
  exact ⟨hcut, ⟨part, whole, k, hgood, hwhole, hcount, herror.mp ⟨_, rfl⟩, hsame, hpackets⟩,
    report_of_good_part.2 cut file c _ (List.take_prefix ..) hcut hfile⟩

end TrafficSheet.Capture
