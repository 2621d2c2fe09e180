import TrafficSheet.CommandLine.Run
import TrafficSheet.Proofs.Capture.GoodPart
import TrafficSheet.Proofs.Files.Contents
import TrafficSheet.Proofs.Page.Lines
import TrafficSheet.Proofs.Pdf.Transcript
import TrafficSheet.Proofs.Report.Printed

/-!
# How a run ends

A run ends in one of five ways (`Options.Ends`): the page is refused, the capture cannot be opened,
there is no such page, the file cannot be written, or all is done. Only the last one is a success.
Not-a-number passes the first check of the page and fails the second one, so both together ask for
a size above zero (`Options.not_refusesPage`). No run stops in the middle of its work: the times of a
capture are few enough seconds apart for its chart (`Capture.fits_report`), and all lines of a page
have a width that can be written (`Page.file_of_fits`).

All this is proved of any files with states of which reading changes nothing (`LawfulFiles`); a tree
of files is one case.

## Not proved

Whether a file can be written is up to the files. What is left at its place by a run that fails to
write it, is not said; nor is what is written in the log.
-/

namespace TrafficSheet

/-! ### Opening a capture -/

namespace Capture

variable {read : Except FileError Bytes} {file file' : Bytes} {c : Capture}

/-- A file opens if it has a whole head that names an encoding. -/
theorem opens_iff :
    (∃ c, ofFile (.ok file) = .ok c) ↔
      (file.take 24).length = 24 ∧ (Encoding.ofMagic? ((file.take 24).take 4)).isSome := by
  unfold ofFile Capture.read readHeader
  have hle : (file.take 24).length ≤ 24 := List.length_take_le ..
  dsimp only
  by_cases hshort : (file.take 24).length < 24
  · rw [if_pos hshort]
    refine iff_of_false ?_ fun hwhole => hshort.ne hwhole.1
    simp [Except.mapError]
  · rw [if_neg hshort]
    cases Encoding.ofMagic? ((file.take 24).take 4) with
    | none => simp [Except.mapError]
    | some encoding =>
      have hlength : (file.take 24).length = 24 := by omega
      simp [Except.mapError, hlength]

/-- **What comes after the head** does not keep a file from opening. -/
theorem opens_iff_of_take_eq (h : file'.take 24 = file.take 24) :
    (∃ c, ofFile (.ok file') = .ok c) ↔ ∃ c, ofFile (.ok file) = .ok c := by
  rw [opens_iff, opens_iff, h]

theorem exists_file_of_ofFile (hopen : ofFile read = .ok c) : ∃ file, read = .ok file := by
  cases read with
  | error e => cases hopen
  | ok file => exact ⟨file, rfl⟩

/-- The times of a capture are words of 32 bits, and so they are few enough seconds apart. -/
theorem fits_report (hopen : ofFile read = .ok c) (o : Overflow) (source : String)
    (addressLimit : Nat) :
    ((Report.empty source addressLimit).countAll c.packets).bandwidth.Fits o := by
  obtain ⟨file, rfl⟩ := exists_file_of_ofFile hopen
  obtain ⟨part, -, hpart, -⟩ := exists_consists_of_ofFile hopen
  refine Report.fits_countAll source addressLimit 0 fun p hp => ?_
  obtain ⟨r, hr, rfl⟩ := List.mem_map.mp hp
  have hwell := hpart.wellFormed r hr
  have hnanos := (Record.nanos_lt_iff c.header.encoding.resolution r).mpr hwell.fraction_lt
  have htime : (r.packet c.header).time.seconds = r.seconds := by
    rw [Record.packet, Packet.ofFrame, ofElapsed_of_lt hwell.seconds_lt hnanos]
  have hseconds := hwell.seconds_lt
  rw [htime]
  omega

end Capture

/-! ### Drawing a page -/

/-- A page description can hold the axes of a chart. -/
theorem Call.Thin.holds {call : Call Float} (h : call.Thin) : Pdf.holds call = true := by
  cases call with
  | line start stop width =>
    obtain rfl : width = Plot.axisWidth := h
    exact Pdf.holds_of_pos fun w hw => by
      cases hw
      decide
  | stroke => exact h.elim
  | font | color | measure | text | fill | shift => rfl

/-- **A page that fits** has a file. -/
theorem Page.file_of_fits {p : Page Float} (h : p.Fits) (sheet : Pdf.Sheet) :
    p.file sheet = .ok (Surface.drawAll sheet p.placedCalls).file := by
  have hholds : ∀ call ∈ p.placedCalls, Pdf.holds call = true := by
    rw [placedCalls, p.run_of_fits h]
    exact List.forall_mem_cons.mpr ⟨rfl, fun call hcall => (p.thin_calls call hcall).holds⟩
  rw [file, Pdf.Sheet.takeAll_of_holds hholds, p.run_of_fits h]
  rfl

namespace CommandLine.Options

variable {σ : Type} [Files (StateM σ)]
variable {o : Options} {platform : Platform} {now : Timestamp} {s t : σ} {c : Capture}

/-- The page has a size above zero. -/
def HasPage (o : Options) : Prop := 0.0 < o.settings.page.width ∧ 0.0 < o.settings.page.height

instance (o : Options) : Decidable o.HasPage :=
  inferInstanceAs (Decidable (0.0 < o.settings.page.width ∧ 0.0 < o.settings.page.height))

/-- The path of the report. -/
def path (o : Options) : String := joinPath o.outputDirectory o.settings.filename

/-- The report on records of a capture. -/
def reportOn (o : Options) (header : Capture.Header) (records : List Capture.Record) : Report :=
  (Report.empty o.input o.settings.addressLimit).countAll (records.map (·.packet header))

theorem not_refusesPage (h : o.HasPage) : o.refusesPage = false := by
  simp [refusesPage, not_le_zero_of_zero_lt h.1, not_le_zero_of_zero_lt h.2]

theorem file_of_hasPage (h : o.HasPage) {read : Except FileError Bytes}
    (hopen : Capture.ofFile read = .ok c) (platform : Platform) (now : Timestamp) :
    ∃ bytes, (o.report c).file .pdf platform o.settings now = .ok (.ok bytes) := by
  have hfits : ((o.report c).page platform o.settings now).Fits :=
    Capture.fits_report hopen platform.overflow o.input o.settings.addressLimit
  have hcreate : Backend.pdf.create o.settings.page.width o.settings.page.height =
      .ok (.empty o.settings.page.width o.settings.page.height) := by
    simp [Backend.create, h.1, h.2]
  let sheet : Pdf.Sheet := .empty o.settings.page.width o.settings.page.height
  refine ⟨(Surface.drawAll sheet
    ((o.report c).page platform o.settings now).placedCalls).file, ?_⟩
  rw [Report.file, hcreate]
  dsimp only
  rw [Page.file_of_fits hfits]
  rfl

theorem file_of_not_hasPage (h : ¬o.HasPage) (r : Report) :
    r.file .pdf platform o.settings now =
      .ok (.error (.invalidPageSize o.settings.page.width o.settings.page.height)) := by
  have hsize : ¬(0.0 < o.settings.page.width && 0.0 < o.settings.page.height) = true := by
    simpa [HasPage] using h
  rw [Report.file, Backend.create, if_neg hsize]

/-- The ways in which a run may end, with the files that it leaves behind. -/
inductive Ends (o : Options) (platform : Platform) (now : Timestamp) (s : σ) : Outcome × σ → Prop
    where
  /-- The size of the page is refused. -/
  | refused : o.refusesPage = true → Ends o platform now s (.failing .pageSize [], s)
  /-- The capture cannot be opened. -/
  | unopened {e : CaptureError} :
      o.refusesPage = false → Capture.ofFile (Files.readIn s o.input) = .error e →
      Ends o platform now s (.failing (.opening o.input e) [], s)
  /-- There is no page of this size. -/
  | pageless {c : Capture} :
      Capture.ofFile (Files.readIn s o.input) = .ok c → ¬o.HasPage →
      Ends o platform now s
        (.failing (.rendering (.invalidPageSize o.settings.page.width o.settings.page.height))
          (o.warnings c), s)
  /-- The page cannot be written. -/
  | unwritten {c : Capture} {page : Bytes} {e : FileError} {s' : σ} :
      Capture.ofFile (Files.readIn s o.input) = .ok c → o.HasPage →
      (o.report c).file .pdf platform o.settings now = .ok (.ok page) →
      Files.writeIn s o.path page = (.error e, s') →
      Ends o platform now s (.failing (.rendering (.file e)) (o.warnings c), s')
  /-- The page is written. -/
  | written {c : Capture} {page : Bytes} {s' : σ} :
      Capture.ofFile (Files.readIn s o.input) = .ok c → o.HasPage →
      (o.report c).file .pdf platform o.settings now = .ok (.ok page) →
      Files.writeIn s o.path page = (.ok (), s') →
      Ends o platform now s
        (⟨0, o.printed platform.zone (o.report c), [], o.warnings c⟩, s')

/-- After the capture was opened, a run writes the page or fails to. -/
theorem finish_ends (hopen : Capture.ofFile (Files.readIn s o.input) = .ok c) :
    ∃ ended, (o.finish platform now c : StateM σ (Except Abort Outcome)).run s =
      (.ok ended.1, ended.2) ∧ o.Ends platform now s ended := by
  unfold finish Report.render
  simp only [Backend.isAvailable, if_true]
  by_cases hpage : o.HasPage
  · obtain ⟨page, hfile⟩ := file_of_hasPage hpage hopen platform now
    rw [hfile]
    dsimp only
    rw [StateT.run_bind, StateT.run_bind]
    rcases hwrite : Files.writeIn s o.path page with ⟨written, s'⟩
    have hrun : (Files.write (joinPath o.outputDirectory o.settings.filename) page :
        StateM σ _).run s = (written, s') := hwrite
    rw [hrun]
    cases written with
    | ok => exact ⟨_, rfl, .written hopen hpage hfile hwrite⟩
    | error e => exact ⟨_, rfl, .unwritten hopen hpage hfile hwrite⟩
  · rw [file_of_not_hasPage hpage]
    exact ⟨_, rfl, .pageless hopen hpage⟩

/-! ### What is left behind -/

/-- All that a success takes: a page, a capture that opens, and room for the page that is drawn. -/
def CanSucceed (o : Options) (platform : Platform) (now : Timestamp) (s : σ) : Prop :=
  o.HasPage ∧ ∃ c page, Capture.ofFile (Files.readIn s o.input) = .ok c ∧
    (o.report c).file .pdf platform o.settings now = .ok (.ok page) ∧
    (Files.writeIn s o.path page).1 = .ok ()

/-- What a success leaves behind: the page of the report on the records in the good part of the
capture, and the summary of this report if it was asked for. -/
def TellsOfGoodPart (o : Options) (platform : Platform) (now : Timestamp) (s : σ)
    (stdout : String) (s' : σ) : Prop :=
  ∃ file part header records page,
    Files.readIn s o.input = .ok file ∧
    Capture.IsGoodPart part file ∧ Capture.Consists part header records ∧
    (if o.json then
      ((o.reportOn header records).summary platform.zone o.settings.listed).IsPrintedAs stdout
    else stdout = "") ∧
    (o.reportOn header records).file .pdf platform o.settings now = .ok (.ok page) ∧
    Files.writeIn s o.path page = (.ok (), s')

namespace Ends

variable {ended : Outcome × σ}

theorem exitCode_cases (h : o.Ends platform now s ended) :
    ended.1.exitCode = 0 ∨ ended.1.exitCode = 1 := by
  cases h with
  | written => exact Or.inl rfl
  | refused | unopened | pageless | unwritten => exact Or.inr rfl

theorem exitCode_eq_zero_iff (h : o.Ends platform now s ended) :
    ended.1.exitCode = 0 ↔ o.CanSucceed platform now s := by
  cases h with
  | refused hrefuses =>
    refine iff_of_false one_ne_zero fun ⟨hpage, _⟩ => ?_
    rw [not_refusesPage hpage] at hrefuses
    exact Bool.false_ne_true hrefuses
  | unopened _ hopen =>
    refine iff_of_false one_ne_zero fun ⟨_, c, _, hc, _⟩ => ?_
    rw [hopen] at hc
    cases hc
  | pageless _ hpage => exact iff_of_false one_ne_zero fun h => hpage h.1
  | unwritten hopen _ hfile hwrite =>
    refine iff_of_false one_ne_zero fun ⟨_, c, page, hc, hpage, hwritten⟩ => ?_
    obtain rfl := Except.ok.inj (hopen.symm.trans hc)
    obtain rfl := Except.ok.inj (Except.ok.inj (hfile.symm.trans hpage))
    rw [hwrite] at hwritten
    cases hwritten
  | written hopen hpage hfile hwrite =>
    exact iff_of_true rfl ⟨hpage, _, _, hopen, hfile, congrArg Prod.fst hwrite⟩

theorem stdout_eq_empty (h : o.Ends platform now s ended) (hfail : ended.1.exitCode = 1) :
    ended.1.stdout = "" := by
  cases h with
  | written => exact absurd hfail zero_ne_one
  | refused | unopened | pageless | unwritten => rfl

/-- Without a page or a capture nothing is written. -/
theorem state_eq (h : o.Ends platform now s ended)
    (hnot : ¬o.HasPage ∨ ¬∃ c, Capture.ofFile (Files.readIn s o.input) = .ok c) :
    ended.2 = s := by
  cases h with
  | unwritten hopen hpage | written hopen hpage => exact (hnot.elim (· hpage) (· ⟨_, hopen⟩)).elim
  | refused | unopened | pageless => rfl

theorem tellsOfGoodPart (h : o.Ends platform now s ended) (hzero : ended.1.exitCode = 0) :
    o.TellsOfGoodPart platform now s ended.1.stdout ended.2 := by
  cases h with
  | refused | unopened | pageless | unwritten => exact absurd hzero one_ne_zero
  | @written c page s' hopen _ hfile hwrite =>
    obtain ⟨file, hread⟩ := Capture.exists_file_of_ofFile hopen
    rw [hread] at hopen
    obtain ⟨part, hstarts, hpart, -⟩ := Capture.exists_consists_of_ofFile hopen
    refine ⟨file, part, c.header, c.records, page, hread, hpart.isGoodPart hstarts hopen, hpart,
      ?_, hfile, hwrite⟩
    dsimp only [printed]
    split_ifs
    · exact Summary.isPrintedAs_indented _
    · rfl

end Ends

/-! ### Captures that start alike -/

/-- In both states the capture has the same head, or cannot be read; and pages can be written in
both or in neither. -/
structure AlikeAtStart (o : Options) (s t : σ) : Prop where
  /-- What follows the head may be anything. -/
  input :
    (∃ file file', Files.readIn s o.input = .ok file ∧ Files.readIn t o.input = .ok file' ∧
      file'.take 24 = file.take 24) ∨
    ∃ e e', Files.readIn s o.input = .error e ∧ Files.readIn t o.input = .error e'
  /-- The pages may be any. -/
  output : ∀ page page',
    (Files.writeIn s o.path page).1 = .ok () ↔ (Files.writeIn t o.path page').1 = .ok ()

namespace AlikeAtStart

theorem opens_iff (h : o.AlikeAtStart s t) :
    (∃ c, Capture.ofFile (Files.readIn t o.input) = .ok c) ↔
      ∃ c, Capture.ofFile (Files.readIn s o.input) = .ok c := by
  rcases h.input with ⟨file, file', hs, ht, hhead⟩ | ⟨e, e', hs, ht⟩
  · rw [hs, ht, Capture.opens_iff_of_take_eq hhead]
  · rw [hs, ht]
    refine iff_of_false ?_ ?_ <;> exact fun ⟨c, hopen⟩ => nomatch hopen

theorem canSucceed_iff (h : o.AlikeAtStart s t) :
    o.CanSucceed platform now t ↔ o.CanSucceed platform now s := by
  constructor
  · rintro ⟨hpage, c, page, hopen, -, hwrite⟩
    obtain ⟨c', hopen'⟩ := h.opens_iff.mp ⟨c, hopen⟩
    obtain ⟨page', hfile'⟩ := file_of_hasPage hpage hopen' platform now
    exact ⟨hpage, c', page', hopen', hfile', (h.output page' page).mpr hwrite⟩
  · rintro ⟨hpage, c, page, hopen, -, hwrite⟩
    obtain ⟨c', hopen'⟩ := h.opens_iff.mpr ⟨c, hopen⟩
    obtain ⟨page', hfile'⟩ := file_of_hasPage hpage hopen' platform now
    exact ⟨hpage, c', page', hopen', hfile', (h.output page page').mp hwrite⟩

/-- Exit codes are equal if both are zero or neither is. -/
theorem exitCode_eq {ended other : Outcome × σ} (h : o.AlikeAtStart s t)
    (hs : o.Ends platform now s ended) (ht : o.Ends platform now t other) :
    other.1.exitCode = ended.1.exitCode := by
  have hzero : other.1.exitCode = 0 ↔ ended.1.exitCode = 0 := by
    rw [hs.exitCode_eq_zero_iff, ht.exitCode_eq_zero_iff, h.canSucceed_iff]
  have hcodes := hs.exitCode_cases
  have hcodes' := ht.exitCode_cases
  omega

end AlikeAtStart

/-! ### Trees of files -/

/-- In a tree of files, a page is written wherever its path leads. -/
theorem canSucceed_tree_iff {tree : FileTree} :
    o.CanSucceed platform now tree ↔
      o.HasPage ∧ (∃ c, Capture.ofFile (tree.read o.input) = .ok c) ∧
        ∃ l, tree.target o.path = .ok l := by
  constructor
  · rintro ⟨hpage, c, page, hopen, -, hwrite⟩
    exact ⟨hpage, ⟨c, hopen⟩, (FileTree.writeIn_eq_ok_iff o.path page).mp hwrite⟩
  · rintro ⟨hpage, ⟨c, hopen⟩, hplace⟩
    obtain ⟨page, hfile⟩ := file_of_hasPage hpage hopen platform now
    exact ⟨hpage, c, page, hopen, hfile, (FileTree.writeIn_eq_ok_iff o.path page).mpr hplace⟩

/-- The bytes of any file can be replaced by others that start alike. -/
theorem alikeAtStart_put {tree : FileTree} {l : Location} {bytes other : Bytes}
    (hfile : tree.node? l = some (.file bytes)) (hhead : other.take 24 = bytes.take 24) :
    o.AlikeAtStart tree (tree.put l (.file other)) where
  input := by
    have hread (t : FileTree) : Files.readIn t o.input = t.read o.input := rfl
    rw [hread, hread]
    rcases FileTree.read_put_cases hfile other o.input with hsame | ⟨hbefore, hafter⟩
    · rw [hsame]
      cases tree.read o.input with
      | ok file => exact Or.inl ⟨file, file, rfl, rfl, rfl⟩
      | error e => exact Or.inr ⟨e, e, rfl, rfl⟩
    · exact Or.inl ⟨bytes, other, hbefore, hafter, hhead⟩
  output page page' := by
    rw [FileTree.writeIn_eq_ok_iff, FileTree.writeIn_eq_ok_iff, FileTree.target_put hfile]

/-! ### Every run -/

variable [LawfulFiles σ]

theorem run_openAt (path : String) (s : σ) :
    (Capture.openAt path : StateM σ _).run s = (Capture.ofFile (Files.readIn s path), s) := by
  have hkeeps := LawfulFiles.read_keeps path s
  exact Prod.ext rfl hkeeps

/-- **Every run** ends in one of these ways. -/
theorem run_ends (o : Options) (platform : Platform) (now : Timestamp) (s : σ) :
    ∃ ended, (o.run platform now : StateM σ (Except Abort Outcome)).run s =
      (.ok ended.1, ended.2) ∧ o.Ends platform now s ended := by
  unfold run
  cases hrefuses : o.refusesPage with
  | true => exact ⟨_, rfl, .refused hrefuses⟩
  | false =>
    rw [if_neg Bool.false_ne_true, StateT.run_bind, run_openAt]
    cases hopen : Capture.ofFile (Files.readIn s o.input) with
    | error e => exact ⟨_, rfl, .unopened hrefuses hopen⟩
    | ok c => exact finish_ends hopen

/-- What is seen of a run from outside: its outcome, and the files before and after it. -/
structure EndsAs (o : Options) (platform : Platform) (now : Timestamp) (s : σ) (outcome : Outcome)
    (s' : σ) : Prop where
  /-- The exit code is zero or one. -/
  codes : outcome.exitCode = 0 ∨ outcome.exitCode = 1
  /-- It is zero exactly if the page has a size above zero, the capture opens and the page can be
  written. -/
  zero_iff : outcome.exitCode = 0 ↔ o.CanSucceed platform now s
  /-- Nothing that follows the head of the capture changes it. -/
  headOnly : ∀ t other t', o.AlikeAtStart s t →
    (o.run platform now : StateM σ (Except Abort Outcome)).run t = (.ok other, t') →
    other.exitCode = outcome.exitCode
  /-- A failure prints nothing. -/
  silent : outcome.exitCode = 1 → outcome.stdout = ""
  /-- Without a page or a capture nothing is written. -/
  unwritten : ¬o.HasPage ∨ (¬∃ c, Capture.ofFile (Files.readIn s o.input) = .ok c) → s' = s
  /-- A success tells of the good part of the capture. -/
  success : outcome.exitCode = 0 → o.TellsOfGoodPart platform now s outcome.stdout s'

/-- **How a run ends.** No run stops in the middle. Its exit code is zero exactly if the page has a
size above zero, the capture opens and the page can be written, and one otherwise; nothing that
follows the head of the capture changes it. A failure prints nothing, and writes nothing if it is
for the page's size or the capture. A success writes the page of the report on the records in the
good part of the capture, and prints the summary of this report if that is asked for. -/
theorem run_outcome (o : Options) (platform : Platform) (now : Timestamp) (s : σ) :
    ∃ outcome s', (o.run platform now : StateM σ (Except Abort Outcome)).run s =
      (.ok outcome, s') ∧ o.EndsAs platform now s outcome s' := by
  obtain ⟨ended, hrun, hends⟩ := run_ends o platform now s
  refine ⟨ended.1, ended.2, hrun, hends.exitCode_cases, hends.exitCode_eq_zero_iff, ?_,
    hends.stdout_eq_empty, hends.state_eq, hends.tellsOfGoodPart⟩
  intro t other t' halike hrun'
  obtain ⟨ended', hsame, hends'⟩ := run_ends o platform now t
  obtain ⟨hother, rfl⟩ := Prod.mk.inj (hrun'.symm.trans hsame)
  obtain rfl := Except.ok.inj hother
  exact halike.exitCode_eq hends hends'

/-- The capture of one record gets its page, and the summary that is printed tells of one packet.
The same capture with a second record that is cut short gets a page too. A page whose width is no
number is not refused at first, but then nothing is printed or written. -/
theorem run_outcome_printed :
    let h : Capture.Header := ⟨⟨.little, .micro⟩, 65535, 1⟩
    let record : Capture.Record := ⟨5, 10, 2, [1, 2]⟩
    let capture : Bytes :=
      h.encode [2, 0, 4, 0, 0, 0, 0, 0, 0, 0, 0, 0] ++ Capture.encodeRecords .little [record]
    let tree (bytes : Bytes) : FileTree := FileTree.empty.put ["work", "in.pcap"] (.file bytes)
    let o : Options := ⟨"in.pcap", ".", .standard, true, false⟩
    let unsized : Settings Float :=
      { Settings.standard with page := Settings.pageOfSize (0.0 / 0.0) 792.0 }
    let run (o : Options) (t : FileTree) : Except Abort Outcome × FileTree :=
      (o.run ⟨.stops, .universal⟩ ⟨0, 0⟩ : StateM FileTree (Except Abort Outcome)).run t
    (∃ outcome printed, (run o (tree capture)).1 = .ok outcome ∧ outcome.exitCode = 0 ∧
      Json.read? outcome.stdout = some printed ∧
      printed.field? "packet_count" = some (.whole 1)) ∧
    (∃ outcome, (run o (tree (capture ++ [6, 0, 0]))).1 = .ok outcome ∧ outcome.exitCode = 0) ∧
    ∃ outcome, { o with settings := unsized }.refusesPage = false ∧
      run { o with settings := unsized } (tree capture) = (.ok outcome, tree capture) ∧
      outcome.exitCode = 1 ∧ outcome.stdout = "" := by
  intro h record capture tree o unsized run
  have hrecord : record.WellFormed h := ⟨by decide, by decide, by decide, by decide⟩
  have hcapture : Capture.Consists capture h [record] :=
    ⟨⟨by decide, by decide⟩, by simp [hrecord], _, rfl, rfl⟩
  have hread : (tree capture).read o.input = .ok capture := by decide +kernel
  have hopens : ∃ c, Capture.ofFile ((tree capture).read o.input) = .ok c := by
    rw [hread]
    exact ⟨_, Capture.consists_iff.mp hcapture⟩
  have hplace : (tree capture).target o.path = .ok ["work", "report.pdf"] := by decide +kernel
  obtain ⟨outcome, t, hrun, hends⟩ := run_outcome o ⟨.stops, .universal⟩ ⟨0, 0⟩ (tree capture)
  have hzero : outcome.exitCode = 0 :=
    hends.zero_iff.mpr (canSucceed_tree_iff.mpr ⟨by decide, hopens, _, hplace⟩)
  refine ⟨?_, ?_, ?_⟩
  · obtain ⟨file, part, header, records, page, hfile, hgood, hpart, hprinted, -⟩ :=
      hends.success hzero
    obtain rfl := Except.ok.inj (hread.symm.trans hfile)
    obtain ⟨rfl, rfl⟩ := hgood.eq_of_consists hcapture hpart
    obtain ⟨printed, hreads, htold⟩ := hprinted
    exact ⟨outcome, printed, congrArg Prod.fst hrun, hzero, hreads, htold.packetCount⟩
  · obtain ⟨other, t', hrun', -⟩ :=
      run_outcome o ⟨.stops, .universal⟩ ⟨0, 0⟩ (tree (capture ++ [6, 0, 0]))
    have hfile : (tree capture).node? ["work", "in.pcap"] = some (.file capture) := rfl
    have halike : o.AlikeAtStart (tree capture) (tree (capture ++ [6, 0, 0])) :=
      alikeAtStart_put hfile (by decide)
    exact ⟨other, congrArg Prod.fst hrun', (hends.headOnly _ _ _ halike hrun').trans hzero⟩
  · obtain ⟨outcome, t, hrun, hends⟩ :=
      run_outcome { o with settings := unsized } ⟨.stops, .universal⟩ ⟨0, 0⟩ (tree capture)
    have hsize : ¬{ o with settings := unsized }.HasPage := by decide
    have hfail := hends.codes.resolve_left fun hzero => hsize (hends.zero_iff.mp hzero).1
    obtain rfl := hends.unwritten (Or.inl hsize)
    exact ⟨outcome, by decide, hrun, hfail, hends.silent hfail⟩

end CommandLine.Options

end TrafficSheet
