import TrafficSheet.Proofs.Page.Listing
import TrafficSheet.Proofs.Page.Runs
import TrafficSheet.Report.Rendering

/-!
# A page against its summary

The page of a report and the summary of it are made apart from each other: one draws from the
statistics, and the other keeps them as data. Both say the same: what the header and the lists of a
page say can be read off the summary, word by word. The header always does so, and the lists exactly
if the page is drawn that far (`Page.says_summary_iff`).
-/

namespace TrafficSheet

variable {α : Type}

/-- Of a rank that is listed, the list and its listing have the same line. -/
theorem RankedList.map_line_listing {rank n : Nat} (h : rank < n) (list : RankedList) (x : α) :
    (list.entries[rank]?.map fun entry => (x, Page.listLine rank list.total entry)) =
      (list.listing n)[rank]?.map fun e => (x, e.line rank) := by
  rw [listing, List.getElem?_map, List.getElem?_take_of_lt h, Option.map_map]
  rfl

namespace Page

variable [Scalar α] (p : Page α)

/-! ### The header -/

/-- Lines of the header are drawn in order at the left edge. -/
theorem texts_block (lines : List String) (cursor : α) :
    Call.texts (p.block lines cursor).1 = lines.map fun line => (0.0, line) := by
  have hline : ∀ (line : String) (cursor : α),
      Call.texts (Flow.line p.settings.headerSize p.lineSpace line cursor).1 = [(0.0, line)] :=
    fun _ _ => rfl
  have hblock : (p.block lines cursor).1 =
      (Flow.stack (lines.map (Flow.line p.settings.headerSize p.lineSpace)) cursor).1 :=
    List.append_nil _
  rw [hblock, Flow.texts_stack hline, List.map_eq_flatMap]

/-! ### The lines of two lists -/

/-- The lines of two listings rank by rank: the left one's at the left edge, and then the right
one's at the left edge of the right chart. -/
def rowTexts (left right : List ListedEntry) : List (α × String) :=
  (List.range p.settings.listed).flatMap fun rank =>
    (left[rank]?.map fun e => (0.0, e.line rank)).toList ++
      (right[rank]?.map fun e => (p.rightEdge, e.line rank)).toList

theorem texts_rows (left right : RankedList) (cursor : α) :
    Call.texts (Flow.stack ((List.range p.settings.listed).map (p.listRow left right)) cursor).1 =
      p.rowTexts (left.listing p.settings.listed) (right.listing p.settings.listed) := by
  rw [Flow.texts_stack (p.texts_listRow left right), rowTexts]
  refine List.flatMap_congr fun rank hrank => ?_
  have hlt := List.mem_range.mp hrank
  rw [RankedList.map_line_listing hlt, RankedList.map_line_listing hlt]

/-- A pair of charts stands above the lines of both listings. -/
theorem calls_pair (left right : RankedPanel α) (cursor : α) :
    ∃ block, (p.pair left right cursor).1 = (p.charts left right cursor).1 ++ block ∧
      Call.texts block = p.rowTexts (left.list.listing p.settings.listed)
        (right.list.listing p.settings.listed) :=
  ⟨_, rfl, p.texts_rows left.list right.list _⟩

/-! ### The whole page -/

/-- The lines of a header that says what the summary does. -/
def headerLines (s : Summary) : List String :=
  [title, "Input: " ++ s.source, "Generated: " ++ p.generated.text p.platform.zone,
    "Date range: " ++ s.earliest ++ " to " ++ s.latest,
    "Packets analyzed: " ++ Quantity.grouped s.packetCount ++ " (" ++ s.byteSize ++ ")",
    "Transports: " ++ s.transports.line]

/-- The page says what the summary does, in the same order. -/
structure Says (s : Summary) : Prop where
  /-- All parts of the page are drawn. -/
  whole : p.run.1 = Stage.all.flatMap p.drawn
  /-- The texts of the header are these lines. -/
  header : Call.texts (p.drawn .header) = (p.headerLines s).map fun line => (0.0, line)
  /-- The texts below the charts of addresses are the lines of the summary's addresses. -/
  addresses : ∃ block,
    p.drawn .addresses = (p.charts (p.addressPanel .source) (p.addressPanel .destination)
      (p.start .addresses)).1 ++ block ∧
    Call.texts block = p.rowTexts s.sourceAddresses s.destinationAddresses
  /-- The texts below the charts of ports are the lines of the summary's ports. -/
  ports : ∃ block,
    p.drawn .ports = (p.charts (p.portPanel .source) (p.portPanel .destination)
      (p.start .ports)).1 ++ block ∧
    Call.texts block = p.rowTexts s.sourcePorts s.destinationPorts

/-- The summary of what the page is about. -/
def summary : Summary := p.report.summary p.platform.zone p.settings.listed

theorem texts_header :
    Call.texts (p.drawn .header) = (p.headerLines p.summary).map fun line => (0.0, line) := by
  have hheader : p.drawn .header = (p.block p.originLines (p.start .header)).1 ++
      (p.block p.captureLines (p.block p.originLines (p.start .header)).2).1 := rfl
  rw [hheader, Call.texts_append, texts_block, texts_block, ← List.map_append]
  rfl

variable {p}

/-- A page that is drawn to its end says what its summary does. -/
theorem says_of_whole (h : p.run.1 = Stage.all.flatMap p.drawn) : p.Says p.summary where
  whole := h
  header := p.texts_header
  addresses :=
    p.calls_pair (p.addressPanel .source) (p.addressPanel .destination) (p.start .addresses)
  ports := p.calls_pair (p.portPanel .source) (p.portPanel .destination) (p.start .ports)

end Page

end TrafficSheet
