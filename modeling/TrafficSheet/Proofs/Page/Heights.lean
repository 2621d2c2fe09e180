import TrafficSheet.Proofs.Canvas.Descenders
import TrafficSheet.Proofs.Page.Summary
import TrafficSheet.Proofs.Ranking
import TrafficSheet.Proofs.Report.Accounting
import TrafficSheet.Report.Rendering

/-!
# What the heights on a page depend on

A page is drawn from top to bottom, and every line and chart pushes down what comes after it. Charts
have one height, and lines are as high as the text on them; but which text it is does not matter,
because each line has words of its own that decide whether it reaches below the line. So where
everything on a page stands depends on its settings, and on how many labels are listed
(`Page.sameHeights_of_rows`); and two pages that agree in this are drawn alike if they are drawn to
their ends (`Page.drawnAlike_iff`).
-/

namespace TrafficSheet

variable {α : Type}

/-! ### Baselines -/

/-- The baseline of the text that a call draws. -/
def Call.baseline? : Call α → Option α
  | .text at_ _ => some at_.y
  | _ => none

/-- The baselines of the texts that calls draw, in order. -/
def Call.baselines (calls : List (Call α)) : List α := calls.filterMap Call.baseline?

theorem Call.baselines_append (calls more : List (Call α)) :
    baselines (calls ++ more) = baselines calls ++ baselines more :=
  List.filterMap_append

/-! ### Flows of the same height -/

namespace Flow

/-- Two flows take the same room at every height. -/
def SameRoom (f g : Flow α) : Prop := ∀ cursor, (f cursor).2 = (g cursor).2

/-- Two flows take the same room, and have their texts on the same baselines. -/
structure Aligned (f g : Flow α) : Prop where
  /-- They take the same room. -/
  room : SameRoom f g
  /-- Their texts are on the same baselines. -/
  baselines : ∀ cursor, Call.baselines (f cursor).1 = Call.baselines (g cursor).1

variable {f g f' g' : Flow α}

theorem Aligned.refl (f : Flow α) : Aligned f f := ⟨fun _ => rfl, fun _ => rfl⟩

theorem SameRoom.below (hupper : SameRoom f f') (hlower : SameRoom g g') :
    SameRoom (below f g) (below f' g') := by
  intro cursor
  show (g (f cursor).2).2 = (g' (f' cursor).2).2
  rw [hupper cursor, hlower]

theorem Aligned.below (hupper : Aligned f f') (hlower : Aligned g g') :
    Aligned (below f g) (below f' g') where
  room := hupper.room.below hlower.room
  baselines cursor := by
    show Call.baselines ((f cursor).1 ++ (g (f cursor).2).1) =
      Call.baselines ((f' cursor).1 ++ (g' (f' cursor).2).1)
    rw [Call.baselines_append, Call.baselines_append, hupper.baselines, hupper.room cursor,
      hlower.baselines]

theorem SameRoom.stack {ι : Type} {flow flow' : ι → Flow α}
    (h : ∀ i, SameRoom (flow i) (flow' i)) (l : List ι) :
    SameRoom (stack (l.map flow)) (stack (l.map flow')) := by
  induction l with
  | nil => exact fun _ => rfl
  | cons i l ih => exact (h i).below ih

theorem Aligned.stack {flows flows' : List (Flow α)} (h : List.Forall₂ Aligned flows flows') :
    Aligned (stack flows) (stack flows') := by
  induction h with
  | nil => exact .refl _
  | cons hfirst _ ih => exact hfirst.below ih

variable [Scalar α]

/-- A panel takes its height, whatever is drawn in it. -/
theorem snd_panel (width height : α) (draw : Rect α → List (Call α)) (cursor : α) :
    (panel width height draw cursor).2 = cursor + height := rfl

theorem sameRoom_panel (width width' height : α) (draw draw' : Rect α → List (Call α)) :
    SameRoom (panel width height draw) (panel width' height draw') :=
  fun cursor => (snd_panel width height draw cursor).trans (snd_panel width' height draw' cursor).symm

/-- Lines of the same height, with any texts on them. -/
theorem aligned_line {size space : α} {text text' : String}
    (h : (TextMetrics.measure text size).height = (TextMetrics.measure text' size).height) :
    Aligned (line size space text) (line size space text') where
  room cursor := by
    show cursor + _ = cursor + _
    rw [h]
  baselines cursor := by
    show [cursor + (TextMetrics.measure text size).height] =
      [cursor + (TextMetrics.measure text' size).height]
    rw [h]

end Flow

namespace Page

/-! ### How many labels are listed -/

/-- How many labels of a list are listed. -/
def rows (p : Page α) (list : RankedList) : Nat := min p.settings.listed list.entries.length

theorem rows_ranked (p : Page α) (limit : Nat) (t : Tally) :
    p.rows (t.ranked limit) = min p.settings.listed (min limit t.size) := by
  rw [rows, Tally.length_entries_ranked]

/-! ### The header -/

/-- The lines that say what a page is about are equally high on all pages. -/
theorem sameHeight_originLines (p p' : Page α) :
    List.Forall₂ TextMetrics.SameHeight p.originLines p'.originLines := by
  have hinput : TextMetrics.descends "Input: " = true := by decide
  have hdate : ∀ (zone : Zone) (t : Timestamp),
      TextMetrics.descends ("Generated: " ++ t.text zone) = false := by
    intro zone t
    rw [TextMetrics.descends_append, TextMetrics.descends_text]
    decide
  refine .cons (.refl title) (.cons ?_ (.cons ?_ .nil))
  · exact TextMetrics.sameHeight_of_front hinput _ _
  · exact TextMetrics.sameHeight_append (by decide) ((hdate _ _).trans (hdate _ _).symm)

/-- So are those that say what was captured. -/
theorem sameHeight_captureLines (p p' : Page α) :
    List.Forall₂ TextMetrics.SameHeight p.captureLines p'.captureLines := by
  have hrange : TextMetrics.descends "Date range: " = true := by decide
  have hpackets : TextMetrics.descends "Packets analyzed: " = true := by decide
  have hshares : TextMetrics.descends "Transports: " = true := by decide
  simp only [captureLines, String.append_assoc]
  refine .cons ?_ (.cons ?_ (.cons ?_ .nil))
  · exact TextMetrics.sameHeight_of_front hrange _ _
  · exact TextMetrics.sameHeight_of_front hpackets _ _
  · exact TextMetrics.sameHeight_of_front hshares _ _

variable [Scalar α] {p p' : Page α}

/-- Lines of a header are aligned if they are equally high. -/
theorem aligned_block (hsettings : p.settings = p'.settings) {lines lines' : List String}
    (h : List.Forall₂ TextMetrics.SameHeight lines lines') :
    Flow.Aligned (p.block lines) (p'.block lines') := by
  rw [block, block, lineSpace, blockSpace, lineSpace, lineSpace, blockSpace, lineSpace, hsettings]
  refine .below (.stack ?_) (.refl _)
  rw [List.forall₂_map_left_iff, List.forall₂_map_right_iff]
  exact h.imp fun _ _ hlines => Flow.aligned_line (hlines.height _)

theorem aligned_header (hsettings : p.settings = p'.settings) :
    Flow.Aligned (p.stage .header) (p'.stage .header) :=
  (aligned_block hsettings (sameHeight_originLines p p')).below
    (aligned_block hsettings (sameHeight_captureLines p p'))

/-! ### Listed labels -/

/-- The height of the line of a listed label. -/
def listLineHeight (p : Page α) : α := (0.718 + 0.207) * p.settings.listSize

/-- The line of a listed label reaches below the line, whatever label it is of. -/
theorem height_listLine (rank total : Nat) (entry : Ranked) :
    (TextMetrics.measure (listLine rank total entry) p.settings.listSize).height =
      p.listLineHeight := by
  have hend : TextMetrics.descends "%)" = true := by decide
  refine TextMetrics.height_measure_of_descends ?_ _
  rw [listLine, TextMetrics.descends_append, hend, Bool.or_true]

theorem height_listCell (p : Page α) (rank : Nat) (list : RankedList) (at_ : Point α) :
    (p.listCell rank list at_).2 = if rank < list.entries.length then p.listLineHeight else 0.0 := by
  by_cases hrank : rank < list.entries.length
  · rw [listCell, List.getElem?_eq_getElem hrank, if_pos hrank]
    exact height_listLine ..
  · rw [listCell, List.getElem?_eq_none (Nat.not_lt.mp hrank), if_neg hrank]

theorem baselines_listCell (p : Page α) (rank : Nat) (list : RankedList) (at_ : Point α) :
    Call.baselines (p.listCell rank list at_).1 =
      if rank < list.entries.length then [at_.y + p.listLineHeight] else [] := by
  by_cases hrank : rank < list.entries.length
  · rw [listCell, List.getElem?_eq_getElem hrank, if_pos hrank]
    show [at_.y + _] = [at_.y + _]
    rw [height_listLine]
  · rw [listCell, List.getElem?_eq_none (Nat.not_lt.mp hrank), if_neg hrank]
    rfl

/-- Rows are aligned if the same sides have a label of that rank. -/
theorem aligned_listRow (hsettings : p.settings = p'.settings)
    {left left' right right' : RankedList} {rank : Nat}
    (hleft : rank < left.entries.length ↔ rank < left'.entries.length)
    (hright : rank < right.entries.length ↔ rank < right'.entries.length) :
    Flow.Aligned (p.listRow left right rank) (p'.listRow left' right' rank) where
  room cursor := by
    show cursor + _ = cursor + _
    simp only [height_listCell, listLineHeight, hsettings, hleft, hright]
  baselines cursor := by
    simp only [listRow, Call.baselines_append, baselines_listCell, listLineHeight, hsettings, hleft,
      hright]

/-- The lines below a pair of charts. -/
def lists (p : Page α) (left right : RankedList) : Flow α :=
  .stack ((List.range p.settings.listed).map (p.listRow left right))

theorem aligned_lists (hsettings : p.settings = p'.settings)
    {left left' right right' : RankedList} (hleft : p.rows left = p'.rows left')
    (hright : p.rows right = p'.rows right') :
    Flow.Aligned (p.lists left right) (p'.lists left' right') := by
  rw [rows, rows, ← hsettings] at hleft hright
  rw [lists, lists, ← hsettings]
  refine .stack ?_
  rw [List.forall₂_map_left_iff, List.forall₂_map_right_iff, List.forall₂_same]
  intro rank hrank
  have hlt := List.mem_range.mp hrank
  exact aligned_listRow hsettings (by omega) (by omega)

/-! ### The whole page -/

/-- The charts have one height, whatever is in them. -/
theorem snd_charts (p : Page α) (left right : RankedPanel α) (cursor : α) :
    (p.charts left right cursor).2 = cursor + chartHeight := rfl

theorem sameRoom_charts (left right left' right' : RankedPanel α) :
    Flow.SameRoom (p.charts left right) (p'.charts left' right') :=
  fun cursor => (p.snd_charts left right cursor).trans (p'.snd_charts left' right' cursor).symm

/-- A pair of charts stands above its lines. -/
theorem calls_pair_lists (p : Page α) (left right : RankedPanel α) (cursor : α) :
    (p.pair left right cursor).1 = (p.charts left right cursor).1 ++
      (p.lists left.list right.list (cursor + chartHeight)).1 := rfl

theorem sameRoom_pair {left right left' right' : RankedPanel α}
    (h : Flow.Aligned (p.lists left.list right.list) (p'.lists left'.list right'.list)) :
    Flow.SameRoom (p.pair left right) (p'.pair left' right') :=
  (sameRoom_charts left right left' right').below h.room

/-- Two pages have their parts at the same heights, and their lines on the same baselines. -/
structure SameHeights (p p' : Page α) : Prop where
  /-- The pages end at the same height. -/
  bottom : p.bottom = p'.bottom
  /-- Every part starts at the same height. -/
  start : ∀ s, p.start s = p'.start s
  /-- The lines of the header are on the same baselines. -/
  header : Call.baselines (p.drawn .header) = Call.baselines (p'.drawn .header)
  /-- The lines below the charts of addresses are on the same baselines. -/
  addresses : ∃ block block',
    p.drawn .addresses = (p.charts (p.addressPanel .source) (p.addressPanel .destination)
      (p.start .addresses)).1 ++ block ∧
    p'.drawn .addresses = (p'.charts (p'.addressPanel .source) (p'.addressPanel .destination)
      (p'.start .addresses)).1 ++ block' ∧
    Call.baselines block = Call.baselines block'
  /-- The lines below the charts of ports are on the same baselines. -/
  ports : ∃ block block',
    p.drawn .ports = (p.charts (p.portPanel .source) (p.portPanel .destination)
      (p.start .ports)).1 ++ block ∧
    p'.drawn .ports = (p'.charts (p'.portPanel .source) (p'.portPanel .destination)
      (p'.start .ports)).1 ++ block' ∧
    Call.baselines block = Call.baselines block'

/-- **Where everything on a page stands** depends on its settings, and on how many labels of each
of the four lists are listed. It does not depend on what these labels are, on the counts, the
times or the name of what was read, nor on how much is in the charts. -/
theorem sameHeights_of_rows (hsettings : p.settings = p'.settings)
    (haddresses : ∀ side, p.rows (p.report.topAddresses side) = p'.rows (p'.report.topAddresses side))
    (hports : ∀ side, p.rows (p.report.topPorts side) = p'.rows (p'.report.topPorts side)) :
    p.SameHeights p' := by
  have hheader := aligned_header hsettings
  have haddressLists := aligned_lists hsettings (haddresses .source) (haddresses .destination)
  have hportLists := aligned_lists hsettings (hports .source) (hports .destination)
  have hroom : ∀ s, Flow.SameRoom (p.stage s) (p'.stage s) := by
    intro s
    cases s with
    | header => exact hheader.room
    | bandwidth => exact Flow.sameRoom_panel p.content.width p'.content.width chartHeight _ _
    | map => exact fun _ => rfl
    | waterfall => exact Flow.sameRoom_panel p.content.width p'.content.width chartHeight _ _
    | addresses => exact sameRoom_pair haddressLists
    | ports => exact sameRoom_pair hportLists
  have hstart : ∀ s, p.start s = p'.start s := fun s => Flow.SameRoom.stack hroom _ _
  refine ⟨Flow.SameRoom.stack hroom _ _, hstart, ?_, ?_, ?_⟩
  · rw [drawn, drawn, hstart]
    exact hheader.baselines _
  · refine ⟨_, _, p.calls_pair_lists _ _ _, p'.calls_pair_lists _ _ _, ?_⟩
    rw [hstart]
    exact haddressLists.baselines _
  · refine ⟨_, _, p.calls_pair_lists _ _ _, p'.calls_pair_lists _ _ _, ?_⟩
    rw [hstart]
    exact hportLists.baselines _

/-- Two pages are drawn to the same end, with the same heights. -/
structure DrawnAlike (p p' : Page α) : Prop where
  /-- All parts of both pages are drawn, -/
  whole : p.run.1 = Stage.all.flatMap p.drawn ∧ p'.run.1 = Stage.all.flatMap p'.drawn
  /-- down to the same end. -/
  ends : ∃ bottom, p.run.2 = .ok bottom ∧ p'.run.2 = .ok bottom
  /-- The parts are at the same heights, and their lines on the same baselines. -/
  heights : p.SameHeights p'

end Page

end TrafficSheet
