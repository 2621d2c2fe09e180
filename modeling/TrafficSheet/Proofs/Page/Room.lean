import TrafficSheet.Proofs.Page.Heights
import TrafficSheet.Proofs.Plot.Bounds

/-!
# A page has room for all that is on it

A page is drawn in steps: the lines of its header, the charts, and the lines below them, with a
space here and there. A step fits if it does not move the cursor up and draws nothing outside the
part of the page that it moves the cursor over (`Flow.Fits`); how far it moves it at most is a
number for each kind of step (`Flow.Takes`). Both carry over to what is drawn step by step. So on
a page of the usual sizes nothing stands on what was drawn before it, and the last line is above
the lower margin, however much was captured and however many labels are listed
(`Page.drawnInRoom_usual_iff`).
-/

namespace TrafficSheet

namespace Flow

/-! ### The way of the cursor -/

section Cursors

variable {α : Type}

/-- The cursor before each of some flows that are drawn from top to bottom, and after the last. -/
def cursors : List (Flow α) → α → List α
  | [], cursor => [cursor]
  | flow :: flows, cursor => cursor :: cursors flows (flow cursor).2

theorem getLast?_cursors (flows : List (Flow α)) (cursor : α) :
    (cursors flows cursor).getLast? = some (stack flows cursor).2 := by
  induction flows generalizing cursor with
  | nil => rfl
  | cons flow flows ih =>
    rw [cursors, List.getLast?_cons, ih]
    rfl

theorem below_assoc (f g h : Flow α) : below (below f g) h = below f (below g h) := by
  funext cursor
  exact Prod.ext (List.append_assoc ..) rfl

theorem stack_singleton (flow : Flow α) : stack [flow] = flow := by
  funext cursor
  exact Prod.ext (List.append_nil _) rfl

theorem stack_append (flows more : List (Flow α)) :
    stack (flows ++ more) = below (stack flows) (stack more) := by
  induction flows with
  | nil => rfl
  | cons flow flows ih =>
    show below flow (stack (flows ++ more)) = below (below flow (stack flows)) (stack more)
    rw [ih, below_assoc]

theorem stack_flatMap {ι : Type} (steps : ι → List (Flow α)) (l : List ι) :
    stack (l.flatMap steps) = stack (l.map fun i => stack (steps i)) := by
  induction l with
  | nil => rfl
  | cons i l ih =>
    rw [List.flatMap_cons, stack_append, ih]
    rfl

end Cursors

variable {f g : Flow ℚ} {flows : List (Flow ℚ)} {size space height room room' : ℚ}

/-! ### Flows that fit -/

/-- All that a flow draws stands between the cursor before it and the cursor after it. -/
structure Fits (f : Flow ℚ) : Prop where
  /-- The cursor does not move up. -/
  le : ∀ cursor, cursor ≤ (f cursor).2
  /-- All calls stay where the cursor moves over. -/
  between : ∀ cursor, ∀ call ∈ (f cursor).1, call.Between cursor (f cursor).2

theorem fits_nothing : (nothing : Flow ℚ).Fits :=
  ⟨fun _ => le_rfl, fun _ _ hcall => absurd hcall List.not_mem_nil⟩

theorem fits_space (hheight : 0 ≤ height) : (Flow.space height).Fits :=
  ⟨fun _ => le_add_of_nonneg_right hheight, fun _ _ hcall => absurd hcall List.not_mem_nil⟩

theorem Fits.below (hupper : f.Fits) (hlower : g.Fits) : (below f g).Fits where
  le cursor := (hupper.le cursor).trans (hlower.le _)
  between cursor call hcall := by
    rcases List.mem_append.mp hcall with hcall | hcall
    · exact (hupper.between cursor call hcall).mono le_rfl (hlower.le _)
    · exact (hlower.between _ call hcall).mono (hupper.le cursor) le_rfl

theorem fits_stack (h : ∀ flow ∈ flows, flow.Fits) : (stack flows).Fits := by
  induction flows with
  | nil => exact fits_nothing
  | cons flow flows ih =>
    obtain ⟨hfirst, hothers⟩ := List.forall_mem_cons.mp h
    exact hfirst.below (ih hothers)

/-- Where flows fit, the cursor never moves up. -/
theorem pairwise_cursors (h : ∀ flow ∈ flows, flow.Fits) (cursor : ℚ) :
    (cursors flows cursor).Pairwise (· ≤ ·) ∧ ∀ c ∈ cursors flows cursor, cursor ≤ c := by
  induction flows generalizing cursor with
  | nil => exact ⟨List.pairwise_singleton .., fun c hc => (List.mem_singleton.mp hc).ge⟩
  | cons flow flows ih =>
    obtain ⟨hfirst, hothers⟩ := List.forall_mem_cons.mp h
    obtain ⟨hsorted, hle⟩ := ih hothers (flow cursor).2
    have hafter : ∀ c ∈ cursors flows (flow cursor).2, cursor ≤ c :=
      fun c hc => (hfirst.le cursor).trans (hle c hc)
    exact ⟨List.pairwise_cons.mpr ⟨hafter, hsorted⟩, List.forall_mem_cons.mpr ⟨le_rfl, hafter⟩⟩

/-- A text with its top at the cursor has its baseline as far below it as it is high. -/
theorem between_textCalls {at_ : Point ℚ} {text : String} {bottom : ℚ} (hsize : 0 ≤ size)
    (hbottom : at_.y + (TextMetrics.measure text size).height ≤ bottom) :
    ∀ call ∈ textCalls size at_ text, call.Between at_.y bottom := by
  have hnonneg := TextMetrics.height_measure_nonneg text hsize
  intro call hcall
  simp only [textCalls, List.mem_cons, List.not_mem_nil, or_false] at hcall
  rcases hcall with rfl | rfl | rfl
  · trivial
  · trivial
  · exact ⟨le_add_of_nonneg_right hnonneg, hbottom⟩

theorem fits_line (hsize : 0 ≤ size) (hspace : 0 ≤ space) (text : String) :
    (line size space text).Fits where
  le cursor := by
    have hnonneg := TextMetrics.height_measure_nonneg text hsize
    exact le_add_of_nonneg_right (add_nonneg hnonneg hspace)
  between cursor := between_textCalls hsize (add_le_add_right (le_add_of_nonneg_right hspace) _)

/-- A panel fits if it stays in bounds of its height. -/
theorem fits_panel {draw : Rect ℚ → List (Call ℚ)} (hheight : 0 ≤ height) (width : ℚ)
    (hdraw : ∀ bounds : Rect ℚ, bounds.height = height →
      ∀ call ∈ draw bounds, call.Between bounds.y bounds.bottom) :
    (panel width height draw).Fits :=
  ⟨fun _ => le_add_of_nonneg_right hheight, fun cursor => hdraw ⟨0.0, cursor, width, height⟩ rfl⟩

/-! ### How much room flows take -/

/-- A flow moves the cursor down by so much at the most. -/
def Takes (f : Flow ℚ) (room : ℚ) : Prop := ∀ cursor, (f cursor).2 ≤ cursor + room

theorem Takes.below (hupper : f.Takes room) (hlower : g.Takes room') :
    (below f g).Takes (room + room') := by
  intro cursor
  calc (g (f cursor).2).2 ≤ (f cursor).2 + room' := hlower _
    _ ≤ cursor + room + room' := by gcongr; exact hupper cursor
    _ = cursor + (room + room') := add_assoc ..

theorem takes_stack {ι : Type} {flow : ι → Flow ℚ} {room : ι → ℚ} {l : List ι}
    (h : ∀ i ∈ l, (flow i).Takes (room i)) : (stack (l.map flow)).Takes (l.map room).sum := by
  induction l with
  | nil => exact fun cursor => (add_zero cursor).ge
  | cons i l ih =>
    obtain ⟨hfirst, hothers⟩ := List.forall_mem_cons.mp h
    exact hfirst.below (ih hothers)

theorem takes_line (hsize : 0 ≤ size) (space : ℚ) (text : String) :
    (line size space text).Takes (0.925 * size + space) := by
  intro cursor
  have hle := TextMetrics.height_measure_le text hsize
  exact add_le_add_right (add_le_add_left hle space) cursor

end Flow

namespace Page

/-! ### The steps of a page -/

section Steps

variable {α : Type} [Scalar α] (p : Page α)

/-- The steps of lines with a space below them. -/
def blockSteps (lines : List String) : List (Flow α) :=
  lines.map (Flow.line p.settings.headerSize p.lineSpace) ++ [.space p.blockSpace]

/-- The steps of two charts with lines below them. -/
def pairSteps (left right : RankedPanel α) : List (Flow α) :=
  p.charts left right :: (List.range p.settings.listed).map (p.listRow left.list right.list)

/-- The steps of a part of the page. Each moves the cursor once. -/
def steps : Stage → List (Flow α)
  | .header => p.blockSteps p.originLines ++ p.blockSteps p.captureLines
  | .bandwidth => [p.stage .bandwidth]
  | .map => []
  | .waterfall => [p.stage .waterfall]
  | .addresses => p.pairSteps (p.addressPanel .source) (p.addressPanel .destination)
  | .ports => p.pairSteps (p.portPanel .source) (p.portPanel .destination)

theorem block_eq_stack (lines : List String) : p.block lines = .stack (p.blockSteps lines) := by
  rw [blockSteps, Flow.stack_append, Flow.stack_singleton]
  rfl

/-- A part of the page is drawn step by step. -/
theorem stage_eq_stack (s : Stage) : p.stage s = .stack (p.steps s) := by
  cases s with
  | header =>
    rw [steps, Flow.stack_append, ← block_eq_stack, ← block_eq_stack]
    rfl
  | bandwidth => exact (Flow.stack_singleton _).symm
  | map => rfl
  | waterfall => exact (Flow.stack_singleton _).symm
  | addresses => rfl
  | ports => rfl

/-- The cursor before each step of the page, and at its end. -/
def cursors : List α := Flow.cursors (Stage.all.flatMap p.steps) 0.0

theorem getLast?_cursors : p.cursors.getLast? = some p.bottom := by
  rw [cursors, Flow.getLast?_cursors, Flow.stack_flatMap, bottom, flow]
  simp only [← stage_eq_stack]

/-- Where a part of the page ends. -/
def stop (s : Stage) : α := (p.stage s (p.start s)).2

end Steps

/-! ### The steps fit -/

variable {p : Page ℚ}

/-- The page has the usual font sizes. -/
structure UsualSizes (p : Page ℚ) : Prop where
  /-- That of the lines at the top. -/
  header : p.settings.headerSize = 8
  /-- That of the lines below the charts. -/
  list : p.settings.listSize = 8

theorem UsualSizes.header_nonneg (h : p.UsualSizes) : 0 ≤ p.settings.headerSize := by
  rw [h.header]
  norm_num

theorem UsualSizes.list_nonneg (h : p.UsualSizes) : 0 ≤ p.settings.listSize := by
  rw [h.list]
  norm_num

theorem UsualSizes.lineSpace (h : p.UsualSizes) : p.lineSpace = 2 := by
  rw [Page.lineSpace, h.header]
  norm_num

theorem UsualSizes.blockSpace (h : p.UsualSizes) : p.blockSpace = 8 := by
  rw [Page.blockSpace, h.lineSpace]
  norm_num

theorem UsualSizes.listLineHeight (h : p.UsualSizes) : p.listLineHeight = 7.4 := by
  rw [Page.listLineHeight, h.list]
  norm_num

theorem chartHeight_eq : (chartHeight : ℚ) = 100 := by norm_num [chartHeight]

/-- Bounds of the height of a chart have the usual height. -/
theorem usualHeight_chart {bounds : Rect ℚ} (h : bounds.height = chartHeight) :
    bounds.UsualHeight := h.trans chartHeight_eq

theorem fits_charts (p : Page ℚ) {left right : RankedPanel ℚ} (hleft : left.style.UsualSizes)
    (hright : right.style.UsualSizes) : (p.charts left right).Fits where
  le cursor := by
    rw [snd_charts, chartHeight_eq]
    linarith
  between cursor call hcall := by
    rcases List.mem_append.mp hcall with hcall | hcall
    · exact RankedPanel.between_draw hleft (usualHeight_chart rfl) call hcall
    · exact RankedPanel.between_draw hright (usualHeight_chart rfl) call hcall

theorem between_listCell (hsizes : p.UsualSizes) (rank : Nat) (list : RankedList) {at_ : Point ℚ}
    {bottom : ℚ} (hbottom : at_.y + (p.listCell rank list at_).2 ≤ bottom) :
    ∀ call ∈ (p.listCell rank list at_).1, call.Between at_.y bottom := by
  unfold listCell at hbottom ⊢
  cases hentry : list.entries[rank]? with
  | none => exact fun call hcall => absurd hcall List.not_mem_nil
  | some entry =>
    rw [hentry] at hbottom
    exact Flow.between_textCalls hsizes.list_nonneg hbottom

theorem snd_listCell_mem (hsizes : p.UsualSizes) (rank : Nat) (list : RankedList)
    (at_ : Point ℚ) :
    0 ≤ (p.listCell rank list at_).2 ∧
      (p.listCell rank list at_).2 ≤ if rank < list.entries.length then 7.4 else 0 := by
  rw [height_listCell, hsizes.listLineHeight]
  split_ifs <;> constructor <;> norm_num

theorem fits_listRow (hsizes : p.UsualSizes) (left right : RankedList) (rank : Nat) :
    (p.listRow left right rank).Fits := by
  have hle : ∀ cursor : ℚ,
      cursor + (p.listCell rank left ⟨0.0, cursor⟩).2 ≤ (p.listRow left right rank cursor).2 ∧
      cursor + (p.listCell rank right ⟨p.rightEdge, cursor⟩).2 ≤
        (p.listRow left right rank cursor).2 := by
    intro cursor
    obtain ⟨hleft, -⟩ := snd_listCell_mem hsizes rank left ⟨0.0, cursor⟩
    obtain ⟨hright, -⟩ := snd_listCell_mem hsizes rank right ⟨p.rightEdge, cursor⟩
    show _ ≤ cursor + max _ _ * 1.5 ∧ _ ≤ cursor + max _ _ * 1.5
    have hmaxleft := le_max_left (p.listCell rank left ⟨0.0, cursor⟩).2
      (p.listCell rank right ⟨p.rightEdge, cursor⟩).2
    have hmaxright := le_max_right (p.listCell rank left ⟨0.0, cursor⟩).2
      (p.listCell rank right ⟨p.rightEdge, cursor⟩).2
    constructor <;> linarith
  constructor
  · intro cursor
    obtain ⟨hleft, -⟩ := snd_listCell_mem hsizes rank left ⟨0.0, cursor⟩
    exact (le_add_of_nonneg_right hleft).trans (hle cursor).1
  · intro cursor call hcall
    rcases List.mem_append.mp hcall with hcall | hcall
    · exact between_listCell hsizes rank left (hle cursor).1 call hcall
    · exact between_listCell hsizes rank right (hle cursor).2 call hcall

theorem fits_blockSteps (hsizes : p.UsualSizes) (lines : List String) :
    ∀ step ∈ p.blockSteps lines, step.Fits := by
  have hspace : 0 ≤ p.lineSpace := by rw [hsizes.lineSpace]; norm_num
  have hblock : 0 ≤ p.blockSpace := by rw [hsizes.blockSpace]; norm_num
  intro step hstep
  rcases List.mem_append.mp hstep with hstep | hstep
  · obtain ⟨text, -, rfl⟩ := List.mem_map.mp hstep
    exact Flow.fits_line hsizes.header_nonneg hspace text
  · rw [List.mem_singleton.mp hstep]
    exact Flow.fits_space hblock

theorem fits_pairSteps (hsizes : p.UsualSizes) {left right : RankedPanel ℚ}
    (hleft : left.style.UsualSizes) (hright : right.style.UsualSizes) :
    ∀ step ∈ p.pairSteps left right, step.Fits := by
  refine List.forall_mem_cons.mpr ⟨p.fits_charts hleft hright, fun step hstep => ?_⟩
  obtain ⟨rank, -, rfl⟩ := List.mem_map.mp hstep
  exact fits_listRow hsizes left.list right.list rank

theorem usualSizes_addressPanel (p : Page ℚ) (side : Side) :
    (p.addressPanel side).style.UsualSizes := by
  cases side <;> exact PlotStyle.usualSizes_plain.retitled _ _

theorem usualSizes_portPanel (p : Page ℚ) (side : Side) :
    (p.portPanel side).style.UsualSizes := by
  cases side <;> exact PlotStyle.usualSizes_plain.retitled _ _

theorem fits_steps (hsizes : p.UsualSizes) (s : Stage) : ∀ step ∈ p.steps s, step.Fits := by
  have hchart : (0 : ℚ) ≤ chartHeight := by rw [chartHeight_eq]; norm_num
  cases s with
  | header =>
    exact List.forall_mem_append.mpr ⟨fits_blockSteps hsizes _, fits_blockSteps hsizes _⟩
  | bandwidth =>
    refine List.forall_mem_singleton.mpr ?_
    show (Flow.panel p.content.width chartHeight fun bounds =>
      BandwidthPanel.draw bounds BandwidthPanel.style p.platform p.report.bandwidth).Fits
    refine Flow.fits_panel hchart _ fun bounds hbounds => ?_
    exact BandwidthPanel.between_draw (PlotStyle.usualSizes_plain.retitled _ _)
      (usualHeight_chart hbounds) _ _
  | map => exact fun _ hstep => absurd hstep List.not_mem_nil
  | waterfall =>
    refine List.forall_mem_singleton.mpr ?_
    show (Flow.panel p.content.width chartHeight fun bounds =>
      WaterfallPanel.draw bounds WaterfallPanel.style p.report.waterfall).Fits
    refine Flow.fits_panel hchart _ fun bounds hbounds => ?_
    exact WaterfallPanel.between_draw (PlotStyle.usualSizes_plain.retitled _ _)
      (usualHeight_chart hbounds) _
  | addresses =>
    exact fits_pairSteps hsizes (p.usualSizes_addressPanel _) (p.usualSizes_addressPanel _)
  | ports => exact fits_pairSteps hsizes (p.usualSizes_portPanel _) (p.usualSizes_portPanel _)

/-! ### How much room the parts take -/

theorem takes_block (hsizes : p.UsualSizes) (lines : List String) :
    (p.block lines).Takes (lines.length * 9.4 + 8) := by
  have hline : ∀ text ∈ lines,
      (Flow.line p.settings.headerSize p.lineSpace text).Takes 9.4 := by
    intro text _ cursor
    have hle := Flow.takes_line hsizes.header_nonneg p.lineSpace text cursor
    rw [hsizes.header, hsizes.lineSpace] at hle ⊢
    linarith
  have hspace : (Flow.space p.blockSpace).Takes 8 := by
    intro cursor
    rw [hsizes.blockSpace]
    rfl
  have hlines := Flow.takes_stack hline
  rw [List.map_const', List.sum_replicate, nsmul_eq_mul] at hlines
  exact hlines.below hspace

/-- Rows without labels take no room. -/
theorem takes_listRow (hsizes : p.UsualSizes) {left right : RankedList} {most : Nat}
    (hleft : left.entries.length ≤ most) (hright : right.entries.length ≤ most) (rank : Nat) :
    (p.listRow left right rank).Takes (if rank < most then 11.1 else 0) := by
  intro cursor
  have hleftCell := (snd_listCell_mem hsizes rank left ⟨0.0, cursor⟩).2
  have hrightCell := (snd_listCell_mem hsizes rank right ⟨p.rightEdge, cursor⟩).2
  -- A rank that one side has a label of is one of those that any side may have.
  have hmost : ∀ n, n ≤ most →
      (if rank < n then 7.4 else 0 : ℚ) ≤ if rank < most then 7.4 else 0 := by
    intro n hn
    split_ifs with hlt hge
    · exact le_rfl
    · exact absurd (hlt.trans_le hn) hge
    · norm_num
    · exact le_rfl
  have hmax := max_le (hleftCell.trans (hmost _ hleft)) (hrightCell.trans (hmost _ hright))
  show cursor + max _ _ * 1.5 ≤ _
  split_ifs at hmax ⊢ <;> linarith

/-- Of many rows only so many have labels. -/
theorem sum_rows_le (most n : Nat) {height : ℚ} (hheight : 0 ≤ height) :
    ((List.range n).map fun rank => if rank < most then height else 0).sum ≤ most * height := by
  have hsum : ((List.range n).map fun rank => if rank < most then height else 0).sum =
      (min n most : Nat) * height := by
    induction n with
    | zero => simp
    | succ n ih =>
      rw [List.range_succ, List.map_append, List.sum_append, ih, List.map_singleton,
        List.sum_singleton]
      split_ifs with hlt
      · rw [Nat.min_eq_left hlt.le, Nat.min_eq_left hlt]
        push_cast
        ring
      · rw [Nat.min_eq_right (by omega), Nat.min_eq_right (by omega), add_zero]
  rw [hsum]
  gcongr
  exact Nat.min_le_right n most

theorem takes_lists (hsizes : p.UsualSizes) {left right : RankedList}
    (hleft : left.entries.length ≤ RankedList.limit)
    (hright : right.entries.length ≤ RankedList.limit) : (p.lists left right).Takes 111 := by
  intro cursor
  have hrow : ∀ rank ∈ List.range p.settings.listed, (p.listRow left right rank).Takes
      (if rank < RankedList.limit then 11.1 else 0) :=
    fun rank _ => takes_listRow hsizes hleft hright rank
  have hsum := sum_rows_le RankedList.limit p.settings.listed (by norm_num : (0 : ℚ) ≤ 11.1)
  have hlimit : (RankedList.limit : ℚ) = 10 := by norm_num [RankedList.limit]
  rw [hlimit] at hsum
  refine (Flow.takes_stack hrow cursor).trans ?_
  linarith

theorem takes_charts (p : Page ℚ) (left right : RankedPanel ℚ) :
    (p.charts left right).Takes 100 := by
  intro cursor
  rw [snd_charts, chartHeight_eq]

theorem takes_panel (width : ℚ) (draw : Rect ℚ → List (Call ℚ)) :
    (Flow.panel width chartHeight draw).Takes 100 := by
  intro cursor
  rw [Flow.snd_panel, chartHeight_eq]

/-- Ten labels are listed at the most. -/
theorem length_entries_le (t : Tally) :
    (t.ranked RankedList.limit).entries.length ≤ RankedList.limit :=
  (t.length_entries_ranked _).trans_le (Nat.min_le_left ..)

theorem takes_pair (hsizes : p.UsualSizes) {left right : RankedPanel ℚ}
    (hleft : left.list.entries.length ≤ RankedList.limit)
    (hright : right.list.entries.length ≤ RankedList.limit) : (p.pair left right).Takes 211 := by
  intro cursor
  have hle := (p.takes_charts left right).below (takes_lists hsizes hleft hright) cursor
  exact hle.trans_eq (by norm_num)

/-- How much room a part of a page of the usual sizes takes at the most. -/
def mostRoom : Stage → ℚ
  | .header => 72.4
  | .bandwidth | .waterfall => 100
  | .map => 0
  | .addresses | .ports => 211

theorem takes_stage (hsizes : p.UsualSizes) (s : Stage) : (p.stage s).Takes (mostRoom s) := by
  cases s with
  | header =>
    intro cursor
    have hle := (takes_block hsizes p.originLines).below (takes_block hsizes p.captureLines) cursor
    refine hle.trans (add_le_add_right ?_ cursor)
    norm_num [originLines, captureLines, mostRoom]
  | bandwidth => exact takes_panel _ _
  | map => exact fun cursor => (add_zero cursor).ge
  | waterfall => exact takes_panel _ _
  | addresses => exact takes_pair hsizes (length_entries_le _) (length_entries_le _)
  | ports => exact takes_pair hsizes (length_entries_le _) (length_entries_le _)

theorem bottom_le (hsizes : p.UsualSizes) : p.bottom ≤ 694.4 := by
  calc p.bottom ≤ 0.0 + (Stage.all.map mostRoom).sum :=
      Flow.takes_stack (fun s _ => takes_stage hsizes s) 0.0
    _ = 694.4 := by norm_num [Stage.all, mostRoom]

/-! ### The whole page -/

/-- Nothing on a page stands on what was drawn before it, and the page ends in its content area. -/
structure HasRoom (p : Page ℚ) : Prop where
  /-- The page is drawn part by part. -/
  parts : p.calls = Stage.all.flatMap p.drawn
  /-- The first part starts at the top of the content area. -/
  top : p.start .header = 0
  /-- Every other part starts where the one before it ends. -/
  next : Stage.all.IsChain fun s s' => p.start s' = p.stop s
  /-- The parts are drawn step by step. -/
  steps : ∀ s, p.stage s = .stack (p.steps s)
  /-- No step moves the cursor up. -/
  cursors : p.cursors.Pairwise (· ≤ ·)
  /-- After the last step the cursor is at the end of the page. -/
  last : p.cursors.getLast? = some p.bottom
  /-- All that a part draws stands between the cursor at its start and the cursor at its end. -/
  between : ∀ s, ∀ call ∈ p.drawn s, call.Between (p.start s) (p.stop s)
  /-- The page ends in its content area. -/
  bottom : p.bottom ≤ p.content.height

/-- A page of the usual font sizes needs no more than 694.4 points. -/
theorem hasRoom (hsizes : p.UsualSizes) (hheight : 694.4 ≤ p.content.height) : p.HasRoom where
  parts := p.calls_eq_drawn
  top := by
    show (0.0 : ℚ) = 0
    norm_num
  next := by
    simp only [Stage.all, List.isChain_cons_cons, List.isChain_singleton, and_true]
    exact ⟨rfl, rfl, rfl, rfl, rfl⟩
  steps := p.stage_eq_stack
  cursors := by
    have hfits : ∀ step ∈ Stage.all.flatMap p.steps, step.Fits := by
      intro step hstep
      obtain ⟨s, -, hstep⟩ := List.mem_flatMap.mp hstep
      exact fits_steps hsizes s step hstep
    exact (Flow.pairwise_cursors hfits 0.0).1
  last := p.getLast?_cursors
  between := by
    intro s
    have hfits := Flow.fits_stack (fits_steps hsizes s)
    rw [← stage_eq_stack] at hfits
    exact hfits.between (p.start s)
  bottom := (bottom_le hsizes).trans hheight

/-- The page is drawn to its end, with room for all that is on it. -/
structure DrawnInRoom (p : Page ℚ) : Prop where
  /-- All parts of the page are drawn, -/
  whole : p.run.1 = Stage.all.flatMap p.drawn
  /-- down to an end in the content area. -/
  ends : ∃ bottom, p.run.2 = .ok bottom ∧ bottom ≤ p.content.height
  /-- Nothing stands on what was drawn before it. -/
  room : p.HasRoom

theorem drawnInRoom_iff (hroom : p.HasRoom) (hwords : p.report.bandwidth.InWords) :
    p.DrawnInRoom ↔ p.Fits := by
  refine ⟨fun h => (draws_all_iff_fits hwords).mp h.whole, fun h => ?_⟩
  refine ⟨(draws_all_iff_fits hwords).mpr h, ⟨p.bottom, ?_, hroom.bottom⟩, hroom⟩
  rw [p.run_of_fits h]

end Page

end TrafficSheet
