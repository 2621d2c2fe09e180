import TrafficSheet.Proofs.Page.Runs

/-!
# The lines of a page

The only lines of a page are the axes of its charts, and all of them have the same width
(`Page.thin_calls`). So whatever a page says, no call that draws it has a width that a page
description cannot hold.
-/

namespace TrafficSheet

variable {α : Type} [Scalar α]

/-- The call draws no line but an axis, and no outline. -/
def Call.Thin : Call α → Prop
  | .line _ _ width => width = Plot.axisWidth
  | .stroke _ _ => False
  | .font _ | .color _ | .measure _ | .text _ _ | .fill _ | .shift _ _ => True

/-! ### Charts -/

namespace Plot

variable (bounds area : Rect α) (style : PlotStyle α)

theorem thin_frame : ∀ call ∈ frame bounds style, call.Thin := by
  intro call hcall
  rw [frame, List.mem_cons, List.mem_append] at hcall
  rcases hcall with rfl | hcall | hcall
  · trivial
  · unfold title at hcall
    split_ifs at hcall
    · exact absurd hcall List.not_mem_nil
    · rcases List.mem_pair.mp hcall with rfl | rfl <;> trivial
  · rw [axes, List.mem_pair] at hcall
    rcases hcall with rfl | rfl <;> rfl

theorem thin_columns (values : List Nat) (most : Nat) (color : Color α) :
    ∀ call ∈ columns area values most color, call.Thin := by
  intro call hcall
  unfold columns at hcall
  dsimp only at hcall
  split_ifs at hcall
  · exact absurd hcall List.not_mem_nil
  · rcases List.mem_cons.mp hcall with rfl | hcall
    · trivial
    · obtain ⟨⟨value, i⟩, -, hvalue⟩ := List.mem_filterMap.mp hcall
      dsimp only at hvalue
      split_ifs at hvalue
      cases hvalue
      trivial

theorem thin_yTicks (label : String) : ∀ call ∈ yTicks area style label, call.Thin := by
  simp [yTicks, yTick, Call.Thin]

theorem thin_xTicks (left right : String) : ∀ call ∈ xTicks area style left right, call.Thin := by
  simp [xTicks, Call.Thin]

theorem thin_bars (entries : List (String × Nat)) (color : Color α) :
    ∀ call ∈ bars area style entries color, call.Thin := by
  intro call hcall
  unfold bars at hcall
  dsimp only at hcall
  split_ifs at hcall
  · exact absurd hcall List.not_mem_nil
  · obtain ⟨⟨⟨label, count⟩, i⟩, -, hcall⟩ := List.mem_flatMap.mp hcall
    simp only [List.mem_cons, List.not_mem_nil, or_false] at hcall
    rcases hcall with rfl | rfl | rfl | rfl | rfl <;> trivial

end Plot

variable (bounds : Rect α) (style : PlotStyle α)

theorem RankedPanel.thin_draw (panel : RankedPanel α) :
    ∀ call ∈ panel.draw bounds, call.Thin :=
  List.forall_mem_append.mpr ⟨Plot.thin_frame _ _, Plot.thin_bars _ _ _ _⟩

theorem BandwidthPanel.thin_draw (platform : Platform) (b : Bandwidth) :
    ∀ call ∈ draw bounds style platform b, call.Thin := by
  refine List.forall_mem_append.mpr ⟨Plot.thin_frame _ _, ?_⟩
  split
  · dsimp only
    split_ifs
    · exact List.forall_mem_nil _
    · simp only [plotted, List.forall_mem_append]
      exact ⟨⟨⟨Plot.thin_columns _ _ _ _, Plot.thin_columns _ _ _ _⟩, Plot.thin_yTicks _ _ _⟩,
        Plot.thin_xTicks _ _ _ _⟩
  · exact List.forall_mem_nil _

theorem WaterfallPanel.thin_draw (w : Waterfall) :
    ∀ call ∈ draw bounds style w, call.Thin := by
  refine List.forall_mem_append.mpr ⟨Plot.thin_frame _ _, ?_⟩
  split_ifs
  · exact List.forall_mem_nil _
  · cases w.samples.toList with
    | nil => exact List.forall_mem_nil _
    | cons first others =>
      intro call hcall
      obtain ⟨s, -, hcall⟩ := List.mem_flatMap.mp hcall
      rcases List.mem_pair.mp hcall with rfl | rfl <;> trivial

/-! ### Flows -/

/-- All that a flow draws has no line but axes. -/
def Flow.Thin (f : Flow α) : Prop := ∀ cursor, ∀ call ∈ (f cursor).1, call.Thin

namespace Flow

variable {f g : Flow α} {flows : List (Flow α)}

theorem thin_space (height : α) : (space height).Thin := fun _ => List.forall_mem_nil _

theorem Thin.below (hupper : f.Thin) (hlower : g.Thin) : (below f g).Thin := fun cursor =>
  List.forall_mem_append.mpr ⟨hupper cursor, hlower _⟩

theorem thin_stack (h : ∀ flow ∈ flows, flow.Thin) : (stack flows).Thin := by
  induction flows with
  | nil => exact fun _ => List.forall_mem_nil _
  | cons flow flows ih =>
    obtain ⟨hfirst, hothers⟩ := List.forall_mem_cons.mp h
    exact hfirst.below (ih hothers)

theorem thin_textCalls (size : α) (at_ : Point α) (text : String) :
    ∀ call ∈ textCalls size at_ text, call.Thin := by
  simp [textCalls, Call.Thin]

theorem thin_line (size space : α) (text : String) : (line size space text).Thin := fun _ =>
  thin_textCalls _ _ _

theorem thin_panel {draw : Rect α → List (Call α)} (h : ∀ bounds, ∀ call ∈ draw bounds, call.Thin)
    (width height : α) : (panel width height draw).Thin := fun _ => h _

end Flow

/-! ### The page -/

namespace Page

variable (p : Page α)

theorem thin_block (lines : List String) : (p.block lines).Thin := by
  refine (Flow.thin_stack fun flow hflow => ?_).below (Flow.thin_space _)
  obtain ⟨text, -, rfl⟩ := List.mem_map.mp hflow
  exact Flow.thin_line _ _ _

theorem thin_listCell (rank : Nat) (list : RankedList) (at_ : Point α) :
    ∀ call ∈ (p.listCell rank list at_).1, call.Thin := by
  unfold listCell
  split
  · exact Flow.thin_textCalls _ _ _
  · exact List.forall_mem_nil _

theorem thin_pair (left right : RankedPanel α) : (p.pair left right).Thin := by
  have hcharts : (p.charts left right).Thin := fun _ =>
    List.forall_mem_append.mpr ⟨left.thin_draw _, right.thin_draw _⟩
  refine hcharts.below (Flow.thin_stack fun flow hflow => ?_)
  obtain ⟨rank, -, rfl⟩ := List.mem_map.mp hflow
  exact fun _ => List.forall_mem_append.mpr ⟨p.thin_listCell _ _ _, p.thin_listCell _ _ _⟩

theorem thin_stage (s : Stage) : (p.stage s).Thin := by
  cases s with
  | header => exact (p.thin_block _).below (p.thin_block _)
  | bandwidth => exact Flow.thin_panel (fun _ => BandwidthPanel.thin_draw _ _ _ _) _ _
  | map => exact fun _ => List.forall_mem_nil _
  | waterfall => exact Flow.thin_panel (fun _ => WaterfallPanel.thin_draw _ _ _) _ _
  | addresses => exact p.thin_pair _ _
  | ports => exact p.thin_pair _ _

/-- **The only lines of a page** are axes. -/
theorem thin_calls : ∀ call ∈ p.calls, call.Thin := by
  refine Flow.thin_stack (fun flow hflow => ?_) 0.0
  obtain ⟨s, -, rfl⟩ := List.mem_map.mp hflow
  exact p.thin_stage s

end Page

end TrafficSheet
