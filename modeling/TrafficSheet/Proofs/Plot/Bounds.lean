import TrafficSheet.Page.Panels
import TrafficSheet.Proofs.Geometry

/-!
# Charts stay in their bounds

A chart of the usual font sizes and height has room for all that is drawn of it: the frame,
the labels at both ends of the axes, columns, bars with their labels, and dots. All of it
stands between the top and the bottom of the bounds (`RankedPanel.between_draw`,
`BandwidthPanel.between_draw`, `WaterfallPanel.between_draw`), whatever is shown.
-/

namespace TrafficSheet

/-- The chart has the usual font sizes. -/
structure PlotStyle.UsualSizes (style : PlotStyle ℚ) : Prop where
  /-- That of the title. -/
  title : style.titleSize = 8
  /-- That of the labels at the left. -/
  yTick : style.yTickSize = 6
  /-- That of the labels at the bottom. -/
  xTick : style.xTickSize = 6

theorem PlotStyle.usualSizes_plain : (plain : PlotStyle ℚ).UsualSizes := by
  constructor <;> norm_num [plain]

/-- The title and the room for labels do not change the font sizes. -/
theorem PlotStyle.UsualSizes.retitled {style : PlotStyle ℚ} (h : style.UsualSizes) (title : String)
    (padLeftFactor : ℚ) : UsualSizes { style with title, padLeftFactor } :=
  ⟨h.title, h.yTick, h.xTick⟩

/-- A part of a number is a share of it. -/
theorem share_mem {n most : Nat} (hpos : 0 < most) (hle : n ≤ most) :
    (0 : ℚ) ≤ n / most ∧ (n / most : ℚ) ≤ 1 := by
  have hmost : (0 : ℚ) < most := by exact_mod_cast hpos
  refine ⟨by positivity, (div_le_one hmost).mpr ?_⟩
  exact_mod_cast hle

/-- A hundred points are the usual height of a chart. -/
def Rect.UsualHeight (bounds : Rect ℚ) : Prop := bounds.height = 100

namespace Plot

variable {bounds area : Rect ℚ} {style : PlotStyle ℚ}

/-! ### The area of a chart -/

theorem height_title_mem (hstyle : style.UsualSizes) :
    0 ≤ (TextMetrics.measure style.title style.titleSize).height ∧
      (TextMetrics.measure style.title style.titleSize).height ≤ 7.4 := by
  rw [hstyle.title]
  have hle := TextMetrics.height_measure_le style.title (by norm_num : (0 : ℚ) ≤ 8)
  exact ⟨TextMetrics.height_measure_nonneg _ (by norm_num), hle.trans (by norm_num)⟩

theorem snd_title_mem (bounds : Rect ℚ) (hstyle : style.UsualSizes) :
    bounds.y ≤ (title bounds style).2 ∧ (title bounds style).2 ≤ bounds.y + 11.4 := by
  obtain ⟨hnonneg, hle⟩ := height_title_mem hstyle
  have hsize := hstyle.title
  unfold title
  split_ifs <;> dsimp only <;> constructor <;> linarith

/-- Where the area of a chart stands in its bounds. -/
structure AreaIn (area bounds : Rect ℚ) : Prop where
  /-- It starts below the title. -/
  top : bounds.y ≤ area.y
  /-- The labels at the bottom have their room below it. -/
  bottom : area.bottom = bounds.y + 88
  /-- It is high. -/
  height : 76 ≤ area.height
  /-- The bounds have the usual height. -/
  bounds : bounds.bottom = bounds.y + 100

theorem areaIn_frameArea (hstyle : style.UsualSizes) (hbounds : bounds.UsualHeight) :
    AreaIn (frameArea bounds style) bounds := by
  obtain ⟨htop, hle⟩ := snd_title_mem bounds hstyle
  have hbottom : bounds.bottom = bounds.y + 100 := by rw [Rect.bottom, hbounds]
  have hheight : (frameArea bounds style).height = bounds.y + 88 - (title bounds style).2 := by
    show Scalar.larger (bounds.bottom - bounds.height * 0.12 - (title bounds style).2) 0.0 = _
    rw [Scalar.larger_eq, hbottom, hbounds, max_eq_left (by linarith)]
    ring
  have hy : (frameArea bounds style).y = (title bounds style).2 := rfl
  refine ⟨htop, ?_, ?_, hbottom⟩
  · rw [Rect.bottom, hheight, hy]
    ring
  · rw [hheight]
    linarith

/-! ### Frames and labels -/

theorem between_frame (hstyle : style.UsualSizes) (hbounds : bounds.UsualHeight) :
    ∀ call ∈ frame bounds style, call.Between bounds.y bounds.bottom := by
  obtain ⟨htop, hbottom, hheight, hend⟩ := areaIn_frameArea hstyle hbounds
  have harea : (frameArea bounds style).bottom =
      (frameArea bounds style).y + (frameArea bounds style).height := rfl
  intro call hcall
  rw [frame, List.mem_cons, List.mem_append] at hcall
  rcases hcall with rfl | hcall | hcall
  · trivial
  · obtain ⟨hnonneg, hle⟩ := height_title_mem hstyle
    unfold title at hcall
    split_ifs at hcall
    · exact absurd hcall List.not_mem_nil
    · rcases List.mem_pair.mp hcall with rfl | rfl
      · trivial
      · constructor <;> dsimp only <;> linarith
  · rw [axes, List.mem_pair] at hcall
    rcases hcall with rfl | rfl
    · refine ⟨⟨?_, ?_⟩, ?_, ?_⟩ <;> dsimp only <;> linarith
    · refine ⟨⟨?_, ?_⟩, ?_, ?_⟩ <;> dsimp only <;> linarith

/-- A label at the left reaches half its height over and under its place. -/
theorem between_yTick (hstyle : style.UsualSizes) (label : String) {y : ℚ}
    (htop : bounds.y ≤ y) (hbottom : y + 3 ≤ bounds.bottom) :
    (yTick area style label y).Between bounds.y bounds.bottom := by
  have hnonneg := TextMetrics.height_measure_nonneg label (by norm_num : (0 : ℚ) ≤ 6)
  have hle := TextMetrics.height_measure_le label (by norm_num : (0 : ℚ) ≤ 6)
  rw [yTick, hstyle.yTick]
  constructor <;> dsimp only <;> linarith

theorem between_yTicks (hstyle : style.UsualSizes) (harea : AreaIn area bounds) (label : String) :
    ∀ call ∈ yTicks area style label, call.Between bounds.y bounds.bottom := by
  obtain ⟨htop, hbottom, hheight, hend⟩ := harea
  have hdown : area.bottom = area.y + area.height := rfl
  intro call hcall
  simp only [yTicks, List.mem_cons, List.not_mem_nil, or_false] at hcall
  rcases hcall with rfl | rfl | rfl | rfl
  · trivial
  · trivial
  · exact between_yTick hstyle label htop (by linarith)
  · exact between_yTick hstyle "0" (by linarith) (by linarith)

theorem between_xTicks (hstyle : style.UsualSizes) (harea : AreaIn area bounds)
    (left right : String) :
    ∀ call ∈ xTicks area style left right, call.Between bounds.y bounds.bottom := by
  obtain ⟨htop, hbottom, hheight, hend⟩ := harea
  intro call hcall
  simp only [xTicks, List.mem_cons, List.not_mem_nil, or_false, hstyle.xTick] at hcall
  rcases hcall with rfl | rfl | rfl | rfl
  · trivial
  · trivial
  · constructor <;> dsimp only <;> linarith
  · constructor <;> dsimp only <;> linarith

/-! ### Columns and bars -/

/-- A column is no higher than the area. -/
theorem between_columns (harea : AreaIn area bounds) (values : List Nat) (most : Nat)
    (color : Color ℚ) :
    ∀ call ∈ columns area values most color, call.Between bounds.y bounds.bottom := by
  obtain ⟨htop, hbottom, hheight, hend⟩ := harea
  have hdown : area.bottom = area.y + area.height := rfl
  intro call hcall
  unfold columns at hcall
  split_ifs at hcall with hnone
  · exact absurd hcall List.not_mem_nil
  · rcases List.mem_cons.mp hcall with rfl | hcall
    · trivial
    · obtain ⟨⟨value, i⟩, -, hcolumn⟩ := List.mem_filterMap.mp hcall
      dsimp only at hcolumn
      split_ifs at hcolumn
      obtain rfl := Option.some.inj hcolumn
      have hmost : 0 < most := Nat.pos_of_ne_zero fun hzero => hnone (Or.inl hzero)
      obtain ⟨hnonneg, hshare⟩ := share_mem hmost (Nat.min_le_right value most)
      have hle := mul_le_of_le_one_right (by linarith : 0 ≤ area.height) hshare
      have hpos := mul_nonneg (by linarith : 0 ≤ area.height) hnonneg
      simp only [Scalar.ofNat_eq]
      refine ⟨?_, hpos, ?_⟩
      · dsimp only
        linarith
      · dsimp only [Rect.bottom] at hbottom hend ⊢
        linarith

/-- Slots of equal size, one below the other, fill their room. -/
theorem slot_mem {height : ℚ} {n i : Nat} (hheight : 0 < height) (hi : i < n) :
    0 < height / n ∧ 0 ≤ height / n * i ∧ height / n * i + height / n ≤ height := by
  have hn : (0 : ℚ) < n := by exact_mod_cast Nat.zero_lt_of_lt hi
  have hslot : 0 < height / n := div_pos hheight hn
  refine ⟨hslot, mul_nonneg hslot.le (Nat.cast_nonneg i), ?_⟩
  calc height / n * i + height / n = height / n * (i + 1 : Nat) := by push_cast; ring
    _ ≤ height / n * n := by
      refine mul_le_mul_of_nonneg_left ?_ hslot.le
      exact_mod_cast hi
    _ = height := div_mul_cancel₀ height hn.ne'

theorem barLabelSize_mem (hstyle : style.UsualSizes) (barHeight : ℚ) :
    0 ≤ barLabelSize style barHeight ∧ barLabelSize style barHeight ≤ 6 := by
  unfold barLabelSize
  rw [Scalar.smaller_eq, Scalar.larger_eq, hstyle.yTick]
  refine ⟨le_min (by norm_num) ?_, min_le_left _ _⟩
  exact le_max_of_le_right (by norm_num)

/-- A bar stands in its slot, and its label reaches below the bar by less than the room that is
left under the area. -/
theorem between_bars (hstyle : style.UsualSizes) (harea : AreaIn area bounds)
    (entries : List (String × Nat)) (color : Color ℚ) :
    ∀ call ∈ bars area style entries color, call.Between bounds.y bounds.bottom := by
  obtain ⟨htop, hbottom, hheight, hend⟩ := harea
  have hdown : area.bottom = area.y + area.height := rfl
  intro call hcall
  unfold bars at hcall
  dsimp only at hcall
  split_ifs at hcall
  · exact absurd hcall List.not_mem_nil
  · obtain ⟨⟨⟨label, count⟩, i⟩, hentry, hcall⟩ := List.mem_flatMap.mp hcall
    have hi : i < entries.length := by simpa using (List.mem_zipIdx hentry).2.1
    obtain ⟨hslot, hbefore, hafter⟩ := slot_mem (by linarith : 0 < area.height) hi
    simp only [Scalar.ofNat_eq] at hcall
    -- Only these bounds of the slot and of the label's size matter for where things stand.
    generalize area.height / (entries.length : ℚ) = slot at hslot hbefore hafter hcall
    obtain ⟨hsize, hsmall⟩ := barLabelSize_mem hstyle (slot * (1.0 - barGap))
    generalize barLabelSize style (slot * (1.0 - barGap)) = size at hsize hsmall hcall
    have hnonneg := TextMetrics.height_measure_nonneg label hsize
    have hle := TextMetrics.height_measure_le label hsize
    simp only [List.mem_cons, List.not_mem_nil, or_false, barGap] at hcall
    rcases hcall with rfl | rfl | rfl | rfl | rfl
    · trivial
    · refine ⟨?_, ?_, ?_⟩ <;> dsimp only [Rect.bottom] at hbottom hend ⊢ <;> linarith
    · trivial
    · trivial
    · constructor <;> dsimp only <;> linarith

end Plot

/-! ### Panels -/

variable {bounds : Rect ℚ}

theorem RankedPanel.between_draw {panel : RankedPanel ℚ} (hstyle : panel.style.UsualSizes)
    (hbounds : bounds.UsualHeight) :
    ∀ call ∈ panel.draw bounds, call.Between bounds.y bounds.bottom := by
  intro call hcall
  rcases List.mem_append.mp hcall with hcall | hcall
  · exact Plot.between_frame hstyle hbounds call hcall
  · exact Plot.between_bars hstyle (Plot.areaIn_frameArea hstyle hbounds) _ _ call hcall

theorem BandwidthPanel.between_draw {style : PlotStyle ℚ} (hstyle : style.UsualSizes)
    (hbounds : bounds.UsualHeight) (platform : Platform) (b : Bandwidth) :
    ∀ call ∈ draw bounds style platform b, call.Between bounds.y bounds.bottom := by
  have harea := Plot.areaIn_frameArea hstyle hbounds
  intro call hcall
  unfold draw at hcall
  rcases List.mem_append.mp hcall with hcall | hcall
  · exact Plot.between_frame hstyle hbounds call hcall
  · split at hcall
    · dsimp only at hcall
      split_ifs at hcall
      · exact absurd hcall List.not_mem_nil
      · simp only [plotted, List.mem_append] at hcall
        rcases hcall with ((hcall | hcall) | hcall) | hcall
        · exact Plot.between_columns harea _ _ _ call hcall
        · exact Plot.between_columns harea _ _ _ call hcall
        · exact Plot.between_yTicks hstyle harea _ call hcall
        · exact Plot.between_xTicks hstyle harea _ _ call hcall
    · exact absurd hcall List.not_mem_nil

namespace WaterfallPanel

/-- The largest of some numbers is as large as each, and as the one it is compared with first. -/
theorem le_foldl_max {β : Type} (size : β → Nat) (l : List β) (least : Nat) :
    least ≤ l.foldl (fun n b => max n (size b)) least ∧
      ∀ b ∈ l, size b ≤ l.foldl (fun n b => max n (size b)) least := by
  induction l generalizing least with
  | nil => exact ⟨le_rfl, fun _ hb => absurd hb List.not_mem_nil⟩
  | cons first l ih =>
    obtain ⟨hleast, hall⟩ := ih (max least (size first))
    refine ⟨(le_max_left _ _).trans hleast, List.forall_mem_cons.mpr ⟨?_, hall⟩⟩
    exact (le_max_right _ _).trans hleast

/-- No sample is longer than the longest, and that has a byte at least. -/
theorem length_le_longest (first : Sample) (others : List Sample) :
    1 ≤ (Scale.ofSamples first others : Scale ℚ).longest ∧
      ∀ s ∈ first :: others, s.length ≤ (Scale.ofSamples first others : Scale ℚ).longest := by
  obtain ⟨hleast, hall⟩ := le_foldl_max Sample.length others (max 1 first.length)
  refine ⟨(le_max_left _ _).trans hleast, List.forall_mem_cons.mpr ⟨?_, hall⟩⟩
  exact (le_max_right _ _).trans hleast

/-- A dot stands on the bottom of the area at the lowest, and under its top at the highest. -/
theorem between_dot {area : Rect ℚ} (harea : Plot.AreaIn area bounds) {first s : Sample}
    {others : List Sample} (hs : s ∈ first :: others) :
    (Call.fill (dot area (Scale.ofSamples first others) s)).Between bounds.y bounds.bottom := by
  obtain ⟨htop, hbottom, hheight, hend⟩ := harea
  have hdown : area.bottom = area.y + area.height := rfl
  obtain ⟨hpos, hall⟩ := length_le_longest first others
  obtain ⟨hnonneg, hup⟩ := share_mem hpos (hall s hs)
  unfold dot
  simp only [Scalar.ofNat_eq, Scalar.larger_eq]
  generalize (s.length : ℚ) / (Scale.ofSamples first others : Scale ℚ).longest = up at hup hnonneg
  have hsize : (dotSize : ℚ) = 1.5 := rfl
  have hroom : max (area.height - dotSize) 0.0 = area.height - dotSize :=
    max_eq_left (by rw [hsize]; linarith)
  rw [hroom, hsize]
  have hle := mul_le_of_le_one_left (by linarith : 0 ≤ area.height - 1.5) hup
  have hge := mul_nonneg hnonneg (by linarith : 0 ≤ area.height - 1.5)
  refine ⟨?_, ?_, ?_⟩
  · dsimp only
    linarith
  · dsimp only
    norm_num
  · dsimp only [Rect.bottom] at hbottom hend ⊢
    linarith

theorem between_draw {style : PlotStyle ℚ} (hstyle : style.UsualSizes)
    (hbounds : bounds.UsualHeight) (w : Waterfall) :
    ∀ call ∈ draw bounds style w, call.Between bounds.y bounds.bottom := by
  have harea := Plot.areaIn_frameArea hstyle hbounds
  intro call hcall
  unfold draw at hcall
  rcases List.mem_append.mp hcall with hcall | hcall
  · exact Plot.between_frame hstyle hbounds call hcall
  · split_ifs at hcall
    · exact absurd hcall List.not_mem_nil
    · cases hsamples : w.samples.toList with
      | nil =>
        rw [hsamples] at hcall
        exact absurd hcall List.not_mem_nil
      | cons first others =>
        rw [hsamples, dots] at hcall
        obtain ⟨s, hs, hcall⟩ := List.mem_flatMap.mp hcall
        rcases List.mem_pair.mp hcall with rfl | rfl
        · trivial
        · exact between_dot harea hs

end WaterfallPanel

end TrafficSheet
