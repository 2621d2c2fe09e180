import TrafficSheet.Proofs.AddressTree.LabelWidth
import TrafficSheet.Proofs.Page.Room
import TrafficSheet.Proofs.Report.Percentages

/-!
# Where the labels of bars start

A chart of ranked labels keeps a part of its width free for them. All of its labels end three
points left of its bars, so one that is wider starts further to the left, and it starts in the
bounds of the chart exactly if the free part is wide enough (`RankedPanel.labelsIn_iff`). On the
usual page this is so for all ports and for all addresses of four bytes. It is not so for all
addresses of sixteen bytes, of which the wider ones leave their chart, but never so far that they
reach the chart beside it (`Page.labelled_usual`).
-/

namespace TrafficSheet

theorem TextMetrics.width_measure (text : String) (size : ℚ) :
    (measure text size).width = advanceSum text * size / 1000 := by
  by_cases hempty : text.isEmpty
  · obtain rfl := String.isEmpty_iff.mp hempty
    norm_num [measure, advanceSum]
  · rw [measure, if_neg hempty, Scalar.ofNat_eq]
    norm_num

/-! ### The labels of bars -/

namespace Plot

variable {bounds area : Rect ℚ} {style : PlotStyle ℚ}

/-- Ten bars are high enough for labels of the usual size. -/
theorem barLabelSize_eq (hstyle : style.UsualSizes) (harea : AreaIn area bounds) {n : Nat}
    (hpos : 0 < n) (hle : n ≤ RankedList.limit) :
    barLabelSize style (area.height / n * (1.0 - barGap)) = 6 := by
  have hn : (0 : ℚ) < n := by exact_mod_cast hpos
  have hten : (n : ℚ) ≤ 10 := by exact_mod_cast hle
  have hheight := harea.height
  have hslot : 7.6 ≤ area.height / n := by
    rw [le_div_iff₀ hn]
    linarith
  rw [barLabelSize, Scalar.smaller_eq, Scalar.larger_eq, hstyle.yTick, barGap]
  refine min_eq_left (le_max_of_le_left ?_)
  linarith

/-- **Bars** have their labels in order, each ending at the same place. -/
theorem texts_bars (hstyle : style.UsualSizes) (harea : AreaIn area bounds)
    {entries : List Ranked} (hlength : entries.length ≤ RankedList.limit)
    (hpos : ∀ e ∈ entries, 0 < e.2) (color : Color ℚ) :
    Call.texts (bars area style entries color) =
      entries.map fun e => (area.x - 3 - 0.006 * TextMetrics.advanceSum e.1, e.1) := by
  rcases eq_or_ne entries [] with rfl | hne
  · rfl
  have hmost : (entries.map (·.2)).foldl max 0 ≠ 0 := by
    obtain ⟨first, hfirst⟩ := List.exists_mem_of_ne_nil entries hne
    obtain ⟨-, hall⟩ := WaterfallPanel.le_foldl_max Prod.snd entries 0
    rw [List.foldl_map]
    exact ((hpos first hfirst).trans_le (hall first hfirst)).ne'
  have hflat : Scalar.atMost area.height (0.0 : ℚ) ≠ true := by
    intro hle
    have hzero : area.height ≤ 0.0 := of_decide_eq_true hle
    linarith [harea.height]
  have hsize := barLabelSize_eq hstyle harea (List.length_pos_of_ne_nil hne) hlength
  -- A bar is drawn from its entry and its place; its label needs the entry only.
  have hlabels : (entries.map fun e => (area.x - 3 - 0.006 * TextMetrics.advanceSum e.1, e.1)) =
      entries.zipIdx.flatMap fun bar =>
        [(area.x - 3 - 0.006 * TextMetrics.advanceSum bar.1.1, bar.1.1)] := by
    rw [← List.map_eq_flatMap]
    conv_lhs => rw [← List.zipIdx_map_fst 0 entries]
    exact List.map_map
  rw [bars, if_neg (not_or.mpr ⟨hmost, hflat⟩), Call.texts, List.filterMap_flatMap, hlabels]
  refine List.flatMap_congr fun bar _ => ?_
  show [(area.x - (TextMetrics.measure bar.1.1 _).width - _, bar.1.1)] = _
  rw [Scalar.ofNat_eq, hsize, TextMetrics.width_measure]
  refine congrArg (fun x => [(x, bar.1.1)]) ?_
  ring

end Plot

/-! ### The labels of a panel -/

namespace RankedPanel

/-- The labels of a panel's bars, each with where it starts. -/
def barLabels {α : Type} [Scalar α] (bounds : Rect α) (panel : RankedPanel α) :
    List (α × String) :=
  Call.texts (Plot.bars (Plot.frameArea bounds panel.style) panel.style panel.list.entries
    panel.color)

variable {bounds : Rect ℚ} {panel : RankedPanel ℚ}

/-- All labels of a panel's bars start in its bounds. -/
def LabelsIn (bounds : Rect ℚ) (panel : RankedPanel ℚ) : Prop :=
  ∀ label ∈ panel.barLabels bounds, bounds.x ≤ label.1

/-- A panel has the usual font sizes and shows a few labels, each of which counts something. -/
structure Usual (panel : RankedPanel ℚ) : Prop where
  /-- The font sizes. -/
  sizes : panel.style.UsualSizes
  /-- There are ten labels at the most. -/
  length_le : panel.list.entries.length ≤ RankedList.limit
  /-- Every label has a bar. -/
  pos : ∀ e ∈ panel.list.entries, 0 < e.2

/-- The widest that a label may be to start in the bounds of its panel. -/
def labelRoom (bounds : Rect ℚ) (panel : RankedPanel ℚ) : ℚ :=
  bounds.width * panel.style.padLeftFactor - 3

theorem barLabels_eq (h : panel.Usual) (hbounds : bounds.UsualHeight) :
    panel.barLabels bounds = panel.list.entries.map fun e =>
      (bounds.x + panel.labelRoom bounds - 0.006 * TextMetrics.advanceSum e.1, e.1) := by
  have harea := Plot.areaIn_frameArea h.sizes hbounds
  have hroom : (Plot.frameArea bounds panel.style).x - 3 = bounds.x + panel.labelRoom bounds :=
    add_sub_assoc ..
  rw [barLabels, Plot.texts_bars h.sizes harea h.length_le h.pos, hroom]

/-- **Labels start in the bounds** of their panel exactly if none is too wide for that. -/
theorem labelsIn_iff (h : panel.Usual) (hbounds : bounds.UsualHeight) :
    panel.LabelsIn bounds ↔ ∀ e ∈ panel.list.entries,
      0.006 * (TextMetrics.advanceSum e.1 : ℚ) ≤ panel.labelRoom bounds := by
  rw [LabelsIn, barLabels_eq h hbounds, List.forall_mem_map]
  refine forall₂_congr fun e _ => ?_
  dsimp only
  constructor <;> intro hle <;> linarith

end RankedPanel

/-! ### How wide labels are -/

/-- An address has sixteen bytes only in a datagram of version 6. -/
theorem Packet.length_address? {p : Packet} {side : Side} {a : Bytes}
    (h : p.address? side = some a) :
    a.length = 4 ∨ a.length = 16 ∧ p.carriesIpv6 = true := by
  obtain ⟨d, hd, rfl⟩ := Option.map_eq_some_iff.mp h
  exact Datagram.length_address hd side

theorem Packet.port_lt {p : Packet} {s : Segment} (h : p.segment? = some s) (side : Side) :
    s.port side < 256 ^ 2 := by
  obtain ⟨d, -, hs⟩ := Option.bind_eq_some_iff.mp h
  rw [Datagram.segment?, Option.ite_none_right_eq_some] at hs
  exact Segment.port_lt hs.2 side

namespace AddressTree

variable {t : AddressTree} {addresses : List Bytes}

/-- What is listed of a tree are entries under their labels. -/
theorem Holds.exists_labelled (h : t.Holds addresses)
    (hlength : ∀ a ∈ addresses, a.length = 4 ∨ a.length = 16) {e : Ranked}
    (he : e ∈ t.ranked.entries) : ∃ entry ∈ t.entries, entry.labelled = e := by
  have hmem := t.tally.perm_ranking.mem_iff.mp (List.mem_of_mem_take he)
  exact List.mem_map.mp ((h.perm_tally hlength).mem_iff.mp hmem)

/-- The label of an entry is as wide as the family of its addresses allows. -/
theorem Holds.advanceSum_label_le (h : t.Holds addresses)
    (hlength : ∀ a ∈ addresses, a.length = 4 ∨ a.length = 16) {entry : AddressEntry}
    (hentry : entry ∈ t.entries) :
    ∃ a ∈ addresses, TextMetrics.advanceSum entry.label ≤ AddressLabel.widest a.length + 1946 := by
  obtain ⟨a, ha, hcovers, -⟩ := h.tight hentry 0
  have hpath := h.isPath hlength hentry
  have hfamily : entry.family ≤ 16 := by
    rcases hpath.known with hfour | hsixteen <;> omega
  refine ⟨a, ha, ?_⟩
  rw [hcovers.1]
  exact hpath.pathText.advanceSum_le hfamily

end AddressTree

/-- What is listed of a tally of ports are numbers of ports, with counts. -/
theorem Tally.exists_port (side : Side) (segments : List Segment) {limit : Nat} {e : Ranked}
    (he : e ∈ ((segments.foldl (countPort side) empty).ranked limit).entries) :
    0 < e.2 ∧ ∃ s ∈ segments, toString (s.port side) = e.1 := by
  rw [foldl_countPort] at he
  have hmem := List.mem_of_mem_take he
  constructor
  · refine count_pos (fun amount hamount => ?_) hmem
    obtain ⟨s, -, rfl⟩ := List.mem_map.mp hamount
    exact Nat.one_pos
  · have hlabel := Std.TreeMap.mem_iff_isSome_getElem?.mpr
      (Option.isSome_of_eq_some (mem_ranking.mp hmem))
    obtain ⟨amount, hamount, heq⟩ := List.mem_map.mp (mem_counts_ofList.mp hlabel)
    obtain ⟨s, hs, rfl⟩ := List.mem_map.mp hamount
    exact ⟨s, hs, heq⟩

namespace Page

/-! ### Two charts side by side -/

section Charts

variable {α : Type} [Scalar α] (p : Page α)

theorem list_addressPanel (side : Side) :
    (p.addressPanel side).list = p.report.topAddresses side := by
  cases side <;> rfl

theorem list_portPanel (side : Side) : (p.portPanel side).list = p.report.topPorts side := by
  cases side <;> rfl

theorem padLeftFactor_addressPanel (side : Side) :
    (p.addressPanel side).style.padLeftFactor = 0.45 := by
  cases side <;> rfl

theorem padLeftFactor_portPanel (side : Side) :
    (p.portPanel side).style.padLeftFactor = 0.2 := by
  cases side <;> rfl

/-- The bounds of the chart on one side, in a part of the page that has one on each. -/
def sideBounds (s : Stage) (side : Side) : Rect α where
  x := match side with
    | .source => 0.0
    | .destination => p.rightEdge
  y := p.start s
  width := p.halfWidth
  height := chartHeight

theorem drawn_isInfix (s : Stage) : p.drawn s <:+: p.calls := by
  obtain ⟨before, after, hall⟩ := List.append_of_mem (by cases s <;> decide : s ∈ Stage.all)
  rw [calls_eq_drawn, hall, List.flatMap_append, List.flatMap_cons]
  exact ⟨_, _, List.append_assoc ..⟩

/-- A pair of charts is drawn on the page, each chart in its bounds. -/
theorem draw_isInfix {s : Stage} {panel : Side → RankedPanel α}
    (h : p.stage s = p.pair (panel .source) (panel .destination)) (side : Side) :
    (panel side).draw (p.sideBounds s side) <:+: p.calls := by
  refine List.IsInfix.trans ?_ (p.drawn_isInfix s)
  rw [drawn, h, calls_pair_lists]
  cases side with
  | source => exact ⟨[], _, (List.append_assoc ..).symm⟩
  | destination => exact ⟨_, _, rfl⟩

end Charts

variable {p : Page ℚ} {packets : List Packet}

/-- Every label of a bar starts in the bounds of its chart. -/
def LabelsInRoom (p : Page ℚ) : Prop :=
  ∀ side, (p.addressPanel side).LabelsIn (p.sideBounds .addresses side) ∧
    (p.portPanel side).LabelsIn (p.sideBounds .ports side)

/-- Where the labels of bars start on a page about some packets. -/
structure Labelled (p : Page ℚ) (packets : List Packet) : Prop where
  /-- The charts of addresses are on the page. -/
  addressPanels : ∀ side,
    (p.addressPanel side).draw (p.sideBounds .addresses side) <:+: p.calls
  /-- The charts of ports are on the page. -/
  portPanels : ∀ side, (p.portPanel side).draw (p.sideBounds .ports side) <:+: p.calls
  /-- There is room of 95.982 points for an address. -/
  addressLabels : ∀ side, (p.addressPanel side).barLabels (p.sideBounds .addresses side) =
    (p.report.topAddresses side).entries.map fun e =>
      ((p.sideBounds .addresses side).x + 95.982 - 0.006 * TextMetrics.advanceSum e.1, e.1)
  /-- There is room of 40.992 points for a port. -/
  portLabels : ∀ side, (p.portPanel side).barLabels (p.sideBounds .ports side) =
    (p.report.topPorts side).entries.map fun e =>
      ((p.sideBounds .ports side).x + 40.992 - 0.006 * TextMetrics.advanceSum e.1, e.1)
  /-- All labels have room exactly if no listed address is wider than that. -/
  inRoom_iff : p.LabelsInRoom ↔
    ∀ side, ∀ e ∈ (p.report.topAddresses side).entries, TextMetrics.advanceSum e.1 ≤ 15997
  /-- Every port has room. -/
  ports : ∀ side, (p.portPanel side).LabelsIn (p.sideBounds .ports side)
  /-- Every address has room too where no packet carries a datagram of version 6. -/
  inRoom_of_four : (∀ packet ∈ packets, packet.carriesIpv6 = false) → p.LabelsInRoom
  /-- No address starts more than 34.122 points left of its chart. -/
  reach : ∀ side, ∀ label ∈ (p.addressPanel side).barLabels (p.sideBounds .addresses side),
    (p.sideBounds .addresses side).x - 34.122 ≤ label.1
  /-- So no address at the right reaches the chart at the left. -/
  addressesApart :
    ∀ label ∈ (p.addressPanel .destination).barLabels (p.sideBounds .addresses .destination),
      (p.sideBounds .addresses .source).right ≤ label.1
  /-- Neither does a port. -/
  portsApart : ∀ label ∈ (p.portPanel .destination).barLabels (p.sideBounds .ports .destination),
    (p.sideBounds .ports .source).right ≤ label.1

/-! ### Pages about packets -/

/-- The page has the usual width, and is about these packets. -/
structure Shows (p : Page ℚ) (packets : List Packet) : Prop where
  /-- The width of the content area. -/
  width : p.content.width = 549.9
  /-- The packets were counted. -/
  report : ∃ source m, p.report = (Report.empty source m).countAll packets

namespace Shows

theorem halfWidth_eq (h : p.Shows packets) : p.halfWidth = 219.96 := by
  rw [halfWidth, h.width]
  norm_num

theorem rightEdge_eq (h : p.Shows packets) : p.rightEdge = 329.94 := by
  rw [rightEdge, h.halfWidth_eq, h.width]
  norm_num

/-- The room for labels of a chart is a part of its width. -/
theorem labelRoom_sideBounds (h : p.Shows packets) (panel : RankedPanel ℚ) (s : Stage)
    (side : Side) :
    panel.labelRoom (p.sideBounds s side) = 219.96 * panel.style.padLeftFactor - 3 := by
  rw [← h.halfWidth_eq]
  rfl

/-! #### What is listed -/

/-- How wide listed addresses are: no wider than those of four bytes may be where no packet carries
a datagram of version 6. -/
theorem listed_addresses (h : p.Shows packets) (side : Side) :
    ∀ e ∈ (p.report.topAddresses side).entries, 0 < e.2 ∧ TextMetrics.advanceSum e.1 ≤ 21684 ∧
      ((∀ packet ∈ packets, packet.carriesIpv6 = false) → TextMetrics.advanceSum e.1 ≤ 9452) := by
  obtain ⟨source, m, hreport⟩ := h.report
  have hlength : ∀ a ∈ packets.filterMap (·.address? side), a.length = 4 ∨
      a.length = 16 ∧ ∃ packet ∈ packets, packet.carriesIpv6 = true := by
    intro a ha
    obtain ⟨packet, hpacket, haddress⟩ := List.mem_filterMap.mp ha
    exact (packet.length_address? haddress).imp_right fun h => ⟨h.1, packet, hpacket, h.2⟩
  have hknown : ∀ a ∈ packets.filterMap (·.address? side), a.length = 4 ∨ a.length = 16 :=
    fun a ha => (hlength a ha).imp_right And.left
  have htree := AddressTree.holds_addAll m (packets.filterMap (·.address? side))
  intro e he
  rw [hreport, Report.topAddresses, Report.addresses_run] at he
  obtain ⟨entry, hentry, rfl⟩ := htree.exists_labelled hknown he
  have hpos := (htree.standsFor hentry).2.pos
  obtain ⟨a, ha, hwide⟩ := htree.advanceSum_label_le hknown hentry
  rcases hlength a ha with hfour | ⟨hsixteen, packet, hpacket, hcarries⟩
  · rw [hfour] at hwide
    exact ⟨hpos, hwide.trans (by decide), fun _ => hwide⟩
  · rw [hsixteen] at hwide
    exact ⟨hpos, hwide, fun hnone => absurd hcarries (by simp [hnone packet hpacket])⟩

/-- Listed ports have five digits at the most. -/
theorem listed_ports (h : p.Shows packets) (side : Side) :
    ∀ e ∈ (p.report.topPorts side).entries, 0 < e.2 ∧ TextMetrics.advanceSum e.1 ≤ 2780 := by
  obtain ⟨source, m, hreport⟩ := h.report
  intro e he
  rw [hreport, Report.topPorts, Report.ports_run] at he
  obtain ⟨hpos, s, hs, hlabel⟩ := Tally.exists_port side _ he
  obtain ⟨packet, -, hsegment⟩ := List.mem_filterMap.mp hs
  have hport : s.port side < 10 ^ 5 := (packet.port_lt hsegment side).trans (by decide)
  rw [← hlabel]
  exact ⟨hpos, AddressLabel.advanceSum_toString_le (by decide) hport⟩

/-! #### Labels of addresses -/

theorem usual_addressPanel (h : p.Shows packets) (side : Side) : (p.addressPanel side).Usual where
  sizes := p.usualSizes_addressPanel side
  length_le := by
    rw [list_addressPanel]
    exact length_entries_le _
  pos e he := by
    rw [list_addressPanel] at he
    exact (h.listed_addresses side e he).1

theorem labelRoom_addressPanel (h : p.Shows packets) (side : Side) :
    (p.addressPanel side).labelRoom (p.sideBounds .addresses side) = 95.982 := by
  rw [h.labelRoom_sideBounds, padLeftFactor_addressPanel]
  norm_num

theorem barLabels_addressPanel (h : p.Shows packets) (side : Side) :
    (p.addressPanel side).barLabels (p.sideBounds .addresses side) =
      (p.report.topAddresses side).entries.map fun e =>
        ((p.sideBounds .addresses side).x + 95.982 - 0.006 * TextMetrics.advanceSum e.1, e.1) := by
  rw [RankedPanel.barLabels_eq (h.usual_addressPanel side) (usualHeight_chart rfl),
    h.labelRoom_addressPanel, list_addressPanel]

theorem labelsIn_addressPanel_iff (h : p.Shows packets) (side : Side) :
    (p.addressPanel side).LabelsIn (p.sideBounds .addresses side) ↔
      ∀ e ∈ (p.report.topAddresses side).entries, TextMetrics.advanceSum e.1 ≤ 15997 := by
  rw [RankedPanel.labelsIn_iff (h.usual_addressPanel side) (usualHeight_chart rfl),
    h.labelRoom_addressPanel, list_addressPanel]
  refine forall₂_congr fun e _ => ?_
  -- Widths are whole numbers, and 15998 is too wide by six thousandths of a point.
  constructor
  · intro hle
    by_contra hlt
    have hwide : (15998 : ℚ) ≤ TextMetrics.advanceSum e.1 := by exact_mod_cast not_le.mp hlt
    linarith
  · intro hle
    have hwide : (TextMetrics.advanceSum e.1 : ℚ) ≤ 15997 := by exact_mod_cast hle
    linarith

theorem reach_addressPanel (h : p.Shows packets) (side : Side) :
    ∀ label ∈ (p.addressPanel side).barLabels (p.sideBounds .addresses side),
      (p.sideBounds .addresses side).x - 34.122 ≤ label.1 := by
  rw [h.barLabels_addressPanel, List.forall_mem_map]
  intro e he
  have hwide : (TextMetrics.advanceSum e.1 : ℚ) ≤ 21684 := by
    exact_mod_cast (h.listed_addresses side e he).2.1
  dsimp only
  linarith

/-! #### Labels of ports -/

theorem usual_portPanel (h : p.Shows packets) (side : Side) : (p.portPanel side).Usual where
  sizes := p.usualSizes_portPanel side
  length_le := by
    rw [list_portPanel]
    exact length_entries_le _
  pos e he := by
    rw [list_portPanel] at he
    exact (h.listed_ports side e he).1

theorem labelRoom_portPanel (h : p.Shows packets) (side : Side) :
    (p.portPanel side).labelRoom (p.sideBounds .ports side) = 40.992 := by
  rw [h.labelRoom_sideBounds, padLeftFactor_portPanel]
  norm_num

theorem barLabels_portPanel (h : p.Shows packets) (side : Side) :
    (p.portPanel side).barLabels (p.sideBounds .ports side) =
      (p.report.topPorts side).entries.map fun e =>
        ((p.sideBounds .ports side).x + 40.992 - 0.006 * TextMetrics.advanceSum e.1, e.1) := by
  rw [RankedPanel.barLabels_eq (h.usual_portPanel side) (usualHeight_chart rfl),
    h.labelRoom_portPanel, list_portPanel]

theorem labelsIn_portPanel (h : p.Shows packets) (side : Side) :
    (p.portPanel side).LabelsIn (p.sideBounds .ports side) := by
  rw [RankedPanel.labelsIn_iff (h.usual_portPanel side) (usualHeight_chart rfl),
    h.labelRoom_portPanel, list_portPanel]
  intro e he
  have hwide : (TextMetrics.advanceSum e.1 : ℚ) ≤ 2780 := by
    exact_mod_cast (h.listed_ports side e he).2
  linarith

/-! #### All labels -/

theorem labelsInRoom_iff (h : p.Shows packets) : p.LabelsInRoom ↔
    ∀ side, ∀ e ∈ (p.report.topAddresses side).entries, TextMetrics.advanceSum e.1 ≤ 15997 := by
  refine forall_congr' fun side => ?_
  rw [h.labelsIn_addressPanel_iff, and_iff_left (h.labelsIn_portPanel side)]

/-- A label that does not start far left of the chart at the right does not reach the other. -/
theorem right_le_of_reach (h : p.Shows packets) {s : Stage} {x : ℚ}
    (hx : (p.sideBounds s .destination).x - 34.122 ≤ x) : (p.sideBounds s .source).right ≤ x := by
  have hleft : (p.sideBounds s .source).right = 0.0 + p.halfWidth := rfl
  have hright : (p.sideBounds s .destination).x = p.rightEdge := rfl
  rw [hright, h.rightEdge_eq] at hx
  rw [hleft, h.halfWidth_eq]
  linarith

theorem labelled (h : p.Shows packets) : p.Labelled packets where
  addressPanels := p.draw_isInfix rfl
  portPanels := p.draw_isInfix rfl
  addressLabels := h.barLabels_addressPanel
  portLabels := h.barLabels_portPanel
  inRoom_iff := h.labelsInRoom_iff
  ports := h.labelsIn_portPanel
  inRoom_of_four hnone := by
    refine h.labelsInRoom_iff.mpr fun side e he => ?_
    exact ((h.listed_addresses side e he).2.2 hnone).trans (by decide)
  reach := h.reach_addressPanel
  addressesApart label hlabel :=
    h.right_le_of_reach (h.reach_addressPanel .destination label hlabel)
  portsApart label hlabel := by
    have hroom := h.labelsIn_portPanel .destination label hlabel
    exact h.right_le_of_reach (by linarith)

end Shows

/-- The page that is made without other sizes has the usual width. -/
theorem shows_usual (n m : Nat) (filename source : String) (packets : List Packet)
    (generated : Timestamp) (platform : Platform) :
    let settings : Settings ℚ := { Settings.standard.withListed n with filename, addressLimit := m }
    Shows ⟨settings, (Report.empty source m).countAll packets, generated, settings.content,
      platform⟩ packets := by
  intro settings
  refine ⟨?_, source, m, rfl⟩
  norm_num [settings, Settings.content, Settings.withListed, Settings.standard,
    Settings.pageOfSize, Settings.marginFactor]

/-- **The labels of the usual page**, whatever was captured, however many labels are to be listed
and however many addresses are kept. Ports and addresses of four bytes have the room that they need.
An address of sixteen bytes has it if its characters are together no wider than 15.997 times the font
size; all others start left of their chart, and at the left side outside the content area. -/
theorem labelled_usual (n m : Nat) (filename source : String) (packets : List Packet)
    (generated : Timestamp) (platform : Platform) :
    let settings : Settings ℚ := { Settings.standard.withListed n with filename, addressLimit := m }
    Labelled ⟨settings, (Report.empty source m).countAll packets, generated, settings.content,
      platform⟩ packets :=
  (shows_usual n m filename source packets generated platform).labelled

/-- The address that one datagram of version 6 was sent from has eight groups of four digits, and
starts left of its chart and of the content area. -/
theorem not_labelsInRoom_groups :
    let label := "1111:2222:3333:4444:5555:6666:7777:8888"
    let packet : Packet := .ofFrame ⟨1, 0⟩ .raw [0x60, 0, 0, 0, 0, 0, 59, 64,
      0x11, 0x11, 0x22, 0x22, 0x33, 0x33, 0x44, 0x44, 0x55, 0x55, 0x66, 0x66, 0x77, 0x77, 0x88, 0x88,
      0, 0, 0, 0, 0, 0, 0, 0, 0, 0, 0, 0, 0, 0, 0, 2]
    let settings : Settings ℚ := .standard
    let p : Page ℚ := ⟨settings,
      (Report.empty "one datagram" AddressTree.defaultLimit).countAll [packet], ⟨0, 0⟩,
      settings.content, ⟨.stops, .universal⟩⟩
    (-22.446, label) ∈ (p.addressPanel .source).barLabels (p.sideBounds .addresses .source) ∧
      (p.sideBounds .addresses .source).x = 0 ∧ ¬p.LabelsInRoom := by
  intro label packet settings p
  have hshows : p.Shows [packet] :=
    shows_usual 3 AddressTree.defaultLimit "report.pdf" "one datagram" [packet] ⟨0, 0⟩
      ⟨.stops, .universal⟩
  have hentries : (p.report.topAddresses .source).entries = [(label, 1)] := by decide +kernel
  have hwide : TextMetrics.advanceSum label = 19738 := by decide
  have hx : (p.sideBounds .addresses .source).x = 0 := by
    show (0.0 : ℚ) = 0
    norm_num
  refine ⟨?_, hx, ?_⟩
  · rw [hshows.barLabels_addressPanel, hentries, List.map_singleton, List.mem_singleton, hwide, hx]
    norm_num
  · rw [hshows.labelsInRoom_iff]
    intro hroom
    have hle := hroom .source _ (hentries ▸ List.mem_singleton_self _)
    rw [hwide] at hle
    exact absurd hle (by decide)

end Page

end TrafficSheet
