import TrafficSheet.Page.Basic
import TrafficSheet.Proofs.Bandwidth.Words
import TrafficSheet.Proofs.Report.Components

/-!
# How far the drawing of a page gets

A page is drawn part by part. Only the chart of volume over time can stop the drawing, where the
slots of the chart cannot be computed; its frame is drawn by then, and the header above it. So a
page is drawn to its end exactly if there are not too many seconds for the slots
(`Page.ends_iff_fits`), and then it is what its parts draw one below the other (`Page.run_of_fits`).

## Not proved

What the machine shows of a page of which the drawing stopped is not formalized, only what was drawn
by then.
-/

namespace TrafficSheet

variable {α : Type}

/-! ### What a flow draws, part by part -/

namespace Flow

variable {ι : Type} [DecidableEq ι] {flow : ι → Flow α} {l : List ι}

/-- Where a part of a stack starts: after all parts before it. -/
def startIn (flow : ι → Flow α) (l : List ι) (i : ι) (cursor : α) : α :=
  (stack ((l.takeWhile (· != i)).map flow) cursor).2

/-- A stack of different parts draws each of them from its start. -/
theorem calls_stack (h : l.Nodup) (cursor : α) :
    (stack (l.map flow) cursor).1 = l.flatMap fun i => (flow i (startIn flow l i cursor)).1 := by
  induction l generalizing cursor with
  | nil => rfl
  | cons first l ih =>
    obtain ⟨hfirst, hnodup⟩ := List.nodup_cons.mp h
    have hstep : (stack ((first :: l).map flow) cursor).1 =
        (flow first cursor).1 ++ (stack (l.map flow) (flow first cursor).2).1 := rfl
    rw [hstep, ih hnodup, List.flatMap_cons, startIn, List.takeWhile_cons_of_neg (by simp)]
    refine congrArg _ (List.flatMap_congr fun i hi => ?_)
    have hne : first ≠ i := fun heq => hfirst (heq ▸ hi)
    rw [startIn, startIn, List.takeWhile_cons_of_pos (by simpa using hne)]
    rfl

end Flow

namespace BandwidthPanel

variable {platform : Platform} {b : Bandwidth}

theorem abort?_eq_none_iff :
    abort? platform b = none ↔
      ∃ volumes, b.binsInWords platform.overflow columnLimit = .ok volumes := by
  rw [abort?]
  cases b.binsInWords platform.overflow columnLimit <;> simp

theorem abort?_of_fits (h : b.Fits platform.overflow) : abort? platform b = none :=
  abort?_eq_none_iff.mpr (Bandwidth.exists_slots_of_fits h (by decide))

theorem fits_of_abort? (hwords : b.InWords) (h : abort? platform b = none) :
    b.Fits platform.overflow :=
  (Bandwidth.exists_slots_iff hwords (by decide)).mp (abort?_eq_none_iff.mp h)

/-- Where the slots cannot be computed, the chart is its frame. -/
theorem draw_of_abort? [Scalar α] {reason : Abort} (h : abort? platform b = some reason)
    (bounds : Rect α) (style : PlotStyle α) :
    draw bounds style platform b = Plot.frame bounds style := by
  rw [abort?] at h
  rw [draw]
  cases hslots : b.binsInWords platform.overflow columnLimit with
  | error => exact List.append_nil _
  | ok => simp [hslots] at h

end BandwidthPanel

namespace Page

variable [Scalar α] (p : Page α)

/-! ### The parts -/

/-- The calls that draw a part of the page, in its place. -/
def drawn (s : Stage) : List (Call α) := (p.stage s (p.start s)).1

/-- The page is drawn part by part. -/
theorem calls_eq_drawn : p.calls = Stage.all.flatMap p.drawn :=
  Flow.calls_stack (by decide) 0.0

/-- A chart has a frame, if nothing else. -/
theorem drawn_waterfall_ne_nil : p.drawn .waterfall ≠ [] := List.cons_ne_nil _ _

/-! ### The run -/

/-- There are not too many seconds for the slots of the chart of volume over time. -/
def Fits : Prop := p.report.bandwidth.Fits p.platform.overflow

/-- Parts that are drawn to their ends are drawn one below the other. -/
theorem runFrom_eq {stages : List Stage} (h : ∀ s ∈ stages, p.abort? s = none) (cursor : α) :
    p.runFrom stages cursor =
      ((Flow.stack (stages.map p.stage) cursor).1, .ok (Flow.stack (stages.map p.stage) cursor).2) := by
  induction stages generalizing cursor with
  | nil => rfl
  | cons s stages ih =>
    obtain ⟨hfirst, hothers⟩ := List.forall_mem_cons.mp h
    rw [runFrom, hfirst]
    dsimp only
    rw [ih hothers]
    rfl

/-- **A page that fits** is drawn to its end. -/
theorem run_of_fits (h : p.Fits) : p.run = (p.calls, .ok p.bottom) := by
  refine p.runFrom_eq (fun s _ => ?_) 0.0
  cases s with
  | bandwidth => exact BandwidthPanel.abort?_of_fits h
  | header | map | waterfall | addresses | ports => rfl

/-- Of a page that does not fit, the header is drawn and the frame below it. -/
theorem run_of_abort? {reason : Abort} (h : p.abort? .bandwidth = some reason) :
    p.run = (p.drawn .header ++ p.drawn .bandwidth, .error reason) := by
  have hheader : p.abort? .header = none := rfl
  rw [run, Stage.all, runFrom, hheader]
  dsimp only
  rw [runFrom, h]
  rfl

/-- The header is drawn first, also of a page that does not fit. -/
theorem drawn_header_prefix : p.drawn .header <+: p.run.1 := by
  cases h : p.abort? .bandwidth with
  | some reason =>
    rw [p.run_of_abort? h]
    exact List.prefix_append ..
  | none =>
    have hheader : p.abort? .header = none := rfl
    rw [run, Stage.all, runFrom, hheader]
    exact List.prefix_append ..

variable {p}

/-- Of a page that does not fit, not all parts are drawn. -/
theorem run_ne_of_abort? {reason : Abort} (h : p.abort? .bandwidth = some reason) :
    p.run.1 ≠ Stage.all.flatMap p.drawn := by
  rw [p.run_of_abort? h]
  intro hall
  have hlength := congrArg List.length hall
  have hpos := List.length_pos_of_ne_nil p.drawn_waterfall_ne_nil
  simp only [Stage.all, List.flatMap_cons, List.length_append] at hlength
  omega

omit [Scalar α] in
theorem fits_iff_abort? (hwords : p.report.bandwidth.InWords) :
    p.Fits ↔ p.abort? .bandwidth = none :=
  ⟨BandwidthPanel.abort?_of_fits, BandwidthPanel.fits_of_abort? hwords⟩

/-- **A page is drawn to its end** exactly if it fits. -/
theorem ends_iff_fits (hwords : p.report.bandwidth.InWords) :
    (∃ bottom, p.run.2 = .ok bottom) ↔ p.Fits := by
  refine ⟨?_, fun h => ⟨p.bottom, congrArg Prod.snd (p.run_of_fits h)⟩⟩
  rintro ⟨bottom, hbottom⟩
  rw [fits_iff_abort? hwords]
  cases h : p.abort? .bandwidth with
  | none => rfl
  | some reason =>
    rw [p.run_of_abort? h] at hbottom
    cases hbottom

/-- **All parts are drawn** exactly if the page fits. -/
theorem draws_all_iff_fits (hwords : p.report.bandwidth.InWords) :
    p.run.1 = Stage.all.flatMap p.drawn ↔ p.Fits := by
  refine ⟨fun hall => ?_, fun h => (congrArg Prod.fst (p.run_of_fits h)).trans p.calls_eq_drawn⟩
  rw [fits_iff_abort? hwords]
  cases h : p.abort? .bandwidth with
  | none => rfl
  | some reason => exact absurd hall (run_ne_of_abort? h)

end Page

/-! ### Packets that are too far apart -/

/-- Two packets, in the first second and in the last one that a word can hold. -/
def Packet.farApart : List Packet :=
  [.ofFrame ⟨-0x8000000000000000, 0⟩ .raw [0x45], .ofFrame ⟨0x7fffffffffffffff, 0⟩ .raw [0x45]]

namespace Report

variable (source : String) (addressLimit : Nat)

/-- The seconds of packets in words are words. -/
theorem inWords_countAll {packets : List Packet} (h : ∀ p ∈ packets, p.time.InWords) :
    ((empty source addressLimit).countAll packets).bandwidth.InWords := by
  rw [bandwidth_countAll, Bandwidth.countAll_eq]
  refine Bandwidth.inWords_countEach fun e he => ?_
  obtain ⟨p, hp, rfl⟩ := List.mem_map.mp he
  exact h p hp

/-- Packets that are few enough seconds apart fit. -/
theorem fits_countAll {o : Overflow} {packets : List Packet} (least : Int) (h : ∀ p ∈ packets,
      least ≤ p.time.seconds ∧ p.time.seconds < least + 0x7fffffffffffffff) :
    ((empty source addressLimit).countAll packets).bandwidth.Fits o := by
  rw [bandwidth_countAll, Bandwidth.countAll_eq]
  refine Bandwidth.fits_countEach least fun e he => ?_
  obtain ⟨p, hp, rfl⟩ := List.mem_map.mp he
  exact h p hp

theorem inWords_farApart :
    ((empty source addressLimit).countAll Packet.farApart).bandwidth.InWords :=
  inWords_countAll source addressLimit (by decide)

/-- They are too far apart on every machine. -/
theorem not_fits_farApart (o : Overflow) :
    ¬((empty source addressLimit).countAll Packet.farApart).bandwidth.Fits o := by
  have hspan : ((empty source addressLimit).countAll Packet.farApart).bandwidth.span? =
      some (-0x8000000000000000, 0x7fffffffffffffff) := by
    rw [bandwidth_countAll]
    cbv
  intro h
  have hlt := h _ hspan
  revert hlt
  cases o <;> decide

end Report

end TrafficSheet
