import Mathlib
import TrafficSheet.Page.Panels
import TrafficSheet.Proofs.Geometry

/-!
# From packets to dots

A waterfall keeps what it needs of the first packets, as many as its bound allows, and of those
that come after only their number (`keeps_countEach`, from the step `Keeps.count`). Its chart has
one dot for each packet that was kept, in the order in which they came: the color of what the
packet was sent to, and then a square (`dotted_dots`). The packets past the bound are not seen on
the chart, nor in how the others are scaled: it is the chart of a capture that ended at the bound
(`dots_of_first_packets`).
-/

namespace TrafficSheet

variable {α : Type} [Scalar α]

/-! ### What is kept -/

namespace Waterfall

/-- Counts packets one after another, each with the segment that is given for it. -/
def countEach (w : Waterfall) (entries : List (Packet × Option Segment)) : Waterfall :=
  entries.foldl (fun w entry => w.count entry.1 entry.2) w

/-- What a waterfall has of the packets that came: the samples of the first ones, and how many
were too many. -/
structure Keeps (w : Waterfall) (entries : List (Packet × Option Segment)) : Prop where
  /-- The first packets are kept in their order, each with the segment that it carried. -/
  samples : w.samples.toList = (entries.take w.limit).map fun e => Sample.ofPacket e.1 e.2
  /-- The others are counted. -/
  dropped : w.dropped = entries.length - min entries.length w.limit

theorem keeps_empty (limit : Nat) : (empty limit).Keeps [] := ⟨by simp [empty], rfl⟩

theorem Keeps.size {w : Waterfall} {entries : List (Packet × Option Segment)}
    (hw : w.Keeps entries) : w.samples.size = min entries.length w.limit := by
  rw [← Array.length_toList, hw.samples, List.length_map, List.length_take, Nat.min_comm]

/-- One more packet is kept if there is room, and else counted. -/
theorem Keeps.count {w : Waterfall} {entries : List (Packet × Option Segment)}
    (hw : w.Keeps entries) (p : Packet) (segment? : Option Segment) :
    (w.count p segment?).Keeps (entries ++ [(p, segment?)]) := by
  have hsize := hw.size
  have hdropped := hw.dropped
  rw [Waterfall.count]
  split_ifs with hfull
  · have hle : w.limit ≤ entries.length := by omega
    constructor
    · rw [List.take_append_of_le_length hle]
      exact hw.samples
    · show w.dropped + 1 = (entries ++ _).length - min (entries ++ _).length w.limit
      rw [List.length_append, List.length_singleton]
      omega
  · have hlt : entries.length < w.limit := by omega
    constructor
    · show (w.samples.push _).toList = _
      rw [Array.toList_push, hw.samples, List.take_of_length_le hlt.le,
        List.take_of_length_le (by simpa using hlt), List.map_append, List.map_singleton]
    · show w.dropped = (entries ++ _).length - min (entries ++ _).length w.limit
      rw [List.length_append, List.length_singleton]
      omega

theorem keeps_countEach (limit : Nat) (entries : List (Packet × Option Segment)) :
    ((empty limit).countEach entries).Keeps entries ∧
      ((empty limit).countEach entries).limit = limit := by
  -- From the right: the last packet is the one that was counted last.
  induction entries using List.reverseRecOn with
  | nil => exact ⟨keeps_empty limit, rfl⟩
  | append_singleton entries last ih =>
    obtain ⟨hkeeps, hlimit⟩ := ih
    rw [countEach, List.foldl_append]
    refine ⟨hkeeps.count last.1 last.2, Eq.trans ?_ hlimit⟩
    rw [List.foldl_cons, List.foldl_nil, Waterfall.count]
    split_ifs <;> rfl

theorem samples_countEach (limit : Nat) (entries : List (Packet × Option Segment)) :
    ((empty limit).countEach entries).samples.toList =
      (entries.take limit).map fun e => Sample.ofPacket e.1 e.2 := by
  obtain ⟨hkeeps, hlimit⟩ := keeps_countEach limit entries
  rw [hkeeps.samples, hlimit]

end Waterfall

/-! ### What is drawn -/

namespace WaterfallPanel

/-- The dots of packets, one after another: for each packet the color of what it was sent to, by
the port in its segment, and then one square. -/
inductive Dotted : List (Packet × Option Segment) → List (Call α) → Prop where
  /-- There is nothing without packets. -/
  | nil : Dotted [] []
  /-- The dot of the first packet comes first. -/
  | cons {p : Packet} {segment? : Option Segment} {entries : List (Packet × Option Segment)}
      {square : Rect α} {calls : List (Call α)} :
      square.width = dotSize → square.height = dotSize → Dotted entries calls →
      Dotted ((p, segment?) :: entries)
        (.color (Service.ofPort? (segment?.map (·.destinationPort))).color :: .fill square :: calls)

/-- Whatever the scale, there is one dot for each packet. -/
theorem dotted_flatMap (area : Rect α) (scale : Scale α)
    (entries : List (Packet × Option Segment)) :
    Dotted entries ((entries.map fun e => Sample.ofPacket e.1 e.2).flatMap fun s =>
      [.color s.service.color, .fill (dot area scale s)]) := by
  induction entries with
  | nil => exact .nil
  | cons e entries ih => exact .cons rfl rfl ih

theorem dotted_dots (area : Rect α) (entries : List (Packet × Option Segment)) :
    Dotted entries (dots area (entries.map fun e => Sample.ofPacket e.1 e.2)) := by
  cases entries with
  | nil => exact .nil
  | cons e entries => exact dotted_flatMap area _ (e :: entries)

/-- An area that has a width and a height, both above zero. -/
structure HasArea (area : Rect α) : Prop where
  /-- The width is above zero. -/
  width : Scalar.atMost area.width (0.0 : α) = false
  /-- The height is above zero. -/
  height : Scalar.atMost area.height (0.0 : α) = false

/-- In floating point it is enough that both are above zero. -/
theorem hasArea_of_pos {area : Rect Float} (hwidth : 0.0 < area.width)
    (hheight : 0.0 < area.height) : HasArea area :=
  ⟨Scalar.atMost_zero_of_zero_lt hwidth, Scalar.atMost_zero_of_zero_lt hheight⟩

theorem draw_of_hasArea {bounds : Rect α} {style : PlotStyle α}
    (h : HasArea (Plot.frameArea bounds style)) (w : Waterfall) :
    draw bounds style w =
      Plot.frame bounds style ++ dots (Plot.frameArea bounds style) w.samples.toList := by
  rw [draw, h.width, h.height]
  rfl

/-- **From the stream to the dots.** After any packets the samples are those of the first ones, up
to the bound, and the others are dropped. A chart whose plot has an area shows its frame and one
dot for each packet that was kept; and it is the chart of these packets alone. -/
theorem dots_of_first_packets (limit : Nat) (entries : List (Packet × Option Segment))
    (bounds : Rect α) (style : PlotStyle α) (harea : HasArea (Plot.frameArea bounds style)) :
    let kept := entries.take (min entries.length limit)
    let w := (Waterfall.empty limit).countEach entries
    w.samples.toList = kept.map (fun e => Sample.ofPacket e.1 e.2) ∧
    w.dropped = entries.length - min entries.length limit ∧
    (∃ calls, draw bounds style w = Plot.frame bounds style ++ calls ∧ Dotted kept calls) ∧
    draw bounds style w = draw bounds style ((Waterfall.empty limit).countEach kept) := by
  intro kept w
  obtain ⟨hkeeps, hlimit⟩ := Waterfall.keeps_countEach limit entries
  have hkept : kept = entries.take limit := by
    rw [List.take_eq_take_min (i := limit), Nat.min_comm]
  have hsamples : w.samples.toList = kept.map fun e => Sample.ofPacket e.1 e.2 := by
    rw [hkept]
    exact Waterfall.samples_countEach limit entries
  have hagain :
      ((Waterfall.empty limit).countEach kept).samples.toList = w.samples.toList := by
    rw [Waterfall.samples_countEach, hsamples, hkept, List.take_take, Nat.min_self]
  refine ⟨hsamples, hlimit ▸ hkeeps.dropped, ⟨_, draw_of_hasArea harea w, ?_⟩, ?_⟩
  · rw [hsamples]
    exact dotted_dots _ kept
  · rw [draw_of_hasArea harea, draw_of_hasArea harea, hagain]

/-- Three packets in a waterfall for two: one to a web server, one without a segment, and one, much
later and longer, that is dropped. -/
theorem dots_of_first_packets_two :
    let packet : Int → Bytes → Packet := fun second frame =>
      .ofFrame ⟨second, 0⟩ .ethernet frame
    let entries : List (Packet × Option Segment) :=
      [(packet 10 [1, 2, 3], some ⟨5000, 443, 20, []⟩), (packet 20 [1], none),
        (packet 90 [1, 2, 3, 4, 5], some ⟨5000, 22, 20, []⟩)]
    let bounds : Rect Float := ⟨0.0, 0.0, 300.0, 100.0⟩
    let area := Plot.frameArea bounds style
    let w := (Waterfall.empty 2).countEach entries
    0.0 < area.width ∧ 0.0 < area.height ∧ w.dropped = 1 ∧
      ∃ first second : Rect Float, draw bounds style w =
        Plot.frame bounds style ++ [.color .blue, .fill first, .color .gray, .fill second] := by
  intro packet entries bounds area w
  have hwidth : 0.0 < area.width := by decide
  have hheight : 0.0 < area.height := by decide
  obtain ⟨-, hdropped, ⟨calls, hdraw, hdots⟩, -⟩ :=
    dots_of_first_packets 2 entries bounds style (hasArea_of_pos hwidth hheight)
  have hkept : Dotted
      [(packet 10 [1, 2, 3], some ⟨5000, 443, 20, []⟩), (packet 20 [1], none)] calls := hdots
  cases hkept with
  | @cons _ _ _ first _ _ _ hrest =>
    cases hrest with
    | @cons _ _ _ second _ _ _ hnil =>
      cases hnil
      exact ⟨hwidth, hheight, hdropped, first, second, hdraw⟩

end WaterfallPanel

end TrafficSheet
