import TrafficSheet.Proofs.Report.Components

/-!
# The range of times of a report

The earliest time of a range is the first one that was set, whatever came later; as long as none
was set, it is the last one. The latest time gives way only to a time that exceeds it in its
seconds and in its microseconds. So it need not be the largest of the times, nor the last: it is
one of them, or none yet, and none of them exceeds it (`TimeRange.Spans`). Only where every time
exceeds the one before is it the last one.
-/

namespace TrafficSheet

/-! ### Times that exceed others -/

namespace Timestamp

variable {t u v : Timestamp}

theorem Exceeds.trans (h : t.Exceeds u) (h' : u.Exceeds v) : t.Exceeds v :=
  ⟨h'.1.trans h.1, h'.2.trans h.2⟩

theorem not_exceeds_self (t : Timestamp) : ¬t.Exceeds t := fun h => Int.lt_irrefl _ h.1

end Timestamp

/-! ### What a range says of its times -/

namespace TimeRange

/-- The first time with a second that is not zero; the last time if there is none, and unset if
there are no times. -/
def firstSet (times : List Timestamp) : Timestamp :=
  ((times.find? (·.seconds ≠ 0)).or times.getLast?).getD .unset

/-- What the two ends of a range are among the times that it was extended by, one after another. -/
structure Spans (r : TimeRange) (times : List Timestamp) : Prop where
  /-- The earliest time is the first one that was set. -/
  earliest : r.earliest = firstSet times
  /-- The latest time is one of them, or none yet. -/
  latest_mem : r.latest = .unset ∨ r.latest ∈ times
  /-- None of them exceeds the latest. -/
  not_exceeded : ∀ t ∈ times, ¬t.Exceeds r.latest
  /-- Positive times of which each exceeds the one before end with the latest. -/
  latest_of_growing : (∀ t ∈ times, 0 < t.seconds ∧ 0 < t.micros) →
    times.IsChain (fun t next => next.Exceeds t) → ∀ last ∈ times.getLast?, r.latest = last

variable {r : TimeRange} {times : List Timestamp}

theorem latest_extend (r : TimeRange) (t : Timestamp) :
    (r.extend t).latest = if t.Exceeds r.latest then t else r.latest := rfl

theorem spans_empty : empty.Spans [] where
  earliest := rfl
  latest_mem := Or.inl rfl
  not_exceeded _ hmem := absurd hmem List.not_mem_nil
  latest_of_growing _ _ _ hlast := absurd hlast (Option.not_mem_none _)

/-- One more time is taken as long as none was set. -/
theorem firstSet_concat (times : List Timestamp) (t : Timestamp) :
    firstSet (times ++ [t]) = if (firstSet times).isUnset then t else firstSet times := by
  rw [firstSet, firstSet, List.find?_append, List.getLast?_concat]
  cases hfind : times.find? (·.seconds ≠ 0) with
  | some first =>
    have hset : first.isUnset = false := by
      simpa [Timestamp.isUnset] using List.find?_some hfind
    simp [hset]
  | none =>
    -- All seconds are zero so far, that of the last time included.
    have hunset : (times.getLast?.getD .unset).isUnset = true := by
      cases hlast : times.getLast? with
      | none => rfl
      | some last =>
        have hzero := List.find?_eq_none.mp hfind last (List.mem_of_getLast? hlast)
        simpa [Timestamp.isUnset] using hzero
    rw [Option.none_or, Option.none_or, if_pos hunset, List.find?_singleton]
    split_ifs <;> rfl

/-- A time that exceeds the last of growing times exceeds the latest. -/
theorem Spans.exceeds_latest (h : r.Spans times) {t : Timestamp}
    (hpositive : ∀ u ∈ times ++ [t], 0 < u.seconds ∧ 0 < u.micros)
    (hgrowing : (times ++ [t]).IsChain fun u next => next.Exceeds u) : t.Exceeds r.latest := by
  obtain ⟨hbefore, -, hnext⟩ := List.isChain_append.mp hgrowing
  rcases h.latest_mem with hunset | hmem
  · rw [hunset]
    exact hpositive t (List.mem_append_right _ (List.mem_singleton_self t))
  · have hlast := List.getLast?_eq_some_getLast (List.ne_nil_of_mem hmem)
    have heq := h.latest_of_growing (fun u hu => hpositive u (List.mem_append_left _ hu)) hbefore
      _ hlast
    rw [heq]
    exact hnext _ hlast t rfl

/-- **One more time** keeps what a range says. -/
theorem Spans.extend (h : r.Spans times) (t : Timestamp) : (r.extend t).Spans (times ++ [t]) where
  earliest := by
    rw [TimeRange.extend, firstSet_concat, h.earliest]
  latest_mem := by
    rw [latest_extend]
    split_ifs with hexceeds
    · exact Or.inr (List.mem_append_right _ (List.mem_singleton_self t))
    · exact h.latest_mem.imp_right (List.mem_append_left _)
  not_exceeded u hu := by
    rw [latest_extend]
    rcases List.mem_append.mp hu with hu | hu
    · split_ifs with hgrown
      · -- A time that exceeded the new latest one would have exceeded the one before.
        exact fun hexceeds => h.not_exceeded u hu (hexceeds.trans hgrown)
      · exact h.not_exceeded u hu
    · rw [List.mem_singleton.mp hu]
      split_ifs with hgrown
      · exact t.not_exceeds_self
      · exact hgrown
  latest_of_growing hpositive hgrowing last hlast := by
    have hexceeds := h.exceeds_latest hpositive hgrowing
    rw [List.getLast?_concat, Option.mem_some_iff] at hlast
    rw [latest_extend, if_pos hexceeds, hlast]

/-- **The range of some times** spans them. -/
theorem spans_foldl_extend (times : List Timestamp) : (times.foldl extend empty).Spans times := by
  induction times using List.reverseRecOn with
  | nil => exact spans_empty
  | append_singleton times t ih =>
    rw [List.foldl_append]
    exact ih.extend t

/-- Where the latest time changes, it grows in both parts. -/
theorem latest_foldl_extend (r : TimeRange) (times : List Timestamp) :
    (times.foldl extend r).latest = r.latest ∨ (times.foldl extend r).latest.Exceeds r.latest := by
  induction times generalizing r with
  | nil => exact Or.inl rfl
  | cons t times ih =>
    have hstep : (r.extend t).latest = r.latest ∨ (r.extend t).latest.Exceeds r.latest := by
      rw [latest_extend]
      split_ifs with hexceeds
      · exact Or.inr hexceeds
      · exact Or.inl rfl
    rcases hstep with heq | hgrown
    · rw [List.foldl_cons, ← heq]
      exact ih (r.extend t)
    · rcases ih (r.extend t) with heq | hgrown'
      · exact Or.inr (by rwa [List.foldl_cons, heq])
      · exact Or.inr (hgrown'.trans hgrown)

end TimeRange

/-! ### The range of a report -/

namespace Report

/-- **The range of times.** The earliest time is that of the first packet whose second is not zero;
as long as there is none, it is that of the last packet. The latest time is that of some packet, or
unset, and no packet's time exceeds it in both parts; whenever it changes both parts grow; and
where times are positive and grow in both parts from packet to packet, it is that of the last
packet. -/
theorem spans_times (source : String) (addressLimit : Nat) (packets : List Packet) :
    let r := (empty source addressLimit).countAll packets
    r.range.Spans (packets.map (·.time)) ∧
      ∀ more : List Packet, (r.countAll more).range.latest ≠ r.range.latest →
        (r.countAll more).range.latest.Exceeds r.range.latest := by
  intro r
  constructor
  · rw [range_countAll]
    exact TimeRange.spans_foldl_extend _
  · intro more hchanged
    rw [range_countAll] at hchanged ⊢
    exact (TimeRange.latest_foldl_extend _ _).resolve_left hchanged

/-- The second of an unset clock is passed over; a later second with fewer microseconds, and more
microseconds of an earlier second, leave the latest time as it is. -/
theorem spans_times_unsorted :
    let packet : Int → Int → Packet := fun seconds micros =>
      .ofFrame ⟨seconds, micros⟩ .raw []
    let r := (empty "" 1).countAll [packet 0 7, packet 5 3, packet 4 9, packet 8 2]
    let more := [packet 6 4]
    r.range.earliest = ⟨5, 3⟩ ∧ r.range.latest = ⟨5, 3⟩ ∧
      (r.countAll more).range.latest ≠ r.range.latest ∧
      (r.countAll more).range.latest.Exceeds r.range.latest ∧
      ((empty "" 1).countAll [packet 5 3, packet 6 4]).range.latest = ⟨6, 4⟩ := by
  intro packet r more
  obtain ⟨hspans, hgrows⟩ :=
    spans_times "" 1 [packet 0 7, packet 5 3, packet 4 9, packet 8 2]
  obtain ⟨hgrowing, -⟩ := spans_times "" 1 [packet 5 3, packet 6 4]
  have hchanged : (r.countAll more).range.latest ≠ r.range.latest := by decide
  exact ⟨hspans.earliest, by decide, hchanged, hgrows more hchanged,
    hgrowing.latest_of_growing (by decide) (by decide) _ rfl⟩

end Report

end TrafficSheet
