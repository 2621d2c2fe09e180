import TrafficSheet.Proofs.Bandwidth.Totals

/-!
# The slots of a chart over time

For a chart the seconds from the first to the last are divided into slots. Division is exact:
every second with traffic has a slot (`slotOf_lt`), the seconds of a slot follow each other
(`secondsOf_eq_Ico`), slots differ by one second at most (`card_secondsOf`), and what the
slots have together is what was counted (`sum_bins`). `Divides` is all that is known of the
slots; it holds after counting any packets (`divides_countEach`).
-/

namespace TrafficSheet

section Amounts

variable {κ M : Type} [AddCommMonoid M]

/-- **A cell** that amounts are put into has, besides what it had, the sum of its own. -/
theorem getElem?_foldl_modify (cell : κ → Nat) (entries : List (κ × M)) (filled : Array M)
    (j : Nat) :
    (entries.foldl (fun filled entry => filled.modify (cell entry.1) (· + entry.2)) filled)[j]? =
      filled[j]?.map (· + ((entries.filter fun entry => cell entry.1 = j).map (·.2)).sum) := by
  induction entries generalizing filled with
  | nil => simp
  | cons entry entries ih =>
    rw [List.foldl_cons, ih, Array.getElem?_modify]
    by_cases hcell : cell entry.1 = j
    · rw [if_pos hcell, List.filter_cons_of_pos (by simpa using hcell), Option.map_map]
      refine congrArg (Option.map · _) (funext fun amount => ?_)
      simp [add_assoc]
    · rw [if_neg hcell, List.filter_cons_of_neg (by simpa using hcell)]

end Amounts

namespace Volume

/-- No more bytes were in packets with a segment than in all packets. -/
def Sound (v : Volume) : Prop := v.segmentBytes ≤ v.bytes

theorem sound_ofPacket (p : Packet) (segment? : Option Segment) :
    (ofPacket p segment?).Sound := by
  unfold Sound ofPacket
  dsimp only
  split_ifs
  · exact le_rfl
  · exact Nat.zero_le _

theorem sound_zero : (0 : Volume).Sound := le_rfl

theorem Sound.add {v w : Volume} (hv : v.Sound) (hw : w.Sound) : (v + w).Sound :=
  Nat.add_le_add hv hw

end Volume

namespace Bandwidth

variable {b : Bandwidth} {first last second : Int} {entries : List (Packet × Option Segment)}

/-! ### What a second had -/

/-- The traffic of a second; none if nothing was captured in it. -/
def inSecond (b : Bandwidth) (second : Int) : Volume := b.seconds[second]?.getD 0

theorem inSecond_of_not_mem (h : second ∉ b.seconds) : b.inSecond second = 0 := by
  rw [inSecond, Std.TreeMap.getElem?_eq_none h, Option.getD_none]

theorem mem_seconds_countEach :
    second ∈ (empty.countEach entries).seconds ↔ ∃ e ∈ entries, e.1.time.seconds = second := by
  rw [Std.TreeMap.mem_iff_isSome_getElem?, seconds_countEach, getElem?_foldl_addAt, List.map_map]
  split_ifs with hmem
  · simpa using hmem
  · simpa using hmem

/-- A second had what its packets had. -/
theorem inSecond_countEach (entries : List (Packet × Option Segment)) (second : Int) :
    (empty.countEach entries).inSecond second =
      ((entries.filter (·.1.time.seconds = second)).map fun e => Volume.ofPacket e.1 e.2).sum := by
  rw [inSecond, seconds_countEach, getElem?_foldl_addAt, List.filter_map, List.map_map,
    List.map_map]
  split_ifs with hmem
  · rfl
  · have hnone : entries.filter (·.1.time.seconds = second) = [] := by
      refine List.filter_eq_nil_iff.mpr fun e he heq => hmem ?_
      exact List.mem_map.mpr ⟨e, he, of_decide_eq_true heq⟩
    rw [hnone]
    rfl

theorem sound_inSecond_countEach (second : Int) :
    ((empty.countEach entries).inSecond second).Sound := by
  rw [inSecond_countEach]
  refine List.sum_induction Volume.Sound ?_ Volume.sound_zero ?_
  · exact fun _ _ hv hw => hv.add hw
  · intro v hv
    obtain ⟨e, -, rfl⟩ := List.mem_map.mp hv
    exact Volume.sound_ofPacket e.1 e.2

/-- A second that is known had a packet. -/
theorem packets_inSecond_countEach (h : second ∈ (empty.countEach entries).seconds) :
    1 ≤ ((empty.countEach entries).inSecond second).packets := by
  obtain ⟨e, he, htime⟩ := mem_seconds_countEach.mp h
  rw [inSecond_countEach, Volume.addsUp_packets.sum, List.map_map]
  refine List.single_le_sum (fun _ _ => Nat.zero_le _) _ (List.mem_map.mpr ⟨e, ?_, rfl⟩)
  exact List.mem_filter.mpr ⟨he, decide_eq_true htime⟩

/-! ### The first and the last second -/

theorem span?_eq_some_iff :
    b.span? = some (first, last) ↔
      IsLeast {second | second ∈ b.seconds} first ∧
        IsGreatest {second | second ∈ b.seconds} last := by
  have hleast : b.seconds.minKey? = some first ↔ IsLeast {second | second ∈ b.seconds} first := by
    rw [Std.TreeMap.minKey?_eq_some_iff_mem_and_forall]
    simp only [Std.isLE_compare]
    rfl
  have hgreatest :
      b.seconds.maxKey? = some last ↔ IsGreatest {second | second ∈ b.seconds} last := by
    rw [Std.TreeMap.maxKey?_eq_some_iff_mem_and_forall]
    simp only [Std.isLE_compare]
    rfl
  rw [← hleast, ← hgreatest, span?]
  cases b.seconds.minKey? <;> cases b.seconds.maxKey? <;> simp

theorem span?_eq_none_iff : b.span? = none ↔ b.seconds.isEmpty = true := by
  rw [span?]
  cases hempty : b.seconds.isEmpty with
  | true => simp [Std.TreeMap.minKey?_eq_none_iff.mpr hempty]
  | false =>
    have hmin := Std.TreeMap.isSome_minKey?_iff_isEmpty_eq_false.mpr hempty
    have hmax := Std.TreeMap.isSome_maxKey?_iff_isEmpty_eq_false.mpr hempty
    obtain ⟨first, hfirst⟩ := Option.isSome_iff_exists.mp hmin
    obtain ⟨last, hlast⟩ := Option.isSome_iff_exists.mp hmax
    simp [hfirst, hlast]

theorem span?_countEach_eq_none_iff : (empty.countEach entries).span? = none ↔ entries = [] := by
  rw [span?_eq_none_iff, Std.TreeMap.isEmpty_iff_forall_not_mem]
  simp only [mem_seconds_countEach, not_exists, not_and]
  constructor
  · intro h
    refine List.eq_nil_iff_forall_not_mem.mpr fun e he => ?_
    exact h e.1.time.seconds e he rfl
  · rintro rfl _ e he
    exact absurd he List.not_mem_nil

theorem first_le_last (h : b.span? = some (first, last)) : first ≤ last := by
  obtain ⟨hfirst, hlast⟩ := span?_eq_some_iff.mp h
  exact hfirst.2 hlast.1

/-! ### Sums over seconds -/

/-- The amounts of some seconds, added over all seconds from the first to the last. -/
theorem sum_filter_toList (hspan : b.span? = some (first, last)) (p : Int → Prop)
    [DecidablePred p] :
    ((b.seconds.toList.filter fun entry => p entry.1).map (·.2)).sum =
      ∑ second ∈ Finset.Icc first last with p second, b.inSecond second := by
  obtain ⟨hfirst, hlast⟩ := span?_eq_some_iff.mp hspan
  have hvalues : (b.seconds.toList.filter fun entry => p entry.1).map (·.2) =
      (b.seconds.keys.filter (p ·)).map b.inSecond := by
    rw [← Std.TreeMap.map_fst_toList_eq_keys, List.filter_map, List.map_map]
    refine List.map_congr_left fun entry hentry => ?_
    have hmem := Std.TreeMap.mem_toList_iff_getElem?_eq_some.mp (List.mem_filter.mp hentry).1
    rw [Function.comp_apply, inSecond, hmem, Option.getD_some]
  rw [hvalues, ← List.sum_toFinset _ (Std.TreeMap.nodup_keys.filter _)]
  refine Finset.sum_subset (fun second hsecond => ?_) fun second hsecond hnot => ?_
  · simp only [List.mem_toFinset, List.mem_filter, Std.TreeMap.mem_keys, decide_eq_true_eq]
      at hsecond
    simp [hfirst.2 hsecond.1, hlast.2 hsecond.1, hsecond.2]
  · refine inSecond_of_not_mem fun hmem => hnot ?_
    simp [Std.TreeMap.mem_keys, hmem, (Finset.mem_filter.mp hsecond).2]

theorem sum_inSecond (hspan : b.span? = some (first, last)) (hb : b.Balanced) :
    ∑ second ∈ Finset.Icc first last, b.inSecond second = b.totals := by
  have hall := sum_filter_toList hspan fun _ => True
  rw [Finset.filter_true] at hall
  rw [← hall, ← hb, sumOver]
  simp

/-! ### Which seconds fall into a slot -/

/-- How many seconds there are from the first to the last. -/
def covered (first last : Int) : Nat := (last - first + 1).toNat

theorem covered_eq (hle : first ≤ last) : (covered first last : Int) = last - first + 1 :=
  Int.toNat_of_nonneg (by omega)

/-- The seconds from the first to the last that fall into a slot. -/
noncomputable def secondsOf (first last : Int) (slots j : Nat) : Finset Int :=
  {second ∈ Finset.Icc first last | (second - first) * slots / (last - first + 1) = j}

/-- Where a slot starts: the first second that falls into it. -/
def edge (first : Int) (covered slots j : Nat) : Int := first + (j * covered ⌈/⌉ slots : Nat)

variable {slots j : Nat}

/-- A slot is found by dividing the seconds that passed. -/
theorem slotOf_eq (hle : first ≤ last) (hsecond : first ≤ second) :
    (slotOf first (covered first last) slots second : Int) =
      (second - first) * slots / (last - first + 1) := by
  rw [slotOf, Int.natCast_ediv, Int.natCast_mul, covered_eq hle, Int.toNat_of_nonneg (by omega)]

theorem mem_secondsOf (hle : first ≤ last) :
    second ∈ secondsOf first last slots j ↔
      (first ≤ second ∧ second ≤ last) ∧ slotOf first (covered first last) slots second = j := by
  rw [secondsOf, Finset.mem_filter, Finset.mem_Icc]
  refine and_congr_right fun hsecond => ?_
  rw [← slotOf_eq hle hsecond.1, Nat.cast_inj]

/-- **No second is left out.** -/
theorem slotOf_lt (hpos : 0 < slots) (hfirst : first ≤ second) (hlast : second ≤ last) :
    slotOf first (covered first last) slots second < slots := by
  have hlt : (second - first).toNat < covered first last := by
    rw [covered]
    omega
  rw [slotOf, Nat.div_lt_iff_lt_mul (by omega), Nat.mul_comm slots]
  exact Nat.mul_lt_mul_of_pos_right hlt hpos

theorem edge_zero {total : Nat} : edge first total slots 0 = first := by
  simp [edge]

theorem edge_slots {total : Nat} (hpos : 0 < slots) :
    edge first total slots slots = first + total := by
  rw [edge, ← smul_eq_mul, smul_ceilDiv hpos]

theorem edge_mono (first : Int) (total : Nat) {i : Nat} (hpos : 0 < slots) (hle : i ≤ j) :
    edge first total slots i ≤ edge first total slots j := by
  rw [edge, edge, Int.add_le_add_iff_left, Nat.cast_le, ceilDiv_le_iff_le_smul hpos]
  exact (Nat.mul_le_mul_right total hle).trans (le_smul_ceilDiv hpos)

/-- A second falls into the slot that starts last before it. -/
theorem slotOf_eq_iff {total : Nat} (hpos : 0 < slots) (htotal : 0 < total)
    (hle : first ≤ second) :
    slotOf first total slots second = j ↔
      edge first total slots j ≤ second ∧ second < edge first total slots (j + 1) := by
  obtain ⟨passed, rfl⟩ : ∃ passed : Nat, second = first + passed :=
    ⟨(second - first).toNat, by omega⟩
  have hpassed : (first + (passed : Int) - first).toNat = passed := by omega
  have hedge : ∀ i, edge first total slots i ≤ first + passed ↔ i * total ≤ slots * passed := by
    intro i
    rw [edge, Int.add_le_add_iff_left, Nat.cast_le, ceilDiv_le_iff_le_mul hpos]
  rw [← not_le, hedge, hedge, slotOf, hpassed, Nat.div_eq_iff htotal, Nat.succ_mul]
  rw [Nat.mul_comm passed]
  omega

/-- **The seconds of a slot** follow each other. -/
theorem secondsOf_eq_Ico (hle : first ≤ last) (hj : j < slots) :
    secondsOf first last slots j =
      Finset.Ico (edge first (covered first last) slots j)
        (edge first (covered first last) slots (j + 1)) := by
  have hpos : 0 < slots := Nat.zero_lt_of_lt hj
  have hcovered := covered_eq hle
  have hlower := edge_mono first (covered first last) hpos (Nat.zero_le j)
  have hupper := edge_mono first (covered first last) hpos (Nat.add_one_le_iff.mpr hj)
  rw [edge_zero] at hlower
  rw [edge_slots hpos, hcovered] at hupper
  ext second
  rw [mem_secondsOf hle, Finset.mem_Ico]
  constructor
  · rintro ⟨⟨hfirst, -⟩, hslot⟩
    exact (slotOf_eq_iff hpos (by omega) hfirst).mp hslot
  · rintro ⟨hstart, hend⟩
    have hfirst : first ≤ second := by omega
    exact ⟨⟨hfirst, by omega⟩, (slotOf_eq_iff hpos (by omega) hfirst).mpr ⟨hstart, hend⟩⟩

theorem edge_succ_sub (first : Int) (total : Nat) (hpos : 0 < slots) (j : Nat) :
    edge first total slots (j + 1) - edge first total slots j = (total / slots : Nat) ∨
      edge first total slots (j + 1) - edge first total slots j = (total ⌈/⌉ slots : Nat) := by
  -- Each quotient is compared with the others after multiplying by the number of slots.
  have hle : ∀ a, a ≤ slots * (a ⌈/⌉ slots) := fun a => le_smul_ceilDiv hpos
  have hlt : ∀ a, slots * (a ⌈/⌉ slots) < a + slots := by
    intro a
    rw [Nat.ceilDiv_eq_add_pred_div]
    have hback := Nat.mul_div_le (a + slots - 1) slots
    omega
  have hupper : (j + 1) * total ⌈/⌉ slots < j * total ⌈/⌉ slots + total ⌈/⌉ slots + 1 := by
    refine Nat.lt_of_mul_lt_mul_left (a := slots) ?_
    have hend := hlt ((j + 1) * total)
    have hstart := hle (j * total)
    have hlength := hle total
    rw [Nat.mul_add, Nat.mul_add, Nat.succ_mul] at *
    omega
  have hlower : j * total ⌈/⌉ slots + total / slots < (j + 1) * total ⌈/⌉ slots + 1 := by
    refine Nat.lt_of_mul_lt_mul_left (a := slots) ?_
    have hend := hle ((j + 1) * total)
    have hstart := hlt (j * total)
    have hlength := Nat.mul_div_le total slots
    rw [Nat.mul_add, Nat.mul_add, Nat.succ_mul] at *
    omega
  have hceil : total ⌈/⌉ slots < total / slots + 2 := by
    refine Nat.lt_of_mul_lt_mul_left (a := slots) ?_
    have hup := hlt total
    have hdown := Nat.lt_mul_div_succ total hpos
    rw [Nat.mul_add] at *
    omega
  simp only [edge]
  omega

/-- **Slots are equally long**, but for one second. -/
theorem card_secondsOf (hle : first ≤ last) (hj : j < slots) :
    (secondsOf first last slots j).card = covered first last / slots ∨
      (secondsOf first last slots j).card = covered first last ⌈/⌉ slots := by
  rw [secondsOf_eq_Ico hle hj, Int.card_Ico]
  rcases edge_succ_sub first (covered first last) (Nat.zero_lt_of_lt hj) j with h | h
  · exact Or.inl (by rw [h, Int.toNat_natCast])
  · exact Or.inr (by rw [h, Int.toNat_natCast])

theorem first_mem_secondsOf (hle : first ≤ last) :
    first ∈ secondsOf first last slots 0 := by
  rw [mem_secondsOf hle, slotOf, sub_self]
  simp [hle]

theorem last_mem_secondsOf (hle : first ≤ last) (hpos : 0 < slots)
    (hslots : slots ≤ covered first last) : last ∈ secondsOf first last slots (slots - 1) := by
  rw [mem_secondsOf hle]
  refine ⟨⟨hle, le_rfl⟩, ?_⟩
  have hcovered := covered_eq hle
  obtain ⟨passed, htotal⟩ : ∃ passed, covered first last = passed + 1 :=
    ⟨covered first last - 1, by omega⟩
  have hpassed : (last - first).toNat = passed := by omega
  rw [slotOf, hpassed, htotal, Nat.div_eq_iff (by omega)]
  obtain ⟨others, rfl⟩ : ∃ others, slots = others + 1 := ⟨slots - 1, by omega⟩
  rw [Nat.add_sub_cancel, Nat.mul_add, Nat.mul_add, Nat.mul_comm others passed, mul_one, mul_one]
  omega

/-- With a slot for every second, each has its own. -/
theorem secondsOf_covered (hle : first ≤ last) (hj : j < covered first last) :
    secondsOf first last (covered first last) j = {first + (j : Int)} := by
  have hedge : ∀ i, edge first (covered first last) (covered first last) i = first + (i : Int) := by
    intro i
    rw [edge, Nat.mul_comm, ← smul_eq_mul, smul_ceilDiv (Nat.zero_lt_of_lt hj)]
  rw [secondsOf_eq_Ico hle hj, hedge, hedge]
  ext second
  simp only [Finset.mem_Ico, Finset.mem_singleton, Nat.cast_add, Nat.cast_one]
  omega

/-! ### What the slots have -/

/-- How many slots there are. -/
def slotCount (wanted : Nat) (first last : Int) : Nat := max 1 (min wanted (covered first last))

theorem slotCount_eq (hle : first ≤ last) (wanted : Nat) :
    (slotCount wanted first last : Int) = min (max (wanted : Int) 1) (last - first + 1) := by
  have hcovered := covered_eq hle
  rw [slotCount]
  omega

theorem slotCount_pos (wanted : Nat) : 0 < slotCount wanted first last :=
  le_max_left 1 _

theorem slotCount_le (hle : first ≤ last) (wanted : Nat) :
    slotCount wanted first last ≤ covered first last := by
  have hcovered := covered_eq hle
  rw [slotCount]
  omega

theorem bins_of_span? (hspan : b.span? = some (first, last)) (wanted : Nat) :
    b.bins wanted = (b.seconds.toList.foldl
      (fun (filled : Array Volume) entry =>
        filled.modify
          (slotOf first (covered first last) (slotCount wanted first last) entry.1) (· + entry.2))
      (Array.replicate (slotCount wanted first last) Volume.zero)).toList := by
  rw [bins, hspan]
  rfl

/-- **A slot has** what its seconds had. -/
theorem bins_eq (hspan : b.span? = some (first, last)) (wanted : Nat) :
    b.bins wanted = (List.range (slotCount wanted first last)).map fun j =>
      ∑ second ∈ secondsOf first last (slotCount wanted first last) j, b.inSecond second := by
  have hle := first_le_last hspan
  refine List.ext_getElem? fun j => ?_
  rw [bins_of_span? hspan, Array.getElem?_toList, getElem?_foldl_modify,
    sum_filter_toList hspan fun second =>
      slotOf first (covered first last) (slotCount wanted first last) second = j,
    List.getElem?_map, Array.getElem?_replicate]
  rcases Nat.lt_or_ge j (slotCount wanted first last) with hj | hj
  · rw [List.getElem?_range hj, if_pos hj, Option.map_some, Option.map_some]
    refine congrArg some ((zero_add _).trans (Finset.sum_congr ?_ fun _ _ => rfl))
    ext second
    rw [mem_secondsOf hle, Finset.mem_filter, Finset.mem_Icc]
  · rw [List.getElem?_eq_none (by simpa using hj), if_neg (Nat.not_lt.mpr hj)]
    rfl

theorem length_bins (hspan : b.span? = some (first, last)) (wanted : Nat) :
    (b.bins wanted).length = slotCount wanted first last := by
  rw [bins_eq hspan, List.length_map, List.length_range]

theorem getElem?_bins (hspan : b.span? = some (first, last)) {wanted : Nat}
    (hj : j < slotCount wanted first last) :
    (b.bins wanted)[j]? =
      some (∑ second ∈ secondsOf first last (slotCount wanted first last) j,
        b.inSecond second) := by
  rw [bins_eq hspan, List.getElem?_map, List.getElem?_range hj, Option.map_some]

/-- **Nothing is lost** by dividing into slots. -/
theorem sum_bins (hspan : b.span? = some (first, last)) (hb : b.Balanced) (wanted : Nat) :
    (b.bins wanted).sum = b.totals := by
  have hle := first_le_last hspan
  have hpos : 0 < slotCount wanted first last := slotCount_pos wanted
  have hslot : ∀ j, secondsOf first last (slotCount wanted first last) j =
      {second ∈ Finset.Icc first last |
        slotOf first (covered first last) (slotCount wanted first last) second = j} := by
    intro j
    ext second
    rw [mem_secondsOf hle, Finset.mem_filter, Finset.mem_Icc]
  rw [← sum_inSecond hspan hb, bins_eq hspan, ← List.sum_toFinset _ List.nodup_range,
    List.toFinset_range]
  simp only [hslot]
  refine Finset.sum_fiberwise_of_maps_to (fun second hsecond => ?_) _
  obtain ⟨hfirst, hlast⟩ := Finset.mem_Icc.mp hsecond
  exact Finset.mem_range.mpr (slotOf_lt hpos hfirst hlast)

/-- A slot with a second that had packets has some. -/
theorem packets_le_sum (hsecond : second ∈ secondsOf first last slots j)
    (h : 1 ≤ (b.inSecond second).packets) :
    1 ≤ (∑ second ∈ secondsOf first last slots j, b.inSecond second).packets := by
  rw [← Finset.add_sum_erase _ _ hsecond, Volume.packets_add]
  exact Nat.le_add_right_of_le h

/-! ### The division into slots -/

/-- The slots that are made of the seconds from `first` to `last`. -/
structure Divides (b : Bandwidth) (wanted : Nat) (first last : Int) (slots : Nat) : Prop where
  /-- There are as many slots as wanted, but one at least, and no more than seconds. -/
  count : (slots : Int) = min (max (wanted : Int) 1) (last - first + 1)
  /-- There are no other slots. -/
  length : (b.bins wanted).length = slots
  /-- Every second with traffic has a slot. -/
  lt : ∀ second ∈ b.seconds, slotOf first (covered first last) slots second < slots
  /-- A slot has what its seconds had. -/
  slot : ∀ j < slots, (b.bins wanted)[j]? =
    some (∑ second ∈ secondsOf first last slots j, b.inSecond second)
  /-- The seconds of each slot follow those of the one before. -/
  consecutive : ∃ edge : Nat → Int, edge 0 = first ∧ edge slots = last + 1 ∧
    ∀ j < slots, secondsOf first last slots j = Finset.Ico (edge j) (edge (j + 1))
  /-- No slot has more than one second more than another. -/
  even : ∀ j < slots, (secondsOf first last slots j).card = covered first last / slots ∨
    (secondsOf first last slots j).card = covered first last ⌈/⌉ slots
  /-- The first slot had a packet. -/
  first_slot : ∃ v, (b.bins wanted).head? = some v ∧ 1 ≤ v.packets
  /-- The last slot had a packet. -/
  last_slot : ∃ v, (b.bins wanted).getLast? = some v ∧ 1 ≤ v.packets
  /-- The slots have together what was counted. -/
  sum : (b.bins wanted).sum = b.totals
  /-- In no slot there are more bytes in packets with a segment than in all packets. -/
  sound : ∀ v ∈ b.bins wanted, v.segmentBytes ≤ v.bytes
  /-- Where enough slots are wanted, each second has its own. -/
  single : last - first + 1 ≤ wanted →
    ∀ j < slots, (b.bins wanted)[j]? = some (b.inSecond (first + (j : Int)))

theorem divides_countEach (wanted : Nat)
    (hspan : (empty.countEach entries).span? = some (first, last)) :
    (empty.countEach entries).Divides wanted first last (slotCount wanted first last) := by
  have hle := first_le_last hspan
  have hpos : 0 < slotCount wanted first last := slotCount_pos wanted
  have hcovered := covered_eq hle
  obtain ⟨hfirst, hlast⟩ := span?_eq_some_iff.mp hspan
  have hlength := length_bins hspan wanted
  refine {
    count := slotCount_eq hle wanted
    length := hlength
    lt := fun second hsecond => slotOf_lt hpos (hfirst.2 hsecond) (hlast.2 hsecond)
    slot := fun j hj => getElem?_bins hspan hj
    consecutive := ?consecutive
    even := fun j hj => card_secondsOf hle hj
    first_slot := ?first_slot
    last_slot := ?last_slot
    sum := sum_bins hspan (balanced_empty.countEach entries) wanted
    sound := ?sound
    single := ?single }
  case consecutive =>
    refine ⟨edge first (covered first last) (slotCount wanted first last), edge_zero, ?_,
      fun j hj => secondsOf_eq_Ico hle hj⟩
    rw [edge_slots hpos, hcovered]
    omega
  case first_slot =>
    rw [List.head?_eq_getElem?, getElem?_bins hspan hpos]
    exact ⟨_, rfl, packets_le_sum (first_mem_secondsOf hle) (packets_inSecond_countEach hfirst.1)⟩
  case last_slot =>
    rw [List.getLast?_eq_getElem?, hlength, getElem?_bins hspan (by omega)]
    have hmem := last_mem_secondsOf hle hpos (slotCount_le hle wanted)
    exact ⟨_, rfl, packets_le_sum hmem (packets_inSecond_countEach hlast.1)⟩
  case sound =>
    intro v hv
    rw [bins_eq hspan] at hv
    obtain ⟨j, -, rfl⟩ := List.mem_map.mp hv
    exact Finset.sum_induction _ Volume.Sound (fun _ _ => Volume.Sound.add) Volume.sound_zero
      fun second _ => sound_inSecond_countEach second
  case single =>
    intro hwanted j hj
    have hall : slotCount wanted first last = covered first last := by
      rw [slotCount]
      omega
    rw [getElem?_bins hspan hj, hall, secondsOf_covered hle (hall ▸ hj), Finset.sum_singleton]

end Bandwidth

end TrafficSheet
