import TrafficSheet.Proofs.Bandwidth.Slots

/-!
# Slots in words

How many seconds there are from the first to the last is computed in a word with a sign before it
is widened. Where the number fits, the slots that are computed are those of numbers of any size
(`binsInWords_of_lt`). Where it does not fit and the machine stops at that, there are no slots; and
a machine that wraps numbers still has slots, with all traffic in the first, unless the seconds go
from the first one of all to the last one of all, which leaves zero (`exists_slots_iff`).
-/

namespace TrafficSheet

/-- How many seconds are too many for the slots to be computed. -/
def Overflow.spanLimit : Overflow → Int
  | .stops => 0x8000000000000000
  | .wraps => 0x10000000000000000

/-- The seconds of a time are a word with a sign. -/
def Timestamp.InWords (t : Timestamp) : Prop :=
  -0x8000000000000000 ≤ t.seconds ∧ t.seconds < 0x8000000000000000

instance (t : Timestamp) : Decidable t.InWords := inferInstanceAs (Decidable (_ ∧ _))

theorem Overflow.le_spanLimit (o : Overflow) : 0x8000000000000000 ≤ o.spanLimit := by
  cases o <;> decide

namespace Bandwidth

variable {o : Overflow} {b : Bandwidth} {first last second : Int} {slots wanted : Nat}
  {entries : List (Packet × Option Segment)}

/-- The slots can be computed: there are not too many seconds from the first to the last. -/
def Fits (o : Overflow) (b : Bandwidth) : Prop :=
  ∀ span ∈ b.span?, span.2 - span.1 + 1 < o.spanLimit

instance : Decidable (b.Fits o) :=
  match h : b.span? with
  | none => isTrue (by simp [Fits, h])
  | some span =>
    decidable_of_iff (span.2 - span.1 + 1 < o.spanLimit) (by simp [Fits, h])

/-- All seconds are words with a sign. -/
def InWords (b : Bandwidth) : Prop :=
  ∀ second ∈ b.seconds, -0x8000000000000000 ≤ second ∧ second < 0x8000000000000000

theorem mem_seconds_of_mem_toList {entry : Int × Volume} (h : entry ∈ b.seconds.toList) :
    entry.1 ∈ b.seconds := by
  rw [← Std.TreeMap.mem_keys, ← Std.TreeMap.map_fst_toList_eq_keys]
  exact List.mem_map_of_mem h

/-- Packets that are few enough seconds apart fit. -/
theorem fits_countEach (least : Int) (h : ∀ e ∈ entries,
      least ≤ e.1.time.seconds ∧ e.1.time.seconds < least + 0x7fffffffffffffff) :
    (empty.countEach entries).Fits o := by
  rintro ⟨first, last⟩ hspan
  obtain ⟨hfirst, hlast⟩ := span?_eq_some_iff.mp hspan
  obtain ⟨e, he, rfl⟩ := mem_seconds_countEach.mp hfirst.1
  obtain ⟨e', he', rfl⟩ := mem_seconds_countEach.mp hlast.1
  have hlow := (h e he).1
  have hhigh := (h e' he').2
  have hlimit := o.le_spanLimit
  dsimp only
  omega

/-! ### Filling slots -/

/-- Slots are filled as with numbers of any size, where each second's slot is computed as such. -/
theorem foldlM_addToSlot {total : Nat} {entries : List (Int × Volume)} (filled : Array Volume)
    (index : Int → Nat) (hindex : ∀ entry ∈ entries,
      slotInWords o first total slots entry.1 = .ok (index entry.1) ∧ index entry.1 < filled.size) :
    entries.foldlM (addToSlot o first total slots) filled =
      .ok (entries.foldl (fun filled entry => filled.modify (index entry.1) (· + entry.2))
        filled) := by
  induction entries generalizing filled with
  | nil => rfl
  | cons entry entries ih =>
    obtain ⟨hslot, hlt⟩ := hindex entry List.mem_cons_self
    have hstep : addToSlot o first total slots filled entry =
        .ok (filled.modify (index entry.1) (· + entry.2)) := by
      simp only [addToSlot, hslot]
      exact if_pos hlt
    rw [List.foldlM_cons, List.foldl_cons, hstep]
    refine ih _ fun later hlater => ?_
    rw [Array.size_modify]
    exact hindex later (List.mem_cons_of_mem _ hlater)

theorem binsInWords_of_span? (hspan : b.span? = some (first, last)) {total : Nat}
    (htotal : coveredInWords o first last = .ok total) (hpos : total ≠ 0) (wanted : Nat) :
    b.binsInWords o wanted =
      (b.seconds.toList.foldlM (addToSlot o first total (max 1 (min wanted total)))
        (Array.replicate (max 1 (min wanted total)) Volume.zero)).map Array.toList := by
  rw [binsInWords, hspan]
  simp only [htotal]
  show (if total = 0 then _ else _) = _
  rw [if_neg hpos]
  rfl

/-! ### Few enough seconds -/

theorem coveredInWords_of_lt (hle : first ≤ last) (h : last - first + 1 < 0x8000000000000000) :
    coveredInWords o first last = .ok (covered first last) := by
  have hbetween : o.signed .subtract (last - first) = .ok (last - first) :=
    Overflow.signed_of_fits (by omega) (by omega)
  have hcovered : o.signed .add (last - first + 1) = .ok (last - first + 1) :=
    Overflow.signed_of_fits (by omega) (by omega)
  simp only [coveredInWords, hbetween]
  show (o.signed .add (last - first + 1) >>= _) = _
  rw [hcovered]
  exact congrArg Except.ok (widened_of_nonneg (by omega) h)

theorem slotInWords_of_lt (hfirst : first ≤ second) (hlast : second ≤ last)
    (h : last - first + 1 < 0x8000000000000000) (hpos : 0 < slots)
    (hslots : slots ≤ covered first last) :
    slotInWords o first (covered first last) slots second =
      .ok (slotOf first (covered first last) slots second) := by
  have hcovered := covered_eq (hfirst.trans hlast)
  have hlt : slotOf first (covered first last) slots second < slots :=
    slotOf_lt hpos hfirst hlast
  have hsince : o.signed .subtract (second - first) = .ok (second - first) :=
    Overflow.signed_of_fits (by omega) (by omega)
  have hwidened : widened (second - first) = (second - first).toNat :=
    widened_of_nonneg (by omega) (by omega)
  have hscaled : (second - first).toNat * slots < 0x100000000000000000000000000000000 :=
    calc (second - first).toNat * slots
        < 0x8000000000000000 * 0x8000000000000000 :=
          Nat.mul_lt_mul'' (by omega) (by omega)
      _ < 0x100000000000000000000000000000000 := by decide
  simp only [slotInWords, hsince]
  show (o.unsigned _ .multiply (widened (second - first) * slots) >>= _) = _
  rw [hwidened, Overflow.unsigned_of_fits hscaled]
  refine congrArg Except.ok (Nat.mod_eq_of_lt ?_)
  rw [slotOf] at hlt
  omega

/-- **Where the number of seconds fits**, the slots that are computed are the slots. -/
theorem binsInWords_of_lt
    (h : ∀ span ∈ b.span?, span.2 - span.1 + 1 < 0x8000000000000000) (wanted : Nat) :
    b.binsInWords o wanted = .ok (b.bins wanted) := by
  cases hspan : b.span? with
  | none =>
    rw [binsInWords, bins, hspan]
    rfl
  | some span =>
    obtain ⟨first, last⟩ := span
    have hle := first_le_last hspan
    have hlt : last - first + 1 < 0x8000000000000000 := h (first, last) hspan
    have hcovered := covered_eq hle
    obtain ⟨hfirst, hlast⟩ := span?_eq_some_iff.mp hspan
    rw [binsInWords_of_span? hspan (coveredInWords_of_lt hle hlt) (by omega), bins_of_span? hspan]
    refine congrArg (Except.map Array.toList) (foldlM_addToSlot _ (slotOf first _ _) ?_)
    intro entry hentry
    have hmem := mem_seconds_of_mem_toList hentry
    rw [Array.size_replicate]
    exact ⟨slotInWords_of_lt (hfirst.2 hmem) (hlast.2 hmem) hlt (slotCount_pos wanted)
      (slotCount_le hle wanted), slotOf_lt (slotCount_pos wanted) (hfirst.2 hmem) (hlast.2 hmem)⟩

/-- Where numbers that do not fit stop the machine, too many seconds do. -/
theorem binsInWords_stops (hspan : b.span? = some (first, last))
    (h : 0x8000000000000000 ≤ last - first + 1) (wanted : Nat) :
    b.binsInWords .stops wanted =
      .error (.overflow (if last - first < 0x8000000000000000 then .add else .subtract)) := by
  have hle := first_le_last hspan
  rw [binsInWords, hspan]
  simp only [coveredInWords]
  split_ifs with hbetween
  · rw [Overflow.signed_of_fits (by omega) hbetween]
    have hadd : Overflow.stops.signed .add (last - first + 1) = .error (.overflow .add) :=
      if_neg (by omega)
    show (Overflow.stops.signed .add (last - first + 1) >>= _) >>= _ = _
    rw [hadd]
    rfl
  · have hsubtract :
        Overflow.stops.signed .subtract (last - first) = .error (.overflow .subtract) :=
      if_neg (by omega)
    rw [hsubtract]
    rfl

theorem coveredInWords_wraps (first last : Int) :
    coveredInWords .wraps first last =
      .ok (widened (Int.bmod (last - first + 1) 0x10000000000000000)) := by
  simp only [coveredInWords, Overflow.signed_wraps]
  show Except.ok (widened (Int.bmod (Int.bmod (last - first) _ + 1) _)) = _
  rw [Int.bmod_add_bmod]

/-- With a number of seconds that wraps to a negative one, the first slot is that of every second:
the seconds from the first on, and also their product with a number of slots, stay below it. -/
theorem slotInWords_wraps (hfirst : first ≤ second) (hlast : second ≤ last)
    (hlow : 0x8000000000000000 ≤ last - first + 1) (hhigh : last - first + 1 < 0x10000000000000000)
    (hpos : 0 < slots) (hslots : slots < 2 ^ 64) :
    slotInWords .wraps first
      (0x100000000000000000000000000000000 - (0x10000000000000000 - (last - first + 1)).toNat)
      slots second = .ok 0 := by
  obtain ⟨missing, hmissing⟩ :
      ∃ missing : Nat, (0x10000000000000000 - (last - first + 1)).toNat = missing := ⟨_, rfl⟩
  simp only [slotInWords, Overflow.signed_wraps, hmissing]
  show (Overflow.wraps.unsigned _ .multiply (widened (Int.bmod (second - first) _) * slots) >>=
    _) = _
  rw [Overflow.unsigned_wraps]
  refine congrArg Except.ok ?_
  rw [Nat.div_eq_of_lt, Nat.zero_mod]
  rcases lt_or_ge (second - first) 0x8000000000000000 with hsince | hsince
  · have hscaled : (second - first).toNat * slots < 0x8000000000000000 * 2 ^ 64 :=
      Nat.mul_lt_mul'' (by omega) hslots
    rw [widened_bmod_of_lt (by omega) hsince]
    omega
  · obtain ⟨behind, hbehind⟩ :
        ∃ behind : Nat, (0x10000000000000000 - (second - first)).toNat = behind := ⟨_, rfl⟩
    have hproduct : (0x100000000000000000000000000000000 - behind) * slots =
        0x100000000000000000000000000000000 * slots - behind * slots := Nat.sub_mul ..
    have hmany : behind * slots ≤ 0x8000000000000000 * 2 ^ 64 :=
      Nat.mul_le_mul (by omega) hslots.le
    have hfew : behind ≤ behind * slots := Nat.le_mul_of_pos_right behind hpos
    rw [widened_bmod_of_ge hsince (by omega), hbehind, hproduct]
    omega

/-- Where numbers wrap, there are slots for all numbers of seconds but the greatest. -/
theorem exists_binsInWords_wraps (hspan : b.span? = some (first, last))
    (h : last - first + 1 < 0x10000000000000000) (hwanted : wanted < 2 ^ 64) :
    ∃ volumes, b.binsInWords .wraps wanted = .ok volumes := by
  rcases lt_or_ge (last - first + 1) 0x8000000000000000 with hlow | hlow
  · refine ⟨_, binsInWords_of_lt (fun span hsome => ?_) wanted⟩
    rw [hspan] at hsome
    obtain rfl := Option.some.inj hsome
    exact hlow
  · obtain ⟨hfirst, hlast⟩ := span?_eq_some_iff.mp hspan
    have htotal : coveredInWords .wraps first last =
        .ok (0x100000000000000000000000000000000 -
          (0x10000000000000000 - (last - first + 1)).toNat) := by
      rw [coveredInWords_wraps, widened_bmod_of_ge hlow h]
    rw [binsInWords_of_span? hspan htotal (by omega)]
    have hpos : 0 < max 1 (min wanted (0x100000000000000000000000000000000 -
        (0x10000000000000000 - (last - first + 1)).toNat)) := le_max_left 1 _
    refine ⟨_, congrArg (Except.map Array.toList) (foldlM_addToSlot _ (fun _ => 0) ?_)⟩
    intro entry hentry
    have hmem := mem_seconds_of_mem_toList hentry
    rw [Array.size_replicate]
    exact ⟨slotInWords_wraps (hfirst.2 hmem) (hlast.2 hmem) hlow h hpos (by omega), hpos⟩

/-- Where numbers wrap, the seconds from the first one of all to the last one of all are as many as
none. -/
theorem binsInWords_wraps_of_eq (hspan : b.span? = some (first, last))
    (h : last - first + 1 = 0x10000000000000000) (wanted : Nat) :
    b.binsInWords .wraps wanted = .error .emptyRange := by
  rw [binsInWords, hspan]
  simp only [coveredInWords_wraps, h]
  rfl

/-- Slots can be computed if there are not too many seconds. -/
theorem exists_slots_of_fits (h : b.Fits o) (hwanted : wanted < 2 ^ 64) :
    ∃ volumes, b.binsInWords o wanted = .ok volumes := by
  cases o with
  | stops => exact ⟨_, binsInWords_of_lt h wanted⟩
  | wraps =>
    cases hspan : b.span? with
    | none => exact ⟨_, binsInWords_of_lt (by simp [hspan]) wanted⟩
    | some span => exact exists_binsInWords_wraps hspan (h span hspan) hwanted

/-- **Slots can be computed** exactly if there are not too many seconds. -/
theorem exists_slots_iff (hwords : b.InWords) (hwanted : wanted < 2 ^ 64) :
    (∃ volumes, b.binsInWords o wanted = .ok volumes) ↔ b.Fits o := by
  refine ⟨?_, fun h => exists_slots_of_fits h hwanted⟩
  rintro ⟨volumes, hvolumes⟩ ⟨first, last⟩ hspan
  by_contra hmany
  obtain ⟨hfirst, hlast⟩ := span?_eq_some_iff.mp hspan
  have hlow := (hwords first hfirst.1).1
  have hhigh := (hwords last hlast.1).2
  cases o with
  | stops =>
    rw [binsInWords_stops hspan (Int.not_lt.mp hmany)] at hvolumes
    cases hvolumes
  | wraps =>
    rw [binsInWords_wraps_of_eq hspan (by rw [Overflow.spanLimit] at hmany; omega)] at hvolumes
    cases hvolumes

/-- The seconds of packets in words are words. -/
theorem inWords_countEach (h : ∀ e ∈ entries, e.1.time.InWords) :
    (empty.countEach entries).InWords := by
  intro second hsecond
  obtain ⟨e, he, rfl⟩ := mem_seconds_countEach.mp hsecond
  exact h e he

end Bandwidth

end TrafficSheet
