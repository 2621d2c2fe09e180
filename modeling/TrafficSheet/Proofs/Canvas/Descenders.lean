import Mathlib
import TrafficSheet.Canvas.Basic
import TrafficSheet.Clock

/-!
# Texts that reach below the line

A text is as high as its capitals, or higher if any of its characters reaches below the line. Which
it is can be seen from a part of the text that has such a character (`descends_append`), or from the
kind of characters in it: digits never do, and so no date and time does (`descends_text`).
-/

namespace TrafficSheet

namespace TextMetrics

theorem descends_append (a b : String) : descends (a ++ b) = (descends a || descends b) := by
  rw [descends, String.toList_append, List.any_append]
  rfl

theorem ne_empty_of_descends {text : String} (h : descends text = true) : text ≠ "" := by
  rintro rfl
  exact absurd h (by decide)

theorem descends_eq_false_iff {text : String} :
    descends text = false ↔ ∀ c ∈ text.toList, c ∉ descending := by
  rw [descends, List.any_eq_false]
  simp only [List.contains_iff_mem]

theorem not_mem_descending_of_isDigit {c : Char} (h : c.isDigit = true) : c ∉ descending := by
  have hdescending : descending.all (fun d => !d.isDigit) = true := by decide
  intro hc
  have hno := List.all_eq_true.mp hdescending c hc
  rw [h] at hno
  exact absurd hno (by decide)

/-- Digits stay on the line. -/
theorem descends_of_isDigit {text : String} (h : ∀ c ∈ text.toList, c.isDigit = true) :
    descends text = false :=
  descends_eq_false_iff.mpr fun c hc => not_mem_descending_of_isDigit (h c hc)

theorem descends_toString_nat (n : Nat) : descends (toString n) = false := by
  refine descends_of_isDigit fun c hc => ?_
  have hdigits : (toString n).toList = Nat.toDigits 10 n := String.toList_ofList
  rw [hdigits] at hc
  exact Nat.isDigit_of_mem_toDigits (by decide) (by decide) hc

theorem descends_zeroPadded (width n : Nat) : descends (Decimal.zeroPadded width n) = false := by
  refine descends_of_isDigit fun c hc => ?_
  rw [Decimal.zeroPadded, String.toList_ofList, List.mem_append] at hc
  obtain hzero | hdigit := hc
  · rw [List.eq_of_mem_replicate hzero]
    decide
  · exact Nat.isDigit_of_mem_toDigits (by decide) (by decide) hdigit

theorem descends_yearText (year : Int) : descends (CivilDate.yearText year) = false := by
  rw [CivilDate.yearText]
  split_ifs with hnegative
  · rw [descends_append, descends_zeroPadded]
    decide
  · exact descends_zeroPadded ..
  · obtain ⟨n, rfl⟩ := Int.eq_ofNat_of_zero_le (Int.not_lt.mp hnegative)
    have hdigits : descends (toString (n : Int)) = false := descends_toString_nat n
    rw [descends_append, hdigits]
    decide

theorem descends_timeOfDay (seconds : Int) : descends (Clock.timeOfDay seconds) = false := by
  simp only [Clock.timeOfDay, descends_append, descends_zeroPadded]
  decide

/-- **A date and time** stays on the line, as the dashes do that stand for one without a text. -/
theorem descends_text (zone : Zone) (t : Timestamp) : descends (t.text zone) = false := by
  unfold Timestamp.text Clock.dateTimeText
  dsimp only
  split
  · simp only [CivilDate.text, descends_append, descends_yearText, descends_zeroPadded,
      descends_timeOfDay]
    decide
  · decide

/-! ### Heights -/

/-- Two texts that are equally high in every font size. -/
structure SameHeight (a b : String) : Prop where
  /-- Both are empty, or none of them. -/
  empty : a = "" ↔ b = ""
  /-- Both reach below the line, or none of them. -/
  descends : descends a = descends b

theorem SameHeight.refl (text : String) : SameHeight text text := ⟨Iff.rfl, rfl⟩

/-- Texts that start with the same words, if what follows reaches equally low. -/
theorem sameHeight_append {a b front : String} (hfront : front ≠ "")
    (h : descends (front ++ a) = descends (front ++ b)) : SameHeight (front ++ a) (front ++ b) where
  empty := by
    have hne : ∀ rest : String, front ++ rest ≠ "" := by
      intro rest hempty
      exact hfront (String.append_eq_empty_iff.mp hempty).1
    exact iff_of_false (hne a) (hne b)
  descends := h

/-- Texts that start with the same words, if these reach below the line. -/
theorem sameHeight_of_front {front : String} (h : descends front = true) (a b : String) :
    SameHeight (front ++ a) (front ++ b) := by
  refine sameHeight_append (ne_empty_of_descends h) ?_
  rw [descends_append, descends_append, h, Bool.true_or, Bool.true_or]

variable {α : Type} [Scalar α]

theorem SameHeight.height {a b : String} (h : SameHeight a b) (size : α) :
    (measure a size).height = (measure b size).height := by
  simp only [measure, String.isEmpty_iff, h.empty, h.descends]
  split_ifs <;> rfl

/-- The height of a text that reaches below the line does not depend on the text. -/
theorem height_measure_of_descends {text : String} (h : descends text = true) (size : α) :
    (measure text size).height = (0.718 + 0.207) * size := by
  rw [measure, if_neg (by simpa using ne_empty_of_descends h), h, if_pos rfl]

end TextMetrics

end TrafficSheet
