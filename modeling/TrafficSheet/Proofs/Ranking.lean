import Mathlib
import TrafficSheet.Proofs.KeyedSums
import TrafficSheet.Tally

/-!
# Rankings

A ranking is the one order of the labels of a tally in which each stands before the next, by
count and then by label (`Tally.ranking_eq`). It depends only on how much each label has in
all, and so not on the order in which the amounts came in (`Tally.ranked_ofList_perm`).
-/

namespace TrafficSheet

open Std

section

variable {α : Type} {r : α → α → Prop} {l : List α}

/-- Where no element is the same as another, one that does not stand after it stands before it. -/
theorem pairwise_of_nodup [Std.Trichotomous r] (h : l.Pairwise fun a b => ¬r b a)
    (hnodup : l.Nodup) : l.Pairwise r :=
  h.imp₂ (fun a b hba hne =>
    by_contra fun hab => hne (Std.Trichotomous.trichotomous a b hab hba)) hnodup

/-- Sorting by a strict order leaves no two elements of a list without repetitions unordered. -/
theorem pairwise_mergeSort_of_nodup [DecidableRel r] [IsStrictTotalOrder α r] (hnodup : l.Nodup) :
    (l.mergeSort fun a b => decide (¬r b a)).Pairwise r := by
  have hsorted : (l.mergeSort fun a b => decide (¬r b a)).Pairwise
      fun a b => decide (¬r b a) = true := by
    refine List.pairwise_mergeSort (fun a b c hab hbc => ?_) (fun a b => ?_) l
    · simp only [decide_eq_true_eq] at hab hbc ⊢
      exact fun hca => (IsOrderConnected.conn c b a hca).elim hbc hab
    · simp only [Bool.or_eq_true, decide_eq_true_eq]
      exact or_iff_not_imp_left.mpr fun hba => asymm_of r (not_not.mp hba)
  exact pairwise_of_nodup (hsorted.imp of_decide_eq_true)
    ((List.mergeSort_perm ..).nodup_iff.mpr hnodup)

end

/-! ### The order of labels -/

namespace Ranked

variable {a b c : Ranked}

theorem Before.asymm (h : Before a b) : ¬Before b a := by
  rintro (hlt | ⟨heq, hlt⟩)
  · rcases h with hlt' | ⟨heq', -⟩ <;> omega
  · rcases h with hlt' | ⟨-, hlt'⟩
    · omega
    · exact String.lt_asymm hlt hlt'

theorem Before.trans (h : Before a b) (h' : Before b c) : Before a c := by
  rcases h with hlt | ⟨heq, hlt⟩ <;> rcases h' with hlt' | ⟨heq', hlt'⟩
  · exact Or.inl (hlt'.trans hlt)
  · exact Or.inl (heq' ▸ hlt)
  · exact Or.inl (heq ▸ hlt')
  · exact Or.inr ⟨heq.trans heq', String.lt_trans hlt hlt'⟩

theorem Before.count_le (h : Before a b) : b.2 ≤ a.2 := by
  rcases h with hlt | ⟨heq, -⟩
  · exact hlt.le
  · exact heq.ge

/-- Of two entries that differ, one stands before the other. -/
theorem eq_of_not_before (h : ¬Before a b) (h' : ¬Before b a) : a = b := by
  obtain ⟨label, count⟩ := a
  obtain ⟨label', count'⟩ := b
  rcases Nat.lt_trichotomy count count' with hlt | rfl | hlt
  · exact absurd (Or.inl hlt) h'
  · rcases Std.lt_trichotomy label label' with hlt | rfl | hlt
    · exact absurd (Or.inr ⟨rfl, hlt⟩) h
    · rfl
    · exact absurd (Or.inr ⟨rfl, hlt⟩) h'
  · exact absurd (Or.inl hlt) h

instance : IsStrictTotalOrder Ranked Before where
  irrefl _ h := h.asymm h
  trans _ _ _ := Before.trans
  trichotomous _ _ := eq_of_not_before

end Ranked

namespace Tally

/-! ### A ranking is sorted, and there is no other -/

theorem perm_ranking (t : Tally) : t.ranking.Perm t.counts.toList := List.mergeSort_perm ..

theorem length_ranking (t : Tally) : t.ranking.length = t.size :=
  t.perm_ranking.length_eq.trans TreeMap.length_toList

theorem length_entries_ranked (limit : Nat) (t : Tally) :
    (t.ranked limit).entries.length = min limit t.size := by
  rw [← t.length_ranking]
  exact List.length_take

theorem pairwise_ranking (t : Tally) : t.ranking.Pairwise Ranked.Before :=
  pairwise_mergeSort_of_nodup (nodup_toList _)

/-- **The ranking** is the only order of the labels in which each stands before the next. -/
theorem ranking_eq {t : Tally} {l : List Ranked} (hperm : l.Perm t.counts.toList)
    (hsorted : l.Pairwise Ranked.Before) : t.ranking = l :=
  List.Perm.eq_of_pairwise (fun _ _ _ _ hab hba => absurd hba hab.asymm) t.pairwise_ranking hsorted
    (t.perm_ranking.trans hperm.symm)

/-! ### Amounts per label -/

theorem counts_ofList (l : List Ranked) : (ofList l).counts = l.foldl addAt ∅ :=
  (List.foldl_hom counts fun _ _ => rfl).symm

theorem sum_ofList (l : List Ranked) : (ofList l).sum = (l.map (·.2)).sum := by
  induction l using List.reverseRecOn with
  | nil => rfl
  | append_singleton l last ih =>
    rw [List.map_append, List.sum_append, ← ih, ofList, List.foldl_append]
    rfl

/-- Counting segments adds one to the label of the port of each. -/
theorem foldl_countPort (side : Side) (segments : List Segment) :
    segments.foldl (countPort side) empty =
      ofList (segments.map fun s => (toString (s.port side), 1)) := by
  rw [ofList, List.foldl_map]
  rfl

/-- Where all keys differ, a key has one entry. -/
theorem filter_key_of_mem {l : List Ranked} (h : (l.map (·.1)).Nodup) {label : String}
    {count : Nat} (hmem : (label, count) ∈ l) : l.filter (·.1 = label) = [(label, count)] := by
  induction l with
  | nil => exact absurd hmem List.not_mem_nil
  | cons entry l ih =>
    obtain ⟨hnot, hnodup⟩ := List.nodup_cons.mp h
    rcases List.mem_cons.mp hmem with rfl | hmem
    · rw [List.filter_cons_of_pos (by simp)]
      refine congrArg _ (List.filter_eq_nil_iff.mpr fun entry hentry heq => hnot ?_)
      exact List.mem_map.mpr ⟨entry, hentry, of_decide_eq_true heq⟩
    · have hne : entry.1 ≠ label := by
        rintro rfl
        exact hnot (List.mem_map.mpr ⟨_, hmem, rfl⟩)
      rw [List.filter_cons_of_neg (by simpa using hne), ih hnodup hmem]

/-- Amounts of labels that all differ are the counts. -/
theorem perm_toList_ofList {l : List Ranked} (h : (l.map (·.1)).Nodup) :
    (ofList l).counts.toList.Perm l := by
  rw [List.perm_ext_iff_of_nodup (nodup_toList _) (List.Nodup.of_map _ h)]
  rintro ⟨label, count⟩
  rw [TreeMap.mem_toList_iff_getElem?_eq_some, counts_ofList, getElem?_foldl_addAt]
  constructor
  · intro h'
    split_ifs at h' with hlabel
    obtain ⟨⟨_, count'⟩, hmem, rfl⟩ := List.mem_map.mp hlabel
    rw [filter_key_of_mem h hmem] at h'
    obtain rfl : count' = count := by simpa using h'
    exact hmem
  · intro hmem
    rw [if_pos (List.mem_map_of_mem (f := Prod.fst) hmem), filter_key_of_mem h hmem]
    simp

/-- The ranked list of some amounts does not depend on their order. -/
theorem ranked_ofList_perm {l l' : List Ranked} (h : l.Perm l') (limit : Nat) :
    (ofList l).ranked limit = (ofList l').ranked limit := by
  have hcounts : (ofList l).counts.toList = (ofList l').counts.toList := by
    rw [counts_ofList, counts_ofList]
    exact (equiv_foldl_addAt h).toList_eq
  have hsum : (ofList l).sum = (ofList l').sum := by
    rw [sum_ofList, sum_ofList]
    exact (h.map _).sum_eq
  rw [ranked, ranked, top, top, ranking, ranking, hcounts, hsum]

end Tally

end TrafficSheet
