import Mathlib
import Std.Data.TreeMap

/-!
# Sums over the values of a map

Counts are kept per key. What a map holds together is the sum of a measure over its values.
Adding an amount to the value of one key adds the measure of that amount to the sum, wherever
the key stands and whether or not it was there (`sumOver_alter_add`). After any amounts, a key has
the sum of its own (`getElem?_foldl_addAt`), and all keys together that of all (`sumOver_foldl_addAt`).
-/

namespace TrafficSheet

open Std

variable {κ β M : Type} [Ord κ] [TransOrd κ] [LawfulEqOrd κ] [AddCommMonoid M]

/-- The sum of a measure over the values of a map. -/
def sumOver (f : β → M) (m : TreeMap κ β) : M := (m.toList.map fun entry => f entry.2).sum

theorem nodup_toList (m : TreeMap κ β) : m.toList.Nodup :=
  TreeMap.distinct_keys_toList.imp fun hne heq => hne (by rw [heq]; exact compare_self)

/-- Maps that answer alike hold the same entries. -/
theorem perm_toList {m m' : TreeMap κ β} (h : ∀ k : κ, m[k]? = m'[k]?) :
    m.toList.Perm m'.toList := by
  rw [List.perm_ext_iff_of_nodup (nodup_toList m) (nodup_toList m')]
  rintro ⟨k, v⟩
  rw [TreeMap.mem_toList_iff_getElem?_eq_some, TreeMap.mem_toList_iff_getElem?_eq_some, h]

theorem sumOver_congr {m m' : TreeMap κ β} (f : β → M) (h : ∀ k : κ, m[k]? = m'[k]?) :
    sumOver f m = sumOver f m' :=
  ((perm_toList h).map _).sum_eq

/-- The entry of a key stands apart from those of the other keys. -/
theorem perm_cons_erase {m : TreeMap κ β} {k : κ} {v : β} (hk : m[k]? = some v) :
    m.toList.Perm ((k, v) :: (m.erase k).toList) := by
  have hnot : (k, v) ∉ (m.erase k).toList := by
    simp [TreeMap.mem_toList_iff_getElem?_eq_some]
  rw [List.perm_ext_iff_of_nodup (nodup_toList m) (List.nodup_cons.mpr ⟨hnot, nodup_toList _⟩)]
  rintro ⟨k', v'⟩
  rw [List.mem_cons, TreeMap.mem_toList_iff_getElem?_eq_some,
    TreeMap.mem_toList_iff_getElem?_eq_some, TreeMap.getElem?_erase]
  by_cases hkey : k = k'
  · subst hkey
    simp [hk, eq_comm]
  · simp [hkey, Ne.symm hkey]

theorem sumOver_eq_erase (f : β → M) (m : TreeMap κ β) (k : κ) :
    sumOver f m = m[k]?.elim 0 f + sumOver f (m.erase k) := by
  cases hk : m[k]? with
  | none =>
    refine (sumOver_congr f fun k' => ?_).trans (zero_add _).symm
    rw [TreeMap.getElem?_erase]
    split_ifs with hkey
    · rw [← compare_eq_iff_eq.mp hkey, hk]
    · rfl
  | some v => exact ((perm_cons_erase hk).map _).sum_eq

theorem sumOver_erase_alter (f : β → M) (m : TreeMap κ β) (k : κ) (g : Option β → Option β) :
    sumOver f ((m.alter k g).erase k) = sumOver f (m.erase k) := by
  refine sumOver_congr f fun k' => ?_
  simp only [TreeMap.getElem?_erase, TreeMap.getElem?_alter]
  split_ifs <;> rfl

/-- **Adding an amount** to one value adds its measure to the sum. -/
theorem sumOver_alter_add (f : β → M) {zero v : β} (add : β → β → β) (hzero : f zero = 0)
    (hadd : ∀ known, f (add known v) = f known + f v) (m : TreeMap κ β) (k : κ) :
    sumOver f (m.alter k fun known? => some (add (known?.getD zero) v)) = sumOver f m + f v := by
  have hknown : f (m[k]?.getD zero) = m[k]?.elim 0 f := by
    cases m[k]? <;> simp [hzero]
  rw [sumOver_eq_erase f (m.alter k _) k, sumOver_erase_alter, TreeMap.getElem?_alter,
    if_pos compare_self, Option.elim_some, hadd, hknown, sumOver_eq_erase f m k,
    add_right_comm]

/-! ### Amounts by key -/

/-- Adds an amount to the value of its key. -/
def addAt (m : TreeMap κ M) (entry : κ × M) : TreeMap κ M :=
  m.alter entry.1 fun known? => some (known?.getD 0 + entry.2)

/-- **What a key has** of some amounts is the sum of its own, if there is one. -/
theorem getElem?_foldl_addAt [DecidableEq κ] (l : List (κ × M)) (k : κ) :
    (l.foldl addAt ∅)[k]? =
      if k ∈ l.map Prod.fst then some ((l.filter (·.1 = k)).map Prod.snd).sum else none := by
  -- From the right: the last amount is the one that was added last.
  induction l using List.reverseRecOn with
  | nil => rfl
  | append_singleton l last ih =>
    obtain ⟨key, amount⟩ := last
    rw [List.foldl_append, List.foldl_cons, List.foldl_nil, addAt, TreeMap.getElem?_alter, ih,
      List.filter_append, List.map_append, List.map_append, List.sum_append, List.map_singleton]
    by_cases hkey : key = k
    · subst hkey
      have hlast : key ∈ l.map Prod.fst ++ [key] :=
        List.mem_append_right _ (List.mem_singleton_self key)
      rw [if_pos compare_self, if_pos hlast]
      by_cases hmem : key ∈ l.map Prod.fst
      · simp [ih, hmem]
      · have hnone : l.filter (·.1 = key) = [] :=
          List.filter_eq_nil_iff.mpr fun entry hentry heq =>
            hmem (of_decide_eq_true heq ▸ List.mem_map_of_mem hentry)
        simp [ih, hmem, hnone]
    · have hother : k ∈ l.map Prod.fst ++ [key] ↔ k ∈ l.map Prod.fst := by
        simp [Ne.symm hkey]
      rw [if_neg (mt Std.compare_eq_iff_eq.mp hkey)]
      exact if_congr hother.symm (by simp [hkey]) rfl

/-- A key that is counted has the number of times that it was. -/
theorem getElem?_foldl_addAt_one [DecidableEq κ] (l : List κ) (k : κ) :
    ((l.map fun key => (key, 1)).foldl addAt (∅ : TreeMap κ Nat))[k]? =
      if l.count k = 0 then none else some (l.count k) := by
  have hkeys : (l.map fun key => (key, 1)).map Prod.fst = l :=
    List.map_map.trans (List.map_id l)
  have hones : ((l.map fun key => (key, 1)).filter (·.1 = k)).map Prod.snd =
      List.replicate (l.count k) 1 := by
    rw [List.filter_map, List.map_map, List.count_eq_countP, List.countP_eq_length_filter]
    exact List.map_const ..
  rw [getElem?_foldl_addAt, hkeys, hones, List.sum_replicate, smul_eq_mul, mul_one]
  simp only [List.count_eq_zero, ite_not]

/-- All keys together have the sum of the amounts. -/
theorem sumOver_foldl_addAt (l : List (κ × M)) :
    sumOver id (l.foldl addAt ∅) = (l.map Prod.snd).sum := by
  induction l using List.reverseRecOn with
  | nil => rfl
  | append_singleton l last ih =>
    rw [List.foldl_append, List.map_append, List.sum_append, ← ih]
    exact (sumOver_alter_add id (· + ·) rfl (fun _ => rfl) _ last.1).trans (by simp)

/-- The order of the amounts does not matter. -/
theorem equiv_foldl_addAt {l l' : List (κ × M)} (h : l.Perm l') :
    (l.foldl addAt ∅).Equiv (l'.foldl addAt ∅) := by
  classical
  refine TreeMap.Equiv.of_forall_constGet?_eq fun k => ?_
  rw [getElem?_foldl_addAt, getElem?_foldl_addAt, ((h.filter _).map _).sum_eq]
  simp only [(h.map Prod.fst).mem_iff]

end TrafficSheet
