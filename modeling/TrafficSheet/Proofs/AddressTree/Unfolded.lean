import TrafficSheet.Proofs.AddressTree.Order

/-!
# Trees in which nothing was folded

A tree has no more entries than different addresses. So where no more addresses than the bound
differ, nothing is ever folded (`unfolded_addAll`): counting an address adds no path but its own.
Then every address has its own entry, and the entries do not depend on the order in which the
addresses came (`entries_addAll_perm`). A tree in which something was folded may depend on it.
-/

namespace TrafficSheet

/-- The different addresses that have a byte. -/
def distinct (addresses : List Bytes) : Finset Bytes := addresses.toFinset.erase []

theorem mem_distinct {addresses : List Bytes} {a : Bytes} :
    a ∈ distinct addresses ↔ a ≠ [] ∧ a ∈ addresses := by
  simp [distinct]

theorem distinct_subset_append (addresses more : List Bytes) :
    distinct addresses ⊆ distinct (addresses ++ more) := by
  intro a ha
  obtain ⟨hne, hmem⟩ := mem_distinct.mp ha
  exact mem_distinct.mpr ⟨hne, List.mem_append_left _ hmem⟩

/-- Counting an address adds no path but its own. -/
theorem Forest.CountsOne.path_cases {a : Bytes} {es es' : List (Bytes × Nat)}
    (h : Forest.CountsOne a es es') {e' : Bytes × Nat} (he' : e' ∈ es') :
    e'.1 = a ∨ ∃ e ∈ es, e.1 = e'.1 := by
  cases h with
  | made front back =>
    rcases List.mem_append.mp he' with hfront | hback
    · exact Or.inr ⟨e', List.mem_append_left _ hfront, rfl⟩
    · rcases List.mem_cons.mp hback with rfl | hback
      · exact Or.inl rfl
      · exact Or.inr ⟨e', List.mem_append_right _ hback, rfl⟩
  | known front back =>
    rcases List.mem_append.mp he' with hfront | hback
    · exact Or.inr ⟨e', List.mem_append_left _ hfront, rfl⟩
    · refine Or.inr ?_
      rcases List.mem_cons.mp hback with rfl | hback
      · exact ⟨_, List.mem_append_right _ List.mem_cons_self, rfl⟩
      · exact ⟨e', List.mem_append_right _ (List.mem_cons_of_mem _ hback), rfl⟩

namespace AddressTree

open AddressFamily

variable {t : AddressTree} {addresses : List Bytes} {a : Bytes} {e : AddressEntry}

/-! ### Counting without folding -/

/-- Every entry is a full address. -/
def Unfolded (t : AddressTree) : Prop := ∀ e ∈ t.entries, e.path.length = e.family

theorem unfolded_empty (m : Nat) : (empty m).Unfolded := fun _ he => absurd he List.not_mem_nil

theorem Holds.unfolded_counted (h : t.Holds addresses) (hu : t.Unfolded) (a : Bytes) :
    (t.counted a).Unfolded := by
  intro e he
  simp only [entries, List.mem_flatMap, List.mem_map] at he
  obtain ⟨family, hfamily, entry, hentry, rfl⟩ := he
  have hold : ∀ family ∈ t.families, ∀ entry ∈ family.root.entries,
      entry.1.length = family.length := by
    intro family hmem entry hentry
    refine hu ⟨family.length, entry.1, entry.2⟩ ?_
    simp only [entries, List.mem_flatMap, List.mem_map]
    exact ⟨family, hmem, entry, hentry, rfl⟩
  rcases h.ascending.mem_insertInto.mp hfamily with ⟨hmem, -⟩ | rfl
  · exact hold family hmem entry hentry
  · have hcounts := (AddressFamily.rootOf a.length t.families).countsOne_insert a
      Forest.countsOne_insert
    rcases hcounts.path_cases hentry with heq | ⟨before, hbefore, heq⟩
    · exact congrArg List.length heq
    · by_cases hknown : ∃ family ∈ t.families, family.length = a.length
      · obtain ⟨family, hmem, hlength⟩ := hknown
        rw [← hlength, h.ascending.rootOf_eq hmem] at hbefore
        rw [← heq, hold family hmem before hbefore, hlength]
      · have hfresh : AddressFamily.rootOf a.length t.families = .fresh :=
          rootOf_eq_fresh fun family hmem heq => hknown ⟨family, hmem, heq⟩
        rw [hfresh] at hbefore
        exact absurd hbefore List.not_mem_nil

/-- There are no more entries than different addresses. -/
theorem Holds.leafCount_le_card (h : t.Holds addresses) :
    t.leafCount ≤ (distinct addresses).card := by
  rw [h.leafCount_eq, ← List.toFinset_card_of_nodup h.nodup_entries]
  refine Finset.card_le_card_of_forall_subsingleton AddressEntry.Covers (fun e he => ?_) ?_
  · have hmem := List.mem_toFinset.mp he
    obtain ⟨a, ha, hcovers, -⟩ := h.tight hmem 0
    exact ⟨a, mem_distinct.mpr ⟨hcovers.ne_nil (h.standsFor hmem).1, ha⟩, hcovers⟩
  · rintro a ha e ⟨he, hcovers⟩ e' ⟨he', hcovers'⟩
    obtain ⟨hne, hmem⟩ := mem_distinct.mp ha
    exact h.eq_of_covers hmem hne (List.mem_toFinset.mp he) (List.mem_toFinset.mp he') hcovers
      hcovers'

theorem prune_eq_self (hle : t.leafCount ≤ t.limit) : t.prune = t := by
  rw [prune, Nat.sub_eq_zero_of_le hle, shrink]

theorem Holds.unfolded_add (h : t.Holds addresses) (hu : t.Unfolded)
    (hle : (distinct (addresses ++ [a])).card ≤ t.limit) : (t.add a).Unfolded := by
  have hcounted := h.unfolded_counted hu a
  rw [AddressTree.add]
  split_ifs with hempty
  · exact hu
  · exact hcounted
  · have hleaf := (h.counted (mt List.isEmpty_iff.mpr hempty)).leafCount_le_card
    rw [prune_eq_self (hleaf.trans hle)]
    exact hcounted

/-- **Under the bound nothing is folded.** -/
theorem unfolded_addAll (m : Nat) (addresses : List Bytes)
    (hle : (distinct addresses).card ≤ max m 1) : ((empty m).addAll addresses).Unfolded := by
  induction addresses using List.reverseRecOn with
  | nil => exact unfolded_empty m
  | append_singleton addresses a ih =>
    have hbefore := (Finset.card_le_card (distinct_subset_append addresses [a])).trans hle
    have hlimit : ((empty m).addAll addresses).limit = max m 1 := limit_addAll (empty m) addresses
    have hadd := (holds_addAll m addresses).unfolded_add (ih hbefore) (hle.trans_eq hlimit.symm)
    rw [addAll, List.foldl_append]
    exact hadd

/-! ### What the entries are -/

/-- Every address has its own entry, with the number of times that it was counted. -/
theorem Holds.mem_entries_of_unfolded (h : t.Holds addresses) (hu : t.Unfolded) :
    e ∈ t.entries ↔ e.path ∈ addresses ∧ e.path ≠ [] ∧ e.family = e.path.length ∧
      e.count = addresses.count e.path := by
  have hsame : ∀ e ∈ t.entries, ∀ a, e.Covers a → a = e.path := by
    intro e he a hcovers
    exact (hcovers.2.eq_of_length ((hu e he).trans hcovers.1.symm)).symm
  have hcount : ∀ e ∈ t.entries, e.count = addresses.count e.path := by
    intro e he
    rw [h.count_eq he, List.count_eq_countP]
    refine List.countP_congr fun a _ => ?_
    rw [decide_eq_true_eq, beq_iff_eq]
    refine ⟨hsame e he a, ?_⟩
    rintro rfl
    exact ⟨hu e he, List.prefix_rfl⟩
  constructor
  · intro he
    obtain ⟨a, ha, hcovers, -⟩ := h.tight he 0
    rw [hsame e he a hcovers] at ha
    exact ⟨ha, (h.standsFor he).1, (hu e he).symm, hcount e he⟩
  · rintro ⟨ha, hne, hfamily, htimes⟩
    obtain ⟨e', he', hcovers⟩ := h.exists_covers ha hne
    have hpath := hsame e' he' _ hcovers
    have heq : e = e' := by
      obtain ⟨family, path, count⟩ := e
      obtain ⟨family', path', count'⟩ := e'
      obtain rfl : path = path' := hpath
      obtain rfl : family = family' := hfamily.trans hcovers.1
      obtain rfl : count = count' := htimes.trans (hcount _ he').symm
      rfl
    rw [heq]
    exact he'

/-- **Under the bound the order does not matter.** -/
theorem entries_addAll_perm {m : Nat} {addresses' : List Bytes} (hperm : addresses.Perm addresses')
    (hle : (distinct addresses).card ≤ max m 1) :
    ((empty m).addAll addresses).entries = ((empty m).addAll addresses').entries := by
  have hle' : (distinct addresses').card ≤ max m 1 := by
    rwa [distinct, ← List.toFinset_eq_of_perm _ _ hperm]
  refine (holds_addAll m addresses).entries_eq (holds_addAll m addresses') fun e => ?_
  rw [(holds_addAll m addresses).mem_entries_of_unfolded (unfolded_addAll m addresses hle),
    (holds_addAll m addresses').mem_entries_of_unfolded (unfolded_addAll m addresses' hle'),
    hperm.mem_iff, hperm.count_eq]

/-- Over the bound it does: what is folded first is the node that counts least by then. -/
example :
    let addresses : List Bytes := [[0, 0, 1], [0, 0, 2], [0, 0, 1], [0, 1, 1], [0, 1, 2]]
    ((empty 3).addAll addresses).entries ≠ ((empty 3).addAll addresses.reverse).entries := by
  decide

end AddressTree

end TrafficSheet
