import TrafficSheet.Proofs.AddressTree.Entries

/-!
# The bound on the entries

Addresses of one length with one first byte are a group. A tree has an entry for each group
at least, and while some group has two entries a node below its root may be folded. So
folding stops at the bound, or when each group has one entry; and since the tree before an
address was at one of the two, one fold is enough for it.
-/

namespace TrafficSheet

/-- The length of an address and its first byte. -/
def addressGroup (a : Bytes) : Nat × Option UInt8 := (a.length, a.head?)

/-- The groups of the addresses that have a byte. -/
def groups (addresses : List Bytes) : Finset (Nat × Option UInt8) :=
  ((addresses.filter (· ≠ [])).map addressGroup).toFinset

/-- The group of the addresses that belong to an entry. -/
def AddressEntry.group (e : AddressEntry) : Nat × Option UInt8 := (e.family, e.path.head?)

theorem mem_groups {addresses : List Bytes} {g : Nat × Option UInt8} :
    g ∈ groups addresses ↔ ∃ a ∈ addresses, a ≠ [] ∧ addressGroup a = g := by
  simp [groups, and_assoc]

theorem AddressEntry.Covers.group_eq {e : AddressEntry} {a : Bytes} (h : e.Covers a)
    (hpath : e.path ≠ []) :
    e.group = addressGroup a := by
  obtain ⟨hlength, rest, rfl⟩ := h
  rw [group, addressGroup, hlength, List.head?_append_of_ne_nil _ hpath]

namespace AddressTree

open AddressFamily

variable {t u v : AddressTree} {addresses : List Bytes} {a : Bytes} {n : Nat}

/-! ### Entries and groups -/

/-- The groups of the entries are those of the addresses. -/
theorem Holds.toFinset_groups (h : t.Holds addresses) :
    (t.entries.map AddressEntry.group).toFinset = groups addresses := by
  ext g
  rw [List.mem_toFinset, List.mem_map, mem_groups]
  constructor
  · rintro ⟨e, he, rfl⟩
    have hpath := (h.standsFor he).1
    obtain ⟨a, ha, hcovers, -⟩ := h.tight he 0
    exact ⟨a, ha, hcovers.ne_nil hpath, (hcovers.group_eq hpath).symm⟩
  · rintro ⟨a, ha, hne, rfl⟩
    obtain ⟨e, he, hcovers⟩ := h.exists_covers ha hne
    exact ⟨e, he, hcovers.group_eq (h.standsFor he).1⟩

/-- Each group has an entry. -/
theorem Holds.card_groups_le (h : t.Holds addresses) : (groups addresses).card ≤ t.leafCount := by
  rw [← h.toFinset_groups, h.leafCount_eq, ← List.length_map AddressEntry.group]
  exact List.toFinset_card_le _

/-- Two entries of a group are too many exactly when there are more entries than groups. -/
theorem Holds.nodup_groups_iff (h : t.Holds addresses) :
    (t.entries.map AddressEntry.group).Nodup ↔ t.leafCount = (groups addresses).card := by
  rw [← h.toFinset_groups, h.leafCount_eq, ← List.length_map AddressEntry.group]
  constructor
  · exact fun hnodup => (List.toFinset_card_of_nodup hnodup).symm
  · exact fun hcard => Multiset.toFinset_card_eq_card_iff_nodup.mp hcard.symm

/-- The entries of a family have groups of its length, told apart by their first bytes. -/
theorem map_group (length : Nat) (es : List (Bytes × Nat)) :
    (es.map fun entry => (⟨length, entry.1, entry.2⟩ : AddressEntry)).map AddressEntry.group =
      (es.map (·.1.head?)).map (Prod.mk length) := by
  rw [List.map_map, List.map_map]
  rfl

/-- Where no node may be folded, no two entries are in one group. -/
theorem Holds.nodup_groups (h : t.Holds addresses) (hnone : t.candidates = []) :
    (t.entries.map AddressEntry.group).Nodup := by
  simp only [candidates, List.flatMap_eq_nil_iff, List.map_eq_nil_iff] at hnone
  rw [entries, List.map_flatMap, List.nodup_flatMap]
  refine ⟨fun family hmem => ?_, h.ascending.imp fun {first second} hlt => ?_⟩
  · have hroot := h.root family hmem
    rw [map_group, hroot.entries]
    exact (hroot.below.nodup_heads (hroot.below.entryCount_eq_one (hnone family hmem))).map
      (Prod.mk_right_injective _)
  · intro g hfirst hsecond
    dsimp only at hfirst hsecond
    rw [map_group, List.mem_map] at hfirst hsecond
    obtain ⟨b, -, rfl⟩ := hfirst
    obtain ⟨c, -, heq⟩ := hsecond
    exact hlt.ne' (congrArg Prod.fst heq)

/-- **Nothing is left to fold** exactly when each group has one entry. -/
theorem Holds.candidates_eq_nil_iff (h : t.Holds addresses) :
    t.candidates = [] ↔ t.leafCount = (groups addresses).card := by
  refine ⟨fun hnone => h.nodup_groups_iff.mp (h.nodup_groups hnone), fun heq => ?_⟩
  rw [← h.foldCheapest?_eq_none_iff]
  cases hfold : t.foldCheapest? with
  | none => rfl
  | some u =>
    obtain ⟨hu, hlt⟩ := h.foldCheapest? hfold
    have hle := hu.card_groups_le
    omega

theorem Holds.countP_group (h : t.Holds addresses) (heq : t.leafCount = (groups addresses).card)
    {g : Nat × Option UInt8} (hg : g ∈ groups addresses) : t.entries.countP (·.group = g) = 1 := by
  rw [← h.toFinset_groups, List.mem_toFinset] at hg
  have hone := List.count_eq_one_of_mem (h.nodup_groups_iff.mpr heq) hg
  rw [List.count_eq_countP, List.countP_map] at hone
  rw [← hone]
  refine List.countP_congr fun e _ => ?_
  simp

/-- There are no more groups of one length than bytes. -/
theorem Holds.countP_family_le (h : t.Holds addresses) (heq : t.leafCount = (groups addresses).card)
    (length : Nat) :
    t.entries.countP (·.family = length) ≤ 256 := by
  have hnodup : ((t.entries.filter (·.family = length)).map (·.path.head?)).Nodup := by
    refine List.Nodup.of_map (Prod.mk length) ?_
    rw [List.map_map]
    have hgroup : (t.entries.filter (·.family = length)).map (Prod.mk length ∘ (·.path.head?)) =
        (t.entries.filter (·.family = length)).map AddressEntry.group := by
      refine List.map_congr_left fun e he => ?_
      rw [AddressEntry.group, of_decide_eq_true (List.mem_filter.mp he).2]
      rfl
    rw [hgroup]
    exact (h.nodup_groups_iff.mpr heq).sublist (List.filter_sublist.map _)
  -- No path is empty, so that there is room for the head of an empty one.
  have hnone : none ∉ (t.entries.filter (·.family = length)).map (·.path.head?) := by
    intro hmem
    obtain ⟨e, he, hhead⟩ := List.mem_map.mp hmem
    exact (h.standsFor (List.mem_filter.mp he).1).1 (List.head?_eq_none_iff.mp hhead)
  have hcard := (List.nodup_cons.mpr ⟨hnone, hnodup⟩).length_le_card
  rw [List.length_cons, List.length_map, ← List.countP_eq_length_filter, Fintype.card_option,
    ← FinEnum.card_eq_fintypeCard, FinEnum.card_UInt8] at hcard
  omega

/-! ### Where the loop stops -/

/-- The loop stops at the bound, or with one entry for each group. -/
theorem Shrinks.leafCount_le (hrun : t.Shrinks n u) (h : t.Holds addresses) :
    u.leafCount ≤ max u.limit (groups addresses).card := by
  induction hrun with
  | fits hle => exact le_max_of_le_left hle
  | stuck _ hnone =>
    exact le_max_of_le_right
      (h.candidates_eq_nil_iff.mp (h.foldCheapest?_eq_none_iff.mp hnone)).le
  | fold _ heq _ ih => exact ih (h.foldCheapest? heq).1

/-- One fold is enough where there is one entry too many. -/
theorem Shrinks.le_one (hrun : t.Shrinks n u) (h : t.Holds addresses)
    (hle : t.leafCount ≤ max t.limit (groups addresses).card + 1) : n ≤ 1 := by
  cases hrun with
  | fits | stuck => exact Nat.zero_le 1
  | fold hlt hfold hrun =>
    obtain ⟨hu, hless⟩ := h.foldCheapest? hfold
    have hlimit := limit_foldCheapest? hfold
    cases hrun with
    | fits | stuck => exact le_rfl
    | fold hlt' hfold' =>
      -- A second fold would leave fewer entries than groups.
      obtain ⟨hv, hless'⟩ := hu.foldCheapest? hfold'
      have hgroups := hv.card_groups_le
      omega

/-! ### Runs -/

/-- The entries fit the bound, or there is one for each group. -/
def Bounded (t : AddressTree) (addresses : List Bytes) : Prop :=
  t.leafCount ≤ max t.limit (groups addresses).card

theorem groups_subset_append (addresses more : List Bytes) :
    groups addresses ⊆ groups (addresses ++ more) := by
  intro g hg
  obtain ⟨a, ha, hne, rfl⟩ := mem_groups.mp hg
  exact mem_groups.mpr ⟨a, List.mem_append_left _ ha, hne, rfl⟩

theorem Bounded.append (hb : t.Bounded addresses) (more : List Bytes) :
    t.Bounded (addresses ++ more) :=
  hb.trans (max_le_max le_rfl (Finset.card_le_card (groups_subset_append addresses more)))

/-- **What an address does** is to be counted and to start the loop that folds. If it made no new
entry, the program leaves the loop out, which would not have folded. -/
theorem Holds.shrinks_add (h : t.Holds addresses) (hb : t.Bounded addresses) (ha : a ≠ []) :
    ∃ n, (t.counted a).Shrinks n (t.add a) := by
  have hcounted := h.counted ha
  rw [AddressTree.add, if_neg (mt List.isEmpty_iff.mp ha)]
  split_ifs with hknown
  · have hleaf : (t.counted a).leafCount = t.leafCount := if_pos hknown
    by_cases hfits : (t.counted a).leafCount ≤ (t.counted a).limit
    · exact ⟨0, .fits hfits⟩
    · refine ⟨0, .stuck (Nat.lt_of_not_le hfits) ?_⟩
      rw [hcounted.foldCheapest?_eq_none_iff, hcounted.candidates_eq_nil_iff]
      have hle : (t.counted a).leafCount ≤
          max (t.counted a).limit (groups (addresses ++ [a])).card :=
        hleaf.trans_le (hb.append [a])
      have hgroups := hcounted.card_groups_le
      omega
  · exact hcounted.shrinks_prune

theorem Holds.bounded_add (h : t.Holds addresses) (hb : t.Bounded addresses) (a : Bytes) :
    (t.add a).Bounded (addresses ++ [a]) := by
  by_cases ha : a = []
  · have hadd : t.add a = t := if_pos (List.isEmpty_iff.mpr ha)
    rw [hadd]
    exact hb.append [a]
  · obtain ⟨n, hn⟩ := h.shrinks_add hb ha
    exact hn.leafCount_le (h.counted ha)

theorem Holds.bounded_addAll (h : t.Holds addresses) (hb : t.Bounded addresses)
    (more : List Bytes) :
    (t.addAll more).Bounded (addresses ++ more) := by
  refine (addAll_induct (P := fun t addresses => t.Holds addresses ∧ t.Bounded addresses) ?_
    ⟨h, hb⟩ more).2
  rintro t addresses a ⟨h, hb⟩
  exact ⟨h.add a, h.bounded_add hb a⟩

/-- An address makes one entry too many at the most, so one fold is enough. -/
theorem Holds.shrinks_le_one (h : t.Holds addresses) (hb : t.Bounded addresses) (ha : a ≠ [])
    (hrun : (t.counted a).Shrinks n u) : n ≤ 1 := by
  refine hrun.le_one (h.counted ha) ?_
  have hle := hb.append [a]
  have hcounted : (t.counted a).leafCount ≤ t.leafCount + 1 := by
    simp only [AddressTree.counted]
    split_ifs <;> omega
  exact hcounted.trans (Nat.succ_le_succ hle)

/-- **The entries keep to the bound**, or there is exactly one for each group, which is at most 256
of a length; the number kept beside the families is right; and an address causes one fold at
most. -/
theorem leafCount_bounded (m : Nat) (addresses : List Bytes) :
    let t := (empty m).addAll addresses
    t.leafCount = t.entries.length ∧
    (groups addresses).card ≤ t.leafCount ∧ t.leafCount ≤ max (max m 1) (groups addresses).card ∧
    (t.leafCount ≤ max m 1 ∨
      (∀ g ∈ groups addresses, t.entries.countP (·.group = g) = 1) ∧
        ∀ length, t.entries.countP (·.family = length) ≤ 256) ∧
    ∀ a : Bytes, a ≠ [] →
      (∃ n, (t.counted a).Shrinks n (t.add a)) ∧ ∀ n u, (t.counted a).Shrinks n u → n ≤ 1 := by
  intro t
  have h : t.Holds addresses := holds_addAll m addresses
  have hbounded : t.Bounded addresses := (holds_empty m).bounded_addAll (Nat.zero_le _) addresses
  have hle : t.leafCount ≤ max (max m 1) (groups addresses).card := by
    have hlimit : t.limit = max m 1 := limit_addAll (empty m) addresses
    rw [← hlimit]
    exact hbounded
  refine ⟨h.leafCount_eq, h.card_groups_le, hle, ?_,
    fun a ha => ⟨h.shrinks_add hbounded ha, fun n u hrun => ?_⟩⟩
  · rcases le_max_iff.mp hle with hfits | hgroups
    · exact Or.inl hfits
    · have heq := Nat.le_antisymm hgroups h.card_groups_le
      exact Or.inr ⟨fun g hg => h.countP_group heq hg, h.countP_family_le heq⟩
  · exact h.shrinks_le_one hbounded ha hrun

/-- Three addresses alone under their first bytes exceed a bound of two; a fourth one is folded with
the third. -/
theorem leafCount_bounded_over :
    let addresses : List Bytes := [[10, 0, 1], [20, 0, 1], [30, 0, 1]]
    let t := (empty 2).addAll addresses
    t.leafCount = 3 ∧ t.entries.countP (·.group = (3, some 30)) = 1 ∧
      (∃ n, (t.counted [30, 0, 2]).Shrinks n (t.add [30, 0, 2])) ∧
      (t.add [30, 0, 2]).entries = [⟨3, [10, 0, 1], 1⟩, ⟨3, [20, 0, 1], 1⟩, ⟨3, [30, 0], 2⟩] := by
  intro addresses t
  obtain ⟨-, -, -, hbound, hfold⟩ := leafCount_bounded 2 addresses
  have hgroup := (hbound.resolve_left (by decide)).1 (3, some 30) (by decide)
  exact ⟨by decide, hgroup, (hfold [30, 0, 2] (by decide)).1, by decide⟩

end AddressTree

end TrafficSheet
