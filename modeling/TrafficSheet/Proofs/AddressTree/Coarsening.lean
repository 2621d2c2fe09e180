import TrafficSheet.Proofs.AddressTree.Cheapest

/-!
# Entries only get coarser

From one state of a run to a later one, each entry has one that its path starts with. This
is kept by counting an address, which moves no entry, and by folding a node, whose entry
takes the place of those below it. That there is exactly one such entry, that it counts as
much and that nothing finer comes back then follow from what entries are.
-/

namespace TrafficSheet

namespace Forest

/-! ### One step in a forest -/

/-- Each path of the first entries starts with a path of the second ones. -/
def Coarsens (es es' : List (Bytes × Nat)) : Prop := ∀ e ∈ es, ∃ e' ∈ es', e'.1 <+: e.1

theorem Coarsens.refl (es : List (Bytes × Nat)) : Coarsens es es :=
  fun e he => ⟨e, he, List.prefix_rfl⟩

theorem Coarsens.append {es es' others others' : List (Bytes × Nat)} (h : Coarsens es es')
    (h' : Coarsens others others') : Coarsens (es ++ others) (es' ++ others') := by
  intro e he
  rcases List.mem_append.mp he with he | he
  · obtain ⟨e', he', hp⟩ := h e he
    exact ⟨e', List.mem_append_left _ he', hp⟩
  · obtain ⟨e', he', hp⟩ := h' e he
    exact ⟨e', List.mem_append_right _ he', hp⟩

/-- Counting an address moves no entry. -/
theorem CountsOne.coarsens {a : Bytes} {es es' : List (Bytes × Nat)} (h : CountsOne a es es') :
    Coarsens es es' := by
  cases h with
  | made front back =>
    exact Coarsens.append (Coarsens.refl front) fun e he =>
      ⟨e, List.mem_cons_of_mem _ he, List.prefix_rfl⟩
  | known front back =>
    refine Coarsens.append (Coarsens.refl front) fun e he => ?_
    rcases List.mem_cons.mp he with rfl | he
    · exact ⟨_, List.mem_cons_self, List.prefix_rfl⟩
    · exact ⟨e, List.mem_cons_of_mem _ he, List.prefix_rfl⟩

end Forest

namespace AddressTree

open AddressFamily

variable {t u v : AddressTree} {addresses more : List Bytes} {a : Bytes} {e e' : AddressEntry}

/-! ### One step of a tree -/

/-- Each entry of the first tree has one of the second that its path starts with. -/
def Coarsens (t u : AddressTree) : Prop :=
  ∀ e ∈ t.entries, ∃ e' ∈ u.entries, e'.family = e.family ∧ e'.path <+: e.path

theorem Coarsens.refl (t : AddressTree) : t.Coarsens t := fun e he => ⟨e, he, rfl, List.prefix_rfl⟩

theorem Coarsens.trans (h : t.Coarsens u) (h' : u.Coarsens v) : t.Coarsens v := by
  intro e he
  obtain ⟨e', he', hfamily, hp⟩ := h e he
  obtain ⟨e'', he'', hfamily', hp'⟩ := h' e' he'
  exact ⟨e'', he'', hfamily'.trans hfamily, hp'.trans hp⟩

theorem coarsens_of_families
    (h : ∀ family ∈ t.families, ∃ family' ∈ u.families, family'.length = family.length ∧
      Forest.Coarsens family.root.entries family'.root.entries) : t.Coarsens u := by
  intro e he
  simp only [entries, List.mem_flatMap, List.mem_map] at he
  obtain ⟨family, hmem, entry, hentry, rfl⟩ := he
  obtain ⟨family', hmem', hlength, hcoarsens⟩ := h family hmem
  obtain ⟨entry', hentry', hp⟩ := hcoarsens entry hentry
  refine ⟨⟨family'.length, entry'.1, entry'.2⟩, ?_, hlength, hp⟩
  simp only [entries, List.mem_flatMap, List.mem_map]
  exact ⟨family', hmem', entry', hentry', rfl⟩

theorem Holds.coarsens_counted (h : t.Holds addresses) (a : Bytes) : t.Coarsens (t.counted a) := by
  refine coarsens_of_families fun family hmem => ?_
  by_cases hlength : family.length = a.length
  · refine ⟨_, h.ascending.mem_insertInto.mpr (Or.inr rfl), hlength.symm, ?_⟩
    rw [← hlength, h.ascending.rootOf_eq hmem]
    exact (family.root.countsOne_insert a Forest.countsOne_insert).coarsens
  · exact ⟨family, h.ascending.mem_insertInto.mpr (Or.inl ⟨hmem, hlength⟩), rfl,
      Forest.Coarsens.refl _⟩

/-- The entry of a folded node takes the place of those that it was merged from. -/
theorem FoldsTo.coarsens {c : FoldCandidate} (h : t.FoldsTo c u) : t.Coarsens u := by
  obtain ⟨front, merged, back, ht, hu, hmerged, -⟩ := h.merges
  intro e he
  rw [ht, List.mem_append, List.mem_append] at he
  rw [hu]
  rcases he with (he | he) | he
  · exact ⟨e, List.mem_append_left _ he, rfl, List.prefix_rfl⟩
  · obtain ⟨hfamily, hp⟩ := hmerged e he
    exact ⟨_, List.mem_append_right _ List.mem_cons_self, hfamily.symm, hp⟩
  · exact ⟨e, List.mem_append_right _ (List.mem_cons_of_mem _ he), rfl, List.prefix_rfl⟩

theorem Holds.coarsens_foldCheapest? (h : t.Holds addresses) (hfold : t.foldCheapest? = some u) :
    t.Coarsens u := by
  cases hc : t.cheapest? with
  | none => simp [AddressTree.foldCheapest?, hc] at hfold
  | some c =>
    obtain ⟨v, hv, hto⟩ := h.foldsTo hc
    obtain rfl : v = u := Option.some.inj (hv.symm.trans hfold)
    exact hto.coarsens

/-! ### Runs -/

theorem Holds.coarsens_prune (h : t.Holds addresses) : t.Coarsens t.prune := by
  obtain ⟨n, hn⟩ := h.shrinks_prune
  refine (hn.induct (P := fun u => u.Holds addresses ∧ t.Coarsens u) ⟨h, Coarsens.refl t⟩ ?_).2
  rintro u v ⟨hu, hcoarsens⟩ hfold
  exact ⟨(hu.foldCheapest? hfold).1, hcoarsens.trans (hu.coarsens_foldCheapest? hfold)⟩

theorem Holds.coarsens_add (h : t.Holds addresses) (a : Bytes) : t.Coarsens (t.add a) := by
  rw [AddressTree.add]
  split_ifs with hempty
  · exact Coarsens.refl t
  · exact h.coarsens_counted a
  · exact (h.coarsens_counted a).trans (h.counted (mt List.isEmpty_iff.mpr hempty)).coarsens_prune

theorem Holds.coarsens_addAll (h : t.Holds addresses) (more : List Bytes) :
    t.Coarsens (t.addAll more) := by
  refine (addAll_induct (P := fun u addresses => u.Holds addresses ∧ t.Coarsens u) ?_
    ⟨h, Coarsens.refl t⟩ more).2
  rintro u addresses a ⟨hu, hcoarsens⟩
  exact ⟨hu.add a, hcoarsens.trans (hu.coarsens_add a)⟩

/-- **Folding only coarsens.** From any state of a run to any later one, an entry has exactly one
whose path its own starts with; that one counts as much at least; and there is none with a longer
path. -/
theorem entries_only_coarsen (m : Nat) (addresses more : List Bytes) :
    let t := (empty m).addAll addresses
    let later := t.addAll more
    ∀ e ∈ t.entries,
      later.entries.countP (fun e' => e'.family = e.family ∧ e'.path <+: e.path) = 1 ∧
      (∀ e' ∈ later.entries, e'.family = e.family → e'.path <+: e.path → e.count ≤ e'.count) ∧
      ∀ e' ∈ later.entries, e'.family = e.family → e.path <+: e'.path → e'.path = e.path := by
  intro t later e he
  have h : t.Holds addresses := holds_addAll m addresses
  have hlater : later.Holds (addresses ++ more) := h.addAll more
  obtain ⟨coarser, hcoarser, hfamily, hp⟩ := h.coarsens_addAll more e he
  refine ⟨?_, fun e' he' hfamily' hp' => ?_, fun e' he' hfamily' hp' => ?_⟩
  · obtain ⟨a, ha, hcovers, -⟩ := h.tight he 0
    have hne := hcovers.ne_nil (h.standsFor he).1
    refine Nat.le_antisymm ?_
      (List.countP_pos_iff.mpr ⟨coarser, hcoarser, decide_eq_true ⟨hfamily, hp⟩⟩)
    rw [← hlater.countP_covers (List.mem_append_left more ha) hne]
    refine List.countP_mono_left fun e' _ hle => ?_
    obtain ⟨hfamily', hp'⟩ := of_decide_eq_true hle
    exact decide_eq_true (hcovers.of_shorter hfamily' hp')
  · rw [h.count_eq he, hlater.count_eq he', List.countP_append]
    refine Nat.le_add_right_of_le (List.countP_mono_left fun a _ hcovers => ?_)
    exact decide_eq_true ((of_decide_eq_true hcovers).of_shorter hfamily' hp')
  · -- The coarser entry starts the finer one, and so is the same.
    have hsame := hlater.eq_of_starts he' hcoarser (hfamily.trans hfamily'.symm) (hp.trans hp')
    exact (hsame ▸ hp).eq_of_length_le hp'.length_le

/-- The second entry under 10 leads to a fold of both, which a third address does not split. -/
theorem entries_only_coarsen_folded :
    let t := (empty 1).addAll [[10, 0, 1]]
    let later := t.addAll [[10, 0, 2], [10, 0, 1]]
    ⟨3, [10, 0, 1], 1⟩ ∈ t.entries ∧ later.entries = [⟨3, [10, 0], 3⟩] ∧
      later.entries.countP (fun e' => e'.family = 3 ∧ e'.path <+: [10, 0, 1]) = 1 := by
  intro t later
  have hmem : ⟨3, [10, 0, 1], 1⟩ ∈ t.entries := by decide
  exact ⟨hmem, by decide, (entries_only_coarsen 1 [[10, 0, 1]] [[10, 0, 2], [10, 0, 1]] _ hmem).1⟩

end AddressTree

end TrafficSheet
