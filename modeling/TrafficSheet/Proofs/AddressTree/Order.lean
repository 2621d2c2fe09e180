import TrafficSheet.Proofs.AddressTree.Entries

/-!
# The order of entries

A tree lists its entries by family, and those of a family by path, byte by byte
(`AddressTree.Holds.pairwise_entries`). So the list is known from what is in it
(`AddressTree.Holds.entries_eq`).
-/

namespace TrafficSheet

namespace Forest

/-- The entries of a forest of later bytes start with these. -/
theorem Holds.head?_gt {byte : UInt8} {f : Forest} {l : List Bytes} (h : f.Holds l)
    (hafter : StartAfter byte l) {e : Bytes × Nat} (he : e ∈ f.entries) :
    ∃ next rest, e.1 = next :: rest ∧ byte < next := by
  obtain ⟨a, ha, ⟨more, rfl⟩, -⟩ := (h.standsFor he).tight 0
  obtain ⟨first, rest, hpath⟩ := List.exists_cons_of_ne_nil (path_ne_nil he)
  obtain ⟨next, hnext, hlt⟩ := hafter _ ha
  rw [hpath, List.cons_append, List.head?_cons, Option.mem_some_iff] at hnext
  exact ⟨first, rest, hpath, hnext ▸ hlt⟩

/-- The paths of a forest are in ascending order. -/
theorem Holds.pairwise_entries {f : Forest} {l : List Bytes} (h : f.Holds l) :
    f.entries.Pairwise fun e e' => e.1 < e'.1 := by
  induction f generalizing l with
  | empty => exact List.Pairwise.nil
  | node byte total count below beside ihBelow ihBeside =>
    obtain ⟨hnode, hafter, hbeside⟩ := holds_node_iff.mp h
    rw [entries_node, List.pairwise_append, List.pairwise_map]
    refine ⟨?_, ihBeside hbeside, fun e he e' he' => ?_⟩
    · have hinner : (Node.entries ⟨total, count, below⟩).Pairwise fun e e' => e.1 < e'.1 := by
        rcases hnode.entries_cases with ⟨heq, -⟩ | ⟨heq, hl⟩
        · rw [heq]
          exact List.pairwise_singleton _ _
        · rw [heq]
          exact ihBelow hl
      exact hinner.imp fun hlt => List.cons_lt_cons_iff.mpr (Or.inr ⟨rfl, hlt⟩)
    · obtain ⟨inner, -, rfl⟩ := List.mem_map.mp he
      obtain ⟨next, rest, hpath, hlt⟩ := hbeside.head?_gt hafter he'
      rw [hpath]
      exact List.cons_lt_cons_iff.mpr (Or.inl hlt)

end Forest

/-! ### Entries of a tree -/

/-- An entry is listed before another: by a smaller family, or by a smaller path in the same one. -/
def AddressEntry.Precedes (e e' : AddressEntry) : Prop :=
  e.family < e'.family ∨ e.family = e'.family ∧ e.path < e'.path

theorem AddressEntry.Precedes.asymm {e e' : AddressEntry} (h : e.Precedes e') :
    ¬e'.Precedes e := by
  rintro (hlt | ⟨heq, hlt⟩)
  · rcases h with hlt' | ⟨heq', -⟩ <;> omega
  · rcases h with hlt' | ⟨-, hlt'⟩
    · omega
    · exact List.lt_asymm hlt hlt'

instance : Std.Asymm AddressEntry.Precedes := ⟨fun _ _ => AddressEntry.Precedes.asymm⟩

namespace AddressTree

variable {t u : AddressTree} {addresses addresses' : List Bytes}

/-- **Entries are listed** by family and path. -/
theorem Holds.pairwise_entries (h : t.Holds addresses) :
    t.entries.Pairwise AddressEntry.Precedes := by
  rw [entries, List.pairwise_flatMap]
  refine ⟨fun family hmem => ?_, h.ascending.imp fun {first second} hlt => ?_⟩
  · have hroot := h.root family hmem
    rw [List.pairwise_map, hroot.entries]
    exact hroot.below.pairwise_entries.imp fun hlt => Or.inr ⟨rfl, hlt⟩
  · intro e he e' he'
    obtain ⟨entry, -, rfl⟩ := List.mem_map.mp he
    obtain ⟨entry', -, rfl⟩ := List.mem_map.mp he'
    exact Or.inl hlt

theorem Holds.nodup_entries (h : t.Holds addresses) : t.entries.Nodup :=
  h.pairwise_entries.imp fun hlt => ne_of_irrefl hlt

/-- Trees with the same entries list them alike. -/
theorem Holds.entries_eq (h : t.Holds addresses) (h' : u.Holds addresses')
    (hmem : ∀ e, e ∈ t.entries ↔ e ∈ u.entries) : t.entries = u.entries :=
  h.pairwise_entries.eq_of_mem_iff h'.pairwise_entries hmem

end AddressTree

end TrafficSheet
