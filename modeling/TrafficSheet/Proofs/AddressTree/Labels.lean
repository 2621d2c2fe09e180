import TrafficSheet.Proofs.AddressTree.LabelFormat
import TrafficSheet.Proofs.AddressTree.Order
import TrafficSheet.Proofs.Ranking

/-!
# Addresses by their labels

An address list counts the entries of a tree under their labels. If two entries had one label,
their counts would run together. This does not happen to entries of four and of sixteen bytes: a
label is the text of one path in one family, so each entry keeps its own count
(`AddressTree.tally_has_entries`).
-/

namespace TrafficSheet

namespace AddressLabel

/-- A path with a byte, of an address of four or of sixteen bytes. -/
structure IsPath (family : Nat) (path : Bytes) : Prop where
  /-- Addresses of no other lengths are counted. -/
  known : family = 4 ∨ family = 16
  /-- The path has a byte. -/
  ne_nil : path ≠ []
  /-- The path is not longer than the address. -/
  length_le : path.length ≤ family

variable {family family' : Nat} {path path' : Bytes}

theorem IsPath.pathText (h : IsPath family path) : PathText family path (ofPath family path) :=
  pathText_ofPath h.known h.length_le

/-- **Different paths have different labels.** -/
theorem IsPath.ofPath_ne (h : IsPath family path) (h' : IsPath family' path')
    (hne : (family, path) ≠ (family', path')) : ofPath family path ≠ ofPath family' path' := by
  intro heq
  have htext : PathText family' path' (ofPath family path) := heq ▸ h'.pathText
  obtain ⟨rfl, rfl⟩ := h.pathText.unique htext
  exact hne rfl

end AddressLabel

/-- The label of an entry with its count. -/
def AddressEntry.labelled (e : AddressEntry) : Ranked := (e.label, e.count)

namespace AddressTree

open AddressLabel

variable {t : AddressTree} {addresses : List Bytes} {e : AddressEntry}

theorem Holds.isPath (h : t.Holds addresses)
    (hlength : ∀ a ∈ addresses, a.length = 4 ∨ a.length = 16) (he : e ∈ t.entries) :
    IsPath e.family e.path := by
  obtain ⟨a, ha, hcovers, -⟩ := h.tight he 0
  exact ⟨hcovers.1 ▸ hlength a ha, (h.standsFor he).1, hcovers.1 ▸ hcovers.2.length_le⟩

theorem Holds.nodup_labels (h : t.Holds addresses)
    (hlength : ∀ a ∈ addresses, a.length = 4 ∨ a.length = 16) :
    (t.entries.map AddressEntry.label).Nodup := by
  refine List.Nodup.map_on (fun e he e' he' heq => ?_) h.nodup_entries
  by_contra hne
  refine IsPath.ofPath_ne (h.isPath hlength he) (h.isPath hlength he') (fun hsame => hne ?_) heq
  obtain ⟨hfamily, hpath⟩ := Prod.mk.inj hsame
  exact h.eq_of_starts he' he hfamily (hpath ▸ List.prefix_rfl)

/-- The tally has as many labels as the tree has entries, and their counts. -/
theorem Holds.perm_tally (h : t.Holds addresses)
    (hlength : ∀ a ∈ addresses, a.length = 4 ∨ a.length = 16) :
    t.tally.counts.toList.Perm (t.entries.map AddressEntry.labelled) := by
  refine Tally.perm_toList_ofList ?_
  rw [List.map_map]
  exact h.nodup_labels hlength

theorem Holds.sum_tally (h : t.Holds addresses) : t.tally.sum = t.total := by
  rw [tally, Tally.sum_ofList, List.map_map, h.total, ← h.sum_counts]
  rfl

/-- **An address list says what its tree holds.** Every path is written in the one format, and
different paths are written differently. So the tally of a tree has one label for each entry, with
the count of that entry; its sum is the total of the tree; and the list has the first ten entries of
the one order by count and then by label. -/
theorem tally_has_entries :
    (∀ family path, IsPath family path → PathText family path (ofPath family path)) ∧
    (∀ family path family' path', IsPath family path → IsPath family' path' →
      (family, path) ≠ (family', path') → ofPath family path ≠ ofPath family' path') ∧
    ∀ (m : Nat) (addresses : List Bytes), (∀ a ∈ addresses, a.length = 4 ∨ a.length = 16) →
      let t := (empty m).addAll addresses
      (t.entries.map AddressEntry.label).Nodup ∧
      t.tally.counts.toList.Perm (t.entries.map AddressEntry.labelled) ∧ t.tally.sum = t.total ∧
      ∃! ranking : List Ranked, ranking.Perm (t.entries.map AddressEntry.labelled) ∧
        ranking.Pairwise Ranked.Before ∧ t.ranked = ⟨ranking.take 10, t.total⟩ := by
  refine ⟨fun family path h => h.pathText, fun family path family' path' h h' => h.ofPath_ne h', ?_⟩
  intro m addresses hlength t
  have h : t.Holds addresses := holds_addAll m addresses
  have hperm := h.perm_tally hlength
  refine ⟨h.nodup_labels hlength, hperm, h.sum_tally, t.tally.ranking, ⟨?_, ?_, ?_⟩, ?_⟩
  · exact t.tally.perm_ranking.trans hperm
  · exact t.tally.pairwise_ranking
  · rw [ranked, Tally.ranked, h.sum_tally]
    rfl
  · rintro other ⟨hother, hsorted, -⟩
    exact (Tally.ranking_eq (hother.trans hperm.symm) hsorted).symm

/-- Three addresses of four bytes are folded, and one of sixteen that maps the first of them is
not; their labels differ. -/
theorem tally_has_entries_mapped :
    let addresses : List Bytes :=
      [[10, 0, 0, 1], [10, 0, 0, 2], mappedPrefix ++ [10, 0, 0, 1], [10, 0, 0, 3]]
    let t := (empty 2).addAll addresses
    t.entries = [⟨4, [10, 0, 0], 3⟩, ⟨16, mappedPrefix ++ [10, 0, 0, 1], 1⟩] ∧
      ofPath 4 [10, 0, 0, 1] ≠ ofPath 16 (mappedPrefix ++ [10, 0, 0, 1]) ∧
      (t.entries.map AddressEntry.label).Nodup ∧
      t.tally.counts.toList.Perm (t.entries.map AddressEntry.labelled) ∧ t.tally.sum = t.total := by
  intro addresses t
  obtain ⟨-, hdiffer, hcounts⟩ := tally_has_entries
  obtain ⟨hnodup, hperm, hsum, -⟩ := hcounts 2 addresses (by decide)
  refine ⟨by decide, hdiffer 4 [10, 0, 0, 1] 16 (mappedPrefix ++ [10, 0, 0, 1]) ?_ ?_ (by decide),
    hnodup, hperm, hsum⟩
  · exact ⟨Or.inl rfl, by decide, by decide⟩
  · exact ⟨Or.inr rfl, by decide, by decide⟩

end AddressTree

end TrafficSheet
