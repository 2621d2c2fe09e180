import TrafficSheet.Proofs.AddressTree.Entries
import TrafficSheet.Proofs.AddressTree.Foldables

/-!
# The cheapest node is folded

In every state that counting addresses leads to, the ones inside the loop that folds
included (`Reached`), the node that the walk finds is the cheapest one, and of equally cheap
ones the first (`Holds.isCheapest`). Folding it merges its entries, and no others
(`Holds.foldsTo`), so that there are fewer entries and the loop ends (`Shrinks.rounds_le`).
-/

namespace TrafficSheet

/-- A node is met before another: in a family of shorter addresses, or on the walk over the same. -/
def FoldCandidate.Before (c c' : FoldCandidate) : Prop :=
  c.family < c'.family ∨ c.family = c'.family ∧ WalkedBefore c.path c'.path

/-- One entry for those of a family that start with a path. -/
def AddressEntry.mergeAt (family : Nat) (path : Bytes) (es : List AddressEntry) : AddressEntry :=
  ⟨family, path, (es.map (·.count)).sum⟩

/-- In a list that is ordered by `R`, an element is related to those that stand after it. -/
theorem rel_of_idxOf_le {α : Type} [DecidableEq α] {R : α → α → Prop} {l : List α}
    (h : l.Pairwise R) {a b : α} (ha : a ∈ l) (hb : b ∈ l) (hle : l.idxOf a ≤ l.idxOf b)
    (hne : b ≠ a) : R a b := by
  have hlt : l.idxOf a < l.idxOf b :=
    Nat.lt_of_le_of_ne hle fun heq => hne ((List.idxOf_inj ha).mp heq).symm
  have hrel := List.pairwise_iff_getElem.mp h _ _ (List.idxOf_lt_length_of_mem ha)
    (List.idxOf_lt_length_of_mem hb) hlt
  rwa [List.getElem_idxOf, List.getElem_idxOf] at hrel

namespace AddressTree

open AddressFamily

variable {t u v : AddressTree} {addresses : List Bytes} {m n : Nat} {c : FoldCandidate}
variable {length : Nat} {path : Bytes} {node : Forest.Node}

/-! ### Nodes that may be folded -/

/-- The node at a path of a family may be folded. It is below the root, to which no path leads. -/
structure FoldableAt (t : AddressTree) (length : Nat) (path : Bytes) (node : Forest.Node) :
    Prop where
  /-- The path leads to it. -/
  found : (rootOf length t.families).below.find? path = some node
  /-- Two entries or more are at or below it. -/
  several : 2 ≤ node.entries.length
  /-- One entry is at or below each of its children. -/
  single : ∀ child ∈ node.below.nodes, child.2.entries.length = 1

/-- A node below a root is in one of the families. -/
theorem Holds.exists_family (h : t.Holds addresses)
    (hfind : (AddressFamily.rootOf length t.families).below.find? path = some node) :
    ∃ family ∈ t.families, family.length = length ∧ family.root.below.find? path = some node := by
  by_cases hfamily : ∃ family ∈ t.families, family.length = length
  · obtain ⟨family, hmem, rfl⟩ := hfamily
    rw [h.ascending.rootOf_eq hmem] at hfind
    exact ⟨family, hmem, rfl, hfind⟩
  · have hfresh : AddressFamily.rootOf length t.families = .fresh :=
      rootOf_eq_fresh fun family hmem heq => hfamily ⟨family, hmem, heq⟩
    rw [hfresh] at hfind
    exact absurd hfind (by simp [Forest.Node.fresh])

/-- **The candidates** are the nodes that may be folded. -/
theorem Holds.mem_candidates (h : t.Holds addresses) :
    c ∈ t.candidates ↔ ∃ node, t.FoldableAt c.family c.path node ∧ node.total = c.total := by
  simp only [candidates, List.mem_flatMap, List.mem_map]
  constructor
  · rintro ⟨family, hmem, ⟨path, node⟩, hfoldable, rfl⟩
    have hbelow := (h.root family hmem).below
    obtain ⟨hfind, hfold⟩ := hbelow.mem_foldables_iff.mp hfoldable
    obtain ⟨hseveral, hsingle⟩ := (hbelow.find? hfind).foldable_iff.mp hfold
    refine ⟨node, ⟨?_, hseveral, hsingle⟩, rfl⟩
    rw [Forest.candidate, h.ascending.rootOf_eq hmem]
    exact hfind
  · rintro ⟨node, hfoldable, htotal⟩
    obtain ⟨family, hmem, hlength, hfind⟩ := h.exists_family hfoldable.found
    have hbelow := (h.root family hmem).below
    have hfold := (hbelow.find? hfind).foldable_iff.mpr ⟨hfoldable.several, hfoldable.single⟩
    refine ⟨family, hmem, (c.path, node), hbelow.mem_foldables hfind hfold, ?_⟩
    rw [Forest.candidate, hlength, htotal]
    rfl

/-- The candidates are in the order of the walk. -/
theorem Holds.pairwise_candidates (h : t.Holds addresses) :
    t.candidates.Pairwise FoldCandidate.Before := by
  rw [candidates, List.pairwise_flatMap]
  refine ⟨fun family hmem => ?_, h.ascending.imp fun {first second} hlt => ?_⟩
  · rw [List.pairwise_map]
    exact (h.root family hmem).below.pairwise_foldables.imp fun hbefore => Or.inr ⟨rfl, hbefore⟩
  · intro c hc c' hc'
    obtain ⟨found, -, rfl⟩ := List.mem_map.mp hc
    obtain ⟨found', -, rfl⟩ := List.mem_map.mp hc'
    exact Or.inl hlt

/-! ### The cheapest one -/

/-- The candidate is the first of the nodes with the least total that may be folded. -/
structure IsCheapest (t : AddressTree) (c : FoldCandidate) : Prop where
  /-- It is such a node. -/
  foldable : ∃ node, t.FoldableAt c.family c.path node ∧ node.total = c.total
  /-- None has a smaller total. -/
  least : ∀ length path node, t.FoldableAt length path node → c.total ≤ node.total
  /-- It is met before all others with its total. -/
  first : ∀ length path node, t.FoldableAt length path node → node.total = c.total →
    length = c.family ∧ path = c.path ∨ c.Before ⟨length, path, node.total⟩

/-- **The walk finds** the cheapest node. -/
theorem Holds.isCheapest (h : t.Holds addresses) (hc : t.cheapest? = some c) :
    t.IsCheapest c := by
  obtain ⟨hmem, hleast, hfirst⟩ := List.mem_argmin_iff.mp (t.cheapest?_eq_argmin ▸ hc)
  have hother : ∀ {length path node}, t.FoldableAt length path node →
      ⟨length, path, node.total⟩ ∈ t.candidates :=
    fun hfoldable => h.mem_candidates.mpr ⟨_, hfoldable, rfl⟩
  refine ⟨h.mem_candidates.mp hmem, fun _ _ _ hfoldable => hleast _ (hother hfoldable), ?_⟩
  intro length path node hfoldable htotal
  by_cases heq : (⟨length, path, node.total⟩ : FoldCandidate) = c
  · left
    rw [← heq]
    exact ⟨rfl, rfl⟩
  · right
    refine rel_of_idxOf_le h.pairwise_candidates hmem (hother hfoldable) ?_ heq
    exact hfirst _ (hother hfoldable) htotal.le

theorem Holds.cheapest?_eq_none_iff (h : t.Holds addresses) :
    t.cheapest? = none ↔ ∀ length path node, ¬ t.FoldableAt length path node := by
  rw [cheapest?_eq_argmin, List.argmin_eq_none, List.eq_nil_iff_forall_not_mem]
  constructor
  · intro hnone length path node hfoldable
    exact hnone ⟨length, path, node.total⟩ (h.mem_candidates.mpr ⟨node, hfoldable, rfl⟩)
  · intro hnone c hmem
    obtain ⟨node, hfoldable, -⟩ := h.mem_candidates.mp hmem
    exact hnone c.family c.path node hfoldable

/-! ### What folding changes -/

/-- The tree is folded at a candidate. -/
structure FoldsTo (t : AddressTree) (c : FoldCandidate) (u : AddressTree) : Prop where
  /-- The entries at and below its path become one that counts what they counted. -/
  merges : Merges (fun e => e.family = c.family ∧ c.path <+: e.path)
    (AddressEntry.mergeAt c.family c.path) t.entries u.entries
  /-- There are fewer entries. -/
  fewer : u.leafCount < t.leafCount
  /-- The number of entries is kept right. -/
  leafCount : t.leafCount = t.entries.length ∧ u.leafCount = u.entries.length
  /-- The bound stays, and so does the total. -/
  stays : u.limit = t.limit ∧ u.total = t.total

/-- The entries of one family. -/
def familyEntries (family : AddressFamily) : List AddressEntry :=
  family.root.entries.map fun entry => ⟨family.length, entry.1, entry.2⟩

theorem entries_eq_flatMap (t : AddressTree) : t.entries = t.families.flatMap familyEntries := rfl

/-- Folding in a family merges entries of that family. -/
theorem merges_familyEntries {family : AddressFamily}
    (hroot : family.root.RootOf (ofLength family.length addresses))
    (hpath : path ≠ []) (hfind : family.root.below.find? path = some node) :
    Merges (fun e => e.family = family.length ∧ path <+: e.path)
      (AddressEntry.mergeAt family.length path) (familyEntries family)
      (familyEntries { family with root := family.root.fold path }) := by
  have hfold : (family.root.fold path).entries = (family.root.below.fold path).entries := by
    rw [Forest.Node.fold_of_ne_nil hpath, hroot.count, Forest.Node.entries_inner]
  rw [familyEntries, familyEntries, hroot.entries, hfold]
  refine (hroot.below.merges_fold hfind).map _ (fun e => and_iff_right rfl) fun es => ?_
  rw [Forest.mergeAt, AddressEntry.mergeAt, List.map_map]
  rfl

theorem Holds.merges_folded (h : t.Holds addresses) {family : AddressFamily}
    (hmem : family ∈ t.families) (hpath : path ≠ [])
    (hfind : family.root.below.find? path = some node) (entries : Nat) :
    Merges (fun e => e.family = family.length ∧ path <+: e.path)
      (AddressEntry.mergeAt family.length path) t.entries
      (t.folded family.length path entries).entries := by
  obtain ⟨front, back, hfamilies⟩ := List.append_of_mem hmem
  have hascending := h.ascending
  rw [hfamilies, Ascending, List.pairwise_append, List.pairwise_cons] at hascending
  obtain ⟨-, ⟨hback, -⟩, hfront⟩ := hascending
  have hfrontNe : ∀ other ∈ front, other.length ≠ family.length :=
    fun other hother => (hfront other hother family List.mem_cons_self).ne
  have hbackNe : ∀ other ∈ back, other.length ≠ family.length :=
    fun other hother => (hback other hother).ne'
  have hnot : ∀ others : List AddressFamily, (∀ other ∈ others, other.length ≠ family.length) →
      ∀ e ∈ others.flatMap familyEntries, ¬ (e.family = family.length ∧ path <+: e.path) := by
    intro others hothers e he heq
    obtain ⟨other, hother, hentry⟩ := List.mem_flatMap.mp he
    obtain ⟨entry, -, rfl⟩ := List.mem_map.mp hentry
    exact hothers other hother heq.1
  have hafter : (t.folded family.length path entries).families =
      front ++ { family with root := family.root.fold path } :: back := by
    show foldIn family.length path t.families = _
    rw [hfamilies, foldIn, List.map_append, List.map_cons, if_pos rfl]
    exact congrArg₂ (· ++ _ :: ·) (foldIn_eq_self hfrontNe) (foldIn_eq_self hbackNe)
  rw [entries_eq_flatMap t, entries_eq_flatMap (t.folded _ _ _), hafter, hfamilies,
    List.flatMap_append, List.flatMap_append, List.flatMap_cons, List.flatMap_cons]
  refine Merges.append_left (Merges.append_right ?_ (hnot back hbackNe)) (hnot front hfrontNe)
  exact merges_familyEntries (h.root family hmem) hpath hfind

/-- **Folding the cheapest node** works out, and changes its entries only. -/
theorem Holds.foldsTo (h : t.Holds addresses) (hc : t.cheapest? = some c) :
    ∃ u, t.foldCheapest? = some u ∧ t.FoldsTo c u := by
  obtain ⟨family, hmem, hlength, node, hpath, hfind, -, heq⟩ := h.foldCheapest?_of_cheapest? hc
  obtain ⟨hu, hless⟩ := h.foldCheapest? heq
  have hmerges := h.merges_folded hmem hpath hfind node.entryCount
  rw [hlength] at hmerges heq hu hless
  exact ⟨_, heq, hmerges, hless, ⟨h.leafCount_eq, hu.leafCount_eq⟩, rfl, rfl⟩

/-! ### The loop that folds -/

/-- There are no more rounds than entries above the bound. -/
theorem Shrinks.rounds_le (hrun : t.Shrinks n v) (h : t.Holds addresses) :
    n ≤ t.leafCount - t.limit := by
  induction hrun with
  | fits | stuck => exact Nat.zero_le _
  | fold hlt hfold _ ih =>
    obtain ⟨hu, hless⟩ := h.foldCheapest? hfold
    have hrounds := ih hu
    have hlimit := limit_foldCheapest? hfold
    omega

/-- The states that counting addresses goes through, from a tree with the bound `m`. -/
inductive Reached (m : Nat) : AddressTree → Prop where
  /-- Some addresses were counted. -/
  | addAll (addresses : List Bytes) : Reached m ((empty m).addAll addresses)
  /-- A further one was, and nothing is folded for it yet. -/
  | counted (addresses : List Bytes) {a : Bytes} :
      a ≠ [] → Reached m (((empty m).addAll addresses).counted a)
  /-- The loop went once around. -/
  | folded {t u : AddressTree} :
      Reached m t → t.limit < t.leafCount → t.foldCheapest? = some u → Reached m u

theorem Reached.holds (hreached : Reached m t) : ∃ addresses, t.Holds addresses := by
  induction hreached with
  | addAll addresses => exact ⟨_, holds_addAll m addresses⟩
  | counted addresses ha => exact ⟨_, (holds_addAll m addresses).counted ha⟩
  | folded _ _ hfold ih =>
    obtain ⟨addresses, h⟩ := ih
    exact ⟨addresses, (h.foldCheapest? hfold).1⟩

/-- **The cheapest node is folded**, in every state: the walk finds no node exactly when none may be
folded, and else the first of the cheapest; folding that one always works, and merges its entries
and no others; and the loop ends. -/
theorem Reached.folds_cheapest (hreached : Reached m t) :
    (t.cheapest? = none ↔ ∀ length path node, ¬ t.FoldableAt length path node) ∧
    (∀ c, t.cheapest? = some c →
      t.IsCheapest c ∧ ∃ u, t.foldCheapest? = some u ∧ t.FoldsTo c u) ∧
    ∃ n ≤ t.leafCount - t.limit, t.Shrinks n t.prune := by
  obtain ⟨addresses, h⟩ := hreached.holds
  refine ⟨h.cheapest?_eq_none_iff, fun c hc => ⟨h.isCheapest hc, h.foldsTo hc⟩, ?_⟩
  obtain ⟨n, hrun⟩ := h.shrinks_prune
  exact ⟨n, hrun.rounds_le h, hrun⟩

/-- Two nodes cost two addresses each; the fourth address has just been counted, and the node that
is met first is folded. -/
theorem Reached.folds_cheapest_first :
    let t := ((empty 3).addAll [[20, 2], [10, 1], [20, 1]]).counted [10, 2]
    Reached 3 t ∧ t.cheapest? = some ⟨2, [10], 2⟩ ∧ t.IsCheapest ⟨2, [10], 2⟩ ∧
      ∃ u, t.foldCheapest? = some u ∧ t.FoldsTo ⟨2, [10], 2⟩ u ∧
        u.entries = [⟨2, [10], 2⟩, ⟨2, [20, 1], 1⟩, ⟨2, [20, 2], 1⟩] := by
  intro t
  have hreached : Reached 3 t := .counted [[20, 2], [10, 1], [20, 1]] (by decide)
  have hcheapest : t.cheapest? = some ⟨2, [10], 2⟩ := by decide
  obtain ⟨-, hfolds, -⟩ := Reached.folds_cheapest hreached
  obtain ⟨hfirst, u, hfold, hto⟩ := hfolds _ hcheapest
  have hentries : t.foldCheapest?.map entries =
      some [⟨2, [10], 2⟩, ⟨2, [20, 1], 1⟩, ⟨2, [20, 2], 1⟩] := by decide
  rw [hfold] at hentries
  exact ⟨hreached, hcheapest, hfirst, u, hfold, hto, Option.some.inj hentries⟩

end AddressTree

end TrafficSheet
