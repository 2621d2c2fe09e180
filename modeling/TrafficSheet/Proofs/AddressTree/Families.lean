import TrafficSheet.Proofs.AddressTree.Counting
import TrafficSheet.Proofs.AddressTree.Folding

/-!
# Families of addresses

Addresses of one length have a root of their own. A root is never an entry and never
folded; below it stands a forest that holds the family's addresses (`RootOf`). The families
are in ascending order of length, so that the one of a length is found, and counting or
folding in it changes no other.
-/

namespace TrafficSheet

/-- The addresses of one length. -/
def ofLength (length : Nat) (addresses : List Bytes) : List Bytes :=
  addresses.filter (·.length == length)

@[simp] theorem mem_ofLength {length : Nat} {addresses : List Bytes} {a : Bytes} :
    a ∈ ofLength length addresses ↔ a ∈ addresses ∧ a.length = length := by
  simp [ofLength]

theorem ofLength_append_self (addresses : List Bytes) (a : Bytes) :
    ofLength a.length (addresses ++ [a]) = ofLength a.length addresses ++ [a] := by
  simp [ofLength]

theorem ofLength_append_other {length : Nat} {a : Bytes} (h : length ≠ a.length)
    (addresses : List Bytes) :
    ofLength length (addresses ++ [a]) = ofLength length addresses := by
  simp [ofLength, h.symm]

namespace Forest.Node

variable {n m : Forest.Node} {l : List Bytes} {a path : Bytes}

/-! ### Roots -/

/-- The node is the root of the addresses `l`: all pass through it and none ends there. -/
structure RootOf (n : Node) (l : List Bytes) : Prop where
  /-- It is no entry. -/
  count : n.count = 0
  /-- All addresses reached it. -/
  total : n.total = l.length
  /-- They go on below it. -/
  below : n.below.Holds l

theorem fresh_rootOf : fresh.RootOf [] := ⟨rfl, rfl, rfl⟩

theorem RootOf.eq (h : n.RootOf l) : n = ⟨l.length, 0, n.below⟩ := by
  rw [← h.total, ← h.count]

theorem RootOf.entries (h : n.RootOf l) : n.entries = n.below.entries := by
  rw [h.eq, entries_inner]

theorem RootOf.entryCount (h : n.RootOf l) : n.entryCount = n.below.entryCount := by
  by_cases hbelow : n.below = .empty
  · simp [Node.entryCount, hbelow, isEmpty, h.count, Forest.entryCount]
  · rw [h.eq, entryCount_inner hbelow]

theorem RootOf.hits (h : n.RootOf l) (ha : a ≠ []) : n.hits a = n.below.hits a := by
  by_cases hbelow : n.below = .empty
  · obtain ⟨byte, rest, rfl⟩ := List.exists_cons_of_ne_nil ha
    simp [Node.hits, hbelow, isEmpty, h.count, Forest.hits]
  · rw [h.eq, hits_inner ha hbelow]

theorem RootOf.below_insert (h : n.RootOf l) (ha : a ≠ []) :
    (n.insert a).below = n.below.insert a := by
  rw [h.eq, insert_inner ha]

theorem RootOf.insert (h : n.RootOf l) (ha : a ≠ []) (hlen : ∀ b ∈ l, b.length = a.length) :
    (n.insert a).RootOf (l ++ [a]) := by
  rw [h.eq, insert_inner ha]
  exact ⟨rfl, by simp, h.below.insert ha hlen⟩

theorem RootOf.entryCount_insert (h : n.RootOf l) (ha : a ≠ [])
    (hlen : ∀ b ∈ l, b.length = a.length) :
    (n.insert a).entryCount = n.entryCount + if 0 < n.hits a then 0 else 1 := by
  rw [(h.insert ha hlen).entryCount, h.below_insert ha, h.entryCount, h.hits ha,
    h.below.entryCount_insert ha hlen]

theorem RootOf.fold (h : n.RootOf l) (hpath : path ≠ []) (hfind : n.below.find? path = some m)
    (hfold : m.Foldable) : (n.fold path).RootOf l := by
  rw [fold_of_ne_nil hpath]
  exact ⟨h.count, h.total, h.below.fold hfind hfold⟩

theorem RootOf.entryCount_fold (h : n.RootOf l) (hpath : path ≠ [])
    (hfind : n.below.find? path = some m)
    (hfold : m.Foldable) : (n.fold path).entryCount + m.entryCount = n.entryCount + 1 := by
  rw [(h.fold hpath hfind hfold).entryCount, h.entryCount, fold_of_ne_nil hpath,
    h.below.entryCount_fold hfind]

end Forest.Node

namespace AddressFamily

/-! ### Looking up a family -/

/-- The families are in ascending order of length. -/
def Ascending (families : List AddressFamily) : Prop := families.Pairwise (·.length < ·.length)

variable {families : List AddressFamily} {family : AddressFamily} {length : Nat} {a path : Bytes}

theorem rootOf_cons :
    rootOf length (family :: families) =
      if family.length = length then family.root else rootOf length families := by
  by_cases h : family.length = length
  · simp [rootOf, h]
  · simp [rootOf, h]

theorem rootOf_eq_fresh (h : ∀ family ∈ families, family.length ≠ length) :
    rootOf length families = .fresh := by
  induction families with
  | nil => rfl
  | cons family families ih =>
    obtain ⟨hne, h⟩ := List.forall_mem_cons.mp h
    rw [rootOf_cons, if_neg hne, ih h]

theorem Ascending.rootOf_eq (h : Ascending families) (hmem : family ∈ families) :
    rootOf family.length families = family.root := by
  induction families with
  | nil => exact absurd hmem List.not_mem_nil
  | cons first families ih =>
    obtain ⟨hlt, h⟩ := List.pairwise_cons.mp h
    rcases List.mem_cons.mp hmem with rfl | hmem
    · rw [rootOf_cons, if_pos rfl]
    · rw [rootOf_cons, if_neg (hlt _ hmem).ne, ih h hmem]

theorem Ascending.nodup (h : Ascending families) : families.Nodup :=
  h.imp fun hlt heq => hlt.ne (congrArg AddressFamily.length heq)

/-- There is one family of each length. -/
theorem Ascending.eq_of_length (h : Ascending families) (hmem : family ∈ families)
    {other : AddressFamily}
    (hother : other ∈ families) (hlength : other.length = family.length) : other = family := by
  have hroot : other.root = family.root := by
    rw [← h.rootOf_eq hother, hlength, h.rootOf_eq hmem]
  obtain ⟨length, root⟩ := other
  obtain rfl : length = family.length := hlength
  obtain rfl : root = family.root := hroot
  rfl

theorem Ascending.length_ne (h : Ascending (family :: families)) (hlt : length < family.length) :
    ∀ other ∈ family :: families, other.length ≠ length := by
  refine List.forall_mem_cons.mpr ⟨hlt.ne', fun other hother => ?_⟩
  exact (hlt.trans ((List.pairwise_cons.mp h).1 other hother)).ne'

/-! ### Counting in a family -/

/-- Only the family of the address changes, or is made. -/
theorem Ascending.mem_insertInto (h : Ascending families) :
    family ∈ insertInto a families ↔
      family ∈ families ∧ family.length ≠ a.length ∨
        family = ⟨a.length, (rootOf a.length families).insert a⟩ := by
  induction families with
  | nil => simp [insertInto, rootOf]
  | cons first families ih =>
    obtain ⟨hlt, hrest⟩ := List.pairwise_cons.mp h
    rw [insertInto]
    split_ifs with hbefore hafter
    · have hne := h.length_ne hbefore
      rw [rootOf_eq_fresh hne, List.mem_cons (a := family), or_comm]
      exact or_congr_left ⟨fun hmem => ⟨hmem, hne _ hmem⟩, And.left⟩
    · rw [List.mem_cons, List.mem_cons, ih hrest, rootOf_cons, if_neg hafter.ne,
        or_and_right, ← or_assoc]
      refine or_congr_left (or_congr_left ⟨fun heq => ⟨heq, ?_⟩, And.left⟩)
      rw [heq]
      exact hafter.ne
    · have heq : first.length = a.length := by omega
      rw [List.mem_cons, List.mem_cons, rootOf_cons, if_pos heq, heq, or_comm]
      refine or_congr_left ⟨fun hmem => ⟨Or.inr hmem, ?_⟩, ?_⟩
      · rw [← heq]
        exact (hlt _ hmem).ne'
      · rintro ⟨rfl | hmem, hne⟩
        · exact absurd heq hne
        · exact hmem

theorem Ascending.insertInto (h : Ascending families) (a : Bytes) :
    Ascending (insertInto a families) := by
  induction families with
  | nil => exact List.pairwise_singleton _ _
  | cons first families ih =>
    obtain ⟨hlt, hrest⟩ := List.pairwise_cons.mp h
    rw [AddressFamily.insertInto]
    split_ifs with hbefore hafter
    · refine List.pairwise_cons.mpr ⟨List.forall_mem_cons.mpr ⟨hbefore, fun other hother => ?_⟩, h⟩
      exact hbefore.trans (hlt other hother)
    · refine List.pairwise_cons.mpr ⟨fun other hother => ?_, ih hrest⟩
      rcases (Ascending.mem_insertInto hrest).mp hother with ⟨hmem, -⟩ | rfl
      · exact hlt other hmem
      · exact hafter
    · exact List.pairwise_cons.mpr ⟨hlt, hrest⟩

/-- How many entries the families hold. -/
def entryCount (families : List AddressFamily) : Nat := (families.map (·.root.entryCount)).sum

@[simp] theorem entryCount_cons :
    entryCount (family :: families) = family.root.entryCount + entryCount families := by
  rw [entryCount, List.map_cons, List.sum_cons]
  rfl

theorem entryCount_fresh : Forest.Node.fresh.entryCount = 0 := rfl

/-- Counting an address changes the number of entries by what it does in its family. -/
theorem Ascending.entryCount_insertInto (h : Ascending families) (a : Bytes) :
    entryCount (AddressFamily.insertInto a families) + (rootOf a.length families).entryCount =
      entryCount families + ((rootOf a.length families).insert a).entryCount := by
  induction families with
  | nil => exact Nat.add_comm _ _
  | cons first families ih =>
    obtain ⟨hlt, hrest⟩ := List.pairwise_cons.mp h
    rw [AddressFamily.insertInto]
    split_ifs with hbefore hafter
    · rw [rootOf_eq_fresh (h.length_ne hbefore), entryCount_fresh, entryCount_cons, Nat.add_zero,
        Nat.add_comm]
    · have hother := ih hrest
      rw [rootOf_cons, if_neg hafter.ne, entryCount_cons, entryCount_cons]
      omega
    · have heq : first.length = a.length := by omega
      rw [rootOf_cons, if_pos heq, entryCount_cons, entryCount_cons]
      dsimp only
      omega

/-! ### Folding in a family -/

theorem foldIn_cons :
    foldIn length path (family :: families) =
      (if family.length = length then { family with root := family.root.fold path } else family) ::
        foldIn length path families := rfl

theorem foldIn_eq_self (h : ∀ family ∈ families, family.length ≠ length) :
    foldIn length path families = families := by
  rw [foldIn]
  conv_rhs => rw [← List.map_id families]
  exact List.map_congr_left fun family hmem => if_neg (h family hmem)

/-- Only the family of the given length changes. -/
theorem Ascending.mem_foldIn (h : Ascending families) (hmem : family ∈ families)
    {other : AddressFamily} :
    other ∈ foldIn family.length path families ↔
      other ∈ families ∧ other.length ≠ family.length ∨
        other = { family with root := family.root.fold path } := by
  rw [foldIn, List.mem_map]
  constructor
  · rintro ⟨before, hbefore, rfl⟩
    split_ifs with hlength
    · exact Or.inr (by rw [h.eq_of_length hmem hbefore hlength])
    · exact Or.inl ⟨hbefore, hlength⟩
  · rintro (⟨hother, hne⟩ | rfl)
    · exact ⟨other, hother, if_neg hne⟩
    · exact ⟨family, hmem, if_pos rfl⟩

theorem Ascending.foldIn (h : Ascending families) (length : Nat) (path : Bytes) :
    Ascending (foldIn length path families) := by
  refine List.pairwise_map.mpr (h.imp fun {first second} hlt => ?_)
  split_ifs <;> exact hlt

/-- Folding changes the number of entries by what it does in the family. -/
theorem Ascending.entryCount_foldIn (h : Ascending families) (hmem : family ∈ families)
    (path : Bytes) :
    entryCount (AddressFamily.foldIn family.length path families) + family.root.entryCount =
      entryCount families + (family.root.fold path).entryCount := by
  induction families with
  | nil => exact absurd hmem List.not_mem_nil
  | cons first families ih =>
    obtain ⟨hlt, hrest⟩ := List.pairwise_cons.mp h
    rw [foldIn_cons]
    rcases List.mem_cons.mp hmem with rfl | hmem
    · rw [if_pos rfl, foldIn_eq_self fun other hother => (hlt other hother).ne', entryCount_cons,
        entryCount_cons]
      dsimp only
      omega
    · have hother := ih hrest hmem
      rw [if_neg (hlt _ hmem).ne, entryCount_cons, entryCount_cons]
      omega

end AddressFamily

end TrafficSheet
