import TrafficSheet.Proofs.AddressTree.Families

/-!
# Runs of an address tree

`AddressTree.Holds t addresses` says that the tree may have come from counting these
addresses: each family's root holds those of its length, and the two numbers that the tree
keeps beside the families are right. Counting an address and folding the cheapest node keep
it, so it holds of every tree that a run of `add` leads to (`holds_addAll`).

`AddressTree.Shrinks t n u` is the loop that folds, with the number of its rounds. The
program bounds the rounds beforehand; `Holds.shrinks_prune` shows that it never stops early.
-/

namespace TrafficSheet.AddressTree

open AddressFamily

variable {t u v : AddressTree} {addresses : List Bytes} {a : Bytes}

/-- The tree may have come from counting the addresses. -/
structure Holds (t : AddressTree) (addresses : List Bytes) : Prop where
  /-- The families are in order. -/
  ascending : Ascending t.families
  /-- Each family holds the addresses of its length. -/
  root : ∀ family ∈ t.families, family.root.RootOf (ofLength family.length addresses)
  /-- No family is without nodes. -/
  below_ne : ∀ family ∈ t.families, family.root.below ≠ .empty
  /-- No address is without a family, except that of length zero. -/
  present : ∀ a ∈ addresses, a ≠ [] → ∃ family ∈ t.families, family.length = a.length
  /-- The total counts the addresses. -/
  total : t.total = addresses.countP (· ≠ [])
  /-- The number of entries is kept right. -/
  leafCount : t.leafCount = entryCount t.families

theorem holds_empty (m : Nat) : (empty m).Holds [] where
  ascending := List.Pairwise.nil
  root _ hmem := absurd hmem List.not_mem_nil
  below_ne _ hmem := absurd hmem List.not_mem_nil
  present _ hmem := absurd hmem List.not_mem_nil
  total := rfl
  leafCount := rfl

/-- The root of a length holds the addresses of that length, also where there is none yet. -/
theorem Holds.rootOf (h : t.Holds addresses) {length : Nat} (hpos : 0 < length) :
    (AddressFamily.rootOf length t.families).RootOf (ofLength length addresses) := by
  by_cases hfamily : ∃ family ∈ t.families, family.length = length
  · obtain ⟨family, hmem, rfl⟩ := hfamily
    rw [h.ascending.rootOf_eq hmem]
    exact h.root family hmem
  · have hnone : ∀ family ∈ t.families, family.length ≠ length :=
      fun family hmem heq => hfamily ⟨family, hmem, heq⟩
    have hnil : ofLength length addresses = [] := by
      refine List.eq_nil_iff_forall_not_mem.mpr fun a ha => ?_
      obtain ⟨hmem, rfl⟩ := mem_ofLength.mp ha
      exact hfamily (h.present a hmem (List.ne_nil_of_length_pos hpos))
    rw [rootOf_eq_fresh hnone, hnil]
    exact Forest.Node.fresh_rootOf

/-! ### Counting -/

/-- **Counting an address** keeps the tree right, before anything is folded. -/
theorem Holds.counted (h : t.Holds addresses) (ha : a ≠ []) :
    (t.counted a).Holds (addresses ++ [a]) := by
  have hroot := h.rootOf (List.length_pos_iff.mpr ha)
  have hlen : ∀ b ∈ ofLength a.length addresses, b.length = a.length :=
    fun b hb => (mem_ofLength.mp hb).2
  have hnew := hroot.insert ha hlen
  refine ⟨h.ascending.insertInto a, fun family hmem => ?_, fun family hmem => ?_,
    fun b hb hne => ?_, ?_, ?_⟩
  · rcases h.ascending.mem_insertInto.mp hmem with ⟨hmem, hne⟩ | rfl
    · rw [ofLength_append_other hne]
      exact h.root family hmem
    · rw [ofLength_append_self]
      exact hnew
  · rcases h.ascending.mem_insertInto.mp hmem with ⟨hmem, -⟩ | rfl
    · exact h.below_ne family hmem
    · show (Forest.Node.insert a _).below ≠ .empty
      rw [hroot.below_insert ha]
      exact Forest.insert_ne_empty ha
  · by_cases hlength : b.length = a.length
    · exact ⟨_, h.ascending.mem_insertInto.mpr (Or.inr rfl), hlength.symm⟩
    · have hold : b ∈ addresses := by
        rcases List.mem_append.mp hb with hb | hb
        · exact hb
        · exact absurd (congrArg List.length (List.mem_singleton.mp hb)) hlength
      obtain ⟨family, hmem, heq⟩ := h.present b hold hne
      exact ⟨family, h.ascending.mem_insertInto.mpr (Or.inl ⟨hmem, heq ▸ hlength⟩), heq⟩
  · rw [AddressTree.counted, h.total, List.countP_append]
    simp [ha]
  · have hsum := h.ascending.entryCount_insertInto a
    rw [hroot.entryCount_insert ha hlen] at hsum
    have hcount := h.leafCount
    simp only [AddressTree.counted, knows, decide_eq_true_eq]
    split_ifs at hsum ⊢ <;> omega

/-- An address without bytes changes nothing. -/
theorem Holds.skip (h : t.Holds addresses) : t.Holds (addresses ++ [[]]) := by
  have hlength : ∀ family ∈ t.families, family.length ≠ ([] : Bytes).length := by
    intro family hmem hzero
    obtain ⟨a, ha⟩ := List.exists_mem_of_ne_nil _
      ((h.root family hmem).below.ne_nil (h.below_ne family hmem))
    obtain ⟨byte, rest, rfl⟩ := (h.root family hmem).below.exists_cons ha
    have := (mem_ofLength.mp ha).2
    simp [hzero] at this
  refine ⟨h.ascending, fun family hmem => ?_, h.below_ne, fun a ha hne => ?_, ?_, h.leafCount⟩
  · rw [ofLength_append_other (hlength family hmem)]
    exact h.root family hmem
  · rcases List.mem_append.mp ha with ha | ha
    · exact h.present a ha hne
    · exact absurd (List.mem_singleton.mp ha) hne
  · rw [h.total, List.countP_append]
    simp

/-! ### Folding -/

/-- The nodes that may be folded, in the order of the walk. -/
def candidates (t : AddressTree) : List FoldCandidate :=
  t.families.flatMap fun family =>
    family.root.below.foldables.map (Forest.candidate family.length [])

/-- **The walk** finds the first of the cheapest nodes that may be folded. -/
theorem cheapest?_eq_argmin (t : AddressTree) : t.cheapest? = t.candidates.argmin (·.total) := by
  rw [cheapest?, AddressFamily.cheapest?, candidates, List.argmin, List.foldl_flatMap]
  congr 1
  funext best? family
  rw [Forest.visit_eq]

/-- The tree with the node at a path of a family folded, which had the given number of entries. -/
def folded (t : AddressTree) (length : Nat) (path : Bytes) (entries : Nat) : AddressTree :=
  { t with families := foldIn length path t.families, leafCount := t.leafCount + 1 - entries }

/-- The cheapest node to fold is below a root and may be folded. -/
theorem Holds.foldCheapest?_of_cheapest? (h : t.Holds addresses) {c : FoldCandidate}
    (hc : t.cheapest? = some c) :
    ∃ family ∈ t.families, family.length = c.family ∧ ∃ node, c.path ≠ [] ∧
      family.root.below.find? c.path = some node ∧ node.Foldable ∧
      t.foldCheapest? = some (t.folded family.length c.path node.entryCount) := by
  have hmem : c ∈ t.candidates := List.argmin_mem (t.cheapest?_eq_argmin ▸ hc)
  simp only [candidates, List.mem_flatMap, List.mem_map] at hmem
  obtain ⟨family, hfamily, ⟨path, node⟩, hfoldable, rfl⟩ := hmem
  obtain ⟨hfind, hfold⟩ := (h.root family hfamily).below.find?_of_mem_foldables hfoldable
  have hpath : path ≠ [] := by
    rintro rfl
    simp at hfind
  refine ⟨family, hfamily, rfl, node, hpath, hfind, hfold, ?_⟩
  have hroot : (AddressFamily.rootOf family.length t.families).find? path = some node := by
    rw [h.ascending.rootOf_eq hfamily, Forest.Node.find?_of_ne_nil hpath, hfind]
  rw [foldCheapest?, hc]
  simp only [Forest.candidate, List.reverse_nil, List.nil_append, Option.bind_eq_bind,
    Option.bind_some, hroot]
  rfl

/-- What a fold does. -/
theorem Holds.foldCheapest?_cases (h : t.Holds addresses) (hfold : t.foldCheapest? = some u) :
    ∃ family ∈ t.families, ∃ path node, path ≠ [] ∧ family.root.below.find? path = some node ∧
      node.Foldable ∧ u = t.folded family.length path node.entryCount := by
  cases hc : t.cheapest? with
  | none => simp [foldCheapest?, hc] at hfold
  | some c =>
    obtain ⟨family, hfamily, -, node, hpath, hfind, hnode, heq⟩ :=
      h.foldCheapest?_of_cheapest? hc
    exact ⟨family, hfamily, c.path, node, hpath, hfind, hnode,
      Option.some.inj (hfold.symm.trans heq)⟩

/-- Nothing is folded exactly when no node may be. -/
theorem Holds.foldCheapest?_eq_none_iff (h : t.Holds addresses) :
    t.foldCheapest? = none ↔ t.candidates = [] := by
  rw [← List.argmin_eq_none (f := FoldCandidate.total), ← cheapest?_eq_argmin]
  cases hc : t.cheapest? with
  | none => simp [foldCheapest?, hc]
  | some c =>
    obtain ⟨family, -, -, node, -, -, -, heq⟩ := h.foldCheapest?_of_cheapest? hc
    simp [heq]

theorem limit_foldCheapest? (hfold : t.foldCheapest? = some u) : u.limit = t.limit := by
  simp only [AddressTree.foldCheapest?, Option.bind_eq_bind, Option.bind_eq_some_iff,
    Option.pure_def, Option.some.injEq] at hfold
  obtain ⟨c, -, node, -, rfl⟩ := hfold
  rfl

/-- **Folding** keeps the tree right and leaves fewer entries. -/
theorem Holds.foldCheapest? (h : t.Holds addresses) (hfold : t.foldCheapest? = some u) :
    u.Holds addresses ∧ u.leafCount < t.leafCount := by
  obtain ⟨family, hfamily, path, node, hpath, hfind, hnode, rfl⟩ := h.foldCheapest?_cases hfold
  have hroot := h.root family hfamily
  have hsum := h.ascending.entryCount_foldIn hfamily path
  have hcount := hroot.entryCount_fold hpath hfind hnode
  have htwo := hnode.1
  have hleaf := h.leafCount
  have hle : (t.folded family.length path node.entryCount).leafCount =
      entryCount (foldIn family.length path t.families) := by
    show t.leafCount + 1 - node.entryCount = _
    omega
  refine ⟨⟨h.ascending.foldIn _ _, fun other hmem => ?_, fun other hmem => ?_, fun a ha hne => ?_,
    h.total, hle⟩, ?_⟩
  · rcases (h.ascending.mem_foldIn hfamily).mp hmem with ⟨hmem, -⟩ | rfl
    · exact h.root other hmem
    · exact hroot.fold hpath hfind hnode
  · rcases (h.ascending.mem_foldIn hfamily).mp hmem with ⟨hmem, -⟩ | rfl
    · exact h.below_ne other hmem
    · show (family.root.fold path).below ≠ .empty
      rw [Forest.Node.fold_of_ne_nil hpath]
      exact Forest.fold_ne_empty (h.below_ne family hfamily)
  · obtain ⟨other, hother, hlength⟩ := h.present a ha hne
    by_cases heq : other.length = family.length
    · exact ⟨_, (h.ascending.mem_foldIn hfamily).mpr (Or.inr rfl), heq ▸ hlength⟩
    · exact ⟨other, (h.ascending.mem_foldIn hfamily).mpr (Or.inl ⟨hother, heq⟩), hlength⟩
  · omega

/-! ### The loop that folds -/

/-- `Shrinks t n u`: from `t`, the loop folds `n` times and stops at `u`. -/
inductive Shrinks : AddressTree → Nat → AddressTree → Prop where
  /-- The entries fit the bound. -/
  | fits {t : AddressTree} : t.leafCount ≤ t.limit → Shrinks t 0 t
  /-- They do not, but nothing may be folded. -/
  | stuck {t : AddressTree} : t.limit < t.leafCount → t.foldCheapest? = none → Shrinks t 0 t
  /-- They do not, and the cheapest node is folded. -/
  | fold {t u v : AddressTree} {n : Nat} :
      t.limit < t.leafCount → t.foldCheapest? = some u → Shrinks u n v → Shrinks t (n + 1) v

/-- Enough rounds are as many as there are entries above the bound. -/
theorem Holds.shrinks (h : t.Holds addresses) {rounds : Nat}
    (henough : t.leafCount - t.limit ≤ rounds) :
    ∃ n, t.Shrinks n (shrink rounds t) := by
  induction rounds generalizing t with
  | zero => exact ⟨0, .fits (by omega)⟩
  | succ rounds ih =>
    rw [shrink]
    split_ifs with hfits
    · exact ⟨0, .fits hfits⟩
    · cases hfold : t.foldCheapest? with
      | none => exact ⟨0, .stuck (Nat.lt_of_not_le hfits) hfold⟩
      | some u =>
        obtain ⟨hu, hlt⟩ := h.foldCheapest? hfold
        have hlimit := limit_foldCheapest? hfold
        obtain ⟨n, hn⟩ := ih hu (by omega)
        exact ⟨n + 1, .fold (Nat.lt_of_not_le hfits) hfold hn⟩

/-- The rounds that the program allows never end the loop early. -/
theorem Holds.shrinks_prune (h : t.Holds addresses) : ∃ n, t.Shrinks n t.prune := h.shrinks le_rfl

/-- What one fold keeps, the loop keeps. -/
theorem Shrinks.induct {P : AddressTree → Prop} {n : Nat} (h : t.Shrinks n u) (ht : P t)
    (hfold : ∀ t u, P t → t.foldCheapest? = some u → P u) : P u := by
  induction h with
  | fits | stuck => exact ht
  | fold _ heq _ ih => exact ih (hfold _ _ ht heq)

theorem Holds.prune (h : t.Holds addresses) : t.prune.Holds addresses := by
  obtain ⟨n, hn⟩ := h.shrinks_prune
  exact hn.induct (P := (·.Holds addresses)) h fun t u ht heq => (ht.foldCheapest? heq).1

/-! ### Runs -/

theorem limit_shrink (rounds : Nat) (t : AddressTree) : (shrink rounds t).limit = t.limit := by
  induction rounds generalizing t with
  | zero => rfl
  | succ rounds ih =>
    rw [shrink]
    split_ifs
    · rfl
    · cases hfold : t.foldCheapest? with
      | none => rfl
      | some u => exact (ih u).trans (limit_foldCheapest? hfold)

theorem limit_add (t : AddressTree) (a : Bytes) : (t.add a).limit = t.limit := by
  rw [AddressTree.add]
  split_ifs
  · rfl
  · rfl
  · exact limit_shrink _ _

/-- What one address keeps, a run keeps. -/
theorem addAll_induct {P : AddressTree → List Bytes → Prop}
    (hstep : ∀ t addresses a, P t addresses → P (t.add a) (addresses ++ [a])) (h : P t addresses)
    (more : List Bytes) : P (t.addAll more) (addresses ++ more) := by
  induction more generalizing t addresses with
  | nil => rwa [List.append_nil]
  | cons a more ih =>
    have hrun := ih (hstep t addresses a h)
    rwa [List.append_assoc] at hrun

/-- The bound stays as it was set. -/
theorem limit_addAll (t : AddressTree) (more : List Bytes) : (t.addAll more).limit = t.limit := by
  induction more generalizing t with
  | nil => rfl
  | cons a more ih => exact (ih (t.add a)).trans (limit_add t a)

theorem Holds.add (h : t.Holds addresses) (a : Bytes) : (t.add a).Holds (addresses ++ [a]) := by
  rw [AddressTree.add]
  split_ifs with hempty hknown
  · rw [List.isEmpty_iff.mp hempty]
    exact h.skip
  · exact h.counted (mt List.isEmpty_iff.mpr hempty)
  · exact (h.counted (mt List.isEmpty_iff.mpr hempty)).prune

theorem Holds.addAll (h : t.Holds addresses) (more : List Bytes) :
    (t.addAll more).Holds (addresses ++ more) :=
  addAll_induct (fun _ _ a h => h.add a) h more

/-- **Every run** of an empty tree leads to one that holds the addresses counted. -/
theorem holds_addAll (m : Nat) (addresses : List Bytes) :
    ((empty m).addAll addresses).Holds addresses :=
  (holds_empty m).addAll addresses

end TrafficSheet.AddressTree
