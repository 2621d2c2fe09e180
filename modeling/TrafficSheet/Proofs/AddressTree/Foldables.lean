import TrafficSheet.Proofs.AddressTree.Order

/-!
# The nodes that a walk meets

A walk over a forest meets the nodes below a node before the node itself, and nodes with a
common parent in the order of their bytes (`WalkedBefore`). The list of the nodes that may
be folded is in this order (`Forest.Holds.pairwise_foldables`) and has each of them
(`Forest.Holds.mem_foldables_iff`). Folding the node at a path merges the entries that start
with this path, which stand together, and leaves the others (`Forest.Holds.merges_fold`).
-/

namespace TrafficSheet

/-! ### The order of a walk -/

/-- The node at a path is met before that at another: it is below it, or its byte is the smaller
one where the paths part. -/
def WalkedBefore : Bytes → Bytes → Prop
  | [], _ => False
  | _ :: _, [] => True
  | byte :: path, byte' :: path' => byte < byte' ∨ byte = byte' ∧ WalkedBefore path path'

theorem WalkedBefore.cons {path path' : Bytes} (h : WalkedBefore path path') (byte : UInt8) :
    WalkedBefore (byte :: path) (byte :: path') :=
  Or.inr ⟨rfl, h⟩

/-! ### Merging a part of a list -/

section Merges

variable {α β : Type} {p : α → Prop} {merge : List α → α} {l l' : List α}

/-- Those elements that `p` holds of stand together, and are replaced by what they are merged to. -/
def Merges (p : α → Prop) (merge : List α → α) (l l' : List α) : Prop :=
  ∃ front merged back, l = front ++ merged ++ back ∧ l' = front ++ merge merged :: back ∧
    (∀ e ∈ merged, p e) ∧ ∀ e ∈ front ++ back, ¬ p e

theorem Merges.all (h : ∀ e ∈ l, p e) : Merges p merge l [merge l] :=
  ⟨[], l, [], by simp, rfl, h, fun _ he => absurd he List.not_mem_nil⟩

theorem Merges.append_left (h : Merges p merge l l') {others : List α}
    (hnot : ∀ e ∈ others, ¬ p e) :
    Merges p merge (others ++ l) (others ++ l') := by
  obtain ⟨front, merged, back, rfl, rfl, hall, hrest⟩ := h
  refine ⟨others ++ front, merged, back, by simp, by simp, hall, fun e he => ?_⟩
  rw [List.append_assoc] at he
  rcases List.mem_append.mp he with he | he
  · exact hnot e he
  · exact hrest e he

theorem Merges.append_right (h : Merges p merge l l') {others : List α}
    (hnot : ∀ e ∈ others, ¬ p e) : Merges p merge (l ++ others) (l' ++ others) := by
  obtain ⟨front, merged, back, rfl, rfl, hall, hrest⟩ := h
  refine ⟨front, merged, back ++ others, by simp, by simp, hall, fun e he => ?_⟩
  rw [← List.append_assoc] at he
  rcases List.mem_append.mp he with he | he
  · exact hrest e he
  · exact hnot e he

theorem Merges.map (h : Merges p merge l l') (f : α → β) {q : β → Prop} {merge' : List β → β}
    (hq : ∀ e, q (f e) ↔ p e) (hmerge : ∀ es, f (merge es) = merge' (es.map f)) :
    Merges q merge' (l.map f) (l'.map f) := by
  obtain ⟨front, merged, back, rfl, rfl, hall, hrest⟩ := h
  refine ⟨front.map f, merged.map f, back.map f, by simp, by simp [hmerge], ?_, ?_⟩
  · intro e he
    obtain ⟨before, hbefore, rfl⟩ := List.mem_map.mp he
    exact (hq before).mpr (hall before hbefore)
  · intro e he
    rw [← List.map_append] at he
    obtain ⟨before, hbefore, rfl⟩ := List.mem_map.mp he
    exact mt (hq before).mp (hrest before hbefore)

end Merges

namespace Forest

variable {f : Forest} {n m : Node} {l : List Bytes} {path : Bytes} {own : UInt8}
variable {total count : Nat} {below beside : Forest}

/-! ### Foldable nodes -/

/-- The nodes of a forest hold the rests of the addresses. -/
theorem Holds.nodes (h : f.Holds l) : ∀ child ∈ f.nodes, child.2.Holds (restsOf child.1 l) := by
  induction f generalizing l with
  | empty => exact fun _ hmem => absurd hmem List.not_mem_nil
  | node own total count below beside _ ihBeside =>
    obtain ⟨hnode, hafter, hbeside⟩ := holds_node_iff.mp h
    rw [Forest.nodes, List.forall_mem_cons]
    refine ⟨hnode, fun child hmem => ?_⟩
    have hchild := ihBeside hbeside child hmem
    obtain ⟨rest, hrest⟩ := List.exists_mem_of_ne_nil _ hchild.ne_nil
    have hne : child.1 ≠ own := by simpa using (mem_apartFrom.mp (mem_restsOf.mp hrest)).2
    rwa [restsOf_apartFrom hne] at hchild

/-- Whether a node may be folded is seen from the entries. -/
theorem Node.Holds.foldable_iff (h : n.Holds l) :
    n.Foldable ↔ 2 ≤ n.entries.length ∧ ∀ child ∈ n.below.nodes, child.2.entries.length = 1 := by
  rw [Node.Foldable, h.length_entries]
  refine and_congr_right fun _ => forall₂_congr fun child hmem => ?_
  obtain ⟨-, ⟨hempty, -⟩ | ⟨-, -, hbelow⟩⟩ := h
  · rw [hempty] at hmem
    exact absurd hmem List.not_mem_nil
  · rw [(hbelow.nodes child hmem).length_entries]

theorem Holds.mem_foldables (h : f.Holds l) (hfind : f.find? path = some n) (hfold : n.Foldable) :
    (path, n) ∈ f.foldables := by
  induction f generalizing l path with
  | empty => simp at hfind
  | node own total count below beside ihBelow ihBeside =>
    obtain ⟨hnode, -, hbeside⟩ := holds_node_iff.mp h
    rw [foldables, List.append_assoc, List.mem_append, List.mem_append, List.mem_map]
    cases path with
    | nil => simp at hfind
    | cons byte path =>
      by_cases hbyte : byte = own
      · subst hbyte
        rw [find?_self] at hfind
        by_cases hpath : path = []
        · subst hpath
          obtain rfl : ⟨total, count, below⟩ = n := Option.some.inj hfind
          rw [if_pos hfold]
          exact Or.inr (Or.inl (List.mem_singleton_self _))
        · rw [Node.find?_of_ne_nil hpath] at hfind
          obtain ⟨-, ⟨rfl, -⟩ | ⟨-, -, hbelow⟩⟩ := hnode
          · simp at hfind
          · exact Or.inl ⟨(path, n), ihBelow hbelow hfind, rfl⟩
      · rw [find?_other hbyte] at hfind
        exact Or.inr (Or.inr (ihBeside hbeside hfind))

/-- **The foldable nodes** are listed, and no others. -/
theorem Holds.mem_foldables_iff (h : f.Holds l) {c : Bytes × Node} :
    c ∈ f.foldables ↔ f.find? c.1 = some c.2 ∧ c.2.Foldable :=
  ⟨h.find?_of_mem_foldables, fun hc => h.mem_foldables hc.1 hc.2⟩

/-- The foldable nodes of a forest of later bytes have paths that start with these. -/
theorem Holds.head_gt_of_mem_foldables (h : f.Holds l) (hafter : StartAfter own l)
    {c : Bytes × Node} (hc : c ∈ f.foldables) : ∃ byte path, c.1 = byte :: path ∧ own < byte := by
  obtain ⟨hfind, -⟩ := h.find?_of_mem_foldables hc
  obtain ⟨rest, hrest⟩ := List.exists_mem_of_ne_nil _ (h.find? hfind).ne_nil
  obtain ⟨next, hnext, hlt⟩ := hafter _ (mem_restsAfter.mp hrest)
  obtain ⟨path, node⟩ := c
  cases path with
  | nil => simp at hfind
  | cons byte path =>
    rw [List.cons_append, List.head?_cons, Option.mem_some_iff] at hnext
    exact ⟨byte, path, rfl, hnext ▸ hlt⟩

/-- **The foldable nodes** are listed in the order of the walk. -/
theorem Holds.pairwise_foldables (h : f.Holds l) :
    f.foldables.Pairwise fun c c' => WalkedBefore c.1 c'.1 := by
  induction f generalizing l with
  | empty => exact List.Pairwise.nil
  | node own total count below beside ihBelow ihBeside =>
    obtain ⟨hnode, hafter, hbeside⟩ := holds_node_iff.mp h
    have hlater : ∀ c ∈ beside.foldables, ∀ path, WalkedBefore (own :: path) c.1 := by
      intro c hc path
      obtain ⟨byte, rest, hpath, hlt⟩ := hbeside.head_gt_of_mem_foldables hafter hc
      rw [hpath]
      exact Or.inl hlt
    rw [foldables, List.append_assoc, List.pairwise_append, List.pairwise_append, List.pairwise_map]
    refine ⟨?_, ⟨?_, ihBeside hbeside, ?_⟩, ?_⟩
    · obtain ⟨-, ⟨rfl, -⟩ | ⟨-, -, hbelow⟩⟩ := hnode
      · exact List.Pairwise.nil
      · exact (ihBelow hbelow).imp fun hbefore => hbefore.cons own
    · split_ifs
      · exact List.pairwise_singleton _ _
      · exact List.Pairwise.nil
    · intro c hc c' hc'
      split_ifs at hc
      · rw [List.mem_singleton.mp hc]
        exact hlater c' hc' []
      · exact absurd hc List.not_mem_nil
    · intro c hc c' hc'
      obtain ⟨inner, hinner, rfl⟩ := List.mem_map.mp hc
      rcases List.mem_append.mp hc' with hc' | hc'
      · split_ifs at hc'
        · rw [List.mem_singleton.mp hc']
          obtain ⟨-, ⟨rfl, -⟩ | ⟨-, -, hbelow⟩⟩ := hnode
          · exact absurd hinner List.not_mem_nil
          · obtain ⟨hfind, -⟩ := hbelow.find?_of_mem_foldables hinner
            have hpath : inner.1 ≠ [] := fun hnil => by simp [hnil] at hfind
            obtain ⟨byte, rest, hcons⟩ := List.exists_cons_of_ne_nil hpath
            rw [hcons]
            exact Or.inr ⟨rfl, trivial⟩
        · exact absurd hc' List.not_mem_nil
      · exact hlater c' hc' inner.1

/-! ### The entries of a folded node -/

/-- One entry for those that start with a path. -/
def mergeAt (path : Bytes) (es : List (Bytes × Nat)) : Bytes × Nat := (path, (es.map (·.2)).sum)

theorem mergeAt_cons (byte : UInt8) (path : Bytes) (es : List (Bytes × Nat)) :
    (byte :: (mergeAt path es).1, (mergeAt path es).2) =
      mergeAt (byte :: path) (es.map fun e => (byte :: e.1, e.2)) := by
  rw [mergeAt, mergeAt, List.map_map]
  rfl

/-- A node holds as many addresses as its entries count. -/
theorem Node.Holds.sum_counts (h : n.Holds l) : (n.entries.map (·.2)).sum = n.total := by
  rw [h.1]
  rcases h.entries_cases with ⟨heq, -⟩ | ⟨heq, hbelow⟩
  · rw [heq]
    simp
  · rw [heq, hbelow.sum_counts]

theorem Node.Holds.merges_fold (h : n.Holds l) (hfind : n.find? path = some m)
    (ih : n.below.Holds l → n.below.find? path = some m →
      Merges (path <+: ·.1) (mergeAt path) n.below.entries (n.below.fold path).entries) :
    Merges (path <+: ·.1) (mergeAt path) n.entries (n.fold path).entries := by
  by_cases hpath : path = []
  · subst hpath
    have hmerged : (n.fold []).entries = [mergeAt [] n.entries] := by
      rw [Node.fold_nil, Node.entries_leaf h.total_pos, mergeAt, h.sum_counts]
    rw [hmerged]
    exact Merges.all fun _ _ => List.nil_prefix
  · rw [Node.find?_of_ne_nil hpath] at hfind
    rw [Node.fold_of_ne_nil hpath]
    obtain ⟨-, ⟨hempty, -⟩ | ⟨-, hcount, hbelow⟩⟩ := h
    · simp [hempty] at hfind
    · rw [Node.entries, Node.entries, hcount, if_neg (Nat.lt_irrefl 0)]
      exact ih hbelow hfind

/-- **Folding a node** merges its entries and leaves all others. -/
theorem Holds.merges_fold (h : f.Holds l) (hfind : f.find? path = some m) :
    Merges (path <+: ·.1) (mergeAt path) f.entries (f.fold path).entries := by
  induction f generalizing l path with
  | empty => simp at hfind
  | node own total count below beside ihBelow ihBeside =>
    obtain ⟨hnode, -, hbeside⟩ := holds_node_iff.mp h
    cases path with
    | nil => simp at hfind
    | cons byte path =>
      by_cases hbyte : byte = own
      · subst hbyte
        rw [find?_self] at hfind
        rw [fold_self, entries_node, entries_node]
        refine Merges.append_right ?_ fun e he hp => ?_
        · refine (hnode.merges_fold hfind fun hbelow hfind => ihBelow hbelow hfind).map _ ?_ ?_
          · exact fun e => by simp
          · exact mergeAt_cons byte path
        · obtain ⟨rest, hrest⟩ := hp
          exact hbeside.head?_ne he (by rw [← hrest]; rfl)
      · rw [find?_other hbyte] at hfind
        rw [fold_other hbyte, entries_node, entries_node]
        refine (ihBeside hbeside hfind).append_left fun e he hp => ?_
        obtain ⟨inner, -, rfl⟩ := List.mem_map.mp he
        exact hbyte (List.cons_prefix_cons.mp hp).1

end Forest

end TrafficSheet
