import TrafficSheet.Proofs.AddressTree.History

/-!
# Folding a node

A walk over a forest keeps the cheapest of the nodes that may be folded. `Forest.foldables`
lists those nodes without walking, and the walk is shown to keep the first of the least
totals in that list. Folding one of them gives a forest that holds the same addresses: the
node has two nodes below it, so that its addresses share no further byte.
-/

namespace TrafficSheet

namespace Forest

variable {f : Forest} {n : Forest.Node} {l : List Bytes} {path rest : Bytes}
variable {byte own : UInt8} {total count : Nat} {below beside : Forest}

/-! ### Nodes that may be folded -/

/-- The nodes with the common parent, each with its byte. -/
def nodes : Forest → List (UInt8 × Node)
  | .empty => []
  | .node byte total count below beside => (byte, ⟨total, count, below⟩) :: beside.nodes

/-- Two entries or more stand at or below the node, one at or below each node right below it. -/
def Node.Foldable (n : Node) : Prop :=
  2 ≤ n.entryCount ∧ ∀ child ∈ n.below.nodes, child.2.entryCount = 1

instance (n : Node) : Decidable n.Foldable := inferInstanceAs (Decidable (_ ∧ _))

/-- The nodes that may be folded with their paths, those below a node before it and those beside it
after it. -/
def foldables : Forest → List (Bytes × Node)
  | .empty => []
  | .node byte total count below beside =>
    below.foldables.map (fun c => (byte :: c.1, c.2))
      ++ (if Node.Foldable ⟨total, count, below⟩ then [([byte], ⟨total, count, below⟩)] else [])
      ++ beside.foldables

theorem entryCount_eq_sum (f : Forest) : f.entryCount = (f.nodes.map (·.2.entryCount)).sum := by
  induction f with
  | empty => rfl
  | node byte total count below beside ihBelow ihBeside =>
    rw [entryCount_node, ihBeside]
    rfl

/-- A node without nodes below it cannot be folded. -/
theorem foldable_iff :
    Node.Foldable ⟨total, count, below⟩ ↔ 2 ≤ below.entryCount ∧
      ∀ child ∈ below.nodes, child.2.entryCount = 1 := by
  cases below with
  | empty =>
    refine and_congr_left fun _ => ?_
    simp only [Node.entryCount, isEmpty, if_true, entryCount]
    split <;> simp
  | node byte total count below beside =>
    rw [Node.Foldable, Node.entryCount_inner (by simp)]

/-! ### The walk -/

/-- The candidate that a node at a path stands for, on a walk that came along a trail. -/
def candidate (family : Nat) (trail : Bytes) (c : Bytes × Node) : FoldCandidate :=
  ⟨family, trail.reverse ++ c.1, c.2.total⟩

/-- The cheaper of a candidate met before and a further one, the former if they cost the same. -/
abbrev cheaper : Option FoldCandidate → FoldCandidate → Option FoldCandidate :=
  List.argAux fun c best => c.total < best.total

theorem offer_eq (family total : Nat) (w : Walk) :
    w.offer family total =
      { w with best? := cheaper w.best? ⟨family, w.trail.reverse, total⟩ } := by
  obtain ⟨trail, best?⟩ := w
  cases best? with
  | none => rfl
  | some best =>
    simp only [Walk.offer, cheaper, List.argAux, Option.all_some, decide_eq_true_eq]
    split <;> rfl

theorem candidate_cons (family : Nat) (trail : Bytes) (byte : UInt8) (c : Bytes × Node) :
    candidate family (byte :: trail) c = candidate family trail (byte :: c.1, c.2) := by
  simp [candidate]

/-- **What a walk finds**: the number of entries, whether each node holds one, and the cheapest of
the nodes that may be folded. It ends where it started. -/
theorem visit_eq (family : Nat) (f : Forest) (w : Walk) :
    f.visit family w =
      ⟨f.entryCount, decide (∀ child ∈ f.nodes, child.2.entryCount = 1), w.trail,
        (f.foldables.map (candidate family w.trail)).foldl cheaper w.best?⟩ := by
  induction f generalizing w with
  | empty => simp [visit, entryCount, nodes, foldables]
  | node byte total count below beside ihBelow ihBeside =>
    have hbelow : (below.foldables.map fun c => (byte :: c.1, c.2)).map (candidate family w.trail) =
        below.foldables.map (candidate family (byte :: w.trail)) := by
      rw [List.map_map]
      exact List.map_congr_left fun c _ => (candidate_cons family w.trail byte c).symm
    have hentries : (if below.isEmpty then (if 0 < count then 1 else 0) else below.entryCount) =
        Node.entryCount ⟨total, count, below⟩ := rfl
    have hsingle : (Node.entryCount ⟨total, count, below⟩ == 1
          && decide (∀ child ∈ beside.nodes, child.2.entryCount = 1)) =
        decide (∀ child ∈ (Forest.node byte total count below beside).nodes,
          child.2.entryCount = 1) := by
      simp only [nodes, List.forall_mem_cons, Bool.decide_and, Bool.beq_eq_decide_eq]
    rw [visit]
    simp only [ihBelow, ihBeside, offer_eq, decide_eq_true_eq, hentries, hsingle, foldables,
      List.map_append, List.foldl_append, hbelow, Walk.enter, Walk.leave, entryCount_node]
    by_cases h : Node.Foldable ⟨total, count, below⟩
    · simp only [if_pos h, if_pos (foldable_iff.mp h), List.map_cons, List.map_nil, List.foldl_cons,
        List.foldl_nil, List.tail_cons, candidate, List.reverse_cons]
    · simp only [if_neg h, if_neg (mt foldable_iff.mpr h), List.map_nil, List.foldl_nil,
        List.tail_cons]

/-! ### Foldable nodes in a forest that holds addresses -/

/-- Addresses that lead to two nodes share no byte. -/
theorem Holds.branches (h : f.Holds l) (htwo : 2 ≤ f.nodes.length) : Branches l := by
  cases f with
  | empty => simp [nodes] at htwo
  | node own total count below beside =>
    obtain ⟨hnode, -, hbeside⟩ := holds_node_iff.mp h
    have hne : beside ≠ .empty := by
      rintro rfl
      simp [nodes] at htwo
    obtain ⟨rest, hrest⟩ := List.exists_mem_of_ne_nil _ hnode.ne_nil
    obtain ⟨other, hother⟩ := List.exists_mem_of_ne_nil _ (hbeside.ne_nil hne)
    intro byte
    by_cases hbyte : own = byte
    · exact ⟨other, (mem_apartFrom.mp hother).1, hbyte ▸ (mem_apartFrom.mp hother).2⟩
    · exact ⟨own :: rest, mem_restsOf.mp hrest, by simpa using hbyte⟩

/-- A foldable node has two nodes right below it, each with an entry. -/
theorem Node.Foldable.two_le (h : Node.Foldable ⟨total, count, below⟩) :
    2 ≤ below.nodes.length := by
  obtain ⟨htwo, hone⟩ := foldable_iff.mp h
  rw [entryCount_eq_sum, List.map_congr_left hone] at htwo
  simpa using htwo

theorem Node.Holds.branches (h : n.Holds l) (hfold : n.Foldable) : Branches l := by
  rcases h.cases with ⟨hn, -⟩ | ⟨hn, -, hl⟩
  · rw [hn] at hfold
    exact absurd hfold.two_le (by simp [nodes])
  · rw [hn] at hfold
    exact hl.branches hfold.two_le

/-- A path beside a node does not lead through it. -/
theorem Holds.find?_beside (h : beside.Holds (apartFrom own l))
    (hfind : beside.find? path = some n) :
    (Forest.node own total count below beside).find? path = some n := by
  cases path with
  | nil => simp at hfind
  | cons byte path =>
    obtain ⟨rest, hrest⟩ := List.exists_mem_of_ne_nil _ (h.find? hfind).ne_nil
    have hne : byte ≠ own := by simpa using (mem_apartFrom.mp (mem_restsAfter.mp hrest)).2
    rw [find?_other hne, hfind]

/-- The list of foldable nodes holds each with the path that leads to it. -/
theorem Holds.find?_of_mem_foldables (h : f.Holds l) {c : Bytes × Node} (hc : c ∈ f.foldables) :
    f.find? c.1 = some c.2 ∧ c.2.Foldable := by
  induction f generalizing l c with
  | empty => simp [foldables] at hc
  | node own total count below beside ihBelow ihBeside =>
    obtain ⟨hnode, -, hbeside⟩ := holds_node_iff.mp h
    simp only [foldables, List.mem_append, List.mem_map] at hc
    rcases hc with (⟨c, hc, rfl⟩ | hc) | hc
    · obtain ⟨-, ⟨rfl, -⟩ | ⟨-, -, hl⟩⟩ := hnode
      · simp [foldables] at hc
      · obtain ⟨hfind, hfold⟩ := ihBelow hl hc
        have hpath : c.1 ≠ [] := fun hnil => by simp [hnil] at hfind
        refine ⟨?_, hfold⟩
        rw [find?_self, Node.find?, if_neg (mt List.isEmpty_iff.mp hpath)]
        exact hfind
    · split_ifs at hc with hfold
      · rw [List.mem_singleton.mp hc]
        exact ⟨by rw [find?_self]; rfl, hfold⟩
      · exact absurd hc List.not_mem_nil
    · obtain ⟨hfind, hfold⟩ := ihBeside hbeside hc
      exact ⟨hbeside.find?_beside hfind, hfold⟩

/-! ### Folding -/

theorem fold_self :
    (Forest.node own total count below beside).fold (own :: path) =
      .node own (Node.fold path ⟨total, count, below⟩).total
        (Node.fold path ⟨total, count, below⟩).count
        (Node.fold path ⟨total, count, below⟩).below beside := by
  rw [fold, if_pos rfl, Node.fold]
  split <;> rfl

theorem fold_other (h : byte ≠ own) :
    (Forest.node own total count below beside).fold (byte :: path) =
      .node own total count below (beside.fold (byte :: path)) := by
  rw [fold, if_neg h]

theorem fold_ne_empty (h : f ≠ .empty) : f.fold path ≠ .empty := by
  cases f with
  | empty => exact absurd rfl h
  | node own total count below beside =>
    cases path with
    | nil => exact h
    | cons byte path =>
      rw [fold]
      split_ifs <;> simp

theorem Node.fold_nil : n.fold [] = ⟨n.total, n.total, .empty⟩ := rfl

theorem Node.fold_of_ne_nil (hpath : path ≠ []) :
    n.fold path = ⟨n.total, n.count, n.below.fold path⟩ := by
  rw [Node.fold, if_neg (mt List.isEmpty_iff.mp hpath)]

theorem Node.find?_of_ne_nil (hpath : path ≠ []) : n.find? path = n.below.find? path := by
  rw [Node.find?, if_neg (mt List.isEmpty_iff.mp hpath)]

variable {m : Forest.Node}

/-- Folding at or below a node keeps what it holds. -/
theorem Node.Holds.fold (h : n.Holds l) (hfind : n.find? path = some m) (hfold : m.Foldable)
    (ih : n.below.Holds l → n.below.find? path = some m → (n.below.fold path).Holds l) :
    (n.fold path).Holds l := by
  by_cases hpath : path = []
  · subst hpath
    obtain rfl : n = m := Option.some.inj hfind
    exact ⟨h.1, Or.inl ⟨rfl, rfl, h.branches hfold⟩⟩
  · rw [Node.find?_of_ne_nil hpath] at hfind
    rw [Node.fold_of_ne_nil hpath]
    obtain ⟨htotal, ⟨hempty, -⟩ | ⟨hne, hcount, hl⟩⟩ := h
    · simp [hempty] at hfind
    · exact ⟨htotal, Or.inr ⟨fold_ne_empty hne, hcount, ih hl hfind⟩⟩

theorem Node.Holds.entryCount_fold (h : n.Holds l) (hfind : n.find? path = some m)
    (ih : n.below.Holds l → n.below.find? path = some m →
      (n.below.fold path).entryCount + m.entryCount = n.below.entryCount + 1) :
    (n.fold path).entryCount + m.entryCount = n.entryCount + 1 := by
  by_cases hpath : path = []
  · subst hpath
    obtain rfl : n = m := Option.some.inj hfind
    rw [Node.fold_nil, Node.entryCount_leaf h.total_pos, Nat.add_comm]
  · rw [Node.find?_of_ne_nil hpath] at hfind
    rw [Node.fold_of_ne_nil hpath]
    obtain ⟨-, ⟨hempty, -⟩ | ⟨hne, -, hl⟩⟩ := h
    · simp [hempty] at hfind
    · rw [Node.entryCount_inner (fold_ne_empty hne), ih hl hfind, Node.entryCount_inner hne]

/-- **Folding a node** keeps what the forest holds. -/
theorem Holds.fold (h : f.Holds l) (hfind : f.find? path = some m) (hfold : m.Foldable) :
    (f.fold path).Holds l := by
  induction f generalizing l path with
  | empty => simp at hfind
  | node own total count below beside ihBelow ihBeside =>
    obtain ⟨hnode, hafter, hbeside⟩ := holds_node_iff.mp h
    cases path with
    | nil => exact h
    | cons byte path =>
      by_cases hbyte : byte = own
      · subst hbyte
        rw [find?_self] at hfind
        rw [fold_self]
        exact ⟨hnode.fold hfind hfold fun hl hfind => ihBelow hl hfind, hafter, hbeside⟩
      · rw [find?_other hbyte] at hfind
        rw [fold_other hbyte]
        exact ⟨hnode, hafter, ihBeside hbeside hfind⟩

/-- Folding a node leaves one entry in place of all of its entries. -/
theorem Holds.entryCount_fold (h : f.Holds l) (hfind : f.find? path = some m) :
    (f.fold path).entryCount + m.entryCount = f.entryCount + 1 := by
  induction f generalizing l path with
  | empty => simp at hfind
  | node own total count below beside ihBelow ihBeside =>
    obtain ⟨hnode, -, hbeside⟩ := holds_node_iff.mp h
    cases path with
    | nil => simp at hfind
    | cons byte path =>
      by_cases hbyte : byte = own
      · subst hbyte
        rw [find?_self] at hfind
        rw [fold_self, entryCount_node, entryCount_node, Nat.add_right_comm,
          hnode.entryCount_fold hfind fun hl hfind => ihBelow hl hfind, Nat.add_right_comm]
      · rw [find?_other hbyte] at hfind
        rw [fold_other hbyte, entryCount_node, entryCount_node, Nat.add_assoc,
          ihBeside hbeside hfind, Nat.add_assoc]

/-! ### Forests with nothing to fold -/

/-- Where no node may be folded, each first byte has one entry. -/
theorem Holds.entryCount_eq_one (h : f.Holds l) (hnone : f.foldables = []) :
    ∀ child ∈ f.nodes, child.2.entryCount = 1 := by
  induction f generalizing l with
  | empty => simp [nodes]
  | node own total count below beside ihBelow ihBeside =>
    obtain ⟨hnode, -, hbeside⟩ := holds_node_iff.mp h
    simp only [foldables, List.append_eq_nil_iff, List.map_eq_nil_iff, ite_eq_right_iff,
      List.cons_ne_nil, imp_false] at hnone
    obtain ⟨⟨hbelow, hfold⟩, hrest⟩ := hnone
    refine List.forall_mem_cons.mpr ⟨?_, ihBeside hbeside hrest⟩
    show Node.entryCount ⟨total, count, below⟩ = 1
    have hpos := hnode.entryCount_pos
    rcases hnode.cases with ⟨hn, hb⟩ | ⟨hn, hne, hl⟩
    · rw [hn, Node.entryCount_leaf hb.length_pos]
    · have hlt : ¬ 2 ≤ Node.entryCount ⟨total, count, below⟩ :=
        fun htwo => hfold ⟨htwo, ihBelow hl hbelow⟩
      omega

/-- Then no two entries start with the same byte. -/
theorem Holds.nodup_heads (h : f.Holds l) (hone : ∀ child ∈ f.nodes, child.2.entryCount = 1) :
    (f.entries.map (·.1.head?)).Nodup := by
  induction f generalizing l with
  | empty => simp [entries]
  | node own total count below beside ihBelow ihBeside =>
    obtain ⟨hnode, -, hbeside⟩ := holds_node_iff.mp h
    obtain ⟨hown, hothers⟩ := List.forall_mem_cons.mp hone
    obtain ⟨e, he⟩ : ∃ e, Node.entries ⟨total, count, below⟩ = [e] :=
      List.length_eq_one_iff.mp (hnode.length_entries.trans hown)
    rw [entries_node, he]
    show (some own :: beside.entries.map (·.1.head?)).Nodup
    refine List.nodup_cons.mpr ⟨fun hmem => ?_, ihBeside hbeside hothers⟩
    obtain ⟨other, hother, hhead⟩ := List.mem_map.mp hmem
    exact hbeside.head?_ne hother hhead

end Forest

end TrafficSheet
