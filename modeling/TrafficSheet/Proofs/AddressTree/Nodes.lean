import TrafficSheet.Proofs.AddressTree.Cheapest

/-!
# The nodes of an address tree

Every node keeps how many addresses reached it and how many of them ended there. Counting an
address changes these numbers on its whole way down, and folding a node sets the one from the
other, so they could come apart. They do not: in every state that counting leads to
(`AddressTree.Reached`), each node that a path leads to from the root of a family
(`Forest.Node.LeadsTo`) has the total of its children and its own count, and is an entry exactly
if it has no children (`Forest.Node.SoundAt`); and the totals of the roots add up to that of the
tree (`AddressTree.Reached.sound_nodes`).
-/

namespace TrafficSheet

namespace Forest

variable {f : Forest} {n m : Node} {l : List Bytes} {path : Bytes} {length : Nat}

/-! ### Visiting one node -/

/-- A visit of a node and of all below it, by a walk that is at the node: how many entries it
holds, and the walk after it. -/
def Node.visit (family : Nat) (n : Node) (w : Walk) : Nat × Walk :=
  if n.below.isEmpty then (if 0 < n.count then 1 else 0, w)
  else
    let inner := n.below.visit family w
    (inner.entries,
      if 2 ≤ inner.entries ∧ inner.allSingle = true then inner.walk.offer family n.total
      else inner.walk)

/-- A walk over a forest steps down to the first node, visits it, steps back up and goes on to the
nodes beside it. -/
theorem visit_node (family : Nat) (byte : UInt8) (total count : Nat) (below beside : Forest)
    (w : Walk) :
    (Forest.node byte total count below beside).visit family w =
      let here := Node.visit family ⟨total, count, below⟩ (w.enter byte)
      let others := beside.visit family here.2.leave
      ⟨here.1 + others.entries, here.1 == 1 && others.allSingle, others.walk⟩ := by
  cases below <;> rfl

theorem trail_offer (family total : Nat) (w : Walk) :
    (w.offer family total).trail = w.trail := by
  rw [offer_eq]

/-- **A visit counts the entries** of a node and ends where it started. -/
theorem Node.visit_spec (family : Nat) (n : Node) (w : Walk) :
    (n.visit family w).1 = n.entryCount ∧ (n.visit family w).2.trail = w.trail := by
  rw [Node.visit, Node.entryCount, visit_eq]
  split_ifs
  · exact ⟨rfl, rfl⟩
  · exact ⟨rfl, rfl⟩
  · refine ⟨rfl, ?_⟩
    dsimp only
    split_ifs
    · exact trail_offer family n.total _
    · rfl

/-! ### The nodes below a node -/

/-- A path leads from a node to itself or to one below it. -/
inductive Node.LeadsTo : Node → Bytes → Node → Prop
  /-- The path without bytes stays at the node. -/
  | here (n : Node) : LeadsTo n [] n
  /-- Any other path goes on from a child of the node. -/
  | child {n child m : Node} {byte : UInt8} {path : Bytes} :
    (byte, child) ∈ n.below.nodes → LeadsTo child path m → LeadsTo n (byte :: path) m

theorem Node.Holds.leadsTo (h : n.Holds l) (hleads : n.LeadsTo path m) :
    m.Holds (restsAfter path l) := by
  induction hleads generalizing l with
  | here => exact h
  | child hmem _ ih =>
    obtain ⟨-, ⟨hempty, -⟩ | ⟨-, -, hbelow⟩⟩ := h
    · rw [hempty] at hmem
      exact absurd hmem List.not_mem_nil
    · exact ih (hbelow.nodes _ hmem)

theorem nodes_eq_nil_iff : f.nodes = [] ↔ f = .empty := by
  cases f <;> simp [nodes]

/-- The nodes of a forest are reached by all of its addresses. -/
theorem Holds.sum_totals (h : f.Holds l) : (f.nodes.map (·.2.total)).sum = l.length := by
  induction f generalizing l with
  | empty => rw [holds_empty_iff.mp h]; rfl
  | node byte total count below beside _ ihBeside =>
    obtain ⟨hnode, -, hbeside⟩ := holds_node_iff.mp h
    rw [Forest.nodes, List.map_cons, List.sum_cons, ihBeside hbeside, hnode.1,
      length_restsOf_add_apartFrom]

/-! ### Numbers that fit together -/

/-- The numbers of a node at some depth fit together, where addresses have the given length. -/
structure Node.SoundAt (n : Node) (length depth : Nat) : Prop where
  /-- Its total is its own count and the totals of its children. -/
  total_eq : n.total = n.count + (n.below.nodes.map (·.2.total)).sum
  /-- It has a count exactly if it has no children. -/
  count_pos_iff : 0 < n.count ↔ n.below.nodes = []
  /-- It is no deeper than addresses are long. -/
  depth_le : depth ≤ length
  /-- At the end of an address it has no children. -/
  nodes_eq_nil : depth = length → n.below.nodes = []
  /-- Visiting it counts its entries, and ends where it started. -/
  visit_spec : ∀ w, (n.visit length w).1 = n.entryCount ∧ (n.visit length w).2.trail = w.trail
  /-- It is visited so by a walk over a forest that it stands in. -/
  visit_node : ∀ byte beside w, (Forest.node byte n.total n.count n.below beside).visit length w =
    let here := n.visit length (w.enter byte)
    let others := beside.visit length here.2.leave
    ⟨here.1 + others.entries, here.1 == 1 && others.allSingle, others.walk⟩

/-- **A node that holds the rests** of addresses of one length is sound. -/
theorem Node.Holds.soundAt (h : n.Holds (restsAfter path l))
    (hlen : ∀ a ∈ l, a.length = length) : n.SoundAt length path.length := by
  have hrests : ∀ rest ∈ restsAfter path l, path.length + rest.length = length := by
    intro rest hrest
    rw [← List.length_append]
    exact hlen _ (mem_restsAfter.mp hrest)
  obtain ⟨rest, hrest⟩ := List.exists_mem_of_ne_nil _ h.ne_nil
  have hdepth := hrests rest hrest
  refine ⟨?_, ?_, by omega, fun hend => ?_, n.visit_spec length, fun byte beside w => ?_⟩
  · obtain ⟨htotal, ⟨hempty, hcount, -⟩ | ⟨-, hcount, hbelow⟩⟩ := h
    · rw [hempty, hcount]
      rfl
    · rw [hcount, hbelow.sum_totals, htotal, Nat.zero_add]
  · rw [nodes_eq_nil_iff]
    have hpos := h.total_pos
    obtain ⟨-, ⟨hempty, hcount, -⟩ | ⟨hne, hcount, -⟩⟩ := h
    · exact iff_of_true (hcount ▸ hpos) hempty
    · exact iff_of_false (by omega) hne
  · rw [nodes_eq_nil_iff]
    obtain ⟨-, ⟨hempty, -⟩ | ⟨-, -, hbelow⟩⟩ := h
    · exact hempty
    · obtain ⟨byte, rest', rfl⟩ := hbelow.exists_cons hrest
      rw [List.length_cons] at hdepth
      omega
  · exact Forest.visit_node length byte n.total n.count n.below beside w

/-- A root that has children holds its addresses as any node does. -/
theorem Node.RootOf.holds (h : n.RootOf l) (hne : n.below ≠ .empty) : n.Holds l :=
  ⟨h.total, Or.inr ⟨hne, h.count, h.below⟩⟩

end Forest

namespace AddressTree

variable {t : AddressTree} {addresses : List Bytes} {m : Nat}

/-- The numbers of all nodes of a tree fit together. -/
structure Sound (t : AddressTree) : Prop where
  /-- Those of every node in every family do. -/
  node : ∀ family ∈ t.families, ∀ path n, family.root.LeadsTo path n →
    n.SoundAt family.length path.length
  /-- A root is no entry, and it has children. -/
  root : ∀ family ∈ t.families, family.root.count = 0 ∧ family.root.below.nodes ≠ []
  /-- All addresses went through a root. -/
  total_eq : (t.families.map (·.root.total)).sum = t.total

theorem Holds.sum_roots (h : t.Holds addresses) :
    (t.families.map (·.root.total)).sum = t.total := by
  rw [h.total, ← h.sum_counts, entries_eq_flatMap, List.map_flatMap, List.flatMap_def,
    List.sum_flatten, List.map_map]
  refine congrArg List.sum (List.map_congr_left fun family hmem => ?_)
  have hroot := h.root family hmem
  have hcounts : (familyEntries family).map (·.count) = family.root.below.entries.map (·.2) := by
    rw [familyEntries, List.map_map, hroot.entries]
    rfl
  rw [hroot.total, ← hroot.below.sum_counts, ← hcounts]
  rfl

theorem Holds.sound (h : t.Holds addresses) : t.Sound where
  node family hmem path n hleads := by
    have hroot := (h.root family hmem).holds (h.below_ne family hmem)
    exact (hroot.leadsTo hleads).soundAt fun a ha => (mem_ofLength.mp ha).2
  root family hmem :=
    ⟨(h.root family hmem).count, mt Forest.nodes_eq_nil_iff.mp (h.below_ne family hmem)⟩
  total_eq := h.sum_roots

/-- **The numbers of a tree fit together** in every state that counting addresses leads to, whether
an address has just been counted and is still to be folded, or some nodes have been folded. -/
theorem Reached.sound_nodes (hreached : Reached m t) : t.Sound := by
  obtain ⟨addresses, h⟩ := hreached.holds
  exact h.sound

/-- Under a bound of two, the addresses under 10 were folded at their second byte; the node there
has both of them as its count, and the root counts all three. -/
theorem Reached.sound_nodes_folded :
    let t := (empty 2).addAll [[10, 0, 1], [10, 0, 2], [20, 0, 1]]
    Reached 2 t ∧ t.Sound ∧
      t.families = [⟨3, 3, 0,
        .node 10 2 0 (.node 0 2 2 .empty .empty)
          (.node 20 1 0 (.node 0 1 0 (.node 1 1 1 .empty .empty) .empty) .empty)⟩] := by
  intro t
  have hreached : Reached 2 t := .addAll [[10, 0, 1], [10, 0, 2], [20, 0, 1]]
  exact ⟨hreached, Reached.sound_nodes hreached, by decide⟩

end AddressTree

end TrafficSheet
