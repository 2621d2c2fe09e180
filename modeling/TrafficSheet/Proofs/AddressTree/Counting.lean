import TrafficSheet.Proofs.AddressTree.History

/-!
# Counting one more address

Inserting an address into a forest that holds the addresses `l` gives one that holds
`l ++ [a]`, as long as all are equally long: then an address never ends above a node that
leads on. The insertion makes one more entry exactly when no entry stood for the address
(`Holds.entryCount_insert`), and otherwise adds one to the entry that did (`countsOne_insert`).
-/

namespace TrafficSheet.Forest

variable {f : Forest} {n : Forest.Node} {l : List Bytes} {a rest : Bytes}
variable {byte own : UInt8} {total count : Nat} {below beside : Forest}

/-! ### The three places of an address -/

theorem byte_lt_trichotomy (byte own : UInt8) : byte < own ∨ own < byte ∨ byte = own := by
  by_cases hlt : byte < own
  · exact Or.inl hlt
  by_cases hgt : own < byte
  · exact Or.inr (Or.inl hgt)
  · exact Or.inr (Or.inr (UInt8.le_antisymm (UInt8.not_lt.mp hgt) (UInt8.not_lt.mp hlt)))

theorem insert_lt (h : byte < own) :
    (Forest.node own total count below beside).insert (byte :: rest) =
      sprout (byte :: rest) (.node own total count below beside) := by
  rw [insert, if_pos h]

theorem insert_gt (h : own < byte) :
    (Forest.node own total count below beside).insert (byte :: rest) =
      .node own total count below (beside.insert (byte :: rest)) := by
  rw [insert, if_neg (UInt8.lt_asymm h), if_pos h]

theorem insert_self :
    (Forest.node own total count below beside).insert (own :: rest) =
      .node own (Node.insert rest ⟨total, count, below⟩).total
        (Node.insert rest ⟨total, count, below⟩).count
        (Node.insert rest ⟨total, count, below⟩).below beside := by
  rw [insert, if_neg (UInt8.lt_irrefl _), if_neg (UInt8.lt_irrefl _), Node.insert]
  split <;> rfl

theorem hits_self :
    (Forest.node own total count below beside).hits (own :: rest) =
      Node.hits rest ⟨total, count, below⟩ := by
  rw [hits, if_pos rfl, Node.hits]

theorem hits_other (h : byte ≠ own) :
    (Forest.node own total count below beside).hits (byte :: rest) =
      beside.hits (byte :: rest) := by
  rw [hits, if_neg h]

/-- An address before all others starts a node of its own. -/
theorem sprout_holds (ha : a ≠ []) (h : f.Holds l) (hafter : ∀ byte ∈ a.head?, StartAfter byte l) :
    (sprout a f).Holds (l ++ [a]) := by
  induction a generalizing f l with
  | nil => exact absurd rfl ha
  | cons byte rest ih =>
    have hstart := hafter byte rfl
    have hrests : restsOf byte (l ++ [byte :: rest]) = [rest] := by
      rw [restsOf_append, hstart.restsOf, restsOf_self, List.nil_append]
    have hapart : apartFrom byte (l ++ [byte :: rest]) = l := by
      rw [apartFrom_append, hstart.apartFrom, apartFrom_self, List.append_nil]
    cases rest with
    | nil =>
      refine ⟨⟨by rw [hrests]; rfl, Or.inl ⟨rfl, rfl, ?_⟩⟩, by rwa [hapart], by rwa [hapart]⟩
      rw [hrests]
      exact fun byte => ⟨[], List.mem_singleton_self _, by simp⟩
    | cons next rest =>
      have hbelow : (sprout (next :: rest) .empty).Holds [next :: rest] :=
        ih (List.cons_ne_nil _ _) (l := []) rfl (fun _ _ _ hmem => absurd hmem List.not_mem_nil)
      refine ⟨⟨by rw [hrests]; rfl, Or.inr ⟨?_, rfl, by rwa [hrests]⟩⟩, by rwa [hapart],
        by rwa [hapart]⟩
      cases rest <;> simp [sprout]

/-- A forest of later bytes has no entry for an address. -/
theorem Holds.hits_eq_zero (h : f.Holds l) (hafter : StartAfter byte l) :
    f.hits (byte :: rest) = 0 := by
  induction f generalizing l with
  | empty => rfl
  | node own total count below beside ihBelow ihBeside =>
    obtain ⟨hnode, -, hbeside⟩ := holds_node_iff.mp h
    have hne : byte ≠ own := by
      obtain ⟨r, hr⟩ := List.exists_mem_of_ne_nil _ hnode.ne_nil
      obtain ⟨next, hnext, hlt⟩ := hafter _ (mem_restsOf.mp hr)
      simp only [List.head?_cons, Option.mem_some_iff] at hnext
      subst hnext
      exact UInt8.ne_of_lt hlt
    rw [hits_other hne]
    exact ihBeside hbeside fun b hb => hafter b (mem_apartFrom.mp hb).1

/-- The bytes of a forest's addresses do not come before its first node. -/
theorem Holds.startAfter (h : (Forest.node own total count below beside).Holds l)
    (hlt : byte < own) :
    StartAfter byte l := by
  obtain ⟨-, hafter, -⟩ := h
  intro a ha
  by_cases hhead : a.head? = some own
  · exact ⟨own, hhead, hlt⟩
  · obtain ⟨next, hnext, hlt'⟩ := hafter a (mem_apartFrom.mpr ⟨ha, hhead⟩)
    exact ⟨next, hnext, UInt8.lt_trans hlt hlt'⟩

/-! ### A node that an address passes through -/

theorem sprout_ne_empty (ha : a ≠ []) : sprout a f ≠ .empty := by
  cases a with
  | nil => exact absurd rfl ha
  | cons byte rest => cases rest <;> simp [sprout]

theorem insert_ne_empty (ha : a ≠ []) : f.insert a ≠ .empty := by
  cases a with
  | nil => exact absurd rfl ha
  | cons byte rest =>
    cases f with
    | empty => exact sprout_ne_empty ha
    | node own total count below beside =>
      rw [insert]
      split_ifs
      · exact sprout_ne_empty ha
      all_goals simp

theorem Node.insert_leaf (h : 0 < count) :
    Node.insert rest ⟨total, count, .empty⟩ = ⟨total + 1, count + 1, .empty⟩ := by
  simp [Node.insert, isEmpty, h]

theorem Node.insert_inner (hrest : rest ≠ []) :
    Node.insert rest ⟨total, 0, below⟩ = ⟨total + 1, 0, below.insert rest⟩ := by
  simp [Node.insert, hrest]

theorem Node.hits_leaf : Node.hits rest ⟨total, count, .empty⟩ = count := by
  simp [Node.hits, isEmpty]

theorem Node.hits_inner (hrest : rest ≠ []) (hbelow : below ≠ .empty) :
    Node.hits rest ⟨total, count, below⟩ = below.hits rest := by
  have hfalse : below.isEmpty = false := Bool.eq_false_iff.mpr (mt isEmpty_iff.mp hbelow)
  simp [Node.hits, hrest, hfalse]

/-- An address as long as those that go on below a node goes on there too. -/
theorem Holds.rest_ne_nil (h : f.Holds l) (hne : l ≠ []) (hlen : ∀ b ∈ l, b.length = rest.length) :
    rest ≠ [] := by
  obtain ⟨b, hb⟩ := List.exists_mem_of_ne_nil _ hne
  obtain ⟨next, b', rfl⟩ := h.exists_cons hb
  exact List.ne_nil_of_length_pos (by rw [← hlen _ hb]; simp)

/-- An address ends in an entry or goes on to the nodes below. -/
theorem Node.Holds.insert (h : n.Holds l) (hlen : ∀ b ∈ l, b.length = rest.length)
    (ih : n.below.Holds l → rest ≠ [] → (n.below.insert rest).Holds (l ++ [rest])) :
    (n.insert rest).Holds (l ++ [rest]) := by
  rcases h.cases with ⟨hn, hb⟩ | ⟨hn, -, hl⟩
  · rw [hn, Node.insert_leaf hb.length_pos]
    exact ⟨by simp, Or.inl ⟨rfl, rfl, hb.append _⟩⟩
  · have hrest := hl.rest_ne_nil h.ne_nil hlen
    rw [hn, Node.insert_inner hrest]
    exact ⟨by simp, Or.inr ⟨insert_ne_empty hrest, rfl, ih hl hrest⟩⟩

theorem Node.Holds.entryCount_insert (h : n.Holds l) (hlen : ∀ b ∈ l, b.length = rest.length)
    (ih : n.below.Holds l → rest ≠ [] →
      (n.below.insert rest).entryCount =
        n.below.entryCount + if 0 < n.below.hits rest then 0 else 1) :
    (n.insert rest).entryCount = n.entryCount + if 0 < n.hits rest then 0 else 1 := by
  rcases h.cases with ⟨hn, hb⟩ | ⟨hn, hne, hl⟩
  · rw [hn, Node.insert_leaf hb.length_pos, Node.hits_leaf, if_pos hb.length_pos,
      Node.entryCount_leaf hb.length_pos, Node.entryCount_leaf (Nat.succ_pos _)]
  · have hrest := hl.rest_ne_nil h.ne_nil hlen
    rw [hn, Node.insert_inner hrest, Node.hits_inner hrest hne, Node.entryCount_inner hne,
      Node.entryCount_inner (insert_ne_empty hrest), ih hl hrest]

/-! ### A forest -/

theorem length_of_mem_restsOf (hlen : ∀ b ∈ l, b.length = (byte :: rest).length) :
    ∀ b ∈ restsOf byte l, b.length = rest.length := by
  intro b hb
  have := hlen _ (mem_restsOf.mp hb)
  simpa using this

/-- **Counting an address** leads to a forest that holds one address more. -/
theorem Holds.insert (h : f.Holds l) (ha : a ≠ []) (hlen : ∀ b ∈ l, b.length = a.length) :
    (f.insert a).Holds (l ++ [a]) := by
  induction f generalizing l a with
  | empty =>
    rw [holds_empty_iff.mp h]
    cases a with
    | nil => exact absurd rfl ha
    | cons byte rest => exact sprout_holds ha rfl fun _ _ _ hmem => absurd hmem List.not_mem_nil
  | node own total count below beside ihBelow ihBeside =>
    cases a with
    | nil => exact absurd rfl ha
    | cons byte rest =>
      obtain ⟨hnode, hafter, hbeside⟩ := holds_node_iff.mp h
      rcases byte_lt_trichotomy byte own with hlt | hgt | rfl
      · rw [insert_lt hlt]
        refine sprout_holds ha h fun b hb => ?_
        rw [List.head?_cons, Option.mem_some_iff] at hb
        exact hb ▸ h.startAfter hlt
      · have hne : byte ≠ own := (UInt8.ne_of_lt hgt).symm
        rw [insert_gt hgt, holds_node_iff, restsOf_append, restsOf_other hne, List.append_nil,
          apartFrom_append, apartFrom_other hne]
        refine ⟨hnode, hafter.append ?_,
          ihBeside hbeside ha fun b hb => hlen b (mem_apartFrom.mp hb).1⟩
        intro b hb
        rw [List.mem_singleton.mp hb]
        exact ⟨byte, rfl, hgt⟩
      · have hrests := length_of_mem_restsOf hlen
        rw [insert_self, holds_node_iff, restsOf_append, restsOf_self, apartFrom_append,
          apartFrom_self, List.append_nil]
        exact ⟨hnode.insert hrests fun hl hrest => ihBelow hl hrest hrests, hafter, hbeside⟩

theorem entryCount_sprout (ha : a ≠ []) : (sprout a f).entryCount = f.entryCount + 1 := by
  induction a generalizing f with
  | nil => exact absurd rfl ha
  | cons byte rest ih =>
    cases rest with
    | nil => rw [sprout, entryCount_node, Node.entryCount_leaf Nat.one_pos, Nat.add_comm]
    | cons next rest =>
      rw [sprout, entryCount_node, Node.entryCount_inner (sprout_ne_empty (List.cons_ne_nil _ _)),
        ih (List.cons_ne_nil _ _), Nat.add_comm, entryCount]

/-- An address makes an entry unless one stood for it. -/
theorem Holds.entryCount_insert (h : f.Holds l) (ha : a ≠ [])
    (hlen : ∀ b ∈ l, b.length = a.length) :
    (f.insert a).entryCount = f.entryCount + if 0 < f.hits a then 0 else 1 := by
  induction f generalizing l a with
  | empty =>
    cases a with
    | nil => exact absurd rfl ha
    | cons byte rest => exact entryCount_sprout ha
  | node own total count below beside ihBelow ihBeside =>
    cases a with
    | nil => exact absurd rfl ha
    | cons byte rest =>
      obtain ⟨hnode, -, hbeside⟩ := holds_node_iff.mp h
      rcases byte_lt_trichotomy byte own with hlt | hgt | rfl
      · rw [insert_lt hlt, h.hits_eq_zero (h.startAfter hlt), entryCount_sprout ha]
        rfl
      · rw [insert_gt hgt, hits_other (UInt8.ne_of_lt hgt).symm, entryCount_node, entryCount_node,
          Nat.add_assoc, ihBeside hbeside ha fun b hb => hlen b (mem_apartFrom.mp hb).1]
      · have hrests := length_of_mem_restsOf hlen
        rw [insert_self, hits_self, entryCount_node, entryCount_node, Nat.add_right_comm,
          ← hnode.entryCount_insert hrests fun hl hrest => ihBelow hl hrest hrests]

/-! ### What becomes of the entries -/

/-- An address that shares no node makes one entry. -/
theorem entries_sprout (ha : a ≠ []) :
    (sprout a f).entries = (a, 1) :: f.entries := by
  induction a generalizing f with
  | nil => exact absurd rfl ha
  | cons byte rest ih =>
    cases rest with
    | nil =>
      rw [sprout, entries_node, Node.entries_leaf Nat.one_pos]
      rfl
    | cons next rest =>
      rw [sprout, entries_node, Node.entries_inner, ih (List.cons_ne_nil _ _)]
      rfl

/-- The second entries are the first ones with an address counted. -/
inductive CountsOne (a : Bytes) : List (Bytes × Nat) → List (Bytes × Nat) → Prop
  /-- The address makes an entry. -/
  | made (front back : List (Bytes × Nat)) :
    CountsOne a (front ++ back) (front ++ (a, 1) :: back)
  /-- An entry that the address starts with counts one more. -/
  | known (front back : List (Bytes × Nat)) {path : Bytes} {count : Nat} : path <+: a →
    CountsOne a (front ++ (path, count) :: back) (front ++ (path, count + 1) :: back)

namespace CountsOne

variable {es es' : List (Bytes × Nat)}

theorem append_right (h : CountsOne a es es') (more : List (Bytes × Nat)) :
    CountsOne a (es ++ more) (es' ++ more) := by
  cases h with
  | made front back => simpa using made front (back ++ more)
  | known front back hp => simpa using known front (back ++ more) hp

theorem append_left (h : CountsOne a es es') (more : List (Bytes × Nat)) :
    CountsOne a (more ++ es) (more ++ es') := by
  cases h with
  | made front back => simpa using made (more ++ front) back
  | known front back hp => simpa using known (more ++ front) back hp

theorem cons (h : CountsOne a es es') (byte : UInt8) :
    CountsOne (byte :: a) (es.map fun e => (byte :: e.1, e.2))
      (es'.map fun e => (byte :: e.1, e.2)) := by
  cases h with
  | made front back =>
    rw [List.map_append, List.map_append, List.map_cons]
    exact made _ _
  | known front back hp =>
    rw [List.map_append, List.map_append, List.map_cons, List.map_cons]
    exact known _ _ (List.cons_prefix_cons.mpr ⟨rfl, hp⟩)

end CountsOne

theorem Node.countsOne_insert (n : Node) (rest : Bytes)
    (ih : rest ≠ [] → CountsOne rest n.below.entries (n.below.insert rest).entries) :
    CountsOne rest n.entries (n.insert rest).entries := by
  rw [Node.insert]
  split_ifs with hends
  · -- The address ends at the node, or at an entry that stood there before.
    rw [Node.entries, Node.entries, if_pos (Nat.succ_pos _)]
    by_cases hcount : 0 < n.count
    · rw [if_pos hcount]
      exact .known [] _ List.nil_prefix
    · obtain rfl : rest = [] := by simpa [hcount] using hends
      rw [if_neg hcount, Nat.eq_zero_of_not_pos hcount]
      exact .made [] _
  · have hrest : rest ≠ [] := by
      rintro rfl
      exact hends rfl
    exact (ih hrest).append_left _

/-- **Counting an address** makes an entry for it, or adds one to an entry that it starts with. -/
theorem countsOne_insert (ha : a ≠ []) : CountsOne a f.entries (f.insert a).entries := by
  induction f generalizing a with
  | empty =>
    cases a with
    | nil => exact absurd rfl ha
    | cons byte rest =>
      rw [insert, entries_sprout ha]
      exact .made [] _
  | node own total count below beside ihBelow ihBeside =>
    cases a with
    | nil => exact absurd rfl ha
    | cons byte rest =>
      rcases byte_lt_trichotomy byte own with hlt | hgt | rfl
      · rw [insert_lt hlt, entries_sprout ha]
        exact .made [] _
      · rw [insert_gt hgt, entries_node, entries_node]
        exact (ihBeside ha).append_left _
      · rw [insert_self, entries_node, entries_node]
        have hnode := Node.countsOne_insert ⟨total, count, below⟩ rest fun hrest => ihBelow hrest
        exact (hnode.cons byte).append_right _

end TrafficSheet.Forest
