import Mathlib
import TrafficSheet.AddressTree.Basic

/-!
# The addresses behind a forest

A forest forgets most of the addresses that it counted. `Forest.Holds f l` says which lists
`l` it may have come from: each node's total is the number of addresses that pass through
it, and a node is either an entry, which has no nodes below it and whose addresses share no
byte after its path, or it has no count of its own and the nodes below it hold the rests of
its addresses.

What is proved here follows from `Holds` alone, however the forest was made: an entry counts
exactly the addresses that start with its path (`StandsFor`), every address belongs to
exactly one entry, and the counts add up to the number of addresses.
-/

namespace TrafficSheet

/-! ### Addresses by their first byte -/

/-- What follows a byte in the addresses that start with it. -/
def restsOf (byte : UInt8) (l : List Bytes) : List Bytes :=
  (l.filter (·.head? == some byte)).map List.tail

/-- The addresses that do not start with a byte. -/
def apartFrom (byte : UInt8) (l : List Bytes) : List Bytes := l.filter (·.head? != some byte)

/-- Every address starts with a byte above the given one. -/
def StartAfter (byte : UInt8) (l : List Bytes) : Prop := ∀ a ∈ l, ∃ next ∈ a.head?, byte < next

/-- No byte is the first one of all addresses. -/
def Branches (l : List Bytes) : Prop := ∀ byte : UInt8, ∃ a ∈ l, a.head? ≠ some byte

@[simp] theorem mem_restsOf {byte : UInt8} {l : List Bytes} {rest : Bytes} :
    rest ∈ restsOf byte l ↔ byte :: rest ∈ l := by
  simp only [restsOf, List.mem_map, List.mem_filter, beq_iff_eq]
  constructor
  · rintro ⟨a, ⟨ha, hhead⟩, rfl⟩
    rwa [List.cons_head?_tail hhead]
  · intro h
    exact ⟨byte :: rest, ⟨h, rfl⟩, rfl⟩

@[simp] theorem mem_apartFrom {byte : UInt8} {l : List Bytes} {a : Bytes} :
    a ∈ apartFrom byte l ↔ a ∈ l ∧ a.head? ≠ some byte := by
  simp [apartFrom]

theorem restsOf_append (byte : UInt8) (l l' : List Bytes) :
    restsOf byte (l ++ l') = restsOf byte l ++ restsOf byte l' := by
  simp [restsOf]

theorem apartFrom_append (byte : UInt8) (l l' : List Bytes) :
    apartFrom byte (l ++ l') = apartFrom byte l ++ apartFrom byte l' := by
  simp [apartFrom]

@[simp] theorem restsOf_self (byte : UInt8) (rest : Bytes) :
    restsOf byte [byte :: rest] = [rest] := by
  simp [restsOf]

@[simp] theorem apartFrom_self (byte : UInt8) (rest : Bytes) :
    apartFrom byte [byte :: rest] = [] := by
  simp [apartFrom]

theorem restsOf_other {byte other : UInt8} (h : other ≠ byte) (rest : Bytes) :
    restsOf byte [other :: rest] = [] := by
  simp [restsOf, h]

theorem apartFrom_other {byte other : UInt8} (h : other ≠ byte) (rest : Bytes) :
    apartFrom byte [other :: rest] = [other :: rest] := by
  simp [apartFrom, h]

/-- Every address starts with the byte or does not. -/
theorem length_restsOf_add_apartFrom (byte : UInt8) (l : List Bytes) :
    (restsOf byte l).length + (apartFrom byte l).length = l.length := by
  rw [restsOf, apartFrom, List.length_map, ← List.countP_eq_length_filter,
    ← List.countP_eq_length_filter,
    List.length_eq_countP_add_countP (fun a : Bytes => a.head? == some byte) (l := l)]
  simp only [bne, Bool.not_eq_true, Bool.decide_eq_false]

/-- The rests that start with a path are the addresses that start with the byte and the path. -/
theorem countP_restsOf (byte : UInt8) (path : Bytes) (l : List Bytes) :
    (restsOf byte l).countP (path <+: ·) = l.countP (byte :: path <+: ·) := by
  rw [restsOf, List.countP_map, List.countP_filter]
  refine List.countP_congr fun a _ => ?_
  cases a with
  | nil => simp
  | cons b rest =>
    simp only [Function.comp_apply, Bool.and_eq_true, decide_eq_true_eq, beq_iff_eq]
    rw [List.cons_prefix_cons, List.head?_cons, Option.some_inj, List.tail_cons, and_comm,
      eq_comm (a := b)]

/-- Addresses that start with another byte do not start with a path through this one. -/
theorem countP_apartFrom {byte other : UInt8} (h : other ≠ byte) (path : Bytes) (l : List Bytes) :
    (apartFrom byte l).countP (other :: path <+: ·) = l.countP (other :: path <+: ·) := by
  rw [apartFrom, List.countP_filter]
  refine List.countP_congr fun a _ => ?_
  cases a with
  | nil => simp
  | cons b rest =>
    simp only [List.cons_prefix_cons, List.head?_cons, Bool.and_eq_true, decide_eq_true_eq,
      bne_iff_ne, ne_eq, Option.some.injEq, and_iff_left_iff_imp]
    rintro ⟨rfl, -⟩
    exact h

theorem StartAfter.restsOf {byte : UInt8} {l : List Bytes} (h : StartAfter byte l) :
    restsOf byte l = [] := by
  refine List.eq_nil_iff_forall_not_mem.mpr fun rest hrest => ?_
  obtain ⟨next, hnext, hlt⟩ := h _ (mem_restsOf.mp hrest)
  simp only [List.head?_cons, Option.mem_some_iff] at hnext
  subst hnext
  exact UInt8.lt_irrefl _ hlt

theorem StartAfter.apartFrom {byte : UInt8} {l : List Bytes} (h : StartAfter byte l) :
    apartFrom byte l = l := by
  refine List.filter_eq_self.mpr fun a ha => ?_
  obtain ⟨next, hnext, hlt⟩ := h a ha
  rw [Option.mem_def] at hnext
  simp only [hnext, bne_iff_ne, ne_eq, Option.some.injEq]
  rintro rfl
  exact UInt8.lt_irrefl _ hlt

theorem StartAfter.append {byte : UInt8} {l l' : List Bytes} (h : StartAfter byte l)
    (h' : StartAfter byte l') :
    StartAfter byte (l ++ l') := by
  intro a ha
  rcases List.mem_append.mp ha with ha | ha
  · exact h a ha
  · exact h' a ha

theorem Branches.append {l : List Bytes} (h : Branches l) (l' : List Bytes) :
    Branches (l ++ l') := by
  intro byte
  obtain ⟨a, ha, hne⟩ := h byte
  exact ⟨a, List.mem_append_left _ ha, hne⟩

theorem Branches.length_pos {l : List Bytes} (h : Branches l) : 0 < l.length := by
  obtain ⟨a, ha, -⟩ := h 0
  exact List.length_pos_of_mem ha

namespace Forest

/-! ### What a forest may have come from -/

/-- The forest may have come from counting the addresses `l`. -/
def Holds : Forest → List Bytes → Prop
  | .empty, l => l = []
  | .node byte total count below beside, l =>
    (total = (restsOf byte l).length ∧
      (below = .empty ∧ count = total ∧ Branches (restsOf byte l) ∨
        below ≠ .empty ∧ count = 0 ∧ below.Holds (restsOf byte l))) ∧
    StartAfter byte (apartFrom byte l) ∧ beside.Holds (apartFrom byte l)

/-- The same of a node and the rests of the addresses that reached it. -/
def Node.Holds (n : Node) (l : List Bytes) : Prop :=
  n.total = l.length ∧
    (n.below = .empty ∧ n.count = n.total ∧ Branches l ∨
      n.below ≠ .empty ∧ n.count = 0 ∧ n.below.Holds l)

theorem holds_node_iff {byte : UInt8} {total count : Nat} {below beside : Forest} {l : List Bytes} :
    (Forest.node byte total count below beside).Holds l ↔
      Node.Holds ⟨total, count, below⟩ (restsOf byte l) ∧
        StartAfter byte (apartFrom byte l) ∧ beside.Holds (apartFrom byte l) := Iff.rfl

@[simp] theorem holds_empty_iff {l : List Bytes} : Forest.empty.Holds l ↔ l = [] := Iff.rfl

theorem isEmpty_iff {f : Forest} : f.isEmpty = true ↔ f = .empty := by
  cases f <;> simp [isEmpty]

/-- A forest that has a node has counted an address. -/
theorem Holds.ne_nil {f : Forest} {l : List Bytes} (h : f.Holds l) (hf : f ≠ .empty) : l ≠ [] := by
  induction f generalizing l with
  | empty => exact absurd rfl hf
  | node byte total count below beside ihBelow =>
    have hrests : restsOf byte l ≠ [] := by
      obtain ⟨⟨-, ⟨-, -, hb⟩ | ⟨hne, -, hl⟩⟩, -⟩ := h
      · exact List.ne_nil_of_length_pos hb.length_pos
      · exact ihBelow hl hne
    obtain ⟨rest, hrest⟩ := List.exists_mem_of_ne_nil _ hrests
    exact List.ne_nil_of_mem (mem_restsOf.mp hrest)

theorem Node.Holds.ne_nil {n : Node} {l : List Bytes} (h : n.Holds l) : l ≠ [] := by
  obtain ⟨-, ⟨-, -, hb⟩ | ⟨hne, -, hl⟩⟩ := h
  · exact List.ne_nil_of_length_pos hb.length_pos
  · exact hl.ne_nil hne

theorem Node.Holds.total_pos {n : Node} {l : List Bytes} (h : n.Holds l) : 0 < n.total := by
  rw [h.1]
  exact List.length_pos_iff.mpr h.ne_nil

/-- A node either is an entry, for addresses that share no further byte, or leads on to others. -/
theorem Node.Holds.cases {n : Node} {l : List Bytes} (h : n.Holds l) :
    n = ⟨l.length, l.length, .empty⟩ ∧ Branches l ∨
      n = ⟨l.length, 0, n.below⟩ ∧ n.below ≠ .empty ∧ n.below.Holds l := by
  obtain ⟨total, count, below⟩ := n
  simp only [Node.Holds] at h
  obtain ⟨rfl, ⟨rfl, rfl, hb⟩ | ⟨hne, rfl, hl⟩⟩ := h
  · exact Or.inl ⟨rfl, hb⟩
  · exact Or.inr ⟨rfl, hne, hl⟩

/-! ### What an entry stands for -/

/-- An entry counts the addresses that start with its path, and they share no byte after it. -/
structure StandsFor (l : List Bytes) (path : Bytes) (count : Nat) : Prop where
  /-- Nothing is lost or counted twice. -/
  count_eq : count = l.countP (path <+: ·)
  /-- A longer path would miss an address. -/
  tight : ∀ byte, ∃ a ∈ l, path <+: a ∧ ¬ path ++ [byte] <+: a

theorem StandsFor.pos {l : List Bytes} {path : Bytes} {count : Nat} (h : StandsFor l path count) :
    0 < count := by
  obtain ⟨a, ha, hp, -⟩ := h.tight 0
  rw [h.count_eq]
  exact List.countP_pos_iff.mpr ⟨a, ha, by simpa using hp⟩

theorem StandsFor.of_branches {l : List Bytes} (h : Branches l) : StandsFor l [] l.length := by
  refine ⟨by simp, fun byte => ?_⟩
  obtain ⟨a, ha, hne⟩ := h byte
  refine ⟨a, ha, List.nil_prefix, fun hp => hne ?_⟩
  obtain ⟨rest, rfl⟩ := hp
  rfl

theorem StandsFor.cons {byte : UInt8} {l : List Bytes} {path : Bytes} {count : Nat}
    (h : StandsFor (restsOf byte l) path count) : StandsFor l (byte :: path) count := by
  refine ⟨by rw [h.count_eq, countP_restsOf], fun next => ?_⟩
  obtain ⟨rest, hrest, hp, hnot⟩ := h.tight next
  refine ⟨byte :: rest, mem_restsOf.mp hrest, ?_, fun hp' => hnot ?_⟩
  · exact List.cons_prefix_cons.mpr ⟨rfl, hp⟩
  · exact (List.cons_prefix_cons.mp hp').2

theorem StandsFor.of_apartFrom {byte : UInt8} {l : List Bytes} {path : Bytes} {count : Nat}
    (hpath : path ≠ []) (h : StandsFor (apartFrom byte l) path count) :
    path.head? ≠ some byte ∧ StandsFor l path count := by
  cases path with
  | nil => exact absurd rfl hpath
  | cons other path =>
    have hother : other ≠ byte := by
      obtain ⟨a, ha, ⟨rest, rfl⟩, -⟩ := h.tight 0
      simpa using (mem_apartFrom.mp ha).2
    refine ⟨by simpa using hother, by rw [h.count_eq, countP_apartFrom hother], fun next => ?_⟩
    obtain ⟨a, ha, hp⟩ := h.tight next
    exact ⟨a, (mem_apartFrom.mp ha).1, hp⟩

/-- The entries through a first node, and those beside it. -/
theorem entries_node (byte : UInt8) (total count : Nat) (below beside : Forest) :
    (Forest.node byte total count below beside).entries =
      (Node.entries ⟨total, count, below⟩).map (fun e => (byte :: e.1, e.2)) ++ beside.entries := by
  rw [entries, Node.entries, List.map_append]
  split <;> rfl

theorem path_ne_nil {f : Forest} {e : Bytes × Nat} (h : e ∈ f.entries) : e.1 ≠ [] := by
  induction f with
  | empty => simp [entries] at h
  | node byte total count below beside ihBelow ihBeside =>
    rw [entries_node, List.mem_append, List.mem_map] at h
    rcases h with ⟨e, -, rfl⟩ | h
    · exact List.cons_ne_nil _ _
    · exact ihBeside h

/-- A node without nodes below it has no entry but its own. -/
theorem Node.entries_leaf {total count : Nat} (h : 0 < count) :
    Node.entries ⟨total, count, .empty⟩ = [([], count)] := by
  simp [Node.entries, Forest.entries, h]

theorem Node.entries_inner {total : Nat} {below : Forest} :
    Node.entries ⟨total, 0, below⟩ = below.entries := by
  simp [Node.entries]

/-- The entries of a node are its own one or those below it. -/
theorem Node.Holds.entries_cases {n : Node} {l : List Bytes} (h : n.Holds l) :
    n.entries = [([], l.length)] ∧ Branches l ∨ n.entries = n.below.entries ∧ n.below.Holds l := by
  rcases h.cases with ⟨hn, hb⟩ | ⟨hn, -, hl⟩
  · left
    rw [hn, Node.entries_leaf hb.length_pos]
    exact ⟨rfl, hb⟩
  · right
    rw [hn, Node.entries_inner]
    exact ⟨rfl, hl⟩

/-- Every entry of a forest stands for the addresses that start with its path. -/
theorem Holds.standsFor {f : Forest} {l : List Bytes} (h : f.Holds l) {e : Bytes × Nat}
    (he : e ∈ f.entries) :
    StandsFor l e.1 e.2 := by
  induction f generalizing l e with
  | empty => simp [entries] at he
  | node byte total count below beside ihBelow ihBeside =>
    obtain ⟨hnode, -, hbeside⟩ := holds_node_iff.mp h
    rw [entries_node, List.mem_append, List.mem_map] at he
    rcases he with ⟨e, he, rfl⟩ | he
    · apply StandsFor.cons
      rcases hnode.entries_cases with ⟨heq, hb⟩ | ⟨heq, hl⟩
      · rw [heq, List.mem_singleton] at he
        subst he
        exact StandsFor.of_branches hb
      · rw [heq] at he
        exact ihBelow hl he
    · exact (StandsFor.of_apartFrom (path_ne_nil he) (ihBeside hbeside he)).2

/-- Entries beside a node start with other bytes. -/
theorem Holds.head?_ne {byte : UInt8} {f : Forest} {l : List Bytes} (h : f.Holds (apartFrom byte l))
    {e : Bytes × Nat} (he : e ∈ f.entries) : e.1.head? ≠ some byte :=
  (StandsFor.of_apartFrom (path_ne_nil he) (h.standsFor he)).1

/-! ### Every address has one entry -/

/-- Of the entries through a node, those that an address belongs to lead on to its rest. -/
theorem countP_cons_covering (byte : UInt8) (rest : Bytes) (es : List (Bytes × Nat)) :
    (es.map fun e => (byte :: e.1, e.2)).countP (·.1 <+: byte :: rest) =
      es.countP (·.1 <+: rest) := by
  rw [List.countP_map]
  refine List.countP_congr fun e _ => ?_
  simp only [Function.comp_apply, decide_eq_true_eq, List.cons_prefix_cons, true_and]

theorem countP_cons_covering_other {byte other : UInt8} (h : other ≠ byte) (rest : Bytes)
    (es : List (Bytes × Nat)) :
    (es.map fun e => (byte :: e.1, e.2)).countP (·.1 <+: other :: rest) = 0 := by
  rw [List.countP_map, List.countP_eq_zero]
  intro e _
  simp only [Function.comp_apply, decide_eq_true_eq, List.cons_prefix_cons, not_and]
  exact fun heq => absurd heq.symm h

/-- An address that starts with a byte belongs to no entry beside the node of that byte. -/
theorem Holds.countP_beside {byte : UInt8} {f : Forest} {l : List Bytes}
    (h : f.Holds (apartFrom byte l)) (rest : Bytes) :
    f.entries.countP (·.1 <+: byte :: rest) = 0 := by
  rw [List.countP_eq_zero]
  intro e he
  have hne := h.head?_ne he
  have hnil := path_ne_nil he
  simp only [decide_eq_true_eq, List.prefix_cons_iff, not_or]
  refine ⟨hnil, ?_⟩
  rintro ⟨t, ht, -⟩
  exact hne (by rw [ht]; rfl)

/-- No address is empty in a list that a forest may have come from. -/
theorem Holds.exists_cons {f : Forest} {l : List Bytes} (h : f.Holds l) {a : Bytes} (ha : a ∈ l) :
    ∃ byte rest, a = byte :: rest := by
  induction f generalizing l with
  | empty => rw [holds_empty_iff.mp h] at ha; simp at ha
  | node byte total count below beside ihBelow ihBeside =>
    obtain ⟨-, -, hbeside⟩ := h
    cases a with
    | nil => exact ihBeside hbeside (by simpa using ha)
    | cons byte rest => exact ⟨byte, rest, rfl⟩

/-- **Every address belongs to exactly one entry.** -/
theorem Holds.countP_covering {f : Forest} {l : List Bytes} (h : f.Holds l) {a : Bytes}
    (ha : a ∈ l) :
    f.entries.countP (·.1 <+: a) = 1 := by
  induction f generalizing l a with
  | empty => rw [holds_empty_iff.mp h] at ha; simp at ha
  | node byte total count below beside ihBelow ihBeside =>
    obtain ⟨other, rest, rfl⟩ := h.exists_cons ha
    obtain ⟨hnode, -, hbeside⟩ := holds_node_iff.mp h
    rw [entries_node, List.countP_append]
    by_cases hbyte : other = byte
    · subst hbyte
      rw [countP_cons_covering, hbeside.countP_beside, Nat.add_zero]
      rcases hnode.entries_cases with ⟨heq, -⟩ | ⟨heq, hl⟩
      · rw [heq]
        simp
      · rw [heq]
        exact ihBelow hl (mem_restsOf.mpr ha)
    · rw [countP_cons_covering_other hbyte, Nat.zero_add]
      exact ihBeside hbeside (mem_apartFrom.mpr ⟨ha, by simpa using hbyte⟩)

/-- The counts of the entries add up to the number of addresses. -/
theorem Holds.sum_counts {f : Forest} {l : List Bytes} (h : f.Holds l) :
    (f.entries.map (·.2)).sum = l.length := by
  induction f generalizing l with
  | empty => rw [holds_empty_iff.mp h]; rfl
  | node byte total count below beside ihBelow ihBeside =>
    obtain ⟨hnode, -, hbeside⟩ := holds_node_iff.mp h
    rw [entries_node, List.map_append, List.sum_append, List.map_map, ihBeside hbeside,
      ← length_restsOf_add_apartFrom byte l]
    congr 1
    show ((Node.entries ⟨total, count, below⟩).map (·.2)).sum = (restsOf byte l).length
    rcases hnode.entries_cases with ⟨heq, -⟩ | ⟨heq, hl⟩
    · rw [heq]
      simp
    · rw [heq, ihBelow hl]

/-! ### Counting entries without listing them -/

theorem Node.entryCount_leaf {total count : Nat} (h : 0 < count) :
    Node.entryCount ⟨total, count, .empty⟩ = 1 := by
  simp [Node.entryCount, isEmpty, h]

theorem Node.entryCount_inner {total count : Nat} {below : Forest} (h : below ≠ .empty) :
    Node.entryCount ⟨total, count, below⟩ = below.entryCount := by
  rw [Node.entryCount, if_neg (mt isEmpty_iff.mp h)]

theorem entryCount_node (byte : UInt8) (total count : Nat) (below beside : Forest) :
    (Forest.node byte total count below beside).entryCount =
      Node.entryCount ⟨total, count, below⟩ + beside.entryCount := rfl

theorem Node.Holds.length_entries_of {n : Node} {l : List Bytes} (h : n.Holds l)
    (ih : n.below.Holds l → n.below.entries.length = n.below.entryCount) :
    n.entries.length = n.entryCount := by
  rcases h.cases with ⟨hn, hb⟩ | ⟨hn, hne, hl⟩
  · rw [hn, Node.entries_leaf hb.length_pos, Node.entryCount_leaf hb.length_pos]
    rfl
  · rw [hn, Node.entries_inner, Node.entryCount_inner hne, ih hl]

/-- The number of entries is the length of their list. -/
theorem Holds.length_entries {f : Forest} {l : List Bytes} (h : f.Holds l) :
    f.entries.length = f.entryCount := by
  induction f generalizing l with
  | empty => rfl
  | node byte total count below beside ihBelow ihBeside =>
    obtain ⟨hnode, -, hbeside⟩ := holds_node_iff.mp h
    rw [entries_node, entryCount_node, List.length_append, List.length_map, ihBeside hbeside,
      hnode.length_entries_of ihBelow]

theorem Node.Holds.length_entries {n : Node} {l : List Bytes} (h : n.Holds l) :
    n.entries.length = n.entryCount := h.length_entries_of Forest.Holds.length_entries

/-- A forest that counted an address has an entry. -/
theorem Holds.entryCount_pos {f : Forest} {l : List Bytes} (h : f.Holds l) (hne : l ≠ []) :
    0 < f.entryCount := by
  obtain ⟨a, ha⟩ := List.exists_mem_of_ne_nil _ hne
  have hcover := h.countP_covering ha
  have hle := List.countP_le_length (p := fun e : Bytes × Nat => decide (e.1 <+: a))
    (l := f.entries)
  rw [← h.length_entries]
  omega

theorem Node.Holds.entryCount_pos {n : Node} {l : List Bytes} (h : n.Holds l) :
    0 < n.entryCount := by
  rcases h.cases with ⟨hn, hb⟩ | ⟨hn, hne, hl⟩
  · rw [hn, Node.entryCount_leaf hb.length_pos]
    exact Nat.one_pos
  · rw [hn, Node.entryCount_inner hne]
    exact hl.entryCount_pos h.ne_nil

/-! ### The node at a path -/

/-- What follows a path in the addresses that start with it. -/
def restsAfter : Bytes → List Bytes → List Bytes
  | [], l => l
  | byte :: path, l => restsAfter path (restsOf byte l)

theorem mem_restsAfter {path rest : Bytes} {l : List Bytes} :
    rest ∈ restsAfter path l ↔ path ++ rest ∈ l := by
  induction path generalizing l with
  | nil => rfl
  | cons byte path ih => rw [restsAfter, ih, mem_restsOf, List.cons_append]

theorem restsOf_apartFrom {byte other : UInt8} (h : other ≠ byte) (l : List Bytes) :
    restsOf other (apartFrom byte l) = restsOf other l := by
  rw [restsOf, restsOf, apartFrom, List.filter_filter]
  congr 1
  refine List.filter_congr fun a _ => ?_
  by_cases hhead : a.head? = some other
  · simp [hhead, h]
  · simp [hhead]

@[simp] theorem find?_nil {f : Forest} : f.find? [] = none := by
  cases f <;> simp [Forest.find?]

@[simp] theorem find?_empty {path : Bytes} : Forest.empty.find? path = none := by
  cases path <;> simp [Forest.find?]

theorem find?_self {own : UInt8} {total count : Nat} {below beside : Forest} {path : Bytes} :
    (Forest.node own total count below beside).find? (own :: path) =
      Node.find? path ⟨total, count, below⟩ := by
  cases path <;> simp [Forest.find?, Node.find?]

theorem find?_other {byte own : UInt8} {total count : Nat} {below beside : Forest} {path : Bytes}
    (h : byte ≠ own) :
    (Forest.node own total count below beside).find? (byte :: path) =
      beside.find? (byte :: path) := by
  cases path <;> simp only [Forest.find?, if_neg h]

/-- **Every node** holds what follows its path in the addresses. -/
theorem Holds.find? {f : Forest} {l : List Bytes} (h : f.Holds l) {path : Bytes} {n : Node}
    (hfind : f.find? path = some n) : n.Holds (restsAfter path l) := by
  induction f generalizing l path with
  | empty => simp at hfind
  | node own total count below beside ihBelow ihBeside =>
    obtain ⟨hnode, -, hbeside⟩ := holds_node_iff.mp h
    cases path with
    | nil => simp at hfind
    | cons byte path =>
      by_cases hbyte : byte = own
      · subst hbyte
        rw [find?_self, Node.find?] at hfind
        split_ifs at hfind with hpath
        · rw [List.isEmpty_iff.mp hpath, ← Option.some.inj hfind]
          exact hnode
        · obtain ⟨-, ⟨rfl, -⟩ | ⟨-, -, hl⟩⟩ := hnode
          · simp at hfind
          · exact ihBelow hl hfind
      · rw [find?_other hbyte] at hfind
        rw [restsAfter, ← restsOf_apartFrom hbyte]
        exact ihBeside hbeside hfind

end Forest

end TrafficSheet
