import TrafficSheet.Proofs.AddressTree.Runs

/-!
# Entries of an address tree

After any run, the entries of a tree divide the addresses counted: each belongs to exactly
one entry, an entry counts all that belong to it, and its path is the longest one that they
share. So an entry shorter than its family stands for addresses that part right after its
path, and an address alone under its first byte keeps an entry of its own.
-/

namespace TrafficSheet

/-- The address belongs to the entry: it has its length and starts with its path. -/
def AddressEntry.Covers (e : AddressEntry) (a : Bytes) : Prop := a.length = e.family ∧ e.path <+: a

instance (e : AddressEntry) (a : Bytes) : Decidable (e.Covers a) :=
  inferInstanceAs (Decidable (_ ∧ _))

/-- An entry with a shorter path covers what one with a longer path does. -/
theorem AddressEntry.Covers.of_shorter {e e' : AddressEntry} {a : Bytes} (h : e.Covers a)
    (hfamily : e'.family = e.family) (hp : e'.path <+: e.path) : e'.Covers a :=
  ⟨h.1.trans hfamily.symm, hp.trans h.2⟩

theorem AddressEntry.Covers.ne_nil {e : AddressEntry} {a : Bytes} (h : e.Covers a)
    (hpath : e.path ≠ []) : a ≠ [] := by
  rintro rfl
  exact hpath (List.prefix_nil.mp h.2)

/-- The longest path that starts all of the addresses. -/
def IsLongestCommonPrefix (path : Bytes) (l : List Bytes) : Prop :=
  (∀ a ∈ l, path <+: a) ∧ ∀ other : Bytes, (∀ a ∈ l, other <+: a) → other <+: path

/-! ### Entries are nodes with a count -/

namespace Forest

theorem Node.mem_entries_iff_of {n : Node} {path : Bytes} {count : Nat}
    (ih : (path, count) ∈ n.below.entries ↔
      0 < count ∧ ∃ m, n.below.find? path = some m ∧ m.count = count) :
    (path, count) ∈ n.entries ↔ 0 < count ∧ ∃ m, n.find? path = some m ∧ m.count = count := by
  rw [Node.entries, List.mem_append, ih]
  by_cases hpath : path = []
  · subst hpath
    simp only [find?_nil, reduceCtorEq, false_and, exists_false, and_false, or_false, Node.find?,
      List.isEmpty_nil, if_true, Option.some.injEq, exists_eq_left']
    split_ifs with hpos
    · rw [List.mem_singleton, Prod.mk.injEq]
      exact ⟨fun h => ⟨h.2 ▸ hpos, h.2.symm⟩, fun h => ⟨rfl, h.2.symm⟩⟩
    · exact ⟨fun h => absurd h List.not_mem_nil, fun h => absurd (h.2 ▸ h.1) hpos⟩
  · rw [Node.find?_of_ne_nil hpath]
    refine or_iff_right fun hmem => ?_
    split_ifs at hmem
    · exact hpath (congrArg Prod.fst (List.mem_singleton.mp hmem))
    · exact absurd hmem List.not_mem_nil

/-- The entries of a forest are its nodes with a count. -/
theorem Holds.mem_entries_iff {f : Forest} {l : List Bytes} (h : f.Holds l) {path : Bytes}
    {count : Nat} :
    (path, count) ∈ f.entries ↔ 0 < count ∧ ∃ n, f.find? path = some n ∧ n.count = count := by
  induction f generalizing l path with
  | empty => simp [entries]
  | node own total own_count below beside ihBelow ihBeside =>
    obtain ⟨hnode, -, hbeside⟩ := holds_node_iff.mp h
    cases path with
    | nil => simpa using fun hmem => path_ne_nil hmem rfl
    | cons byte path =>
      rw [entries_node, List.mem_append, List.mem_map]
      by_cases hbyte : byte = own
      · subst hbyte
        have hnot : (byte :: path, count) ∉ beside.entries := fun hmem => hbeside.head?_ne hmem rfl
        rw [or_iff_left hnot, find?_self, ← Node.mem_entries_iff_of]
        · constructor
          · rintro ⟨e, he, heq⟩
            obtain ⟨hpath, rfl⟩ := Prod.mk.inj heq
            rwa [← (List.cons.inj hpath).2]
          · exact fun hmem => ⟨_, hmem, rfl⟩
        · obtain ⟨-, ⟨rfl, -⟩ | ⟨-, -, hl⟩⟩ := hnode
          · simp [entries]
          · exact ihBelow hl
      · rw [find?_other hbyte, ← ihBeside hbeside]
        refine or_iff_right ?_
        rintro ⟨e, -, heq⟩
        exact hbyte (List.cons.inj (Prod.mk.inj heq).1).1.symm

end Forest

namespace AddressTree

variable {t : AddressTree} {addresses : List Bytes} {a : Bytes} {e e' : AddressEntry}

theorem Holds.mem_entries (h : t.Holds addresses) :
    e ∈ t.entries ↔ ∃ family ∈ t.families, family.length = e.family ∧
      (e.path, e.count) ∈ family.root.below.entries := by
  simp only [entries, List.mem_flatMap, List.mem_map]
  constructor
  · rintro ⟨family, hfamily, entry, hentry, rfl⟩
    rw [(h.root family hfamily).entries] at hentry
    exact ⟨family, hfamily, rfl, hentry⟩
  · rintro ⟨family, hfamily, hlength, hentry⟩
    rw [← (h.root family hfamily).entries] at hentry
    exact ⟨family, hfamily, _, hentry, by rw [hlength]⟩

/-- **The entries of a tree** are its nodes with a count, each with its family and path. -/
theorem Holds.mem_entries_iff (h : t.Holds addresses) :
    e ∈ t.entries ↔
      0 < e.count ∧ ∃ n, (AddressFamily.rootOf e.family t.families).find? e.path = some n ∧
        n.count = e.count := by
  rw [h.mem_entries]
  by_cases hfamily : ∃ family ∈ t.families, family.length = e.family
  · obtain ⟨family, hmem, hlength⟩ := hfamily
    have hroot := h.root family hmem
    rw [← hlength, h.ascending.rootOf_eq hmem,
      ← Forest.Node.mem_entries_iff_of hroot.below.mem_entries_iff, hroot.entries]
    constructor
    · rintro ⟨other, hother, heq, hentry⟩
      rwa [← h.ascending.rootOf_eq hmem, ← heq, h.ascending.rootOf_eq hother]
    · exact fun hentry => ⟨family, hmem, rfl, hentry⟩
  · have hfresh : AddressFamily.rootOf e.family t.families = .fresh :=
      AddressFamily.rootOf_eq_fresh fun family hmem heq => hfamily ⟨family, hmem, heq⟩
    rw [hfresh]
    constructor
    · rintro ⟨family, hmem, hlength, -⟩
      exact absurd ⟨family, hmem, hlength⟩ hfamily
    · rintro ⟨hpos, n, hfind, hcount⟩
      by_cases hpath : e.path = []
      · rw [hpath] at hfind
        obtain rfl : Forest.Node.fresh = n := Option.some.inj hfind
        exact absurd hpos (by rw [← hcount]; exact Nat.lt_irrefl 0)
      · rw [Forest.Node.find?_of_ne_nil hpath] at hfind
        exact absurd hfind (by simp [Forest.Node.fresh])

/-! ### What entries stand for -/

theorem countP_ofLength (length : Nat) (path : Bytes) (addresses : List Bytes) :
    (ofLength length addresses).countP (path <+: ·) =
      addresses.countP fun a => a.length = length ∧ path <+: a := by
  rw [ofLength, List.countP_filter]
  refine List.countP_congr fun a _ => ?_
  simp only [Bool.and_eq_true, decide_eq_true_eq, beq_iff_eq, and_comm]

/-- Every entry counts the addresses that belong to it. -/
theorem Holds.standsFor (h : t.Holds addresses) (he : e ∈ t.entries) :
    e.path ≠ [] ∧ Forest.StandsFor (ofLength e.family addresses) e.path e.count := by
  obtain ⟨family, hfamily, hlength, hentry⟩ := h.mem_entries.mp he
  have hstands := (h.root family hfamily).below.standsFor hentry
  rw [hlength] at hstands
  exact ⟨Forest.path_ne_nil hentry, hstands⟩

theorem Holds.count_eq (h : t.Holds addresses) (he : e ∈ t.entries) :
    e.count = addresses.countP (e.Covers ·) := by
  rw [(h.standsFor he).2.count_eq, countP_ofLength]
  rfl

/-- Every byte is missing after the path in some address of the entry. -/
theorem Holds.tight (h : t.Holds addresses) (he : e ∈ t.entries) (byte : UInt8) :
    ∃ a ∈ addresses, e.Covers a ∧ ¬ e.path ++ [byte] <+: a := by
  obtain ⟨a, ha, hp, hnot⟩ := (h.standsFor he).2.tight byte
  obtain ⟨hmem, hlength⟩ := mem_ofLength.mp ha
  exact ⟨a, hmem, ⟨hlength, hp⟩, hnot⟩

/-- An address belongs to no entry of another length. -/
theorem countP_covers_family (length : Nat) (es : List (Bytes × Nat)) (a : Bytes) :
    (es.map fun entry => (⟨length, entry.1, entry.2⟩ : AddressEntry)).countP (·.Covers a) =
      if a.length = length then es.countP (·.1 <+: a) else 0 := by
  rw [List.countP_map]
  split_ifs with hlength
  · refine List.countP_congr fun e _ => ?_
    simp only [Function.comp_apply, AddressEntry.Covers, hlength, true_and]
  · refine List.countP_eq_zero.mpr fun e _ => ?_
    simp only [Function.comp_apply, AddressEntry.Covers, hlength, false_and, decide_false,
      Bool.false_eq_true, not_false_eq_true]

/-- **Every address belongs to exactly one entry.** -/
theorem Holds.countP_covers (h : t.Holds addresses) (ha : a ∈ addresses) (hne : a ≠ []) :
    t.entries.countP (·.Covers a) = 1 := by
  obtain ⟨family, hfamily, hlength⟩ := h.present a ha hne
  rw [entries, List.countP_flatMap, List.sum_map_eq_nsmul_single family,
    List.count_eq_one_of_mem h.ascending.nodup hfamily, one_smul]
  · have hroot := h.root family hfamily
    show List.countP _ (List.map _ _) = 1
    rw [countP_covers_family, if_pos hlength.symm, hroot.entries]
    exact hroot.below.countP_covering (mem_ofLength.mpr ⟨ha, hlength.symm⟩)
  · intro other hother hmem
    show List.countP _ (List.map _ _) = 0
    rw [countP_covers_family, if_neg]
    intro heq
    have hsame := h.ascending.eq_of_length hfamily hmem (heq.symm.trans hlength.symm)
    exact hother hsame

theorem Holds.exists_covers (h : t.Holds addresses) (ha : a ∈ addresses) (hne : a ≠ []) :
    ∃ e ∈ t.entries, e.Covers a := by
  have hpos : 0 < t.entries.countP (·.Covers a) := by
    rw [h.countP_covers ha hne]
    exact Nat.one_pos
  simpa using List.countP_pos_iff.mp hpos

/-- Entries that share an address are one. -/
theorem Holds.eq_of_covers (h : t.Holds addresses) (ha : a ∈ addresses) (hne : a ≠ [])
    (he : e ∈ t.entries) (he' : e' ∈ t.entries) (hcovers : e.Covers a)
    (hcovers' : e'.Covers a) : e = e' := by
  have hone := h.countP_covers ha hne
  rw [List.countP_eq_length_filter] at hone
  obtain ⟨only, honly⟩ := List.length_eq_one_iff.mp hone
  have hmem : ∀ x ∈ t.entries, x.Covers a → x = only := fun x hx hc => by
    have hfilter : x ∈ t.entries.filter (·.Covers a) := List.mem_filter.mpr ⟨hx, decide_eq_true hc⟩
    rwa [honly, List.mem_singleton] at hfilter
  rw [hmem e he hcovers, hmem e' he' hcovers']

/-- Of two entries of a family, neither has a path that the other one's starts with. -/
theorem Holds.eq_of_starts (h : t.Holds addresses) (he : e ∈ t.entries) (he' : e' ∈ t.entries)
    (hfamily : e'.family = e.family) (hp : e'.path <+: e.path) : e' = e := by
  obtain ⟨a, ha, hcovers, -⟩ := h.tight he 0
  exact h.eq_of_covers ha (hcovers.ne_nil (h.standsFor he).1) he' he
    (hcovers.of_shorter hfamily hp) hcovers

theorem sum_ite_eq_countP {α : Type} (p : α → Bool) (xs : List α) :
    (xs.map fun x => if p x then 1 else 0).sum = xs.countP p := by
  induction xs with
  | nil => rfl
  | cons x xs ih => rw [List.map_cons, List.sum_cons, ih, List.countP_cons, Nat.add_comm]

/-- Counting pairs by the first or by the second comes to the same. -/
theorem sum_countP_comm {α β : Type} (r : α → β → Bool) (xs : List α) (ys : List β) :
    (xs.map fun x => ys.countP (r x)).sum = (ys.map fun y => xs.countP (r · y)).sum := by
  induction ys with
  | nil => simp
  | cons y ys ih =>
    simp only [List.countP_cons, List.sum_map_add, ih, List.map_cons, List.sum_cons]
    rw [sum_ite_eq_countP (r · y) xs, Nat.add_comm]

theorem Holds.countP_covers_nil (h : t.Holds addresses) : t.entries.countP (·.Covers []) = 0 := by
  refine List.countP_eq_zero.mpr fun e he => ?_
  simp only [AddressEntry.Covers, decide_eq_true_eq, List.prefix_nil, not_and]
  exact fun _ => (h.standsFor he).1

/-- The counts of the entries add up to the number of addresses with a byte. -/
theorem Holds.sum_counts (h : t.Holds addresses) :
    (t.entries.map (·.count)).sum = addresses.countP (· ≠ []) := by
  have hcount : t.entries.map (·.count) = t.entries.map fun e => addresses.countP (e.Covers ·) :=
    List.map_congr_left fun e he => h.count_eq he
  rw [hcount, sum_countP_comm (fun e a => decide (AddressEntry.Covers e a)), ← sum_ite_eq_countP]
  refine congrArg List.sum (List.map_congr_left fun a ha => ?_)
  by_cases hne : a = []
  · simpa [hne] using h.countP_covers_nil
  · simpa [hne] using h.countP_covers ha hne

/-- The number of entries is the length of their list. -/
theorem Holds.leafCount_eq (h : t.Holds addresses) : t.leafCount = t.entries.length := by
  rw [h.leafCount, entries, List.length_flatMap, AddressFamily.entryCount]
  refine congrArg List.sum (List.map_congr_left fun family hmem => ?_)
  have hroot := h.root family hmem
  rw [List.length_map, hroot.entries, hroot.entryCount, hroot.below.length_entries]

/-- **The path of an entry** is the longest one that its addresses share. -/
theorem Holds.isLongestCommonPrefix (h : t.Holds addresses) (he : e ∈ t.entries) :
    IsLongestCommonPrefix e.path (addresses.filter (e.Covers ·)) := by
  refine ⟨fun a ha => ?_, fun other hother => ?_⟩
  · exact (of_decide_eq_true (List.mem_filter.mp ha).2).2
  · obtain ⟨a, ha, hcovers, -⟩ := h.tight he 0
    have hstarts := hother a (List.mem_filter.mpr ⟨ha, decide_eq_true hcovers⟩)
    rcases List.prefix_or_prefix_of_prefix hstarts hcovers.2 with hle | ⟨more, rfl⟩
    · exact hle
    · cases more with
      | nil => simp
      | cons byte more =>
        obtain ⟨b, hb, hcovers', hnot⟩ := h.tight he byte
        have hlong := hother b (List.mem_filter.mpr ⟨hb, decide_eq_true hcovers'⟩)
        refine absurd (List.IsPrefix.trans ?_ hlong) hnot
        exact ⟨more, by simp⟩

/-- A path shorter than an address leads on to a byte of it. -/
theorem exists_append_of_length_lt {path a : Bytes} (h : path <+: a)
    (hlt : path.length < a.length) :
    ∃ byte, path ++ [byte] <+: a := by
  obtain ⟨rest, rfl⟩ := h
  cases rest with
  | nil => simp at hlt
  | cons byte rest => exact ⟨byte, rest, by simp⟩

/-- An entry shorter than its family stands for addresses that part right after its path. -/
theorem Holds.parts (h : t.Holds addresses) (he : e ∈ t.entries) (hlt : e.path.length < e.family) :
    ∃ a ∈ addresses, ∃ b ∈ addresses, e.Covers a ∧ e.Covers b ∧
      ∃ x y, x ≠ y ∧ e.path ++ [x] <+: a ∧ e.path ++ [y] <+: b := by
  obtain ⟨a, ha, hca, -⟩ := h.tight he 0
  obtain ⟨x, hx⟩ := exists_append_of_length_lt hca.2 (hca.1 ▸ hlt)
  obtain ⟨b, hb, hcb, hnot⟩ := h.tight he x
  obtain ⟨y, hy⟩ := exists_append_of_length_lt hcb.2 (hcb.1 ▸ hlt)
  exact ⟨a, ha, b, hb, hca, hcb, x, y, fun hxy => hnot (hxy ▸ hy), hx, hy⟩

/-- **An address alone under its first byte** has an entry of its own. -/
theorem Holds.mem_of_alone (h : t.Holds addresses) (ha : a ∈ addresses) (hne : a ≠ [])
    (halone : ∀ b ∈ addresses, b.length = a.length → b.head? = a.head? → b = a) :
    ⟨a.length, a, addresses.count a⟩ ∈ t.entries := by
  obtain ⟨e, he, hcovers⟩ := h.exists_covers ha hne
  have hpath := (h.standsFor he).1
  have hsame : ∀ b ∈ addresses, e.Covers b → b = a := by
    intro b hb hcb
    obtain ⟨byte, path, hcons⟩ := List.exists_cons_of_ne_nil hpath
    obtain ⟨rest, rfl⟩ := hcb.2
    obtain ⟨rest', hrest'⟩ := hcovers.2
    refine halone _ hb (hcb.1.trans hcovers.1.symm) ?_
    rw [← hrest', hcons]
    rfl
  have hfull : e.path = a := by
    refine hcovers.2.eq_of_length (Nat.le_antisymm hcovers.2.length_le
      (Nat.not_lt.mp fun hlt => ?_))
    obtain ⟨b, hb, c, hc, hcb, hcc, x, y, hxy, hx, hy⟩ := h.parts he (hcovers.1 ▸ hlt)
    rw [hsame b hb hcb] at hx
    rw [hsame c hc hcc] at hy
    have heq := List.prefix_of_prefix_length_le hx hy (by simp)
    simp only [List.prefix_append_right_inj, List.cons_prefix_cons, List.nil_prefix,
      and_true] at heq
    exact hxy heq
  have hcount : e.count = addresses.count a := by
    rw [h.count_eq he, List.count_eq_countP]
    refine List.countP_congr fun b hb => ?_
    rw [decide_eq_true_eq, beq_iff_eq]
    refine ⟨hsame b hb, ?_⟩
    rintro rfl
    exact hcovers
  rw [← hcount, hcovers.1]
  subst hfull
  exact he

/-! ### After any run -/

/-- **Counting is exact, whatever was folded on the way.** The entries are the nodes with a count;
each address with a byte belongs to exactly one of them; an entry counts the addresses that belong
to it, over the whole run; and the total is the number of addresses with a byte and the sum of the
counts. -/
theorem entries_count_addresses (m : Nat) (addresses : List Bytes) :
    let t := (empty m).addAll addresses
    (∀ e : AddressEntry, e ∈ t.entries ↔
      0 < e.count ∧ ∃ n, (AddressFamily.rootOf e.family t.families).find? e.path = some n ∧
        n.count = e.count) ∧
    (∀ a ∈ addresses, a ≠ [] → t.entries.countP (·.Covers a) = 1) ∧
    (∀ e ∈ t.entries, e.count = addresses.countP (e.Covers ·) ∧ 1 ≤ e.count) ∧
    t.total = addresses.countP (· ≠ []) ∧ t.total = (t.entries.map (·.count)).sum := by
  intro t
  have h : t.Holds addresses := holds_addAll m addresses
  refine ⟨fun e => h.mem_entries_iff, fun a ha hne => h.countP_covers ha hne, fun e he => ?_,
    h.total, ?_⟩
  · exact ⟨h.count_eq he, (h.standsFor he).2.pos⟩
  · rw [h.total, h.sum_counts]

/-- Under a bound of two, the third address under 10 is counted in the entry that the first two were
folded into. -/
theorem entries_count_addresses_folded :
    let addresses : List Bytes := [[10, 0, 1], [10, 0, 2], [20, 0, 1], [], [10, 0, 3]]
    let t := (empty 2).addAll addresses
    t.entries = [⟨3, [10, 0], 3⟩, ⟨3, [20, 0, 1], 1⟩] ∧ t.entries.countP (·.Covers [10, 0, 3]) = 1 ∧
      3 = addresses.countP (AddressEntry.Covers ⟨3, [10, 0], 3⟩ ·) := by
  intro addresses t
  obtain ⟨-, hcover, hcount, -⟩ := entries_count_addresses 2 addresses
  exact ⟨by decide, hcover [10, 0, 3] (by decide) (by decide),
    (hcount ⟨3, [10, 0], 3⟩ (by decide)).1⟩

/-- **Folded prefixes are tight.** The path of an entry is the longest common prefix of the
addresses that belong to it, and not empty; a path shorter than its family has two addresses that
part right after it; and an address that is alone under its first byte keeps its own entry for as
long as it stays alone. -/
theorem entries_tight (m : Nat) (addresses : List Bytes) :
    let t := (empty m).addAll addresses
    (∀ e ∈ t.entries, e.path ≠ [] ∧ IsLongestCommonPrefix e.path (addresses.filter (e.Covers ·))) ∧
    (∀ e ∈ t.entries, e.path.length < e.family →
      ∃ a ∈ addresses, ∃ b ∈ addresses, e.Covers a ∧ e.Covers b ∧
        ∃ x y, x ≠ y ∧ e.path ++ [x] <+: a ∧ e.path ++ [y] <+: b) ∧
    (∀ a ∈ addresses, a ≠ [] → ∀ more : List Bytes,
      (∀ b ∈ addresses ++ more, b.length = a.length → b.head? = a.head? → b = a) →
        ⟨a.length, a, (addresses ++ more).count a⟩ ∈ (t.addAll more).entries) := by
  intro t
  have h : t.Holds addresses := holds_addAll m addresses
  refine ⟨fun e he => ⟨(h.standsFor he).1, h.isLongestCommonPrefix he⟩,
    fun e he hlt => h.parts he hlt, ?_⟩
  intro a ha hne more halone
  exact (h.addAll more).mem_of_alone (List.mem_append_left _ ha) hne halone

/-- Over a bound of one, two addresses under 10 are folded, and the one under 20 stays. -/
theorem entries_tight_folded :
    let addresses : List Bytes := [[20, 0, 1], [10, 0, 1], [10, 0, 2]]
    let t := (empty 1).addAll addresses
    (∃ a ∈ addresses, ∃ b ∈ addresses, AddressEntry.Covers ⟨3, [10, 0], 2⟩ a ∧
      AddressEntry.Covers ⟨3, [10, 0], 2⟩ b ∧
      ∃ x y, x ≠ y ∧ [10, 0] ++ [x] <+: a ∧ [10, 0] ++ [y] <+: b) ∧
      ⟨3, [20, 0, 1], 2⟩ ∈ (t.addAll [[10, 0, 3], [20, 0, 1]]).entries := by
  intro addresses t
  obtain ⟨-, hparts, halone⟩ := entries_tight 1 addresses
  exact ⟨hparts ⟨3, [10, 0], 2⟩ (by decide) (by decide),
    halone [20, 0, 1] (by decide) (by decide) _ (by decide)⟩

end AddressTree

end TrafficSheet
