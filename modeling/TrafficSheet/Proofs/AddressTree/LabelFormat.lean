import Mathlib
import TrafficSheet.AddressTree.Basic

/-!
# The format of address labels

Labels take the place of addresses in a ranking, so two addresses must not share one. The
format is written down here as a relation: `ShortForm` is how groups are shortened
(RFC 5952), `AddressText` the text of a full address, and `PathText` that of a path. What the
program writes is in the format (`pathText_ofPath`), and the format is unambiguous
(`PathText.unique`): a text is split at its marks, and the groups that two colons stand for
are those that are missing (`expanded`).
-/

namespace TrafficSheet.AddressLabel

/-! ### Numbers and what joins them -/

/-- A mark that is no digit of any base. -/
def IsMark (c : Char) : Prop := ∀ d : Nat, d.digitChar ≠ c

theorem isMark_colon : IsMark ':' := fun _ => Nat.digitChar_ne _ rfl

theorem isMark_dot : IsMark '.' := fun _ => Nat.digitChar_ne _ rfl

theorem isMark_slash : IsMark '/' := fun _ => Nat.digitChar_ne _ rfl

theorem digitChar_inj : ∀ m < 16, ∀ n < 16, m.digitChar = n.digitChar → m = n := by decide

theorem exists_of_mem_toDigits {base n : Nat} {c : Char} (hbase : 1 < base)
    (h : c ∈ Nat.toDigits base n) : ∃ d : Nat, d.digitChar = c := by
  induction n using Nat.strong_induction_on with
  | _ n ih =>
    rw [Nat.toDigits_eq_if hbase] at h
    split_ifs at h with hn
    · exact ⟨n, (List.mem_singleton.mp h).symm⟩
    · rcases List.mem_append.mp h with h | h
      · exact ih (n / base) (Nat.div_lt_self (by omega) hbase) h
      · exact ⟨n % base, (List.mem_singleton.mp h).symm⟩

theorem IsMark.not_mem_toDigits {c : Char} (hc : IsMark c) {base : Nat} (hbase : 1 < base)
    (n : Nat) : c ∉ Nat.toDigits base n := by
  intro h
  obtain ⟨d, hd⟩ := exists_of_mem_toDigits hbase h
  exact hc d hd

theorem IsMark.not_mem_map_toDigits {c : Char} (hc : IsMark c) {base : Nat} (hbase : 1 < base)
    (numbers : List Nat) : ∀ piece ∈ numbers.map (Nat.toDigits base), c ∉ piece := by
  intro piece hpiece
  obtain ⟨n, -, rfl⟩ := List.mem_map.mp hpiece
  exact hc.not_mem_toDigits hbase n

/-- A number is known from its digits. -/
theorem toDigits_injective {base : Nat} (hbase : 1 < base) (hle : base ≤ 16) :
    Function.Injective (Nat.toDigits base) := by
  intro m
  induction m using Nat.strong_induction_on with
  | _ m ih =>
    intro n h
    rw [Nat.toDigits_eq_if hbase, Nat.toDigits_eq_if hbase (n := n)] at h
    split_ifs at h with hm hn hn
    · exact digitChar_inj m (by omega) n (by omega) (List.singleton_inj.mp h)
    · simp [List.singleton_eq_append_iff, Nat.toDigits_ne_nil] at h
    · simp [List.append_eq_singleton_iff, Nat.toDigits_ne_nil] at h
    · obtain ⟨hdiv, hmod⟩ := List.append_inj' h rfl
      have hquot := ih (m / base) (Nat.div_lt_self (by omega) hbase) hdiv
      have hlt : ∀ k, k % base < 16 := fun k => (Nat.mod_lt k (by omega)).trans_le hle
      have hrem := digitChar_inj _ (hlt m) _ (hlt n) (List.singleton_inj.mp hmod)
      rw [← Nat.div_add_mod m base, ← Nat.div_add_mod n base, hquot, hrem]

/-- The digits of numbers with a mark between each two of them. -/
def joined (mark : Char) (base : Nat) (numbers : List Nat) : List Char :=
  [mark].intercalate (numbers.map (Nat.toDigits base))

theorem toList_colons (l : List Nat) : (colons l).toList = joined ':' 16 l := by
  simp [colons, joined, List.map_map, Function.comp_def]

theorem toList_dotted (bytes : Bytes) :
    (dotted bytes).toList = joined '.' 10 (bytes.map (·.toNat)) := by
  simp [dotted, joined, List.map_map, Function.comp_def]

variable {mark : Char} {base : Nat}

/-- Split at the marks, the numbers come back; an empty text counts as one piece. -/
theorem splitOn_joined (hmark : IsMark mark) (hbase : 1 < base) (numbers : List Nat) :
    (joined mark base numbers).splitOn mark =
      if numbers = [] then [[]] else numbers.map (Nat.toDigits base) := by
  split_ifs with hnil
  · rw [hnil]
    rfl
  · exact List.splitOn_intercalate mark (hmark.not_mem_map_toDigits hbase numbers)
      (by simpa using hnil)

theorem joined_injective (hmark : IsMark mark) (hbase : 1 < base) (hle : base ≤ 16)
    {l l' : List Nat} (hl : l ≠ []) (hl' : l' ≠ [])
    (h : joined mark base l = joined mark base l') : l = l' := by
  have hsplit := congrArg (List.splitOn mark) h
  rw [splitOn_joined hmark hbase, splitOn_joined hmark hbase, if_neg hl, if_neg hl'] at hsplit
  exact List.map_injective_iff.mpr (toDigits_injective hbase hle) hsplit

/-- What is in none of the pieces is in the whole if it is in what joins two of them. -/
theorem mem_intercalate {c : Char} {between : List Char} {pieces : List (List Char)}
    (hpieces : ∀ piece ∈ pieces, c ∉ piece) :
    c ∈ between.intercalate pieces ↔ c ∈ between ∧ 2 ≤ pieces.length := by
  induction pieces with
  | nil => simp
  | cons first pieces ih =>
    obtain ⟨hfirst, hothers⟩ := List.forall_mem_cons.mp hpieces
    cases pieces with
    | nil => simp [hfirst]
    | cons next pieces =>
      rw [List.intercalate_cons_cons, List.mem_append, List.mem_append, ih hothers]
      constructor
      · rintro ((hmem | hmem) | ⟨hmem, -⟩)
        · exact absurd hmem hfirst
        · exact ⟨hmem, by simp⟩
        · exact ⟨hmem, by simp⟩
      · exact fun h => Or.inl (Or.inr h.1)

theorem mem_joined {c : Char} (hc : IsMark c) (hbase : 1 < base) {numbers : List Nat} :
    c ∈ joined mark base numbers ↔ c = mark ∧ 2 ≤ numbers.length := by
  rw [joined, mem_intercalate (hc.not_mem_map_toDigits hbase numbers), List.mem_singleton,
    List.length_map]

theorem dotted_injective {bytes bytes' : Bytes} (h : bytes ≠ []) (h' : bytes' ≠ [])
    (heq : dotted bytes = dotted bytes') : bytes = bytes' := by
  have hlist := congrArg String.toList heq
  rw [toList_dotted, toList_dotted] at hlist
  have hnumbers := joined_injective isMark_dot (by decide) (by decide) (by simpa using h)
    (by simpa using h') hlist
  exact List.map_injective_iff.mpr (fun a b hab => UInt8.toNat_inj.mp hab) hnumbers

/-! ### Groups of zeros -/

/-- Two zeros or more are shortened to two colons: the longest run of them, and of equally long
ones the first. -/
inductive ShortForm (l : List Nat) : String → Prop
  /-- No two zeros are neighbours. -/
  | whole : ¬[0, 0] <:+: l → ShortForm l (colons l)
  /-- No run is longer than the one left out, and no run before it is as long. -/
  | shortened {before after : List Nat} {n : Nat} :
    l = before ++ List.replicate n 0 ++ after → 2 ≤ n →
    (∀ before' k after', l = before' ++ List.replicate k 0 ++ after' →
      k ≤ n ∧ (k = n → before.length ≤ before'.length)) →
    ShortForm l (colons before ++ "::" ++ colons after)

theorem take_zeroRun (l : List Nat) : l.take (zeroRun l) = List.replicate (zeroRun l) 0 := by
  have hstart : l.take (zeroRun l) = l.takeWhile (· == 0) :=
    List.prefix_iff_eq_take.mp (List.takeWhile_prefix _) |>.symm
  rw [hstart, List.eq_replicate_iff]
  refine ⟨rfl, fun g hg => ?_⟩
  simpa using List.mem_takeWhile_imp hg

theorem le_zeroRun {l after : List Nat} {k : Nat} (h : l = List.replicate k 0 ++ after) :
    k ≤ zeroRun l := by
  have hzero : ∀ g ∈ List.replicate k 0, (g == 0) = true := by simp
  rw [h, zeroRun, List.takeWhile_append_of_pos hzero, List.length_append, List.length_replicate]
  exact Nat.le_add_right ..

/-- **The longest run of zeros**: it is one, and no other is longer, or as long and before it. -/
theorem longestZeroRun_spec (l : List Nat) :
    l = l.take (longestZeroRun l).1 ++ List.replicate (longestZeroRun l).2 0 ++
      l.drop ((longestZeroRun l).1 + (longestZeroRun l).2) ∧
    ∀ before k after, l = before ++ List.replicate k 0 ++ after →
      k ≤ (longestZeroRun l).2 ∧
        (k = (longestZeroRun l).2 → (longestZeroRun l).1 ≤ before.length) := by
  induction l with
  | nil =>
    refine ⟨rfl, fun before k after h => ?_⟩
    obtain ⟨hrun, -⟩ := List.append_eq_nil_iff.mp h.symm
    obtain ⟨-, hzeros⟩ := List.append_eq_nil_iff.mp hrun
    obtain rfl : k = 0 := by simpa using hzeros
    exact ⟨Nat.le_refl _, fun _ => Nat.zero_le _⟩
  | cons group rest ih =>
    obtain ⟨hruns, hlongest⟩ := ih
    rw [longestZeroRun]
    split_ifs with hle
    · refine ⟨?_, fun before k after h => ?_⟩
      · rw [List.take_zero, List.nil_append, Nat.zero_add, ← take_zeroRun, List.take_append_drop]
      · refine ⟨?_, fun _ => Nat.zero_le _⟩
        cases before with
        | nil => exact le_zeroRun h
        | cons first before => exact (hlongest before k after (List.cons.inj h).2).1.trans hle
    · refine ⟨?_, fun before k after h => ?_⟩
      · rw [Nat.succ_add, List.take_succ_cons, List.drop_succ_cons, List.cons_append,
          List.cons_append, ← hruns]
      · cases before with
        | nil =>
          -- A run at the start is shorter than the later one.
          have hstart := le_zeroRun h
          dsimp only
          omega
        | cons first before =>
          obtain ⟨hk, hfirst⟩ := hlongest before k after (List.cons.inj h).2
          exact ⟨hk, fun heq => Nat.succ_le_succ (hfirst heq)⟩

theorem shortForm_shortened (l : List Nat) : ShortForm l (shortened l) := by
  obtain ⟨hruns, hlongest⟩ := longestZeroRun_spec l
  rw [AddressLabel.shortened]
  split_ifs with htwo
  · exact .shortened hruns htwo fun before k after h => by
      obtain ⟨hk, hfirst⟩ := hlongest before k after h
      refine ⟨hk, fun heq => ?_⟩
      rw [List.length_take]
      exact (Nat.min_le_left ..).trans (hfirst heq)
  · refine .whole fun hinfix => htwo ?_
    obtain ⟨before, after, h⟩ := hinfix
    exact (hlongest before 2 after h.symm).1

/-! ### Reading a shortened text -/

/-- The digits of all groups, read from the pieces between the colons of a text: an empty piece
stands for as many zeros as are missing. -/
def expanded (size : Nat) (pieces : List (List Char)) : List (List Char) :=
  let before := pieces.takeWhile (! ·.isEmpty)
  let after := (pieces.reverse.takeWhile (! ·.isEmpty)).reverse
  if before.length = size then before
  else before ++ List.replicate (size - (before.length + after.length)) ['0'] ++ after

/-- Pieces with digits are read up to the first one without. -/
theorem takeWhile_pieces {pieces : List (List Char)} (h : ∀ piece ∈ pieces, piece ≠ [])
    (rest : List (List Char)) :
    ((if pieces = [] then [[]] else pieces) ++ [] :: rest).takeWhile (! ·.isEmpty) = pieces := by
  split_ifs with hnil
  · rw [hnil]
    rfl
  · rw [List.takeWhile_append_of_pos fun piece hpiece => by simpa using h piece hpiece]
    simp

/-- The digits of groups. -/
abbrev hex (l : List Nat) : List (List Char) := l.map (Nat.toDigits 16)

theorem ne_nil_of_mem_hex {l : List Nat} : ∀ piece ∈ hex l, piece ≠ [] := by
  intro piece hpiece
  obtain ⟨n, -, rfl⟩ := List.mem_map.mp hpiece
  exact Nat.toDigits_ne_nil

theorem splitOn_colons (l : List Nat) :
    (colons l).toList.splitOn ':' = if hex l = [] then [[]] else hex l := by
  rw [toList_colons, splitOn_joined isMark_colon (by decide)]
  simp

theorem splitOn_shortened (before after : List Nat) :
    (colons before ++ "::" ++ colons after).toList.splitOn ':' =
      (if hex before = [] then [[]] else hex before) ++
        [] :: (if hex after = [] then [[]] else hex after) := by
  rw [← splitOn_colons, ← splitOn_colons]
  have hlist : (colons before ++ "::" ++ colons after).toList =
      (colons before).toList ++ ':' :: ([] ++ ':' :: (colons after).toList) := by
    simp
  rw [hlist, List.splitOn_append_cons_self, List.splitOn_append_cons_self, List.splitOn_nil]
  rfl

/-- **Reading a shortened text** gives the groups that it was written of. -/
theorem ShortForm.expanded {l : List Nat} {text : String} (h : ShortForm l text) (hl : l ≠ []) :
    expanded l.length (text.toList.splitOn ':') = hex l := by
  cases h with
  | whole =>
    have hpieces : hex l ≠ [] := by simpa using hl
    have hall : (hex l).takeWhile (! ·.isEmpty) = hex l :=
      List.takeWhile_eq_self_iff.mpr fun piece hpiece => by
        simpa using ne_nil_of_mem_hex piece hpiece
    rw [splitOn_colons, if_neg hpieces, AddressLabel.expanded, hall, if_pos (List.length_map _)]
  | @shortened before after n hruns htwo _ =>
    have hback : (((if hex before = [] then [[]] else hex before) ++
        [] :: (if hex after = [] then [[]] else hex after)).reverse.takeWhile (! ·.isEmpty)).reverse =
        hex after := by
      have hreverse : (if hex after = [] then [[]] else hex after).reverse =
          if (hex after).reverse = [] then [[]] else (hex after).reverse := by
        split_ifs <;> simp_all
      rw [List.reverse_append, List.reverse_cons, List.append_assoc, hreverse,
        List.singleton_append, takeWhile_pieces, List.reverse_reverse]
      exact fun piece hpiece => ne_nil_of_mem_hex piece (List.mem_reverse.mp hpiece)
    have hlength : l.length = before.length + n + after.length := by
      rw [hruns, List.length_append, List.length_append, List.length_replicate]
    have hmissing : l.length - (before.length + after.length) = n := by omega
    rw [splitOn_shortened, AddressLabel.expanded, hback, takeWhile_pieces ne_nil_of_mem_hex]
    simp only [List.length_map]
    rw [if_neg (by omega), hmissing, hruns]
    simp [hex]

theorem ShortForm.unique {l l' : List Nat} {text : String} (h : ShortForm l text)
    (h' : ShortForm l' text) (hlength : l.length = l'.length) (hl : l ≠ []) : l = l' := by
  have hl' : l' ≠ [] := by
    rw [← List.length_pos_iff] at hl ⊢
    omega
  have hhex : hex l = hex l' := by rw [← h.expanded hl, ← h'.expanded hl', hlength]
  exact List.map_injective_iff.mpr (toDigits_injective (by decide) (by decide)) hhex

theorem ShortForm.colon_mem {l : List Nat} {text : String} (h : ShortForm l text)
    (hl : 2 ≤ l.length) : ':' ∈ text.toList := by
  cases h with
  | whole =>
    rw [toList_colons, mem_joined isMark_colon (by decide)]
    exact ⟨rfl, hl⟩
  | shortened => simp

theorem ShortForm.not_mem {l : List Nat} {text : String} (h : ShortForm l text) {c : Char}
    (hc : IsMark c) (hcolon : c ≠ ':') : c ∉ text.toList := by
  have hcolons : ∀ l, c ∉ (colons l).toList := by
    intro l
    rw [toList_colons, mem_joined hc (by decide)]
    exact fun hmem => hcolon hmem.1
  cases h with
  | whole => exact hcolons l
  | shortened => simp [hcolons, hcolon]

/-! ### Groups of two bytes -/

theorem length_groups (bytes : Bytes) : (groups bytes).length = bytes.length / 2 := by
  fun_induction groups bytes with
  | case1 high low rest ih =>
    simp only [List.length_cons, ih]
    omega
  | case2 bytes hshort =>
    match bytes, hshort with
    | [], _ => rfl
    | [_], _ => simp
    | high :: low :: rest, hshort => exact absurd rfl (hshort high low rest)

theorem groups_injective {bytes bytes' : Bytes} (heven : bytes.length % 2 = 0)
    (hlength : bytes'.length = bytes.length) (h : groups bytes = groups bytes') :
    bytes = bytes' := by
  fun_induction groups bytes generalizing bytes' with
  | case1 high low rest ih =>
    match bytes' with
    | [] => simp at hlength
    | [_] => simp at hlength
    | high' :: low' :: rest' =>
      rw [groups, List.cons.injEq] at h
      simp only [List.length_cons] at heven hlength
      have hhigh : high.toNat = high'.toNat := by
        have := low.toNat_lt
        have := low'.toNat_lt
        omega
      have hlow : low.toNat = low'.toNat := by omega
      rw [UInt8.toNat_inj.mp hhigh, UInt8.toNat_inj.mp hlow, ih (by omega) (by omega) h.2]
  | case2 bytes hshort =>
    match bytes, hshort with
    | [], _ => exact (List.length_eq_zero_iff.mp hlength).symm
    | [_], _ => simp at heven
    | high :: low :: rest, hshort => exact absurd rfl (hshort high low rest)

/-! ### Full addresses -/

/-- What an address starts with that maps one of four bytes. -/
def mappedPrefix : Bytes := List.replicate 10 0 ++ [255, 255]

/-- The text of a full address. -/
inductive AddressText : Bytes → String → Prop
  /-- Four bytes are four decimal numbers. -/
  | dotted {bytes : Bytes} : bytes.length = 4 → AddressText bytes (dotted bytes)
  /-- An address that maps one of four bytes ends like that one. -/
  | mapped {four : Bytes} :
    four.length = 4 → AddressText (mappedPrefix ++ four) ("::ffff:" ++ AddressLabel.dotted four)
  /-- Other addresses of sixteen bytes are eight groups, shortened. -/
  | grouped {bytes : Bytes} {text : String} :
    bytes.length = 16 → ¬mappedPrefix <+: bytes → ShortForm (groups bytes) text →
    AddressText bytes text

theorem mappedPrefix_iff {bytes : Bytes} (h : bytes.length = 16) :
    ((bytes.take 10).all (· == 0) && (bytes.field 10 2).all (· == 255)) = true ↔
      mappedPrefix <+: bytes := by
  have hzeros : (bytes.take 10).all (· == 0) = true ↔ bytes.take 10 = List.replicate 10 0 := by
    rw [List.eq_replicate_iff, List.all_eq_true, List.length_take, h]
    simp
  have hones : (bytes.field 10 2).all (· == 255) = true ↔
      bytes.field 10 2 = List.replicate 2 255 := by
    rw [List.eq_replicate_iff, List.all_eq_true, Bytes.field, List.length_take, List.length_drop, h]
    simp
  rw [Bool.and_eq_true, hzeros, hones, List.prefix_iff_eq_take]
  have htake : bytes.take mappedPrefix.length = bytes.take 10 ++ bytes.field 10 2 :=
    List.take_add (i := 10) (j := 2)
  rw [htake, eq_comm (a := mappedPrefix)]
  constructor
  · rintro ⟨hfirst, hnext⟩
    rw [hfirst, hnext]
    rfl
  · intro heq
    exact List.append_inj heq (by simp [h])

theorem addressText_ipv6 {bytes : Bytes} (h : bytes.length = 16) :
    AddressText bytes (ipv6 bytes) := by
  rw [ipv6]
  split_ifs with hmapped
  · obtain ⟨four, rfl⟩ := (mappedPrefix_iff h).mp hmapped
    have hfour : four.length = 4 := by
      rw [List.length_append, show mappedPrefix.length = 12 from rfl] at h
      omega
    exact .mapped hfour
  · exact .grouped h (mt (mappedPrefix_iff h).mpr hmapped) (shortForm_shortened _)

theorem AddressText.length_eq {bytes : Bytes} {text : String} (h : AddressText bytes text) :
    bytes.length = 4 ∨ bytes.length = 16 := by
  cases h with
  | dotted hlength => exact Or.inl hlength
  | mapped hfour => exact Or.inr (by rw [List.length_append, hfour]; rfl)
  | grouped hlength => exact Or.inr hlength

theorem mem_dotted {c : Char} (hc : IsMark c) {bytes : Bytes} (h : bytes.length = 4) :
    c ∈ (dotted bytes).toList ↔ c = '.' := by
  rw [toList_dotted, mem_joined hc (by decide), List.length_map, h]
  simp

theorem AddressText.slash_not_mem {bytes : Bytes} {text : String} (h : AddressText bytes text) :
    '/' ∉ text.toList := by
  cases h with
  | dotted hlength => simp [mem_dotted isMark_slash hlength]
  | mapped hfour => simp [mem_dotted isMark_slash hfour]
  | grouped _ _ hshort => exact hshort.not_mem isMark_slash (by decide)

theorem AddressText.colon_mem_iff {bytes : Bytes} {text : String} (h : AddressText bytes text) :
    ':' ∈ text.toList ↔ bytes.length = 16 := by
  cases h with
  | dotted hlength => simp [mem_dotted isMark_colon hlength, hlength]
  | mapped hfour => simp [mappedPrefix, hfour]
  | grouped hlength _ hshort =>
    exact iff_of_true (hshort.colon_mem (by rw [length_groups]; omega)) hlength

theorem AddressText.dot_mem_iff {bytes : Bytes} {text : String} (h : AddressText bytes text) :
    '.' ∈ text.toList ↔ bytes.length = 4 ∨ mappedPrefix <+: bytes := by
  cases h with
  | dotted hlength => simp [mem_dotted isMark_dot hlength, hlength]
  | mapped hfour => simp [mem_dotted isMark_dot hfour]
  | grouped hlength hnot hshort =>
    refine iff_of_false (hshort.not_mem isMark_dot (by decide)) ?_
    rintro (hfour | hmapped)
    · omega
    · exact hnot hmapped

/-- **An address is known from its text.** -/
theorem AddressText.unique {bytes bytes' : Bytes} {text : String} (h : AddressText bytes text)
    (h' : AddressText bytes' text) : bytes = bytes' := by
  have hlength : bytes.length = bytes'.length := by
    have hsixteen : bytes.length = 16 ↔ bytes'.length = 16 :=
      h.colon_mem_iff.symm.trans h'.colon_mem_iff
    have hsize := h.length_eq
    have hsize' := h'.length_eq
    omega
  have hkind := h.dot_mem_iff.symm.trans h'.dot_mem_iff
  cases h with
  | dotted hfour =>
    generalize htext : AddressLabel.dotted bytes = text at h'
    cases h' with
    | dotted hfour' =>
      exact dotted_injective (List.ne_nil_of_length_pos (by omega))
        (List.ne_nil_of_length_pos (by omega)) htext
    | mapped hfour' => simp [mappedPrefix, hfour, hfour'] at hlength
    | grouped hsixteen => omega
  | @mapped four hfour =>
    generalize htext : "::ffff:" ++ AddressLabel.dotted four = text at h'
    cases h' with
    | dotted hfour' => simp [mappedPrefix, hfour, hfour'] at hlength
    | mapped hfour' =>
      rw [dotted_injective (List.ne_nil_of_length_pos (by omega))
        (List.ne_nil_of_length_pos (by omega)) ((String.append_right_inj _).mp htext)]
    | grouped hsixteen hnot => simp [hnot, hsixteen] at hkind
  | grouped hsixteen hnot hshort =>
    cases h' with
    | dotted hfour' => omega
    | mapped hfour' => simp [hnot, hsixteen] at hkind
    | grouped hsixteen' _ hshort' =>
      refine groups_injective (by omega) hlength.symm (hshort.unique hshort' ?_ ?_)
      · rw [length_groups, length_groups, hlength]
      · exact List.ne_nil_of_length_pos (by rw [length_groups]; omega)

/-! ### Paths -/

/-- The text of a path in a family: that of a full address, or that of the path filled up with
zeros, with its length in bits. -/
inductive PathText (family : Nat) : Bytes → String → Prop
  /-- The path is a full address. -/
  | full {address : Bytes} {text : String} :
    address.length = family → AddressText address text → PathText family address text
  /-- The path is shorter. -/
  | cut {path : Bytes} {text : String} :
    path.length < family → AddressText (path ++ List.replicate (family - path.length) 0) text →
    PathText family path (text ++ "/" ++ toString (path.length * 8))

/-- What the program writes is in the format. -/
theorem pathText_ofPath {family : Nat} {path : Bytes} (hfamily : family = 4 ∨ family = 16)
    (hle : path.length ≤ family) : PathText family path (ofPath family path) := by
  have hfull : ∀ bytes : Bytes, bytes.length = family → AddressText bytes (full family bytes) := by
    intro bytes hlength
    rcases hfamily with rfl | rfl
    · exact .dotted hlength
    · exact addressText_ipv6 hlength
  rw [ofPath, List.take_of_length_le hle]
  split_ifs with hlt
  · exact .cut hlt (hfull _ (by simp [hle]))
  · have hlength : path.length = family := by omega
    rw [hlength, Nat.sub_self, List.replicate_zero, List.append_nil]
    exact .full hlength (hfull path hlength)

/-- A text with a number of bits is split at its slash. -/
theorem splitOn_bits {bytes : Bytes} {text : String} (h : AddressText bytes text) (bits : Nat) :
    (text ++ "/" ++ toString bits).toList.splitOn '/' =
      [text.toList, Nat.toDigits 10 bits] := by
  have hlist : (text ++ "/" ++ toString bits).toList =
      text.toList ++ '/' :: Nat.toDigits 10 bits := by
    simp
  rw [hlist, List.splitOn_append_cons_self_of_not_mem h.slash_not_mem,
    List.splitOn_eq_singleton (isMark_slash.not_mem_toDigits (by decide) bits)]

/-- **A path and its family are known from the text.** -/
theorem PathText.unique {family family' : Nat} {path path' : Bytes} {text : String}
    (h : PathText family path text) (h' : PathText family' path' text) :
    family = family' ∧ path = path' := by
  cases h with
  | full hlength haddress =>
    cases h' with
    | full hlength' haddress' =>
      obtain rfl := haddress.unique haddress'
      exact ⟨hlength.symm.trans hlength', rfl⟩
    | cut => exact absurd haddress.slash_not_mem (by simp)
  | @cut text hlt haddress =>
    generalize htext : text ++ "/" ++ toString (path.length * 8) = whole at h'
    cases h' with
    | full hlength' haddress' => exact absurd haddress'.slash_not_mem (by simp [← htext])
    | @cut text' hlt' haddress' =>
      have hsplit := congrArg (fun t : String => t.toList.splitOn '/') htext
      simp only [splitOn_bits haddress, splitOn_bits haddress', List.cons.injEq, and_true] at hsplit
      obtain ⟨hlist, hbits⟩ := hsplit
      obtain rfl := String.toList_inj.mp hlist
      have hpath : path.length = path'.length := by
        have := toDigits_injective (by decide) (by decide) hbits
        omega
      have hfilled := haddress.unique haddress'
      have hfamily := congrArg List.length hfilled
      simp only [List.length_append, List.length_replicate] at hfamily
      exact ⟨by omega, (List.append_inj hfilled hpath).1⟩

end TrafficSheet.AddressLabel
