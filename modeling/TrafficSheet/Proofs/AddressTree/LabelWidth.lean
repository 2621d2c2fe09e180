import TrafficSheet.Canvas.Basic
import TrafficSheet.Proofs.AddressTree.LabelFormat

/-!
# The width of address labels

A label is as wide as its characters are together, and no digit of any base is wider than those of
decimal numbers. So the format of a label bounds its width: an address of sixteen bytes may have
eight groups of four digits, and is then more than twice as wide as any address of four bytes
(`PathText.advanceSum_le`). Widths are in thousandths of the font size.
-/

namespace TrafficSheet

namespace TextMetrics

/-- The width of characters one after another. -/
def width (chars : List Char) : Nat := (chars.map advance).sum

theorem advanceSum_eq_width (text : String) : advanceSum text = width text.toList := by
  rw [advanceSum, width, List.sum_eq_foldr, List.foldr_map]

theorem width_append (chars more : List Char) : width (chars ++ more) = width chars + width more := by
  rw [width, List.map_append, List.sum_append]
  rfl

theorem advanceSum_append (text more : String) :
    advanceSum (text ++ more) = advanceSum text + advanceSum more := by
  rw [advanceSum_eq_width, String.toList_append, width_append, advanceSum_eq_width,
    advanceSum_eq_width]

/-- Pieces of a bounded width, with the same between each two of them. -/
theorem width_intercalate_le (between : List Char) {pieces : List (List Char)} {most : Nat}
    (h : ∀ piece ∈ pieces, width piece ≤ most) :
    width (between.intercalate pieces) ≤
      pieces.length * most + (pieces.length - 1) * width between := by
  induction pieces with
  | nil => exact Nat.zero_le _
  | cons first pieces ih =>
    obtain ⟨hfirst, hothers⟩ := List.forall_mem_cons.mp h
    cases pieces with
    | nil => simpa using hfirst
    | cons next pieces =>
      have hrest := ih hothers
      rw [List.intercalate_cons_cons, width_append, width_append]
      simp only [List.length_cons, Nat.add_sub_cancel, Nat.add_mul, Nat.one_mul] at hrest ⊢
      omega

end TextMetrics

namespace AddressLabel

open TextMetrics

/-! ### Numbers -/

theorem digitChar_of_le {d : Nat} (h : 16 ≤ d) : d.digitChar = '*' := by
  simp (disch := omega) only [Nat.digitChar, if_neg]

/-- No digit of any base is wider than those of decimal numbers. -/
theorem advance_digitChar_le (d : Nat) : advance d.digitChar ≤ 556 := by
  have hdigits : ∀ d < 16, advance d.digitChar ≤ 556 := by decide
  rcases Nat.lt_or_ge d 16 with hlt | hge
  · exact hdigits d hlt
  · rw [digitChar_of_le hge]
    decide

theorem width_toDigits_le {base n places : Nat} (hbase : 1 < base) (hplaces : 0 < places)
    (h : n < base ^ places) : width (Nat.toDigits base n) ≤ places * 556 := by
  have hdigit : ∀ w ∈ (Nat.toDigits base n).map advance, w ≤ 556 := by
    intro w hw
    obtain ⟨c, hc, rfl⟩ := List.mem_map.mp hw
    obtain ⟨d, rfl⟩ := exists_of_mem_toDigits hbase hc
    exact advance_digitChar_le d
  have hsum := List.sum_le_card_nsmul _ 556 hdigit
  rw [List.length_map, smul_eq_mul] at hsum
  exact hsum.trans (Nat.mul_le_mul_right 556 (Nat.toDigits_length base n places hplaces h))

theorem advanceSum_toString_le {n places : Nat} (hplaces : 0 < places) (h : n < 10 ^ places) :
    advanceSum (toString n) ≤ places * 556 := by
  have hdigits : (toString n).toList = Nat.toDigits 10 n := by simp
  rw [advanceSum_eq_width, hdigits]
  exact width_toDigits_le (by decide) hplaces h

/-- Numbers of so many places at the most, with a mark between each two of them. -/
theorem width_joined_le (mark : Char) {base places : Nat} {numbers : List Nat} (hbase : 1 < base)
    (hplaces : 0 < places) (h : ∀ n ∈ numbers, n < base ^ places) :
    width (joined mark base numbers) ≤
      numbers.length * (places * 556) + (numbers.length - 1) * advance mark := by
  have hpieces : ∀ piece ∈ numbers.map (Nat.toDigits base), width piece ≤ places * 556 := by
    intro piece hpiece
    obtain ⟨n, hn, rfl⟩ := List.mem_map.mp hpiece
    exact width_toDigits_le hbase hplaces (h n hn)
  have hjoined := width_intercalate_le [mark] hpieces
  rwa [List.length_map] at hjoined

/-! ### Full addresses -/

theorem advanceSum_dotted_le {bytes : Bytes} (h : bytes.length = 4) :
    advanceSum (dotted bytes) ≤ 7506 := by
  have hbytes : ∀ n ∈ bytes.map (·.toNat), n < 10 ^ 3 := by
    intro n hn
    obtain ⟨byte, -, rfl⟩ := List.mem_map.mp hn
    exact byte.toNat_lt.trans (by decide)
  have hdot : advance '.' = 278 := by decide
  have hjoined := width_joined_le '.' (by decide) (by decide) hbytes
  rwa [← toList_dotted, ← advanceSum_eq_width, List.length_map, h, hdot] at hjoined

theorem advanceSum_colons_le {l : List Nat} (h : ∀ group ∈ l, group < 16 ^ 4) :
    advanceSum (colons l) ≤ l.length * 2224 + (l.length - 1) * 278 := by
  have hcolon : advance ':' = 278 := by decide
  have hjoined := width_joined_le ':' (by decide) (by decide) h
  rwa [← toList_colons, ← advanceSum_eq_width, hcolon] at hjoined

/-- Shortened groups are not wider than all of them may be. -/
theorem ShortForm.advanceSum_le {l : List Nat} {text : String} (h : ShortForm l text)
    (hlt : ∀ group ∈ l, group < 16 ^ 4) :
    advanceSum text ≤ l.length * 2224 + (l.length - 1) * 278 := by
  cases h with
  | whole => exact advanceSum_colons_le hlt
  | @shortened before after n hruns htwo _ =>
    rw [hruns, List.append_assoc] at hlt
    obtain ⟨hbefore, hrest⟩ := List.forall_mem_append.mp hlt
    have hfront := advanceSum_colons_le hbefore
    have hback := advanceSum_colons_le (List.forall_mem_append.mp hrest).2
    have hcolons : advanceSum "::" = 556 := by decide
    have hlength : l.length = before.length + n + after.length := by
      rw [hruns, List.length_append, List.length_append, List.length_replicate]
    rw [advanceSum_append, advanceSum_append, hcolons]
    omega

theorem group_lt {bytes : Bytes} : ∀ group ∈ groups bytes, group < 16 ^ 4 := by
  fun_induction groups bytes with
  | case1 high low rest ih =>
    refine List.forall_mem_cons.mpr ⟨?_, ih⟩
    have := high.toNat_lt
    have := low.toNat_lt
    omega
  | case2 => exact fun _ hgroup => absurd hgroup List.not_mem_nil

/-- How wide a full address may be: four numbers of three digits with dots, or eight of four with
colons. -/
def widest (family : Nat) : Nat := if family = 4 then 7506 else 19738

theorem AddressText.advanceSum_le {bytes : Bytes} {text : String} (h : AddressText bytes text) :
    advanceSum text ≤ widest bytes.length := by
  cases h with
  | dotted hfour =>
    rw [hfour]
    exact advanceSum_dotted_le hfour
  | mapped hfour =>
    have hdotted := advanceSum_dotted_le hfour
    have hmark : advanceSum "::ffff:" = 1946 := by decide
    rw [advanceSum_append, hmark, List.length_append, hfour]
    exact (Nat.add_le_add_left hdotted 1946).trans (by decide)
  | grouped hsixteen _ hshort =>
    have hgroups := hshort.advanceSum_le group_lt
    rw [length_groups, hsixteen] at hgroups
    rw [hsixteen]
    exact hgroups

/-! ### Paths -/

/-- **The width of a label** is bounded by that of a full address of its family, and that of a
slash and a number of bits of three digits. -/
theorem PathText.advanceSum_le {family : Nat} {path : Bytes} {text : String}
    (h : PathText family path text) (hfamily : family ≤ 16) :
    advanceSum text ≤ widest family + 1946 := by
  cases h with
  | full hlength haddress =>
    have haddress := haddress.advanceSum_le
    rw [hlength] at haddress
    omega
  | @cut text hlt haddress =>
    have hfull := haddress.advanceSum_le
    have hlength : (path ++ List.replicate (family - path.length) 0).length = family := by
      rw [List.length_append, List.length_replicate]
      omega
    have hslash : advanceSum "/" = 278 := by decide
    have hbits : path.length * 8 < 10 ^ 3 := by omega
    have hnumber := advanceSum_toString_le (by decide) hbits
    rw [hlength] at hfull
    rw [advanceSum_append, advanceSum_append, hslash]
    omega

end AddressLabel

end TrafficSheet
