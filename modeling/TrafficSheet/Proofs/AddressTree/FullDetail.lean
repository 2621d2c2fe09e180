import TrafficSheet.Proofs.AddressTree.Labels
import TrafficSheet.Proofs.AddressTree.Unfolded

/-!
# Addresses in full detail

As long as no more addresses differ than the bound allows, the entries of a tree are its addresses
themselves: each once, the shorter ones first and those of one length byte by byte, under the label
of the full address and with the number of its occurrences (`AddressTree.lists_every_address`). So
the tree does then the work of a sorted list. Beyond the bound the order is still kept.
-/

namespace TrafficSheet

/-! ### The order of addresses -/

/-- A shorter address stands before a longer one, and those of one length are compared byte by
byte. -/
def AddressBefore : Bytes → Bytes → Prop := List.Shortlex (· < ·)

namespace AddressBefore

theorem iff_length_or_lt {a b : Bytes} :
    AddressBefore a b ↔ a.length < b.length ∨ a.length = b.length ∧ a < b :=
  List.shortlex_def

instance : DecidableRel AddressBefore := fun _ _ => decidable_of_iff _ iff_length_or_lt.symm

instance : IsTrans Bytes (List.Lex (· < ·)) := ⟨fun _ _ _ => List.lt_trans⟩

instance : IsStrictTotalOrder Bytes AddressBefore where
  irrefl _ h := asymm_of (List.Shortlex (· < ·)) h h
  trans _ _ _ h h' := trans_of (Prod.Lex (· < ·) (List.Lex (· < ·))) h h'
  trichotomous := List.Shortlex.trichotomous.trichotomous

end AddressBefore

/-- The different addresses that have a byte, in order. -/
def inOrder (addresses : List Bytes) : List Bytes :=
  (addresses.filter (· ≠ [])).dedup.mergeSort fun a b => decide (¬AddressBefore b a)

variable {addresses : List Bytes} {a : Bytes}

theorem mem_inOrder : a ∈ inOrder addresses ↔ a ≠ [] ∧ a ∈ addresses := by
  simp [inOrder, and_comm]

theorem pairwise_inOrder (addresses : List Bytes) : (inOrder addresses).Pairwise AddressBefore :=
  pairwise_mergeSort_of_nodup (List.nodup_dedup _)

theorem length_inOrder (addresses : List Bytes) :
    (inOrder addresses).length = (distinct addresses).card := by
  have hnodup : (inOrder addresses).Nodup := (pairwise_inOrder addresses).imp fun h => ne_of_irrefl h
  rw [← List.toFinset_card_of_nodup hnodup]
  refine congrArg Finset.card (Finset.ext fun a => ?_)
  rw [List.mem_toFinset, mem_inOrder, mem_distinct]

/-! ### Labels of full addresses -/

namespace AddressLabel

theorem ofPath_length (a : Bytes) : ofPath a.length a = full a.length a := by
  simp [ofPath]

theorem IsMark.not_mem_hexPair {c : Char} (hc : IsMark c) (byte : UInt8) :
    c ∉ (Bytes.hexPair byte).toList := by
  rw [Bytes.hexPair, String.toList_ofList, List.mem_append]
  rintro (hzero | hdigit)
  · exact hc 0 (List.eq_of_mem_replicate hzero).symm
  · exact hc.not_mem_toDigits (by decide) _ hdigit

/-- **A full address** is written without a number of bits. -/
theorem slash_not_mem_full (a : Bytes) : '/' ∉ (full a.length a).toList := by
  rw [full]
  split_ifs with hfour hsixteen
  · exact (AddressText.dotted hfour).slash_not_mem
  · exact (addressText_ipv6 hsixteen).slash_not_mem
  · have hpairs : ∀ pair ∈ (a.map Bytes.hexPair).map String.toList, '/' ∉ pair := by
      intro pair hpair
      obtain ⟨text, htext, rfl⟩ := List.mem_map.mp hpair
      obtain ⟨byte, -, rfl⟩ := List.mem_map.mp htext
      exact isMark_slash.not_mem_hexPair byte
    rw [String.toList_intercalate, mem_intercalate hpairs]
    exact fun hmem => absurd hmem.1 (by decide)

end AddressLabel

/-! ### The entries of a tree in which nothing was folded -/

/-- The entry that an address has of its own. -/
def AddressEntry.ofAddress (addresses : List Bytes) (a : Bytes) : AddressEntry :=
  ⟨a.length, a, addresses.count a⟩

namespace AddressTree

open AddressLabel

variable {t : AddressTree}

theorem Holds.entries_of_unfolded (h : t.Holds addresses) (hu : t.Unfolded) :
    t.entries = (inOrder addresses).map (.ofAddress addresses) := by
  have hsorted : ((inOrder addresses).map (.ofAddress addresses)).Pairwise
      AddressEntry.Precedes :=
    List.pairwise_map.mpr ((pairwise_inOrder addresses).imp AddressBefore.iff_length_or_lt.mp)
  refine h.pairwise_entries.eq_of_mem_iff hsorted fun e => ?_
  rw [h.mem_entries_of_unfolded hu, List.mem_map]
  constructor
  · rintro ⟨hmem, hne, hfamily, hcount⟩
    refine ⟨e.path, mem_inOrder.mpr ⟨hne, hmem⟩, ?_⟩
    rw [AddressEntry.ofAddress, ← hfamily, ← hcount]
  · rintro ⟨a, ha, rfl⟩
    obtain ⟨hne, hmem⟩ := mem_inOrder.mp ha
    exact ⟨hmem, hne, rfl, rfl⟩

/-- **Under the bound no detail is lost.** Where no more addresses differ than the bound, the
entries are all of them in order, under the labels of full addresses, and each with the number of
its occurrences; and there are as many entries as different addresses. Entries are listed by family
and path whatever was counted. -/
theorem lists_every_address (m : Nat) (addresses : List Bytes) :
    let t := (empty m).addAll addresses
    ((distinct addresses).card ≤ max 1 m →
      t.entries = (inOrder addresses).map (.ofAddress addresses) ∧
      t.entries.map AddressEntry.labelled =
        (inOrder addresses).map (fun a => (full a.length a, addresses.count a)) ∧
      (∀ a ∈ inOrder addresses, '/' ∉ (full a.length a).toList) ∧
      t.leafCount = (distinct addresses).card) ∧
    t.entries.Pairwise AddressEntry.Precedes := by
  intro t
  have h : t.Holds addresses := holds_addAll m addresses
  refine ⟨fun hle => ?_, h.pairwise_entries⟩
  have hentries := h.entries_of_unfolded (unfolded_addAll m addresses (max_comm 1 m ▸ hle))
  refine ⟨hentries, ?_, fun a _ => slash_not_mem_full a, ?_⟩
  · rw [hentries, List.map_map]
    exact List.map_congr_left fun a _ => congrArg (·, _) (ofPath_length a)
  · rw [h.leafCount_eq, hentries, List.length_map, length_inOrder]

/-- Three different addresses, one of two bytes, just fit a bound of three. -/
theorem lists_every_address_at_bound :
    let addresses : List Bytes := [[10, 0, 0, 2], [9, 9], [10, 0, 0, 2], [], [10, 0, 0, 1]]
    let t := (empty 3).addAll addresses
    (distinct addresses).card ≤ max 1 3 ∧ t.leafCount = (distinct addresses).card ∧
      inOrder addresses = [[9, 9], [10, 0, 0, 1], [10, 0, 0, 2]] ∧
      t.entries.map AddressEntry.labelled = [("09:09", 1), ("10.0.0.1", 1), ("10.0.0.2", 2)] ∧
      t.entries.Pairwise AddressEntry.Precedes := by
  intro addresses t
  have hle : (distinct addresses).card ≤ max 1 3 := by decide
  obtain ⟨hdetail, hsorted⟩ := lists_every_address 3 addresses
  obtain ⟨hentries, hlabels, -, hcount⟩ := hdetail hle
  have horder : inOrder addresses = [[9, 9], [10, 0, 0, 1], [10, 0, 0, 2]] := by
    have hpaths := congrArg (List.map AddressEntry.path) hentries
    rw [List.map_map, show AddressEntry.path ∘ _ = id from rfl, List.map_id] at hpaths
    exact hpaths.symm.trans (by decide)
  refine ⟨hle, hcount, horder, ?_, hsorted⟩
  -- The sort itself is not run: its result is known from the entries.
  rw [hlabels, horder]
  decide +kernel

/-- One more address does not fit: the others of its family run together with it. -/
example :
    let addresses : List Bytes :=
      [[10, 0, 0, 2], [9, 9], [10, 0, 0, 2], [], [10, 0, 0, 1], [10, 0, 0, 3]]
    ((empty 3).addAll addresses).entries = [⟨2, [9, 9], 1⟩, ⟨4, [10, 0, 0], 4⟩] := by
  decide

end AddressTree

end TrafficSheet
