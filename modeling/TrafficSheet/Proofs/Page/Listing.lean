import Mathlib
import TrafficSheet.Page.Basic
import TrafficSheet.Report.Summary

/-!
# The lines below a pair of charts

Below two charts side by side the page lists the first labels of both. Row by row it draws a
line for each side that has a label of that rank. In all, each side gets the lines of its
listing, in order and at its own edge (`Page.drawsListings_pair`): one line for each of the
labels that the summary lists for it.
-/

namespace TrafficSheet

variable {α : Type}

/-! ### The texts of a drawing -/

/-- The text that a call draws, with its distance from the left. -/
def Call.text? : Call α → Option (α × String)
  | Call.text at_ content => some (at_.x, content)
  | _ => none

/-- The texts that calls draw, each with its distance from the left, in order. -/
def Call.texts (calls : List (Call α)) : List (α × String) := calls.filterMap Call.text?

theorem Call.texts_append (calls more : List (Call α)) :
    texts (calls ++ more) = texts calls ++ texts more :=
  List.filterMap_append

/-- Where the texts of flows do not depend on the height they are drawn at, those of the
stack are theirs one after another. -/
theorem Flow.texts_stack [Scalar α] {ι : Type} {flow : ι → Flow α}
    {texts : ι → List (α × String)} (h : ∀ i cursor, Call.texts (flow i cursor).1 = texts i)
    (l : List ι) (cursor : α) :
    Call.texts (Flow.stack (l.map flow) cursor).1 = l.flatMap texts := by
  induction l generalizing cursor with
  | nil => rfl
  | cons i l ih =>
    have hstep : (Flow.stack ((i :: l).map flow) cursor).1 =
        (flow i cursor).1 ++ (Flow.stack (l.map flow) (flow i cursor).2).1 := rfl
    rw [hstep, Call.texts_append, h, ih, List.flatMap_cons]

/-! ### Lines by rank -/

/-- Taking the entries of a list rank by rank. -/
theorem flatMap_range_getElem? {β γ : Type} (line : Nat → β → γ) (l : List β) (n : Nat) :
    ((List.range n).flatMap fun rank => (l[rank]?.map (line rank)).toList) =
      (l.take n).mapIdx line := by
  induction n with
  | zero => rfl
  | succ n ih =>
    rw [List.range_succ, List.flatMap_append, ih, List.take_add_one, List.mapIdx_append,
      List.flatMap_cons, List.flatMap_nil, List.append_nil]
    congr 1
    -- Rank `n` has a line only if the list is longer, and then `n` lines stand before it.
    cases hn : l[n]? with
    | none => rfl
    | some entry =>
      have hlength : (l.take n).length = n :=
        List.length_take_of_le (List.getElem?_eq_some_iff.mp hn).1.le
      simp [hlength]

/-- The line of a listed entry; ranks count from zero. -/
def ListedEntry.line (rank : Nat) (e : ListedEntry) : String :=
  toString (rank + 1) ++ ". " ++ e.label ++ " - " ++ Quantity.grouped e.count ++ " ("
    ++ toString e.percentage ++ "%)"

/-- The lines of a listing. -/
def listingLines (listing : List ListedEntry) : List String := listing.mapIdx ListedEntry.line

theorem listingLines_listing (n : Nat) (list : RankedList) :
    listingLines (list.listing n) =
      (list.entries.take n).mapIdx fun rank => Page.listLine rank list.total := by
  refine List.ext_getElem? fun rank => ?_
  rw [listingLines, RankedList.listing, List.getElem?_mapIdx, List.getElem?_mapIdx,
    List.getElem?_map, Option.map_map]
  rfl

/-- The lines of one side, over all ranks. -/
theorem flatMap_listLine (x : α) (list : RankedList) (n : Nat) :
    ((List.range n).flatMap fun rank =>
      (list.entries[rank]?.map fun entry => (x, Page.listLine rank list.total entry)).toList) =
      (listingLines (list.listing n)).map fun line => (x, line) := by
  rw [flatMap_range_getElem? (fun rank entry => (x, Page.listLine rank list.total entry)),
    listingLines_listing]
  refine List.ext_getElem? fun rank => ?_
  rw [List.getElem?_map, List.getElem?_mapIdx, List.getElem?_mapIdx, Option.map_map]
  rfl

/-! ### Both sides -/

namespace Page

variable [Scalar α] (p : Page α)

/-- A flow draws two charts side by side, and below them the given lines: those of the left
side at the left edge, and those of the right side at the left edge of the right chart. -/
def DrawsListings (flow : Flow α) (left right : RankedPanel α)
    (leftLines rightLines : List String) : Prop :=
  ∀ cursor, ∃ block,
    (flow cursor).1 = (p.charts left right cursor).1 ++ block ∧
    (Call.texts block).Perm
      (leftLines.map (fun line => (0.0, line)) ++ rightLines.map fun line => (p.rightEdge, line))

theorem texts_listCell (rank : Nat) (list : RankedList) (at_ : Point α) :
    Call.texts (p.listCell rank list at_).1 =
      (list.entries[rank]?.map fun entry => (at_.x, listLine rank list.total entry)).toList := by
  rw [listCell]
  cases list.entries[rank]? <;> rfl

theorem texts_listRow (left right : RankedList) (rank : Nat) (cursor : α) :
    Call.texts (p.listRow left right rank cursor).1 =
      (left.entries[rank]?.map fun entry => (0.0, listLine rank left.total entry)).toList ++
        (right.entries[rank]?.map fun entry =>
          (p.rightEdge, listLine rank right.total entry)).toList := by
  rw [listRow, Call.texts_append, texts_listCell, texts_listCell]

/-- **A pair of charts** stands above the listings of both sides. -/
theorem drawsListings_pair (left right : RankedPanel α) :
    p.DrawsListings (p.pair left right) left right
      (listingLines (left.list.listing p.settings.listed))
      (listingLines (right.list.listing p.settings.listed)) := by
  intro cursor
  refine ⟨_, rfl, ?_⟩
  rw [Flow.texts_stack (p.texts_listRow left.list right.list), ← flatMap_listLine,
    ← flatMap_listLine]
  exact (List.flatMap_append_perm ..).symm

end Page

end TrafficSheet
