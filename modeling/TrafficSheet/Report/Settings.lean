import TrafficSheet.AddressTree.Basic
import TrafficSheet.Geometry

/-!
# Settings of a report

Where a report is written to, how large its page is, and how much it keeps and lists.
-/

namespace TrafficSheet

/-- The most lines below a chart of ranked labels that may be asked for. -/
def Settings.mostListed : Nat := 50

/-- The settings of a report. -/
structure Settings (α : Type) where
  /-- The name of the file, seen from the directory that reports are written to. -/
  filename : String
  /-- The page. -/
  page : Rect α
  /-- The font size of the lines at the top. -/
  headerSize : α
  /-- The font size of the lines below the charts of ranked labels. -/
  listSize : α
  /-- How many lines there are below a chart of ranked labels. -/
  listed : Nat
  /-- How many entries an address tree holds. -/
  addressLimit : Nat

namespace Settings

variable {α : Type} [Scalar α]

/-- A page of the given size. -/
def pageOfSize (width height : α) : Rect α := ⟨0.0, 0.0, width, height⟩

/-- The settings of a report that is given none. -/
def standard : Settings α where
  filename := "report.pdf"
  page := pageOfSize 611.0 792.0
  headerSize := 8.0
  listSize := 8.0
  listed := 3
  addressLimit := AddressTree.defaultLimit

/-- Settings with another number of listed lines, or with the most that is allowed if the
number exceeds it. -/
def withListed (n : Nat) (s : Settings α) : Settings α := { s with listed := min n mostListed }

/-- The part of a page's width that is left free at each of its edges. -/
def marginFactor : α := 0.05

/-- The part of the page inside its margins. -/
def content (s : Settings α) : Rect α :=
  let margin := s.page.width * marginFactor
  { x := s.page.x + margin
    y := s.page.y + margin
    width := s.page.width - margin * 2.0
    height := s.page.height - margin * 2.0 }

end Settings

end TrafficSheet
