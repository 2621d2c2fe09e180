import TrafficSheet.Canvas.Recording
import TrafficSheet.Proofs.Geometry
import TrafficSheet.Proofs.Pdf.Content

/-!
# A page against a recording of it

Whatever draws can be drawn on a page, and it can be recorded. Both take the same calls, and both
keep a font size and an origin of their own; one turns every point over and rounds it, the other
keeps it. They do not drift apart (`Tracks.draw`): every question for the size of a text has the same
answer, and the instructions that are read back from the page's content stream are those that
transcribe the recording, mark by mark, with the colors in between (`transcribes_recording`).

A page takes calls up to the first one that it cannot hold (`Sheet.takeAll_of_holds`,
`Sheet.takeAll_of_not_holds`). It can hold lines of every width above zero (`holds_of_pos`).

## Not proved

Additions and roundings of coordinates are left as they are computed; how near they are to exact
ones is not said.
-/

namespace TrafficSheet.Pdf

/-! ### Transcripts -/

/-- How far down the origin is after a call, if it was `down` before. -/
def originAfter (down : Float) : Call Float → Float
  | .shift _ dy => down + dy
  | _ => down

/-- What a page of some height has of one call, in terms of what is recorded of it: of a mark the
instructions that draw it, of a color those that set it, and of all other calls nothing. Heights are
turned over; a rectangle starts at its bottom, which is computed before it is moved by the origin. -/
inductive TranscribesCall (height down : Float) :
    Call Float → List (Mark Float) → List (Instruction Float32) → Prop where
  /-- A font size is not written before a text needs it. -/
  | font (size : Float) : TranscribesCall height down (.font size) [] []
  /-- A color is set for areas and for lines. -/
  | color (color : Color Float) :
      TranscribesCall height down (.color color) []
        [.ofNumbers [color.r.toFloat32, color.g.toFloat32, color.b.toFloat32] "rg",
          .ofNumbers [color.r.toFloat32, color.g.toFloat32, color.b.toFloat32] "RG"]
  /-- A question writes nothing. -/
  | measure (text : String) : TranscribesCall height down (.measure text) [] []
  /-- A text is a text object of its own. -/
  | text (at_ place : Point Float) (size : Float) (text : String) :
      TranscribesCall height down (.text at_ text) [.text place size text]
        [.ofNumbers [] "BT", ⟨[.name (ascii "F1"), .number size.toFloat32], ascii "Tf"⟩,
          .ofNumbers [place.x.toFloat32, (height - place.y).toFloat32] "Td",
          ⟨[.string (shownBytes text)], ascii "Tj"⟩, .ofNumbers [] "ET"]
  /-- A line is a path from one end to the other. -/
  | line (start stop first last : Point Float) (width : Float) :
      TranscribesCall height down (.line start stop width) [.line first last]
        [.ofNumbers [width.toFloat32] "w",
          .ofNumbers [first.x.toFloat32, (height - first.y).toFloat32] "m",
          .ofNumbers [last.x.toFloat32, (height - last.y).toFloat32] "l", .ofNumbers [] "S"]
  /-- A filled rectangle is a path. -/
  | fill (rect placed : Rect Float) :
      TranscribesCall height down (.fill rect) [.fill placed]
        [.ofNumbers [placed.x.toFloat32, (height - ((rect.y + rect.height) + down)).toFloat32,
            placed.width.toFloat32, placed.height.toFloat32] "re", .ofNumbers [] "f"]
  /-- The outline of a rectangle is the same path, drawn with a width. -/
  | stroke (rect placed : Rect Float) (width : Float) :
      TranscribesCall height down (.stroke rect width) [.stroke placed]
        [.ofNumbers [width.toFloat32] "w",
          .ofNumbers [placed.x.toFloat32, (height - ((rect.y + rect.height) + down)).toFloat32,
            placed.width.toFloat32, placed.height.toFloat32] "re", .ofNumbers [] "S"]
  /-- A move of the origin writes nothing. -/
  | shift (dx dy : Float) : TranscribesCall height down (.shift dx dy) [] []

/-- What a page of some height has of calls, one after another. -/
inductive Transcribes (height : Float) :
    Float → List (Call Float) → List (Mark Float) → List (Instruction Float32) → Prop where
  /-- Nothing of no calls. -/
  | nil (down : Float) : Transcribes height down [] [] []
  /-- What it has of the first call, and then what it has of the others. -/
  | cons {down : Float} {call : Call Float} {calls : List (Call Float)}
      {marks more : List (Mark Float)} {written rest : List (Instruction Float32)} :
      TranscribesCall height down call marks written →
      Transcribes height (originAfter down call) calls more rest →
      Transcribes height down (call :: calls) (marks ++ more) (written ++ rest)

/-- What is read from a content stream transcribes the recording of calls, and there is nothing else
in it. -/
def IsTranscript (height : Float) (calls : List (Call Float)) (content : Bytes) : Prop :=
  ∃ read written, readContent? content = some read ∧ List.Forall₂ Instruction.Says read written ∧
    Transcribes height 0.0 calls
      (Surface.drawAll (.empty : Recording Float) calls).marks.toList written

/-! ### A page and a recording -/

/-- A recording gains the mark of a call, if it has one. -/
theorem marks_draw (r : Recording Float) (call : Call Float) :
    (r.draw call).marks.toList = r.marks.toList ++ (r.mark? call).toList := by
  cases call with
  | font | color | measure | shift => exact (List.append_nil _).symm
  | text | line | fill | stroke => exact Array.toList_push

theorem originAfter_eq (r : Recording Float) (call : Call Float) :
    (r.draw call).origin.y = originAfter r.origin.y call := by
  cases call <;> rfl

/-- A page and a recording have the same font size and the same origin. -/
structure Tracks (s : Sheet) (r : Recording Float) : Prop where
  /-- The font size. -/
  fontSize : s.fontSize = r.fontSize
  /-- The origin. -/
  origin : s.origin = r.origin

theorem tracks_empty (width height : Float) : Tracks (.empty width height) .empty := ⟨rfl, rfl⟩

variable {s : Sheet} {r : Recording Float}

/-- Every call sets the same on both. -/
theorem Tracks.draw (h : Tracks s r) (call : Call Float) : Tracks (s.draw call) (r.draw call) := by
  obtain ⟨hfont, horigin⟩ := h
  cases call with
  | font size => exact ⟨rfl, horigin⟩
  | shift dx dy => exact ⟨hfont, by simp only [Sheet.draw, Recording.draw, horigin]⟩
  | _ => exact ⟨hfont, horigin⟩

/-- Every question has the same answer on both. -/
theorem Tracks.answer? (h : Tracks s r) (call : Call Float) :
    Surface.answer? s call = Surface.answer? r call := by
  cases call with
  | measure text => exact congrArg (fun size => some (TextMetrics.measure text size)) h.fontSize
  | _ => rfl

/-- The operators of a call transcribe the mark that is recorded of it. -/
theorem Tracks.transcribesCall (h : Tracks s r) (call : Call Float) :
    TranscribesCall s.height r.origin.y call (r.mark? call).toList
      ((s.operatorsOf call).map (·.instruction)) := by
  obtain ⟨width, height, operators, fontSize, origin⟩ := s
  obtain ⟨marks, fontSize', color, origin'⟩ := r
  obtain ⟨hfont, horigin⟩ := h
  obtain rfl : fontSize = fontSize' := hfont
  obtain rfl : origin = origin' := horigin
  cases call with
  | font size => exact .font size
  | color color => exact .color color
  | measure text => exact .measure text
  | text at_ text => exact .text at_ _ fontSize text
  | line start stop width => exact .line start stop _ _ width
  | fill rect => exact .fill rect _
  | stroke rect width => exact .stroke rect _ width
  | shift dx dy => exact .shift dx dy

/-! ### All calls -/

theorem Tracks.answers (h : Tracks s r) (calls : List (Call Float)) :
    Surface.answers s calls = Surface.answers r calls := by
  induction calls generalizing s r with
  | nil => rfl
  | cons call calls ih => exact congrArg₂ List.cons (h.answer? call) (ih (h.draw call))

/-- What calls add to a page transcribes what they add to a recording. -/
theorem Tracks.transcribes (h : Tracks s r) (calls : List (Call Float)) :
    ∃ marks operators,
      (Surface.drawAll r calls).marks.toList = r.marks.toList ++ marks ∧
      (Surface.drawAll s calls).operators.toList = s.operators.toList ++ operators ∧
      Transcribes s.height r.origin.y calls marks (operators.map (·.instruction)) := by
  induction calls generalizing s r with
  | nil => exact ⟨[], [], (List.append_nil _).symm, (List.append_nil _).symm, .nil _⟩
  | cons call calls ih =>
    obtain ⟨marks, operators, hmarks, hoperators, htail⟩ := ih (h.draw call)
    rw [s.height_draw, originAfter_eq] at htail
    rw [marks_draw, List.append_assoc] at hmarks
    rw [s.operators_draw, List.append_assoc] at hoperators
    refine ⟨_, _, hmarks, hoperators, ?_⟩
    rw [List.map_append]
    exact .cons (h.transcribesCall call) htail

/-- **The content stream of a page** is a transcript of all calls. -/
theorem isTranscript_content (width height : Float) (calls : List (Call Float)) :
    IsTranscript height calls (Surface.drawAll (Sheet.empty width height) calls).content := by
  obtain ⟨marks, operators, hmarks, hoperators, htranscribes⟩ :=
    (tracks_empty width height).transcribes calls
  obtain ⟨read, hread, hsays⟩ := exists_readContent? operators
  refine ⟨read, _, ?_, hsays, ?_⟩
  · rw [Sheet.content, hoperators]
    exact hread
  · rw [hmarks]
    exact htranscribes

/-! ### Calls that a page can hold -/

/-- The width that a call asks for. -/
def width? : Call Float → Option Float
  | .line _ _ width | .stroke _ width => some width
  | _ => none

/-- A page can hold lines of every width above zero. -/
theorem holds_of_pos {call : Call Float} (h : ∀ width ∈ width? call, 0.0 < width) :
    holds call = true := by
  have hleast : ∀ width : Float, 0.0 < width → leastWidth ≤ width := fun _ =>
    le_of_zero_lt ⟨_, _, _, by rfl⟩
  cases call with
  | line _ _ width => exact decide_eq_true (hleast width (h width rfl))
  | stroke _ width => exact decide_eq_true (hleast width (h width rfl))
  | _ => rfl

/-- Calls that can all be held are all drawn. -/
theorem Sheet.takeAll_of_holds {calls : List (Call Float)} (h : ∀ call ∈ calls, holds call = true) :
    s.takeAll calls = .ok (Surface.drawAll s calls) := by
  induction calls generalizing s with
  | nil => rfl
  | cons call calls ih =>
    obtain ⟨hcall, hcalls⟩ := List.forall_mem_cons.mp h
    rw [takeAll, List.foldlM_cons, take, if_pos hcall]
    exact ih hcalls

/-- The first call that cannot be held ends the drawing. -/
theorem Sheet.takeAll_of_not_holds {calls : List (Call Float)}
    (h : ¬∀ call ∈ calls, holds call = true) : s.takeAll calls = .error .lineWidth := by
  induction calls generalizing s with
  | nil => exact absurd (List.forall_mem_nil _) h
  | cons call calls ih =>
    rw [takeAll, List.foldlM_cons, take]
    split
    · rename_i hcall
      exact ih fun hcalls => h (List.forall_mem_cons.mpr ⟨hcall, hcalls⟩)
    · rfl

/-- **A page shows what a recording of it holds.** Any calls, with lines of widths above zero, are
taken by an empty page of any size and by an empty recording. They are answered alike; and the
content stream of the page is read back as the instructions that transcribe the recording, in the
order of the calls. -/
theorem transcribes_recording (width height : Float) (calls : List (Call Float))
    (hwidths : ∀ call ∈ calls, ∀ w ∈ width? call, 0.0 < w) :
    ∃ page, (Sheet.empty width height).takeAll calls = .ok page ∧
      Surface.answers (Sheet.empty width height) calls =
        Surface.answers (.empty : Recording Float) calls ∧
      IsTranscript height calls page.content := by
  have hholds : ∀ call ∈ calls, holds call = true := fun call hcall =>
    holds_of_pos (hwidths call hcall)
  exact ⟨_, Sheet.takeAll_of_holds hholds, (tracks_empty width height).answers calls,
    isTranscript_content width height calls⟩

/-- A text between two moves of the origin, and a line below it. -/
theorem transcribes_recording_line :
    let calls : List (Call Float) :=
      [.color .black, .shift 36.0 36.0, .measure "a", .text ⟨0.0, 7.0⟩ "(a)", .shift 0.0 10.0,
        .line ⟨0.0, 0.0⟩ ⟨20.0, 0.0⟩ 0.5]
    ∃ page, (Sheet.empty 612.0 792.0).takeAll calls = .ok page ∧
      Surface.answers (Sheet.empty 612.0 792.0) calls =
        Surface.answers (.empty : Recording Float) calls ∧
      IsTranscript 792.0 calls page.content := by
  intro calls
  have hline : (0.0 : Float) < 0.5 := by decide
  exact transcribes_recording 612.0 792.0 calls (by simp [calls, width?, hline])

end TrafficSheet.Pdf
