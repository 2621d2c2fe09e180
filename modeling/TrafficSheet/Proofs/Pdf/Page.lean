import TrafficSheet.Proofs.Pdf.Document
import TrafficSheet.Proofs.Pdf.Transcript

/-!
# The file of a page is well formed

The five objects of a page are known, and with them what they refer to
(`Sheet.isPage_documentOf`). So whatever is drawn on a page of whatever size, its file is well
formed, and its stream is the transcript of what was drawn (`exists_read?_file`). Texts on the page
that look like an object, like the end of the stream or like the table are part of the stream and
nothing else: they are not looked for in it.
-/

namespace TrafficSheet.Pdf

/-! ### What a page needs -/

/-- The objects of a page. -/
structure Outline where
  /-- The root of the file. -/
  catalog : Indirect
  /-- The list of all pages. -/
  list : Indirect
  /-- The page. -/
  page : Indirect
  /-- Its font. -/
  font : Indirect
  /-- What it shows. -/
  contents : Indirect

/-- The objects in the order of their numbers. -/
def Outline.objects (o : Outline) : List Indirect := [o.catalog, o.list, o.page, o.font, o.contents]

namespace Value

/-- Whether a dictionary is of some kind. -/
def HasType (v : Value) (type : String) : Prop := v.lookup? "Type" = some (.name (ascii type))

/-- The value of a key of the value of a key, and so on. -/
def path? : List String → Value → Option Value
  | [], v => some v
  | key :: keys, v => (v.lookup? key).bind (path? keys)

end Value

/-- What it takes for a file to be that of a page which has some size and shows a content stream:
its objects are all there, in order, and what they refer to is there and is of the right kind. -/
structure Document.IsPage (d : Document) (o : Outline) (width height : Float32) (content : Bytes) :
    Prop where
  /-- There are five objects, -/
  objects : d.objects = o.objects
  /-- and their numbers are those from one to five. -/
  numbers : d.objects.map (·.number) = [1, 2, 3, 4, 5]
  /-- The trailer counts the numbers, with zero among them. -/
  size : (d.trailer.lookup? "Size").bind Value.number? = some 6
  /-- The root of the file is its catalog, -/
  root : d.trailer.lookup? "Root" = some (.reference o.catalog.number) ∧
    o.catalog.value.HasType "Catalog"
  /-- which has a list of pages, -/
  pages : o.catalog.value.lookup? "Pages" = some (.reference o.list.number) ∧
    o.list.value.HasType "Pages"
  /-- whose only one is the page, -/
  kids : o.list.value.lookup? "Kids" = some (.group .array [.reference o.page.number]) ∧
    o.page.value.HasType "Page"
  /-- which is in that list, -/
  parent : o.page.value.lookup? "Parent" = some (.reference o.list.number)
  /-- has its size, -/
  box : ∃ w h, o.page.value.lookup? "MediaBox" =
    some (.group .array [.word (ascii "0"), .word (ascii "0"), .word (ascii w), .word (ascii h)]) ∧
      Says w width ∧ Says h height
  /-- has a font by the name that texts are shown with, -/
  face : o.page.value.path? ["Resources", "Font", "F1"] = some (.reference o.font.number) ∧
    o.font.value.HasType "Font"
  /-- and shows a stream with the content. -/
  contents : o.page.value.lookup? "Contents" = some (.reference o.contents.number) ∧
    o.contents.stream? = some content
  /-- No reference leads out of the file. -/
  closed : ∀ number ∈ d.trailer.references ++ d.objects.flatMap (·.value.references),
    number ∈ d.objects.map (·.number)

/-! ### The objects of a page -/

theorem Sheet.sound_objects (s : Sheet) : ∀ o ∈ s.objects, o.Sound := by
  have hname : Object.Sound (.font "Helvetica") :=
    List.all_eq_true.mp (by decide : (ascii "Helvetica").all isRegular = true)
  simp only [Sheet.objects, List.forall_mem_cons]
  exact ⟨trivial, trivial, trivial, hname, trivial, List.forall_mem_nil _⟩

/-- The objects of a page at some places of its file. -/
def Sheet.outline (s : Sheet) (a b c d e : Nat) : Outline where
  catalog := (Object.catalog 2).placed a 1
  list := (Object.pageList [3]).placed b 2
  page := (Object.page s.width.toFloat32 s.height.toFloat32 2 5 4).placed c 3
  font := (Object.font "Helvetica").placed d 4
  contents := (Object.stream s.content).placed e 5

theorem Sheet.exists_outline (s : Sheet) :
    ∃ a b c d e, (documentOf s.objects).objects = (s.outline a b c d e).objects :=
  ⟨_, _, _, _, _, rfl⟩

/-- What is found in the file of a page is what a page needs. -/
theorem Sheet.isPage_documentOf (s : Sheet) :
    ∃ o, (documentOf s.objects).IsPage o s.width.toFloat32 s.height.toFloat32 s.content := by
  obtain ⟨a, b, c, d, e, hobjects⟩ := s.exists_outline
  have hnumbers : (documentOf s.objects).objects.map (·.number) = [1, 2, 3, 4, 5] := by
    rw [hobjects]
    rfl
  refine ⟨s.outline a b c d e, ?_⟩
  constructor
  case objects => exact hobjects
  case numbers => exact hnumbers
  case size => exact size_documentOf s.objects
  case root => exact ⟨rfl, rfl⟩
  case pages => exact ⟨rfl, rfl⟩
  case kids => exact ⟨rfl, rfl⟩
  case parent => rfl
  case box => exact ⟨_, _, rfl, says_numberText _, says_numberText _⟩
  case face => exact ⟨rfl, rfl⟩
  case contents => exact ⟨rfl, rfl⟩
  case closed =>
    have hreferences : (documentOf s.objects).trailer.references ++
        (s.outline a b c d e).objects.flatMap (·.value.references) = [1, 2, 3, 2, 5, 4] := by
      simp [documentOf, trailerEntries, Outline.objects, Sheet.outline, Object.placed,
        Object.value, Object.entries, Value.references, Value.referencesAmong]
    rw [hnumbers, hobjects, hreferences]
    decide

/-- Calls leave the size of a page. -/
theorem size_drawAll (s : Sheet) (calls : List (Call Float)) :
    (Surface.drawAll s calls).width = s.width ∧ (Surface.drawAll s calls).height = s.height := by
  induction calls generalizing s with
  | nil => exact ⟨rfl, rfl⟩
  | cons call calls ih =>
    obtain ⟨hwidth, hheight⟩ := ih (s.draw call)
    exact ⟨hwidth.trans (s.width_draw call), hheight.trans (s.height_draw call)⟩

/-- **Every page is a well-formed file**, whatever its size and whatever was drawn on it. Calls are
drawn on a page exactly if it can hold them all; otherwise there is no file. The file is read to its
end; its five objects are there once each and in order; the table, the trailer and the lengths say
where and how long everything is; every reference is to an object of the right kind; and the stream
is the transcript of the calls. -/
theorem exists_read?_file (width height : Float) (calls : List (Call Float)) :
    let drawn := (Sheet.empty width height).takeAll calls
    ((∃ page, drawn = .ok page) ↔ ∀ call ∈ calls, holds call = true) ∧
    (drawn = .error .lineWidth ↔ ∃ call ∈ calls, holds call = false) ∧
    ∀ page, drawn = .ok page → ∃ d o content,
      Document.read? page.file = some d ∧ d.IsIndexed page.file ∧
        d.IsPage o width.toFloat32 height.toFloat32 content ∧ IsTranscript height calls content := by
  intro drawn
  have hnot : (∃ call ∈ calls, holds call = false) ↔ ¬∀ call ∈ calls, holds call = true := by simp
  by_cases hholds : ∀ call ∈ calls, holds call = true
  · have hdrawn : drawn = .ok (Surface.drawAll (Sheet.empty width height) calls) :=
      Sheet.takeAll_of_holds hholds
    rw [hnot, hdrawn]
    refine ⟨iff_of_true ⟨_, rfl⟩ hholds, iff_of_false nofun (not_not_intro hholds), ?_⟩
    rintro page ⟨⟩
    obtain ⟨o, ho⟩ := (Surface.drawAll (Sheet.empty width height) calls).isPage_documentOf
    obtain ⟨hwidth, hheight⟩ := size_drawAll (Sheet.empty width height) calls
    rw [hwidth, hheight] at ho
    exact ⟨_, o, _, read?_encodeFile (Sheet.sound_objects _), isIndexed_documentOf _, ho,
      isTranscript_content width height calls⟩
  · have hdrawn : drawn = .error .lineWidth := Sheet.takeAll_of_not_holds hholds
    rw [hnot, hdrawn]
    exact ⟨iff_of_false nofun hholds, iff_of_true rfl hholds, nofun⟩

/-- A text that looks like the end of the stream and the table after it. -/
theorem exists_read?_file_endstream :
    let calls : List (Call Float) := [.text ⟨36.0, 36.0⟩ "endstream endobj xref 0 6"]
    ∃ page, (Sheet.empty 612.0 792.0).takeAll calls = .ok page ∧ ∃ d o content,
      Document.read? page.file = some d ∧ d.IsIndexed page.file ∧
        d.IsPage o (612.0 : Float).toFloat32 (792.0 : Float).toFloat32 content ∧
        IsTranscript 792.0 calls content := by
  intro calls
  obtain ⟨hdrawn, -, hfile⟩ := exists_read?_file 612.0 792.0 calls
  obtain ⟨page, hpage⟩ := hdrawn.mpr (List.forall_mem_singleton.mpr rfl)
  exact ⟨page, hpage, hfile page hpage⟩

end TrafficSheet.Pdf
