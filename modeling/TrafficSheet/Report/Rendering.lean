import TrafficSheet.Files.Basic
import TrafficSheet.Page.Basic
import TrafficSheet.Pdf.Document

/-!
# Writing the page of a report

A backend turns a page into a file. There is one that writes page descriptions, and one
that draws nothing, for programs that only want the statistics.

What is not formalized: what is left of a file when it cannot be written to its end.
-/

namespace TrafficSheet

/-- A way of turning pages into files. -/
inductive Backend where
  /-- Writes page descriptions. -/
  | pdf
  /-- Draws nothing. -/
  | none
  deriving DecidableEq

/-- Why no page was written. -/
inductive RenderError where
  /-- The file could not be written. -/
  | file (error : FileError)
  /-- The page would have no area. -/
  | invalidPageSize (width height : Float)
  /-- The backend draws nothing. -/
  | noBackend

/-- The text of an error. -/
def RenderError.message : RenderError → String
  | .file error => "I/O error: " ++ error.message
  | .invalidPageSize width height =>
    "backend error: invalid page size " ++ (Decimal.Number.ofFloat width).text .plain ++ "x"
      ++ (Decimal.Number.ofFloat height).text .plain
  | .noBackend => "backend error: no drawing backend in this build"

namespace Backend

/-- The name of a backend. -/
def name : Backend → String
  | .pdf => "pdf"
  | .none => "none"

/-- Whether a backend can draw. -/
def isAvailable : Backend → Bool
  | .pdf => true
  | .none => false

/-- An empty page of the given size, if the backend can make one. Not-a-number is no size. -/
def create (b : Backend) (width height : Float) : Except RenderError Pdf.Sheet :=
  match b with
  | .none => .error .noBackend
  | .pdf =>
    if 0.0 < width && 0.0 < height then .ok (.empty width height)
    else .error (.invalidPageSize width height)

end Backend

/-- The page of a report. -/
def Report.page (platform : Platform) (settings : Settings Float) (generated : Timestamp)
    (r : Report) : Page Float where
  settings
  report := r
  generated
  content := settings.content
  platform

/-- The calls that draw a page in its place on the paper, as far as the drawing gets. -/
def Page.placedCalls (p : Page Float) : List (Call Float) :=
  .shift p.content.x p.content.y :: p.run.1

/-- The file of a page that is drawn on an empty sheet. -/
def Page.file (p : Page Float) (sheet : Pdf.Sheet) : Except Abort Bytes := do
  let drawn ← sheet.takeAll p.placedCalls
  let _ ← p.run.2
  return drawn.file

/-- The file of a report's page. -/
def Report.file (b : Backend) (platform : Platform) (settings : Settings Float)
    (generated : Timestamp) (r : Report) : Except Abort (Except RenderError Bytes) :=
  match b.create settings.page.width settings.page.height with
  | .error e => .ok (.error e)
  | .ok sheet => ((r.page platform settings generated).file sheet).map .ok

/-- Writes the page of a report into a directory, and says where it was written to. A
backend that draws nothing writes nothing. -/
def Report.render {m : Type → Type} [Monad m] [Files m] (b : Backend) (platform : Platform)
    (directory : String) (settings : Settings Float) (generated : Timestamp) (r : Report) :
    m (Except Abort (Except RenderError (Option String))) :=
  if b.isAvailable then
    match r.file b platform settings generated with
    | .error reason => pure (.error reason)
    | .ok (.error e) => pure (.ok (.error e))
    | .ok (.ok bytes) => do
      let path := joinPath directory settings.filename
      match ← Files.write path bytes with
      | .error e => return .ok (.error (.file e))
      | .ok () => return .ok (.ok (some path))
  else pure (.ok (.ok none))

end TrafficSheet
