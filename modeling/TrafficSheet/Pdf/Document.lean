import TrafficSheet.Pdf.Sheet

/-!
# The file of a page

A file is a head, numbered objects, a table of where each object starts, and a trailer that
says where the table starts. A page takes five objects: the catalog, the list of pages, the
page, its font and its content stream.

What is not formalized: what else a file may have, such as compressed streams, several pages or
changes appended to it.
-/

namespace TrafficSheet.Pdf

/-- An object of a file. Objects refer to each other by number. -/
inductive Object where
  /-- The root of the file. -/
  | catalog (list : Nat)
  /-- The list of all pages. -/
  | pageList (kids : List Nat)
  /-- A page, with the list that it is in and with what it shows. -/
  | page (width height : Float32) (parent contents face : Nat)
  /-- One of the fonts that every reader has. -/
  | font (name : String)
  /-- A content stream. -/
  | stream (content : Bytes)

/-- How one object refers to another. -/
def reference (number : Nat) : String := toString number ++ " 0 R"

/-- What stands between the number and the end of an object. -/
def Object.body : Object → Bytes
  | .catalog list =>
    ascii ("<<\n  /Type /Catalog\n  /Pages " ++ reference list ++ "\n>>")
  | .pageList kids =>
    ascii ("<<\n  /Type /Pages\n  /Kids [" ++ " ".intercalate (kids.map reference)
      ++ "]\n  /Count " ++ toString kids.length ++ "\n>>")
  | .page width height parent contents face =>
    ascii ("<<\n  /Type /Page\n  /MediaBox [0 0 " ++ numberText width ++ " " ++ numberText height
      ++ "]\n  /Parent " ++ reference parent ++ "\n  /Contents " ++ reference contents
      ++ "\n  /Resources <<\n    /Font <<\n      /F1 " ++ reference face
      ++ "\n    >>\n  >>\n>>")
  | .font name =>
    ascii ("<<\n  /Type /Font\n  /Subtype /Type1\n  /BaseFont /" ++ name ++ "\n>>")
  | .stream content =>
    ascii ("<<\n  /Length " ++ toString content.length ++ "\n>>\nstream\n") ++ content
      ++ ascii "\nendstream"

/-- An object with its number. -/
def Object.encode (number : Nat) (o : Object) : Bytes :=
  ascii (toString number ++ " 0 obj\n") ++ o.body ++ ascii "\nendobj\n\n"

/-- The head of a file; the high bytes mark it as binary. -/
def head : Bytes := ascii "%PDF-1.7\n%" ++ [128, 128, 128, 128] ++ ascii "\n\n"

/-- The objects one after another, numbered from one. -/
def encodeObjects (objects : List Object) : List Bytes :=
  objects.zipIdx.map fun (o, i) => o.encode (i + 1)

/-- Where each part starts, if the first one starts at `start`. -/
def offsetsFrom : Nat → List Bytes → List Nat
  | _, [] => []
  | start, part :: parts => start :: offsetsFrom (start + part.length) parts

/-- A line of the table: twenty bytes that say where an object starts. -/
def tableLine (offset : Nat) : Bytes := ascii (Decimal.zeroPadded 10 offset ++ " 00000 n\r\n")

/-- The table of objects, led by the line that starts the list of unused numbers. -/
def table (offsets : List Nat) : Bytes :=
  ascii ("xref\n0 " ++ toString (offsets.length + 1) ++ "\n0000000000 65535 f\r\n")
    ++ offsets.flatMap tableLine

/-- The trailer of a file whose table starts at an offset. -/
def trailer (size root tableOffset : Nat) : Bytes :=
  ascii ("trailer\n<<\n  /Size " ++ toString size ++ "\n  /Root " ++ reference root
    ++ "\n>>\nstartxref\n" ++ toString tableOffset ++ "\n%%EOF")

/-- The file of objects, of which the first is the root. -/
def encodeFile (objects : List Object) : Bytes :=
  let parts := encodeObjects objects
  let tableOffset := head.length + parts.flatten.length
  head ++ parts.flatten ++ table (offsetsFrom head.length parts)
    ++ trailer (objects.length + 1) 1 tableOffset

/-- The objects of a page. -/
def Sheet.objects (s : Sheet) : List Object :=
  [.catalog 2, .pageList [3], .page s.width.toFloat32 s.height.toFloat32 2 5 4, .font "Helvetica",
   .stream s.content]

/-- The file of a page. -/
def Sheet.file (s : Sheet) : Bytes := encodeFile s.objects

end TrafficSheet.Pdf
