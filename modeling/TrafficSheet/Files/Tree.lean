import TrafficSheet.Files.Basic

/-!
# Files in memory

A tree of directories and files, seen from a current directory. Paths are followed name by
name: a single dot stays, two dots go up, and every name but the last has to be that of a
directory.

What is not formalized: links, rights, devices, and the space that files take. A program that needs
to know of them is run on other files (`Files`).
-/

namespace TrafficSheet

/-- What stands at a location. -/
inductive FileNode where
  /-- A file with its bytes. -/
  | file (bytes : Bytes)
  /-- A directory. -/
  | directory
  deriving DecidableEq

/-- A location: the names on the way to it from the root. -/
abbrev Location := List String

/-- Directories and files. -/
structure FileTree where
  /-- All locations below the root at which there is something. -/
  nodes : List (Location × FileNode)
  /-- Where relative paths start. -/
  current : Location
  deriving DecidableEq

namespace FileTree

/-- A tree of one empty directory, which is the current one. -/
def empty : FileTree where
  nodes := [(["work"], .directory)]
  current := ["work"]

/-- What stands at a location; the root is a directory. -/
def node? (t : FileTree) (l : Location) : Option FileNode :=
  if l.isEmpty then some .directory else t.nodes.lookup l

/-- Puts something at a location. -/
def put (t : FileTree) (l : Location) (node : FileNode) : FileTree :=
  { t with nodes := (l, node) :: t.nodes.filter (·.1 != l) }

/-! ### Following paths -/

/-- The longest name, in bytes. -/
def nameLimit : Nat := 255

/-- The length, in bytes, that a path stays below. -/
def pathLimit : Nat := 4096

/-- Where a name leads from a location, whether or not there is anything. -/
def step (t : FileTree) (l : Location) (name : String) : Except FileError Location :=
  match t.node? l with
  | none => .error .notFound
  | some (.file _) => .error .notADirectory
  | some .directory =>
    if name = "." then .ok l
    else if name = ".." then .ok l.dropLast
    else if nameLimit < name.utf8ByteSize then .error .nameTooLong
    else .ok (l ++ [name])

/-- The names of a path. -/
def names (path : String) : List String :=
  ((path.toList.splitOn '/').map String.ofList).filter (· != "")

/-- Where names lead that stand in a path, whether or not there is anything. -/
def follow (t : FileTree) (path : String) (names : List String) : Except FileError Location :=
  if path.toList.contains '\x00' then .error .containsNull
  else if path.isEmpty then .error .notFound
  else if pathLimit ≤ path.utf8ByteSize then .error .nameTooLong
  else names.foldlM t.step (if path.startsWith "/" then [] else t.current)

/-- Where a path leads, whether or not there is anything. -/
def resolve (t : FileTree) (path : String) : Except FileError Location := t.follow path (names path)

/-! ### Reading and writing -/

/-- All bytes of the file that a path leads to. -/
def read (t : FileTree) (path : String) : Except FileError Bytes :=
  match t.resolve path with
  | .error e => .error e
  | .ok l =>
    match t.node? l with
    | none => .error .notFound
    | some .directory => .ok []
    | some (.file bytes) => if path.endsWith "/" then .error .notADirectory else .ok bytes

/-- The names that are followed to write a file. A slash at the end of a path asks for a
directory, where no file can be written: its last name is not even looked at. -/
def writtenNames (path : String) : List String :=
  if path.endsWith "/" then (names path).dropLast ++ ["."] else names path

/-- The location at which a path lets a file be written. -/
def target (t : FileTree) (path : String) : Except FileError Location :=
  match t.follow path (writtenNames path) with
  | .error e => .error e
  | .ok l => if t.node? l = some .directory then .error .isADirectory else .ok l

/-- The tree with a file written. -/
def write (t : FileTree) (path : String) (bytes : Bytes) : Except FileError FileTree :=
  (t.target path).map fun l => t.put l (.file bytes)

/-- Makes directories one inside the other, from a location on, where there is nothing yet. -/
def makeDirectories (t : FileTree) (l : Location) : List String → FileTree
  | [] => t
  | name :: rest =>
    let below := l ++ [name]
    let made := if (t.node? below).isSome then t else t.put below .directory
    made.makeDirectories below rest

/-- Makes the directories of a relative path. -/
def makeDirectory (t : FileTree) (path : String) : FileTree :=
  t.makeDirectories t.current (names path)

end FileTree

/-- Programs on a tree of files keep the tree as their state. -/
instance : Files (StateM FileTree) where
  read path := fun t => (t.read path, t)
  write path bytes := fun t =>
    match t.write path bytes with
    | .ok written => (.ok (), written)
    | .error e => (.error e, t)

end TrafficSheet
