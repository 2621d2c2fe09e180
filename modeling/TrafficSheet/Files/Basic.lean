import TrafficSheet.Bytes

/-!
# Reading and writing files

What a program needs of a file system: to read a whole file and to write one. Both are given
by a class, so that the same program runs on the files of a machine and on a tree of files
in memory. What is proved of programs is proved of all files with states (`LawfulFiles`), of
whatever kind the states are; nothing is said of when a file can be written.
-/

namespace TrafficSheet

/-- Why a file cannot be read or written. -/
inductive FileError where
  /-- There is no such file, or no directory to put it in. -/
  | notFound
  /-- Something on the way to the file is no directory. -/
  | notADirectory
  /-- There is a directory where a file is to be written. -/
  | isADirectory
  /-- The path or one of its names is too long. -/
  | nameTooLong
  /-- The path contains the character that ends paths. -/
  | containsNull
  /-- Anything else that the machine reports, with its number. -/
  | other (description : String) (number : Nat)
  deriving DecidableEq

/-- A description with the number that the machine gives it. -/
def numberedMessage (description : String) (number : Nat) : String :=
  description ++ " (os error " ++ toString number ++ ")"

/-- The text of an error. -/
def FileError.message : FileError → String
  | .notFound => numberedMessage "No such file or directory" 2
  | .notADirectory => numberedMessage "Not a directory" 20
  | .isADirectory => numberedMessage "Is a directory" 21
  | .nameTooLong => numberedMessage "File name too long" 36
  | .containsNull => "file name contained an unexpected NUL byte"
  | .other description number => numberedMessage description number

/-- A place where files are read and written. -/
class Files (m : Type → Type) where
  /-- All bytes of a file. A directory can be opened, but holds no bytes. -/
  read : String → m (Except FileError Bytes)
  /-- Makes a file with the given bytes, in place of the file that is there. -/
  write : String → Bytes → m (Except FileError Unit)

namespace Files

variable {σ : Type} [Files (StateM σ)]

/-- What is read at a path, in a state of all files. -/
def readIn (s : σ) (path : String) : Except FileError Bytes := ((read path : StateM σ _).run s).1

/-- Whether a file can be written in a state of all files, and the state after it. -/
def writeIn (s : σ) (path : String) (bytes : Bytes) : Except FileError Unit × σ :=
  (write path bytes : StateM σ _).run s

end Files

/-- Files with states, of which reading changes nothing. -/
class LawfulFiles (σ : Type) [Files (StateM σ)] : Prop where
  /-- All files are as they were after one of them was read. -/
  read_keeps (path : String) (s : σ) :
    ((Files.read path : StateM σ (Except FileError Bytes)).run s).2 = s

/-- The path of a file in a directory; an absolute path stays as it is. -/
def joinPath (directory file : String) : String :=
  if file.startsWith "/" || directory.isEmpty then file
  else if directory.endsWith "/" then directory ++ file
  else directory ++ "/" ++ file

end TrafficSheet
