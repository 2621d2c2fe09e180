import Std.Time.Zoned
import TrafficSheet.CommandLine.Run

/-!
# The program

Runs the command line on the files of the machine, and tells the outcome: what is printed on
the standard output, warnings and errors on the standard error.

What is not formalized: the machine itself. Nothing is proved of this layer, which only carries
bytes and texts from the machine to `CommandLine.run` and back.
-/

namespace TrafficSheet

/-- The number of an error in a word of 32 bits, where some calls of the machine negate it. -/
def plainNumber (word : UInt32) : Nat :=
  if 0x80000000 ≤ word then (0 - word).toNat else word.toNat

/-- The error that the machine reports under a number. -/
def FileError.ofNumber (word : UInt32) (description : String) : FileError :=
  match plainNumber word with
  | 2 => .notFound
  | 20 => .notADirectory
  | 21 => .isADirectory
  | 36 => .nameTooLong
  | number => .other description number

/-- The error behind an exception. -/
def FileError.ofException : IO.Error → FileError
  | .noFileOrDirectory _ number description => .ofNumber number description
  | .inappropriateType _ number description => .ofNumber number description
  | .invalidArgument _ number description => .ofNumber number description
  | .permissionDenied _ number description => .ofNumber number description
  | .resourceExhausted _ number description => .ofNumber number description
  | .alreadyExists _ number description => .ofNumber number description
  | .noSuchThing _ number description => .ofNumber number description
  | .otherError number description => .ofNumber number description
  | error => .other (toString error) 0

instance : Files IO where
  read path := do
    try
      return .ok (← IO.FS.readBinFile path).toList
    catch e =>
      match FileError.ofException e with
      | .isADirectory => return .ok []
      | error => return .error error
  write path bytes := do
    try
      IO.FS.writeBinFile path (ByteArray.mk bytes.toArray)
      return .ok ()
    catch e => return .error (.ofException e)

/-- The time of the machine's clock. -/
def currentTime : IO Timestamp := do
  let now ← Std.Time.Timestamp.now
  return ⟨now.toSecondsSinceUnixEpoch.val, 0⟩

/-- The zone of the machine, or that of universal time if the machine says none. -/
def localZone : IO Zone := do
  try
    let rules ← Std.Time.Database.defaultGetLocalZoneRules
    return ⟨fun seconds =>
      (rules.timezoneAt (.ofSecondsSinceUnixEpoch (.ofInt seconds))).offset.second.val⟩
  catch _ => return .universal

/-- The machine itself. -/
def thisMachine : IO Platform := return ⟨.wraps, ← localZone⟩

/-- Tells an outcome, and gives its exit code. -/
def CommandLine.Outcome.tell (o : Outcome) : IO UInt32 := do
  for warning in o.warnings do
    IO.eprintln ("WARN " ++ warning)
  for error in o.errors do
    IO.eprintln error
  IO.print o.stdout
  return UInt32.ofNat o.exitCode

end TrafficSheet

/-- Runs the program with its arguments. -/
def main (arguments : List String) : IO UInt32 := do
  let machine ← TrafficSheet.thisMachine
  match ← TrafficSheet.CommandLine.run arguments machine (← TrafficSheet.currentTime) with
  | .ok outcome => outcome.tell
  | .error reason =>
    IO.eprintln reason.message
    return 101
