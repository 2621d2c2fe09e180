import TrafficSheet.Decimal.Reader
import TrafficSheet.Page.Basic

/-!
# The options of the command line

Arguments are taken from left to right. One that starts with two dashes names an option in
full, one that starts with a single dash holds the letters of options, and any other one is
the capture to read. An option that needs a value takes the rest of its argument or the
whole next one. The first thing that is wrong ends the reading, and so does a request for
the version or for help. After two dashes alone nothing is an option any more.

What is not formalized: how much is said while running, for which there is an option that
changes nothing else, and the words in which misuse is explained.
-/

namespace TrafficSheet.CommandLine

open Decimal

/-- An option that is there or not. -/
inductive Flag where
  /-- Print the statistics as well. -/
  | json
  /-- Say more while running, which changes no outcome. -/
  | verbose
  /-- Give no warnings. -/
  | quiet
  /-- Only print the version. -/
  | version
  /-- Only print how the program is used. -/
  | help
  deriving DecidableEq

/-- An option that has a value. -/
inductive Setting where
  /-- The directory that the report is written to. -/
  | outputDirectory
  /-- The name of the report's file. -/
  | filename
  /-- How many labels are listed below a chart. -/
  | listed
  /-- The font size of the header. -/
  | headerSize
  /-- The font size of the lists. -/
  | listSize
  /-- The width of the page. -/
  | pageWidth
  /-- The height of the page. -/
  | pageHeight
  /-- How many addresses are told apart. -/
  | addressLimit
  deriving DecidableEq

/-- What an option's name stands for. -/
inductive Named where
  /-- A flag. -/
  | flag (flag : Flag)
  /-- A setting. -/
  | setting (setting : Setting)
  deriving DecidableEq

/-- The options by their full names. -/
def Named.ofName? : String → Option Named
  | "output-dir" => some (.setting .outputDirectory)
  | "filename" => some (.setting .filename)
  | "top-n" => some (.setting .listed)
  | "header-font-size" => some (.setting .headerSize)
  | "top-list-font-size" => some (.setting .listSize)
  | "page-width" => some (.setting .pageWidth)
  | "page-height" => some (.setting .pageHeight)
  | "max-addresses" => some (.setting .addressLimit)
  | "json" => some (.flag .json)
  | "verbose" => some (.flag .verbose)
  | "quiet" => some (.flag .quiet)
  | "version" => some (.flag .version)
  | "help" => some (.flag .help)
  | _ => none

/-- The options by their letters. -/
def Named.ofLetter? : Char → Option Named
  | 'o' => some (.setting .outputDirectory)
  | 'v' => some (.flag .verbose)
  | 'q' => some (.flag .quiet)
  | 'V' => some (.flag .version)
  | 'h' => some (.flag .help)
  | _ => none

/-- What may be wrong with the arguments. -/
inductive UsageError where
  /-- There is no such option. -/
  | unknown (argument : String)
  /-- An option has no value. -/
  | missingValue
  /-- An option has a value that it cannot have. -/
  | badValue (value : String)
  /-- An option takes no value, but has one. -/
  | needlessValue (value : String)
  /-- An option, or the capture, is given twice. -/
  | repeated
  /-- No capture is given. -/
  | missingInput
  deriving DecidableEq

/-- The line that tells what is wrong. -/
def UsageError.message : UsageError → String
  | .unknown argument => "error: unexpected argument '" ++ argument ++ "'"
  | .missingValue => "error: an option needs a value"
  | .badValue value => "error: invalid value '" ++ value ++ "'"
  | .needlessValue value => "error: unexpected value '" ++ value ++ "'"
  | .repeated => "error: an argument is given more often than once"
  | .missingInput => "error: no capture is given"

/-- Why the reading of arguments ends before the program can run. -/
inductive Stop where
  /-- Something is wrong. -/
  | usage (error : UsageError)
  /-- The version is to be printed. -/
  | version
  /-- Help is to be printed. -/
  | help
  deriving DecidableEq

/-- What the program is asked to do. -/
structure Options where
  /-- The path of the capture. -/
  input : String
  /-- The directory that the report is written to. -/
  outputDirectory : String
  /-- The settings of the report. -/
  settings : Settings Float
  /-- Whether the statistics are printed as well. -/
  json : Bool
  /-- Whether warnings are kept back. -/
  quiet : Bool

/-- What is known while arguments are read. -/
structure Draft where
  /-- The capture, if it was given. -/
  input? : Option String
  /-- The options as far as they were given, and as they are otherwise. -/
  options : Options
  /-- The settings that were given. -/
  given : List Setting

namespace Draft

/-- Before the first argument. -/
def initial : Draft where
  input? := none
  options := ⟨"", ".", .standard, false, false⟩
  given := []

/-! ### Taking arguments -/

/-- Takes a capture. A path has at least one character. -/
def takeInput (d : Draft) (path : String) : Except Stop Draft :=
  if d.input?.isSome then .error (.usage .repeated)
  else if path.isEmpty then .error (.usage (.badValue path))
  else .ok { d with input? := some path }

/-- Takes a flag. It may be given once, but that for saying more any number of times. -/
def takeFlag (d : Draft) : Flag → Except Stop Draft
  | .verbose => .ok d
  | .version => .error .version
  | .help => .error .help
  | .json =>
    if d.options.json then .error (.usage .repeated)
    else .ok { d with options := { d.options with json := true } }
  | .quiet =>
    if d.options.quiet then .error (.usage .repeated)
    else .ok { d with options := { d.options with quiet := true } }

/-- Changes the settings of the report by a number, if the number could be read. -/
def setNumber {α : Type} (o : Options) (number? : Option α)
    (change : α → Settings Float → Settings Float) : Option Options :=
  number?.map fun number => { o with settings := change number o.settings }

/-- The options with one setting changed to a value, if it can have that value. -/
def change? (o : Options) (value : String) : Setting → Option Options
  | .outputDirectory => if value.isEmpty then none else some { o with outputDirectory := value }
  | .filename => some { o with settings := { o.settings with filename := value } }
  | .listed => setNumber o (readNat? Settings.mostListed value) .withListed
  | .headerSize => setNumber o (readFloat? value) fun x s => { s with headerSize := x }
  | .listSize => setNumber o (readFloat? value) fun x s => { s with listSize := x }
  | .pageWidth =>
    setNumber o (readFloat? value) fun x s => { s with page := { s.page with width := x } }
  | .pageHeight =>
    setNumber o (readFloat? value) fun x s => { s with page := { s.page with height := x } }
  | .addressLimit =>
    setNumber o (readNat? 0xFFFFFFFFFFFFFFFF value) fun n s => { s with addressLimit := n }

/-- Takes a setting, which may be given once. -/
def takeSetting (d : Draft) (setting : Setting) (value : String) : Except Stop Draft :=
  if d.given.contains setting then .error (.usage .repeated)
  else
    match change? d.options value setting with
    | some options => .ok { d with options, given := setting :: d.given }
    | none => .error (.usage (.badValue value))

/-! ### Taking an argument apart -/

/-- Takes letters of options; gives the setting that the last letter leaves without a value. -/
def takeLetters (d : Draft) : List Char → Except Stop (Draft × Option Setting)
  | [] => .ok (d, none)
  | letter :: rest =>
    match Named.ofLetter? letter with
    | none => .error (.usage (.unknown (String.ofList ['-', letter])))
    | some (.flag flag) => do (← d.takeFlag flag).takeLetters rest
    | some (.setting setting) =>
      match rest with
      | [] => .ok (d, some setting)
      | '=' :: value => do return (← d.takeSetting setting (String.ofList value), none)
      | value => do return (← d.takeSetting setting (String.ofList value), none)

/-- Takes an option by its full name, with what stands after an equals sign if there is one;
gives the setting that is left without a value. -/
def takeName (d : Draft) (name : String) (value? : Option String) :
    Except Stop (Draft × Option Setting) :=
  match Named.ofName? name, value? with
  | none, _ => .error (.usage (.unknown ("--" ++ name)))
  | some (.flag _), some value => .error (.usage (.needlessValue value))
  | some (.flag flag), none => do return (← d.takeFlag flag, none)
  | some (.setting setting), some value => do return (← d.takeSetting setting value, none)
  | some (.setting setting), none => .ok (d, some setting)

/-- The part before the first equals sign, and the part after it if there is one. -/
def splitValue (cs : List Char) : String × Option String :=
  let name := cs.takeWhile (· != '=')
  match cs.dropWhile (· != '=') with
  | [] => (String.ofList name, none)
  | _ :: value => (String.ofList name, some (String.ofList value))

/-- Takes an argument; gives the setting whose value is the next one. -/
def takeArgument (d : Draft) (argument : String) : Except Stop (Draft × Option Setting) :=
  match argument.toList with
  | '-' :: '-' :: name => d.takeName (splitValue name).1 (splitValue name).2
  | '-' :: letter :: rest => d.takeLetters (letter :: rest)
  | _ => do return (← d.takeInput argument, none)

/-- Whether an argument can be the value of the option before it. -/
def isValue (argument : String) : Bool := argument = "-" || !argument.startsWith "-"

/-- Takes arguments one after another. -/
def takeAll (d : Draft) : List String → Except Stop Draft
  | [] => .ok d
  | argument :: rest =>
    if argument = "--" then rest.foldlM takeInput d
    else
      match d.takeArgument argument with
      | .error stop => .error stop
      | .ok (next, none) => next.takeAll rest
      | .ok (next, some setting) =>
        match rest with
        | [] => .error (.usage .missingValue)
        | value :: others =>
          if isValue value then do (← next.takeSetting setting value).takeAll others
          else .error (.usage .missingValue)

end Draft

/-- Reads the arguments of the program. -/
def Options.ofArguments (arguments : List String) : Except Stop Options := do
  let draft ← Draft.initial.takeAll arguments
  match draft.input? with
  | some input => return { draft.options with input }
  | none => .error (.usage .missingInput)

end TrafficSheet.CommandLine
