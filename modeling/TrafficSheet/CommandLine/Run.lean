import TrafficSheet.Capture.Reader
import TrafficSheet.CommandLine.Options
import TrafficSheet.Report.Rendering
import TrafficSheet.Report.Summary

/-!
# Running the program

A run reads a capture, writes the page of its report, and prints its summary if it is asked
for. A capture that is at fault further on still gets its report, of the packets before the
fault, and a warning.

A warning stands in a log. A log is read on a terminal, which takes some characters for commands.
They are written as escapes, so that what stands in a file's name is shown and never done. Blanks,
tabs and the ends of lines stay as they are.

What is not formalized: the other lines of the log, which tell how long a run took and where its
page is, and a standard output that cannot be written to.
-/

namespace TrafficSheet.CommandLine.LogText

/-- The control characters of seven bits that ring, move the cursor back, clear the screen,
delete, or start a command. They are written with two hexadecimal digits. -/
def escapedControls : List (Char × String) :=
  [('\x07', "\\x07"), ('\x08', "\\x08"), ('\x0c', "\\x0c"), ('\x1b', "\\x1b"), ('\x7f', "\\x7f")]

/-- A character as it stands in a log. All control characters of eight bits can start a
command; they are written with their number in braces. -/
def escape (c : Char) : List Char :=
  match escapedControls.lookup c with
  | some text => text.toList
  | none =>
    if 0x80 ≤ c.toNat ∧ c.toNat ≤ 0x9f then
      ['\\', 'u', '\x7b'] ++ Nat.toDigits 16 c.toNat ++ ['\x7d']
    else [c]

/-- A text as it stands in a log. -/
def escaped (text : String) : String := String.ofList (text.toList.flatMap escape)

end TrafficSheet.CommandLine.LogText

/-! ### Running the program -/

namespace TrafficSheet.CommandLine

/-- Why a run fails. -/
inductive Failure where
  /-- The page would have no area. -/
  | pageSize
  /-- The capture cannot be opened. -/
  | opening (input : String) (error : CaptureError)
  /-- The page cannot be written. -/
  | rendering (error : RenderError)

/-- The line that tells of a failure. -/
def Failure.message : Failure → String
  | .pageSize => "Error: page size must be positive"
  | .opening input error => "Error opening '" ++ input ++ "': " ++ error.message
  | .rendering error => "Error: " ++ error.message

/-- What a run leaves behind, files apart. -/
structure Outcome where
  /-- Zero after success. -/
  exitCode : Nat
  /-- What is printed. -/
  stdout : String
  /-- The lines that tell what went wrong. -/
  errors : List String
  /-- The warnings, as they stand in the log. -/
  warnings : List String
  deriving DecidableEq

namespace Outcome

/-- A run that only prints something. -/
def printing (text : String) : Outcome := ⟨0, text, [], []⟩

/-- A run that fails. -/
def failing (failure : Failure) (warnings : List String) : Outcome :=
  ⟨1, "", [failure.message], warnings⟩

/-- A run that the arguments do not let start. -/
def misused (error : UsageError) : Outcome := ⟨2, "", [error.message], []⟩

end Outcome

/-- How the program is used. -/
def usage : String :=
  "Usage: netviz [OPTIONS] <INPUT>\n\n"
    ++ "  -o, --output-dir <DIR>         directory that the report is written to\n"
    ++ "      --filename <NAME>          name of the report's file\n"
    ++ "      --top-n <N>                labels listed below each chart, at most 50\n"
    ++ "      --header-font-size <SIZE>  font size of the header\n"
    ++ "      --top-list-font-size <SIZE>  font size of the lists\n"
    ++ "      --page-width <POINTS>      width of the page\n"
    ++ "      --page-height <POINTS>     height of the page\n"
    ++ "      --max-addresses <N>        addresses told apart on each side\n"
    ++ "      --json                     print the statistics as well\n"
    ++ "  -v, --verbose                  say more while running\n"
    ++ "  -q, --quiet                    give no warnings\n"
    ++ "  -h, --help                     print this text\n"
    ++ "  -V, --version                  print the version\n"

/-- Whether the page has a size that is refused. Not-a-number is not refused here. -/
def Options.refusesPage (o : Options) : Bool :=
  o.settings.page.width ≤ 0.0 || o.settings.page.height ≤ 0.0

/-- The report on a capture. -/
def Options.report (o : Options) (c : Capture) : Report :=
  (Report.empty o.input o.settings.addressLimit).countAll c.packets

/-- What is said of a capture that could not be read to its end. -/
def stoppedMessage (input : String) (packets : Nat) (fault : Capture.Fault) : String :=
  "Stopped reading '" ++ input ++ "' after " ++ Quantity.grouped packets ++ " packets: "
    ++ (CaptureError.fault fault).message

/-- The warning that a capture could not be read to its end. -/
def Options.warnings (o : Options) (c : Capture) : List String :=
  match c.fault?, o.quiet with
  | some fault, false => [LogText.escaped (stoppedMessage o.input c.records.length fault)]
  | _, _ => []

/-- What is printed on a report. -/
def Options.printed (o : Options) (zone : Zone) (r : Report) : String :=
  if o.json then (r.summary zone o.settings.listed).toJson.indented ++ "\n" else ""

variable {m : Type → Type} [Monad m] [Files m]

/-- Writes the report on a capture, and prints its summary. -/
def Options.finish (o : Options) (platform : Platform) (now : Timestamp) (c : Capture) :
    m (Except Abort Outcome) := do
  match ← (o.report c).render .pdf platform o.outputDirectory o.settings now with
  | .error reason => return .error reason
  | .ok (.error e) => return .ok (.failing (.rendering e) (o.warnings c))
  | .ok (.ok _) => return .ok ⟨0, o.printed platform.zone (o.report c), [], o.warnings c⟩

/-- Does what the options ask for. -/
def Options.run (o : Options) (platform : Platform) (now : Timestamp) :
    m (Except Abort Outcome) := do
  if o.refusesPage then return .ok (.failing .pageSize [])
  else
    match ← Capture.openAt o.input with
    | .error e => return .ok (.failing (.opening o.input e) [])
    | .ok capture => o.finish platform now capture

/-- Runs the program with arguments. -/
def run (arguments : List String) (platform : Platform) (now : Timestamp) :
    m (Except Abort Outcome) :=
  match Options.ofArguments arguments with
  | .error (.usage error) => pure (.ok (.misused error))
  | .error .version => pure (.ok (.printing (Page.title ++ "\n")))
  | .error .help => pure (.ok (.printing usage))
  | .ok options => options.run platform now

end TrafficSheet.CommandLine
