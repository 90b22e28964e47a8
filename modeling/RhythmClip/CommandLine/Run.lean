import RhythmClip.CommandLine.Request
import RhythmClip.Session
import RhythmClip.Settings.Json

/-!
# Running the command line

A run ends with an exit code and two texts. A request that fails says so on
the error stream, with the cause below it, and prints nothing else.
-/
namespace RhythmClip.CommandLine

/-- How a run ends. The code is 0 for success, 1 for a failed request and 2
for arguments that cannot be read. -/
structure Outcome where
  code : UInt32
  stdout : String
  stderr : String
  records : List Record := []
  deriving DecidableEq, Repr

/-- What went wrong, and perhaps why. -/
structure Failure where
  headline : String
  cause : Option String
  deriving DecidableEq, Repr

/-- Indents the lines after the first like the first. -/
def indentRest (s : String) : String :=
  String.ofList (s.toList.flatMap fun c => if c = '\n' then ['\n', ' ', ' ', ' ', ' '] else [c])

def Failure.report (f : Failure) : String :=
  match f.cause with
  | none => "Error: " ++ f.headline ++ "\n"
  | some cause => "Error: " ++ f.headline ++ "\n\nCaused by:\n    " ++ indentRest cause ++ "\n"

namespace Outcome

def success (stdout : String) (records : List Record) : Outcome := ⟨0, stdout, "", records⟩

def failure (f : Failure) (records : List Record) : Outcome := ⟨1, "", f.report, records⟩

end Outcome

/-! ## Compiling -/

/-- The settings with what the request overrides. -/
def CompileRequest.override (r : CompileRequest) (s : Settings) : Settings :=
  { s with
    notes := (r.notes.map .text).getD s.notes
    pattern := r.pattern.getD s.pattern
    subdivision := r.subdivision.getD s.subdivision
    velocity := r.velocity.getD s.velocity
    accentMap := r.accent.getD s.accentMap
    accentHi := r.accentHi.getD s.accentHi
    accentLo := r.accentLo.getD s.accentLo }

/-- The settings in the file of the request, or the defaults if it names none. -/
def CompileRequest.base (readFile : String → Except String String) (r : CompileRequest) :
    Except Failure Settings :=
  match r.params with
  | none => .ok {}
  | some path =>
    match readFile path with
    | .error why => .error ⟨"Failed to read " ++ path, some why⟩
    | .ok text =>
      match Settings.parse text with
      | .error fault => .error ⟨"Invalid params in " ++ path, some fault.message⟩
      | .ok s => .ok s

def runCompile (palette : Text.Palette) (readFile : String → Except String String)
    (r : CompileRequest) : Outcome :=
  match r.base readFile with
  | .error failure => .failure failure []
  | .ok s =>
    let compiled := Attempt.compile standardChords (r.override s)
    match compiled.outcome with
    | .error fault => .failure ⟨"Failed to compile clip", some fault.message⟩ compiled.records
    | .ok clip =>
      .success ((if r.json then clip.json else clip.listing palette) ++ "\n") compiled.records

/-! ## The other requests -/

def runChord (name : String) : Outcome :=
  let resolved := Attempt.resolveEntry standardChords (.token name)
  match resolved.outcome with
  | .error fault => .failure ⟨fault.message, none⟩ resolved.records
  | .ok v => .success (name ++ ": " ++ v.text ++ "\n") resolved.records

def perform (palette : Text.Palette) (readFile : String → Except String String) (input : String) :
    Request → Outcome
  | .compile r => runCompile palette readFile r
  | .chord name => runChord name
  | .session => .success (Session.run palette input) []

/-! ## Usage -/

def versionText : String := "clipnotes 0.1.0\n"

/-- The help, in a wording of this library and the same on every topic. The
program prints what its parser of arguments makes of the options. -/
def helpText : String :=
  "Compile rhythm patterns and note lists into note events\n\n"
    ++ "Usage: clipnotes [OPTIONS] [COMMAND]\n\n"
    ++ "Commands:\n"
    ++ "  compile  Compile a single clip and print its events\n"
    ++ "  chord    Show what a note token or chord name resolves to\n"
    ++ "  repl     Start an interactive session\n"
    ++ "  help     Print this message\n\n"
    ++ "Options:\n"
    ++ "  -v, --verbose...  Log more (repeat for trace output)\n"
    ++ "  -h, --help        Print help\n"
    ++ "  -V, --version     Print version\n"

/-- An option as it is written with its long name. -/
def Choice.text (c : Choice) : String :=
  match compileOptions.find? fun o => o.choice = c with
  | some o => "--" ++ o.long
  | none => "--version"

/-- What is wrong with the arguments, in a wording of this library. The program
has other texts for it, with the usage below them; the exit code is the same. -/
def UsageFault.text : UsageFault → String
  | .unknownOption arg => "unexpected argument '" ++ arg ++ "' found"
  | .unwantedValue arg => "unexpected value in '" ++ arg ++ "'"
  | .missingValue p =>
    "a value is required for '" ++ (Choice.parameter p).text ++ "' but none was supplied"
  | .badValue p value => "invalid value '" ++ value ++ "' for '" ++ (Choice.parameter p).text ++ "'"
  | .repeated c => "the argument '" ++ c.text ++ "' cannot be used multiple times"
  | .extraOperand text => "unexpected argument '" ++ text ++ "' found"
  | .missingName => "the name of a note or a chord is required"
  | .unknownCommand name => "unrecognized subcommand '" ++ name ++ "'"

def Stop.outcome : Stop → Outcome
  | .version => .success versionText []
  | .help => .success helpText []
  | .fault cause =>
    ⟨2, "", "error: " ++ cause.text ++ "\n\nFor more information, try '--help'.\n", []⟩

/-- Runs arguments, with the files that can be read and the whole input. -/
def run (palette : Text.Palette) (readFile : String → Except String String) (input : String)
    (args : List String) : Outcome :=
  match invocation 0 args with
  | .ok i => perform palette readFile input i.request
  | .error stop => stop.outcome

end RhythmClip.CommandLine
