import RhythmClip.CommandTable
import RhythmClip.Session.Edit
import RhythmClip.Session.View
import RhythmClip.Text.Lines

/-!
# Sessions

A line is a command or, when it is no command, a pattern that is compiled
with the present settings. Running a session prints what its lines print, up
to the line that ends it or to the farewell after the last one.

* `settings_bare`: a bare pattern changes no setting.
-/
namespace RhythmClip.Session

open Text

inductive Command where
  | notes | pattern | subdivision | accent | velocity | clip | json | chord
  | overview | reset | help | quit
  deriving DecidableEq, Repr

def commands : CommandTable Command :=
  .ofList
    [("notes", .notes), ("pattern", .pattern), ("subdiv", .subdivision), ("accent", .accent),
      ("velocity", .velocity), ("clip", .clip), ("json", .json), ("chord", .chord),
      ("show", .overview), ("reset", .reset), ("help", .help), ("quit", .quit), ("exit", .quit)]

def Command.run (palette : Palette) (arg : String) (s : Settings) : Command → Step
  | .notes => Session.notes palette arg s
  | .pattern => Session.pattern palette arg s
  | .subdivision => Session.subdivision arg s
  | .accent => Session.accent arg s
  | .velocity => Session.velocity arg s
  | .clip => Session.clip palette arg s
  | .json => Session.json s
  | .chord => Session.chord palette arg s
  | .overview => Session.overview palette s
  | .reset => Session.reset s
  | .help => Session.help palette s
  | .quit => { reply := .exit, settings := s }

/-- Runs a line as a command. -/
def execute (palette : Palette) (line : String) (s : Settings) : Step :=
  match commands.lookup line with
  | some (command, arg) => command.run palette arg s
  | none => { reply := .notACommand, settings := s }

/-- Compiles a line as a pattern, if it has no character that is foreign to patterns. -/
def bare (palette : Palette) (line : String) (s : Settings) : Step :=
  match Pattern.check line with
  | .error _ => .refuse s (.unknownLine line)
  | .ok _ => clip palette line s

/-- A line as it is typed: a command, else a bare pattern. -/
def step (palette : Palette) (line : String) (s : Settings) : Step :=
  let executed := execute palette line s
  match executed.reply with
  | .notACommand => bare palette line s
  | _ => executed

/-! ## What is shown -/

def goodbye (palette : Palette) : String :=
  paint palette Colour.brightCyan.ink "Goodbye!" ++ " 🎵\n"

def Reply.shown (palette : Palette) : Reply → String
  | .success | .notACommand => ""
  | .message text => text ++ "\n"
  | .exit => goodbye palette
  | .error complaint =>
    paint palette Colour.brightRed.boldInk "Error:" ++ " "
      ++ paint palette Colour.red.ink complaint.text ++ "\n"

/-- All that a step puts on the screen. -/
def Step.shown (palette : Palette) (step : Step) : String :=
  step.printed ++ step.reply.shown palette

def banner (palette : Palette) : String :=
  let sample := paint palette Colour.cyan.ink
  let leave := paint palette Colour.brightRed.ink
  paint palette Colour.brightYellow.ink "🎵" ++ " "
    ++ paint palette Colour.brightCyan.boldInk "clipnotes pattern compiler" ++ "\n"
    ++ "Try: " ++ sample "notes c4 e4 CM" ++ ", " ++ sample "pattern x[xx]-" ++ ", "
    ++ sample "clip" ++ "\n"
    ++ "Type '" ++ paint palette Colour.brightGreen.ink "help" ++ "' for more information, '"
    ++ leave "quit" ++ "' or " ++ leave "Ctrl+D" ++ " to exit.\n\n"

/-- What the given lines show, from the settings on. -/
def transcript (palette : Palette) (s : Settings) : List String → String
  | [] => goodbye palette
  | line :: later =>
    let done := step palette line s
    done.shown palette ++
      match done.reply with
      | .exit => ""
      | _ => transcript palette done.settings later

/-- What a session shows for a whole input; lines that say nothing are passed over. -/
def run (palette : Palette) (input : String) : String :=
  banner palette ++ transcript palette {} (fullLines input)

/-! ## Small facts -/

theorem settings_bare (palette : Palette) (line : String) (s : Settings) :
    (bare palette line s).settings = s := by
  unfold bare
  split
  · rfl
  · exact settings_clip palette line s

end RhythmClip.Session
