import RhythmClip.Clip
import RhythmClip.Text.Column
import RhythmClip.Text.Ink

/-!
# The listing of a clip

One line per event with its number, start, duration and what it does, and a
last line that sums up the clip. Numbers and times stand in columns; a time
that is too wide for its column pushes the rest of the line to the right.
-/
namespace RhythmClip

open Text

namespace Event

/-- What the event does, at the end of its line. -/
def describe (palette : Palette) (e : Event) : String :=
  match e.sound with
  | .note v =>
    paint palette Colour.cyan.ink v.text ++ " "
      ++ paint palette Emphasis.dim.ink ("vel " ++ decimal e.velocity.toNat)
  | .rest => paint palette Colour.brightBlack.ink "- rest"
  | .sustain => paint palette Colour.yellow.ink "_ sustain"

/-- The line of an event with a number and a start. -/
def line (palette : Palette) (number : Nat) (start : Ticks) (e : Event) : String :=
  alignRight 3 (decimal number) ++ "  @" ++ alignLeft 8 (Ticks.text start) ++ " "
    ++ alignLeft 8 (Ticks.text e.duration) ++ " " ++ e.describe palette

end Event

namespace Clip

/-- The lines of events that are numbered from `number` on. -/
def eventLines (palette : Palette) (number : Nat) : List (Ticks × Event) → List String
  | [] => []
  | (start, e) :: later => e.line palette number start :: eventLines palette (number + 1) later

def summary (c : Clip) : String :=
  decimal c.events.length ++ " events, " ++ decimal c.noteCount ++ " sounding, "
    ++ decimal c.slots ++ " slots of " ++ c.grid.name ++ " = " ++ Ticks.text c.total ++ " ticks"

/-- The lines of the events and the summary, with no line break at the end. -/
def listing (palette : Palette) (c : Clip) : String :=
  String.intercalate "\n"
    (eventLines palette 0 c.timeline ++ [paint palette Emphasis.dim.ink c.summary])

end Clip

end RhythmClip
