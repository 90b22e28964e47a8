import RhythmClip.Text.Blank
import RhythmClip.Text.Typed

/-!
# Lines

The lines of a text lie between its line feeds. A typed line counts for what
its backspaces leave of it, trimmed. A carriage return is a blank, so at the
end of a line it disappears with the trimming.

* `lines_append`: a line feed ends the last line of the text before it.
* `fullLines_append`: the same for the lines that are not blank.
-/
namespace RhythmClip.Text

def lines (s : String) : List String := (s.toList.splitOn '\n').map String.ofList

theorem lines_append (s t : String) : lines (s ++ "\n" ++ t) = lines s ++ lines t := by
  simp [lines, List.splitOn, List.splitOnP_append_cons]

/-- What a typed line says. -/
def entered (line : String) : String := trim (edited line)

/-- What the lines of a text say, without those that say nothing. -/
def fullLines (s : String) : List String :=
  (lines s).map entered |>.filter fun line => !line.isEmpty

theorem fullLines_append (s t : String) :
    fullLines (s ++ "\n" ++ t) = fullLines s ++ fullLines t := by
  simp [fullLines, lines_append]

end RhythmClip.Text
