/-!
# Columns

A cell is filled up with spaces to a width counted in characters; a text that
is wider than its column is left as it is.
-/
namespace RhythmClip.Text

/-- Fills up on the left, so that the text ends the column. -/
def alignRight (width : Nat) (s : String) : String := String.ofList (s.toList.leftpad width ' ')

/-- Fills up on the right, so that the text starts the column. -/
def alignLeft (width : Nat) (s : String) : String := String.ofList (s.toList.rightpad width ' ')

end RhythmClip.Text
