import RhythmClip.Json.Escape
import RhythmClip.Json

/-!
# Writing JSON

A value is written on one line without blanks, or spread over lines with two
spaces of indentation per level, where an empty container stays closed up.

* `writeChars_array_cons`: an array with items, piece by piece.
-/
namespace RhythmClip.Json

/-- How a value is laid out. -/
inductive Style where
  | compact | spread
  deriving DecidableEq, Repr

/-- What stands before an item or a closing bracket at the given depth. -/
def Style.line : Style → Nat → List Char
  | .compact, _ => []
  | .spread, depth => '\n' :: List.replicate (2 * depth) ' '

/-- What stands after a colon. -/
def Style.gap : Style → List Char
  | .compact => []
  | .spread => [' ']

/-- A text in quotation marks. A text that is no row of characters is written
as half of a surrogate pair. -/
def quoted : Option String → List Char
  | some s => '"' :: (escape s.toList ++ ['"'])
  | none => ['"', '\\', 'u', 'd', '8', '0', '0', '"']

def scalarChars : Scalar → List Char
  | .null => ['n', 'u', 'l', 'l']
  | .bool true => ['t', 'r', 'u', 'e']
  | .bool false => ['f', 'a', 'l', 's', 'e']
  | .number literal => literal.toList
  | .text content => quoted content

mutual

/-- A value whose closing bracket stands at the given depth. -/
def writeChars (style : Style) (depth : Nat) : Json → List Char
  | .scalar v => scalarChars v
  | .array [] => ['[', ']']
  | .array (v :: vs) =>
    '[' :: (style.line (depth + 1) ++ writeChars style (depth + 1) v ++ writeItems style depth vs)
  | .object [] => ['{', '}']
  | .object ((name, v) :: ms) =>
    '{' :: (style.line (depth + 1) ++ quoted name ++ ':' :: style.gap
      ++ writeChars style (depth + 1) v ++ writeMembers style depth ms)

/-- The later items of an array, and its end. -/
def writeItems (style : Style) (depth : Nat) : List Json → List Char
  | [] => style.line depth ++ [']']
  | v :: vs =>
    ',' :: (style.line (depth + 1) ++ writeChars style (depth + 1) v ++ writeItems style depth vs)

/-- The later members of an object, and its end. -/
def writeMembers (style : Style) (depth : Nat) : List (Option String × Json) → List Char
  | [] => style.line depth ++ ['}']
  | (name, v) :: ms =>
    ',' :: (style.line (depth + 1) ++ quoted name ++ ':' :: style.gap
      ++ writeChars style (depth + 1) v ++ writeMembers style depth ms)

end

theorem writeChars_array_cons (style : Style) (depth : Nat) (v : Json) (vs : List Json) :
    writeChars style depth (.array (v :: vs)) =
      '[' :: (style.line (depth + 1) ++ writeChars style (depth + 1) v
        ++ writeItems style depth vs) := rfl

def write (style : Style) (v : Json) : String := String.ofList (writeChars style 0 v)

end RhythmClip.Json
