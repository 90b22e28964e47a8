import RhythmClip.Text.Decimal

/-!
# JSON values

A value is a scalar, an array or an object. An object keeps its members in
order, and may name one twice. A number is kept as it is written.

The text of a string may hold half of a surrogate pair, which is no
character; such a text has the content `none`.
-/
namespace RhythmClip

inductive Scalar where
  | null
  | bool (b : Bool)
  | number (literal : String)
  | text (content : Option String)
  deriving DecidableEq, Repr

inductive Json where
  | scalar (value : Scalar)
  | array (items : List Json)
  | object (members : List (Option String × Json))
  deriving Repr

namespace Json

def null : Json := .scalar .null

def bool (b : Bool) : Json := .scalar (.bool b)

def text (s : String) : Json := .scalar (.text (some s))

def natural (n : Nat) : Json := .scalar (.number (Text.decimal n))

def integer (z : Int) : Json := .scalar (.number (Text.decimalInt z))

/-- An object whose names are all proper texts. -/
def record (members : List (String × Json)) : Json :=
  .object (members.map fun (name, value) => (some name, value))

/-! ## Shapes -/

def text? : Json → Option String
  | .scalar (.text content) => content
  | _ => none

def bool? : Json → Option Bool
  | .scalar (.bool b) => some b
  | _ => none

/-- A number from 0 to 255, written with digits only. -/
def byte? : Json → Option UInt8
  | .scalar (.number literal) => Text.digitsByte? literal.toList
  | _ => none

def items? : Json → Option (List Json)
  | .array items => some items
  | _ => none

end Json

end RhythmClip
