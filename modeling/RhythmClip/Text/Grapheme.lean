import RhythmClip.Text.Grapheme.Role

/-!
# Graphemes

A grapheme is what a reader takes for one character: an extended grapheme
cluster of Unicode. A text is cut from left to right; whether a character
continues the open grapheme depends on its role, on the role before it and on
what the open grapheme waits for.

* `flatten_graphemes`: nothing is lost.
* `graphemes_append_control`: a control character is a grapheme of its own.
-/
namespace RhythmClip.Text

namespace Grapheme

/-- What the end of an open grapheme waits for. -/
inductive Wait where
  | nothing
  /-- The second half of a flag. -/
  | flag
  /-- A joiner behind a pictograph. -/
  | joiner
  /-- A pictograph behind a joiner. -/
  | pictograph
  /-- A linker behind a consonant. -/
  | linker
  /-- A consonant behind a linker. -/
  | consonant
  deriving DecidableEq, Repr

/-- What a role waits for when nothing waited for it. -/
def Wait.ofRole : Role → Wait
  | .regional => .flag
  | .pictograph => .joiner
  | .consonant => .linker
  | _ => .nothing

/-- What is waited for behind a further character of the grapheme. -/
def Wait.next : Wait → Role → Wait
  | .flag, .regional => .nothing
  | .joiner, .joiner => .pictograph
  | .joiner, .extender | .joiner, .linker | .joiner, .nonJoiner => .joiner
  | .linker, .linker => .consonant
  | .linker, .extender | .linker, .joiner => .linker
  | .consonant, .linker | .consonant, .extender | .consonant, .joiner => .consonant
  | _, role => ofRole role

/-- Whether a role is what was waited for. -/
def Wait.admits : Wait → Role → Bool
  | .flag, .regional | .pictograph, .pictograph | .consonant, .consonant => true
  | _, _ => false

/-- The end of the open grapheme: the role of its last character, and what it waits for. -/
structure Tail where
  last : Role
  wait : Wait
  deriving DecidableEq, Repr

def Tail.ofRole (role : Role) : Tail := ⟨role, .ofRole role⟩

def Tail.next (t : Tail) (role : Role) : Tail := ⟨role, t.wait.next role⟩

/-- Whether a role continues the open grapheme. -/
def Tail.joins (t : Tail) (role : Role) : Bool :=
  if t.last.isBreak || role.isBreak then t.last = .carriageReturn && role = .lineFeed
  else role.isTrailer || t.last = .leader || t.last.sameSyllable role || t.wait.admits role

/-- Cuts a text behind an open grapheme, whose characters are held in reverse. -/
def cut (t : Tail) (part : List Char) : List Char → List (List Char)
  | [] => [part.reverse]
  | c :: cs =>
    let role := Role.ofChar c
    if t.joins role then cut (t.next role) (c :: part) cs
    else part.reverse :: cut (.ofRole role) [c] cs

end Grapheme

open Grapheme

/-- The graphemes of a text, from left to right. -/
def graphemes : List Char → List (List Char)
  | [] => []
  | c :: cs => cut (.ofRole (.ofChar c)) [c] cs

/-! ## Small facts -/

theorem flatten_cut (t : Tail) (part cs : List Char) :
    (cut t part cs).flatten = part.reverse ++ cs := by
  induction cs generalizing t part with
  | nil => simp [cut]
  | cons c cs ih =>
    simp only [cut]
    split <;> simp [ih]

theorem flatten_graphemes (cs : List Char) : (graphemes cs).flatten = cs := by
  cases cs with
  | nil => rfl
  | cons c cs => simp [graphemes, flatten_cut]

theorem joins_control (t : Tail) : t.joins .control = false := by
  simp [Tail.joins, Role.isBreak]

theorem joins_of_control (role : Role) : (Tail.ofRole .control).joins role = false := by
  simp [Tail.joins, Tail.ofRole, Role.isBreak]

theorem cut_of_control {c : Char} (cs : List Char) :
    cut (.ofRole .control) [c] cs = [c] :: graphemes cs := by
  cases cs with
  | nil => rfl
  | cons d cs => simp [cut, graphemes, joins_of_control]

theorem cut_append_control {c : Char} (h : Role.ofChar c = .control) (t : Tail)
    (part cs ds : List Char) :
    cut t part (cs ++ c :: ds) = cut t part cs ++ [c] :: graphemes ds := by
  induction cs generalizing t part with
  | nil => simp [cut, h, joins_control, cut_of_control]
  | cons b cs ih =>
    simp only [List.cons_append, cut]
    split <;> simp [ih]

theorem graphemes_append_control {c : Char} (h : Role.ofChar c = .control) (cs ds : List Char) :
    graphemes (cs ++ c :: ds) = graphemes cs ++ [c] :: graphemes ds := by
  cases cs with
  | nil => simp [graphemes, h, cut_of_control]
  | cons b cs => exact cut_append_control h _ _ _ _

end RhythmClip.Text
