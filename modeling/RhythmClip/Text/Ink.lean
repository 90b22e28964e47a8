/-!
# Coloured terminal text

An ink is an optional emphasis and an optional colour. On a terminal with
colours the inked text stands between `ESC[codes m` and `ESC[0m`, also when
it is empty; a reset that the text itself holds is followed by the ink again,
so the rest of the text keeps its look. Without colours the text is left as
it is.

* `paint_plain`: a plain palette changes nothing.
-/
namespace RhythmClip.Text

inductive Emphasis where
  | bold | dim
  deriving DecidableEq, Repr

inductive Colour where
  | red | green | yellow | cyan
  | brightBlack | brightRed | brightGreen | brightYellow | brightMagenta | brightCyan
  deriving DecidableEq, Repr

structure Ink where
  emphasis : Option Emphasis := none
  colour : Option Colour := none
  deriving DecidableEq, Repr

/-- Whether inks are shown. -/
inductive Palette where
  | plain | coloured
  deriving DecidableEq, Repr

def Emphasis.code : Emphasis → String
  | .bold => "1" | .dim => "2"

def Colour.code : Colour → String
  | .red => "31" | .green => "32" | .yellow => "33" | .cyan => "36"
  | .brightBlack => "90" | .brightRed => "91" | .brightGreen => "92" | .brightYellow => "93"
  | .brightMagenta => "95" | .brightCyan => "96"

def Emphasis.ink (e : Emphasis) : Ink := ⟨some e, none⟩

def Colour.ink (c : Colour) : Ink := ⟨none, some c⟩

def Colour.boldInk (c : Colour) : Ink := ⟨some .bold, some c⟩

/-- The codes of an ink, the emphasis before the colour. -/
def Ink.codes (ink : Ink) : List String :=
  (ink.emphasis.map Emphasis.code).toList ++ (ink.colour.map Colour.code).toList

def Ink.start (ink : Ink) : List Char :=
  '\x1b' :: '[' :: (String.intercalate ";" ink.codes).toList ++ ['m']

/-- The sequence that ends every ink. -/
def inkReset : List Char := ['\x1b', '[', '0', 'm']

/-- Resumes the ink `start` after each reset inside the text. -/
def resume (start : List Char) : List Char → List Char
  | '\x1b' :: '[' :: '0' :: 'm' :: rest => inkReset ++ start ++ resume start rest
  | c :: rest => c :: resume start rest
  | [] => []

def paint (palette : Palette) (ink : Ink) (text : String) : String :=
  match palette with
  | .plain => text
  | .coloured => String.ofList (ink.start ++ resume ink.start text.toList ++ inkReset)

@[simp] theorem paint_plain (ink : Ink) (text : String) : paint .plain ink text = text := rfl

end RhythmClip.Text
