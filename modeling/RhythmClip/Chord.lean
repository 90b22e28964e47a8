import RhythmClip.Pitch

/-!
# Chord names

A chord name is a letter, an optional accidental, the name of a quality and
an optional octave after a hyphen: `CM`, `Dm7`, `F#dim`, `Bbmaj7-3`. The root
stands in octave 4 unless the name says otherwise. The tones above the root
are spelled with flats for flat roots and for F, and with sharps otherwise.

A dictionary is any way to look up a name; `standardChords` is the one that
knows these names.
-/
namespace RhythmClip

/-- A quality gives the tones of a chord, in semitones above the root. -/
structure Quality where
  name : String
  intervals : List Nat
  deriving DecidableEq, Repr

namespace Quality

def all : List Quality :=
  [⟨"M", [0, 4, 7]⟩, ⟨"maj", [0, 4, 7]⟩, ⟨"m", [0, 3, 7]⟩, ⟨"min", [0, 3, 7]⟩,
    ⟨"dim", [0, 3, 6]⟩, ⟨"aug", [0, 4, 8]⟩, ⟨"sus2", [0, 2, 7]⟩, ⟨"sus4", [0, 5, 7]⟩,
    ⟨"5", [0, 7]⟩, ⟨"6", [0, 4, 7, 9]⟩, ⟨"m6", [0, 3, 7, 9]⟩,
    ⟨"7", [0, 4, 7, 10]⟩, ⟨"M7", [0, 4, 7, 11]⟩, ⟨"maj7", [0, 4, 7, 11]⟩,
    ⟨"m7", [0, 3, 7, 10]⟩, ⟨"dim7", [0, 3, 6, 9]⟩, ⟨"m7b5", [0, 3, 6, 10]⟩,
    ⟨"9", [0, 4, 7, 10, 14]⟩, ⟨"M9", [0, 4, 7, 11, 14]⟩, ⟨"maj9", [0, 4, 7, 11, 14]⟩,
    ⟨"m9", [0, 3, 7, 10, 14]⟩, ⟨"add9", [0, 4, 7, 14]⟩,
    ⟨"11", [0, 4, 7, 10, 14, 17]⟩, ⟨"13", [0, 4, 7, 10, 14, 21]⟩]

def names : List String := all.map (·.name)

def ofName? (name : String) : Option Quality := all.find? (·.name = name)

end Quality

/-- The parts of a chord name; `root` keeps the spelling that was written. -/
structure ChordName where
  root : Pitch
  quality : Quality
  deriving DecidableEq, Repr

namespace ChordName

/-- Takes a final hyphen and digit as the octave; without them it is 4. No
quality has a hyphen in its name, so any other hyphen makes the name unknown. -/
def splitOctave (cs : List Char) : List Char × Fin 10 :=
  match cs.reverse with
  | d :: '-' :: name =>
    match octave? d with
    | some octave => (name.reverse, octave)
    | none => (cs, 4)
  | _ => (cs, 4)

def ofChars? : List Char → Option ChordName
  | [] => none
  | c :: rest => do
    let letter ← Letter.ofChar? c
    let (accidental, rest) := Accidental.take rest
    let (name, octave) := splitOctave rest
    let quality ← Quality.ofName? (String.ofList name)
    some ⟨⟨letter, accidental, octave⟩, quality⟩

/-- How the tones above the root are written. -/
def spelling (name : ChordName) : Spelling :=
  match name.root.accidental, name.root.letter with
  | .flat, _ => .flats
  | .natural, .f => .flats
  | _, _ => .sharps

def tone? (name : ChordName) (interval : Nat) : Option Pitch :=
  if interval = 0 then some name.root
  else (name.root.transpose interval name.spelling).toOption

/-- All tones of the chord, or nothing when one lies above the last octave. -/
def pitches? (name : ChordName) : Option (List Pitch) := name.quality.intervals.mapM name.tone?

end ChordName

/-- A chord dictionary: the pitches of the names it knows. -/
abbrev Dictionary := String → Option (List Pitch)

def standardChords : Dictionary := fun name => (ChordName.ofChars? name.toList).bind (·.pitches?)

end RhythmClip
