import RhythmClip.Fault

/-!
# Pitches

A pitch is a letter, an accidental and an octave from 0 to 9. Its MIDI number
counts semitones with C of octave 4 at 60. Numbers go back to pitches by a
spelling, which says how the five black keys are written; only the octaves
0 to 9 have pitches.

* `ofChars?_chars`: reading inverts printing.
* `midi_ofMidi`: a pitch made from a number has that number.
-/
namespace RhythmClip

inductive Letter where
  | c | d | e | f | g | a | b
  deriving DecidableEq, Repr

inductive Accidental where
  | natural | sharp | flat
  deriving DecidableEq, Repr

structure Pitch where
  letter : Letter
  accidental : Accidental
  octave : Fin 10
  deriving DecidableEq, Repr

/-- How the black keys are written. -/
inductive Spelling where
  | sharps | flats
  deriving DecidableEq, Repr

/-! ## Parts -/

namespace Letter

/-- Semitones above C. -/
def semitone : Letter → Nat
  | .c => 0 | .d => 2 | .e => 4 | .f => 5 | .g => 7 | .a => 9 | .b => 11

def char : Letter → Char
  | .c => 'C' | .d => 'D' | .e => 'E' | .f => 'F' | .g => 'G' | .a => 'A' | .b => 'B'

/-- Reads a capital letter. -/
def ofCapital? : Char → Option Letter
  | 'C' => some .c | 'D' => some .d | 'E' => some .e | 'F' => some .f
  | 'G' => some .g | 'A' => some .a | 'B' => some .b
  | _ => none

/-- Reads a letter in either case; only ASCII letters have one. -/
def ofChar? (c : Char) : Option Letter := ofCapital? c.toUpper

end Letter

namespace Accidental

def offset : Accidental → Int
  | .natural => 0 | .sharp => 1 | .flat => -1

def symbol : Accidental → List Char
  | .natural => [] | .sharp => ['#'] | .flat => ['b']

/-- Takes an accidental off the front of a text; `B` is no flat. -/
def take : List Char → Accidental × List Char
  | '#' :: rest => (.sharp, rest)
  | 'b' :: rest => (.flat, rest)
  | rest => (.natural, rest)

end Accidental

/-- The octave that a digit names. -/
def octave? (c : Char) : Option (Fin 10) :=
  if h : 48 ≤ c.toNat ∧ c.toNat ≤ 57 then some ⟨c.toNat - 48, by omega⟩ else none

/-- The letter and accidental of a number of semitones above C, below 12. -/
def Spelling.spell (spelling : Spelling) (semitones : Nat) : Letter × Accidental :=
  match semitones, spelling with
  | 0, _ => (.c, .natural)
  | 1, .sharps => (.c, .sharp)
  | 1, .flats => (.d, .flat)
  | 2, _ => (.d, .natural)
  | 3, .sharps => (.d, .sharp)
  | 3, .flats => (.e, .flat)
  | 4, _ => (.e, .natural)
  | 5, _ => (.f, .natural)
  | 6, .sharps => (.f, .sharp)
  | 6, .flats => (.g, .flat)
  | 7, _ => (.g, .natural)
  | 8, .sharps => (.g, .sharp)
  | 8, .flats => (.a, .flat)
  | 9, _ => (.a, .natural)
  | 10, .sharps => (.a, .sharp)
  | 10, .flats => (.b, .flat)
  | _, _ => (.b, .natural)

namespace Pitch

/-! ## Numbers -/

def midi (p : Pitch) : Int := (p.octave.val + 1) * 12 + p.letter.semitone + p.accidental.offset

/-- The pitch of a MIDI number. Octaves change at C, so C flat of octave 4
and B of octave 3 have one number, which is spelled in octave 3. -/
def ofMidi (spelling : Spelling) (midi : Int) : Except Fault Pitch :=
  if h : 0 ≤ midi / 12 - 1 ∧ midi / 12 - 1 ≤ 9 then
    let (letter, accidental) := spelling.spell (midi % 12).toNat
    .ok ⟨letter, accidental, ⟨(midi / 12 - 1).toNat, by omega⟩⟩
  else .error (.note (Text.decimalInt midi) .outOfRange)

def transpose (p : Pitch) (semitones : Int) (spelling : Spelling) : Except Fault Pitch :=
  ofMidi spelling (p.midi + semitones)

/-! ## Text -/

def chars (p : Pitch) : List Char :=
  p.letter.char :: (p.accidental.symbol ++ [Nat.digitChar p.octave.val])

/-- The canonical text: capital letter, accidental, octave. -/
def text (p : Pitch) : String := String.ofList p.chars

/-- Reads a letter in either case, an optional `#` or `b`, and one digit. -/
def ofChars? : List Char → Option Pitch
  | [] => none
  | c :: rest =>
    match Letter.ofChar? c, Accidental.take rest with
    | some letter, (accidental, [d]) => (octave? d).map fun octave => ⟨letter, accidental, octave⟩
    | _, _ => none

def ofText? (s : String) : Option Pitch := ofChars? s.toList

def parse (s : String) : Except Fault Pitch :=
  match ofText? s with
  | some p => .ok p
  | none => .error (.note s .notAPitch)

/-- The pitch of given parts. The letter may be small; it is judged before the octave. -/
def ofParts (letter : Char) (accidental : Accidental) (octave : Nat) : Except Fault Pitch :=
  match Letter.ofChar? letter with
  | none => .error (.note letter.toUpper.toString .badLetter)
  | some l =>
    if h : octave ≤ 9 then .ok ⟨l, accidental, ⟨octave, by omega⟩⟩
    else
      .error (.note (String.ofList (l.char :: accidental.symbol) ++ Text.decimal octave) .badOctave)

/-! ## Small facts -/

theorem ofChars?_chars (p : Pitch) : ofChars? p.chars = some p := by
  obtain ⟨letter, accidental, octave⟩ := p
  cases letter <;> cases accidental <;> revert octave <;> decide

theorem spell_semitone (spelling : Spelling) (n : Nat) (h : n < 12) :
    ((spelling.spell n).1.semitone : Int) + (spelling.spell n).2.offset = n := by
  cases spelling <;> revert n <;> decide

theorem midi_ofMidi {spelling : Spelling} {midi : Int} {p : Pitch}
    (h : ofMidi spelling midi = .ok p) : p.midi = midi := by
  unfold ofMidi at h
  split at h
  · rename_i hr
    have hs := spell_semitone spelling (midi % 12).toNat (by omega)
    simp only [Except.ok.injEq] at h
    subst h
    simp only [Pitch.midi]
    omega
  · cases h

end Pitch

end RhythmClip
