import RhythmClip.Text.Decimal

/-!
# Faults

What can be wrong with a request, kept as causes. `Fault.message` is the only
place where the wording is chosen: each message opens with the part of the
request that is at fault (pattern, note or configuration).
-/
namespace RhythmClip

/-- What is wrong with a pattern text. Offsets count the bytes before the
character that is to blame. -/
inductive PatternFault where
  | foreign (char : Char) (offset : Nat)
  | empty
  | unmatched (offset : Nat)
  | emptyGroup (offset : Nat)
  | unclosed (offset : Nat)
  | tooDeep
  deriving DecidableEq, Repr

/-- What is wrong with the text of a note. -/
inductive NoteFault where
  | notAPitch | badLetter | badOctave | outOfRange | badMember | emptyArray | unknown
  deriving DecidableEq, Repr

/-- The three velocities of the settings. -/
inductive VelocityField where
  | velocity | accentHi | accentLo
  deriving DecidableEq, Repr

/-- What is wrong with the settings as a whole. -/
inductive SettingFault where
  | tooLoud (field : VelocityField) (value : UInt8)
  | accentCharacter (char : Char)
  | noNotes
  | unknownSubdivision (name : String)
  /-- A text that is no JSON form of the settings. The reason given for it is
  worded here: the program passes on what its JSON reader says of the place. -/
  | malformed
  deriving DecidableEq, Repr

inductive Fault where
  | pattern (cause : PatternFault)
  | note (token : String) (cause : NoteFault)
  | setting (cause : SettingFault)
  deriving DecidableEq, Repr

/-! ## Wording -/

/-- The place a pattern fault points at; an empty or too deep pattern has none. -/
def PatternFault.offset? : PatternFault → Option Nat
  | .foreign _ offset | .unmatched offset | .emptyGroup offset | .unclosed offset => some offset
  | .empty | .tooDeep => none

def PatternFault.reason : PatternFault → String
  | .foreign char offset =>
    "unexpected character '" ++ char.toString ++ "' at position " ++ Text.decimal offset
      ++ "; pattern can only comprise x - _ [ ]"
  | .empty => "pattern is empty"
  | .unmatched offset => "unmatched ']' at position " ++ Text.decimal offset
  | .emptyGroup offset => "empty group at position " ++ Text.decimal offset
  | .unclosed offset => "unclosed '[' at position " ++ Text.decimal offset
  | .tooDeep => "pattern nests too deeply for exact timing"

def NoteFault.reason : NoteFault → String
  | .notAPitch => "not a valid pitch (expected e.g. c4, F#3, Bb2)"
  | .badLetter => "pitch letter must be A-G"
  | .badOctave => "octave must be a single digit"
  | .outOfRange => "pitch is outside octaves 0-9"
  | .badMember => "arrays must contain only valid pitches"
  | .emptyArray => "chord array is empty"
  | .unknown => "must be a valid note, array of notes or a chord name"

def VelocityField.name : VelocityField → String
  | .velocity => "velocity"
  | .accentHi => "accentHi"
  | .accentLo => "accentLo"

def SettingFault.reason : SettingFault → String
  | .tooLoud field value => field.name ++ " must be 0-127, got " ++ Text.decimal value.toNat
  | .accentCharacter char => "accent map can only comprise x and -, found '" ++ char.toString ++ "'"
  | .noNotes => "notes must contain at least one entry"
  | .unknownSubdivision name => "unknown subdivision '" ++ name ++ "'"
  | .malformed => "the text is not a JSON form of the settings"

def Fault.message : Fault → String
  | .pattern cause => "pattern syntax error: " ++ cause.reason
  | .note token cause => "invalid note '" ++ token ++ "': " ++ cause.reason
  | .setting cause => "configuration error: " ++ cause.reason

end RhythmClip
