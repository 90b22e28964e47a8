import RhythmClip.Text.Blank
import RhythmClip.Chord
import RhythmClip.Cycle

/-!
# Notes

The notes of a clip are a text of words or a list of entries; an entry is a
token or a list of pitches. Each entry resolves to a voicing, the pitches that
sound together. A token is read as a pitch if it can be, and is looked up as a
chord name only if it cannot: `C6` is a pitch, never a chord.

* `resolveToken_of_pitch`: a dictionary has no say about the text of a pitch.
* `resolveAll_append`: the entries resolve one by one, and the first that
  cannot be resolved decides the fault.
-/
namespace RhythmClip

/-- One or more pitches that sound together. -/
structure Voicing where
  first : Pitch
  others : List Pitch
  deriving DecidableEq, Repr

namespace Voicing

def pitches (v : Voicing) : List Pitch := v.first :: v.others

def ofList? : List Pitch → Option Voicing
  | [] => none
  | p :: ps => some ⟨p, ps⟩

def single (p : Pitch) : Voicing := ⟨p, []⟩

def isChord (v : Voicing) : Bool := !v.others.isEmpty

def names (v : Voicing) : List String := v.pitches.map Pitch.text

/-- One name, or several in square brackets. -/
def text (v : Voicing) : String :=
  if v.isChord then "[" ++ String.intercalate ", " v.names ++ "]" else v.first.text

end Voicing

inductive NoteEntry where
  | token (text : String)
  | pitches (members : List String)
  deriving DecidableEq, Repr

inductive NoteList where
  | text (text : String)
  | entries (entries : List NoteEntry)
  deriving DecidableEq, Repr

namespace NoteEntry

/-- The entry as it would be typed. -/
def text : NoteEntry → String
  | .token t => t
  | .pitches members => "[" ++ String.intercalate " " members ++ "]"

end NoteEntry

namespace NoteList

/-- The entries; the words of a text are tokens. -/
def toEntries : NoteList → List NoteEntry
  | .text s => (Text.words s).map .token
  | .entries es => es

def typed (notes : NoteList) : String := String.intercalate " " (notes.toEntries.map NoteEntry.text)

end NoteList

/-! ## Resolving -/

namespace Dictionary

/-- The chord of a name; a chord without pitches counts as unknown. -/
def voicing? (d : Dictionary) (name : String) : Option Voicing := (d name).bind Voicing.ofList?

end Dictionary

/-- What a token means: the pitch it spells, else the chord it names. -/
def resolveToken (d : Dictionary) (token : String) : Except Fault Voicing :=
  match Pitch.ofText? token with
  | some p => .ok (.single p)
  | none =>
    match d.voicing? token with
    | some v => .ok v
    | none => .error (.note token .unknown)

/-- Reads a list of pitch texts; the first that is none is to blame. -/
def readMembers : List String → Except Fault (List Pitch)
  | [] => .ok []
  | m :: ms =>
    match Pitch.ofText? m with
    | none => .error (.note m .badMember)
    | some p => do
      let ps ← readMembers ms
      return p :: ps

def resolveEntry (d : Dictionary) : NoteEntry → Except Fault Voicing
  | .token t => resolveToken d t
  | .pitches members => do
    match Voicing.ofList? (← readMembers members) with
    | some v => return v
    | none => throw (.note "[]" .emptyArray)

def resolveAll (d : Dictionary) : List NoteEntry → Except Fault (List Voicing)
  | [] => .ok []
  | e :: es => do
    let v ← resolveEntry d e
    let vs ← resolveAll d es
    return v :: vs

/-- The voicings of all entries, of which there must be at least one. -/
def NoteList.resolve (d : Dictionary) (notes : NoteList) : Except Fault (Cycle Voicing) := do
  match Cycle.ofList? (← resolveAll d notes.toEntries) with
  | some voicings => return voicings
  | none => throw (.setting .noNotes)

/-! ## Small facts -/

theorem resolveToken_of_pitch {token : String} {p : Pitch} (h : Pitch.ofText? token = some p)
    (d : Dictionary) : resolveToken d token = .ok (.single p) := by
  simp [resolveToken, h]

theorem resolveAll_append (d : Dictionary) (es fs : List NoteEntry) :
    resolveAll d (es ++ fs) = (do
      let vs ← resolveAll d es
      let ws ← resolveAll d fs
      return vs ++ ws) := by
  induction es with
  | nil => cases h : resolveAll d fs <;> simp [resolveAll, h, bind, Except.bind, pure, Except.pure]
  | cons e es ih =>
    simp only [List.cons_append, resolveAll, ih]
    cases resolveEntry d e with
    | error f => rfl
    | ok v =>
      cases resolveAll d es with
      | error f => rfl
      | ok vs => cases resolveAll d fs <;> rfl

end RhythmClip
