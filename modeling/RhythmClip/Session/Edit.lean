import RhythmClip.Clip.Journaled
import RhythmClip.Session.Step

/-!
# Commands that edit the settings

Each command takes the argument of its line. Without an argument it tells the
present setting; otherwise it judges the argument first and changes its own
settings only if that is good.
-/
namespace RhythmClip.Session

open Text

def notes (palette : Palette) (arg : String) (s : Settings) : Step :=
  if arg.isEmpty then .say s ("Notes: " ++ s.notes.typed)
  else
    .attempt s (Attempt.resolve standardChords (.text arg)) fun voicings =>
      let shown := String.intercalate " " (voicings.toList.map Voicing.text)
      .say { s with notes := .text arg }
        (paint palette Colour.brightGreen.ink ("🎵 Notes set: " ++ shown))

def pattern (palette : Palette) (arg : String) (s : Settings) : Step :=
  if arg.isEmpty then .say s ("Pattern: " ++ s.pattern)
  else
    .attempt s (liftM (Pattern.read arg)) fun p =>
      let counts := " (" ++ decimal p.slots ++ " slots, " ++ decimal p.noteCount ++ " notes)"
      .say { s with pattern := arg }
        (paint palette Colour.brightGreen.ink ("🥁 Pattern set: " ++ arg ++ counts))

/-- Only the five names are accepted here; a name that is stored already may be another. -/
def subdivision (arg : String) (s : Settings) : Step :=
  if arg.isEmpty then .attempt s (Attempt.grid s) fun grid => .say s ("Subdivision: " ++ grid.name)
  else
    match Subdivision.ofName? arg with
    | some d =>
      .say { s with subdivision := d.name }
        ("Subdivision set: " ++ d.name ++ " (" ++ Ticks.text d.ticks ++ " ticks per slot)")
    | none => .refuse s .subdivision

/-- Reads a velocity; one that is not typed stays as it is. -/
def readVelocity (current : UInt8) : Option String → Except Complaint UInt8
  | none => .ok current
  | some typed =>
    match (byte? typed).filter (· ≤ maxVelocity) with
    | some v => .ok v
    | none => .error (.velocity typed)

def velocity (arg : String) (s : Settings) : Step :=
  if arg.isEmpty then .say s ("Velocity: " ++ decimal s.velocity.toNat)
  else
    match readVelocity s.velocity (some arg) with
    | .ok v => { reply := .success, settings := { s with velocity := v } }
    | .error complaint => .refuse s complaint

/-- The settings with an accent map, or with none for the word `off`, and with
the high and the low velocity if they are typed. -/
def readAccent (s : Settings) (map : String) (typed : List String) : Except Complaint Settings := do
  let hi ← readVelocity s.accentHi typed.head?
  let lo ← readVelocity s.accentLo typed.tail.head?
  return { s with accentMap := if map = "off" then "" else map, accentHi := hi, accentLo := lo }

/-- The new settings are judged as a whole, so other settings can be to blame. -/
def accent (arg : String) (s : Settings) : Step :=
  match words arg with
  | [] =>
    .say s ("Accent: '" ++ s.accentMap ++ "' hi " ++ decimal s.accentHi.toNat ++ " lo "
      ++ decimal s.accentLo.toNat)
  | map :: typed =>
    match readAccent s map typed with
    | .error complaint => .refuse s complaint
    | .ok t => .attempt s (Attempt.check t) fun _ => { reply := .success, settings := t }

def reset (_s : Settings) : Step := .say {} "Session reset"

end RhythmClip.Session
