import RhythmClip.Clip.Journaled
import RhythmClip.Clip.Json
import RhythmClip.Clip.Listing
import RhythmClip.Session.Step

/-!
# Commands that only look

These commands compile the settings, look up a chord, or show the settings
and the help. None of them changes a setting.

* `settings_clip`, `settings_chord`: the settings stay, whatever the outcome.
-/
namespace RhythmClip.Session

open Text

/-- Compiles the settings, with the argument in place of the pattern if there is one. -/
def clip (palette : Palette) (arg : String) (s : Settings) : Step :=
  let compiled := if arg.isEmpty then s else { s with pattern := arg }
  .attempt s (Attempt.compile standardChords compiled) fun c => .say s (c.listing palette)

def json (s : Settings) : Step :=
  .attempt s (Attempt.compile standardChords s) fun c => .say s c.json

/-- What is said about a token: the chord it names, or the pitch that it spells. -/
def resolution (v : Voicing) : String :=
  if v.isChord then v.text
  else v.text ++ " (a single pitch; pitch spellings win over chord names)"

def chord (palette : Palette) (arg : String) (s : Settings) : Step :=
  if arg.isEmpty then .say s ("Chord qualities: " ++ String.intercalate " " Quality.names)
  else
    .attempt s (Attempt.resolveEntry standardChords (.token arg)) fun v =>
      .say s (paint palette Colour.cyan.ink arg ++ ": " ++ resolution v)

/-- The accents in one phrase. -/
def accentSummary (s : Settings) : String :=
  if s.accentMap.isEmpty then "off"
  else
    s.accentMap ++ " (hi " ++ decimal s.accentHi.toNat ++ ", lo " ++ decimal s.accentLo.toNat ++ ")"

def overview (palette : Palette) (s : Settings) : Step :=
  .attempt s (Attempt.grid s) fun grid =>
    let row := fun (label value : String) => paint palette Colour.green.ink label ++ value
    .say s (String.intercalate "\n"
      [row "notes:" ("  " ++ s.notes.typed), row "pattern:" ("  " ++ s.pattern),
        row "subdiv:" ("   " ++ grid.name), row "velocity:" (" " ++ decimal s.velocity.toNat),
        row "accent:" ("   " ++ accentSummary s)])

/-! ## Help -/

def helpLines (palette : Palette) : List String :=
  let title := paint palette Emphasis.bold.ink
  let heading := paint palette Colour.green.ink
  let row := fun (usage text : String) => "  " ++ paint palette Colour.cyan.ink usage ++ text
  let leave := paint palette Colour.brightRed.ink
  [title "🎵 clipnotes Help",
    title "=================",
    "",
    heading "Pattern Notation:",
    row "x" "      - Play the next note",
    row "-" "      - Rest",
    row "_" "      - Sustain (silent slot a player may hold through)",
    row "[..]" "   - Split one slot into equal parts",
    "",
    heading "Session:",
    row "notes c4 e4 CM" "  - Set notes (pitches or chord names)",
    row "pattern x[xx]" "     - Set the pattern",
    row "subdiv 8n" "          - Slot length: 1n 2n 4n 8n 16n",
    row "accent x-- 127 70" "  - Accent map with hi/lo velocities",
    row "velocity 100" "        - Velocity when no accent is set",
    row "show" "                - Show current settings",
    row "reset" "               - Back to defaults",
    "",
    heading "Output:",
    row "clip" "                - Compile and list events",
    row "clip x-[xx]" "        - Compile with a one-off pattern",
    row "json" "                - Compile and print JSON",
    row "chord Am7" "          - Show what a note token resolves to",
    "",
    "A bare pattern such as " ++ paint palette Colour.cyan.ink "x[xx]-"
      ++ " compiles it against the current notes.",
    "Type " ++ leave "quit" ++ " or " ++ leave "Ctrl+D" ++ " to leave."]

/-- Prints the help by itself; there is nothing to reply. -/
def help (palette : Palette) (s : Settings) : Step :=
  { reply := .success, settings := s,
    printed := String.join ((helpLines palette).map (· ++ "\n")) }

/-! ## Small facts -/

theorem Step.settings_attempt_say {α : Type} (s : Settings) (x : Attempt α) (text : α → String) :
    (Step.attempt s x fun a => .say s (text a)).settings = s := by
  simp only [Step.attempt]
  split <;> rfl

theorem settings_clip (palette : Palette) (arg : String) (s : Settings) :
    (clip palette arg s).settings = s := Step.settings_attempt_say ..

theorem settings_chord (palette : Palette) (arg : String) (s : Settings) :
    (chord palette arg s).settings = s := by
  unfold chord
  split
  · rfl
  · exact Step.settings_attempt_say ..

end RhythmClip.Session
