import RhythmClip.Clip.Journaled
import RhythmClip.Clip.Listing
import RhythmClip.Json
import RhythmClip.Json.Escape
import RhythmClip.Pattern.Outline
import RhythmClip.Json.Reader
import RhythmClip.Json.Writer
import RhythmClip.Clip.Json
import RhythmClip.Settings.Json
import RhythmClip.Session
import RhythmClip.Main
import RhythmClip.Proofs.Pattern.Durations
import RhythmClip.Proofs.Pattern.Notation
import RhythmClip.Proofs.Clip.Compile
import RhythmClip.Proofs.Clip.Timing
import RhythmClip.Proofs.Clip.Events
import RhythmClip.Proofs.Clip.Failure
import RhythmClip.Proofs.Clip.Alignment
import RhythmClip.Proofs.CommandTable
import RhythmClip.Proofs.Session.Command
import RhythmClip.Proofs.Session.Frame
import RhythmClip.Proofs.Session.Reachable
import RhythmClip.Proofs.Json.RoundTrip
import RhythmClip.Proofs.Settings.Json
import RhythmClip.Proofs.Clip.Warnings
import RhythmClip.Proofs.CommandLine.Compile
import RhythmClip.Proofs.CommandLine.Override
import RhythmClip.Proofs.Json.Grammar
import RhythmClip.Proofs.Json.Written
import RhythmClip.Proofs.Session.Transcript
import RhythmClip.Proofs.Clip.Json
import RhythmClip.Proofs.Settings.Meaning
import RhythmClip.Proofs.Pattern.Brackets
import RhythmClip.Proofs.Pattern.Descent
import RhythmClip.Proofs.Pattern.Blame
import RhythmClip.Proofs.Pattern.Outline
import RhythmClip.Proofs.CommandTable.Priority
import RhythmClip.Proofs.Session.Dispatch
import RhythmClip.Proofs.Pitch
import RhythmClip.Proofs.Pitch.Notation
import RhythmClip.Proofs.Pitch.Transposition
import RhythmClip.Proofs.Text.Words
import RhythmClip.Proofs.Text.Typed
import RhythmClip.Proofs.Walk
import RhythmClip.Proofs.Note
import RhythmClip.Proofs.Clip.Dictionary
import RhythmClip.Proofs.Session.Commute
import RhythmClip.Proofs.Chord
import RhythmClip.Proofs.Session.OneOff
import RhythmClip.Proofs.Clip.Loudness
import RhythmClip.Proofs.Clip.Scaling
import RhythmClip.Proofs.Clip.Bracketing
import RhythmClip.Proofs.Clip.Concatenation
import RhythmClip.Proofs.Text.Printed
import RhythmClip.Proofs.Text.Ink
import RhythmClip.Proofs.Json.Clear
import RhythmClip.Proofs.Clip.Listing
import RhythmClip.Proofs.Clip.Overflow
import RhythmClip.Proofs.Clip.Colour
import RhythmClip.Proofs.Session.Quoting
import RhythmClip.Proofs.Session.Colour
import RhythmClip.Proofs.Ticks.Sharing
import RhythmClip.Proofs.Ticks.Fraction
import RhythmClip.Proofs.Ticks.Offsets
import RhythmClip.Proofs.Clip.Stored
import RhythmClip.Proofs.Clip.Journal
import RhythmClip.Proofs.CommandLine.Token
import RhythmClip.Proofs.Access
import RhythmClip.Proofs.Clip.Walker
