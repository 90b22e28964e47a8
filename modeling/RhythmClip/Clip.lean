import RhythmClip.Accent
import RhythmClip.Pattern.Layout
import RhythmClip.Pattern.Reader
import RhythmClip.Settings

/-!
# Clips

A clip is the list of events that settings compile to, with the time at which
each begins. The leaves of the pattern become events in reading order: a note
takes the next voicing of the cycle and the next accent, a rest or a
sustained slot keeps the plain velocity.

Compiling judges the settings, then the notes, then the pattern, and then
whether all times can be written down exactly; the first fault decides.

* `perform_durations`: events last as long as their leaves.
-/
namespace RhythmClip

/-- What an event does. -/
inductive Sound where
  | note (voicing : Voicing)
  | rest
  | sustain
  deriving DecidableEq, Repr

structure Event where
  sound : Sound
  duration : Ticks
  velocity : UInt8
  deriving DecidableEq, Repr

namespace Event

def voicing? (e : Event) : Option Voicing :=
  match e.sound with
  | .note v => some v
  | .rest | .sustain => none

def isSounding (e : Event) : Bool := e.voicing?.isSome

def mark (e : Event) : Mark :=
  match e.sound with
  | .note _ => .note
  | .rest => .rest
  | .sustain => .sustain

/-- The names of the pitches; a rest has none. -/
def names (e : Event) : List String :=
  match e.voicing? with
  | some v => v.names
  | none => []

/-- One line of text; only a note shows its velocity. -/
def text (e : Event) : String :=
  match e.sound with
  | .note v => v.text ++ " " ++ Ticks.text e.duration ++ " vel " ++ Text.decimal e.velocity.toNat
  | .rest => "- " ++ Ticks.text e.duration
  | .sustain => "_ " ++ Ticks.text e.duration

end Event

/-! ## Performing a layout -/

/-- How notes sound: the voicings they cycle through, their accents, and the
velocity where there are no accents. -/
structure Part where
  voicings : Cycle Voicing
  accent : Option Accent
  velocity : UInt8
  deriving DecidableEq, Repr

namespace Part

/-- The velocity of the `i`-th note. -/
def noteVelocity (part : Part) (i : Nat) : UInt8 :=
  match part.accent with
  | some a => a.velocity i
  | none => part.velocity

/-- The events of leaves before which `i` notes have sounded. -/
def perform (part : Part) (i : Nat) : List Leaf → List Event
  | [] => []
  | ⟨.note, d⟩ :: leaves =>
    ⟨.note (part.voicings.get i), d, part.noteVelocity i⟩ :: part.perform (i + 1) leaves
  | ⟨.rest, d⟩ :: leaves => ⟨.rest, d, part.velocity⟩ :: part.perform i leaves
  | ⟨.sustain, d⟩ :: leaves => ⟨.sustain, d, part.velocity⟩ :: part.perform i leaves

theorem perform_durations (part : Part) (i : Nat) (leaves : List Leaf) :
    (part.perform i leaves).map Event.duration = leaves.map Leaf.duration := by
  induction leaves generalizing i with
  | nil => rfl
  | cons leaf leaves ih => obtain ⟨_ | _ | _, d⟩ := leaf <;> simp [perform, ih]

theorem perform_marks (part : Part) (i : Nat) (leaves : List Leaf) :
    (part.perform i leaves).map Event.mark = leaves.map Leaf.mark := by
  induction leaves generalizing i with
  | nil => rfl
  | cons leaf leaves ih => obtain ⟨_ | _ | _, d⟩ := leaf <;> simp [perform, ih, Event.mark]

end Part

/-- The part that settings describe, once their notes are resolved. -/
def Settings.part (s : Settings) (voicings : Cycle Voicing) : Part :=
  ⟨voicings, Accent.ofMap? s.accentMap s.accentHi s.accentLo, s.velocity⟩

/-! ## Compiling -/

structure Clip where
  events : List Event
  starts : List Ticks
  total : Ticks
  grid : Subdivision
  slots : Nat
  deriving DecidableEq, Repr

namespace Clip

/-- The events with the times at which they begin. -/
def timeline (c : Clip) : List (Ticks × Event) := c.starts.zip c.events

/-- How many events sound. -/
def noteCount (c : Clip) : Nat := c.events.countP Event.isSounding

/-- Puts events end to end, if that and their layout are exact. -/
def assemble (grid : Subdivision) (slots : Nat) (exact : Bool) (events : List Event) :
    Except Fault Clip :=
  match exact, Ticks.offsets? (events.map Event.duration) with
  | true, some (starts, total) => .ok ⟨events, starts, total, grid, slots⟩
  | _, _ => .error (.pattern .tooDeep)

/-- Compiles settings, with chord names taken from a dictionary. -/
def compile (d : Dictionary) (s : Settings) : Except Fault Clip := do
  s.check
  let voicings ← s.notes.resolve d
  let pattern ← Pattern.read s.pattern
  let layout := pattern.layOut s.grid.ticks
  assemble s.grid pattern.slots layout.exact ((s.part voicings).perform 0 layout.leaves)

end Clip

end RhythmClip
