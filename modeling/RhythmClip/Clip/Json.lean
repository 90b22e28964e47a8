import RhythmClip.Clip
import RhythmClip.Json.Writer

/-!
# Clips as JSON

A clip is written as the array of its events, spread over lines. An event is
an object with its pitches (`null` for a rest), its duration as a numerator
and a denominator, its velocity and the kind of its slot.
-/
namespace RhythmClip

namespace Mark

def name : Mark → String
  | note => "note" | rest => "rest" | sustain => "sustain"

end Mark

namespace Event

def pitchesJson (e : Event) : Json :=
  match e.voicing? with
  | some v => .array (v.names.map .text)
  | none => .null

def toJson (e : Event) : Json :=
  .record
    [("pitches", e.pitchesJson),
      ("duration", .array [.integer e.duration.num, .natural e.duration.den]),
      ("velocity", .natural e.velocity.toNat),
      ("slot", .text e.mark.name)]

end Event

namespace Clip

def eventsJson (c : Clip) : List Json := c.events.map Event.toJson

def json (c : Clip) : String := Json.write .spread (.array c.eventsJson)

end Clip

end RhythmClip
