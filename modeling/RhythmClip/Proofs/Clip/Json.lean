import RhythmClip.Clip.Json
import RhythmClip.Proofs.Json.Written
import RhythmClip.Proofs.Pitch
import RhythmClip.Settings.Json
import Mathlib.Data.List.Forall2

/-!
# Events are read back from their JSON

A reader of events that takes nothing on trust: a pitch must be the text of a
pitch, a duration a fraction in lowest terms, and pitches may be missing only
where no note sounds. It finds in the text of a clip the events of the clip,
so the text leaves no event out and confuses no two clips.

* `ofJson?_toJson`: an event is read back from its object.
* `writable_toJson`: the object of an event is written in the grammar of JSON.
* `denotes_json`: what the text of a clip denotes, and that it loses nothing.
-/
namespace RhythmClip

/-! ## Reading events -/

namespace Json

/-- The names of an object, if it is one and they are proper texts. -/
def keys? : Json → Option (List String)
  | .object members => members.mapM Prod.fst
  | _ => none

def natural? : Json → Option Nat
  | .scalar (.number literal) => Text.natural? literal.toList
  | _ => none

/-- A whole number in digits, with a minus sign where it is negative. -/
def integer? : Json → Option Int
  | .scalar (.number literal) =>
    match literal.toList with
    | '-' :: ds => (Text.natural? ds).map fun n => -(n : Int)
    | ds => (Text.natural? ds).map Int.ofNat
  | _ => none

/-- A fraction is given by a numerator and a positive denominator without common factor. -/
def fraction? : Json → Option Rat
  | .array [n, d] => do
    let n ← n.integer?
    let d ← d.natural?
    if h : d ≠ 0 ∧ n.natAbs.Coprime d then some ⟨n, d, h.1, h.2⟩ else none
  | _ => none

end Json

open Json

def Mark.ofName? : String → Option Mark
  | "note" => some note
  | "rest" => some rest
  | "sustain" => some sustain
  | _ => none

/-- One or more texts of pitches. -/
def Voicing.ofJson? (v : Json) : Option Voicing := do
  let names ← (← v.items?).mapM Json.text?
  Voicing.ofList? (← names.mapM Pitch.ofText?)

/-- A note has pitches; `null` stands in their place for a rest. -/
def Sound.ofJson? (pitches slot : Json) : Option Sound := do
  match ← Mark.ofName? (← slot.text?), pitches with
  | .note, v => (Voicing.ofJson? v).map .note
  | .rest, .scalar .null => some .rest
  | .sustain, .scalar .null => some .sustain
  | _, _ => none

def Event.ofJson? : Json → Option Event
  | .object [(some "pitches", pitches), (some "duration", duration), (some "velocity", velocity),
      (some "slot", slot)] => do
    return ⟨← Sound.ofJson? pitches slot, ← duration.fraction?, ← velocity.byte?⟩
  | _ => none

/-! ## Reading inverts writing -/

theorem decimal_ne_minus (n : Nat) (ds : List Char) : (Text.decimal n).toList ≠ '-' :: ds := by
  intro h
  have hwhole := isWhole_decimal n
  rw [h] at hwhole
  cases hwhole with
  | digits _ hds => exact absurd (hds '-' List.mem_cons_self) (by decide)

theorem integer?_integer (z : Int) : (Json.integer z).integer? = some z := by
  cases z with
  | ofNat n =>
    simp only [Json.integer, Json.integer?, Text.decimalInt]
    split
    · rename_i h
      exact absurd h (decimal_ne_minus n _)
    · rw [Text.natural?_decimal, Option.map_some]
  | negSucc n =>
    have hchars : (Text.decimalInt (.negSucc n)).toList = '-' :: (Text.decimal (n + 1)).toList := by
      rw [Text.decimalInt, String.toList_append]
      rfl
    simp only [Json.integer, Json.integer?, hchars, Text.natural?_decimal]
    rfl

theorem fraction?_fraction (q : Rat) :
    (Json.array [.integer q.num, .natural q.den]).fraction? = some q := by
  have hden : (Json.natural q.den).natural? = some q.den := Text.natural?_decimal q.den
  simp only [Json.fraction?, integer?_integer, hden]
  exact dif_pos ⟨q.den_nz, q.reduced⟩

theorem Voicing.ofJson?_names (v : Voicing) : ofJson? (.array (v.names.map .text)) = some v := by
  have hpitches : v.names.mapM Pitch.ofText? = some v.pitches :=
    mapM_map_some Pitch.ofText?_text v.pitches
  simp only [ofJson?, Json.items?, Option.bind_eq_bind, Option.bind_some,
    mapM_map_some text?_text, hpitches]
  rfl

theorem Sound.ofJson?_toJson (e : Event) :
    ofJson? e.pitchesJson (.text e.mark.name) = some e.sound := by
  obtain ⟨sound, duration, velocity⟩ := e
  cases sound with
  | note v => exact congrArg (Option.map Sound.note) v.ofJson?_names
  | rest => rfl
  | sustain => rfl

theorem Event.ofJson?_toJson (e : Event) : ofJson? e.toJson = some e := by
  simp only [ofJson?, toJson, Json.record, List.map_cons, List.map_nil, Sound.ofJson?_toJson,
    fraction?_fraction, Settings.byte?_natural]
  rfl

theorem Event.keys?_toJson (e : Event) :
    e.toJson.keys? = some ["pitches", "duration", "velocity", "slot"] := rfl

/-! ## The text of a clip -/

theorem Event.writable_toJson (e : Event) : Writable e.toJson := by
  have hpitches : Writable e.pitchesJson := by
    unfold pitchesJson
    split
    · exact .array (List.forall_mem_map.2 fun name _ => .text name)
    · exact .null
  have hduration : Writable (.array [.integer e.duration.num, .natural e.duration.den]) :=
    .array (by simp [Writable.integer, Writable.natural])
  exact .record (by simp [hpitches, hduration, Writable.natural, Writable.text])

namespace Clip

theorem denotes_eventsJson (c : Clip) : Denotes c.json (.array c.eventsJson) :=
  (Writable.array (List.forall_mem_map.2 fun e _ => e.writable_toJson)).denotes .spread

theorem ofJson?_eventsJson (c : Clip) : c.eventsJson.mapM Event.ofJson? = some c.events :=
  mapM_map_some Event.ofJson?_toJson c.events

theorem eq_of_denotes {c : Clip} {v : Json} (h : Denotes c.json v) : v = .array c.eventsJson :=
  Option.some.inj ((parse?_of_denotes h).symm.trans (parse?_of_denotes c.denotes_eventsJson))

theorem events_eq_of_json_eq {c c' : Clip} (h : c.json = c'.json) : c.events = c'.events := by
  have hdenotes := c.denotes_eventsJson
  rw [h] at hdenotes
  have hitems : c.eventsJson = c'.eventsJson := by injection eq_of_denotes hdenotes
  have hread := c.ofJson?_eventsJson
  rw [hitems, c'.ofJson?_eventsJson] at hread
  exact (Option.some.inj hread).symm

/-- **Events as JSON.** The text of a clip is JSON that denotes one array and
nothing else, with one object per event in order. An object has the four names
and gives back its event; so two clips share their text only if they share
their events. -/
theorem denotes_json (c : Clip) :
    (∃ objects, (∀ v, Denotes c.json v ↔ v = .array objects) ∧
      List.Forall₂ (fun v e => v.keys? = some ["pitches", "duration", "velocity", "slot"] ∧
        Event.ofJson? v = some e) objects c.events) ∧
      ∀ c' : Clip, c.json = c'.json ↔ c.events = c'.events := by
  refine ⟨⟨c.eventsJson, fun v => ⟨eq_of_denotes, ?_⟩, ?_⟩, fun c' => ⟨events_eq_of_json_eq, ?_⟩⟩
  · rintro rfl
    exact c.denotes_eventsJson
  · rw [eventsJson, List.forall₂_map_left_iff]
    exact List.forall₂_same.2 fun e _ => ⟨e.keys?_toJson, e.ofJson?_toJson⟩
  · intro h
    rw [json, json, eventsJson, eventsJson, h]

end Clip

end RhythmClip
