import RhythmClip.Proofs.Json.RoundTrip
import RhythmClip.Settings.Json

/-!
# Settings are read back from their JSON

The tokens of settings hold three numbers only, the velocities, and these are
written as numbers; so the text of settings gives their tokens back, whatever
the strings in them and whatever the shape of the notes.

* `proper_toJson`: the numbers among the tokens of settings.
* `parse_write_toJson`: parsing inverts writing, in either layout.
-/
namespace RhythmClip

open Json

theorem NoteEntry.proper_toJson (e : NoteEntry) : Proper (tokens e.toJson) := by
  cases e with
  | token t => exact proper_text t
  | pitches members =>
    refine proper_array ?_
    rw [List.forall_mem_map]
    exact fun member _ => proper_text member

theorem NoteList.proper_toJson (notes : NoteList) : Proper (tokens notes.toJson) := by
  cases notes with
  | text s => exact proper_text s
  | entries es =>
    refine proper_array ?_
    rw [List.forall_mem_map]
    exact fun e _ => e.proper_toJson

namespace Settings

theorem proper_fieldJson (s : Settings) (f : Field) : Proper (tokens (s.fieldJson f)) := by
  cases f with
  | notes => exact s.notes.proper_toJson
  | pattern => exact proper_text s.pattern
  | subdivision => exact proper_text s.subdivision
  | velocity => exact proper_natural s.velocity.toNat
  | accentMap => exact proper_text s.accentMap
  | accentHi => exact proper_natural s.accentHi.toNat
  | accentLo => exact proper_natural s.accentLo.toNat
  | shuffle => exact proper_bool s.shuffle
  | sizzle => exact proper_bool s.sizzle
  | arpeggiate => exact proper_bool s.arpeggiate

theorem proper_toJson (s : Settings) : Proper (tokens s.toJson) := by
  refine proper_object ?_
  simp only [List.forall_mem_map]
  exact fun f _ => s.proper_fieldJson f

/-- **Settings as JSON.** The object with one member per field, written in
either layout, is parsed as the same settings, whatever these are. -/
theorem parse_write_toJson (style : Style) (s : Settings) :
    s.toJson = .record
        [("notes", s.notes.toJson), ("pattern", .text s.pattern), ("subdiv", .text s.subdivision),
          ("velocity", .natural s.velocity.toNat), ("accentMap", .text s.accentMap),
          ("accentHi", .natural s.accentHi.toNat), ("accentLo", .natural s.accentLo.toNat),
          ("shuffle", .bool s.shuffle), ("sizzle", .bool s.sizzle),
          ("arpeggiate", .bool s.arpeggiate)] ∧
      parse (write style s.toJson) = .ok s := by
  refine ⟨rfl, ?_⟩
  rw [parse, parse?_write style s.proper_toJson, Option.bind_some, ofJson?_toJson]

end Settings

end RhythmClip
