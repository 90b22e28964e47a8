import RhythmClip.Proofs.Clip.Listing
import RhythmClip.Proofs.Json.Clear
import RhythmClip.Proofs.Text.Ink

/-!
# Clips in colour

Only what an event does and the summary are painted, and both are printed text.
So the listing of a clip in colour shows the plain one line by line, with
everything in its column.

* `shows_listing`: the listing in colour.
* `map_unpainted_lines`: its lines.
-/
namespace RhythmClip

open Text

theorem Event.shows_describe (e : Event) : Shows (e.describe .coloured) (e.describe .plain) := by
  obtain ⟨sound, duration, velocity⟩ := e
  cases sound with
  | note v =>
    have hvoicing := shows_paint Colour.cyan.ink (by decide) v.isPrinted_text.noEscape
    have hnumber := (isWord_decimal velocity.toNat).isPrinted.noEscape
    have hvelocity := shows_paint Emphasis.dim.ink (by decide)
      ((by decide : NoEscape "vel ").append hnumber)
    exact (hvoicing.append (NoEscape.shows (by decide))).append hvelocity
  | rest => exact shows_paint _ (by decide) (by decide)
  | sustain => exact shows_paint _ (by decide) (by decide)

theorem Event.shows_line (number : Nat) (start : Ticks) (e : Event) :
    Shows (e.line .coloured number start) (e.line .plain number start) := by
  have hnumber := ((isWord_decimal number).isPrinted.alignRight 3).noEscape
  have hstart := (start.isWord_text.isPrinted.alignLeft 8).noEscape
  have hduration := (e.duration.isWord_text.isPrinted.alignLeft 8).noEscape
  have htimes := (((hnumber.append (by decide : NoEscape "  @")).append hstart).append
    (by decide : NoEscape " ")).append hduration
  exact (htimes.append (by decide)).shows.append e.shows_describe

namespace Clip

theorem shows_eventLines (number : Nat) (timeline : List (Ticks × Event)) :
    List.Forall₂ Shows (eventLines .coloured number timeline)
      (eventLines .plain number timeline) := by
  induction timeline generalizing number with
  | nil => exact .nil
  | cons entry later ih =>
    obtain ⟨start, e⟩ := entry
    exact .cons (e.shows_line number start) (ih (number + 1))

/-- The lines in colour, and without it. -/
theorem shows_lines (c : Clip) :
    List.Forall₂ Shows
      (eventLines .coloured 0 c.timeline ++ [paint .coloured Emphasis.dim.ink c.summary])
      (eventLines .plain 0 c.timeline ++ [c.summary]) :=
  List.rel_append (shows_eventLines 0 c.timeline)
    (.cons (shows_paint _ (by decide) c.isPrinted_summary.noEscape) .nil)

theorem shows_listing (c : Clip) : Shows (c.listing .coloured) (c.listing .plain) :=
  .intercalate (by decide) c.shows_lines

theorem map_unpainted_lines (c : Clip) :
    (lines (c.listing .coloured)).map unpainted = lines (c.listing .plain) :=
  Shows.map_unpainted_lines c.shows_lines (by simp) c.not_mem_newline_lines

end Clip

/-! ## JSON has no ink -/

theorem proper_integer (z : Int) : Json.Proper (Json.tokens (.integer z)) := by
  have hnumber : Json.isNumber (decimalInt z).toList = true :=
    Json.isNumber_iff.2 (Json.isNumber_decimalInt z)
  simp [Json.integer, Json.tokens, hnumber]

theorem Event.proper_toJson (e : Event) : Json.Proper (Json.tokens e.toJson) := by
  have hpitches : Json.Proper (Json.tokens e.pitchesJson) := by
    unfold pitchesJson
    split
    · exact Json.proper_array (List.forall_mem_map.2 fun name _ => Json.proper_text name)
    · simp [Json.null, Json.tokens]
  have hduration : Json.Proper
      (Json.tokens (.array [.integer e.duration.num, .natural e.duration.den])) := by
    refine Json.proper_array ?_
    simp only [List.forall_mem_cons]
    exact ⟨proper_integer _, Json.proper_natural _, List.forall_mem_nil _⟩
  refine Json.proper_object ?_
  simp only [List.map_cons, List.map_nil, List.forall_mem_cons]
  exact ⟨hpitches, hduration, Json.proper_natural _, Json.proper_text _, List.forall_mem_nil _⟩

theorem Clip.noEscape_json (c : Clip) : NoEscape c.json := by
  have hproper : Json.Proper (Json.tokens (.array c.eventsJson)) :=
    Json.proper_array (List.forall_mem_map.2 fun e _ => e.proper_toJson)
  rintro ch hch rfl
  rw [json, Json.write, String.toList_ofList] at hch
  exact absurd (Json.isClear_writeChars .spread 0 _ hproper _ hch) (by decide)

end RhythmClip
