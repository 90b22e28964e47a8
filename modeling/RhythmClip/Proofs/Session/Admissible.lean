import RhythmClip.Proofs.Session.Frame

/-!
# Admissible settings

One condition on each field describes what a session can store. Every edit
judges what it stores, so the conditions are an invariant of a session, and
they hold when it begins.

* `admissible_fresh`: the settings at the beginning.
* `Admissible.edits`: an edit stores what it has judged.
* `Admissible.execute`, `Admissible.step`: a line keeps settings admissible.
-/
namespace RhythmClip

/-! ## Names of subdivisions -/

namespace Subdivision

theorem name_mem (d : Subdivision) : d.name ∈ ["1n", "2n", "4n", "8n", "16n"] := by
  cases d <;> decide +kernel

theorem exists_name_eq {name : String} (h : name ∈ ["1n", "2n", "4n", "8n", "16n"]) :
    ∃ d : Subdivision, d.name = name := by
  have hall : ∀ name ∈ ["1n", "2n", "4n", "8n", "16n"], ∃ d ∈ Subdivision.all, d.name = name := by
    decide +kernel
  obtain ⟨d, -, hd⟩ := hall name h
  exact ⟨d, hd⟩

theorem trimmed_name (d : Subdivision) : Text.Trimmed d.name := by
  rw [← Text.trim_eq_self_iff]
  cases d <;> decide +kernel

end Subdivision

namespace Session

open Text Settings

variable {palette : Palette} {line arg : String} {s t : Settings} {c : Command}

/-- What the fields hold, each on its own. -/
structure Admissible (s : Settings) : Prop where
  notes : ∃ text, s.notes = .text text ∧ Trimmed text ∧
    ∃ voicings, (NoteList.text text).resolve standardChords = .ok voicings
  pattern : ∃ p, Pattern.read s.pattern = .ok p
  subdivision : s.subdivision ∈ ["1n", "2n", "4n", "8n", "16n"]
  velocity : s.velocity ≤ 127
  accentHi : s.accentHi ≤ 127
  accentLo : s.accentLo ≤ 127
  accentMap : ∀ c ∈ s.accentMap.toList, c = 'x' ∨ c = '-'
  shuffle : s.shuffle = false
  sizzle : s.sizzle = false
  arpeggiate : s.arpeggiate = false

theorem isAccentChar_iff (c : Char) : isAccentChar c = true ↔ c = 'x' ∨ c = '-' := by
  simp [isAccentChar]

theorem Admissible.check (h : Admissible s) : s.check = .ok () :=
  (check_eq_ok_iff s).2 ⟨h.velocity, h.accentHi, h.accentLo,
    fun c hc => (isAccentChar_iff c).2 (h.accentMap c hc)⟩

theorem admissible_fresh : Admissible {} where
  notes := ⟨"C4", rfl, (trim_eq_self_iff _).1 (by decide +kernel), _, rfl⟩
  pattern := ⟨_, rfl⟩
  subdivision := by decide
  velocity := by decide
  accentHi := by decide
  accentLo := by decide
  accentMap := by simp
  shuffle := rfl
  sizzle := rfl
  arpeggiate := rfl

/-- An edit stores what it has judged. -/
theorem Admissible.edits (h : Admissible s) (he : Edits c arg s t) (harg : Trimmed arg) :
    Admissible t := by
  cases he with
  | notes _ hv => exact { h with notes := ⟨arg, rfl, harg, _, hv⟩ }
  | pattern _ hp => exact { h with pattern := ⟨_, hp⟩ }
  | subdivision d => exact { h with subdivision := d.name_mem }
  | velocity _ hle => exact { h with velocity := hle }
  | accent _ hr hc =>
    obtain ⟨hi, lo, -, -, rfl⟩ := readAccent_eq_ok hr
    obtain ⟨-, hhi, hlo, hmap⟩ := (check_eq_ok_iff _).1 hc
    exact { h with
      accentHi := hhi
      accentLo := hlo
      accentMap := fun c hc => (isAccentChar_iff c).1 (hmap c hc) }
  | reset => exact admissible_fresh

theorem Admissible.run (h : Admissible s) (palette : Palette) (harg : Trimmed arg) (c : Command) :
    Admissible (c.run palette arg s).settings := by
  rcases run_cases palette arg s c with hs | ⟨he, -⟩
  · rwa [hs]
  · exact h.edits he harg

theorem Admissible.execute (h : Admissible s) (palette : Palette) (line : String) :
    Admissible (execute palette line s).settings := by
  rcases calls_or_not line with ⟨c, arg, hc⟩ | hno
  · rw [execute_of_calls hc]
    exact h.run palette hc.trimmed c
  · rwa [execute_of_not_calls hno]

theorem Admissible.step (h : Admissible s) (palette : Palette) (line : String) :
    Admissible (step palette line s).settings := by
  rcases calls_or_not line with ⟨c, arg, hc⟩ | hno
  · rw [step_of_calls hc]
    exact h.run palette hc.trimmed c
  · rwa [step_of_not_calls hno, settings_bare]

end Session

end RhythmClip
