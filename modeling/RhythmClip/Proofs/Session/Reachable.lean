import RhythmClip.Proofs.Clip.Compile
import RhythmClip.Proofs.Session.Run

/-!
# The settings a session can come to

A session starts from the defaults and goes on line by line, with any lines at
all. It comes to admissible settings only, since every line keeps them
admissible; and to all of them, since any admissible settings can be put into words.
So compiling finds nothing to object to in the settings of a session, other
than times that cannot be written down.

* `Reachable.admissible`: the settings of a session are admissible.
* `Admissible.reachable`: five lines come to any admissible settings.
* `compile_of_admissible`: how compiling them can end.
* `reachable_iff_admissible`: the three together.
-/
namespace RhythmClip.Session

open Text Settings

variable {palette : Palette} {line arg : String} {s t : Settings} {c : Command}

/-! ## Runs -/

/-- The settings after some lines, each typed, run as a command or compiled as a pattern. -/
inductive Reachable (palette : Palette) : Settings → Prop where
  | fresh : Reachable palette {}
  | typed {s : Settings} (line : String) : Reachable palette s →
    Reachable palette (step palette line s).settings
  | executed {s : Settings} (line : String) : Reachable palette s →
    Reachable palette (execute palette line s).settings
  | compiled {s : Settings} (line : String) : Reachable palette s →
    Reachable palette (bare palette line s).settings

theorem Reachable.admissible (h : Reachable palette s) : Admissible s := by
  induction h with
  | fresh => exact admissible_fresh
  | typed line _ ih => exact ih.step palette line
  | executed line _ ih => exact ih.execute palette line
  | compiled line _ ih => rwa [settings_bare]

/-! ## Reaching settings -/

theorem Reachable.after (h : Reachable palette s) (lines : List String) :
    Reachable palette (after palette s lines) := by
  induction lines generalizing s with
  | nil => exact h
  | cons line later ih => exact ih (h.typed line)

/-- How a map is typed: `off` stands for the empty one. -/
theorem exists_typed_map {map : String} (h : ∀ c ∈ map.toList, c = 'x' ∨ c = '-') :
    ∃ typed, typed ≠ "" ∧ NoBlank typed ∧ (if typed = "off" then "" else typed) = map := by
  have hoff : NoBlank "off" := by decide +kernel
  by_cases hmap : map = ""
  · exact ⟨"off", by decide, hoff, by rw [if_pos rfl, hmap]⟩
  · exact ⟨map, hmap, noBlank_of_accentMap h, if_neg (ne_off_of_accentMap h)⟩

theorem Admissible.exists_wording (h : Admissible s) : Nonempty (Wording s) := by
  obtain ⟨text, hnotes, -⟩ := h.notes
  obtain ⟨typed, hne, hmap, htyped⟩ := exists_typed_map h.accentMap
  exact ⟨{
    notes := text
    velocity := decimal s.velocity.toNat
    accent := typed
    hi := decimal s.accentHi.toNat
    lo := decimal s.accentLo.toNat
    notes_eq := hnotes
    velocity_eq := byte?_decimal s.velocity
    accent_ne := hne
    noBlank_accent := hmap
    accent_eq := htyped
    hi_eq := byte?_decimal s.accentHi
    lo_eq := byte?_decimal s.accentLo }⟩

/-- One line for each editing command is enough. -/
theorem Admissible.reachable (h : Admissible s) (palette : Palette) : Reachable palette s := by
  obtain ⟨w⟩ := h.exists_wording
  have hafter := (w.after_eq_of_perm h palette (.refl w.lines)).2
  rw [← hafter]
  exact Reachable.fresh.after w.lines

/-- After `notes CM E4`, `velocity 90` and `accent x- 120 60`. -/
def changed : Settings :=
  { notes := .text "CM E4", velocity := 90, accentMap := "x-", accentHi := 120, accentLo := 60 }

theorem reachable_changed : Reachable .plain changed := by
  have hafter : after .plain {} ["notes CM E4", "velocity 90", "accent x- 120 60"] = changed := by
    decide +kernel
  exact hafter ▸ Reachable.fresh.after _

/-! ## Compiling -/

theorem compile_of_admissible (h : Admissible s) :
    (∃ clip, Clip.compile standardChords s = .ok clip) ∨
      Clip.compile standardChords s = .error (.pattern .tooDeep) := by
  obtain ⟨text, hnotes, -, voicings, hv⟩ := h.notes
  obtain ⟨p, hp⟩ := h.pattern
  rw [← hnotes] at hv
  rw [Clip.compile_eq_assembleFrom h.check hv hp]
  cases hclip : Clip.assembleFrom s voicings p with
  | ok clip => exact .inl ⟨clip, rfl⟩
  | error e => rw [((Clip.assemble_eq_error_iff _ _ _ _ e).1 hclip).1]; exact .inr rfl

/-- What is replied when a clip is to be shown. -/
theorem reply_compile (s t : Settings) (text : Clip → String) :
    (Step.attempt s (Attempt.compile standardChords t) fun clip => .say s (text clip)).reply =
      match Clip.compile standardChords t with
      | .ok clip => .message (text clip)
      | .error fault => .error (.fault fault) := by
  have ho := Attempt.outcome_compile standardChords t
  cases hc : Clip.compile standardChords t with
  | ok clip => rw [Step.reply_attempt_of_ok (ho.trans hc)]; rfl
  | error fault => rw [Step.reply_attempt_of_error (ho.trans hc)]

theorem reply_clip (palette : Palette) (s : Settings) :
    (Command.clip.run palette "" s).reply =
      match Clip.compile standardChords s with
      | .ok clip => .message (clip.listing palette)
      | .error fault => .error (.fault fault) :=
  reply_compile s s (Clip.listing palette)

theorem reply_json (palette : Palette) (arg : String) (s : Settings) :
    (Command.json.run palette arg s).reply =
      match Clip.compile standardChords s with
      | .ok clip => .message clip.json
      | .error fault => .error (.fault fault) :=
  reply_compile s s Clip.json

theorem calls_clip : Calls "clip" .clip "" := ⟨"clip", List.mem_singleton.2 rfl, .inl ⟨rfl, rfl⟩⟩

theorem calls_json : Calls "json" .json "" := ⟨"json", List.mem_singleton.2 rfl, .inl ⟨rfl, rfl⟩⟩

theorem reply_step_clip (palette : Palette) (s : Settings) :
    (step palette "clip" s).reply =
      match Clip.compile standardChords s with
      | .ok clip => .message (clip.listing palette)
      | .error fault => .error (.fault fault) := by
  rw [step_of_calls calls_clip]
  exact reply_clip palette s

theorem reply_step_json (palette : Palette) (s : Settings) :
    (step palette "json" s).reply =
      match Clip.compile standardChords s with
      | .ok clip => .message clip.json
      | .error fault => .error (.fault fault) := by
  rw [step_of_calls calls_json]
  exact reply_json palette "" s

/-- **The settings of sessions.** With any lines, a session comes to exactly
the admissible settings. So a line that calls for a listing of the present
settings, or for their JSON, is answered with a text, or else with the one
complaint that the pattern nests too deeply. -/
theorem reachable_iff_admissible (palette : Palette) :
    (∀ s, Reachable palette s ↔ Admissible s) ∧
      ∀ s line c arg, Reachable palette s → Calls line c arg →
        (c = .clip ∧ arg = "" ∨ c = .json) →
          ∀ done ∈ [execute palette line s, step palette line s],
            (∃ text, done.reply = .message text) ∨
              ∃ why, done.reply = .error why ∧
                why.text = "pattern syntax error: pattern nests too deeply for exact timing" := by
  refine ⟨fun s => ⟨Reachable.admissible, fun h => h.reachable palette⟩, ?_⟩
  intro s line c arg hs hc hshows done hdone
  rw [execute_of_calls hc, step_of_calls hc] at hdone
  obtain rfl : done = c.run palette arg s := by simpa using hdone
  rcases compile_of_admissible hs.admissible with ⟨clip, hclip⟩ | hdeep
  · left
    rcases hshows with ⟨rfl, rfl⟩ | rfl
    · exact ⟨clip.listing palette, by rw [reply_clip, hclip]⟩
    · exact ⟨clip.json, by rw [reply_json, hclip]⟩
  · right
    refine ⟨.fault (.pattern .tooDeep), ?_, rfl⟩
    rcases hshows with ⟨rfl, rfl⟩ | rfl
    · rw [reply_clip, hdeep]
    · rw [reply_json, hdeep]

/-- A chord, a velocity and accents of its own keep settings fit to be compiled. -/
theorem reachable_iff_admissible_changed :
    Reachable .plain changed ∧ Reachable .coloured changed ∧ Calls "json" .json "" ∧
      ((∃ text, (execute .plain "json" changed).reply = .message text) ∨
        ∃ why, (execute .plain "json" changed).reply = .error why ∧
          why.text = "pattern syntax error: pattern nests too deeply for exact timing") := by
  have hadmissible : Admissible changed :=
    ((reachable_iff_admissible .plain).1 changed).1 reachable_changed
  exact ⟨reachable_changed, ((reachable_iff_admissible .coloured).1 changed).2 hadmissible,
    calls_json, (reachable_iff_admissible .plain).2 changed "json" .json "" reachable_changed
      calls_json (.inr rfl) _ List.mem_cons_self⟩

end RhythmClip.Session
