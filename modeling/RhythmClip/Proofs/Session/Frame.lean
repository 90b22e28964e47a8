import RhythmClip.Proofs.Session.Command
import RhythmClip.Settings.Json

/-!
# What a line can change

Settings are looked at field by field. A command owns the fields that it is
there to set; whatever it is told and whatever the settings were, it leaves
the other fields as they are, and it leaves all of them as they are unless it
is carried out.

* `Settings.ext_get`: settings are the values of their fields.
* `agreeOff_of_edits`: an edit keeps to the fields of its command.
* `settings_execute_of_not_isDone`, `settings_step_of_not_isDone`: a line that is not
  carried out changes nothing.
* `frame_of_line`: both, for every way to give a line.
-/
namespace RhythmClip

namespace Settings

/-! ## Fields and their values -/

def Field.Value : Field → Type
  | .notes => NoteList
  | .pattern | .subdivision | .accentMap => String
  | .velocity | .accentHi | .accentLo => UInt8
  | .shuffle | .sizzle | .arpeggiate => Bool

def get (s : Settings) : (f : Field) → f.Value
  | .notes => s.notes
  | .pattern => s.pattern
  | .subdivision => s.subdivision
  | .velocity => s.velocity
  | .accentMap => s.accentMap
  | .accentHi => s.accentHi
  | .accentLo => s.accentLo
  | .shuffle => s.shuffle
  | .sizzle => s.sizzle
  | .arpeggiate => s.arpeggiate

theorem ext_get {s t : Settings} (h : ∀ f, s.get f = t.get f) : s = t := by
  obtain ⟨n, p, d, v, m, hi, lo, sh, si, ar⟩ := s
  obtain ⟨n', p', d', v', m', hi', lo', sh', si', ar'⟩ := t
  obtain rfl : n = n' := h .notes
  obtain rfl : p = p' := h .pattern
  obtain rfl : d = d' := h .subdivision
  obtain rfl : v = v' := h .velocity
  obtain rfl : m = m' := h .accentMap
  obtain rfl : hi = hi' := h .accentHi
  obtain rfl : lo = lo' := h .accentLo
  obtain rfl : sh = sh' := h .shuffle
  obtain rfl : si = si' := h .sizzle
  obtain rfl : ar = ar' := h .arpeggiate
  rfl

/-- No field outside the given ones differs. -/
def AgreeOff (fields : List Field) (s t : Settings) : Prop := ∀ f, f ∉ fields → t.get f = s.get f

theorem AgreeOff.refl (fields : List Field) (s : Settings) : AgreeOff fields s s := fun _ _ => rfl

theorem AgreeOff.eq {s t : Settings} (h : AgreeOff [] s t) : t = s :=
  ext_get fun f => h f (List.not_mem_nil)

end Settings

namespace Session

open Text Settings

/-- The fields that a command is there to set. -/
def Command.owned : Command → List Field
  | .notes => [.notes]
  | .pattern => [.pattern]
  | .subdivision => [.subdivision]
  | .velocity => [.velocity]
  | .accent => [.accentMap, .accentHi, .accentLo]
  | .reset => Field.all
  | .clip | .json | .chord | .overview | .help | .quit => []

variable {palette : Palette} {line arg : String} {s t : Settings} {c : Command}

/-! ## Edits -/

theorem readAccent_eq_ok {map : String} {typed : List String} (h : readAccent s map typed = .ok t) :
    ∃ hi lo, readVelocity s.accentHi typed.head? = .ok hi ∧
      readVelocity s.accentLo typed.tail.head? = .ok lo ∧
      t = { s with
        accentMap := if map = "off" then "" else map, accentHi := hi, accentLo := lo } := by
  unfold readAccent at h
  cases hhi : readVelocity s.accentHi typed.head? with
  | error e => rw [hhi] at h; cases h
  | ok hi =>
    cases hlo : readVelocity s.accentLo typed.tail.head? with
    | error e => rw [hhi, hlo] at h; cases h
    | ok lo =>
      rw [hhi, hlo] at h
      cases h
      exact ⟨hi, lo, rfl, rfl, rfl⟩

theorem agreeOff_of_edits (h : Edits c arg s t) : AgreeOff c.owned s t := by
  intro f hf
  -- each field is left alone or owned
  cases h with
  | notes =>
    cases f with
    | notes => exact absurd (by decide) hf
    | _ => rfl
  | pattern =>
    cases f with
    | pattern => exact absurd (by decide) hf
    | _ => rfl
  | subdivision d =>
    cases f with
    | subdivision => exact absurd (by decide) hf
    | _ => rfl
  | velocity =>
    cases f with
    | velocity => exact absurd (by decide) hf
    | _ => rfl
  | accent _ hr _ =>
    obtain ⟨hi, lo, -, -, rfl⟩ := readAccent_eq_ok hr
    cases f with
    | accentMap | accentHi | accentLo => exact absurd (by decide) hf
    | _ => rfl
  | reset => cases f <;> exact absurd (by decide) hf

theorem agreeOff_run (palette : Palette) (arg : String) (s : Settings) (c : Command) :
    AgreeOff c.owned s (c.run palette arg s).settings := by
  rcases run_cases palette arg s c with h | ⟨h, -⟩
  · rw [h]
    exact .refl _ s
  · exact agreeOff_of_edits h

/-! ## Lines -/

theorem settings_run_of_not_isDone (h : (c.run palette arg s).reply.isDone = false) :
    (c.run palette arg s).settings = s := by
  rcases run_cases palette arg s c with hs | ⟨-, hdone⟩
  · exact hs
  · rw [hdone] at h
    cases h

/-- A line calls a command, or it calls none. -/
theorem calls_or_not (line : String) :
    (∃ c arg, Calls line c arg) ∨ ∀ c arg, ¬Calls line c arg := by
  by_cases h : ∃ c arg, Calls line c arg
  · exact .inl h
  · exact .inr fun c arg hc => h ⟨c, arg, hc⟩

theorem settings_execute_of_not_isDone (h : (execute palette line s).reply.isDone = false) :
    (execute palette line s).settings = s := by
  rcases calls_or_not line with ⟨c, arg, hc⟩ | hno
  · rw [execute_of_calls hc] at h ⊢
    exact settings_run_of_not_isDone h
  · rw [execute_of_not_calls hno]

theorem settings_step_of_not_isDone (h : (step palette line s).reply.isDone = false) :
    (step palette line s).settings = s := by
  rcases calls_or_not line with ⟨c, arg, hc⟩ | hno
  · rw [step_of_calls hc] at h ⊢
    exact settings_run_of_not_isDone h
  · rw [step_of_not_calls hno]
    exact settings_bare palette line s

theorem not_isDone {r : Reply} (h : r = .exit ∨ r = .notACommand ∨ ∃ why, r = .error why) :
    r.isDone = false := by
  rcases h with rfl | rfl | ⟨why, rfl⟩ <;> rfl

/-- **A line changes its own fields or none.** Whatever the settings were: a
line that is refused, that ends the session or that is no command changes
nothing, and neither does a bare pattern. A line that calls a command is run
as that command, alone or as a typed line, and changes no field but those of
the command; so a command without fields of its own changes nothing. -/
theorem frame_of_line (palette : Palette) (line : String) (s : Settings) :
    (∀ done ∈ [execute palette line s, step palette line s, bare palette line s],
      (done.reply = .exit ∨ done.reply = .notACommand ∨ ∃ why, done.reply = .error why) →
        done.settings = s) ∧
      (bare palette line s).settings = s ∧
      ((∀ c arg, ¬Calls line c arg) →
        (execute palette line s).reply = .notACommand ∧
          step palette line s = bare palette line s) ∧
      ∀ c arg, Calls line c arg →
        step palette line s = execute palette line s ∧
          AgreeOff c.owned s (execute palette line s).settings ∧
          (c.owned = [] → (execute palette line s).settings = s) := by
  refine ⟨fun done hmem hreply => ?_, settings_bare palette line s, fun hno => ?_,
    fun c arg hc => ?_⟩
  · have hnot := not_isDone hreply
    simp only [List.mem_cons, List.not_mem_nil, or_false] at hmem
    rcases hmem with rfl | rfl | rfl
    · exact settings_execute_of_not_isDone hnot
    · exact settings_step_of_not_isDone hnot
    · exact settings_bare palette line s
  · rw [execute_of_not_calls hno]
    exact ⟨rfl, step_of_not_calls hno palette s⟩
  · rw [execute_of_calls hc]
    refine ⟨step_of_calls hc palette s, agreeOff_run palette arg s c, fun hnone => ?_⟩
    have h := agreeOff_run palette arg s c
    rw [hnone] at h
    exact h.eq

/-- A velocity that is too loud elsewhere refuses new accents as a whole. -/
theorem frame_of_line_refused :
    (execute .plain "accent x- 100 40" { velocity := 200 }).settings = { velocity := 200 } :=
  (frame_of_line .plain "accent x- 100 40" { velocity := 200 }).1 _ (List.mem_cons_self ..)
    (.inr (.inr ⟨.fault (.setting (.tooLoud .velocity 200)), by decide +kernel⟩))

end Session

end RhythmClip
