import RhythmClip.Proofs.Session.Reachable

/-!
# Setting fields in any order

Five commands set fields by their argument, each fields of its own. What such a
command says and what it stores depends on its own fields only, in settings
that a session can come to: of the other fields only the accents are judged
together with one, the plain velocity, and that is never too loud there. So a
line for one of them can neither hear nor undo a line for another, and a line
that is given twice finds everything as it has left it.

* `run_alike`: settings that agree on the fields of a command are the same to it.
* `answers_run_after`, `settings_run_comm`: lines for two commands in either order.
* `Edits.again`, `settings_run_again`: a line given twice.
* `setters_commute`: both, for the lines of a session.
-/
namespace RhythmClip

namespace Settings

/-- No field among the given ones differs. -/
def AgreeOn (fields : List Field) (s t : Settings) : Prop := ∀ f ∈ fields, t.get f = s.get f

theorem AgreeOff.agreeOn {fields others : List Field} {s t : Settings} (h : AgreeOff others s t)
    (hdisjoint : ∀ f ∈ fields, f ∉ others) : AgreeOn fields s t :=
  fun f hf => h f (hdisjoint f hf)

theorem agreeOn_singleton {f : Field} {s t : Settings} (h : t.get f = s.get f) :
    AgreeOn [f] s t := List.forall_mem_singleton.2 h

/-- The settings with other accents. -/
def withAccents (s : Settings) (map : String) (hi lo : UInt8) : Settings :=
  { s with accentMap := map, accentHi := hi, accentLo := lo }

end Settings

namespace Session

open Text Settings

variable {palette : Palette} {line arg arg' : String} {s t : Settings} {c c' : Command}

/-- The commands that set fields by their argument. -/
def Command.setters : List Command := [.notes, .pattern, .subdivision, .velocity, .accent]

theorem owned_disjoint (hc : c ∈ Command.setters) (hc' : c' ∈ Command.setters) (hne : c ≠ c') :
    ∀ f ∈ c.owned, f ∉ c'.owned := by
  have hall : ∀ c ∈ Command.setters, ∀ c' ∈ Command.setters, c ≠ c' →
      ∀ f ∈ c.owned, f ∉ c'.owned := by decide
  exact hall c hc c' hc' hne

/-! ## Answers -/

/-- The steps say, print and record the same. -/
structure Step.AnswersAs (a b : Step) : Prop where
  reply : b.reply = a.reply
  printed : b.printed = a.printed
  records : b.records = a.records

/-- The steps answer the same, and leave the same in the given fields. -/
structure Step.Alike (fields : List Field) (a b : Step) : Prop where
  answers : a.AnswersAs b
  settings : AgreeOn fields a.settings b.settings

section Alike

variable {fields : List Field}

theorem alike_say (h : AgreeOn fields s t) (text : String) :
    (Step.say s text).Alike fields (Step.say t text) := ⟨⟨rfl, rfl, rfl⟩, h⟩

theorem alike_refuse (h : AgreeOn fields s t) (why : Complaint) :
    (Step.refuse s why).Alike fields (Step.refuse t why) := ⟨⟨rfl, rfl, rfl⟩, h⟩

theorem alike_success (h : AgreeOn fields s t) :
    Step.Alike fields { reply := .success, settings := s } { reply := .success, settings := t } :=
  ⟨⟨rfl, rfl, rfl⟩, h⟩

theorem alike_attempt {α : Type} (h : AgreeOn fields s t) (x : Attempt α) {done done' : α → Step}
    (hdone : ∀ a, (done a).Alike fields (done' a)) :
    (Step.attempt s x done).Alike fields (Step.attempt t x done') := by
  unfold Step.attempt
  cases x.outcome with
  | error fault => exact ⟨⟨rfl, rfl, rfl⟩, h⟩
  | ok a =>
    obtain ⟨⟨hreply, hprinted, hrecords⟩, hsettings⟩ := hdone a
    exact ⟨⟨hreply, hprinted, congrArg (x.records ++ ·) hrecords⟩, hsettings⟩

end Alike

/-! ## What a command reads -/

theorem notes_alike (h : AgreeOn [.notes] s t) :
    (notes palette arg s).Alike [.notes] (notes palette arg t) := by
  have hnotes : t.notes = s.notes := h .notes (List.mem_singleton.2 rfl)
  unfold notes
  rw [hnotes]
  split
  · exact alike_say h _
  · exact alike_attempt h _ fun _ => alike_say (agreeOn_singleton (by rfl)) _

theorem pattern_alike (h : AgreeOn [.pattern] s t) :
    (pattern palette arg s).Alike [.pattern] (pattern palette arg t) := by
  have hpattern : t.pattern = s.pattern := h .pattern (List.mem_singleton.2 rfl)
  unfold pattern
  rw [hpattern]
  split
  · exact alike_say h _
  · exact alike_attempt h _ fun _ => alike_say (agreeOn_singleton (by rfl)) _

theorem subdivision_alike (h : AgreeOn [.subdivision] s t) :
    (subdivision arg s).Alike [.subdivision] (subdivision arg t) := by
  have hname : t.subdivision = s.subdivision := h .subdivision (List.mem_singleton.2 rfl)
  have hgrid : Attempt.grid t = Attempt.grid s := by
    rw [Attempt.grid, Attempt.grid, grid, gridRecords, hname]
    rfl
  unfold subdivision
  rw [hgrid]
  split
  · exact alike_attempt h _ fun _ => alike_say h _
  · split
    · exact alike_say (agreeOn_singleton (by rfl)) _
    · exact alike_refuse h _

theorem velocity_alike (h : AgreeOn [.velocity] s t) :
    (velocity arg s).Alike [.velocity] (velocity arg t) := by
  have hvelocity : t.velocity = s.velocity := h .velocity (List.mem_singleton.2 rfl)
  unfold velocity
  rw [hvelocity]
  split
  · exact alike_say h _
  · split
    · exact alike_success (agreeOn_singleton (by rfl))
    · exact alike_refuse h _

/-- The velocities that accents are given; what is not typed stays as it is. -/
def readLoudness (hi lo : UInt8) (typed : List String) : Except Complaint (UInt8 × UInt8) := do
  let hi ← readVelocity hi typed.head?
  let lo ← readVelocity lo typed.tail.head?
  return (hi, lo)

theorem readAccent_eq_map (s : Settings) (map : String) (typed : List String) :
    readAccent s map typed = (readLoudness s.accentHi s.accentLo typed).map fun v =>
      s.withAccents (if map = "off" then "" else map) v.1 v.2 := by
  unfold readAccent readLoudness
  cases readVelocity s.accentHi typed.head? with
  | error why => rfl
  | ok hi => cases readVelocity s.accentLo typed.tail.head? <;> rfl

/-- New accents are judged as a whole with settings that have no other fault,
so it does not matter with which. -/
theorem check_withAccents (hs : Admissible s) (ht : Admissible t) (map : String) (hi lo : UInt8) :
    Attempt.check (t.withAccents map hi lo) = Attempt.check (s.withAccents map hi lo) := by
  have hflags : ∀ u : Settings, Admissible u → (u.withAccents map hi lo).flags = [] := by
    intro u hu
    simp [withAccents, flags, hu.shuffle, hu.sizzle, hu.arpeggiate]
  have hquiet : ∀ u : Settings, Admissible u → ¬maxVelocity < u.velocity :=
    fun u hu => UInt8.not_lt.2 hu.velocity
  have hcheck : (t.withAccents map hi lo).check = (s.withAccents map hi lo).check := by
    simp [withAccents, check, velocities, List.find?_cons, hquiet s hs, hquiet t ht]
  rw [Attempt.check, Attempt.check, hflags s hs, hflags t ht, hcheck]

theorem agreeOn_withAccents (s t : Settings) (map : String) (hi lo : UInt8) :
    AgreeOn Command.accent.owned (s.withAccents map hi lo) (t.withAccents map hi lo) := by
  intro f hf
  cases f with
  | accentMap | accentHi | accentLo => rfl
  | _ => exact absurd hf (by decide)

theorem accent_alike (hs : Admissible s) (ht : Admissible t)
    (h : AgreeOn Command.accent.owned s t) :
    (accent arg s).Alike Command.accent.owned (accent arg t) := by
  have hmap : t.accentMap = s.accentMap := h .accentMap (by decide)
  have hhi : t.accentHi = s.accentHi := h .accentHi (by decide)
  have hlo : t.accentLo = s.accentLo := h .accentLo (by decide)
  cases hw : words arg with
  | nil =>
    simp only [accent, hw, hmap, hhi, hlo]
    exact alike_say h _
  | cons map typed =>
    simp only [accent, hw, readAccent_eq_map, hhi, hlo]
    cases readLoudness s.accentHi s.accentLo typed with
    | error why => exact alike_refuse h why
    | ok v =>
      simp only [Except.map]
      rw [check_withAccents hs ht]
      exact alike_attempt h _ fun _ => alike_success (agreeOn_withAccents s t _ _ _)

/-- Settings that agree on the fields of a command are the same to it. -/
theorem run_alike (hs : Admissible s) (ht : Admissible t) (hc : c ∈ Command.setters)
    (h : AgreeOn c.owned s t) :
    (c.run palette arg s).Alike c.owned (c.run palette arg t) := by
  cases c with
  | notes => exact notes_alike h
  | pattern => exact pattern_alike h
  | subdivision => exact subdivision_alike h
  | velocity => exact velocity_alike h
  | accent => exact accent_alike hs ht h
  | _ => exact absurd hc (by decide)

/-! ## Two commands -/

section Two

variable (hs : Admissible s) (hc : c ∈ Command.setters) (hc' : c' ∈ Command.setters)
  (hne : c ≠ c') (harg : Trimmed arg) (harg' : Trimmed arg')

include hs hc hc' hne harg in
/-- To a command it is the same whether another one has been run before. -/
theorem run_alike_after (palette : Palette) :
    (c'.run palette arg' s).Alike c'.owned
      (c'.run palette arg' (c.run palette arg s).settings) :=
  run_alike hs (hs.run palette harg c) hc'
    ((agreeOff_run palette arg s c).agreeOn (owned_disjoint hc' hc (Ne.symm hne)))

include hs hc hc' hne harg in
theorem get_run_after (palette : Palette) {f : Field} (hf : f ∉ c.owned) :
    (c'.run palette arg' (c.run palette arg s).settings).settings.get f =
      (c'.run palette arg' s).settings.get f := by
  by_cases hf' : f ∈ c'.owned
  · exact (run_alike_after hs hc hc' hne harg palette).settings f hf'
  · rw [agreeOff_run palette arg' _ c' f hf', agreeOff_run palette arg s c f hf,
      agreeOff_run palette arg' s c' f hf']

include hs hc hc' hne harg harg' in
theorem settings_run_comm (palette : Palette) :
    (c'.run palette arg' (c.run palette arg s).settings).settings =
      (c.run palette arg (c'.run palette arg' s).settings).settings := by
  refine ext_get fun f => ?_
  by_cases hf : f ∈ c.owned
  · have hf' := owned_disjoint hc hc' hne f hf
    rw [agreeOff_run palette arg' _ c' f hf', get_run_after hs hc' hc (Ne.symm hne) harg' palette hf']
  · rw [get_run_after hs hc hc' hne harg palette hf, agreeOff_run palette arg _ c f hf]

end Two

/-! ## One command twice -/

theorem readVelocity_again {current v : UInt8} {typed : Option String}
    (h : readVelocity current typed = .ok v) : readVelocity v typed = .ok v := by
  cases typed with
  | none => rfl
  | some text => exact h

/-- An edit that has been made can be made again, and then changes nothing. -/
theorem Edits.again (h : Edits c arg s t) : Edits c arg t t := by
  cases h with
  | notes hne hv => exact .notes hne hv
  | pattern hne hp => exact .pattern hne hp
  | subdivision d => exact .subdivision d
  | velocity hb hle => exact .velocity hb hle
  | accent hw hr hcheck =>
    obtain ⟨hi, lo, hhi, hlo, rfl⟩ := readAccent_eq_ok hr
    refine .accent hw ?_ hcheck
    rw [readAccent, readVelocity_again hhi, readVelocity_again hlo]
    rfl
  | reset => exact .reset

theorem settings_run_again (palette : Palette) (arg : String) (s : Settings) (c : Command) :
    (c.run palette arg (c.run palette arg s).settings).settings =
      (c.run palette arg s).settings := by
  rcases run_cases palette arg s c with h | ⟨h, -⟩
  · rw [h, h]
  · exact (run_of_edits h.again palette).1

/-- **The order of settings does not matter.** In a session, two lines for two
of the commands that set fields, with whatever arguments, are each answered the
same in either order, and come to the same settings. A line for one of them
comes to the same settings when it is given twice. -/
theorem setters_commute (palette : Palette) (s : Settings) (hs : Reachable palette s) :
    (∀ line line' c c' arg arg', c ∈ Command.setters → c' ∈ Command.setters → c ≠ c' →
      Calls line c arg → Calls line' c' arg' →
        let first := execute palette line s
        let first' := execute palette line' s
        let second := execute palette line first'.settings
        let second' := execute palette line' first.settings
        first.AnswersAs second ∧ first'.AnswersAs second' ∧ second.settings = second'.settings) ∧
      ∀ line c arg, c ∈ Command.setters → Calls line c arg →
        (execute palette line (execute palette line s).settings).settings =
          (execute palette line s).settings := by
  have had := hs.admissible
  refine ⟨fun line line' c c' arg arg' hc hc' hne hcalls hcalls' => ?_,
    fun line c arg _ hcalls => ?_⟩
  · simp only [execute_of_calls hcalls, execute_of_calls hcalls']
    exact ⟨(run_alike_after had hc' hc (Ne.symm hne) hcalls'.trimmed palette).answers,
      (run_alike_after had hc hc' hne hcalls.trimmed palette).answers,
      settings_run_comm had hc' hc (Ne.symm hne) hcalls'.trimmed hcalls.trimmed palette⟩
  · simp only [execute_of_calls hcalls]
    exact settings_run_again palette arg s c

/-- Accents without velocities take those that are set, whatever is said of the plain one. -/
theorem setters_commute_accent :
    let accented := (execute .plain "accent x-" {}).settings
    (execute .plain "velocity 90" accented).settings =
        (execute .plain "accent x-" (execute .plain "velocity 90" {}).settings).settings ∧
      (execute .plain "accent x-" accented).settings = accented ∧ accented.accentMap = "x-" := by
  have hvelocity : Calls "velocity 90" .velocity "90" :=
    ⟨"velocity", List.mem_singleton.2 rfl, .inr ⟨"90", by decide +kernel, by decide +kernel⟩⟩
  have haccent : Calls "accent x-" .accent "x-" :=
    ⟨"accent", List.mem_singleton.2 rfl, .inr ⟨"x-", by decide +kernel, by decide +kernel⟩⟩
  obtain ⟨hpair, htwice⟩ := setters_commute .plain {} .fresh
  exact ⟨(hpair _ _ _ _ _ _ (by decide) (by decide) (by decide) hvelocity haccent).2.2.symm,
    htwice _ _ _ (by decide) haccent, by decide +kernel⟩

end Session

end RhythmClip
