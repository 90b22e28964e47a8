import RhythmClip.Clip
import RhythmClip.Proofs.Pattern.Durations
import RhythmClip.Proofs.Pattern.Notation

/-!
# How a clip comes about

Compiling goes through stages, and the first fault decides. Everything that
later modules say about a compiled clip starts from `Compiled`, which names
what each stage gave, and everything about faults from `compile_cases`.

* `compile_cases`: compiling stops at a stage, or puts the clip together.
  Each of these ways has a lemma of its own, `compile_eq_error_of_check` and
  so on, for settings of which the stages before it are known.
* `assemble_eq_ok_iff`, `assemble_eq_error_iff`: when that succeeds.
* `compiled_of_compile`: what stands behind a compiled clip. Conversely
  `Compiled.compile_eq`: where all that is given, there is the clip.
* `Compiled.durations`, `Compiled.starts`: its events last as long as the
  leaves of the pattern and begin at the sums of those before them.
-/
namespace RhythmClip

theorem Subdivision.ticks_pos (g : Subdivision) : 0 < g.ticks := by
  cases g <;> decide +kernel

theorem Subdivision.den_ticks (g : Subdivision) : g.ticks.den = 1 := rfl

theorem Subdivision.den_ticks_le (g : Subdivision) : g.ticks.den ≤ Ticks.wordMax := by
  rw [den_ticks]
  decide

/-- The pattern has a judgement of its own. -/
theorem Settings.check_pattern (s : Settings) (text : String) :
    ({ s with pattern := text } : Settings).check = s.check := rfl

namespace Clip

/-! ## Putting a clip together -/

theorem assemble_eq_ok_iff (grid : Subdivision) (slots : Nat) (exact : Bool) (events : List Event)
    (c : Clip) :
    assemble grid slots exact events = .ok c ↔
      exact = true ∧ Ticks.offsets? (events.map Event.duration) = some (c.starts, c.total) ∧
        c.events = events ∧ c.grid = grid ∧ c.slots = slots := by
  unfold assemble
  split
  · rename_i starts total ho
    rw [ho]
    constructor
    · intro h
      cases h
      exact ⟨rfl, rfl, rfl, rfl, rfl⟩
    · rintro ⟨-, h, rfl, rfl, rfl⟩
      cases h
      rfl
  · rename_i hno
    constructor
    · intro h
      cases h
    · rintro ⟨hexact, h, -⟩
      exact absurd h (hno _ _ hexact)

theorem assemble_eq_error_iff (grid : Subdivision) (slots : Nat) (exact : Bool)
    (events : List Event) (e : Fault) :
    assemble grid slots exact events = .error e ↔
      e = .pattern .tooDeep ∧
        ¬(exact = true ∧ (Ticks.offsets? (events.map Event.duration)).isSome) := by
  unfold assemble
  split
  · rename_i starts total ho
    simp [ho]
  · rename_i hno
    constructor
    · intro h
      cases h
      refine ⟨rfl, fun ⟨hexact, hsome⟩ => ?_⟩
      obtain ⟨o, ho⟩ := Option.isSome_iff_exists.1 hsome
      exact hno o.1 o.2 hexact ho
    · rintro ⟨rfl, -⟩
      rfl

/-! ## Stages -/

/-- What is put together once settings, notes and pattern are accepted. -/
def assembleFrom (s : Settings) (voicings : Cycle Voicing) (p : Pattern) : Except Fault Clip :=
  assemble s.grid p.slots (p.layOut s.grid.ticks).exact
    ((s.part voicings).perform 0 (p.layOut s.grid.ticks).leaves)

theorem compile_eq_assembleFrom {d : Dictionary} {s : Settings} {v : Cycle Voicing} {p : Pattern}
    (hc : s.check = .ok ()) (hv : s.notes.resolve d = .ok v) (hp : Pattern.read s.pattern = .ok p) :
    compile d s = assembleFrom s v p := by
  rw [compile, hc, hv, hp]
  rfl

theorem compile_eq_error_of_check {s : Settings} {e : Fault} (hc : s.check = .error e)
    (d : Dictionary) : compile d s = .error e := by
  rw [compile, hc]
  rfl

theorem compile_eq_error_of_resolve {d : Dictionary} {s : Settings} {e : Fault}
    (hc : s.check = .ok ()) (hv : s.notes.resolve d = .error e) : compile d s = .error e := by
  rw [compile, hc, hv]
  rfl

theorem compile_eq_error_of_read {d : Dictionary} {s : Settings} {v : Cycle Voicing} {e : Fault}
    (hc : s.check = .ok ()) (hv : s.notes.resolve d = .ok v)
    (hp : Pattern.read s.pattern = .error e) : compile d s = .error e := by
  rw [compile, hc, hv, hp]
  rfl

/-- The four ways compiling can go. -/
theorem compile_cases (d : Dictionary) (s : Settings) :
    (∃ e, s.check = .error e ∧ compile d s = .error e) ∨
      (s.check = .ok () ∧ ∃ e, s.notes.resolve d = .error e ∧ compile d s = .error e) ∨
      (s.check = .ok () ∧ ∃ v, s.notes.resolve d = .ok v ∧
        ∃ e, Pattern.read s.pattern = .error e ∧ compile d s = .error e) ∨
      (s.check = .ok () ∧ ∃ v, s.notes.resolve d = .ok v ∧
        ∃ p, Pattern.read s.pattern = .ok p ∧ compile d s = assembleFrom s v p) := by
  cases hc : s.check with
  | error e => exact .inl ⟨e, rfl, compile_eq_error_of_check hc d⟩
  | ok u =>
    right
    cases hv : s.notes.resolve d with
    | error e => exact .inl ⟨rfl, e, rfl, compile_eq_error_of_resolve hc hv⟩
    | ok v =>
      right
      cases hp : Pattern.read s.pattern with
      | error e => exact .inl ⟨rfl, v, rfl, e, rfl, compile_eq_error_of_read hc hv hp⟩
      | ok p => exact .inr ⟨rfl, v, rfl, p, rfl, compile_eq_assembleFrom hc hv hp⟩

theorem exists_clip {d : Dictionary} {s : Settings} (h : (compile d s).isOk = true) :
    ∃ c, compile d s = .ok c := by
  cases hc : compile d s with
  | error e => rw [hc] at h; cases h
  | ok c => exact ⟨c, rfl⟩

/-- What each stage gave on the way to a clip. -/
structure Compiled (d : Dictionary) (s : Settings) (voicings : Cycle Voicing) (p : Pattern)
    (c : Clip) : Prop where
  check : s.check = .ok ()
  resolve : s.notes.resolve d = .ok voicings
  read : Pattern.read s.pattern = .ok p
  exact : (p.layOut s.grid.ticks).exact = true
  events : c.events = (s.part voicings).perform 0 (p.layOut s.grid.ticks).leaves
  offsets : Ticks.offsets? (c.events.map Event.duration) = some (c.starts, c.total)
  grid : c.grid = s.grid
  slots : c.slots = p.slots

theorem compiled_of_compile {d : Dictionary} {s : Settings} {c : Clip}
    (h : compile d s = .ok c) : ∃ voicings p, Compiled d s voicings p c := by
  rcases compile_cases d s with ⟨e, -, he⟩ | ⟨-, e, -, he⟩ | ⟨-, v, -, e, -, he⟩ |
    ⟨hc, v, hv, p, hp, he⟩
  · rw [he] at h; cases h
  · rw [he] at h; cases h
  · rw [he] at h; cases h
  · rw [he] at h
    obtain ⟨hexact, hoff, hevents, hgrid, hslots⟩ := (assemble_eq_ok_iff _ _ _ _ _).1 h
    exact ⟨v, p, hc, hv, hp, hexact, hevents, by rwa [hevents], hgrid, hslots⟩

namespace Compiled

variable {d : Dictionary} {s : Settings} {voicings : Cycle Voicing} {p : Pattern} {c : Clip}

/-- The clip of a row whose lengths can be laid out and end to end. -/
theorem of_laid {starts : List Ticks} {total : Ticks} (hc : s.check = .ok ())
    (hv : s.notes.resolve d = .ok voicings) (hp : Pattern.read s.pattern = .ok p)
    (hexact : (p.layOut s.grid.ticks).exact = true)
    (hlaid : Ticks.layFrom? 0 (p.durations s.grid.ticks) = some (starts, total)) :
    Compiled d s voicings p
      ⟨(s.part voicings).perform 0 (p.layOut s.grid.ticks).leaves, starts, total, s.grid,
        p.slots⟩ := by
  refine ⟨hc, hv, hp, hexact, rfl, ?_, rfl, rfl⟩
  rw [Part.perform_durations, Pattern.map_duration_layOut hexact]
  exact hlaid

theorem compile_eq (h : Compiled d s voicings p c) : compile d s = .ok c := by
  rw [compile_eq_assembleFrom h.check h.resolve h.read, assembleFrom, assemble_eq_ok_iff]
  exact ⟨h.exact, h.events ▸ h.offsets, h.events, h.grid, h.slots⟩

section Compare

variable {t : Settings} {voicings' : Cycle Voicing} {q : Pattern} {c' : Clip}

theorem voicings_eq (h : Compiled d s voicings p c) (h' : Compiled d t voicings' q c')
    (hnotes : t.notes = s.notes) : voicings' = voicings := by
  have hv := h'.resolve
  rw [hnotes, h.resolve] at hv
  exact (Except.ok.inj hv).symm

theorem row_eq (h : Compiled d s voicings p c) (h' : Compiled d t voicings' q c')
    (hpattern : t.pattern = s.pattern) : q = p := by
  have hp := h'.read
  rw [hpattern, h.read] at hp
  exact (Except.ok.inj hp).symm

end Compare

theorem ne_nil (h : Compiled d s voicings p c) : p ≠ .nil :=
  ((Pattern.read_eq_ok_iff _ _).1 h.read).1

theorem noEmptyGroup (h : Compiled d s voicings p c) : p.NoEmptyGroup :=
  ((Pattern.read_eq_ok_iff _ _).1 h.read).2.1

theorem text (h : Compiled d s voicings p c) : p.text = s.pattern :=
  ((Pattern.read_eq_ok_iff _ _).1 h.read).2.2

theorem durations (h : Compiled d s voicings p c) :
    c.events.map Event.duration = p.durations s.grid.ticks := by
  rw [h.events, Part.perform_durations, Pattern.map_duration_layOut h.exact]

theorem length_events (h : Compiled d s voicings p c) : c.events.length = p.leafCount := by
  rw [← List.length_map Event.duration, h.durations, Pattern.length_durations]

theorem laid (h : Compiled d s voicings p c) :
    Ticks.layFrom? 0 (p.durations s.grid.ticks) = some (c.starts, c.total) := by
  rw [← h.durations]
  exact h.offsets

theorem length_starts (h : Compiled d s voicings p c) : c.starts.length = p.leafCount := by
  rw [Ticks.length_layFrom? h.laid, Pattern.length_durations]

theorem starts (h : Compiled d s voicings p c) {i : Nat} (hi : i < p.leafCount) :
    c.starts[i]? = some ((p.durations s.grid.ticks).take i).sum := by
  rw [(Ticks.layFrom?_eq_some h.laid).2 i (by simpa using hi), zero_add]

theorem total (h : Compiled d s voicings p c) : c.total = p.slots * s.grid.ticks := by
  rw [(Ticks.layFrom?_eq_some h.laid).1, zero_add, Pattern.sum_durations h.noEmptyGroup]

theorem starts_pairwise (h : Compiled d s voicings p c) : c.starts.Pairwise (· < ·) :=
  (Ticks.layFrom?_pairwise_lt
    (Pattern.pos_of_mem_durations h.noEmptyGroup s.grid.ticks_pos) h.laid).1

end Compiled

end Clip

end RhythmClip
