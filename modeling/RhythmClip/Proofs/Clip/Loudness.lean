import RhythmClip.Proofs.Clip.Events

/-!
# What loudness cannot change

Velocities and accents say how loud a note is, and the flags say nothing. Two
settings that agree on the rest have the same score: what each event does, for
how long and from when. So one of them has a fault exactly when the other has
the same one, also where the fault lies in the arithmetic of the times.

* `assemble_eq_map`: events with other loudness are put together alike.
* `perform_score`: parts with the same voicings perform the same score.
* `Compiled.score_eq`, `Compiled.eq_of_not_isSounding`: so clips agree in their
  scores, and with one velocity in every event that is not a note.
* `loudness_of_compile`: two compilations with the same notes, pattern and grid.
-/
namespace RhythmClip

/-- What an event does and how long it lasts: all of it but the velocity. -/
def Event.score (e : Event) : Sound × Ticks := (e.sound, e.duration)

namespace Part

theorem perform_score {part other : Part} (h : other.voicings = part.voicings) (n : Nat)
    (leaves : List Leaf) :
    (other.perform n leaves).map Event.score = (part.perform n leaves).map Event.score := by
  induction leaves generalizing n with
  | nil => rfl
  | cons leaf leaves ih => obtain ⟨_ | _ | _, d⟩ := leaf <;> simp [perform, Event.score, ih, h]

/-- A leaf without a note gives the same event in all parts of one velocity. -/
theorem eventAt_of_not_isSounding {part other : Part} (h : other.velocity = part.velocity) {n : Nat}
    {leaf : Leaf} (hsilent : (part.eventAt n leaf).isSounding = false) :
    other.eventAt n leaf = part.eventAt n leaf := by
  obtain ⟨_ | _ | _, d⟩ := leaf
  · cases hsilent
  · simp [eventAt, h]
  · simp [eventAt, h]

end Part

namespace Clip

/-- The clip with other events at its times. -/
def withEvents (events : List Event) (c : Clip) : Clip := { c with events := events }

theorem assemble_eq_map (grid : Subdivision) (slots : Nat) (exact : Bool)
    {events others : List Event} (h : others.map Event.duration = events.map Event.duration) :
    assemble grid slots exact others =
      (assemble grid slots exact events).map (withEvents others) := by
  unfold assemble
  rw [h]
  split <;> rfl

section SameScore

variable {d : Dictionary} {s t : Settings} {v w : Cycle Voicing} {p q : Pattern} {c c' : Clip}

/-- What settings compile to, others of the same score compile to with events
of their own. So they have the same faults. -/
theorem exists_compile_eq_map (hnotes : t.notes = s.notes) (hpattern : t.pattern = s.pattern)
    (hgrid : t.grid = s.grid) (hs : s.check = .ok ()) (ht : t.check = .ok ()) :
    ∃ events, compile d t = (compile d s).map (withEvents events) := by
  rcases compile_cases d s with ⟨e, hc, -⟩ | ⟨-, e, hv, he⟩ | ⟨-, v, hv, e, hp, he⟩ |
    ⟨-, v, hv, p, hp, he⟩
  · rw [hs] at hc; cases hc
  · rw [he, compile_eq_error_of_resolve ht (hnotes ▸ hv)]
    exact ⟨[], rfl⟩
  · rw [he, compile_eq_error_of_read ht (hnotes ▸ hv) (hpattern ▸ hp)]
    exact ⟨[], rfl⟩
  · rw [he, compile_eq_assembleFrom ht (hnotes ▸ hv) (hpattern ▸ hp), assembleFrom, hgrid]
    refine ⟨_, assemble_eq_map _ _ _ ?_⟩
    rw [Part.perform_durations, Part.perform_durations]

/-- Both clips are performed from one layout, each by its own part. -/
theorem Compiled.events_of_sameScore (h : Compiled d s v p c) (h' : Compiled d t w q c')
    (hnotes : t.notes = s.notes) (hpattern : t.pattern = s.pattern) (hgrid : t.grid = s.grid) :
    c'.events = (t.part v).perform 0 (p.layOut s.grid.ticks).leaves := by
  rw [h'.events, h.voicings_eq h' hnotes, h.row_eq h' hpattern, hgrid]

theorem Compiled.score_eq (h : Compiled d s v p c) (h' : Compiled d t w q c')
    (hnotes : t.notes = s.notes) (hpattern : t.pattern = s.pattern) (hgrid : t.grid = s.grid) :
    c'.events.map Event.score = c.events.map Event.score := by
  have hvoicings : (t.part v).voicings = (s.part v).voicings := rfl
  rw [h.events_of_sameScore h' hnotes hpattern hgrid, h.events]
  exact Part.perform_score hvoicings 0 _

theorem Compiled.eq_of_not_isSounding (h : Compiled d s v p c) (h' : Compiled d t w q c')
    (hnotes : t.notes = s.notes) (hpattern : t.pattern = s.pattern) (hgrid : t.grid = s.grid)
    (hvelocity : t.velocity = s.velocity) {i : Nat} {e e' : Event} (he : c.events[i]? = some e)
    (he' : c'.events[i]? = some e') (hsilent : e.isSounding = false) : e' = e := by
  rw [h.events_of_sameScore h' hnotes hpattern hgrid, Part.perform_getElem?] at he'
  rw [h.events, Part.perform_getElem?] at he
  obtain ⟨leaf, hleaf, rfl⟩ := Option.map_eq_some_iff.1 he
  rw [hleaf] at he'
  cases he'
  exact Part.eventAt_of_not_isSounding hvelocity hsilent

end SameScore

/-- **Loudness leaves the score alone.** Accepted settings that agree on notes,
pattern and subdivision fail with the same fault or give clips of the same
score: what each event does, how long it lasts and when it starts. With the
same velocity everything but the notes is equal, accents or not; and with the
same accents too the clips are equal, whatever the flags. -/
theorem loudness_of_compile (d : Dictionary) (s t : Settings) (hnotes : t.notes = s.notes)
    (hpattern : t.pattern = s.pattern) (hsubdivision : t.subdivision = s.subdivision)
    (hs : s.check = .ok ()) (ht : t.check = .ok ()) :
    (∃ e, compile d s = .error e ∧ compile d t = .error e) ∨
      ∃ c c', compile d s = .ok c ∧ compile d t = .ok c' ∧
        c'.events.map Event.score = c.events.map Event.score ∧
        c'.starts = c.starts ∧ c'.total = c.total ∧ c'.grid = c.grid ∧ c'.slots = c.slots ∧
        (t.velocity = s.velocity → ∀ (i : Nat) (e e' : Event),
          c.events[i]? = some e → c'.events[i]? = some e' → e.isSounding = false → e' = e) ∧
        (t.velocity = s.velocity → t.accentMap = s.accentMap → t.accentHi = s.accentHi →
          t.accentLo = s.accentLo → c' = c) := by
  have hgrid : t.grid = s.grid := by rw [Settings.grid, hsubdivision, Settings.grid]
  obtain ⟨events, hmap⟩ := exists_compile_eq_map (d := d) hnotes hpattern hgrid hs ht
  cases h : compile d s with
  | error e =>
    rw [h] at hmap
    exact .inl ⟨e, rfl, hmap⟩
  | ok c =>
    rw [h] at hmap
    obtain ⟨v, p, hc⟩ := compiled_of_compile h
    obtain ⟨w, q, hc'⟩ := compiled_of_compile hmap
    refine .inr ⟨c, _, rfl, hmap, hc.score_eq hc' hnotes hpattern hgrid, rfl, rfl, rfl, rfl,
      fun hvelocity i e e' => hc.eq_of_not_isSounding hc' hnotes hpattern hgrid hvelocity,
      fun hvelocity haccents hhi hlo => ?_⟩
    have hpart : t.part v = s.part v := by
      rw [Settings.part, hvelocity, haccents, hhi, hlo, Settings.part]
    have hevents : events = c.events := by
      rw [hc.events, ← hpart]
      exact hc.events_of_sameScore hc' hnotes hpattern hgrid
    rw [hevents, withEvents]

/-- Two accent maps of different lengths. -/
theorem loudness_of_compile_accents :
    let s : Settings := { pattern := "x[x-x]_", accentMap := "x-" }
    let t : Settings :=
      { pattern := "x[x-x]_", accentMap := "-x-", accentHi := 100, sizzle := true }
    ∃ c c', compile standardChords s = .ok c ∧ compile standardChords t = .ok c' ∧
      c'.events.map Event.score = c.events.map Event.score ∧ c'.starts = c.starts ∧ c' ≠ c := by
  intro s t
  have hs : s.check = .ok () := by decide +kernel
  have ht : t.check = .ok () := by decide +kernel
  rcases loudness_of_compile standardChords s t rfl rfl rfl hs ht with ⟨e, h, -⟩ |
    ⟨c, c', hc, hc', hscore, hstarts, -⟩
  · have hok : (compile standardChords s).isOk = true := by decide +kernel
    rw [h] at hok
    cases hok
  · refine ⟨c, c', hc, hc', hscore, hstarts, ?_⟩
    rintro rfl
    have hne : (compile standardChords s).toOption ≠ (compile standardChords t).toOption := by
      decide +kernel
    rw [hc, hc'] at hne
    exact hne rfl

end Clip

end RhythmClip
