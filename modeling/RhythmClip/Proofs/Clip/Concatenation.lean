import RhythmClip.Proofs.Clip.Rotation

/-!
# One clip after another

Two pattern texts in one are compiled to the two clips end to end. The second
half has to be compiled with settings that have moved on: after the notes of the
first half its notes and accents are rotated, each by that number modulo their
own length.

* `laid_append`: the times of two rows in one, from those of each by itself.
* `compile_append`: if the whole compiles, so does each half, and the whole is
  made of them.
-/
namespace RhythmClip

namespace Pattern

theorem count_mark_layOut {p : Pattern} {slot : Ticks} (h : (p.layOut slot).exact = true) :
    ((p.layOut slot).leaves.map Leaf.mark).count .note = p.noteCount := by
  rw [marks_layOut p slot h, count_marks]

theorem exact_of_append {p q : Pattern} {slot : Ticks} (h : ((p ++ q).layOut slot).exact = true) :
    (p.layOut slot).exact = true ∧ (q.layOut slot).exact = true := by
  rwa [layOut_append, exact_append, Bool.and_eq_true] at h

/-- The times of two rows in one: those of the first, and behind its end those
of the second. -/
theorem laid_append {p q : Pattern} (hp : p.NoEmptyGroup) (hq : q.NoEmptyGroup) {slot : Ticks}
    (hs : 0 < slot) {starts : List Ticks} {total : Ticks}
    (h : Ticks.layFrom? 0 ((p ++ q).durations slot) = some (starts, total)) :
    ∃ front middle back stop, Ticks.layFrom? 0 (p.durations slot) = some (front, middle) ∧
      Ticks.layFrom? 0 (q.durations slot) = some (back, stop) ∧
      starts = front ++ back.map (middle + ·) ∧ total = middle + stop := by
  rw [durations_append] at h
  obtain ⟨front, middle, later, hfront, hlater, rfl⟩ := Ticks.layFrom?_append h
  have hmiddle : middle = p.slots * slot := by
    rw [(Ticks.layFrom?_eq_some hfront).1, zero_add, sum_durations hp]
  -- the second row begins at a multiple of its slot length, there as at 0
  have hzero := aligned_durations hq slot 0
  have haligned := aligned_durations hq slot p.slots
  rw [Nat.cast_zero, zero_mul] at hzero
  rw [← hmiddle] at haligned
  have hle : 0 ≤ middle := by
    rw [hmiddle]
    positivity
  have hsome : (Ticks.layFrom? 0 (q.durations slot)).isSome :=
    Ticks.isSome_layFrom?_of_le hle hzero haligned (pos_of_mem_durations hq hs)
      (by rw [hlater]; rfl)
  obtain ⟨⟨back, stop⟩, hback⟩ := Option.isSome_iff_exists.1 hsome
  rw [← add_zero middle, ← List.map_id (q.durations slot)] at hlater
  have hadd : ∀ t d, middle + (t + d) = middle + t + id d := fun t d => (add_assoc middle t d).symm
  obtain ⟨rfl, rfl⟩ := Ticks.layFrom?_map hadd hback hlater
  exact ⟨front, middle, back, stop, hfront, hback, rfl, rfl⟩

end Pattern

namespace Clip

/-- **Patterns one after the other give clips one after the other.** If a text
made of two patterns compiles, then so does the first, and so does the second
with the note entries and the accents rotated by the notes of the first. The
events of the whole are those of both; the second clip begins where the first
ends, and lengths and slots add up. -/
theorem compile_append (d : Dictionary) (s : Settings) (first second : String) (p q : Pattern)
    (hp : Pattern.read first = .ok p) (hq : Pattern.read second = .ok q) (c : Clip)
    (h : compile d { s with pattern := first ++ second } = .ok c) :
    ∃ c₁ c₂, compile d { s with pattern := first } = .ok c₁ ∧
      compile d { s.advance p.noteCount with pattern := second } = .ok c₂ ∧
      c.events = c₁.events ++ c₂.events ∧
      c.starts = c₁.starts ++ c₂.starts.map (c₁.total + ·) ∧
      c.total = c₁.total + c₂.total ∧ c.slots = c₁.slots + c₂.slots := by
  obtain ⟨v, r, hc⟩ := compiled_of_compile h
  cases (Pattern.read_append hp hq).symm.trans hc.read
  obtain ⟨hpg, hqg⟩ := (Pattern.noEmptyGroup_append p q).1 hc.noEmptyGroup
  obtain ⟨hpexact, hqexact⟩ := Pattern.exact_of_append hc.exact
  obtain ⟨front, middle, back, stop, hfront, hback, hstarts, htotal⟩ :=
    Pattern.laid_append hpg hqg s.grid.ticks_pos hc.laid
  have hcheck : s.check = .ok () := hc.check
  have hresolve : s.notes.resolve d = .ok v := hc.resolve
  obtain ⟨later, hlater, hrotated⟩ := Settings.resolve_advance hresolve p.noteCount
  have hlate : ({ s.advance p.noteCount with pattern := second } : Settings).check = .ok () :=
    (Settings.check_pattern _ _).trans (Settings.check_advance hcheck p.noteCount)
  have hc₁ := Compiled.of_laid (s := { s with pattern := first }) hcheck hresolve hp hpexact hfront
  have hc₂ := Compiled.of_laid (s := { s.advance p.noteCount with pattern := second })
    hlate hlater hq hqexact hback
  refine ⟨_, _, hc₁.compile_eq, hc₂.compile_eq, ?_, hstarts, htotal, ?_⟩
  · have hresumes :=
      Part.perform_resumes (s.resumes_advance hrotated) 0 (q.layOut s.grid.ticks).leaves
    rw [hc.events, Pattern.layOut_append, Pattern.leaves_append hpexact, Part.perform_append,
      Pattern.count_mark_layOut hpexact, Nat.zero_add]
    exact congrArg (_ ++ ·) hresumes.symm
  · rw [hc.slots, Pattern.slots_append]

/-- Five notes go once and two places round three entries, and twice and one
place round two accents. -/
theorem compile_append_cycles :
    let s : Settings := { notes := .text "c4 e4 CM", accentMap := "x-" }
    let t : Settings :=
      { notes := .entries [.token "CM", .token "c4", .token "e4"], accentMap := "-x" }
    ∃ c c₁ c₂, compile standardChords { s with pattern := "x[xx]xx" ++ "-[xx]" } = .ok c ∧
      compile standardChords { s with pattern := "x[xx]xx" } = .ok c₁ ∧
      compile standardChords { t with pattern := "-[xx]" } = .ok c₂ ∧
      c.events = c₁.events ++ c₂.events ∧ c.total = c₁.total + c₂.total := by
  intro s t
  have hp : Pattern.read "x[xx]xx" = .ok (.mark .note
      (.group (.mark .note (.mark .note .nil)) (.mark .note (.mark .note .nil)))) := by
    decide +kernel
  have hq : Pattern.read "-[xx]" =
      .ok (.mark .rest (.group (.mark .note (.mark .note .nil)) .nil)) := by decide +kernel
  obtain ⟨c, hc⟩ : ∃ c, compile standardChords { s with pattern := "x[xx]xx" ++ "-[xx]" } = .ok c :=
    exists_clip (by decide +kernel)
  obtain ⟨c₁, c₂, h₁, h₂, hevents, -, htotal, -⟩ :=
    compile_append standardChords s "x[xx]xx" "-[xx]" _ _ hp hq c hc
  have hadvance : s.advance 5 = t := by decide +kernel
  refine ⟨c, c₁, c₂, hc, h₁, ?_, hevents, htotal⟩
  rw [← hadvance]
  exact h₂

end Clip

end RhythmClip
