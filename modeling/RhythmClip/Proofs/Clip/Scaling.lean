import RhythmClip.Proofs.Clip.Compile

/-!
# Scaling a clip

The slot length enters a clip as a factor. Another grid, or brackets around
the whole pattern, multiplies every time by one number and leaves the rest as
it is, although the two clips cancel different factors on the way.

* `durations_mul`: the lengths of the leaves grow with the slot.
* `Compiled.scaled`: clips of the same marks whose leaves differ by a factor
  differ by that factor throughout.
* `scaled_of_subdivisions`, `scaled_of_brackets`, `scaled_of_two_slots`: another
  grid, brackets around the pattern, and both together.
* `scaling_of_compile`: the three of them.
-/
namespace RhythmClip

/-! ## Factors -/

def Leaf.scale (r : Ticks) (leaf : Leaf) : Leaf := { leaf with duration := r * leaf.duration }

/-- The same event, `r` times as long. -/
def Event.scale (r : Ticks) (e : Event) : Event := { e with duration := r * e.duration }

theorem Part.perform_scale (part : Part) (r : Ticks) (n : Nat) (leaves : List Leaf) :
    part.perform n (leaves.map (Leaf.scale r)) = (part.perform n leaves).map (Event.scale r) := by
  induction leaves generalizing n with
  | nil => rfl
  | cons leaf leaves ih =>
    obtain ⟨_ | _ | _, d⟩ := leaf <;> simp [perform, Leaf.scale, Event.scale, ih]

/-- A list of leaves is told by its marks and durations. -/
theorem Leaf.map_ext {leaves others : List Leaf} (hm : others.map Leaf.mark = leaves.map Leaf.mark)
    (hd : others.map Leaf.duration = leaves.map Leaf.duration) : others = leaves := by
  induction leaves generalizing others with
  | nil => exact List.map_eq_nil_iff.1 hm
  | cons leaf leaves ih =>
    cases others with
    | nil => cases hm
    | cons other others =>
      obtain ⟨hm, hms⟩ := List.cons.inj hm
      obtain ⟨hd, hds⟩ := List.cons.inj hd
      obtain ⟨mark, duration⟩ := other
      cases hm
      cases hd
      rw [ih hms hds]

namespace Pattern

theorem durations_mul (r slot : Ticks) (p : Pattern) :
    p.durations (r * slot) = (p.durations slot).map (r * ·) := by
  rw [durations, durations, List.map_map]
  apply List.map_congr_left
  intro sizes _
  exact mul_div_assoc r slot _

/-- Brackets around a row leave to its slots what was one slot. -/
theorem durations_bracketed (slot : Ticks) (p : Pattern) :
    (group p nil).durations slot = p.durations (slot / p.slots) := by
  rw [durations_group, durations_nil, List.append_nil]

theorem marks_bracketed (p : Pattern) : (group p nil).marks = p.marks := by simp [marks]

theorem leaves_scale {p q : Pattern} {slot slot' r : Ticks} (hp : (p.layOut slot).exact = true)
    (hq : (q.layOut slot').exact = true) (hmarks : q.marks = p.marks)
    (hd : q.durations slot' = (p.durations slot).map (r * ·)) :
    (q.layOut slot').leaves = (p.layOut slot).leaves.map (Leaf.scale r) := by
  apply Leaf.map_ext
  · rw [marks_layOut q slot' hq, hmarks, ← marks_layOut p slot hp, List.map_map]
    rfl
  · rw [map_duration_layOut hq, hd, ← map_duration_layOut hp, List.map_map, List.map_map]
    rfl

end Pattern

namespace Clip

/-- The second clip is the first with every time multiplied by `r`. -/
structure Scaled (r : Ticks) (c c' : Clip) : Prop where
  events : c'.events = c.events.map (Event.scale r)
  starts : c'.starts = c.starts.map (r * ·)
  total : c'.total = r * c.total

theorem Compiled.scaled {d : Dictionary} {s t : Settings} {v w : Cycle Voicing} {p q : Pattern}
    {c c' : Clip} {r : Ticks} (h : Compiled d s v p c) (h' : Compiled d t w q c')
    (hnotes : t.notes = s.notes) (hpart : t.part v = s.part v) (hmarks : q.marks = p.marks)
    (hd : q.durations t.grid.ticks = (p.durations s.grid.ticks).map (r * ·)) : Scaled r c c' := by
  have hlaid := h'.laid
  rw [hd] at hlaid
  -- both rows begin at 0, which is `r` times itself
  rw [← mul_zero r] at hlaid
  obtain ⟨hstarts, htotal⟩ := Ticks.layFrom?_map (f := (r * ·)) (mul_add r) h.laid hlaid
  refine ⟨?_, hstarts, htotal⟩
  have hleaves := Pattern.leaves_scale h.exact h'.exact hmarks hd
  rw [h'.events, h.events, h.voicings_eq h' hnotes, hpart, hleaves, Part.perform_scale]

/-- A factor of one changes nothing. -/
theorem Scaled.eq_of_one {c c' : Clip} (h : Scaled 1 c c') :
    c'.events = c.events ∧ c'.starts = c.starts ∧ c'.total = c.total := by
  have hone : Event.scale 1 = id := funext fun e => by simp [Event.scale]
  exact ⟨by rw [h.events, hone, List.map_id], by simpa using h.starts, by simpa using h.total⟩

section Cases

variable {d : Dictionary} {s : Settings} {p : Pattern} {c c' : Clip}

theorem scaled_of_subdivisions {a b : String}
    (h : compile d { s with subdivision := b } = .ok c)
    (h' : compile d { s with subdivision := a } = .ok c') :
    Scaled ((Subdivision.ofNameOrQuarter a).ticks / (Subdivision.ofNameOrQuarter b).ticks) c c' := by
  obtain ⟨v, q, hc⟩ := compiled_of_compile h
  obtain ⟨w, q', hc'⟩ := compiled_of_compile h'
  obtain rfl := hc.row_eq hc' rfl
  refine hc.scaled hc' rfl rfl rfl ?_
  have hne : (Subdivision.ofNameOrQuarter b).ticks ≠ 0 := (Subdivision.ticks_pos _).ne'
  rw [← Pattern.durations_mul]
  congr 1
  exact (div_mul_cancel₀ _ hne).symm

theorem scaled_of_brackets (hp : Pattern.read s.pattern = .ok p) (h : compile d s = .ok c)
    (h' : compile d { s with pattern := "[" ++ s.pattern ++ "]" } = .ok c') :
    c'.slots = 1 ∧ Scaled (1 / p.slots) c c' := by
  obtain ⟨v, q, hc⟩ := compiled_of_compile h
  obtain ⟨w, q', hc'⟩ := compiled_of_compile h'
  cases hp.symm.trans hc.read
  cases (Pattern.read_bracketed hp).symm.trans hc'.read
  refine ⟨hc'.slots, hc.scaled hc' rfl rfl (Pattern.marks_bracketed p) ?_⟩
  rw [Pattern.durations_bracketed, ← Pattern.durations_mul]
  congr 1
  exact (one_div_mul_eq_div _ _).symm

/-- Two slots share a quarter as they stand on eighths. -/
theorem scaled_of_two_slots (hp : Pattern.read s.pattern = .ok p) (htwo : p.slots = 2)
    (h : compile d { s with pattern := "[" ++ s.pattern ++ "]", subdivision := "4n" } = .ok c)
    (h' : compile d { s with subdivision := "8n" } = .ok c') : Scaled 1 c c' := by
  obtain ⟨v, q, hc⟩ := compiled_of_compile h
  obtain ⟨w, q', hc'⟩ := compiled_of_compile h'
  cases hp.symm.trans hc'.read
  cases (Pattern.read_bracketed hp).symm.trans hc.read
  refine hc.scaled hc' rfl rfl (Pattern.marks_bracketed p).symm ?_
  have hhalf : Subdivision.quarter.ticks / 2 = Subdivision.eighth.ticks := by decide +kernel
  have hquarter : Subdivision.ofNameOrQuarter "4n" = .quarter := by decide +kernel
  have height : Subdivision.ofNameOrQuarter "8n" = .eighth := by decide +kernel
  simp only [Settings.grid, hquarter, height, Pattern.durations_bracketed, htwo, Nat.cast_ofNat,
    hhalf, one_mul, List.map_id']

end Cases

/-- **Times scale with the slot.** Where a pattern compiles on two grids, the
clips differ by the quotient of the slot lengths in all times and in nothing
else. Brackets around a pattern of `k` slots make one slot of it, in which
every time is a `k`-th of what it was. So two slots in brackets on a grid of
quarters are the two slots on a grid of eighths. -/
theorem scaling_of_compile (d : Dictionary) (s : Settings) (p : Pattern)
    (hp : Pattern.read s.pattern = .ok p) :
    (∀ (a b : String) (c₁ c₂ : Clip), compile d { s with subdivision := a } = .ok c₁ →
      compile d { s with subdivision := b } = .ok c₂ →
      Scaled ((Subdivision.ofNameOrQuarter a).ticks / (Subdivision.ofNameOrQuarter b).ticks)
        c₂ c₁) ∧
    (∀ c c' : Clip, compile d s = .ok c →
      compile d { s with pattern := "[" ++ s.pattern ++ "]" } = .ok c' →
      c'.slots = 1 ∧ Scaled (1 / p.slots) c c') ∧
    (p.slots = 2 → ∀ c c' : Clip,
      compile d { s with pattern := "[" ++ s.pattern ++ "]", subdivision := "4n" } = .ok c →
      compile d { s with subdivision := "8n" } = .ok c' →
      c'.events = c.events ∧ c'.starts = c.starts ∧ c'.total = c.total) := by
  refine ⟨fun a b c₁ c₂ h₁ h₂ => scaled_of_subdivisions h₂ h₁,
    fun c c' h h' => scaled_of_brackets hp h h', fun htwo c c' h h' => ?_⟩
  exact (scaled_of_two_slots hp htwo h h').eq_of_one

/-- A group of three in the second of two slots. -/
theorem scaling_of_compile_triplet :
    ∃ c half b : Clip,
      compile standardChords { pattern := "x[x-x]", subdivision := "4n" } = .ok c ∧
      compile standardChords { pattern := "x[x-x]", subdivision := "8n" } = .ok half ∧
      compile standardChords { pattern := "[x[x-x]]", subdivision := "4n" } = .ok b ∧
      b.events.map Event.duration = [64, 64 / 3, 64 / 3, 64 / 3] ∧
      Scaled ((64 : Nat) / (128 : Nat)) c half ∧ b.slots = 1 ∧ Scaled (1 / (2 : Nat)) c b ∧
      half.events = b.events ∧ half.starts = b.starts ∧ half.total = b.total := by
  have hp : Pattern.read "x[x-x]" =
      .ok (.mark .note (.group (.mark .note (.mark .rest (.mark .note .nil))) .nil)) := by
    decide +kernel
  obtain ⟨c, hc⟩ :
      ∃ c, compile standardChords { pattern := "x[x-x]", subdivision := "4n" } = .ok c :=
    exists_clip (by decide +kernel)
  obtain ⟨half, hhalf⟩ :
      ∃ c, compile standardChords { pattern := "x[x-x]", subdivision := "8n" } = .ok c :=
    exists_clip (by decide +kernel)
  obtain ⟨b, hb⟩ :
      ∃ c, compile standardChords { pattern := "[x[x-x]]", subdivision := "4n" } = .ok c :=
    exists_clip (by decide +kernel)
  have hdurations :
      (compile standardChords { pattern := "[x[x-x]]", subdivision := "4n" }).toOption.map
        (fun c => c.events.map Event.duration) = some [64, 64 / 3, 64 / 3, 64 / 3] := by
    decide +kernel
  rw [hb] at hdurations
  obtain ⟨hgrids, hbracketed, htwo⟩ :=
    scaling_of_compile standardChords { pattern := "x[x-x]" } _ hp
  have hquarter : Subdivision.ofNameOrQuarter "4n" = .quarter := by decide +kernel
  have height : Subdivision.ofNameOrQuarter "8n" = .eighth := by decide +kernel
  have hscaled := hgrids "8n" "4n" half c hhalf hc
  rw [hquarter, height] at hscaled
  obtain ⟨hone, hslots⟩ := hbracketed c b hc hb
  exact ⟨c, half, b, hc, hhalf, hb, Option.some.inj hdurations, hscaled, hone, hslots,
    htwo rfl b half hb hhalf⟩

end Clip

end RhythmClip
