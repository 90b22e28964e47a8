import RhythmClip.Proofs.Clip.Compile

/-!
# The timing of a compiled clip

The times of a clip are the exact fractions, although every one of them has
gone through checked 64-bit arithmetic: a clip whose times cannot all be
written is never put together.

* `timeline_fst`, `timeline_snd`: the timeline pairs the starts with the events.
* `sum_group`: the events of a group fill the slot of the group.
* `start_slot`: the slots of the top row stand on the grid.
* `timing_of_compile`: all of it, for every clip that compiles.
-/
namespace RhythmClip

namespace Clip

namespace Compiled

variable {d : Dictionary} {s : Settings} {voicings : Cycle Voicing} {p : Pattern} {c : Clip}

theorem timeline_fst (h : Compiled d s voicings p c) : c.timeline.map Prod.fst = c.starts :=
  List.map_fst_zip (by rw [h.length_starts, h.length_events])

theorem timeline_snd (h : Compiled d s voicings p c) : c.timeline.map Prod.snd = c.events :=
  List.map_snd_zip (by rw [h.length_starts, h.length_events])

theorem map_duration_take (h : Compiled d s voicings p c) (i : Nat) :
    (c.events.take i).map Event.duration = (p.durations s.grid.ticks).take i := by
  rw [List.map_take, h.durations]

theorem start_eq (h : Compiled d s voicings p c) {i : Nat} {t : Ticks} {e : Event}
    (ht : c.timeline[i]? = some (t, e)) : t = ((c.events.take i).map Event.duration).sum := by
  obtain ⟨hs, he⟩ := List.getElem?_zip_eq_some.1 ht
  obtain ⟨hi, -⟩ := List.getElem?_eq_some_iff.1 he
  rw [h.length_events] at hi
  rw [h.starts hi] at hs
  rw [h.map_duration_take]
  exact (Option.some.inj hs).symm

theorem head?_starts (h : Compiled d s voicings p c) : c.starts.head? = some 0 := by
  have hpos := Nat.pos_of_ne_zero (Pattern.leafCount_ne_zero h.ne_nil h.noEmptyGroup)
  rw [List.head?_eq_getElem?, h.starts hpos]
  rfl

theorem sum_group (h : Compiled d s voicings p c) {before : Nat} {around : List Nat}
    {inner : Pattern} (hg : p.HasGroup before around inner) :
    (((c.events.drop before).take inner.leafCount).map Event.duration).sum =
      s.grid.ticks / (around.prod : Nat) := by
  rw [List.map_take, List.map_drop, h.durations,
    Pattern.sum_drop_take_of_hasGroup hg h.noEmptyGroup]

theorem start_slot (h : Compiled d s voicings p c) {j : Nat} (hj : j < p.slots) :
    ∃ e, c.timeline[p.leavesBefore j]? = some (j * s.grid.ticks, e) := by
  have hlt := Pattern.leavesBefore_lt h.noEmptyGroup hj
  have hs := h.starts hlt
  rw [Pattern.sum_take_leavesBefore h.noEmptyGroup _ hj.le] at hs
  rw [← h.length_events] at hlt
  exact ⟨_, List.getElem?_zip_eq_some.2 ⟨hs, List.getElem?_eq_getElem hlt⟩⟩

end Compiled

/-- **The timing is exact.** In every compiled clip an event lasts the slot
length divided by the numbers of slots of all groups around its leaf. It
starts at the sum of the durations before it; so the first starts at 0 and the
starts strictly increase. The events of a group last as long as the group, the
`j`-th slot of the pattern begins after `j` slot lengths, and the clip ends
after all of them. -/
theorem timing_of_compile (d : Dictionary) (s : Settings) (c : Clip) (h : compile d s = .ok c) :
    ∃ p, Pattern.read s.pattern = .ok p ∧ c.slots = p.slots ∧
      c.events.map Event.duration =
        (p.groupSizes.map fun sizes => s.grid.ticks / (sizes.prod : Nat)) ∧
      c.timeline.map Prod.fst = c.starts ∧ c.timeline.map Prod.snd = c.events ∧
      (∀ i t e, c.timeline[i]? = some (t, e) →
        t = ((c.events.take i).map Event.duration).sum) ∧
      c.starts.head? = some 0 ∧ c.starts.Pairwise (· < ·) ∧
      (∀ before around inner, p.HasGroup before around inner →
        (((c.events.drop before).take inner.leafCount).map Event.duration).sum =
          s.grid.ticks / (around.prod : Nat)) ∧
      (∀ j < c.slots, ∃ e, c.timeline[p.leavesBefore j]? = some (j * s.grid.ticks, e)) ∧
      c.total = c.slots * s.grid.ticks := by
  obtain ⟨voicings, p, hc⟩ := compiled_of_compile h
  refine ⟨p, hc.read, hc.slots, hc.durations, hc.timeline_fst, hc.timeline_snd,
    fun i t e => hc.start_eq, hc.head?_starts, hc.starts_pairwise,
    fun before around inner => hc.sum_group, fun j hj => ?_, ?_⟩
  · rw [hc.slots] at hj
    exact hc.start_slot hj
  · rw [hc.slots, hc.total]

theorem timing_of_compile_triplet :
    ∃ c, compile standardChords { pattern := "x[x-x]_" } = .ok c ∧
      c.events.map Event.duration = [128, 128 / 3, 128 / 3, 128 / 3, 128] ∧
      c.starts.Pairwise (· < ·) ∧ (((c.events.drop 1).take 3).map Event.duration).sum = 128 ∧
      (∃ e, c.timeline[4]? = some (256, e)) ∧ c.total = 384 := by
  have hok : (compile standardChords { pattern := "x[x-x]_" }).isOk = true := by decide +kernel
  cases hc : compile standardChords { pattern := "x[x-x]_" } with
  | error e => rw [hc] at hok; cases hok
  | ok c =>
    obtain ⟨p, hp, hslots, hdur, -, -, -, -, hpair, hgroup, hslot, htotal⟩ :=
      timing_of_compile standardChords { pattern := "x[x-x]_" } c hc
    have hread : Pattern.read "x[x-x]_" =
        .ok (.mark .note (.group (.mark .note (.mark .rest (.mark .note .nil)))
          (.mark .sustain .nil))) := by decide +kernel
    cases hread.symm.trans hp
    have hgrid : Settings.grid { pattern := "x[x-x]_" } = .quarter := by decide +kernel
    have hthree : c.slots = 3 := hslots
    rw [hgrid] at hdur hgroup hslot htotal
    rw [hthree] at hslot htotal
    have htwo : ((2 : Nat) : Rat) * Subdivision.quarter.ticks = 256 := by decide +kernel
    refine ⟨c, rfl, hdur.trans (by decide +kernel), hpair,
      (hgroup 1 [] _ (.afterMark .here)).trans (by decide +kernel), ?_,
      htotal.trans (by decide +kernel)⟩
    have hlast := hslot 2 (by decide)
    rwa [htwo] at hlast

end Clip

end RhythmClip
