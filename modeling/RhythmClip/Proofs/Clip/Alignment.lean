import RhythmClip.Proofs.Clip.Failure

/-!
# Only the brackets around a leaf count

The starts of a clip are sums of lengths with many different denominators.
Their common denominator does not build up: an event begins at a whole
multiple of its own length, so whatever stands beside its brackets has
cancelled by then. All that has to fit the 64-bit range is then bounded by
three numbers: the slots of the groups around a leaf, the slots of the row
and the ticks of a slot.

* `Compiled.alignment`: an event begins at a multiple of its length, so with a
  denominator that divides the product of the group sizes around its leaf.
* `not_overflows_of_le`: with small products nothing overflows.
* `alignment_of_compile`: the starts of every clip, and when there is one.
-/
namespace RhythmClip

namespace Pattern

theorem prod_ne_zero_of_mem_groupSizes {p : Pattern} (hp : p.NoEmptyGroup) :
    ∀ sizes ∈ p.groupSizes, sizes.prod ≠ 0 := by
  induction p with
  | nil => exact List.forall_mem_nil _
  | mark m p ih => exact List.forall_mem_cons.2 ⟨by decide, ih hp⟩
  | group i p ihi ih =>
    obtain ⟨hne, hi, hp⟩ := hp
    refine List.forall_mem_append.2 ⟨?_, ih hp⟩
    rw [List.forall_mem_map]
    intro sizes hsizes
    rw [List.prod_cons]
    exact Nat.mul_ne_zero (slots_ne_zero hne) (ihi hi sizes hsizes)

theorem getElem?_durations {p : Pattern} {slot q : Ticks} {i : Nat}
    (h : (p.durations slot)[i]? = some q) :
    ∃ sizes, p.groupSizes[i]? = some sizes ∧ q = slot / (sizes.prod : Nat) := by
  rw [durations, List.getElem?_map] at h
  obtain ⟨sizes, hsizes, rfl⟩ := Option.map_eq_some_iff.1 h
  exact ⟨sizes, hsizes, rfl⟩

/-- A row has a slot, and a slot of whole ticks has at least one. -/
theorem one_le_slots_mul {p : Pattern} (hne : p ≠ nil) {slot : Ticks} (hs : slot.den = 1)
    (hpos : 0 < slot) : 1 ≤ (p.slots : Rat) * slot := by
  have hslots : (1 : Rat) ≤ p.slots := by
    exact_mod_cast Nat.one_le_iff_ne_zero.2 (slots_ne_zero hne)
  have hslot : (1 : Rat) ≤ slot := by
    have hnum : 0 < slot.num := Rat.num_pos.2 hpos
    rw [← Rat.coe_int_num_of_den_eq_one hs]
    exact_mod_cast hnum
  nlinarith

section Bounded

variable {p : Pattern} {slot : Ticks}

/-- The group sizes around each leaf, times all the ticks of the row, fit a word. -/
def Bounded (slot : Ticks) (p : Pattern) : Prop :=
  ∀ sizes ∈ p.groupSizes, (sizes.prod : Nat) * (p.slots * slot) ≤ Ticks.wordMax

theorem Bounded.prod_le (h : p.Bounded slot) (hne : p ≠ nil) (hs : slot.den = 1) (hpos : 0 < slot)
    {sizes : List Nat} (hsizes : sizes ∈ p.groupSizes) : sizes.prod ≤ Ticks.wordMax := by
  have hrow := one_le_slots_mul hne hs hpos
  have hprod : (0 : Rat) ≤ (sizes.prod : Nat) := Nat.cast_nonneg _
  have hle : ((sizes.prod : Nat) : Rat) ≤ (Ticks.wordMax : Nat) :=
    (le_mul_of_one_le_right hprod hrow).trans (h sizes hsizes)
  exact_mod_cast hle

theorem Bounded.groupsFit (h : p.Bounded slot) (hne : p ≠ nil) (hp : p.NoEmptyGroup)
    (hs : slot.den = 1) (hpos : 0 < slot) : p.GroupsFit := by
  intro sizes hsizes n hn
  have hprod := Nat.pos_of_ne_zero (prod_ne_zero_of_mem_groupSizes hp sizes hsizes)
  exact (Nat.le_of_dvd hprod (List.dvd_prod hn)).trans (h.prod_le hne hs hpos hsizes)

theorem not_overflows_of_le (h : p.Bounded slot) (hne : p ≠ nil) (hp : p.NoEmptyGroup)
    (hs : slot.den = 1) (hpos : 0 < slot) : ¬p.Overflows slot := by
  rw [not_overflows_iff]
  intro i q hq
  obtain ⟨sizes, hsizes, rfl⟩ := getElem?_durations hq
  have hmem := List.mem_of_getElem? hsizes
  have hprod := prod_ne_zero_of_mem_groupSizes hp sizes hmem
  have hden : (slot / (sizes.prod : Nat)).den ≤ sizes.prod :=
    Nat.le_of_dvd (Nat.pos_of_ne_zero hprod) (Ticks.den_div_dvd hs hprod)
  have hnonneg : ∀ d ∈ p.durations slot, 0 ≤ d := fun d hd =>
    (pos_of_mem_durations hp hpos d hd).le
  -- no event ends after the row does
  have hsum : ((p.durations slot).take (i + 1)).sum ≤ p.slots * slot := by
    rw [← sum_durations hp]
    exact (List.take_sublist _ _).sum_le_sum hnonneg
  have hzero : 0 ≤ ((p.durations slot).take (i + 1)).sum :=
    List.sum_nonneg fun d hd => hnonneg d (List.mem_of_mem_take hd)
  refine ⟨hden.trans (h.prod_le hne hs hpos hmem), le_trans ?_ (h sizes hmem)⟩
  gcongr

end Bounded

end Pattern

namespace Clip

theorem Compiled.alignment {d : Dictionary} {s : Settings} {voicings : Cycle Voicing} {p : Pattern}
    {c : Clip} (h : Compiled d s voicings p c) {i : Nat} {t : Ticks} {e : Event}
    (ht : c.timeline[i]? = some (t, e)) :
    ∃ sizes, p.groupSizes[i]? = some sizes ∧ (∃ k : Nat, t = k * e.duration) ∧
      t.den ∣ sizes.prod := by
  obtain ⟨hs, he⟩ : c.starts[i]? = some t ∧ c.events[i]? = some e := List.getElem?_zip_eq_some.1 ht
  have hd : (p.durations s.grid.ticks)[i]? = some e.duration := by
    rw [← h.durations, List.getElem?_map, he]
    rfl
  obtain ⟨hi, -⟩ := List.getElem?_eq_some_iff.1 he
  rw [h.length_events] at hi
  rw [h.starts hi] at hs
  obtain ⟨sizes, hsizes, hq⟩ := Pattern.getElem?_durations hd
  have hprod := Pattern.prod_ne_zero_of_mem_groupSizes h.noEmptyGroup sizes
    (List.mem_of_getElem? hsizes)
  -- the row begins at 0, which is a multiple of every length
  have ha := Pattern.aligned_durations h.noEmptyGroup s.grid.ticks 0
  obtain ⟨k, hk⟩ := ha.start_eq hd
  rw [Nat.cast_zero, zero_mul, zero_add, Option.some.inj hs] at hk
  refine ⟨sizes, hsizes, ⟨k, hk⟩, ?_⟩
  rw [hk, hq]
  exact (Ticks.den_multiple_dvd _ k).trans (Ticks.den_div_dvd s.grid.den_ticks hprod)

theorem exists_compile_of_bounded {d : Dictionary} {s : Settings} {v : Cycle Voicing} {p : Pattern}
    (hc : s.check = .ok ()) (hv : s.notes.resolve d = .ok v) (hp : Pattern.read s.pattern = .ok p)
    (h : p.Bounded s.grid.ticks) : ∃ c, compile d s = .ok c := by
  obtain ⟨hne, hgroups, -⟩ := (Pattern.read_eq_ok_iff _ _).1 hp
  have hs := s.grid.den_ticks
  have hpos := s.grid.ticks_pos
  have hfits := h.groupsFit hne hgroups hs hpos
  cases hclip : compile d s with
  | ok c => exact ⟨c, rfl⟩
  | error e =>
    rw [compile_eq_assembleFrom hc hv hp, assembleFrom_eq_error_iff hfits hp] at hclip
    exact absurd hclip.1 (Pattern.not_overflows_of_le h hne hgroups hs hpos)

/-- **Only the brackets around a leaf count.** In every clip an event begins
at a whole multiple of its own length, so the denominator of its start divides
the product of the group sizes around its leaf. And if that product, times
the slots of the row and the ticks of a slot, fits 64 bits for every leaf,
then accepted settings, notes and pattern do give a clip, whatever the groups
beside each other are divided into. -/
theorem alignment_of_compile (d : Dictionary) (s : Settings) :
    (∀ c : Clip, compile d s = .ok c → ∃ p : Pattern, Pattern.read s.pattern = .ok p ∧
      ∀ (i : Nat) (t : Ticks) (e : Event), c.timeline[i]? = some (t, e) →
        ∃ sizes, p.groupSizes[i]? = some sizes ∧ (∃ k : Nat, t = k * e.duration) ∧
          t.den ∣ sizes.prod) ∧
      ∀ (v : Cycle Voicing) (p : Pattern), s.check = .ok () → s.notes.resolve d = .ok v →
        Pattern.read s.pattern = .ok p →
        (∀ sizes ∈ p.groupSizes,
          (sizes.prod : Nat) * (p.slots * s.grid.ticks) ≤ ((2 ^ 63 - 1 : Nat) : Rat)) →
        ∃ c, compile d s = .ok c := by
  constructor
  · intro c h
    obtain ⟨voicings, p, hc⟩ := compiled_of_compile h
    exact ⟨p, hc.read, fun i t e => hc.alignment⟩
  · intro v p hc hv hp h
    exact exists_compile_of_bounded hc hv hp h

/-- Thirds and fifths side by side. -/
theorem alignment_of_compile_neighbours :
    ∃ c, compile standardChords { pattern := "[xx-][xxxx_]x" } = .ok c ∧
      ∀ (t : Ticks) (e : Event), c.timeline[7]? = some (t, e) →
        (∃ k : Nat, t = k * e.duration) ∧ t.den ∣ 5 := by
  have hc : Settings.check { pattern := "[xx-][xxxx_]x" } = .ok () := by decide +kernel
  have hv : NoteList.resolve standardChords ({} : Settings).notes =
      .ok ⟨.single ⟨.c, .natural, 4⟩, []⟩ := by decide +kernel
  have hp : Pattern.read "[xx-][xxxx_]x" =
      .ok (.group (.mark .note (.mark .note (.mark .rest .nil)))
        (.group (.mark .note (.mark .note (.mark .note (.mark .note (.mark .sustain .nil)))))
          (.mark .note .nil))) := by decide +kernel
  obtain ⟨hstarts, hok⟩ := alignment_of_compile standardChords { pattern := "[xx-][xxxx_]x" }
  obtain ⟨c, h⟩ := hok _ _ hc hv hp (by decide +kernel)
  obtain ⟨p, hp', halign⟩ := hstarts c h
  cases hp.symm.trans hp'
  refine ⟨c, h, fun t e ht => ?_⟩
  obtain ⟨sizes, hsizes, hk, hden⟩ := halign 7 t e ht
  have hfive : sizes = [5] := (Option.some.inj hsizes).symm
  rw [hfive] at hden
  exact ⟨hk, hden⟩

end Clip

end RhythmClip
