import RhythmClip.Pattern.Layout
import RhythmClip.Proofs.Ticks
import Mathlib.Algebra.BigOperators.Group.List.Basic

/-!
# The exact lengths of leaves

A leaf lasts the slot length divided by the number of slots of every group
around it (`groupSizes`, `durations`). No 64-bit number occurs here: these are
the lengths that the checked layout has to reach.

* `sum_durations`: a row lasts as many slot lengths as it has slots.
* `durations_eq_of_hasGroup`: the leaves of a group are a stretch of the row,
  and the group has a share of the slot to itself.
* `sum_take_leavesBefore`: the `j`-th slot begins after `j` slot lengths.
* `aligned_durations`: every leaf begins at a whole multiple of its length.
* `exact_layOut_iff`: where the group sizes fit a word, the checked layout is
  exact just if every denominator does.
-/
namespace RhythmClip

namespace Pattern

/-! ## The groups around a leaf -/

/-- For each leaf the numbers of slots of the groups around it, the outermost
first. The row itself is not one of them. -/
def groupSizes : Pattern → List (List Nat)
  | nil => []
  | mark _ rest => [] :: rest.groupSizes
  | group inner rest => inner.groupSizes.map (inner.slots :: ·) ++ rest.groupSizes

theorem length_groupSizes (p : Pattern) : p.groupSizes.length = p.leafCount := by
  induction p with
  | nil => rfl
  | mark m p ih => simp [groupSizes, leafCount, ih]
  | group i p ihi ih => simp [groupSizes, leafCount, ihi, ih]

theorem sharesFrom_eq (p : Pattern) (parts : Nat) :
    p.sharesFrom parts = p.groupSizes.map fun sizes => parts * sizes.prod := by
  induction p generalizing parts with
  | nil => rfl
  | mark m p ih => simp [sharesFrom, groupSizes, ih]
  | group i p ihi ih =>
    simp only [sharesFrom, groupSizes, ihi, ih, List.map_append, List.map_map]
    congr 1
    apply List.map_congr_left
    intro sizes _
    simp [Nat.mul_assoc]

theorem shares_eq (p : Pattern) : p.shares = p.groupSizes.map List.prod := by
  rw [shares, sharesFrom_eq]
  simp

/-- The exact length of each leaf of a row whose slots last `slot`. -/
def durations (slot : Ticks) (p : Pattern) : List Ticks :=
  p.groupSizes.map fun sizes => slot / (sizes.prod : Nat)

@[simp] theorem durations_nil (slot : Ticks) : nil.durations slot = [] := rfl

@[simp] theorem durations_mark (slot : Ticks) (m : Mark) (p : Pattern) :
    (mark m p).durations slot = slot :: p.durations slot := by
  simp [durations, groupSizes]

@[simp] theorem durations_group (slot : Ticks) (i p : Pattern) :
    (group i p).durations slot = i.durations (slot / i.slots) ++ p.durations slot := by
  simp only [durations, groupSizes, List.map_append, List.map_map]
  congr 1
  apply List.map_congr_left
  intro sizes _
  simp [div_div]

theorem durations_append (slot : Ticks) (p q : Pattern) :
    (p ++ q).durations slot = p.durations slot ++ q.durations slot := by
  induction p with
  | nil => rfl
  | mark m p ih => simp [ih]
  | group i p _ ih => simp [ih]

@[simp] theorem length_durations (slot : Ticks) (p : Pattern) :
    (p.durations slot).length = p.leafCount := by
  rw [durations, List.length_map, length_groupSizes]

/-! ## Rows without an empty group -/

theorem slots_ne_zero {p : Pattern} (h : p ≠ nil) : p.slots ≠ 0 := by
  cases p with
  | nil => exact absurd rfl h
  | mark m p => simp [slots]
  | group i p => simp [slots]

theorem slots_eq_zero_iff (p : Pattern) : p.slots = 0 ↔ p = nil := by
  refine ⟨fun h => ?_, fun h => h ▸ rfl⟩
  by_contra hne
  exact slots_ne_zero hne h

theorem leafCount_ne_zero {p : Pattern} (hne : p ≠ nil) (hp : p.NoEmptyGroup) :
    p.leafCount ≠ 0 := by
  induction p with
  | nil => exact absurd rfl hne
  | mark m p _ => simp [leafCount]
  | group i p ihi _ =>
    have := ihi hp.1 hp.2.1
    simp only [leafCount]
    omega

/-- A group gives out its whole slot. -/
theorem slots_mul_share {p : Pattern} (slot : Ticks) (h : p ≠ nil) :
    (p.slots : Rat) * (slot / p.slots) = slot := by
  have : (p.slots : Rat) ≠ 0 := Nat.cast_ne_zero.2 (slots_ne_zero h)
  field_simp

theorem sum_durations {p : Pattern} (hp : p.NoEmptyGroup) (slot : Ticks) :
    (p.durations slot).sum = p.slots * slot := by
  induction p generalizing slot with
  | nil => simp [slots]
  | mark m p ih =>
    rw [durations_mark, List.sum_cons, ih hp, slots]
    push_cast
    ring
  | group i p ihi ih =>
    obtain ⟨hne, hi, hp⟩ := hp
    rw [durations_group, List.sum_append, ihi hi, ih hp, slots_mul_share slot hne, slots]
    push_cast
    ring

theorem pos_of_mem_durations {p : Pattern} (hp : p.NoEmptyGroup) {slot : Ticks} (hs : 0 < slot) :
    ∀ d ∈ p.durations slot, 0 < d := by
  induction p generalizing slot with
  | nil => simp
  | mark m p ih =>
    intro d hd
    rw [durations_mark] at hd
    rcases List.mem_cons.1 hd with rfl | hd
    · exact hs
    · exact ih hp hs d hd
  | group i p ihi ih =>
    obtain ⟨hne, hi, hp⟩ := hp
    intro d hd
    rw [durations_group] at hd
    rcases List.mem_append.1 hd with hd | hd
    · have : (0 : Rat) < i.slots := Nat.cast_pos.2 (Nat.pos_of_ne_zero (slots_ne_zero hne))
      exact ihi hi (div_pos hs this) d hd
    · exact ih hp hs d hd

/-- Denominators only grow towards the leaves. -/
theorem den_le_of_mem_durations {p : Pattern} (hp : p.NoEmptyGroup) {slot : Ticks} :
    ∀ d ∈ p.durations slot, slot.den ≤ d.den := by
  induction p generalizing slot with
  | nil => simp
  | mark m p ih =>
    intro d hd
    rw [durations_mark] at hd
    rcases List.mem_cons.1 hd with rfl | hd
    · exact Nat.le_refl _
    · exact ih hp d hd
  | group i p ihi ih =>
    obtain ⟨hne, hi, hp⟩ := hp
    intro d hd
    rw [durations_group] at hd
    rcases List.mem_append.1 hd with hd | hd
    · exact Nat.le_trans (Ticks.den_le_den_div slot (slots_ne_zero hne)) (ihi hi d hd)
    · exact ih hp d hd

/-- A row whose slots begin at multiples of the slot length: after `k` slots
the next one begins at `k` lengths, and if it is a group, at `k` times as many
of its shares as it has slots. -/
theorem aligned_durations {p : Pattern} (hp : p.NoEmptyGroup) (slot : Ticks) (k : Nat) :
    Ticks.Aligned (k * slot) (p.durations slot) := by
  induction p generalizing slot k with
  | nil => trivial
  | mark m p ih =>
    rw [durations_mark]
    refine ⟨⟨k, rfl⟩, ?_⟩
    have h := ih hp slot (k + 1)
    push_cast at h
    rwa [add_mul, one_mul] at h
  | group i p ihi ih =>
    obtain ⟨hne, hi, hp⟩ := hp
    rw [durations_group, Ticks.aligned_append, sum_durations hi, slots_mul_share slot hne]
    have hstart := ihi hi (slot / i.slots) (k * i.slots)
    have hrest := ih hp slot (k + 1)
    push_cast at hstart hrest
    rw [mul_assoc, slots_mul_share slot hne] at hstart
    rw [add_mul, one_mul] at hrest
    exact ⟨hstart, hrest⟩

/-! ## Groups -/

/-- `HasGroup p before around inner`: the row holds, at some depth, a group
whose own row is `inner`. The leaves before it number `before`, and `around`
are the numbers of slots of the groups that it stands in, the outermost first. -/
inductive HasGroup : Pattern → Nat → List Nat → Pattern → Prop where
  | here {inner rest : Pattern} : HasGroup (group inner rest) 0 [] inner
  | inside {i rest inner : Pattern} {before : Nat} {around : List Nat} :
    HasGroup i before around inner → HasGroup (group i rest) before (i.slots :: around) inner
  | afterMark {m : Mark} {rest inner : Pattern} {before : Nat} {around : List Nat} :
    HasGroup rest before around inner → HasGroup (mark m rest) (before + 1) around inner
  | afterGroup {i rest inner : Pattern} {before : Nat} {around : List Nat} :
    HasGroup rest before around inner →
      HasGroup (group i rest) (i.leafCount + before) around inner

theorem HasGroup.ne_nil {p inner : Pattern} {before : Nat} {around : List Nat}
    (h : HasGroup p before around inner) (hp : p.NoEmptyGroup) :
    inner ≠ nil ∧ inner.NoEmptyGroup := by
  induction h with
  | here => exact ⟨hp.1, hp.2.1⟩
  | inside _ ih => exact ih hp.2.1
  | afterMark _ ih => exact ih hp
  | afterGroup _ ih => exact ih hp.2.2

theorem durations_eq_of_hasGroup {p inner : Pattern} {before : Nat} {around : List Nat}
    (h : HasGroup p before around inner) (slot : Ticks) :
    ∃ front back, front.length = before ∧ p.durations slot =
      front ++ inner.durations (slot / (around.prod : Nat) / inner.slots) ++ back := by
  induction h generalizing slot with
  | @here inner rest => exact ⟨[], rest.durations slot, rfl, by simp⟩
  | @inside i rest _ _ _ _ ih =>
    obtain ⟨front, back, hlen, he⟩ := ih (slot / i.slots)
    refine ⟨front, back ++ rest.durations slot, hlen, ?_⟩
    rw [durations_group, he]
    simp [div_div]
  | afterMark _ ih =>
    obtain ⟨front, back, hlen, he⟩ := ih slot
    exact ⟨slot :: front, back, by simp [hlen], by simp [he]⟩
  | @afterGroup i _ _ _ _ _ ih =>
    obtain ⟨front, back, hlen, he⟩ := ih slot
    exact ⟨i.durations (slot / i.slots) ++ front, back, by simp [hlen], by simp [he]⟩

/-- The leaves of a group share out exactly the slot of the group. -/
theorem sum_drop_take_of_hasGroup {p inner : Pattern} {before : Nat} {around : List Nat}
    (h : HasGroup p before around inner) (hp : p.NoEmptyGroup) (slot : Ticks) :
    (((p.durations slot).drop before).take inner.leafCount).sum = slot / (around.prod : Nat) := by
  obtain ⟨hne, hi⟩ := h.ne_nil hp
  obtain ⟨front, back, hlen, he⟩ := durations_eq_of_hasGroup h slot
  rw [he, List.append_assoc, List.drop_left' hlen, List.take_left' (length_durations ..),
    sum_durations hi, slots_mul_share _ hne]

/-! ## Slots of the row -/

/-- How many leaves stand in the first slots of the row. -/
def leavesBefore : Pattern → Nat → Nat
  | nil, _ | mark _ _, 0 | group _ _, 0 => 0
  | mark _ rest, j + 1 => rest.leavesBefore j + 1
  | group inner rest, j + 1 => inner.leafCount + rest.leavesBefore j

theorem leavesBefore_lt {p : Pattern} (hp : p.NoEmptyGroup) {j : Nat} (hj : j < p.slots) :
    p.leavesBefore j < p.leafCount := by
  induction p generalizing j with
  | nil => simp [slots] at hj
  | mark m p ih =>
    cases j with
    | zero => simp [leavesBefore, leafCount]
    | succ j =>
      have := ih hp (Nat.lt_of_succ_lt_succ hj)
      simp only [leavesBefore, leafCount]
      omega
  | group i p _ ih =>
    obtain ⟨hne, hi, hp⟩ := hp
    cases j with
    | zero =>
      have := leafCount_ne_zero hne hi
      simp only [leavesBefore, leafCount]
      omega
    | succ j =>
      have := ih hp (Nat.lt_of_succ_lt_succ hj)
      simp only [leavesBefore, leafCount]
      omega

theorem sum_take_leavesBefore {p : Pattern} (hp : p.NoEmptyGroup) (slot : Ticks) {j : Nat}
    (hj : j ≤ p.slots) : ((p.durations slot).take (p.leavesBefore j)).sum = j * slot := by
  induction p generalizing j with
  | nil =>
    cases Nat.le_zero.1 hj
    simp
  | mark m p ih =>
    cases j with
    | zero => simp [leavesBefore]
    | succ j =>
      rw [durations_mark, leavesBefore, List.take_succ_cons, List.sum_cons,
        ih hp (Nat.le_of_succ_le_succ hj)]
      push_cast
      ring
  | group i p _ ih =>
    obtain ⟨hne, hi, hp⟩ := hp
    cases j with
    | zero => simp [leavesBefore]
    | succ j =>
      rw [durations_group, leavesBefore, ← length_durations (slot / i.slots) i,
        List.take_length_add_append, List.sum_append, sum_durations hi, slots_mul_share slot hne,
        ih hp (Nat.le_of_succ_le_succ hj)]
      push_cast
      ring

/-! ## The checked layout -/

theorem exact_append (a b : Layout) : (a.append b).exact = (a.exact && b.exact) := by
  unfold Layout.append
  cases h : a.exact <;> simp [h]

theorem leaves_append {a : Layout} (h : a.exact = true) (b : Layout) :
    (a.append b).leaves = a.leaves ++ b.leaves := by
  rw [Layout.append, if_pos h]

theorem slots_le_length_symbols (p : Pattern) : p.slots ≤ p.symbols.length := by
  induction p with
  | nil => exact Nat.le_refl _
  | mark m p ih => simp only [slots, symbols, List.length_cons]; omega
  | group i p _ ih =>
    simp only [slots, symbols, List.length_cons, List.length_append]
    omega

theorem map_duration_layOut {p : Pattern} {slot : Ticks} (h : (p.layOut slot).exact = true) :
    (p.layOut slot).leaves.map Leaf.duration = p.durations slot := by
  rw [durations_layOut p slot h, shares_eq, List.map_map]
  rfl

/-- Every group has a number of slots that fits a word, so dividing by it is
not refused. -/
def GroupsFit (p : Pattern) : Prop := ∀ sizes ∈ p.groupSizes, ∀ n ∈ sizes, n ≤ Ticks.wordMax

theorem groupsFit_of_length_le {p : Pattern} (h : p.symbols.length ≤ Ticks.wordMax) :
    p.GroupsFit := by
  induction p with
  | nil => intro sizes hsizes; cases hsizes
  | mark m p ih =>
    simp only [symbols, List.length_cons] at h
    exact List.forall_mem_cons.2 ⟨List.forall_mem_nil _, ih (by omega)⟩
  | group i p ihi ih =>
    have hslots := slots_le_length_symbols i
    simp only [symbols, List.length_cons, List.length_append] at h
    refine List.forall_mem_append.2 ⟨?_, ih (by omega)⟩
    rw [List.forall_mem_map]
    exact fun sizes hsizes => List.forall_mem_cons.2 ⟨by omega, ihi (by omega) sizes hsizes⟩

/-- A group has a leaf, and the number of its slots is among the sizes around it. -/
theorem GroupsFit.of_group {i p : Pattern} (hne : i ≠ nil) (hi : i.NoEmptyGroup)
    (h : (group i p).GroupsFit) : i.slots ≤ Ticks.wordMax ∧ i.GroupsFit ∧ p.GroupsFit := by
  obtain ⟨hin, hp⟩ := List.forall_mem_append.1 h
  rw [List.forall_mem_map] at hin
  have hpos := Nat.pos_of_ne_zero (leafCount_ne_zero hne hi)
  rw [← length_groupSizes] at hpos
  obtain ⟨sizes, hsizes⟩ := List.exists_mem_of_length_pos hpos
  exact ⟨hin sizes hsizes _ List.mem_cons_self,
    fun sizes hsizes n hn => hin sizes hsizes n (List.mem_cons_of_mem _ hn), hp⟩

/-- A group whose share does not fit stops the layout, and all its leaves,
which are at least one, have a denominator that does not fit either. -/
theorem exact_layOut_iff {p : Pattern} (hp : p.NoEmptyGroup) (hfits : p.GroupsFit) {slot : Ticks}
    (hs : slot.den ≤ Ticks.wordMax) :
    (p.layOut slot).exact = true ↔ ∀ d ∈ p.durations slot, d.den ≤ Ticks.wordMax := by
  induction p generalizing slot with
  | nil => simp [layOut]
  | mark m p ih =>
    rw [layOut, exact_append, Bool.true_and, ih hp (List.forall_mem_cons.1 hfits).2 hs,
      durations_mark, List.forall_mem_cons]
    exact ⟨fun h => ⟨hs, h⟩, And.right⟩
  | group i p ihi ih =>
    obtain ⟨hne, hi, hp⟩ := hp
    obtain ⟨hslots, hfitsi, hfits⟩ := hfits.of_group hne hi
    rw [layOut, Ticks.split?_eq slot (slots_ne_zero hne) hslots, durations_group,
      List.forall_mem_append]
    by_cases hfit : (slot / i.slots).den ≤ Ticks.wordMax
    · simp only [if_pos hfit]
      rw [exact_append, Bool.and_eq_true, ihi hi hfitsi hfit, ih hp hfits hs]
    · simp only [if_neg hfit]
      constructor
      · intro h
        cases h
      · rintro ⟨h, -⟩
        have hpos := Nat.pos_of_ne_zero (leafCount_ne_zero hne hi)
        rw [← length_durations (slot / i.slots)] at hpos
        obtain ⟨d, hd⟩ := List.exists_mem_of_length_pos hpos
        exact absurd (Nat.le_trans (den_le_of_mem_durations hi d hd) (h d hd)) hfit

end Pattern

end RhythmClip
