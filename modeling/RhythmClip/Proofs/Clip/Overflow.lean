import RhythmClip.Proofs.Clip.Failure

/-!
# Overflow on the way to a time that fits

A start is reached by an addition over the denominator of the leaf before it,
and only then cancelled. So a clip can fail although each of its lengths and
starts, in lowest terms, fits the word: the numerator of an end over the
denominator of its leaf is what has to fit. That all times are representable is
necessary for a clip but not enough.

* `overflows_iff`: an overflow is a time that is not representable, or an end
  that is so only in lowest terms.
* `compile_eq_tooDeep_iff`: which accepted requests fail.
* `not_forall_representable_of_tooDeep`: halves that are nested 63 times fail
  though all their times are representable.
-/
namespace RhythmClip

/-- Numerator and denominator in lowest terms fit the word. -/
def Ticks.Representable (t : Ticks) : Prop := t.num ≤ wordMax ∧ t.den ≤ wordMax

instance (t : Ticks) : Decidable t.Representable := inferInstanceAs (Decidable (_ ∧ _))

namespace Ticks

/-- The numerator in lowest terms is the least one, over any denominator. -/
theorem num_le_den_mul {t : Ticks} {n : Nat} (ht : 0 ≤ t) (hn : n ≠ 0) (h : t.den ∣ n) :
    (t.num : Rat) ≤ n * t := by
  have hle : (t.den : Rat) ≤ n := by exact_mod_cast Nat.le_of_dvd (Nat.pos_of_ne_zero hn) h
  rw [← Rat.mul_den_eq_num, mul_comm]
  gcongr

end Ticks

namespace Pattern

variable {p : Pattern} {slot q : Ticks} {i : Nat}

/-- All lengths of leaves, all starts and the total are representable. -/
def Representable (slot : Ticks) (p : Pattern) : Prop :=
  (∀ q ∈ p.durations slot, q.Representable) ∧
    ∀ i ≤ p.leafCount, ((p.durations slot).take i).sum.Representable

instance (slot : Ticks) (p : Pattern) : Decidable (p.Representable slot) :=
  inferInstanceAs (Decidable (_ ∧ ∀ i ≤ _, _))

/-- Some leaf and its end are representable, but the numerator of the end
leaves the word before it is cancelled. -/
def OverflowsInBetween (slot : Ticks) (p : Pattern) : Prop :=
  ∃ i q, (p.durations slot)[i]? = some q ∧ q.Representable ∧
    ((p.durations slot).take (i + 1)).sum.Representable ∧
    ((p.durations slot).take (i + 1)).sum.den < q.den ∧
    (Ticks.wordMax : Rat) < q.den * ((p.durations slot).take (i + 1)).sum

theorem sum_take_succ (hq : (p.durations slot)[i]? = some q) :
    ((p.durations slot).take (i + 1)).sum = ((p.durations slot).take i).sum + q := by
  rw [List.take_add_one, hq, List.sum_append]
  simp

/-- A leaf ends at a multiple of its length. -/
theorem end_eq (hp : p.NoEmptyGroup) (hq : (p.durations slot)[i]? = some q) :
    ∃ k : Nat, ((p.durations slot).take (i + 1)).sum = k * q := by
  have ha := aligned_durations hp slot 0
  obtain ⟨k, hk⟩ := ha.start_eq hq
  rw [Nat.cast_zero, zero_mul, zero_add] at hk
  refine ⟨k + 1, ?_⟩
  rw [sum_take_succ hq, hk]
  push_cast
  ring

theorem den_end_dvd (hp : p.NoEmptyGroup) (hq : (p.durations slot)[i]? = some q) :
    ((p.durations slot).take (i + 1)).sum.den ∣ q.den := by
  obtain ⟨k, hk⟩ := end_eq hp hq
  rw [hk]
  exact Ticks.den_multiple_dvd q k

theorem end_nonneg (hp : p.NoEmptyGroup) (hpos : 0 < slot) (i : Nat) :
    0 ≤ ((p.durations slot).take i).sum :=
  List.sum_nonneg fun d hd => (pos_of_mem_durations hp hpos d (List.mem_of_mem_take hd)).le

/-- The numerator of the end, over the denominator of the leaf, is at least the
numerators of both in lowest terms. -/
theorem num_le_of_end (hp : p.NoEmptyGroup) (hpos : 0 < slot)
    (hq : (p.durations slot)[i]? = some q) :
    (q.num : Rat) ≤ q.den * ((p.durations slot).take (i + 1)).sum ∧
      (((p.durations slot).take (i + 1)).sum.num : Rat) ≤
        q.den * ((p.durations slot).take (i + 1)).sum := by
  have hstart := end_nonneg hp hpos i
  have hq0 : 0 < q := pos_of_mem_durations hp hpos q (List.mem_of_getElem? hq)
  constructor
  · refine (Ticks.num_le_den_mul hq0.le q.den_nz dvd_rfl).trans ?_
    rw [sum_take_succ hq]
    gcongr
    linarith
  · exact Ticks.num_le_den_mul (end_nonneg hp hpos (i + 1)) q.den_nz (den_end_dvd hp hq)

theorem representable_of_not_overflows (hp : p.NoEmptyGroup) (hpos : 0 < slot)
    (h : ¬p.Overflows slot) : p.Representable slot := by
  rw [not_overflows_iff] at h
  constructor
  · intro q hmem
    obtain ⟨i, hq⟩ := List.getElem?_of_mem hmem
    obtain ⟨hden, hend⟩ := h i q hq
    exact ⟨by exact_mod_cast (num_le_of_end hp hpos hq).1.trans hend, hden⟩
  · intro i hi
    cases i with
    | zero =>
      rw [List.take_zero, List.sum_nil]
      decide
    | succ i =>
      obtain ⟨q, hq⟩ : ∃ q, (p.durations slot)[i]? = some q := by
        rw [← length_durations slot] at hi
        exact ⟨_, List.getElem?_eq_getElem hi⟩
      obtain ⟨hden, hend⟩ := h i q hq
      exact ⟨by exact_mod_cast (num_le_of_end hp hpos hq).2.trans hend,
        (Nat.le_of_dvd q.den_pos (den_end_dvd hp hq)).trans hden⟩

theorem overflows_iff (hp : p.NoEmptyGroup) (hpos : 0 < slot) :
    p.Overflows slot ↔ ¬p.Representable slot ∨ p.OverflowsInBetween slot := by
  constructor
  · intro ho
    by_cases h : p.Representable slot
    · right
      obtain ⟨i, q, hq, hover⟩ := ho
      have hlength := (List.getElem?_eq_some_iff.1 hq).1
      rw [length_durations] at hlength
      have hrepr := h.1 q (List.mem_of_getElem? hq)
      have hend := h.2 (i + 1) hlength
      have hover := hover.resolve_left (not_lt.2 hrepr.2)
      refine ⟨i, q, hq, hrepr, hend, lt_of_le_of_ne ?_ ?_, hover⟩
      · exact Nat.le_of_dvd q.den_pos (den_end_dvd hp hq)
      · intro hden
        -- without anything to cancel, this numerator is that in lowest terms
        rw [← hden, mul_comm, Rat.mul_den_eq_num] at hover
        exact absurd hend.1 (not_le.2 (by exact_mod_cast hover))
    · exact .inl h
  · rintro (h | ⟨i, q, hq, -, -, -, hover⟩)
    · by_contra hnot
      exact h (representable_of_not_overflows hp hpos hnot)
    · exact ⟨i, q, hq, .inr hover⟩

end Pattern

namespace Clip

/-- **Which times overflow.** A request whose settings, notes and pattern are
accepted fails with a pattern that nests too deeply just if some length, start
or total is not representable, or if an end leaves the word on the way to a
representable time. -/
theorem compile_eq_tooDeep_iff {d : Dictionary} {s : Settings} {v : Cycle Voicing} {p : Pattern}
    (hlen : s.pattern.utf8ByteSize < 2 ^ 63) (hc : s.check = .ok ())
    (hv : s.notes.resolve d = .ok v) (hp : Pattern.read s.pattern = .ok p) :
    compile d s = .error (.pattern .tooDeep) ↔
      ¬p.Representable s.grid.ticks ∨ p.OverflowsInBetween s.grid.ticks := by
  obtain ⟨-, hgroups, -⟩ := (Pattern.read_eq_ok_iff _ _).1 hp
  rw [compile_eq_assembleFrom hc hv hp, assembleFrom_eq_error_iff (groupsFit_of_read hlen hp) hp,
    ← Pattern.overflows_iff hgroups s.grid.ticks_pos]
  exact and_iff_left rfl

/-- A note, and behind it the same again in half the time, so many times over. -/
def nestedHalves : Nat → Pattern
  | 0 => .mark .note .nil
  | n + 1 => .group (.mark .note (nestedHalves n)) .nil

theorem read_nestedHalves (n : Nat) :
    Pattern.read (nestedHalves n).text = .ok (nestedHalves n) := by
  have hgroups : (nestedHalves n).NoEmptyGroup := by
    induction n with
    | zero => trivial
    | succ n ih => exact ⟨nofun, ih, trivial⟩
  have hne : nestedHalves n ≠ .nil := by cases n <;> nofun
  exact (Pattern.read_eq_ok_iff _ _).2 ⟨hne, hgroups, rfl⟩

/-- The halves that are nested 63 times, as a request. -/
def halvesRequest : Settings := { pattern := (nestedHalves 63).text }

theorem representable_halvesRequest :
    (nestedHalves 63).Representable halvesRequest.grid.ticks := by decide +kernel

theorem compile_halvesRequest :
    compile standardChords halvesRequest = .error (.pattern .tooDeep) := by decide +kernel

theorem check_halvesRequest : halvesRequest.check = .ok () := by decide +kernel

theorem resolve_halvesRequest : halvesRequest.notes.resolve standardChords =
    .ok ⟨.single ⟨.c, .natural, 4⟩, []⟩ := by decide +kernel

/-- Representable times are not enough for a clip. In halves that are nested 63
times everything is, but the last end is 2^63 over the denominator of the last
leaf before it is cancelled. -/
theorem not_forall_representable_of_tooDeep :
    ¬∀ (d : Dictionary) (s : Settings) (v : Cycle Voicing) (p : Pattern), s.check = .ok () →
      s.notes.resolve d = .ok v → Pattern.read s.pattern = .ok p →
      compile d s = .error (.pattern .tooDeep) → ¬p.Representable s.grid.ticks := fun hall =>
  hall standardChords halvesRequest _ _ check_halvesRequest resolve_halvesRequest
    (read_nestedHalves 63) compile_halvesRequest representable_halvesRequest

/-- With halves that are nested 63 times. -/
theorem compile_eq_tooDeep_iff_halves :
    (nestedHalves 63).OverflowsInBetween halvesRequest.grid.ticks := by
  have hiff := compile_eq_tooDeep_iff (by decide +kernel) check_halvesRequest
    resolve_halvesRequest (read_nestedHalves 63)
  exact (hiff.1 compile_halvesRequest).resolve_left (not_not.2 representable_halvesRequest)

end Clip

end RhythmClip
