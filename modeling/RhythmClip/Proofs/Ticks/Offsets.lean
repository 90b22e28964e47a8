import RhythmClip.Proofs.Ticks.Fraction
import Mathlib.Algebra.BigOperators.Group.List.Basic
import Mathlib.Data.List.Forall2

/-!
# Sums and offsets

A list of durations is added up from zero, or laid end to end by a loop that
notes the end so far before it adds the next duration. Both stop at the first
addition that has no result, so they stop at the same place: the offsets exist
just if the sum does, each start is the sum of the durations before it, and the
end is the sum of them all. Which order the durations come in can decide
whether there is a sum, but not what it is.

The loops run on stored fractions as well, and what they hold there are the
times of the loops above, in lowest terms.

* `offsets?_eq_foldlM`: laying durations end to end is a loop over ends.
* `rel_foldlM`: two loops whose steps agree stop together, in related states.
* `rel_sum?`, `rel_offsets?`: sum and offsets of stored fractions.
* `offsets?_agrees_with_sum?`: the starts and the end as sums, in words too.
-/
namespace RhythmClip

namespace Ticks

/-! ## The loops -/

section Loops

variable {α β γ δ : Type}

/-- Notes the end so far as a start, and adds the duration to it. -/
def place? (add : α → α → Option α) (laid : List α × α) (d : α) : Option (List α × α) := do
  let next ← add laid.2 d
  some (laid.1 ++ [laid.2], next)

/-- Loops over related lists, with steps that go on or stop together and keep
their states related, do so as a whole. -/
theorem rel_foldlM {R : α → β → Prop} {S : γ → δ → Prop} {f : α → γ → Option α}
    {g : β → δ → Option β}
    (hstep : ∀ {a b c d}, R a b → S c d → Option.Rel R (f a c) (g b d)) {cs : List γ} {ds : List δ}
    (h : List.Forall₂ S cs ds) {a : α} {b : β} (hab : R a b) :
    Option.Rel R (cs.foldlM f a) (ds.foldlM g b) := by
  induction h generalizing a b with
  | nil => exact .some hab
  | @cons c d cs ds hcd _ ih =>
    rw [List.foldlM_cons, List.foldlM_cons]
    have hnext := hstep hab hcd
    generalize f a c = x, g b d = y at hnext
    cases hnext with
    | some hxy => exact ih hxy
    | none => exact .none

end Loops

theorem foldlM_place? (front : List Ticks) (start : Ticks) (ds : List Ticks) :
    ds.foldlM (place? add?) (front, start) =
      (layFrom? start ds).map fun laid => (front ++ laid.1, laid.2) := by
  induction ds generalizing front start with
  | nil => simp [layFrom?]
  | cons d ds ih =>
    simp only [List.foldlM_cons, layFrom?, place?]
    cases add? start d with
    | none => rfl
    | some next =>
      refine (ih (front ++ [start]) next).trans ?_
      cases hrest : layFrom? next ds <;> simp [hrest]

theorem offsets?_eq_foldlM (ds : List Ticks) :
    offsets? ds = ds.foldlM (place? add?) ([], 0) := by
  rw [foldlM_place?, offsets?]
  cases layFrom? 0 ds <;> rfl

/-! ## Starts and ends as sums -/

variable {ds starts : List Ticks} {start stop t : Ticks}

theorem exists_offsets?_iff : (∃ starts, offsets? ds = some (starts, t)) ↔ sum? ds = some t := by
  rw [← offsets?_map_snd, Option.map_eq_some_iff]
  constructor
  · rintro ⟨starts, h⟩
    exact ⟨_, h, rfl⟩
  · rintro ⟨⟨starts, _⟩, h, rfl⟩
    exact ⟨starts, h⟩

theorem sum?_eq_some (h : sum? ds = some t) : t = ds.sum := by
  obtain ⟨starts, hlaid⟩ := exists_offsets?_iff.2 h
  rw [(layFrom?_eq_some hlaid).1, zero_add]

/-- Each start is what the sum has come to there. -/
theorem foldlM_take_of_layFrom? (h : layFrom? start ds = some (starts, stop)) {i : Nat}
    (hi : i < ds.length) : ∃ t, starts[i]? = some t ∧ (ds.take i).foldlM add? start = some t := by
  induction ds generalizing start starts i with
  | nil => cases hi
  | cons d ds ih =>
    simp only [layFrom?, Option.bind_eq_bind, Option.bind_eq_some_iff] at h
    obtain ⟨next, hnext, ⟨rest, last⟩, hrest, he⟩ := h
    cases he
    cases i with
    | zero => exact ⟨start, rfl, rfl⟩
    | succ i =>
      obtain ⟨t, hget, hsum⟩ := ih hrest (Nat.lt_of_succ_lt_succ hi)
      refine ⟨t, hget, ?_⟩
      rw [List.take_succ_cons, List.foldlM_cons, hnext]
      exact hsum

/-! ## Stored fractions -/

namespace Fraction

def sum? (qs : List Fraction) : Option Fraction := qs.foldlM add? zero

def offsets? (qs : List Fraction) : Option (List Fraction × Fraction) :=
  qs.foldlM (place? add?) ([], zero)

/-- The stored starts and the stored end are those of the times. -/
def HoldsLaid (laid : List Fraction × Fraction) (times : List Ticks × Ticks) : Prop :=
  List.Forall₂ Holds laid.1 times.1 ∧ laid.2.Holds times.2

theorem rel_place? {laid : List Fraction × Fraction} {times : List Ticks × Ticks} {q : Fraction}
    {d : Ticks} (hlaid : HoldsLaid laid times) (hq : q.Holds d) :
    Option.Rel HoldsLaid (place? add? laid q) (place? Ticks.add? times d) := by
  have hnext := rel_add? hlaid.2 hq
  unfold place?
  generalize add? laid.2 q = x, Ticks.add? times.2 d = y at hnext
  cases hnext with
  | some hxy => exact .some ⟨List.rel_append hlaid.1 (.cons hlaid.2 .nil), hxy⟩
  | none => exact .none

variable {qs : List Fraction} {ds : List Ticks}

theorem rel_sum? (h : List.Forall₂ Holds qs ds) : Option.Rel Holds (sum? qs) (Ticks.sum? ds) := by
  unfold sum? Ticks.sum?
  apply rel_foldlM _ h holds_zero
  intro p s q t hp hq
  exact rel_add? hp hq

theorem rel_offsets? (h : List.Forall₂ Holds qs ds) :
    Option.Rel HoldsLaid (offsets? qs) (Ticks.offsets? ds) := by
  rw [offsets?_eq_foldlM, offsets?]
  apply rel_foldlM _ h ⟨.nil, holds_zero⟩
  intro laid times q d hlaid hq
  exact rel_place? hlaid hq

end Fraction

/-- **Sums and offsets.** For durations of whatever sign, stored in lowest terms,
the offsets exist just if the sum does. Then the end is the sum of the durations
and each start is the sum of those before it: the checked sum, and the exact
one. Durations in another order have the same sum, if they have one. The loops
over the stored fractions stop just where these do, and come to the same times,
stored in lowest terms. -/
theorem offsets?_agrees_with_sum? {qs : List Fraction} {ds : List Ticks}
    (h : List.Forall₂ Fraction.Holds qs ds) :
    ((offsets? ds).isSome ↔ (sum? ds).isSome) ∧
      (∀ starts stop, offsets? ds = some (starts, stop) →
        sum? ds = some stop ∧ stop = ds.sum ∧ starts.length = ds.length ∧
          ∀ i < ds.length, ∃ t, starts[i]? = some t ∧ sum? (ds.take i) = some t ∧
            t = (ds.take i).sum) ∧
      (∀ es, es.Perm ds → ∀ t u, sum? ds = some t → sum? es = some u → t = u) ∧
      Option.Rel Fraction.Holds (Fraction.sum? qs) (sum? ds) ∧
      Option.Rel Fraction.HoldsLaid (Fraction.offsets? qs) (offsets? ds) := by
  refine ⟨?_, fun starts stop hlaid => ?_, fun es hperm t u ht hu => ?_, Fraction.rel_sum? h,
    Fraction.rel_offsets? h⟩
  · rw [← offsets?_map_snd, Option.isSome_map]
  · have hsum : sum? ds = some stop := exists_offsets?_iff.1 ⟨starts, hlaid⟩
    refine ⟨hsum, sum?_eq_some hsum, length_layFrom? hlaid, fun i hi => ?_⟩
    obtain ⟨t, hget, htake⟩ := foldlM_take_of_layFrom? hlaid hi
    exact ⟨t, hget, htake, sum?_eq_some htake⟩
  · rw [sum?_eq_some ht, sum?_eq_some hu, hperm.sum_eq]

/-- Close to the largest number, with signs that change. The same durations have
no sum if the long one comes first. -/
theorem offsets?_agrees_with_sum?_mixedSigns :
    List.Forall₂ Fraction.Holds [⟨2, 3⟩, ⟨-1, 6⟩, ⟨9223372036854775805, 2⟩]
        [2 / 3, -1 / 6, 9223372036854775805 / 2] ∧
      (∃ starts, offsets? [2 / 3, -1 / 6, 9223372036854775805 / 2] =
        some (starts, 4611686018427387903) ∧ starts[2]? = some (1 / 2)) ∧
      (∃ q, Fraction.sum? [⟨2, 3⟩, ⟨-1, 6⟩, ⟨9223372036854775805, 2⟩] = some q ∧
        q.Holds 4611686018427387903) ∧
      sum? [9223372036854775805 / 2, 2 / 3, -1 / 6] = none := by
  have hheld : List.Forall₂ Fraction.Holds [⟨2, 3⟩, ⟨-1, 6⟩, ⟨9223372036854775805, 2⟩]
      [2 / 3, -1 / 6, 9223372036854775805 / 2] :=
    .cons (by decide +kernel) (.cons (by decide +kernel) (.cons (by decide +kernel) .nil))
  have hsum : sum? [2 / 3, -1 / 6, 9223372036854775805 / 2] = some 4611686018427387903 := by
    decide +kernel
  obtain ⟨hiff, hlaid, -, hwords, -⟩ := offsets?_agrees_with_sum? hheld
  refine ⟨hheld, ?_, ?_, by decide +kernel⟩
  · obtain ⟨⟨starts, stop⟩, hoffsets⟩ := Option.isSome_iff_exists.1 (hiff.2 (by rw [hsum]; rfl))
    obtain ⟨hstop, -, -, hstarts⟩ := hlaid starts stop hoffsets
    obtain ⟨t, hget, -, ht⟩ := hstarts 2 (by decide)
    have hlast : stop = 4611686018427387903 := Option.some.inj (hstop.symm.trans hsum)
    have hthird : t = 1 / 2 := ht.trans (by decide +kernel)
    exact ⟨starts, hlast ▸ hoffsets, hthird ▸ hget⟩
  · rw [hsum] at hwords
    generalize Fraction.sum? _ = x at hwords
    cases hwords with
    | some hq => exact ⟨_, rfl, hq⟩

end Ticks

end RhythmClip
