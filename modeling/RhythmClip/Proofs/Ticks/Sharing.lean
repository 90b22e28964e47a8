import RhythmClip.Proofs.Ticks.Offsets

/-!
# Equal parts and their sum

A fraction in lowest terms is cut into equal parts by cancelling the number of
parts against its numerator; what is left of that number goes into the
denominator, and only this product has to fit the word. Added up again, the
parts stay multiples of one of them, so every sum on the way is written over
its denominator and the last one is the largest.

* `num_div`, `den_div`: numerator and denominator of a part, in lowest terms.
* `sum?_replicate`: when so many equal durations have a sum.
* `split?_then_sum?`: which fractions can be cut, and which parts add up again;
  stored fractions do so in words.
-/
namespace RhythmClip

namespace Ticks

variable {N d n : Nat}

/-! ## One part -/

theorem ofFraction_eq (N d : Nat) : ofFraction N d = (N : Rat) / d := by
  rw [ofFraction, Rat.divInt_eq_div, Int.cast_natCast, Int.cast_natCast]

theorem num_ofFraction (h : N.Coprime d) (hd : 0 < d) : (ofFraction N d).num = N := by
  rw [ofFraction, Rat.divInt_eq_div]
  exact Rat.num_div_eq_of_coprime (Int.natCast_pos.2 hd) h

theorem den_ofFraction (h : N.Coprime d) (hd : 0 < d) : (ofFraction N d).den = d := by
  rw [ofFraction, Rat.divInt_eq_div]
  exact Int.natCast_inj.1 (Rat.den_div_eq_of_coprime (Int.natCast_pos.2 hd) h)

/-- What is left after cancelling has nothing more in common. -/
theorem coprime_part (h : N.Coprime d) (hn : 0 < n) :
    (N / N.gcd n).Coprime (d * (n / N.gcd n)) := by
  have hg : 0 < N.gcd n := Nat.gcd_pos_of_pos_right N hn
  have hN : N / N.gcd n ∣ N := Nat.div_dvd_of_dvd (Nat.gcd_dvd_left N n)
  exact (h.coprime_dvd_left hN).mul_right (Nat.coprime_div_gcd_div_gcd hg)

theorem num_div (h : N.Coprime d) (hd : 0 < d) (hn : 0 < n) :
    (ofFraction N d / n).num = (N / N.gcd n : Nat) := by
  rw [num_div_natCast _ hn, num_ofFraction h hd, Int.gcd_natCast_natCast, Int.natCast_ediv]

theorem den_div (h : N.Coprime d) (hd : 0 < d) (hn : 0 < n) :
    (ofFraction N d / n).den = d * (n / N.gcd n) := by
  rw [den_div_natCast _ hn, num_ofFraction h hd, den_ofFraction h hd, Int.gcd_natCast_natCast]

theorem split?_eq_none_iff (h : N.Coprime d) (hd : 0 < d) (n : Nat) :
    split? (ofFraction N d) n = none ↔
      n = 0 ∨ wordMax < n ∨ wordMax < d * (n / N.gcd n) := by
  by_cases hn : n = 0
  · simp [hn, split?]
  · by_cases hmax : wordMax < n
    · simp [hmax, split?]
    · rw [split?_eq _ hn (by omega), den_div h hd (by omega)]
      simp [hn, hmax]

/-! ## The sum of the parts -/

/-- As `add?_multiple`, and zero is a multiple of itself. -/
theorem add?_multiple_of_nonneg {q : Ticks} (k : Nat) (hq : 0 ≤ q) :
    add? (k * q) q = if Writable q (k * q + q) then some (k * q + q) else none := by
  rcases hq.eq_or_lt with rfl | hpos
  · rw [mul_zero]
    decide +kernel
  · exact add?_multiple k hpos

/-- Equal durations are added to a multiple of one of them; the last sum is
the largest, so it decides. -/
theorem foldlM_add?_replicate {q : Ticks} (hq : 0 ≤ q) (k n : Nat) :
    (List.replicate (n + 1) q).foldlM add? (k * q) =
      if Writable q ((k + (n + 1) : Nat) * q) then some ((k + (n + 1) : Nat) * q) else none := by
  have hnext : ∀ k : Nat, (k : Rat) * q + q = ((k + 1 : Nat) : Rat) * q := fun k => by
    push_cast
    ring
  induction n generalizing k with
  | zero =>
    rw [List.replicate_one, List.foldlM_cons, add?_multiple_of_nonneg k hq, hnext]
    split <;> rfl
  | succ n ih =>
    rw [List.replicate_succ, List.foldlM_cons, add?_multiple_of_nonneg k hq, hnext]
    have hcount : k + 1 + (n + 1) = k + (n + 1 + 1) := by omega
    by_cases hw : Writable q ((k + 1 : Nat) * q)
    · rw [if_pos hw]
      exact (ih (k + 1)).trans (by rw [hcount])
    · have hle : ((k + 1 : Nat) : Rat) * q ≤ (k + (n + 1 + 1) : Nat) * q :=
        mul_le_mul_of_nonneg_right (by exact_mod_cast (by omega)) hq
      rw [if_neg hw, if_neg fun hlast => hw (hlast.of_le hle)]
      rfl

/-- Over its own denominator a multiple has a multiple of the numerator. -/
theorem writable_multiple_iff (q : Ticks) (n : Nat) :
    Writable q (n * q) ↔ q.den ≤ wordMax ∧ n * q.num ≤ wordMax := by
  have hnum : (q.den : Rat) * (n * q) = ((n * q.num : Int) : Rat) := by
    rw [Int.cast_mul, ← Rat.mul_den_eq_num]
    push_cast
    ring
  rw [Writable, hnum]
  exact and_congr_right fun _ => by exact_mod_cast Iff.rfl

theorem sum?_replicate {q : Ticks} (hq : 0 ≤ q) (hden : q.den ≤ wordMax) (hn : 0 < n) :
    sum? (List.replicate n q) = if n * q.num ≤ wordMax then some (n * q) else none := by
  obtain ⟨m, rfl⟩ := Nat.exists_eq_succ_of_ne_zero hn.ne'
  have h := foldlM_add?_replicate hq 0 m
  rw [Nat.cast_zero, zero_mul, Nat.zero_add] at h
  rw [sum?, h]
  simp only [writable_multiple_iff, hden, true_and]

/-! ## In words -/

namespace Fraction

/-- The stored part is the part, and the loop over so many stored parts comes to
the sum of so many parts, or has none where there is none. -/
def HoldsParts (n : Nat) (part : Fraction) (q : Ticks) : Prop :=
  part.Holds q ∧
    Option.Rel Holds (sum? (List.replicate n part)) (Ticks.sum? (List.replicate n q))

theorem forall₂_replicate {part : Fraction} {q : Ticks} (h : part.Holds q) (n : Nat) :
    List.Forall₂ Holds (List.replicate n part) (List.replicate n q) := by
  induction n with
  | zero => exact .nil
  | succ n ih => exact .cons h ih

theorem rel_split?_parts {w : Fraction} {t : Ticks} (h : w.Holds t) (n : Nat) :
    Option.Rel (HoldsParts n) (w.split? n) (Ticks.split? t n) := by
  have hcut := rel_split? h n
  generalize w.split? n = x, Ticks.split? t n = y at hcut
  cases hcut with
  | some hpart => exact .some ⟨hpart, rel_sum? (forall₂_replicate hpart n)⟩
  | none => exact .none

end Fraction

/-- **Cutting and adding up again.** A fraction in lowest terms cannot be cut
just if there are no parts, if their number leaves the word, or if the
denominator of a part does. Otherwise so many parts are exactly the fraction, a
part is in lowest terms, and the checked sum of all of them is the fraction
again, or there is none where the last numerator leaves the word. The stored
fraction is cut in words just where it can be, into the same part, and the loop
over the stored parts comes to the same sum. -/
theorem split?_then_sum? (h : N.Coprime d) (hd : 0 < d) (n : Nat) :
    (ofFraction N d).num = N ∧ (ofFraction N d).den = d ∧
      (split? (ofFraction N d) n = none ↔
        n = 0 ∨ wordMax < n ∨ wordMax < d * (n / N.gcd n)) ∧
      (∀ q, split? (ofFraction N d) n = some q →
        q * n = ofFraction N d ∧ q.num = (N / N.gcd n : Nat) ∧ q.den = d * (n / N.gcd n) ∧
          (N / N.gcd n).Coprime (d * (n / N.gcd n)) ∧
          sum? (List.replicate n q) =
            if N * (n / N.gcd n) ≤ wordMax then some (ofFraction N d) else none) ∧
      ∀ w : Fraction, w.Holds (ofFraction N d) →
        Option.Rel (Fraction.HoldsParts n) (w.split? n) (split? (ofFraction N d) n) := by
  refine ⟨num_ofFraction h hd, den_ofFraction h hd, split?_eq_none_iff h hd n, fun q hq => ?_,
    fun w hw => Fraction.rel_split?_parts hw n⟩
  have hden := den_le_of_split? hq
  obtain ⟨hn, rfl⟩ := split?_eq_some hq
  have hpos : 0 < n := Nat.pos_of_ne_zero hn
  have hwhole : ofFraction N d / n * n = ofFraction N d :=
    div_mul_cancel₀ _ (Nat.cast_ne_zero.2 hn)
  have hnonneg : 0 ≤ ofFraction N d / n := by
    rw [ofFraction_eq]
    positivity
  -- both products are `N * n` without the common divisor
  have hlast : (n * (N / N.gcd n : Nat) : Int) = (N * (n / N.gcd n) : Nat) := by
    rw [← Nat.cast_mul, ← Nat.mul_div_assoc _ (Nat.gcd_dvd_left N n),
      ← Nat.mul_div_assoc _ (Nat.gcd_dvd_right N n), Nat.mul_comm n N]
  refine ⟨hwhole, num_div h hd hpos, den_div h hd hpos, coprime_part h hpos, ?_⟩
  rw [sum?_replicate hnonneg hden hpos, num_div h hd hpos, hlast, mul_comm (n : Rat), hwhole]
  simp only [Nat.cast_le]

/-- The two halves of the largest number are written down, but their sum is not;
and so it is in words. -/
theorem split?_then_sum?_halves :
    Nat.Coprime wordMax 1 ∧ 0 < 1 ∧
      ∃ q part, split? (ofFraction wordMax 1) 2 = some q ∧ q * 2 = ofFraction wordMax 1 ∧
        sum? [q, q] = none ∧ (⟨Int64.ofInt wordMax, 1⟩ : Fraction).split? 2 = some part ∧
        part.Holds q ∧ Fraction.sum? [part, part] = none := by
  obtain ⟨-, -, hnone, hsome, hwords⟩ :=
    split?_then_sum? (Nat.coprime_one_right wordMax) Nat.one_pos 2
  have hcut : Option.Rel (Fraction.HoldsParts 2) (Fraction.split? ⟨Int64.ofInt wordMax, 1⟩ 2)
      (split? (ofFraction wordMax 1) 2) := hwords _ (by decide +kernel)
  cases hq : split? (ofFraction wordMax 1) 2 with
  | none => exact absurd (hnone.1 hq) (by decide)
  | some q =>
    obtain ⟨hwhole, -, -, -, hsum⟩ := hsome q hq
    have hnosum : sum? [q, q] = none := hsum
    rw [hq] at hcut
    cases hpart : Fraction.split? ⟨Int64.ofInt wordMax, 1⟩ 2 with
    | none => rw [hpart] at hcut; cases hcut
    | some part =>
      rw [hpart] at hcut
      obtain ⟨hholds, hloop⟩ := Option.rel_some_some.1 hcut
      have hnoloop : Fraction.sum? [part, part] = none := by
        have hloop : Option.Rel Fraction.Holds (Fraction.sum? [part, part]) none := hnosum ▸ hloop
        generalize Fraction.sum? [part, part] = x at hloop
        cases hloop
        rfl
      exact ⟨Nat.coprime_one_right wordMax, Nat.one_pos, q, part, rfl, hwhole, hnosum, rfl, hholds,
        hnoloop⟩

end Ticks

end RhythmClip
