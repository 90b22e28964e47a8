import RhythmClip.Proofs.Ticks

/-!
# Times in machine words

A time is stored as a numerator and a denominator, each of them a signed word
of 64 bits. Two stored times are added over the least common multiple of their
denominators: that multiple, both numerators over it and the sum of these are
checked to fit a word, and what the sum and the multiple have in common is
cancelled. Before two stored times are divided, their numerators are cancelled
against each other and so are their denominators; then the products across are
checked. Where the denominators or the numerators are equal there is nothing to
multiply. `Holds` ties a stored fraction to the time that it stands for.

* `holds_reduce`: cancelling leaves the lowest terms of the same time.
* `rel_add?`: the words overflow just where the checked sum of the times has no
  result, and otherwise hold that sum in lowest terms.
* `rel_div?`: whichever way a quotient is taken, it exists just if the exact one
  fits two words in lowest terms.
* `rel_split?`: so the parts of a stored time are those of the time.
-/
namespace RhythmClip

/-! ## Words -/

namespace Word

open Ticks (Fits)

variable {a b : Int64} {z : Int}

/-- The word of a number that fits one. -/
def ofInt? (z : Int) : Option Int64 := if Fits z then some (Int64.ofInt z) else none

def add? (a b : Int64) : Option Int64 := ofInt? (a.toInt + b.toInt)

def mul? (a b : Int64) : Option Int64 := ofInt? (a.toInt * b.toInt)

/-- The greatest common divisor. -/
def gcd (a b : Int64) : Int64 := Int64.ofInt (Int.gcd a.toInt b.toInt)

theorem fits_toInt (w : Int64) : Fits w.toInt := by
  have hlow := w.le_toInt
  have hhigh := w.toInt_lt
  unfold Fits Ticks.wordMax
  omega

theorem toInt_ofInt (h : Fits z) : (Int64.ofInt z).toInt = z := by
  unfold Fits Ticks.wordMax at h
  exact Int64.toInt_ofInt_of_le (by omega) (by omega)

theorem ofInt?_bind {α : Type} (z : Int) (f : Int64 → Option α) :
    (ofInt? z >>= f) = if Fits z then f (Int64.ofInt z) else none := by
  unfold ofInt?
  split <;> rfl

theorem toInt_gcd (hb : 0 < b.toInt) : (gcd a b).toInt = Int.gcd a.toInt b.toInt := by
  have hle : (Int.gcd a.toInt b.toInt : Int) ≤ b.toInt := Int.le_of_dvd hb (Int.gcd_dvd_right ..)
  have hfits := fits_toInt b
  apply toInt_ofInt
  unfold Fits at hfits ⊢
  omega

/-- A division that leaves no remainder is the same for words and for numbers. -/
theorem toInt_div (hb : 0 < b.toInt) (h : b.toInt ∣ a.toInt) :
    (a / b).toInt = a.toInt / b.toInt := by
  have hne : b ≠ -1 := by
    rintro rfl
    exact absurd hb (by decide)
  rw [Int64.toInt_div_of_ne_right a b hne, Int.tdiv_eq_ediv_of_dvd h]

/-- What two numbers have in common can be left out of the words of both. -/
theorem toInt_div_gcd (hb : 0 < b.toInt) :
    (a / gcd a b).toInt = a.toInt / Int.gcd a.toInt b.toInt ∧
      (b / gcd a b).toInt = b.toInt / Int.gcd a.toInt b.toInt := by
  have hgcd : (gcd a b).toInt = Int.gcd a.toInt b.toInt := toInt_gcd hb
  have hpos : 0 < (gcd a b).toInt := by
    rw [hgcd]
    exact Int.natCast_pos.2 (Int.gcd_pos_of_ne_zero_right _ hb.ne')
  constructor
  · rw [toInt_div hpos (hgcd ▸ Int.gcd_dvd_left ..), hgcd]
  · rw [toInt_div hpos (hgcd ▸ Int.gcd_dvd_right ..), hgcd]
end Word

namespace Ticks

/-- A numerator and a denominator, each in a word. -/
structure Fraction where
  num : Int64
  den : Int64
  deriving DecidableEq, Repr

namespace Fraction

def zero : Fraction := ⟨0, 1⟩

/-- Cancels what numerator and denominator have in common. -/
def reduce (num den : Int64) : Fraction := ⟨num / Word.gcd num den, den / Word.gcd num den⟩

/-- The sum over the least common multiple of the denominators, if no number
on the way leaves the word. -/
def add? (p q : Fraction) : Option Fraction := do
  let common ← Word.mul? (p.den / Word.gcd p.den q.den) q.den
  let left ← Word.mul? (common / p.den) p.num
  let right ← Word.mul? (common / q.den) q.num
  let num ← Word.add? left right
  some (reduce num common)

/-- The lowest terms over a positive denominator. There are none over zero, or
where the sign of a number cannot be changed within its word. -/
def lowest? (num den : Int64) : Option Fraction :=
  if den = 0 then none
  else if num = 0 then some zero
  else if num = den then some ⟨1, 1⟩
  else
    let q := reduce num den
    if q.den < 0 then do
      let num ← Word.mul? q.num (-1)
      let den ← Word.mul? q.den (-1)
      some ⟨num, den⟩
    else some q

/-- The quotient, if there is one in words. Equal denominators and equal
numerators drop out; otherwise what the numerators and what the denominators
have in common is cancelled before they are multiplied crosswise. -/
def div? (p q : Fraction) : Option Fraction :=
  if q.num = 0 then none
  else if p.den = q.den then lowest? p.num q.num
  else if p.num = q.num then lowest? q.den p.den
  else do
    let num ← Word.mul? (p.num / Word.gcd p.num q.num) (q.den / Word.gcd p.den q.den)
    let den ← Word.mul? (p.den / Word.gcd p.den q.den) (q.num / Word.gcd p.num q.num)
    lowest? num den

/-- One of so many equal parts, if there are any and their number fits a word. -/
def split? (q : Fraction) (parts : Nat) : Option Fraction := do
  let n ← Word.ofInt? parts
  if 0 < n then q.div? ⟨n, 1⟩ else none

/-- In lowest terms, over a positive denominator. -/
def Reduced (q : Fraction) : Prop := 0 < q.den.toInt ∧ Int.gcd q.num.toInt q.den.toInt = 1

instance (q : Fraction) : Decidable q.Reduced := inferInstanceAs (Decidable (_ ∧ _))

def value (q : Fraction) : Ticks := ofFraction q.num.toInt q.den.toInt

/-- The fraction is reduced and stands for the time. -/
def Holds (q : Fraction) (t : Ticks) : Prop := q.Reduced ∧ q.value = t

instance (q : Fraction) (t : Ticks) : Decidable (q.Holds t) := inferInstanceAs (Decidable (_ ∧ _))

variable {p q : Fraction} {s t : Ticks}

theorem holds_zero : zero.Holds 0 := by decide +kernel

theorem holds_one : (⟨1, 1⟩ : Fraction).Holds 1 := by decide +kernel

theorem Holds.num_eq (h : q.Holds t) : q.num.toInt = t.num := by
  obtain ⟨⟨hpos, hcoprime⟩, rfl⟩ := h
  rw [value, ofFraction, Rat.divInt_eq_div, Rat.num_div_eq_of_coprime hpos hcoprime]

theorem Holds.den_eq (h : q.Holds t) : q.den.toInt = t.den := by
  obtain ⟨⟨hpos, hcoprime⟩, rfl⟩ := h
  rw [value, ofFraction, Rat.divInt_eq_div, Rat.den_div_eq_of_coprime hpos hcoprime]

theorem Holds.fits (h : q.Holds t) : Fits t.num ∧ Fits t.den :=
  ⟨h.num_eq ▸ Word.fits_toInt q.num, h.den_eq ▸ Word.fits_toInt q.den⟩

/-! ## Reduction -/

theorem holds_reduce {num den : Int64} (h : 0 < den.toInt) :
    (reduce num den).Holds (ofFraction num.toInt den.toInt) := by
  have hnum : (reduce num den).num.toInt = num.toInt / _ := (Word.toInt_div_gcd h).1
  have hden : (reduce num den).den.toInt = den.toInt / _ := (Word.toInt_div_gcd h).2
  have hg : 0 < Int.gcd num.toInt den.toInt := Int.gcd_pos_of_ne_zero_right _ h.ne'
  have hdvd : ((Int.gcd num.toInt den.toInt : Nat) : Int) ∣ den.toInt := Int.gcd_dvd_right ..
  refine ⟨⟨?_, ?_⟩, ?_⟩
  · rw [hden]
    exact Int.ediv_pos_of_pos_of_dvd h (Int.natCast_nonneg _) hdvd
  · rw [hnum, hden]
    exact Int.gcd_ediv_gcd_ediv_gcd hg
  · have hg0 : ((Int.gcd num.toInt den.toInt : Int) : Rat) ≠ 0 := by exact_mod_cast hg.ne'
    rw [value, ofFraction, ofFraction, hnum, hden, Rat.divInt_eq_div, Rat.divInt_eq_div,
      Int.cast_div (Int.gcd_dvd_left ..) hg0, Int.cast_div hdvd hg0, div_div_div_cancel_right₀ hg0]

/-- Cancelling in the words of two numbers. -/
theorem holds_reduce_ofInt {n d : Int} (hn : Fits n) (hd : Fits d) (hpos : 0 < d) :
    (reduce (Int64.ofInt n) (Int64.ofInt d)).Holds (ofFraction n d) := by
  have hnum : (Int64.ofInt n).toInt = n := Word.toInt_ofInt hn
  have hden : (Int64.ofInt d).toInt = d := Word.toInt_ofInt hd
  have hreduced : (reduce (Int64.ofInt n) (Int64.ofInt d)).Holds _ := holds_reduce (by rwa [hden])
  rwa [hnum, hden] at hreduced

/-! ## Addition -/

/-- The numerator over a common multiple of the denominators. -/
theorem mul?_scaled {common : Int64} {n : Nat} (h : q.Holds t) (hcommon : common.toInt = n)
    (hdvd : t.den ∣ n) :
    Word.mul? (common / q.den) q.num = Word.ofInt? (t.num * (n / t.den : Nat)) := by
  have hden := h.den_eq
  have hquot : (common / q.den).toInt = (n / t.den : Nat) := by
    rw [Word.toInt_div h.1.1 (by rw [hcommon, hden]; exact Int.natCast_dvd_natCast.2 hdvd),
      hcommon, hden, Int.natCast_ediv]
  rw [Word.mul?, hquot, h.num_eq, mul_comm]

theorem mul?_common (hp : p.Holds s) (hq : q.Holds t) :
    Word.mul? (p.den / Word.gcd p.den q.den) q.den = Word.ofInt? (Nat.lcm s.den t.den) := by
  rw [Word.mul?, (Word.toInt_div_gcd hq.1.1).1, hp.den_eq, hq.den_eq, Int.gcd_natCast_natCast,
    ← Int.natCast_ediv, ← Int.natCast_mul, Nat.lcm_eq_mul_div,
    Nat.div_mul_right_comm (Nat.gcd_dvd_left ..)]

/-- Both numerators over the common denominator add up to the sum. -/
theorem ofFraction_scaled (s t : Ticks) :
    ofFraction (s.num * (Nat.lcm s.den t.den / s.den : Nat) +
      t.num * (Nat.lcm s.den t.den / t.den : Nat)) (Nat.lcm s.den t.den) = s + t := by
  have hne : ((Nat.lcm s.den t.den : Nat) : Rat) ≠ 0 :=
    Nat.cast_ne_zero.2 (Nat.lcm_ne_zero s.den_nz t.den_nz)
  rw [ofFraction, Rat.divInt_eq_div, Int.cast_add, num_mul_div_den (Nat.dvd_lcm_left ..),
    num_mul_div_den (Nat.dvd_lcm_right ..), Int.cast_natCast, ← add_mul, mul_div_cancel_right₀ _ hne]

/-- The numbers that have to fit are those of the checked sum of the times. -/
theorem add?_eq_ite (hp : p.Holds s) (hq : q.Holds t) :
    let common := Nat.lcm s.den t.den
    let left := s.num * (common / s.den : Nat)
    let right := t.num * (common / t.den : Nat)
    add? p q = if Fits common ∧ Fits left ∧ Fits right ∧ Fits (left + right)
      then some (reduce (Int64.ofInt (left + right)) (Int64.ofInt common)) else none := by
  intro common left right
  rw [add?, mul?_common hp hq, Word.ofInt?_bind]
  by_cases hcommon : Fits common
  · have hword : (Int64.ofInt common).toInt = common := Word.toInt_ofInt hcommon
    rw [if_pos hcommon, mul?_scaled hp hword (Nat.dvd_lcm_left ..), Word.ofInt?_bind]
    by_cases hleft : Fits left
    · rw [if_pos hleft, mul?_scaled hq hword (Nat.dvd_lcm_right ..), Word.ofInt?_bind]
      by_cases hright : Fits right
      · rw [if_pos hright, Word.add?, Word.toInt_ofInt hleft, Word.toInt_ofInt hright,
          Word.ofInt?_bind]
        simp only [hcommon, hleft, hright, true_and]
        rfl
      · rw [if_neg hright, if_neg fun h => hright h.2.2.1]
    · rw [if_neg hleft, if_neg fun h => hleft h.2.1]
  · rw [if_neg hcommon, if_neg fun h => hcommon h.1]

/-- **Words add as times do.** The words have no sum just if the times have
none, and else hold the sum of the times. -/
theorem rel_add? (hp : p.Holds s) (hq : q.Holds t) :
    Option.Rel Holds (add? p q) (Ticks.add? s t) := by
  rw [add?_eq_ite hp hq, Ticks.add?]
  split
  · rename_i hfits
    obtain ⟨hcommon, -, -, hsum⟩ := hfits
    have hpos : (0 : Int) < Nat.lcm s.den t.den :=
      Int.natCast_pos.2 (Nat.lcm_pos s.den_pos t.den_pos)
    rw [← ofFraction_scaled s t]
    exact .some (holds_reduce_ofInt hsum hcommon hpos)
  · exact .none

/-! ## Division -/

/-- Over a positive denominator no sign is changed, and what is left is a fraction
that fits its words. -/
theorem rel_lowest? {num den : Int64} (h : 0 < den.toInt)
    (ht : ofFraction num.toInt den.toInt = t) :
    Option.Rel Holds (lowest? num den) (if Fits t.num ∧ Fits t.den then some t else none) := by
  have hfound : ∃ q, lowest? num den = some q ∧ q.Holds t := by
    have hreduced : (reduce num den).Holds t := ht ▸ holds_reduce h
    have hsign : ¬(reduce num den).den < 0 := by
      rw [Int64.lt_iff_toInt_lt, not_lt]
      exact hreduced.1.1.le
    unfold lowest?
    rw [if_neg (by rintro rfl; exact absurd h (by decide))]
    split
    · rename_i h0
      rw [h0, Int64.toInt_zero, ofFraction, Rat.zero_divInt] at ht
      exact ⟨_, rfl, ht ▸ holds_zero⟩
    · split
      · rename_i hsame
        rw [hsame, ofFraction, Rat.divInt_self' h.ne'] at ht
        exact ⟨_, rfl, ht ▸ holds_one⟩
      · exact ⟨_, if_neg hsign, hreduced⟩
  obtain ⟨q, hq, hholds⟩ := hfound
  rw [hq, if_pos hholds.fits]
  exact .some hholds

/-- The words of the two products are the numerator and the denominator of the
quotient. -/
theorem mul?_crosswise (hp : p.Holds s) (hq : q.Holds t) (ht : 0 < t) :
    Word.mul? (p.num / Word.gcd p.num q.num) (q.den / Word.gcd p.den q.den) =
        Word.ofInt? (s / t).num ∧
      Word.mul? (p.den / Word.gcd p.den q.den) (q.num / Word.gcd p.num q.num) =
        Word.ofInt? (s / t).den := by
  have hc : 0 < q.num.toInt := hq.num_eq ▸ Rat.num_pos.2 ht
  obtain ⟨hnum, hden⟩ := num_den_div s ht
  obtain ⟨hpnum, hqnum⟩ := Word.toInt_div_gcd (a := p.num) hc
  obtain ⟨hpden, hqden⟩ := Word.toInt_div_gcd (a := p.den) hq.1.1
  rw [Word.mul?, Word.mul?, hpnum, hqnum, hpden, hqden, hp.num_eq, hp.den_eq, hq.num_eq, hq.den_eq,
    hnum, hden]
  exact ⟨rfl, rfl⟩

/-- Equal denominators drop out of a quotient. -/
theorem ofFraction_of_den_eq (h : s.den = t.den) : ofFraction s.num t.num = s / t := by
  have hden : (t.den : Rat) ≠ 0 := Nat.cast_ne_zero.2 t.den_nz
  rw [ofFraction, Rat.divInt_eq_div, ← Rat.mul_den_eq_num s, ← Rat.mul_den_eq_num t, h,
    mul_div_mul_right _ _ hden]

/-- So do equal numerators, and the denominators change places. -/
theorem ofFraction_of_num_eq (h : s.num = t.num) (ht : t ≠ 0) :
    ofFraction t.den s.den = s / t := by
  have hden : (s.den : Rat) ≠ 0 := Nat.cast_ne_zero.2 s.den_nz
  rw [ofFraction, Rat.divInt_eq_div, Int.cast_natCast, Int.cast_natCast, div_eq_div_iff hden ht,
    mul_comm, Rat.mul_den_eq_num, Rat.mul_den_eq_num, h]

/-- **Words divide as times do**, by a divisor above zero: whichever way the
quotient is taken, the words have one just if the exact quotient fits them in
lowest terms, and then they hold it. -/
theorem rel_div? (hp : p.Holds s) (hq : q.Holds t) (ht : 0 < t) :
    Option.Rel Holds (div? p q)
      (if Fits (s / t).num ∧ Fits (s / t).den then some (s / t) else none) := by
  have hpos : 0 < q.num.toInt := hq.num_eq ▸ Rat.num_pos.2 ht
  unfold div?
  rw [if_neg (by intro h0; rw [h0] at hpos; exact absurd hpos (by decide))]
  split
  · rename_i hsame
    have hden : s.den = t.den := by exact_mod_cast hp.den_eq.symm.trans (hsame ▸ hq.den_eq)
    apply rel_lowest? hpos
    rw [hp.num_eq, hq.num_eq, ofFraction_of_den_eq hden]
  · split
    · rename_i hsame
      have hnum : s.num = t.num := hp.num_eq.symm.trans (hsame ▸ hq.num_eq)
      apply rel_lowest? hp.1.1
      rw [hp.den_eq, hq.den_eq, ofFraction_of_num_eq hnum ht.ne']
    · obtain ⟨hleft, hright⟩ := mul?_crosswise hp hq ht
      rw [hleft, hright, Word.ofInt?_bind]
      by_cases hnum : Fits (s / t).num
      · rw [if_pos hnum, Word.ofInt?_bind]
        by_cases hden : Fits (s / t).den
        · have hword : (Int64.ofInt (s / t).den).toInt = (s / t).den := Word.toInt_ofInt hden
          rw [if_pos hden]
          apply rel_lowest?
          · rw [hword]
            exact Int.natCast_pos.2 (s / t).den_pos
          · rw [hword, Word.toInt_ofInt hnum, ofFraction, Rat.num_divInt_den]
        · rw [if_neg hden, if_neg fun h => hden h.2]
          exact .none
      · rw [if_neg hnum, if_neg fun h => hnum h.1]
        exact .none

/-- A number of parts, as a fraction over one. -/
theorem holds_natCast {n : Nat} (h : Fits n) : (⟨Int64.ofInt n, 1⟩ : Fraction).Holds n := by
  refine ⟨⟨(by decide : 0 < (1 : Int64).toInt), Int.gcd_one_right _⟩, ?_⟩
  rw [value, Word.toInt_ofInt h]
  exact Rat.divInt_one n

/-- Cancelling does not make a numerator too large. -/
theorem fits_num_div {n : Nat} (h : q.Holds t) (hn : 0 < n) (hfits : Fits n) :
    Fits (t / n).num := by
  have hword : (Int64.ofInt n).toInt = n := Word.toInt_ofInt hfits
  have hcut : (q.num / Word.gcd q.num (Int64.ofInt n)).toInt = (t / n).num := by
    rw [(Word.toInt_div_gcd (by rw [hword]; exact Int.natCast_pos.2 hn)).1, hword, h.num_eq,
      num_div_natCast t hn]
  exact hcut ▸ Word.fits_toInt _

/-- **Words are cut as times are.** The words have no part just if the time has
none, and else hold the part of the time. -/
theorem rel_split? (h : q.Holds t) (parts : Nat) :
    Option.Rel Holds (split? q parts) (Ticks.split? t parts) := by
  rw [split?, Word.ofInt?_bind]
  by_cases hmax : Fits parts
  · rw [if_pos hmax]
    by_cases h0 : parts = 0
    · rw [h0]
      exact .none
    · have hcount : 0 < parts := Nat.pos_of_ne_zero h0
      have hword : 0 < Int64.ofInt parts := by
        rw [Int64.lt_iff_toInt_lt, Word.toInt_ofInt hmax]
        exact Int.natCast_pos.2 hcount
      have hle : parts ≤ wordMax := by exact_mod_cast hmax.2
      have hquot := rel_div? h (holds_natCast hmax) (Nat.cast_pos.2 hcount)
      simp only [fits_num_div h hcount hmax, true_and, fits_iff (Int.natCast_nonneg _),
        Nat.cast_le] at hquot
      rw [if_pos hword, split?_eq t h0 hle]
      exact hquot
  · have hbig : wordMax < parts := by
      unfold Fits at hmax
      omega
    rw [if_neg hmax, Ticks.split?, if_pos (.inr hbig)]
    exact .none

end Fraction

end Ticks

end RhythmClip
