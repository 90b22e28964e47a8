import RhythmClip.Ticks
import Mathlib.Data.Rat.Lemmas
import Mathlib.RingTheory.Coprime.Lemmas
import Mathlib.Tactic.FieldSimp
import Mathlib.Tactic.Linarith
import Mathlib.Tactic.Positivity
import Mathlib.Tactic.Ring

/-!
# When exact times can be written down

`add?` writes the common denominator, two scaled numerators and their sum. In
general any of them may leave the word while the sum itself would fit. Here:
when a duration begins at a whole multiple of itself, its own denominator is
the common one and both numerators are at most their sum, so only two numbers
count (`Writable`).

* `add?_multiple`: such an addition has a result just if these two fit.
* `split?_eq`: a division by a number of parts in range has a result just if
  the denominator of a part fits.
* `num_den_div`: a quotient, cancelled crosswise, is in lowest terms.
* `layFrom?_eq_some`: durations that are laid end to end begin at the sums of
  those before them.
* `layFrom?_append`, `layFrom?_map`: how the starts come about from parts of
  the durations, and from durations that are moved or multiplied.
* `layFrom?_isSome_iff`: durations that each begin at a multiple of themselves
  (`Aligned`) can be laid just if all their ends are `Writable`; so they can be
  laid from any earlier start too (`isSome_layFrom?_of_le`).
-/
namespace RhythmClip

namespace Ticks

/-! ## Quotients in lowest terms -/

/-- Two fractions that are multiplied crosswise have nothing in common once
their numerators and their denominators are cancelled against each other. -/
theorem gcd_crosswise {a b c d : Int} (hb : 0 < b) (hc : 0 < c) (hab : Int.gcd a b = 1)
    (hcd : Int.gcd c d = 1) :
    Int.gcd (a / Int.gcd a c * (d / Int.gcd b d)) (b / Int.gcd b d * (c / Int.gcd a c)) = 1 := by
  have ha' : a / Int.gcd a c ∣ a := Int.ediv_dvd_of_dvd (Int.gcd_dvd_left ..)
  have hb' : b / Int.gcd b d ∣ b := Int.ediv_dvd_of_dvd (Int.gcd_dvd_left ..)
  have hc' : c / Int.gcd a c ∣ c := Int.ediv_dvd_of_dvd (Int.gcd_dvd_right ..)
  have hd' : d / Int.gcd b d ∣ d := Int.ediv_dvd_of_dvd (Int.gcd_dvd_right ..)
  have hac : Int.gcd (a / Int.gcd a c) (c / Int.gcd a c) = 1 :=
    Int.gcd_ediv_gcd_ediv_gcd (Int.gcd_pos_of_ne_zero_right _ hc.ne')
  have hbd : Int.gcd (b / Int.gcd b d) (d / Int.gcd b d) = 1 :=
    Int.gcd_ediv_gcd_ediv_gcd (Int.gcd_pos_of_ne_zero_left _ hb.ne')
  simp only [← Int.isCoprime_iff_gcd_eq_one] at hab hcd hac hbd ⊢
  refine IsCoprime.mul_left (.mul_right ?_ hac) (.mul_right hbd.symm ?_)
  · exact (hab.of_isCoprime_of_dvd_left ha').of_isCoprime_of_dvd_right hb'
  · exact (hcd.symm.of_isCoprime_of_dvd_left hd').of_isCoprime_of_dvd_right hc'

/-- A quotient is written down crosswise: cancelled like that it is in lowest terms. -/
theorem num_den_div (s : Ticks) {t : Ticks} (ht : 0 < t) :
    (s / t).num = s.num / Int.gcd s.num t.num * (t.den / Int.gcd s.den t.den) ∧
      ((s / t).den : Int) = s.den / Int.gcd s.den t.den * (t.num / Int.gcd s.num t.num) := by
  have hc : 0 < t.num := Rat.num_pos.2 ht
  have hb : (0 : Int) < s.den := Int.natCast_pos.2 s.den_pos
  have hg : 0 < Int.gcd s.num t.num := Int.gcd_pos_of_ne_zero_right _ hc.ne'
  have hk : 0 < Int.gcd s.den t.den := Int.gcd_pos_of_ne_zero_left _ hb.ne'
  have hpos : 0 < s.den / Int.gcd s.den t.den * (t.num / Int.gcd s.num t.num) :=
    mul_pos (Int.ediv_pos_of_pos_of_dvd hb (Int.natCast_nonneg _) (Int.gcd_dvd_left ..))
      (Int.ediv_pos_of_pos_of_dvd hc (Int.natCast_nonneg _) (Int.gcd_dvd_right ..))
  have hs : Int.gcd s.num s.den = 1 := s.reduced
  have htd : Int.gcd t.num t.den = 1 := t.reduced
  have hcoprime := gcd_crosswise hb hc hs htd
  have hquot : s / t = ((s.num / Int.gcd s.num t.num * (t.den / Int.gcd s.den t.den) : Int) : Rat) /
      ((s.den / Int.gcd s.den t.den * (t.num / Int.gcd s.num t.num) : Int) : Rat) := by
    have hg0 : ((Int.gcd s.num t.num : Int) : Rat) ≠ 0 := by exact_mod_cast hg.ne'
    have hk0 : ((Int.gcd s.den t.den : Int) : Rat) ≠ 0 := by exact_mod_cast hk.ne'
    rw [Int.cast_mul, Int.cast_mul, Int.cast_div (Int.gcd_dvd_left ..) hg0,
      Int.cast_div (Int.gcd_dvd_right ..) hg0, Int.cast_div (Int.gcd_dvd_left ..) hk0,
      Int.cast_div (Int.gcd_dvd_right ..) hk0]
    nth_rewrite 1 [← Rat.num_div_den s, ← Rat.num_div_den t]
    have hc0 : (t.num : Rat) ≠ 0 := Int.cast_ne_zero.2 hc.ne'
    push_cast at hg0 hk0 ⊢
    field_simp
  rw [hquot]
  exact ⟨Rat.num_div_eq_of_coprime hpos hcoprime, Rat.den_div_eq_of_coprime hpos hcoprime⟩

theorem num_div_natCast (t : Ticks) {n : Nat} (hn : 0 < n) :
    (t / n).num = t.num / Int.gcd t.num n := by
  have hquot := (num_den_div t (t := n) (Nat.cast_pos.2 hn)).1
  rwa [Rat.num_natCast, Rat.den_natCast, Nat.cast_one, Int.gcd_one_right, Nat.cast_one, Int.ediv_one,
    mul_one] at hquot

theorem den_div_natCast (t : Ticks) {n : Nat} (hn : 0 < n) :
    (t / n).den = t.den * (n / Int.gcd t.num n) := by
  have hquot := (num_den_div t (t := n) (Nat.cast_pos.2 hn)).2
  rw [Rat.num_natCast, Rat.den_natCast, Nat.cast_one, Int.gcd_one_right, Nat.cast_one, Int.ediv_one]
    at hquot
  exact_mod_cast hquot

/-! ## Denominators -/

/-- A number that makes `q` whole is a multiple of its denominator. -/
theorem den_dvd_of_mul_eq {q : Ticks} {n : Nat} {z : Int} (hn : n ≠ 0) (h : q * n = z) :
    q.den ∣ n := by
  have hq : q = Rat.divInt z n := by
    rw [Rat.divInt_eq_div, ← h]
    field_simp
    push_cast
    rfl
  have hd := Rat.den_dvd z n
  rw [← hq] at hd
  exact Int.natCast_dvd_natCast.1 hd

theorem den_multiple_dvd (d : Ticks) (k : Nat) : (k * d).den ∣ d.den := by
  apply den_dvd_of_mul_eq (z := k * d.num) d.den_nz
  rw [mul_assoc, Rat.mul_den_eq_num]
  push_cast
  rfl

theorem den_dvd_den_div (t : Ticks) {n : Nat} (hn : n ≠ 0) : t.den ∣ (t / n).den :=
  ⟨_, den_div_natCast t (Nat.pos_of_ne_zero hn)⟩

theorem den_le_den_div (t : Ticks) {n : Nat} (hn : n ≠ 0) : t.den ≤ (t / n).den :=
  Nat.le_of_dvd (t / n).den_pos (den_dvd_den_div t hn)

theorem den_div_dvd {t : Ticks} (ht : t.den = 1) {n : Nat} (hn : n ≠ 0) : (t / n).den ∣ n := by
  rw [den_div_natCast t (Nat.pos_of_ne_zero hn), ht, one_mul]
  exact Nat.div_dvd_of_dvd (Int.natCast_dvd_natCast.1 (Int.gcd_dvd_right ..))

/-! ## Division -/

theorem split?_eq (t : Ticks) {parts : Nat} (h0 : parts ≠ 0) (hp : parts ≤ wordMax) :
    split? t parts = if (t / parts).den ≤ wordMax then some (t / parts) else none := by
  unfold split?
  rw [if_neg (by omega)]

/-- A slot that can be written down is its own share. -/
theorem split?_one {slot : Ticks} (h : slot.den ≤ wordMax) : split? slot 1 = some slot := by
  rw [split?_eq slot (by decide) (by decide)]
  simp [h]

theorem den_le_of_split? {slot share : Ticks} {parts : Nat} (h : split? slot parts = some share) :
    share.den ≤ wordMax := by
  unfold split? at h
  split at h
  · cases h
  · split at h
    · rename_i hden
      cases h
      exact hden
    · cases h

/-! ## Addition to a multiple -/

/-- The denominator of `d` and the numerator of `t` over it fit a word. -/
def Writable (d t : Ticks) : Prop := d.den ≤ wordMax ∧ (d.den : Rat) * t ≤ wordMax

instance (d t : Ticks) : Decidable (Writable d t) := inferInstanceAs (Decidable (_ ∧ _))

/-- The least common denominator of `k * d` and `d` is that of `d`. -/
theorem lcm_den_multiple (d : Ticks) (k : Nat) : Nat.lcm (k * d).den d.den = d.den :=
  Nat.lcm_eq_right (den_multiple_dvd d k)

/-- The numerator over a denominator that is a multiple of the own one. -/
theorem num_mul_div_den {t : Ticks} {n : Nat} (h : t.den ∣ n) :
    ((t.num * (n / t.den : Nat) : Int) : Rat) = t * n := by
  obtain ⟨m, rfl⟩ := h
  rw [Nat.mul_div_cancel_left m t.den_pos]
  push_cast
  rw [← mul_assoc, Rat.mul_den_eq_num]

theorem fits_iff {z : Int} (h : 0 ≤ z) : Fits z ↔ z ≤ wordMax := by
  unfold Fits wordMax
  omega

/-- The two numerators of `k * d + d` over the denominator of `d`. -/
theorem numerators_multiple {d : Ticks} (k : Nat) (hd : 0 < d) :
    ∃ left right : Int, 0 ≤ left ∧ 0 ≤ right ∧
      (k * d).num * (d.den / (k * d).den : Nat) = left ∧ d.num * (d.den / d.den : Nat) = right ∧
      (d.den : Rat) * (k * d + d) = ((left + right : Int) : Rat) := by
  have hden : (0 : Rat) ≤ d.den := Nat.cast_nonneg _
  have hl := num_mul_div_den (den_multiple_dvd d k)
  have hr := num_mul_div_den (dvd_refl d.den)
  refine ⟨_, _, ?_, ?_, rfl, rfl, ?_⟩
  · have h : (0 : Rat) ≤ k * d * d.den := by positivity
    rw [← hl] at h
    exact_mod_cast h
  · have h : (0 : Rat) ≤ d * d.den := by positivity
    rw [← hr] at h
    exact_mod_cast h
  · rw [Int.cast_add, hl, hr]
    ring

theorem add?_multiple {d : Ticks} (k : Nat) (hd : 0 < d) :
    add? (k * d) d = if Writable d (k * d + d) then some (k * d + d) else none := by
  obtain ⟨left, right, hl, hr, hleft, hright, hsum⟩ := numerators_multiple k hd
  -- neither numerator is negative, so the bound on their sum covers both
  have hfits : (Fits d.den ∧ Fits left ∧ Fits right ∧ Fits (left + right)) ↔
      Writable d (k * d + d) := by
    have hint : (d.den : Rat) * (k * d + d) ≤ wordMax ↔ left + right ≤ wordMax := by
      rw [hsum]
      exact_mod_cast Iff.rfl
    unfold Writable
    rw [hint, fits_iff (by omega), fits_iff hl, fits_iff hr, fits_iff (by omega)]
    omega
  simp only [add?, lcm_den_multiple, hleft, hright, hfits]

/-! ## Laying durations end to end -/

theorem isSome_layFrom?_cons (start d : Ticks) (ds : List Ticks) :
    (layFrom? start (d :: ds)).isSome ↔
      ∃ next, add? start d = some next ∧ (layFrom? next ds).isSome := by
  simp only [layFrom?]
  cases add? start d with
  | none => simp
  | some next => cases h : layFrom? next ds <;> simp [h]

/-- The starts and the end of durations laid from `start` on are the sums of
the durations before them. -/
theorem layFrom?_eq_some {start stop : Ticks} {ds starts : List Ticks}
    (h : layFrom? start ds = some (starts, stop)) :
    stop = start + ds.sum ∧ ∀ i < ds.length, starts[i]? = some (start + (ds.take i).sum) := by
  induction ds generalizing start starts with
  | nil => cases h; simp
  | cons d ds ih =>
    simp only [layFrom?, Option.bind_eq_bind, Option.bind_eq_some_iff] at h
    obtain ⟨next, hnext, ⟨rest, stop'⟩, hrest, he⟩ := h
    cases he
    obtain ⟨hstop, hstarts⟩ := ih hrest
    rw [add?_eq_some hnext] at hstop hstarts
    refine ⟨by rw [hstop, List.sum_cons, add_assoc], fun i hi => ?_⟩
    cases i with
    | zero => simp
    | succ i =>
      rw [List.length_cons] at hi
      rw [List.getElem?_cons_succ, hstarts i (by omega), List.take_succ_cons, List.sum_cons,
        add_assoc]

theorem layFrom?_append {start stop : Ticks} {ds es starts : List Ticks}
    (h : layFrom? start (ds ++ es) = some (starts, stop)) :
    ∃ front middle back, layFrom? start ds = some (front, middle) ∧
      layFrom? middle es = some (back, stop) ∧ starts = front ++ back := by
  induction ds generalizing start starts with
  | nil => exact ⟨[], start, starts, rfl, h, rfl⟩
  | cons d ds ih =>
    simp only [List.cons_append, layFrom?, Option.bind_eq_bind, Option.bind_eq_some_iff] at h
    obtain ⟨next, hnext, ⟨rest, stop'⟩, hrest, he⟩ := h
    cases he
    obtain ⟨front, middle, back, hfront, hback, rfl⟩ := ih hrest
    refine ⟨start :: front, middle, back, ?_, hback, rfl⟩
    simp [layFrom?, hnext, hfront]

/-- Durations that are all changed by `g`, laid from a start changed by `f`,
begin at the old starts changed by `f`. -/
theorem layFrom?_map {f g : Ticks → Ticks} (hf : ∀ t d, f (t + d) = f t + g d)
    {start stop stop' : Ticks} {ds starts starts' : List Ticks}
    (h : layFrom? start ds = some (starts, stop))
    (h' : layFrom? (f start) (ds.map g) = some (starts', stop')) :
    starts' = starts.map f ∧ stop' = f stop := by
  induction ds generalizing start starts starts' with
  | nil =>
    cases h
    cases h'
    exact ⟨rfl, rfl⟩
  | cons d ds ih =>
    simp only [List.map_cons, layFrom?, Option.bind_eq_bind, Option.bind_eq_some_iff] at h h'
    obtain ⟨next, hnext, ⟨rest, last⟩, hrest, he⟩ := h
    obtain ⟨next', hnext', ⟨rest', last'⟩, hrest', he'⟩ := h'
    cases he
    cases he'
    have hf' : next' = f next := by rw [add?_eq_some hnext, add?_eq_some hnext', hf]
    rw [hf'] at hrest'
    obtain ⟨rfl, rfl⟩ := ih hrest hrest'
    exact ⟨rfl, rfl⟩

theorem layFrom?_pairwise_lt {start stop : Ticks} {ds starts : List Ticks}
    (hd : ∀ d ∈ ds, 0 < d) (h : layFrom? start ds = some (starts, stop)) :
    starts.Pairwise (· < ·) ∧ ∀ t ∈ starts, start ≤ t := by
  induction ds generalizing start starts with
  | nil => cases h; simp
  | cons d ds ih =>
    simp only [layFrom?, Option.bind_eq_bind, Option.bind_eq_some_iff] at h
    obtain ⟨next, hnext, ⟨rest, stop'⟩, hrest, he⟩ := h
    cases he
    obtain ⟨hpair, hle⟩ := ih (fun x hx => hd x (List.mem_cons_of_mem _ hx)) hrest
    have hlt : start < next := by
      have := hd d (List.mem_cons_self ..)
      rw [add?_eq_some hnext]
      linarith
    refine ⟨List.pairwise_cons.2 ⟨fun t ht => hlt.trans_le (hle t ht), hpair⟩, fun t ht => ?_⟩
    rcases List.mem_cons.1 ht with rfl | ht
    · exact le_refl _
    · exact hlt.le.trans (hle t ht)

/-- Every duration, laid from `start` on, begins at a whole multiple of itself. -/
def Aligned (start : Ticks) : List Ticks → Prop
  | [] => True
  | d :: ds => (∃ k : Nat, start = k * d) ∧ Aligned (start + d) ds

theorem aligned_append (start : Ticks) (ds es : List Ticks) :
    Aligned start (ds ++ es) ↔ Aligned start ds ∧ Aligned (start + ds.sum) es := by
  induction ds generalizing start with
  | nil => simp [Aligned]
  | cons d ds ih => simp [Aligned, ih, and_assoc, add_assoc]

theorem Aligned.start_eq {start d : Ticks} {ds : List Ticks} (h : Aligned start ds) {i : Nat}
    (hi : ds[i]? = some d) : ∃ k : Nat, start + (ds.take i).sum = k * d := by
  induction ds generalizing start i with
  | nil => cases hi
  | cons e es ih =>
    obtain ⟨⟨k, hk⟩, hes⟩ := h
    cases i with
    | zero =>
      cases hi
      exact ⟨k, by simpa using hk⟩
    | succ i =>
      obtain ⟨m, hm⟩ := ih hes hi
      exact ⟨m, by rw [List.take_succ_cons, List.sum_cons, ← add_assoc, hm]⟩

/-- Aligned durations can be laid just if each end is writable over the
denominator of the duration that ends there. -/
theorem layFrom?_isSome_iff {start : Ticks} {ds : List Ticks} (ha : Aligned start ds)
    (hd : ∀ d ∈ ds, 0 < d) :
    (layFrom? start ds).isSome ↔
      ∀ i d, ds[i]? = some d → Writable d (start + (ds.take (i + 1)).sum) := by
  induction ds generalizing start with
  | nil => simp [layFrom?]
  | cons d ds ih =>
    obtain ⟨⟨k, hk⟩, ha⟩ := ha
    have ih := ih ha fun x hx => hd x (List.mem_cons_of_mem _ hx)
    have hadd := add?_multiple k (hd d (List.mem_cons_self ..))
    rw [← hk] at hadd
    have hhead : (layFrom? start (d :: ds)).isSome ↔
        Writable d (start + d) ∧ (layFrom? (start + d) ds).isSome := by
      rw [isSome_layFrom?_cons, hadd]
      by_cases hw : Writable d (start + d) <;> simp [hw]
    rw [hhead, ih]
    constructor
    · rintro ⟨hw, hrest⟩ i x hx
      cases i with
      | zero => cases hx; simpa using hw
      | succ i => simpa [add_assoc] using hrest i x hx
    · intro h
      refine ⟨by simpa using h 0 d rfl, fun i x hx => ?_⟩
      simpa [add_assoc] using h (i + 1) x hx

theorem Writable.of_le {d t later : Ticks} (h : Writable d later) (hle : t ≤ later) :
    Writable d t :=
  ⟨h.1, (mul_le_mul_of_nonneg_left hle (Nat.cast_nonneg _)).trans h.2⟩

/-- What can be laid from a later start can be laid from an earlier one, if it
is aligned there too. -/
theorem isSome_layFrom?_of_le {start later : Ticks} {ds : List Ticks} (hle : start ≤ later)
    (ha : Aligned start ds) (hlater : Aligned later ds) (hd : ∀ d ∈ ds, 0 < d)
    (h : (layFrom? later ds).isSome) : (layFrom? start ds).isSome := by
  rw [layFrom?_isSome_iff hlater hd] at h
  rw [layFrom?_isSome_iff ha hd]
  exact fun i d hi => (h i d hi).of_le (by gcongr)

end Ticks

end RhythmClip
