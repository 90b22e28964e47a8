import RhythmClip.Text.Decimal

/-!
# Ticks

Durations are exact fractions of a tick, kept in numbers of 64 bits. Addition
goes through the least common denominator and division cancels common
factors first; an operation has no result when a number that it has to write
down leaves the 64-bit range, even if the result itself would fit.

* `add?_eq_some`, `split?_eq_some`: a result is the exact one.
* `offsets?_map_snd`: durations laid end to end reach their sum, or neither exists.
-/
namespace RhythmClip

abbrev Ticks := Rat

namespace Ticks

/-- The largest number of a signed 64-bit word. -/
def wordMax : Nat := 0x7fffffffffffffff

/-- The number can be written in a signed 64-bit word. -/
def Fits (z : Int) : Prop := -(wordMax : Int) - 1 ≤ z ∧ z ≤ (wordMax : Int)

instance (z : Int) : Decidable (Fits z) := inferInstanceAs (Decidable (_ ∧ _))

/-- The fraction `n/d` in lowest terms. -/
def ofFraction (n d : Int) : Ticks := Rat.divInt n d

/-! ## Checked operations -/

/-- The sum, if the least common denominator, both numerators over it and
their sum fit a word. -/
def add? (a b : Ticks) : Option Ticks :=
  let common := Nat.lcm a.den b.den
  let left := a.num * (common / a.den : Nat)
  let right := b.num * (common / b.den : Nat)
  if Fits common ∧ Fits left ∧ Fits right ∧ Fits (left + right) then some (a + b) else none

/-- One of `parts` equal pieces, if there is a piece and both the number of
parts and the denominator of the piece fit a word. -/
def split? (t : Ticks) (parts : Nat) : Option Ticks :=
  if parts = 0 ∨ wordMax < parts then none
  else if (t / parts).den ≤ wordMax then some (t / parts) else none

def sum? (durations : List Ticks) : Option Ticks := durations.foldlM add? 0

/-- Lays durations end to end from `start`: where each begins, and the end of the last. -/
def layFrom? (start : Ticks) : List Ticks → Option (List Ticks × Ticks)
  | [] => some ([], start)
  | d :: ds => do
    let next ← add? start d
    let (starts, stop) ← layFrom? next ds
    some (start :: starts, stop)

def offsets? (durations : List Ticks) : Option (List Ticks × Ticks) := layFrom? 0 durations

/-- A whole number, or numerator and denominator with a slash between. -/
def text (t : Ticks) : String :=
  if t.den = 1 then Text.decimalInt t.num
  else Text.decimalInt t.num ++ "/" ++ Text.decimal t.den

/-! ## Small facts -/

theorem add?_eq_some {a b c : Ticks} (h : add? a b = some c) : c = a + b := by
  simp only [add?] at h
  split at h
  · exact (Option.some.inj h).symm
  · cases h

theorem split?_eq_some {t q : Ticks} {parts : Nat} (h : split? t parts = some q) :
    parts ≠ 0 ∧ q = t / parts := by
  unfold split? at h
  split at h
  · cases h
  · rename_i hp
    split at h
    · exact ⟨fun e => hp (.inl e), (Option.some.inj h).symm⟩
    · cases h

theorem layFrom?_map_snd (start : Ticks) (ds : List Ticks) :
    (layFrom? start ds).map (·.2) = ds.foldlM add? start := by
  induction ds generalizing start with
  | nil => rfl
  | cons d ds ih =>
    simp only [layFrom?, List.foldlM_cons]
    cases add? start d with
    | none => rfl
    | some next =>
      show Option.map _ ((layFrom? next ds).bind _) = ds.foldlM add? next
      rw [← ih next]
      cases layFrom? next ds <;> rfl

theorem offsets?_map_snd (ds : List Ticks) : (offsets? ds).map (·.2) = sum? ds :=
  layFrom?_map_snd 0 ds

theorem length_layFrom? {start stop : Ticks} {ds starts : List Ticks}
    (h : layFrom? start ds = some (starts, stop)) : starts.length = ds.length := by
  induction ds generalizing start starts with
  | nil => cases h; rfl
  | cons d ds ih =>
    simp only [layFrom?, Option.bind_eq_bind, Option.bind_eq_some_iff] at h
    obtain ⟨next, _, ⟨rest, stop'⟩, hrest, he⟩ := h
    cases he
    simp [ih hrest]

end Ticks

end RhythmClip
