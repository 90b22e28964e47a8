/-!
# Decimal numbers as text

Natural numbers are written without leading zeros. The readers take ASCII
digits only, and at least one; leading zeros mean nothing.

* `natural?_decimal`: reading back what was written.
-/
namespace RhythmClip.Text

/-- The shortest decimal digits of a number. -/
def decimal (n : Nat) : String := String.ofList (Nat.toDigits 10 n)

def decimalInt : Int → String
  | .ofNat n => decimal n
  | .negSucc n => "-" ++ decimal (n + 1)

/-- The value of a non-empty run of ASCII digits. -/
def natural? (cs : List Char) : Option Nat :=
  if cs.isEmpty || !cs.all Char.isDigit then none else some (Nat.ofDigitChars 10 cs 0)

/-- A number from 0 to 255 given by its digits. -/
def digitsByte? (cs : List Char) : Option UInt8 :=
  (natural? cs).bind fun n => if n ≤ 255 then some (UInt8.ofNat n) else none

/-- As `digitsByte?`, with an optional plus sign in front. -/
def byte? (s : String) : Option UInt8 :=
  match s.toList with
  | '+' :: cs => digitsByte? cs
  | cs => digitsByte? cs

/-- As `byte?`; a minus sign may stand in front as well, and leaves only zero in range. -/
def signedByte? (s : String) : Option UInt8 :=
  match s.toList with
  | '-' :: cs => (digitsByte? cs).filter (· == 0)
  | _ => byte? s

theorem natural?_decimal (n : Nat) : natural? (decimal n).toList = some n := by
  simp only [natural?, decimal, String.toList_ofList]
  rw [if_neg, Nat.ofDigitChars_ten_toDigits]
  simp only [Bool.or_eq_true, List.isEmpty_iff, Nat.toDigits_ne_nil, false_or, Bool.not_eq_true',
    Bool.not_eq_false, List.all_eq_true]
  exact fun c hc => Nat.isDigit_of_mem_toDigits (by decide) (by decide) hc

end RhythmClip.Text
