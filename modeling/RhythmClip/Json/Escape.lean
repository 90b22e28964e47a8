/-!
# Escapes in JSON texts

Between its quotation marks a JSON text writes some characters as escapes.
The reader knows all escapes of RFC 8259; the writer uses the short ones, and
`\u00xx` for the other control characters.

A reader first gets code units: a character stands for its code point, and
`\u` may give half of a surrogate pair. Then the halves are joined; a half
that stands alone is no character.

* `unescape_escape`: reading inverts writing.
-/
namespace RhythmClip.Json

/-! ## Writing -/

def escapeChar (c : Char) : List Char :=
  match c with
  | '"' => ['\\', '"']
  | '\\' => ['\\', '\\']
  | '\x08' => ['\\', 'b']
  | '\x0c' => ['\\', 'f']
  | '\n' => ['\\', 'n']
  | '\r' => ['\\', 'r']
  | '\t' => ['\\', 't']
  | c =>
    if c.toNat < 0x20 then
      ['\\', 'u', '0', '0', Nat.digitChar (c.toNat / 16), Nat.digitChar (c.toNat % 16)]
    else [c]

def escape (cs : List Char) : List Char := cs.flatMap escapeChar

/-! ## Reading -/

/-- The character that a letter stands for after a backslash. -/
def shortEscape? : Char → Option Char
  | '"' => some '"'
  | '\\' => some '\\'
  | '/' => some '/'
  | 'b' => some '\x08'
  | 'f' => some '\x0c'
  | 'n' => some '\n'
  | 'r' => some '\r'
  | 't' => some '\t'
  | _ => none

/-- The value of a hexadecimal digit in either case. -/
def hexDigit? (c : Char) : Option Nat :=
  if c.isDigit then some (c.toNat - 48)
  else if 97 ≤ c.toNat ∧ c.toNat ≤ 102 then some (c.toNat - 87)
  else if 65 ≤ c.toNat ∧ c.toNat ≤ 70 then some (c.toNat - 55)
  else none

def hex4? (a b c d : Char) : Option Nat := do
  return (← hexDigit? a) * 4096 + (← hexDigit? b) * 256 + (← hexDigit? c) * 16 + (← hexDigit? d)

/-- The code units between the quotation marks of a text. -/
def units? : List Char → Option (List Nat)
  | [] => some []
  | '\\' :: 'u' :: a :: b :: c :: d :: cs => do return (← hex4? a b c d) :: (← units? cs)
  | '\\' :: c :: cs => do return (← shortEscape? c).toNat :: (← units? cs)
  | c :: cs =>
    if c.toNat < 0x20 ∨ c = '"' ∨ c = '\\' then none else do return c.toNat :: (← units? cs)

def isHighHalf (u : Nat) : Bool := 0xD800 ≤ u && u ≤ 0xDBFF

def isLowHalf (u : Nat) : Bool := 0xDC00 ≤ u && u ≤ 0xDFFF

def joinHalves (high low : Nat) : Char :=
  Char.ofNat (0x10000 + (high - 0xD800) * 0x400 + (low - 0xDC00))

/-- The characters of code units, if no half stands alone. -/
def characters? : List Nat → Option (List Char)
  | [] => some []
  | [u] => if isHighHalf u || isLowHalf u then none else some [Char.ofNat u]
  | u :: v :: us =>
    if isHighHalf u && isLowHalf v then do return joinHalves u v :: (← characters? us)
    else if isHighHalf u || isLowHalf u then none
    else do return Char.ofNat u :: (← characters? (v :: us))

/-- The content of a text, given what stands between its quotation marks. -/
def unescape? (cs : List Char) : Option (Option String) :=
  (units? cs).map fun us => (characters? us).map String.ofList

/-! ## Small facts -/

/-- No character is half of a pair. -/
theorem not_isHalf_toNat (c : Char) : isHighHalf c.toNat = false ∧ isLowHalf c.toNat = false := by
  have h := c.valid
  simp only [UInt32.isValidChar, Nat.isValidChar] at h
  simp only [isHighHalf, isLowHalf, Char.toNat, Bool.and_eq_false_iff, decide_eq_false_iff_not]
  omega

theorem units?_escapeChar (c : Char) (cs : List Char) :
    units? (escapeChar c ++ cs) = (units? cs).map (c.toNat :: ·) := by
  have hmap : ∀ n : Nat, (do return n :: (← units? cs)) = (units? cs).map (n :: ·) := by
    intro n; cases units? cs <;> rfl
  unfold escapeChar
  split
  all_goals first
    | exact hmap _
    | skip
  split
  · rename_i h
    have hv : ∀ n < 32, hex4? '0' '0' (Nat.digitChar (n / 16)) (Nat.digitChar (n % 16)) = some n := by
      decide
    simp only [List.cons_append, List.nil_append, units?, hv _ h]
    exact hmap _
  · rename_i h
    rename_i hq hb _ _ _ _ _
    have hb' : c ≠ '\\' := hb
    have hq' : c ≠ '"' := hq
    have hc : units? (c :: cs) = do return c.toNat :: (← units? cs) := by
      rw [units?.eq_4 c cs (fun _ _ _ _ _ e => absurd e hb') (fun _ _ e => absurd e hb')]
      simp [h, hb', hq']
    rw [List.singleton_append, hc]
    exact hmap _

theorem units?_escape (cs : List Char) : units? (escape cs) = some (cs.map Char.toNat) := by
  induction cs with
  | nil => rfl
  | cons c cs ih =>
    have h : escape (c :: cs) = escapeChar c ++ escape cs := rfl
    simp [h, units?_escapeChar, ih]

theorem characters?_toNat (cs : List Char) : characters? (cs.map Char.toNat) = some cs := by
  induction cs with
  | nil => rfl
  | cons c cs ih =>
    obtain ⟨hh, hl⟩ := not_isHalf_toNat c
    cases cs with
    | nil => simp [characters?, hh, hl]
    | cons d ds =>
      simp only [List.map_cons] at ih ⊢
      simp [characters?, hh, hl, ih]

theorem unescape_escape (cs : List Char) : unescape? (escape cs) = some (some (String.ofList cs)) := by
  simp [unescape?, units?_escape, characters?_toNat]

end RhythmClip.Json
