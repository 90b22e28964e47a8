/-!
# Pattern notation

Five characters write a pattern: `x` plays the next note, `-` is silent, `_`
is silent but may be held, and `[` and `]` enclose a group. The first three
are marks, which stand for one event each.

* `ofChar?_char`: each symbol is read back from its character.
* `char_of_ofChar?`: and no other character stands for it.
-/
namespace RhythmClip

/-- What happens in one slot. -/
inductive Mark where
  | note | rest | sustain
  deriving DecidableEq, Repr

inductive Symbol where
  | mark (m : Mark)
  | opening
  | closing
  deriving DecidableEq, Repr

namespace Symbol

def char : Symbol → Char
  | .mark .note => 'x'
  | .mark .rest => '-'
  | .mark .sustain => '_'
  | .opening => '['
  | .closing => ']'

def ofChar? : Char → Option Symbol
  | 'x' => some (.mark .note)
  | '-' => some (.mark .rest)
  | '_' => some (.mark .sustain)
  | '[' => some .opening
  | ']' => some .closing
  | _ => none

@[simp] theorem ofChar?_char (s : Symbol) : ofChar? s.char = some s := by
  rcases s with (_ | _ | _) | _ | _ <;> rfl

theorem char_of_ofChar? {c : Char} {s : Symbol} (h : ofChar? c = some s) : s.char = c := by
  unfold ofChar? at h
  split at h <;> cases h <;> rfl

/-- Every symbol takes one byte. -/
theorem utf8Size_char (s : Symbol) : s.char.utf8Size = 1 := by
  rcases s with (_ | _ | _) | _ | _ <;> rfl

end Symbol

end RhythmClip
