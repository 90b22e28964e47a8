import RhythmClip.Text.Grapheme.Ranges

/-!
# Roles in a grapheme

Each character has one role in the graphemes of a text. A Hangul syllable is
built of leading consonants, vowels and trailing consonants; the ready-made
syllables are open, or closed by a trailing consonant.
-/
namespace RhythmClip.Text.Grapheme

inductive Role where
  | carriageReturn | lineFeed | control
  | extender | linker | joiner | nonJoiner | spacing | leader
  | leading | vowel | trailing | openSyllable | closedSyllable
  | regional | pictograph | consonant | other
  deriving DecidableEq, Repr

/-- The roles that are given by ranges. -/
def roleRanges : List (Role × List (Nat × Nat)) :=
  [(.carriageReturn, [(0x0D, 0x0D)]), (.lineFeed, [(0x0A, 0x0A)]), (.control, controls),
    (.extender, extenders), (.linker, linkers), (.nonJoiner, [(0x200C, 0x200C)]),
    (.joiner, [(0x200D, 0x200D)]), (.spacing, spacingMarks), (.leader, leaders),
    (.leading, [(0x1100, 0x115F), (0xA960, 0xA97C)]),
    (.vowel, [(0x1160, 0x11A7), (0xD7B0, 0xD7C6), (0x16D63, 0x16D63), (0x16D67, 0x16D6A)]),
    (.trailing, [(0x11A8, 0x11FF), (0xD7CB, 0xD7FB)]), (.regional, [(0x1F1E6, 0x1F1FF)]),
    (.pictograph, pictographs), (.consonant, consonants)]

/-- The ready-made Hangul syllables come in blocks of one open and 27 closed ones. -/
def hangulSyllable? (n : Nat) : Option Role :=
  if within n [(0xAC00, 0xD7A3)] then
    some (if (n - 0xAC00) % 28 = 0 then .openSyllable else .closedSyllable)
  else
    none

def Role.ofChar (c : Char) : Role :=
  let listed := roleRanges.find? fun (_, ranges) => within c.toNat ranges
  (hangulSyllable? c.toNat).getD ((listed.map Prod.fst).getD .other)

/-- Whether a grapheme ends before and after the role, a line end of two characters apart. -/
def Role.isBreak : Role → Bool
  | .carriageReturn | .lineFeed | .control => true
  | _ => false

/-- Whether the role belongs to whatever stands before it. -/
def Role.isTrailer : Role → Bool
  | .extender | .linker | .joiner | .nonJoiner | .spacing => true
  | _ => false

/-- Whether two parts of a Hangul syllable hold together. -/
def Role.sameSyllable : Role → Role → Bool
  | .leading, .leading | .leading, .vowel | .leading, .openSyllable | .leading, .closedSyllable
  | .vowel, .vowel | .openSyllable, .vowel | .vowel, .trailing | .openSyllable, .trailing
  | .trailing, .trailing | .closedSyllable, .trailing => true
  | _, _ => false

end RhythmClip.Text.Grapheme
