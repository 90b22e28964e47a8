import RhythmClip.Proofs.Pitch

/-!
# How pitches are written

A pitch is written as a letter from A to G in either case, a `#`, a `b` or
neither of them, and one digit (`Notated`). The small `b` can be the letter or
the flat; the place tells which. Reading forgets the case of the letter and
nothing else, so each pitch has two texts, and the one with the large letter
is the one that is printed.

* `ofChars?_eq_some_iff_writes`: a pitch is read from just the texts that write it.
* `exists_writes_iff`: these are the notated texts.
* `eq_iff_of_writes`: which two texts write one pitch.
* `exists_ofParts_iff`, `writes_partsText`: which parts make a pitch, and how it is written.
* `octave_of_ofMidi`: the octave of a pitch that is made from a number.
* `parse_iff_notated`: reading and printing pitches.
-/
namespace RhythmClip

/-- The text with its first letter large. -/
def Text.capitalize (text : String) : String :=
  match text.toList with
  | [] => ""
  | c :: cs => String.ofList (c.toUpper :: cs)

namespace Pitch

open Text

/-- A letter from A to G, small or large. -/
def IsLetter (c : Char) : Prop := 'a' ≤ c ∧ c ≤ 'g' ∨ 'A' ≤ c ∧ c ≤ 'G'

def IsDigit (c : Char) : Prop := '0' ≤ c ∧ c ≤ '9'

instance (c : Char) : Decidable (IsLetter c) := inferInstanceAs (Decidable (_ ∨ _))

instance (c : Char) : Decidable (IsDigit c) := inferInstanceAs (Decidable (_ ∧ _))

/-- A letter, an accidental or none, and a digit, with nothing before, between or behind. -/
def Notated (text : String) : Prop :=
  ∃ letter accidental digit, text.toList = letter :: (accidental ++ [digit]) ∧ IsLetter letter ∧
    accidental ∈ [[], ['#'], ['b']] ∧ IsDigit digit

/-! ## Characters -/

theorem isLetter_iff (c : Char) :
    IsLetter c ↔ 97 ≤ c.toNat ∧ c.toNat ≤ 103 ∨ 65 ≤ c.toNat ∧ c.toNat ≤ 71 := by
  simp only [IsLetter, Char.le_def, UInt32.le_iff_toNat_le]
  exact Iff.rfl

theorem isDigit_iff (c : Char) : IsDigit c ↔ 48 ≤ c.toNat ∧ c.toNat ≤ 57 := by
  simp only [IsDigit, Char.le_def, UInt32.le_iff_toNat_le]
  exact Iff.rfl

theorem exists_isWritten_iff (c : Char) :
    (∃ letter : Letter, letter.IsWritten c) ↔ IsLetter c := by
  constructor
  · rintro ⟨letter, rfl | rfl⟩ <;> cases letter <;> decide
  · intro h
    have hread : ∀ n < 104, 97 ≤ n ∨ 65 ≤ n ∧ n ≤ 71 →
        (Letter.ofChar? (Char.ofNat n)).isSome = true := by decide +kernel
    have hn := (isLetter_iff c).1 h
    have hsome := hread c.toNat (by omega) (by omega)
    rw [Char.ofNat_toNat] at hsome
    obtain ⟨letter, hletter⟩ := Option.isSome_iff_exists.1 hsome
    exact ⟨letter, (Letter.ofChar?_eq_some_iff c letter).1 hletter⟩

theorem exists_digitChar_iff (c : Char) :
    (∃ octave : Fin 10, c = Nat.digitChar octave) ↔ IsDigit c := by
  rw [isDigit_iff]
  constructor
  · rintro ⟨octave, rfl⟩
    rw [Nat.toNat_digitChar_of_lt_ten octave.isLt]
    omega
  · intro h
    exact ⟨_, (octave?_eq_some_iff c _).1 (dif_pos h)⟩

theorem toUpper_of_isWritten {letter : Letter} {c : Char} (h : letter.IsWritten c) :
    c.toUpper = letter.char := by
  rcases h with rfl | rfl <;> cases letter <;> decide

theorem exists_symbol_iff (cs : List Char) :
    (∃ accidental : Accidental, cs = accidental.symbol) ↔ cs ∈ [[], ['#'], ['b']] := by
  constructor
  · rintro ⟨accidental, rfl⟩
    cases accidental <;> decide
  · intro h
    simp only [List.mem_cons, List.not_mem_nil, or_false] at h
    rcases h with rfl | rfl | rfl
    · exact ⟨.natural, rfl⟩
    · exact ⟨.sharp, rfl⟩
    · exact ⟨.flat, rfl⟩

/-! ## Texts -/

/-- The text of the pitch, with its letter in either case. -/
def Writes (cs : List Char) (p : Pitch) : Prop :=
  ∃ c, p.letter.IsWritten c ∧ cs = c :: (p.accidental.symbol ++ [Nat.digitChar p.octave])

theorem ofChars?_of_writes {cs : List Char} {p : Pitch} (h : Writes cs p) :
    ofChars? cs = some p := by
  obtain ⟨c, hc, rfl⟩ := h
  have hdigit : ∀ octave : Fin 10,
      Nat.digitChar octave ≠ '#' ∧ Nat.digitChar octave ≠ 'b' := by decide
  obtain ⟨hs, hf⟩ := hdigit p.octave
  simp [ofChars?, (Letter.ofChar?_eq_some_iff _ _).2 hc, Accidental.take_symbol p.accidental [] hs hf,
    (octave?_eq_some_iff _ p.octave).2 rfl]

theorem writes_of_ofChars? {cs : List Char} {p : Pitch} (h : ofChars? cs = some p) :
    Writes cs p := by
  cases cs with
  | nil => cases h
  | cons c rest =>
    simp only [ofChars?] at h
    split at h
    · rename_i letter accidental d hletter htake
      obtain ⟨octave, hoctave, rfl⟩ := Option.map_eq_some_iff.1 h
      refine ⟨c, (Letter.ofChar?_eq_some_iff _ _).1 hletter, ?_⟩
      rw [Accidental.eq_symbol_of_take htake, (octave?_eq_some_iff _ _).1 hoctave]
    · cases h

theorem ofChars?_eq_some_iff_writes (cs : List Char) (p : Pitch) :
    ofChars? cs = some p ↔ Writes cs p :=
  ⟨writes_of_ofChars?, ofChars?_of_writes⟩

theorem exists_writes_iff (text : String) : (∃ p, Writes text.toList p) ↔ Notated text := by
  constructor
  · rintro ⟨p, c, hc, htext⟩
    exact ⟨c, p.accidental.symbol, _, htext, (exists_isWritten_iff c).1 ⟨_, hc⟩,
      (exists_symbol_iff _).1 ⟨_, rfl⟩, (exists_digitChar_iff _).1 ⟨_, rfl⟩⟩
  · rintro ⟨c, symbol, digit, htext, hc, hsymbol, hdigit⟩
    obtain ⟨letter, hletter⟩ := (exists_isWritten_iff c).2 hc
    obtain ⟨accidental, rfl⟩ := (exists_symbol_iff symbol).2 hsymbol
    obtain ⟨octave, rfl⟩ := (exists_digitChar_iff digit).2 hdigit
    exact ⟨⟨letter, accidental, octave⟩, c, hletter, htext⟩

theorem Writes.text_eq {text : String} {p : Pitch} (h : Writes text.toList p) :
    p.text = capitalize text := by
  obtain ⟨c, hc, htext⟩ := h
  rw [capitalize, htext, Pitch.text, chars, ← toUpper_of_isWritten hc]

/-- Two texts write one pitch if they differ in the case of the letter at most. -/
theorem eq_iff_of_writes {cs ds : List Char} {p q : Pitch} (hp : Writes cs p) (hq : Writes ds q) :
    p = q ↔ ∃ c d rest, cs = c :: rest ∧ ds = d :: rest ∧ c.toUpper = d.toUpper := by
  constructor
  · rintro rfl
    obtain ⟨c, hc, rfl⟩ := hp
    obtain ⟨d, hd, rfl⟩ := hq
    exact ⟨c, d, _, rfl, rfl, by rw [toUpper_of_isWritten hc, toUpper_of_isWritten hd]⟩
  · rintro ⟨c, d, rest, rfl, rfl, hcase⟩
    obtain ⟨c', hc, hcs⟩ := hp
    obtain ⟨d', hd, hds⟩ := hq
    cases hcs
    obtain ⟨rfl, hrest⟩ := List.cons.inj hds
    -- the large letter and what stands behind it are what is printed
    have hchars : p.chars = q.chars := by
      rw [chars, chars, ← toUpper_of_isWritten hc, ← toUpper_of_isWritten hd, hcase, hrest]
    have hread := ofChars?_chars p
    rw [hchars, ofChars?_chars] at hread
    exact (Option.some.inj hread).symm

theorem parse_eq_ok_iff (text : String) (p : Pitch) :
    parse text = .ok p ↔ Writes text.toList p := by
  rw [← ofChars?_eq_some_iff_writes, parse, ofText?]
  cases ofChars? text.toList <;> simp

theorem parse_text (p : Pitch) : parse p.text = .ok p := by
  rw [parse, ofText?_text]

theorem ofText?_eq_none_iff (text : String) : ofText? text = none ↔ ¬Notated text := by
  rw [← exists_writes_iff, Option.eq_none_iff_forall_ne_some, not_exists]
  simp only [ofText?, ne_eq, ofChars?_eq_some_iff_writes]

instance (text : String) : Decidable (Notated text) :=
  decidable_of_iff (ofText? text ≠ none) (by rw [ne_eq, ofText?_eq_none_iff, Classical.not_not])

/-! ## Parts -/

/-- What is written for given parts. -/
def partsText (letter : Char) (accidental : Accidental) (octave : Nat) : String :=
  String.ofList (letter :: accidental.symbol) ++ decimal octave

theorem ofParts_eq_ok_iff (letter : Char) (accidental : Accidental) (octave : Nat) (p : Pitch) :
    ofParts letter accidental octave = .ok p ↔
      p.letter.IsWritten letter ∧ accidental = p.accidental ∧ octave = p.octave := by
  rw [← Letter.ofChar?_eq_some_iff, ofParts]
  cases Letter.ofChar? letter with
  | none => simp
  | some l =>
    obtain ⟨_, _, o, ho⟩ := p
    by_cases hle : octave ≤ 9
    · simp [hle]
    · have hne : octave ≠ o := by omega
      simp [hle, hne]

theorem exists_ofParts_iff (letter : Char) (accidental : Accidental) (octave : Nat) :
    (∃ p, ofParts letter accidental octave = .ok p) ↔ IsLetter letter ∧ octave ≤ 9 := by
  simp only [ofParts_eq_ok_iff, ← exists_isWritten_iff]
  constructor
  · rintro ⟨p, hletter, -, rfl⟩
    exact ⟨⟨_, hletter⟩, by omega⟩
  · rintro ⟨⟨l, hletter⟩, hle⟩
    exact ⟨⟨l, accidental, ⟨octave, by omega⟩⟩, hletter, rfl, rfl⟩

theorem writes_partsText {letter : Char} {accidental : Accidental} {octave : Nat} {p : Pitch}
    (h : ofParts letter accidental octave = .ok p) :
    Writes (partsText letter accidental octave).toList p := by
  obtain ⟨hletter, rfl, rfl⟩ := (ofParts_eq_ok_iff _ _ _ _).1 h
  refine ⟨letter, hletter, ?_⟩
  simp [partsText, decimal, Nat.toDigits_of_lt_base p.octave.isLt]

/-! ## Numbers -/

/-- Each octave has twelve numbers. -/
theorem octave_of_ofMidi {spelling : Spelling} {number : Int} {p : Pitch}
    (h : ofMidi spelling number = .ok p) : (p.octave.val : Int) = number / 12 - 1 := by
  unfold ofMidi at h
  split at h
  · rename_i hrange
    cases h
    exact Int.toNat_of_nonneg hrange.1
  · cases h

/-- **How pitches are written.** A text is read as a pitch just if it is a letter
from A to G in either case, an accidental or none, and a digit; any other text
is refused by its name. The pitch is printed as the same text with its letter
large, and that is read as the pitch again. Two texts are one pitch just if
they differ in the case of the letter at most. Parts make a pitch just if they
are a letter and an octave, and are printed in the same way. Numbers make a
pitch from 12 to 131, in the octave they lie in. However a pitch came about, it
has a letter from A to G and an octave from 0 to 9, and is read back from what
is printed for it. -/
theorem parse_iff_notated (text : String) :
    ((∃ p, parse text = .ok p) ↔ Notated text) ∧
      (¬Notated text → parse text = .error (.note text .notAPitch)) ∧
      (∀ p, parse text = .ok p → p.text = capitalize text ∧ parse (capitalize text) = .ok p) ∧
      (∀ other p q, parse text = .ok p → parse other = .ok q →
        (p = q ↔ ∃ c d rest, text.toList = c :: rest ∧ other.toList = d :: rest ∧
          c.toUpper = d.toUpper)) ∧
      (∀ letter accidental octave,
        ((∃ p, ofParts letter accidental octave = .ok p) ↔ IsLetter letter ∧ octave ≤ 9) ∧
          ∀ p, ofParts letter accidental octave = .ok p →
            p.text = capitalize (partsText letter accidental octave)) ∧
      (∀ spelling number,
        ((∃ p, ofMidi spelling number = .ok p) ↔ 12 ≤ number ∧ number ≤ 131) ∧
          ∀ p, ofMidi spelling number = .ok p → (p.octave.val : Int) = number / 12 - 1) ∧
      ∀ p : Pitch, ('A' ≤ p.letter.char ∧ p.letter.char ≤ 'G') ∧ p.octave.val ≤ 9 ∧
        parse p.text = .ok p := by
  refine ⟨?_, fun h => ?_, fun p h => ?_, fun other p q hp hq => ?_, fun letter accidental octave =>
    ⟨exists_ofParts_iff letter accidental octave, fun p h => (writes_partsText h).text_eq⟩,
    fun spelling number => ⟨exists_ofMidi_iff spelling number, fun p => octave_of_ofMidi⟩,
    fun p => ⟨?_, by omega, parse_text p⟩⟩
  · simp only [parse_eq_ok_iff]
    exact exists_writes_iff text
  · rw [parse, (ofText?_eq_none_iff text).2 h]
  · have htext := ((parse_eq_ok_iff text p).1 h).text_eq
    exact ⟨htext, htext ▸ parse_text p⟩
  · exact eq_iff_of_writes ((parse_eq_ok_iff text p).1 hp) ((parse_eq_ok_iff other q).1 hq)
  · cases p.letter <;> decide

/-- The first `b` is the letter and the second the flat; a large one is never a flat. -/
theorem parse_iff_notated_flat :
    Notated "bb5" ∧ ¬Notated "bB5" ∧
      ∃ p, parse "bb5" = .ok p ∧ p.text = "Bb5" ∧ parse "bB5" = .error (.note "bB5" .notAPitch) := by
  have hnotated : Notated "bb5" := by decide +kernel
  have hnot : ¬Notated "bB5" := by decide +kernel
  obtain ⟨p, hp⟩ := (parse_iff_notated "bb5").1.2 hnotated
  have hlarge : capitalize "bb5" = "Bb5" := by decide +kernel
  exact ⟨hnotated, hnot, p, hp, ((parse_iff_notated "bb5").2.2.1 p hp).1.trans hlarge,
    (parse_iff_notated "bB5").2.1 hnot⟩

end Pitch

end RhythmClip
