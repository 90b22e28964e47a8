import RhythmClip.Pitch

/-!
# Pitches by number

The octaves 0 to 9 have the numbers 12 to 131. Every number in that range is
the number of a pitch, which is spelled as asked for; written pitches go one
further at both ends, with C flat of octave 0 and B sharp of octave 9.

* `exists_ofMidi_iff`: which numbers have a pitch.
* `accidental_of_ofMidi`: a pitch made from a number is natural, or altered the one way asked for.
* `ofChar?_eq_some_iff`, `octave?_eq_some_iff`: the characters of letters and octaves.
-/
namespace RhythmClip

/-! ## Parts -/

/-- A letter is written large or small. -/
def Letter.IsWritten (letter : Letter) (c : Char) : Prop :=
  c = letter.char ∨ c = letter.char.toLower

theorem toNat_of_toUpper {c d : Char} (h : c.toUpper = d) : c = d ∨ c.toNat = d.toNat + 32 := by
  unfold Char.toUpper at h
  split at h
  · rename_i hrange
    have hfirst : 97 ≤ c.toNat := UInt32.le_iff_toNat_le.1 hrange.1
    have hlast : c.toNat ≤ 122 := UInt32.le_iff_toNat_le.1 hrange.2
    -- subtracting 32 is adding its complement in a word
    have hword : ('A'.val - 'a'.val).toNat = 4294967264 := by decide
    have hadd : d.toNat = (c.toNat + 4294967264) % 4294967296 := by
      rw [← h, ← hword]
      exact UInt32.toNat_add _ _
    omega
  · exact .inl h

theorem Letter.ofChar?_eq_some_iff (c : Char) (letter : Letter) :
    ofChar? c = some letter ↔ letter.IsWritten c := by
  have hwrite : ∀ letter : Letter, ofChar? letter.char = some letter ∧
      ofChar? letter.char.toLower = some letter := by
    intro letter
    cases letter <;> decide
  have hsmall : ∀ letter : Letter, letter.char.toLower.toNat = letter.char.toNat + 32 := by
    intro letter
    cases letter <;> decide
  constructor
  · intro h
    have hupper : c.toUpper = letter.char := by
      unfold ofChar? ofCapital? at h
      split at h <;> cases h <;> assumption
    rcases toNat_of_toUpper hupper with hc | hc
    · exact .inl hc
    · exact .inr (Char.toNat_inj.1 (hc.trans (hsmall letter).symm))
  · rintro (rfl | rfl)
    · exact (hwrite letter).1
    · exact (hwrite letter).2

namespace Accidental

theorem take_symbol (accidental : Accidental) {c : Char} (cs : List Char) (hs : c ≠ '#')
    (hf : c ≠ 'b') : take (accidental.symbol ++ c :: cs) = (accidental, c :: cs) := by
  cases accidental with
  | natural =>
    simp only [symbol, List.nil_append]
    unfold take
    split
    · rename_i h; exact absurd (List.cons.inj h).1 hs
    · rename_i h; exact absurd (List.cons.inj h).1 hf
    · rfl
  | sharp => rfl
  | flat => rfl

theorem eq_symbol_of_take {cs rest : List Char} {accidental : Accidental}
    (h : take cs = (accidental, rest)) : cs = accidental.symbol ++ rest := by
  unfold take at h
  split at h <;> cases h <;> rfl

end Accidental

theorem octave?_eq_some_iff (c : Char) (octave : Fin 10) :
    octave? c = some octave ↔ c = Nat.digitChar octave := by
  have hwrite : ∀ octave : Fin 10, octave? (Nat.digitChar octave) = some octave := by decide
  constructor
  · intro h
    unfold octave? at h
    split at h
    · rename_i hrange
      cases h
      have hlt : c.toNat - 48 < 10 := by omega
      apply Char.toNat_inj.1
      rw [Nat.toNat_digitChar_of_lt_ten hlt]
      omega
    · cases h
  · rintro rfl
    exact hwrite octave

/-- The accidental of the black keys. -/
def Spelling.accidental : Spelling → Accidental
  | .sharps => .sharp
  | .flats => .flat

theorem Spelling.accidental_spell (spelling : Spelling) (n : Nat) (h : n < 12) :
    (spelling.spell n).2 = .natural ∨ (spelling.spell n).2 = spelling.accidental := by
  cases spelling <;> revert n <;> decide

namespace Pitch

theorem ofText?_text (p : Pitch) : ofText? p.text = some p := by
  rw [ofText?, text, String.toList_ofList, ofChars?_chars]

/-! ## Numbers -/

theorem midi_bounds (p : Pitch) : 11 ≤ p.midi ∧ p.midi ≤ 132 := by
  obtain ⟨letter, accidental, octave⟩ := p
  have hl : letter.semitone ≤ 11 := by cases letter <;> decide
  have ha : -1 ≤ accidental.offset ∧ accidental.offset ≤ 1 := by cases accidental <;> decide
  have ho := octave.isLt
  simp only [midi]
  omega

theorem exists_ofMidi_iff (spelling : Spelling) (midi : Int) :
    (∃ p, ofMidi spelling midi = .ok p) ↔ 12 ≤ midi ∧ midi ≤ 131 := by
  unfold ofMidi
  split
  · rename_i h
    exact ⟨fun _ => by omega, fun _ => ⟨_, rfl⟩⟩
  · rename_i h
    exact ⟨nofun, fun _ => by omega⟩

theorem accidental_of_ofMidi {spelling : Spelling} {midi : Int} {p : Pitch}
    (h : ofMidi spelling midi = .ok p) :
    p.accidental = .natural ∨ p.accidental = spelling.accidental := by
  unfold ofMidi at h
  split at h
  · cases h
    exact spelling.accidental_spell _ (by omega)
  · cases h

end Pitch

end RhythmClip
