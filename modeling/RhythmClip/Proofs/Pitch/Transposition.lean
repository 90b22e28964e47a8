import RhythmClip.Proofs.Pitch.Notation

/-!
# Transposition

A pitch is moved by its number: the semitones are added, and the pitch of the
new number is spelled afresh. What is written beyond the octave that it sounds
in, such as C flat or B sharp, so comes back in the octave of its number, and
what is written beyond the last numbers cannot even be moved by nothing. As a
number has one pitch in a given spelling, a pitch that was moved twice is where
one move by both amounts takes it.

Numbers are counted in signed words of 16 bits as well, where a division is
rounded toward zero and then mended for numbers below zero. Pitches have numbers
that are far from the ends of such a word, so only adding the semitones can
leave it.

* `transpose_eq_error`: what is said of a number that no pitch has.
* `transpose_transpose`: two moves are one.
* `ofMidiWord_eq`, `transposeWord_eq`: counting in words.
* `transposition_exact`: when a pitch can be moved, where to, and by two moves.
-/
namespace RhythmClip

namespace Pitch

open Text

/-! ## Numbers -/

theorem transpose_eq_error {p : Pitch} {spelling : Spelling} {s : Int}
    (h : ¬(12 ≤ p.midi + s ∧ p.midi + s ≤ 131)) :
    p.transpose s spelling = .error (.note (decimalInt (p.midi + s)) .outOfRange) := by
  rw [transpose, ofMidi, dif_neg (by omega)]

/-- The first move is exact, so the second starts from the number in between. -/
theorem transpose_transpose {p q : Pitch} {spelling : Spelling} {s : Int}
    (h : p.transpose s spelling = .ok q) (t : Int) (other : Spelling) :
    q.transpose t other = p.transpose (s + t) other := by
  rw [transpose, midi_ofMidi h, Int.add_assoc, ← transpose]

/-! ## Words -/

/-- The number can be written in a signed word of 16 bits. -/
def FitsShort (number : Int) : Prop := -32768 ≤ number ∧ number ≤ 32767

instance (number : Int) : Decidable (FitsShort number) := inferInstanceAs (Decidable (_ ∧ _))

def midiWord (p : Pitch) : Int16 :=
  (Int16.ofNat p.octave + 1) * 12 + Int16.ofNat p.letter.semitone + Int16.ofInt p.accidental.offset

/-- How many octaves lie below the number; a quotient toward zero is one too
many below zero, if something remains. -/
def octavesBelow (number : Int16) : Int16 :=
  if number % 12 < 0 then number / 12 - 1 else number / 12

/-- The semitones that the number lies above the last C. -/
def semitonesAbove (number : Int16) : Int16 :=
  if number % 12 < 0 then number % 12 + 12 else number % 12

def ofMidiWord (spelling : Spelling) (number : Int16) : Except Fault Pitch :=
  let octave := octavesBelow number - 1
  if 0 ≤ octave ∧ octave ≤ 9 then
    let (letter, accidental) := spelling.spell (semitonesAbove number).toInt.toNat
    ofParts letter.char accidental octave.toInt.toNat
  else .error (.note (decimalInt number.toInt) .outOfRange)

/-- Transposition in words, where a sum that leaves the word wraps around. -/
def transposeWord (p : Pitch) (semitones : Int16) (spelling : Spelling) : Except Fault Pitch :=
  ofMidiWord spelling (p.midiWord + semitones)

theorem toInt_midiWord (p : Pitch) : p.midiWord.toInt = p.midi := by
  obtain ⟨letter, accidental, octave⟩ := p
  cases letter <;> cases accidental <;> revert octave <;> decide

theorem toInt_add {a b : Int16} (h : FitsShort (a.toInt + b.toInt)) :
    (a + b).toInt = a.toInt + b.toInt := by
  obtain ⟨hlow, hhigh⟩ := h
  rw [Int16.toInt_add]
  exact Int.bmod_eq_of_le (by omega) (by omega)

theorem toInt_sub {a b : Int16} (h : FitsShort (a.toInt - b.toInt)) :
    (a - b).toInt = a.toInt - b.toInt := by
  obtain ⟨hlow, hhigh⟩ := h
  rw [Int16.toInt_sub]
  exact Int.bmod_eq_of_le (by omega) (by omega)

/-- Words are divided toward zero, which is one octave up from rounding down
where the remainder is negative. -/
theorem divided_word (w : Int16) :
    w % 12 < 0 ∧ (w / 12).toInt = w.toInt / 12 + 1 ∧ (w % 12).toInt = w.toInt % 12 - 12 ∨
      ¬w % 12 < 0 ∧ (w / 12).toInt = w.toInt / 12 ∧ (w % 12).toInt = w.toInt % 12 := by
  have htwelve : (12 : Int16).toInt = 12 := rfl
  have hzero : (0 : Int16).toInt = 0 := rfl
  have hsign : Int.sign 12 = 1 := rfl
  rw [Int16.lt_iff_toInt_lt, Int16.toInt_div_of_ne_right w 12 (by decide), Int16.toInt_mod,
    htwelve, hzero, Int.tdiv_eq_ediv, Int.tmod_eq_emod, hsign]
  by_cases h : 0 ≤ w.toInt ∨ 12 ∣ w.toInt
  · rw [if_pos h, if_pos h]
    omega
  · rw [if_neg h, if_neg h]
    omega

theorem toInt_octavesBelow (w : Int16) : (octavesBelow w).toInt = w.toInt / 12 := by
  have hlow := w.le_toInt
  have hhigh := w.toInt_lt
  have hone : (1 : Int16).toInt = 1 := rfl
  unfold octavesBelow
  rcases divided_word w with ⟨hneg, hdiv, -⟩ | ⟨hneg, hdiv, -⟩
  · rw [if_pos hneg, toInt_sub (by unfold FitsShort; omega), hdiv, hone]
    omega
  · rw [if_neg hneg, hdiv]

theorem toInt_semitonesAbove (w : Int16) : (semitonesAbove w).toInt = w.toInt % 12 := by
  have htwelve : (12 : Int16).toInt = 12 := rfl
  unfold semitonesAbove
  rcases divided_word w with ⟨hneg, -, hmod⟩ | ⟨hneg, -, hmod⟩
  · rw [if_pos hneg, toInt_add (by unfold FitsShort; omega), hmod, htwelve]
    omega
  · rw [if_neg hneg, hmod]

theorem ofMidiWord_eq (spelling : Spelling) (w : Int16) :
    ofMidiWord spelling w = ofMidi spelling w.toInt := by
  have hlow := w.le_toInt
  have hhigh := w.toInt_lt
  have hone : (1 : Int16).toInt = 1 := rfl
  have hbelow := toInt_octavesBelow w
  have hoctave : (octavesBelow w - 1).toInt = w.toInt / 12 - 1 := by
    rw [toInt_sub (by unfold FitsShort; omega), hbelow, hone]
  have hrange : 0 ≤ octavesBelow w - 1 ∧ octavesBelow w - 1 ≤ 9 ↔
      0 ≤ w.toInt / 12 - 1 ∧ w.toInt / 12 - 1 ≤ 9 := by
    rw [Int16.le_iff_toInt_le, Int16.le_iff_toInt_le, hoctave]
    exact Iff.rfl
  unfold ofMidiWord ofMidi
  simp only [hrange, toInt_semitonesAbove, hoctave]
  split
  · exact (ofParts_eq_ok_iff _ _ _ _).2 ⟨.inl rfl, rfl, rfl⟩
  · rfl

theorem transposeWord_eq {p : Pitch} {s : Int16} (h : FitsShort (p.midi + s.toInt))
    (spelling : Spelling) : p.transposeWord s spelling = p.transpose s.toInt spelling := by
  rw [← toInt_midiWord] at h
  rw [transposeWord, ofMidiWord_eq, toInt_add h, toInt_midiWord, transpose]

/-- **Transposition is exact.** A pitch can be moved by a number of semitones
just if the new number is from 12 to 131, and is refused by that number if not.
The pitch it comes to has the new number, lies in the octave of it, and is
natural or altered the one way asked for; moved again, in whatever spelling, it
answers as the first pitch does to one move by both amounts. Counting in words
says the same as long as the new number fits one. -/
theorem transposition_exact (p : Pitch) (spelling : Spelling) (s : Int) :
    ((∃ q, p.transpose s spelling = .ok q) ↔ 12 ≤ p.midi + s ∧ p.midi + s ≤ 131) ∧
      (¬(12 ≤ p.midi + s ∧ p.midi + s ≤ 131) →
        p.transpose s spelling = .error (.note (decimalInt (p.midi + s)) .outOfRange)) ∧
      (∀ q, p.transpose s spelling = .ok q →
        q.midi = p.midi + s ∧ (q.octave.val : Int) = (p.midi + s) / 12 - 1 ∧ q.octave.val ≤ 9 ∧
          (q.accidental = .natural ∨ q.accidental = spelling.accidental) ∧
          ∀ t other, q.transpose t other = p.transpose (s + t) other) ∧
      ∀ w : Int16, w.toInt = s → FitsShort (p.midi + s) →
        p.transposeWord w spelling = p.transpose s spelling := by
  refine ⟨exists_ofMidi_iff spelling _, transpose_eq_error, fun q hq => ?_, ?_⟩
  · exact ⟨midi_ofMidi hq, octave_of_ofMidi hq, by omega, accidental_of_ofMidi hq,
      fun t other => transpose_transpose hq t other⟩
  · rintro w rfl hfits
    exact transposeWord_eq hfits spelling

/-- C flat of octave 0 has no number of its own octave: it can be moved into the
range, and on from there, but not by nothing. -/
theorem transposition_exact_belowRange :
    ¬(12 ≤ midi ⟨.c, .flat, 0⟩ + 0 ∧ midi ⟨.c, .flat, 0⟩ + 0 ≤ 131) ∧
      transpose ⟨.c, .flat, 0⟩ 0 .sharps = .error (.note (decimalInt 11) .outOfRange) ∧
      transpose ⟨.c, .flat, 0⟩ 1 .sharps = .ok ⟨.c, .natural, 0⟩ ∧
      transpose ⟨.c, .natural, 0⟩ 13 .flats = transpose ⟨.c, .flat, 0⟩ (1 + 13) .flats ∧
      FitsShort (midi ⟨.c, .flat, 0⟩ + 1) ∧
      transposeWord ⟨.c, .flat, 0⟩ 1 .sharps = transpose ⟨.c, .flat, 0⟩ 1 .sharps := by
  have hout : ¬(12 ≤ midi ⟨.c, .flat, 0⟩ + 0 ∧ midi ⟨.c, .flat, 0⟩ + 0 ≤ 131) := by decide
  have hfits : FitsShort (midi ⟨.c, .flat, 0⟩ + 1) := by decide
  have hmoved : transpose ⟨.c, .flat, 0⟩ 1 .sharps = .ok ⟨.c, .natural, 0⟩ := rfl
  obtain ⟨-, hrefused, -, -⟩ := transposition_exact ⟨.c, .flat, 0⟩ .sharps 0
  obtain ⟨-, -, hexact, hwords⟩ := transposition_exact ⟨.c, .flat, 0⟩ .sharps 1
  obtain ⟨-, -, -, -, honward⟩ := hexact _ hmoved
  exact ⟨hout, hrefused hout, hmoved, honward 13 .flats, hfits, hwords 1 rfl hfits⟩

end Pitch

end RhythmClip
