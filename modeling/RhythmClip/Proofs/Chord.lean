import RhythmClip.Chord
import RhythmClip.Proofs.Pitch
import RhythmClip.Proofs.Walk

/-!
# The names and the tones of chords

A chord name is a letter, an accidental or none, the name of a quality, and a
hyphen with a digit or nothing (`Spelled`). No quality begins as an accidental
does, and none has a hyphen, so a text has these parts in one way only. The
tones lie above the root by the intervals of the quality; the largest interval
decides whether all of them have a pitch.

* `ofChars?_eq_some_iff`: a name is read from the texts that spell it.
* `exists_pitches?_iff`: when a name has all its tones.
* `sounds_of_pitches?`: which tones they are, and how they are written.
* `standardChords_iff_spelled`: the three together.
-/
namespace RhythmClip

/-! ## Qualities -/

namespace Quality

/-- The largest interval. -/
def top (q : Quality) : Nat := q.intervals.foldr max 0

theorem ofName?_eq_some_iff (text : String) (q : Quality) :
    ofName? text = some q ↔ q ∈ all ∧ q.name = text := by
  have hname : ∀ q ∈ all, ofName? q.name = some q := by decide +kernel
  constructor
  · intro h
    exact ⟨List.mem_of_find?_eq_some h, by simpa using List.find?_some h⟩
  · rintro ⟨hq, rfl⟩
    exact hname q hq

/-- No quality has a hyphen in its name. -/
theorem hyphen_not_mem_name {q : Quality} (h : q ∈ all) : '-' ∉ q.name.toList := by
  have hall : ∀ q ∈ all, '-' ∉ q.name.toList := by decide +kernel
  exact hall q h

/-- No quality has a name that begins as an accidental. -/
theorem exists_name_eq_cons {q : Quality} (h : q ∈ all) :
    ∃ c cs, q.name.toList = c :: cs ∧ c ≠ '#' ∧ c ≠ 'b' := by
  have hall : ∀ q ∈ all, q.name.toList.head?.any fun c => c ≠ '#' ∧ c ≠ 'b' := by decide +kernel
  obtain ⟨c, hc, hne⟩ := (Option.any_eq_true _ _).1 (hall q h)
  obtain ⟨cs, hcs⟩ := List.head?_eq_some_iff.1 hc
  exact ⟨c, cs, hcs, of_decide_eq_true hne⟩

/-- The root comes first; the tones above it begin two semitones up. -/
theorem exists_intervals_eq_cons {q : Quality} (h : q ∈ all) :
    ∃ rest, q.intervals = 0 :: rest ∧ q.top ∈ rest ∧ ∀ i ∈ rest, 2 ≤ i ∧ i ≤ q.top := by
  have hall : ∀ q ∈ all, q.intervals.head? = some 0 ∧ q.top ∈ q.intervals.tail ∧
      ∀ i ∈ q.intervals.tail, 2 ≤ i ∧ i ≤ q.top := by decide +kernel
  obtain ⟨hhead, htail⟩ := hall q h
  obtain ⟨rest, hrest⟩ := List.head?_eq_some_iff.1 hhead
  rw [hrest, List.tail_cons] at htail
  exact ⟨rest, hrest, htail⟩

end Quality

namespace ChordName

/-! ## Names -/

/-- The text of a name, cut into its parts. -/
structure Spelled (cs : List Char) (name : ChordName) (c : Char) (suffix : List Char) : Prop where
  split : cs = c :: (name.root.accidental.symbol ++ (name.quality.name.toList ++ suffix))
  letter : name.root.letter.IsWritten c
  quality : name.quality ∈ Quality.all
  octave : suffix = [] ∧ name.root.octave = 4 ∨ suffix = ['-', Nat.digitChar name.root.octave]

theorem splitOctave_digit (cs : List Char) (octave : Fin 10) :
    splitOctave (cs ++ ['-', Nat.digitChar octave]) = (cs, octave) := by
  simp [splitOctave, (octave?_eq_some_iff _ octave).2 rfl]

theorem splitOctave_of_not_mem {cs : List Char} (h : '-' ∉ cs) : splitOctave cs = (cs, 4) := by
  unfold splitOctave
  split
  · rename_i d name hname
    have hmem : '-' ∈ cs.reverse := by rw [hname]; simp
    exact absurd (List.mem_reverse.1 hmem) h
  · rfl

theorem exists_suffix_of_splitOctave {cs rest : List Char} {octave : Fin 10}
    (h : splitOctave cs = (rest, octave)) :
    ∃ suffix, cs = rest ++ suffix ∧
      (suffix = [] ∧ octave = 4 ∨ suffix = ['-', Nat.digitChar octave]) := by
  unfold splitOctave at h
  split at h
  · rename_i d name hname
    split at h
    · rename_i o hd
      cases h
      obtain rfl := (octave?_eq_some_iff _ _).1 hd
      refine ⟨['-', Nat.digitChar octave], ?_, .inr rfl⟩
      rw [← List.reverse_reverse cs, hname]
      simp
    · cases h
      exact ⟨[], (List.append_nil cs).symm, .inl ⟨rfl, rfl⟩⟩
  · cases h
    exact ⟨[], (List.append_nil cs).symm, .inl ⟨rfl, rfl⟩⟩

theorem splitOctave_append {q : Quality} (hq : q ∈ Quality.all) {suffix : List Char}
    {octave : Fin 10} (h : suffix = [] ∧ octave = 4 ∨ suffix = ['-', Nat.digitChar octave]) :
    splitOctave (q.name.toList ++ suffix) = (q.name.toList, octave) := by
  rcases h with ⟨rfl, rfl⟩ | rfl
  · rw [List.append_nil, splitOctave_of_not_mem (Quality.hyphen_not_mem_name hq)]
  · exact splitOctave_digit _ _

theorem ofChars?_of_spelled {cs suffix : List Char} {name : ChordName} {c : Char}
    (h : Spelled cs name c suffix) : ofChars? cs = some name := by
  obtain ⟨rfl, hletter, hq, hoctave⟩ := h
  obtain ⟨⟨letter, accidental, octave⟩, quality⟩ := name
  obtain ⟨d, ds, hname, hsharp, hflat⟩ := Quality.exists_name_eq_cons hq
  have htake : Accidental.take (accidental.symbol ++ (quality.name.toList ++ suffix)) =
      (accidental, quality.name.toList ++ suffix) := by
    rw [hname]
    exact Accidental.take_symbol accidental _ hsharp hflat
  have hfound : Quality.ofName? quality.name = some quality :=
    (Quality.ofName?_eq_some_iff _ _).2 ⟨hq, rfl⟩
  simp [ofChars?, (Letter.ofChar?_eq_some_iff _ _).2 hletter, htake,
    splitOctave_append hq hoctave, hfound]

theorem spelled_of_ofChars? {cs : List Char} {name : ChordName} (h : ofChars? cs = some name) :
    ∃ c suffix, Spelled cs name c suffix := by
  cases cs with
  | nil => cases h
  | cons c cs =>
    obtain ⟨accidental, rest, htake⟩ : ∃ a rest, Accidental.take cs = (a, rest) := ⟨_, _, rfl⟩
    obtain ⟨text, octave, hcut⟩ : ∃ text o, splitOctave rest = (text, o) := ⟨_, _, rfl⟩
    simp only [ofChars?, htake, hcut, Option.bind_eq_bind, Option.bind_eq_some_iff] at h
    obtain ⟨letter, hletter, quality, hquality, hname⟩ := h
    cases hname
    obtain ⟨suffix, rfl, hoctave⟩ := exists_suffix_of_splitOctave hcut
    obtain ⟨hq, hqname⟩ := (Quality.ofName?_eq_some_iff _ _).1 hquality
    refine ⟨c, suffix, ?_, (Letter.ofChar?_eq_some_iff _ _).1 hletter, hq, hoctave⟩
    rw [Accidental.eq_symbol_of_take htake, hqname, String.toList_ofList]

theorem ofChars?_eq_some_iff (cs : List Char) (name : ChordName) :
    ofChars? cs = some name ↔ ∃ c suffix, Spelled cs name c suffix :=
  ⟨spelled_of_ofChars?, fun ⟨_, _, h⟩ => ofChars?_of_spelled h⟩

theorem Spelled.unique {cs suffix suffix' : List Char} {name name' : ChordName} {c c' : Char}
    (h : Spelled cs name c suffix) (h' : Spelled cs name' c' suffix') :
    name' = name ∧ c' = c ∧ suffix' = suffix := by
  have hname : some name' = some name :=
    (ofChars?_of_spelled h').symm.trans (ofChars?_of_spelled h)
  obtain rfl := Option.some.inj hname
  obtain ⟨hc, hrest⟩ := List.cons.inj (h'.split.symm.trans h.split)
  exact ⟨rfl, hc, List.append_cancel_left (List.append_cancel_left hrest)⟩

/-! ## Tones -/

theorem tone?_of_pos {i : Nat} (h : 0 < i) (name : ChordName) :
    name.tone? i = (Pitch.ofMidi name.spelling (name.root.midi + i)).toOption := by
  rw [tone?, if_neg (by omega), Pitch.transpose]

theorem toOption_eq_some_iff {ε α : Type} (x : Except ε α) (a : α) :
    x.toOption = some a ↔ x = .ok a := by
  cases x <;> simp [Except.toOption]

theorem midi_of_tone? {name : ChordName} {i : Nat} {p : Pitch} (h : name.tone? i = some p) :
    p.midi = name.root.midi + i := by
  by_cases hi : i = 0
  · subst hi
    cases h
    simp
  · rw [tone?_of_pos (by omega), toOption_eq_some_iff] at h
    exact Pitch.midi_ofMidi h

/-- Flat roots and F take flats. -/
theorem spelling_accidental (name : ChordName) :
    name.spelling.accidental =
      if name.root.accidental = .flat ∨ name.root.letter = .f ∧ name.root.accidental = .natural
      then .flat else .sharp := by
  obtain ⟨⟨letter, accidental, octave⟩, quality⟩ := name
  cases letter <;> cases accidental <;> rfl

theorem accidental_of_tone? {name : ChordName} {i : Nat} {p : Pitch} (hi : 0 < i)
    (h : name.tone? i = some p) :
    p.accidental = .natural ∨ p.accidental = name.spelling.accidental := by
  rw [tone?_of_pos hi, toOption_eq_some_iff] at h
  exact Pitch.accidental_of_ofMidi h

/-- The tones of a chord: the root as it is written, and above it the
intervals, spelled in flats for flat roots and for F, and in sharps otherwise. -/
structure Sounds (name : ChordName) (ps : List Pitch) : Prop where
  length : ps.length = name.quality.intervals.length
  root : ps.head? = some name.root
  midi : ∀ (k i : Nat) (p : Pitch), name.quality.intervals[k]? = some i → ps[k]? = some p →
    p.midi = name.root.midi + i
  accidental : ∀ p ∈ ps.tail, p.accidental = .natural ∨ p.accidental =
    if name.root.accidental = .flat ∨ name.root.letter = .f ∧ name.root.accidental = .natural
    then .flat else .sharp

theorem exists_pitches?_iff {name : ChordName} (hq : name.quality ∈ Quality.all) :
    (∃ ps, name.pitches? = some ps) ↔ name.root.midi + name.quality.top ≤ 131 := by
  obtain ⟨rest, hrest, htop, htwo⟩ := Quality.exists_intervals_eq_cons hq
  have hlow := name.root.midi_bounds.1
  have htone : ∀ i ∈ rest, (∃ p, name.tone? i = some p) ↔ name.root.midi + i ≤ 131 := by
    intro i hi
    have htwo := htwo i hi
    simp only [tone?_of_pos (show 0 < i by omega), toOption_eq_some_iff, Pitch.exists_ofMidi_iff]
    omega
  rw [pitches?, hrest, exists_mapM_iff, List.forall_mem_cons]
  constructor
  · rintro ⟨-, h⟩
    exact (htone _ htop).1 (h _ htop)
  · intro h
    refine ⟨⟨name.root, rfl⟩, fun i hi => (htone i hi).2 ?_⟩
    have hle := (htwo i hi).2
    omega

theorem sounds_of_pitches? {name : ChordName} (hq : name.quality ∈ Quality.all) {ps : List Pitch}
    (h : name.pitches? = some ps) : Sounds name ps := by
  have htones := (mapM_eq_some_iff_forall₂ _ _ _).1 h
  obtain ⟨hlen, hget⟩ := List.forall₂_iff_get.1 htones
  obtain ⟨rest, hrest, -, htwo⟩ := Quality.exists_intervals_eq_cons hq
  refine ⟨hlen.symm, ?_, fun k i p hi hp => ?_, fun p hp => ?_⟩
  · rw [hrest, List.forall₂_cons_left_iff] at htones
    obtain ⟨p, above, hroot, -, rfl⟩ := htones
    rw [List.head?_cons, ← hroot]
    rfl
  · obtain ⟨hk, rfl⟩ := List.getElem?_eq_some_iff.1 hi
    obtain ⟨hk', rfl⟩ := List.getElem?_eq_some_iff.1 hp
    exact midi_of_tone? (hget k hk hk')
  · rw [hrest, List.forall₂_cons_left_iff] at htones
    obtain ⟨_, above, -, habove, rfl⟩ := htones
    obtain ⟨i, hi, htone⟩ : ∃ i ∈ rest, name.tone? i = some p := by
      obtain ⟨k, hk, rfl⟩ := List.mem_iff_getElem.1 hp
      obtain ⟨hlen, hget⟩ := List.forall₂_iff_get.1 habove
      have hk' : k < rest.length := hlen ▸ hk
      exact ⟨rest[k], List.getElem_mem _, hget k hk' hk⟩
    have htwo := htwo i hi
    rw [← spelling_accidental]
    exact accidental_of_tone? (by omega) htone

/-- **The dictionary of chords.** A text names a chord just if it can be cut
into a letter, an accidental or none, a quality, and a hyphen with a digit or
nothing for octave 4, and if the highest tone is at most 131. It can be cut in
one way only, and the chord sounds as its parts say. -/
theorem standardChords_iff_spelled (text : String) :
    ((∃ ps, standardChords text = some ps) ↔
      ∃ name c suffix, Spelled text.toList name c suffix ∧
        name.root.midi + name.quality.top ≤ 131) ∧
      (∀ name name' c c' suffix suffix', Spelled text.toList name c suffix →
        Spelled text.toList name' c' suffix' → name' = name ∧ c' = c ∧ suffix' = suffix) ∧
      ∀ name c suffix ps, Spelled text.toList name c suffix → standardChords text = some ps →
        Sounds name ps := by
  refine ⟨?_, fun _ _ _ _ _ _ h h' => h.unique h', fun name c suffix ps h hps => ?_⟩
  · constructor
    · rintro ⟨ps, h⟩
      obtain ⟨name, hname, hps⟩ := Option.bind_eq_some_iff.1 h
      obtain ⟨c, suffix, hspelled⟩ := (ofChars?_eq_some_iff _ _).1 hname
      exact ⟨name, c, suffix, hspelled, (exists_pitches?_iff hspelled.quality).1 ⟨ps, hps⟩⟩
    · rintro ⟨name, c, suffix, hspelled, hle⟩
      obtain ⟨ps, hps⟩ := (exists_pitches?_iff hspelled.quality).2 hle
      exact ⟨ps, Option.bind_eq_some_iff.2 ⟨name, ofChars?_of_spelled hspelled, hps⟩⟩
  · rw [standardChords, ofChars?_of_spelled h] at hps
    exact sounds_of_pitches? h.quality hps

example : (standardChords "e5-9").isSome ∧ standardChords "f5-9" = none := by decide +kernel

end ChordName

end RhythmClip
