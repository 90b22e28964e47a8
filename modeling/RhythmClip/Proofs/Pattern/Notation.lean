import RhythmClip.Pattern.Reader

/-!
# Notation and patterns

Reading and writing pattern notation are inverse to each other. The reader is
a machine with a stack of open brackets, so what it has read so far is spread
over the frames: `openSymbols` puts it back together, and `Reading` says that
no group in it is empty. Both are kept by every symbol.

* `readRow_eq_ok`: a row that is read has the symbols that were read.
* `readChars_eq_ok_iff`: a text is read as a row just if it is the notation of
  the row, which has a slot and no empty group.
* `isRow_iff`: the texts of such rows are those of the grammar
  `S → N+`, `N → x | - | _ | [ S ]`.
* `read_append`, `read_bracketed`: two texts in one, and a text in brackets.
* `read_eq_ok_iff_and_isRow`: reader and grammar together, for strings.
-/
namespace RhythmClip

/-! ## Characters and symbols -/

theorem symbolsFrom_map_char (ss : List Symbol) (offset : Nat) :
    symbolsFrom offset (ss.map Symbol.char) = .ok ss := by
  induction ss generalizing offset with
  | nil => rfl
  | cons s ss ih => simp only [List.map_cons, symbolsFrom, Symbol.ofChar?_char, ih]; rfl

theorem map_char_of_symbolsFrom {cs : List Char} {offset : Nat} {ss : List Symbol}
    (h : symbolsFrom offset cs = .ok ss) : ss.map Symbol.char = cs := by
  induction cs generalizing offset ss with
  | nil => cases h; rfl
  | cons c cs ih =>
    simp only [symbolsFrom] at h
    cases hc : Symbol.ofChar? c with
    | none => rw [hc] at h; cases h
    | some s =>
      rw [hc] at h
      cases hr : symbolsFrom (offset + c.utf8Size) cs with
      | error e => simp only [hr] at h; cases h
      | ok rest =>
        simp only [hr] at h
        cases h
        rw [List.map_cons, Symbol.char_of_ofChar? hc, ih hr]

namespace Pattern

theorem ne_nil_of_symbols {p : Pattern} (h : p.symbols ≠ []) : p ≠ nil := by
  intro e
  rw [e] at h
  exact h rfl

theorem symbols_ne_nil {p : Pattern} (h : p ≠ nil) : p.symbols ≠ [] := by
  cases p with
  | nil => exact absurd rfl h
  | mark m p => simp [symbols]
  | group i p => simp [symbols]

theorem append_ne_nil {p : Pattern} (h : p ≠ nil) (q : Pattern) : p ++ q ≠ nil := by
  cases p with
  | nil => exact absurd rfl h
  | mark m p => simp
  | group i p => simp

/-! ## The reader on its stack -/

/-- What has been read in front of the innermost open row. -/
def openSymbols : List Frame → List Symbol
  | [] => []
  | f :: outer => openSymbols outer ++ f.before.reverse.symbols ++ [.opening]

/-- No group that has been closed so far is empty. -/
def Reading (current : Pattern) (frames : List Frame) : Prop :=
  current.NoEmptyGroup ∧ ∀ f ∈ frames, f.before.NoEmptyGroup

theorem reading_nil : Reading nil [] := ⟨trivial, fun f hf => by cases hf⟩

theorem reading_mark {current : Pattern} {frames : List Frame} (m : Mark)
    (h : Reading current frames) : Reading (mark m current) frames := h

theorem reading_opening {current : Pattern} {frames : List Frame} (offset : Nat)
    (h : Reading current frames) : Reading nil (⟨offset, current⟩ :: frames) := by
  refine ⟨trivial, fun f hf => ?_⟩
  rcases List.mem_cons.1 hf with rfl | hf
  · exact h.1
  · exact h.2 f hf

theorem reading_closing {current : Pattern} {frame : Frame} {outer : List Frame}
    (hne : current ≠ nil) (h : Reading current (frame :: outer)) :
    Reading (group current.reverse frame.before) outer :=
  ⟨⟨reverse_ne_nil hne, noEmptyGroup_reverse h.1, h.2 frame (List.mem_cons_self ..)⟩,
    fun f hf => h.2 f (List.mem_cons_of_mem _ hf)⟩

theorem readRow_eq_ok {ss : List Symbol} {current p : Pattern} {frames : List Frame} {offset : Nat}
    (hr : Reading current frames) (h : readRow current frames offset ss = .ok p) :
    p.NoEmptyGroup ∧ p.symbols = openSymbols frames ++ current.reverse.symbols ++ ss := by
  -- on the symbols still to come; each of them changes the row or the frames
  induction ss generalizing current frames offset with
  | nil =>
    cases frames with
    | nil =>
      cases h
      exact ⟨noEmptyGroup_reverse hr.1, by simp [openSymbols]⟩
    | cons frame outer => cases h
  | cons s ss ih =>
    cases s with
    | mark m =>
      obtain ⟨hp, hs⟩ := ih (reading_mark m hr) h
      refine ⟨hp, ?_⟩
      rw [hs, reverse_mark, symbols_append]
      simp [symbols]
    | opening =>
      obtain ⟨hp, hs⟩ := ih (reading_opening offset hr) h
      refine ⟨hp, ?_⟩
      rw [hs]
      simp [openSymbols, symbols]
    | closing =>
      cases frames with
      | nil => cases h
      | cons frame outer =>
        simp only [readRow] at h
        split at h
        · cases h
        · rename_i hne
          obtain ⟨hp, hs⟩ := ih (reading_closing hne hr) h
          refine ⟨hp, ?_⟩
          rw [hs, reverse_group, symbols_append]
          simp [openSymbols, symbols]

/-! ## Texts -/

/-- The two stages of reading: characters first, then brackets. -/
theorem readChars_eq (cs : List Char) :
    readChars cs =
      match symbolsFrom 0 cs with
      | .error e => .error e
      | .ok ss => if ss = [] then .error .empty else readRow nil [] 0 ss := by
  unfold readChars
  cases symbolsFrom 0 cs with
  | error e => rfl
  | ok ss => cases ss <;> rfl

theorem readChars_symbols {p : Pattern} (hne : p ≠ nil) (hp : p.NoEmptyGroup) :
    readChars (p.symbols.map Symbol.char) = .ok p := by
  rw [readChars_eq, symbolsFrom_map_char]
  simp only [symbols_ne_nil hne, if_false]
  have h := readRow_symbols p hp nil [] 0 []
  rw [List.append_nil] at h
  rw [h, reverseOnto_eq, append_nil]
  simp [readRow]

theorem readChars_eq_ok_iff (cs : List Char) (p : Pattern) :
    readChars cs = .ok p ↔ p ≠ nil ∧ p.NoEmptyGroup ∧ p.symbols.map Symbol.char = cs := by
  constructor
  · intro h
    rw [readChars_eq] at h
    split at h
    · cases h
    · rename_i ss hss
      split at h
      · cases h
      · rename_i hne
        obtain ⟨hp, hs⟩ := readRow_eq_ok reading_nil h
        simp only [openSymbols, reverse_nil, symbols, List.nil_append] at hs
        refine ⟨ne_nil_of_symbols (by rwa [hs]), hp, ?_⟩
        rw [hs, map_char_of_symbolsFrom hss]
  · rintro ⟨hne, hp, rfl⟩
    exact readChars_symbols hne hp

theorem text_eq_iff (p : Pattern) (s : String) :
    p.text = s ↔ p.symbols.map Symbol.char = s.toList := by
  unfold text
  constructor
  · rintro rfl; simp
  · intro h; simp [h]

theorem read_eq_ok_iff (s : String) (p : Pattern) :
    read s = .ok p ↔ p ≠ nil ∧ p.NoEmptyGroup ∧ p.text = s := by
  rw [text_eq_iff, ← readChars_eq_ok_iff]
  unfold read
  cases readChars s.toList with
  | error e =>
    constructor
    · intro h; cases h
    · intro h; cases h
  | ok q =>
    constructor
    · intro h; cases h; rfl
    · intro h; cases h; rfl

theorem text_append (p q : Pattern) : (p ++ q).text = p.text ++ q.text := by
  rw [text, symbols_append, List.map_append, String.ofList_append, text, text]

theorem text_group (p : Pattern) : (group p nil).text = "[" ++ p.text ++ "]" := by
  have hsymbols : (group p nil).symbols = [.opening] ++ p.symbols ++ [.closing] := rfl
  rw [text, hsymbols, List.map_append, List.map_append, String.ofList_append, String.ofList_append,
    text]
  rfl

theorem read_append {s t : String} {p q : Pattern} (hp : read s = .ok p) (hq : read t = .ok q) :
    read (s ++ t) = .ok (p ++ q) := by
  rw [read_eq_ok_iff] at hp hq ⊢
  obtain ⟨hpne, hpg, rfl⟩ := hp
  obtain ⟨-, hqg, rfl⟩ := hq
  exact ⟨append_ne_nil hpne q, (noEmptyGroup_append p q).2 ⟨hpg, hqg⟩, text_append p q⟩

/-- The text of a row in brackets is read as a row of one slot. -/
theorem read_bracketed {s : String} {p : Pattern} (hp : read s = .ok p) :
    read ("[" ++ s ++ "]") = .ok (group p nil) := by
  rw [read_eq_ok_iff] at hp ⊢
  obtain ⟨hne, hg, rfl⟩ := hp
  exact ⟨by simp, ⟨hne, hg, trivial⟩, text_group p⟩

/-! ## The grammar -/

mutual

/-- `S → N+` -/
inductive IsRow : List Char → Prop where
  | single {cs : List Char} : IsSlot cs → IsRow cs
  | cons {cs ds : List Char} : IsSlot cs → IsRow ds → IsRow (cs ++ ds)

/-- `N → x | - | _ | [ S ]` -/
inductive IsSlot : List Char → Prop where
  | note : IsSlot ['x']
  | rest : IsSlot ['-']
  | sustain : IsSlot ['_']
  | group {cs : List Char} : IsRow cs → IsSlot ('[' :: (cs ++ [']']))

end

/-- A row with a slot and no empty group, whose notation is the text. -/
def Writes (p : Pattern) (cs : List Char) : Prop :=
  p ≠ nil ∧ p.NoEmptyGroup ∧ p.symbols.map Symbol.char = cs

theorem writes_mark (m : Mark) : Writes (mark m nil) [(Symbol.mark m).char] :=
  ⟨by simp, trivial, rfl⟩

theorem writes_group {p : Pattern} {cs : List Char} (h : Writes p cs) :
    Writes (group p nil) ('[' :: (cs ++ [']'])) := by
  obtain ⟨hne, hp, rfl⟩ := h
  exact ⟨by simp, ⟨hne, hp, trivial⟩, by simp [symbols, Symbol.char]⟩

theorem writes_append {p q : Pattern} {cs ds : List Char} (hp : Writes p cs) (hq : Writes q ds) :
    Writes (p ++ q) (cs ++ ds) := by
  obtain ⟨hpne, hpg, rfl⟩ := hp
  obtain ⟨-, hqg, rfl⟩ := hq
  exact ⟨append_ne_nil hpne q, (noEmptyGroup_append p q).2 ⟨hpg, hqg⟩, by simp⟩

theorem IsRow.writes {cs : List Char} (h : IsRow cs) : ∃ p, Writes p cs := by
  induction h using IsRow.rec (motive_2 := fun cs _ => ∃ p, Writes p cs) with
  | single _ ih => exact ih
  | cons _ _ ihs ihr =>
    obtain ⟨p, hp⟩ := ihs
    obtain ⟨q, hq⟩ := ihr
    exact ⟨p ++ q, writes_append hp hq⟩
  | note => exact ⟨_, writes_mark .note⟩
  | rest => exact ⟨_, writes_mark .rest⟩
  | sustain => exact ⟨_, writes_mark .sustain⟩
  | group _ ih =>
    obtain ⟨p, hp⟩ := ih
    exact ⟨group p nil, writes_group hp⟩

theorem isSlot_mark (m : Mark) : IsSlot [(Symbol.mark m).char] := by
  cases m
  · exact .note
  · exact .rest
  · exact .sustain

theorem isRow_symbols {p : Pattern} (hne : p ≠ nil) (hp : p.NoEmptyGroup) :
    IsRow (p.symbols.map Symbol.char) := by
  induction p with
  | nil => exact absurd rfl hne
  | mark m p ih =>
    by_cases h : p = nil
    · subst h; exact .single (isSlot_mark m)
    · exact .cons (isSlot_mark m) (ih h hp)
  | group i p ihi ih =>
    obtain ⟨hine, hi, hpg⟩ := hp
    have hslot := IsSlot.group (ihi hine hi)
    by_cases h : p = nil
    · subst h; simpa [symbols, Symbol.char] using IsRow.single hslot
    · simpa [symbols, Symbol.char] using IsRow.cons hslot (ih h hpg)

theorem isRow_iff (cs : List Char) : IsRow cs ↔ ∃ p, Writes p cs := by
  constructor
  · exact IsRow.writes
  · rintro ⟨p, hne, hp, rfl⟩
    exact isRow_symbols hne hp

/-- **Reading inverts writing.** A text is read as a row just if the row has a
slot, has no empty group at any depth, and has that text; the texts that can
be read are those of the grammar. A text is always read as the row of its
slots, never as a single slot on its own. -/
theorem read_eq_ok_iff_and_isRow :
    (∀ (s : String) (p : Pattern), read s = .ok p ↔ p ≠ nil ∧ p.NoEmptyGroup ∧ p.text = s) ∧
      (∀ s : String, (∃ p, read s = .ok p) ↔ IsRow s.toList) ∧
      (∀ (s : String) (p : Pattern), read s = .ok p → p.text = s) ∧
      ∀ p : Pattern, p ≠ nil → p.NoEmptyGroup → read p.text = .ok p := by
  refine ⟨read_eq_ok_iff, fun s => ?_, fun s p h => ((read_eq_ok_iff s p).1 h).2.2,
    fun p hne hp => (read_eq_ok_iff p.text p).2 ⟨hne, hp, rfl⟩⟩
  simp only [read_eq_ok_iff, text_eq_iff, isRow_iff, Writes]

end Pattern

end RhythmClip
