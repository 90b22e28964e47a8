import RhythmClip.Proofs.Text.Blank

/-!
# Words between blanks

The words of a text are cut out wherever there are blanks, of whatever kind
and however many, so a text of words with blanks between them has these words.
Before the first and behind the last there may be blanks or none.

* `words_spread`: the words of words that are spread out.
* `mem_of_mem_words`: a word has only characters of the text.
* `words_eq_nil_iff`: a text has no words if it is all blank.
-/
namespace RhythmClip.Text

/-- There is nothing but blanks in the text. -/
def AllBlank (s : String) : Prop := ∀ c ∈ s.toList, isBlank c = true

instance (s : String) : Decidable (AllBlank s) :=
  List.decidableBAll (isBlank · = true) s.toList

/-- Words one after the other, each with the gap behind it. -/
def spread : List (String × String) → String
  | [] => ""
  | (word, gap) :: parts => word ++ gap ++ spread parts

/-- The words are words, and blanks keep them apart. -/
structure IsSpread (parts : List (String × String)) : Prop where
  word : ∀ part ∈ parts, part.1 ≠ "" ∧ NoBlank part.1
  gap : ∀ part ∈ parts, AllBlank part.2
  apart : ∀ part ∈ parts.dropLast, part.2 ≠ ""

theorem wordChars_append_of_blank {gap : List Char} (h : ∀ c ∈ gap, isBlank c = true)
    (cs : List Char) : wordChars (gap ++ cs) = wordChars cs := by
  induction gap with
  | nil => rfl
  | cons c gap ih =>
    obtain ⟨hc, hgap⟩ := List.forall_mem_cons.1 h
    rw [List.cons_append, wordChars_cons_of_isBlank hc, ih hgap]

theorem words_append_of_allBlank {gap : String} (h : AllBlank gap) (s : String) :
    words (gap ++ s) = words s := by
  rw [words, String.toList_append, wordChars_append_of_blank h, words]

theorem words_append_gap {word gap : String} (hne : word ≠ "") (hw : NoBlank word)
    (hgap : AllBlank gap) (hapart : gap ≠ "") (s : String) :
    words (word ++ gap ++ s) = word :: words s := by
  cases hcs : gap.toList with
  | nil => exact absurd hcs (toList_ne_nil hapart)
  | cons b cs =>
    rw [AllBlank, hcs, List.forall_mem_cons] at hgap
    have hlist : (word ++ gap ++ s).toList = word.toList ++ b :: (cs ++ s.toList) := by simp [hcs]
    rw [words, hlist, wordChars_append_blank (toList_ne_nil hne) hw hgap.1,
      wordChars_append_of_blank hgap.2, List.map_cons, String.ofList_toList]
    rfl

theorem words_append_of_end {word gap : String} (hne : word ≠ "") (hw : NoBlank word)
    (hgap : AllBlank gap) : words (word ++ gap) = [word] := by
  by_cases hapart : gap = ""
  · rw [hapart, String.append_empty, words_single hne hw]
  · have h := words_append_gap hne hw hgap hapart ""
    rwa [String.append_empty] at h

theorem words_spread {parts : List (String × String)} (h : IsSpread parts) :
    words (spread parts) = parts.map Prod.fst := by
  induction parts with
  | nil => rfl
  | cons part parts ih =>
    obtain ⟨⟨hne, hw⟩, hwords⟩ := List.forall_mem_cons.1 h.word
    obtain ⟨hgap, hgaps⟩ := List.forall_mem_cons.1 h.gap
    cases parts with
    | nil =>
      rw [spread, spread, String.append_empty, words_append_of_end hne hw hgap]
      rfl
    | cons next parts =>
      have hapart := h.apart
      rw [List.dropLast_cons_of_ne_nil (List.cons_ne_nil next parts), List.forall_mem_cons] at hapart
      rw [spread, words_append_gap hne hw hgap hapart.1, ih ⟨hwords, hgaps, hapart.2⟩]
      rfl

theorem mem_close {word w : List Char} {later : List (List Char)} (h : w ∈ close word later) :
    w = word ∨ w ∈ later := by
  unfold close at h
  split at h
  · exact .inr h
  · exact List.mem_cons.1 h

/-- Scanning adds no character. -/
theorem mem_of_mem_wordScan (cs : List Char) :
    ∀ w ∈ (wordScan cs).1 :: (wordScan cs).2, ∀ c ∈ w, c ∈ cs := by
  induction cs with
  | nil =>
    intro w hw c hc
    obtain rfl := List.mem_singleton.1 hw
    exact hc
  | cons d cs ih =>
    have hrest : ∀ w ∈ (wordScan cs).1 :: (wordScan cs).2, ∀ c ∈ w, c ∈ d :: cs :=
      fun w hw c hc => List.mem_cons_of_mem d (ih w hw c hc)
    simp only [wordScan]
    split
    · rw [List.forall_mem_cons]
      exact ⟨List.forall_mem_nil _, fun w hw => hrest w (List.mem_cons.2 (mem_close hw))⟩
    · rw [List.forall_mem_cons] at hrest ⊢
      refine ⟨fun c hc => ?_, hrest.2⟩
      rcases List.mem_cons.1 hc with rfl | hc
      · exact List.mem_cons_self
      · exact hrest.1 c hc

theorem mem_of_mem_words {s word : String} (h : word ∈ words s) {c : Char}
    (hc : c ∈ word.toList) : c ∈ s.toList := by
  obtain ⟨w, hw, rfl⟩ := List.mem_map.1 h
  rw [String.toList_ofList] at hc
  exact mem_of_mem_wordScan s.toList w (List.mem_cons.2 (mem_close hw)) c hc

theorem wordChars_eq_nil_iff (cs : List Char) :
    wordChars cs = [] ↔ ∀ c ∈ cs, isBlank c = true := by
  induction cs with
  | nil => simp [wordChars, wordScan, close]
  | cons c cs ih =>
    rw [List.forall_mem_cons]
    cases hc : isBlank c with
    | true => simp [wordChars_cons_of_isBlank hc, ih]
    | false => simp [wordChars, wordScan, hc, close]

theorem words_eq_nil_iff (s : String) : words s = [] ↔ AllBlank s := by
  rw [words, List.map_eq_nil_iff, wordChars_eq_nil_iff, AllBlank]

end RhythmClip.Text
