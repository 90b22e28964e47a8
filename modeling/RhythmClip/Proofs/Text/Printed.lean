import RhythmClip.Proofs.Text.Words
import RhythmClip.Text.Column
import RhythmClip.Text.Lines

/-!
# Printed text

What is printed in columns is made of graphic ASCII characters and spaces. So
it holds no line break and no control character, and the blanks in it are its
spaces. Filling up a cell adds spaces and nothing else.

* `alignRight_eq`, `alignLeft_eq`: a cell is its text with a gap on one side.
* `IsPrinted.intercalate`: texts with a separator between them.
* `words_intercalate`, `lines_intercalate`: such texts are taken apart again.
* `isWord_decimal`, `isWord_decimalInt`: numbers are words.
-/
namespace RhythmClip.Text

/-- The characters of ASCII that leave ink. -/
def isGraphic (c : Char) : Bool := 0x20 < c.toNat && c.toNat < 0x7f

/-- Nothing but graphic characters and spaces. -/
def IsPrinted (s : String) : Prop := ∀ c ∈ s.toList, c = ' ' ∨ isGraphic c = true

/-- Graphic characters, and at least one. -/
structure IsWord (s : String) : Prop where
  ne_empty : s ≠ ""
  graphic : ∀ c ∈ s.toList, isGraphic c = true

instance (s : String) : Decidable (IsPrinted s) :=
  List.decidableBAll (fun c => c = ' ' ∨ isGraphic c = true) s.toList

instance (s : String) : Decidable (IsWord s) :=
  decidable_of_iff (s ≠ "" ∧ s.toList.all isGraphic = true)
    ⟨fun h => ⟨h.1, List.all_eq_true.1 h.2⟩, fun h => ⟨h.1, List.all_eq_true.2 h.graphic⟩⟩

/-! ## Characters -/

theorem isGraphic_of_isDigit {c : Char} (h : c.isDigit = true) : isGraphic c = true := by
  simp only [Char.isDigit, Bool.and_eq_true, decide_eq_true_eq, UInt32.le_iff_toNat_le] at h
  have hr : 48 ≤ c.toNat ∧ c.toNat ≤ 57 := h
  simp only [isGraphic, Bool.and_eq_true, decide_eq_true_eq]
  omega

theorem not_isBlank_of_isGraphic {c : Char} (h : isGraphic c = true) : isBlank c = false := by
  simp only [isGraphic, Bool.and_eq_true, decide_eq_true_eq] at h
  simp only [isBlank, blankRanges, List.any_cons, List.any_nil, Bool.or_false, Bool.or_eq_false_iff,
    Bool.and_eq_false_iff, decide_eq_false_iff_not]
  omega

theorem IsWord.noBlank {s : String} (h : IsWord s) : NoBlank s := fun c hc =>
  not_isBlank_of_isGraphic (h.graphic c hc)

theorem IsWord.isPrinted {s : String} (h : IsWord s) : IsPrinted s := fun c hc =>
  .inr (h.graphic c hc)

theorem IsWord.append {s t : String} (hs : IsWord s) (ht : IsWord t) : IsWord (s ++ t) where
  ne_empty := by simp [hs.ne_empty]
  graphic c hc := by
    rw [String.toList_append, List.mem_append] at hc
    exact hc.elim (hs.graphic c) (ht.graphic c)

/-! ## Texts -/

theorem IsPrinted.append {s t : String} (hs : IsPrinted s) (ht : IsPrinted t) :
    IsPrinted (s ++ t) := by
  intro c hc
  rw [String.toList_append, List.mem_append] at hc
  exact hc.elim (hs c) (ht c)

theorem forall_mem_intercalate {P : Char → Prop} {sep : List Char} {parts : List (List Char)}
    (hsep : ∀ c ∈ sep, P c) (hparts : ∀ part ∈ parts, ∀ c ∈ part, P c) :
    ∀ c ∈ sep.intercalate parts, P c := by
  induction parts with
  | nil => exact List.forall_mem_nil _
  | cons first parts ih =>
    obtain ⟨hfirst, hlater⟩ := List.forall_mem_cons.1 hparts
    cases parts with
    | nil => rwa [List.intercalate_singleton]
    | cons next parts =>
      rw [List.intercalate_cons_cons, List.forall_mem_append, List.forall_mem_append]
      exact ⟨⟨hfirst, hsep⟩, ih hlater⟩

theorem mem_intercalate (sep : List Char) {part : List Char} {parts : List (List Char)} {c : Char}
    (h : part ∈ parts) (hc : c ∈ part) : c ∈ sep.intercalate parts := by
  induction parts with
  | nil => cases h
  | cons first parts ih =>
    cases parts with
    | nil =>
      rw [List.intercalate_singleton]
      exact List.mem_singleton.1 h ▸ hc
    | cons next parts =>
      rw [List.intercalate_cons_cons, List.mem_append]
      rcases List.mem_cons.1 h with rfl | h
      · exact .inl (List.mem_append_left _ hc)
      · exact .inr (ih h)

theorem IsPrinted.intercalate {sep : String} (hsep : IsPrinted sep) {parts : List String}
    (hparts : ∀ part ∈ parts, IsPrinted part) : IsPrinted (String.intercalate sep parts) := by
  rw [IsPrinted, String.toList_intercalate]
  exact forall_mem_intercalate hsep (List.forall_mem_map.2 hparts)

theorem words_intercalate {parts : List String} (h : ∀ part ∈ parts, IsWord part) :
    words (String.intercalate " " parts) = parts := by
  induction parts with
  | nil => rfl
  | cons first parts ih =>
    obtain ⟨hfirst, hlater⟩ := List.forall_mem_cons.1 h
    cases parts with
    | nil => rw [String.intercalate_singleton, words_single hfirst.ne_empty hfirst.noBlank]
    | cons next parts =>
      rw [String.intercalate_cons_cons, words_append_space hfirst.ne_empty hfirst.noBlank,
        ih hlater]

theorem IsPrinted.not_mem_newline {s : String} (h : IsPrinted s) : '\n' ∉ s.toList := by
  intro hmem
  exact absurd (h '\n' hmem) (by decide)

theorem lines_intercalate {parts : List String} (hne : parts ≠ [])
    (h : ∀ part ∈ parts, '\n' ∉ part.toList) :
    lines (String.intercalate "\n" parts) = parts := by
  have hsplit : (['\n'].intercalate (parts.map String.toList)).splitOn '\n' =
      parts.map String.toList :=
    List.splitOn_intercalate '\n' (List.forall_mem_map.2 h) (by simpa)
  have hnewline : "\n".toList = ['\n'] := rfl
  rw [lines, String.toList_intercalate, hnewline, hsplit, List.map_map]
  simp [Function.comp_def]

/-! ## Numbers -/

theorem isWord_decimal (n : Nat) : IsWord (decimal n) where
  ne_empty h := by
    have hread := natural?_decimal n
    rw [h] at hread
    cases hread
  graphic c hc := by
    rw [decimal, String.toList_ofList] at hc
    exact isGraphic_of_isDigit (Nat.isDigit_of_mem_toDigits (by decide) (by decide) hc)

theorem isWord_decimalInt (z : Int) : IsWord (decimalInt z) := by
  cases z with
  | ofNat n => exact isWord_decimal n
  | negSucc n => exact IsWord.append (by decide) (isWord_decimal (n + 1))

/-! ## Cells -/

/-- A text of spaces. -/
def IsGap (s : String) : Prop := ∀ c ∈ s.toList, c = ' '

instance (s : String) : Decidable (IsGap s) := List.decidableBAll (· = ' ') s.toList

theorem IsGap.append {s t : String} (hs : IsGap s) (ht : IsGap t) : IsGap (s ++ t) := by
  intro c hc
  rw [String.toList_append, List.mem_append] at hc
  exact hc.elim (hs c) (ht c)

theorem IsGap.allBlank {s : String} (h : IsGap s) : AllBlank s := by
  intro c hc
  rw [h c hc]
  decide

theorem IsGap.isPrinted {s : String} (h : IsGap s) : IsPrinted s := fun c hc => .inl (h c hc)

theorem alignRight_eq (width : Nat) (s : String) :
    ∃ gap, IsGap gap ∧ alignRight width s = gap ++ s := by
  refine ⟨String.ofList (List.replicate (width - s.toList.length) ' '), ?_, ?_⟩
  · intro c hc
    rw [String.toList_ofList] at hc
    exact List.eq_of_mem_replicate hc
  · rw [alignRight, List.leftpad, String.ofList_append, String.ofList_toList]

theorem alignLeft_eq (width : Nat) (s : String) :
    ∃ gap, IsGap gap ∧ alignLeft width s = s ++ gap := by
  refine ⟨String.ofList (List.replicate (width - s.toList.length) ' '), ?_, ?_⟩
  · intro c hc
    rw [String.toList_ofList] at hc
    exact List.eq_of_mem_replicate hc
  · rw [alignLeft, List.rightpad, String.ofList_append, String.ofList_toList]

theorem IsPrinted.alignRight {s : String} (h : IsPrinted s) (width : Nat) :
    IsPrinted (alignRight width s) := by
  obtain ⟨gap, hgap, heq⟩ := alignRight_eq width s
  rw [heq]
  exact hgap.isPrinted.append h

theorem IsPrinted.alignLeft {s : String} (h : IsPrinted s) (width : Nat) :
    IsPrinted (alignLeft width s) := by
  obtain ⟨gap, hgap, heq⟩ := alignLeft_eq width s
  rw [heq]
  exact h.append hgap.isPrinted

end RhythmClip.Text
