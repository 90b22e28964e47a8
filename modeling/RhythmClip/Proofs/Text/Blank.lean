import RhythmClip.Text.Blank
import RhythmClip.Text.Decimal
import Mathlib.Data.List.Basic

/-!
# Trimmed texts, words and typed numbers

A text is trimmed when it neither begins nor ends with a blank. A text without
any blank is a single word, and goes in front of the words that follow it
after a space. Typed numbers have no blanks.

* `trim_eq_self_iff`, `trimmed_trim`: trimming leaves just the trimmed texts alone.
* `words_append_space`: a text without a blank is the first word of a line.
* `byte?_decimal`: a number is typed by its digits.
* `signedByte?_of_byte?`: what is read without a minus sign is read with one allowed.
-/
namespace RhythmClip.Text

theorem toList_ne_nil {s : String} (h : s ≠ "") : s.toList ≠ [] := by
  intro e
  exact h (String.toList_eq_nil_iff.1 e)

/-! ## Trimming -/

/-- Neither end of the text is blank. -/
def Trimmed (s : String) : Prop :=
  (∀ c ∈ s.toList.head?, isBlank c = false) ∧ ∀ c ∈ s.toList.getLast?, isBlank c = false

theorem head?_trimLeft (cs : List Char) : ∀ c ∈ (trimLeft cs).head?, isBlank c = false := by
  induction cs with
  | nil => intro c hc; cases hc
  | cons d ds ih =>
    cases hd : isBlank d with
    | true => rw [trimLeft_cons_of_isBlank hd]; exact ih
    | false =>
      rw [trimLeft_cons_of_not_isBlank hd]
      intro c hc
      cases hc
      exact hd

theorem trimLeft_eq_self {cs : List Char} (h : ∀ c ∈ cs.head?, isBlank c = false) :
    trimLeft cs = cs := by
  cases cs with
  | nil => rfl
  | cons c cs => exact trimLeft_cons_of_not_isBlank (h c rfl) cs

/-- Trimming the end takes nothing away from the front. -/
theorem trimRight_prefix (cs : List Char) : trimRight cs <+: cs := by
  have h : trimLeft cs.reverse <:+ cs.reverse := List.dropWhile_suffix _
  rw [← List.reverse_prefix, List.reverse_reverse] at h
  exact h

theorem mem_of_mem_trim {s : String} {c : Char} (h : c ∈ (trim s).toList) : c ∈ s.toList := by
  rw [trim, String.toList_ofList] at h
  have hfront := trimRight_prefix (trimLeft s.toList)
  exact (List.dropWhile_suffix _).subset (hfront.subset h)

theorem trimmed_trim (s : String) : Trimmed (trim s) := by
  unfold Trimmed trim trimChars
  rw [String.toList_ofList]
  constructor
  · intro c hc
    obtain ⟨rest, hrest⟩ := trimRight_prefix (trimLeft s.toList)
    apply head?_trimLeft s.toList
    rw [← hrest, List.head?_append, Option.mem_def.1 hc]
    rfl
  · intro c hc
    rw [trimRight, List.getLast?_reverse] at hc
    exact head?_trimLeft _ c hc

theorem trim_space (s : String) : trim (" " ++ s) = trim s := by
  have hspace : isBlank ' ' = true := by decide
  rw [trim, trimChars, String.toList_append]
  exact congrArg (fun cs => String.ofList (trimRight cs)) (trimLeft_cons_of_isBlank hspace s.toList)

theorem trim_of_trimmed {s : String} (h : Trimmed s) : trim s = s := by
  have hfront := trimLeft_eq_self h.1
  have hend : trimLeft s.toList.reverse = s.toList.reverse :=
    trimLeft_eq_self (by rw [List.head?_reverse]; exact h.2)
  rw [trim, trimChars, hfront, trimRight, hend, List.reverse_reverse, String.ofList_toList]

theorem trim_eq_self_iff (s : String) : trim s = s ↔ Trimmed s := by
  constructor
  · intro h
    rw [← h]
    exact trimmed_trim s
  · exact trim_of_trimmed

/-- What stands at the two ends decides. -/
theorem trimmed_append {s t : String} (hs : s ≠ "") (ht : t ≠ "") (hsTrim : Trimmed s)
    (htTrim : Trimmed t) (between : String) : Trimmed (s ++ between ++ t) := by
  have hlist : (s ++ between ++ t).toList = s.toList ++ between.toList ++ t.toList := by simp
  constructor
  · intro c hc
    apply hsTrim.1
    rw [hlist, List.append_assoc, List.head?_append_of_ne_nil _ (toList_ne_nil hs)] at hc
    exact hc
  · intro c hc
    apply htTrim.2
    rw [hlist, List.getLast?_append_of_ne_nil _ (toList_ne_nil ht)] at hc
    exact hc

/-! ## Words -/

/-- There is no blank in the text. -/
def NoBlank (s : String) : Prop := ∀ c ∈ s.toList, isBlank c = false

instance (s : String) : Decidable (NoBlank s) :=
  List.decidableBAll (isBlank · = false) s.toList

theorem NoBlank.trimmed {s : String} (h : NoBlank s) : Trimmed s :=
  ⟨fun c hc => h c (List.mem_of_mem_head? hc), fun c hc => h c (List.mem_of_mem_getLast? hc)⟩

theorem wordScan_append {w : List Char} (hw : ∀ c ∈ w, isBlank c = false) (cs : List Char) :
    wordScan (w ++ cs) = (w ++ (wordScan cs).1, (wordScan cs).2) := by
  induction w with
  | nil => rfl
  | cons c w ih =>
    have hc := hw c (List.mem_cons_self ..)
    rw [List.cons_append, wordScan, ih fun d hd => hw d (List.mem_cons_of_mem _ hd)]
    simp [hc]

theorem close_of_ne_nil {w : List Char} (h : w ≠ []) (later : List (List Char)) :
    close w later = w :: later := by
  cases w with
  | nil => exact absurd rfl h
  | cons c w => rfl

theorem wordChars_append_blank {w : List Char} (hne : w ≠ []) (hw : ∀ c ∈ w, isBlank c = false)
    {b : Char} (hb : isBlank b = true) (cs : List Char) :
    wordChars (w ++ b :: cs) = w :: wordChars cs := by
  have hscan : wordScan (b :: cs) = ([], wordChars cs) := by
    rw [wordScan]
    simp [hb, wordChars]
  rw [wordChars, wordScan_append hw, hscan, List.append_nil, close_of_ne_nil hne]

theorem words_append_space {w : String} (hne : w ≠ "") (hw : NoBlank w) (rest : String) :
    words (w ++ " " ++ rest) = w :: words rest := by
  have hspace : isBlank ' ' = true := by decide
  have hlist : (w ++ " " ++ rest).toList = w.toList ++ ' ' :: rest.toList := by simp
  rw [words, hlist, wordChars_append_blank (toList_ne_nil hne) hw hspace, List.map_cons,
    String.ofList_toList]
  rfl

theorem words_single {w : String} (hne : w ≠ "") (hw : NoBlank w) : words w = [w] := by
  have hscan := wordScan_append hw []
  rw [List.append_nil] at hscan
  have hnil : wordScan [] = ([], []) := rfl
  rw [words, wordChars, hscan, hnil, List.append_nil, close_of_ne_nil (toList_ne_nil hne),
    List.map_singleton, String.ofList_toList]

/-! ## Typed numbers -/

theorem not_isBlank_of_isDigit {c : Char} (h : c.isDigit = true) : isBlank c = false := by
  simp only [Char.isDigit, Bool.and_eq_true, decide_eq_true_eq, UInt32.le_iff_toNat_le] at h
  have hr : 48 ≤ c.toNat ∧ c.toNat ≤ 57 := h
  simp only [isBlank, blankRanges, List.any_cons, List.any_nil, Bool.or_false, Bool.or_eq_false_iff,
    Bool.and_eq_false_iff, decide_eq_false_iff_not]
  omega

theorem digits_of_digitsByte? {cs : List Char} {b : UInt8} (h : digitsByte? cs = some b) :
    cs ≠ [] ∧ ∀ c ∈ cs, c.isDigit = true := by
  obtain ⟨n, hn, -⟩ := Option.bind_eq_some_iff.1 h
  unfold natural? at hn
  split at hn
  · cases hn
  · rename_i hcs
    simpa using hcs

theorem digitsByte?_decimal (b : UInt8) : digitsByte? (decimal b.toNat).toList = some b := by
  have hle : b.toNat ≤ 255 := Nat.le_of_lt_succ b.toNat_lt
  simp [digitsByte?, natural?_decimal, hle]

theorem byte?_of_digitsByte? {s : String} {b : UInt8} (h : digitsByte? s.toList = some b) :
    byte? s = some b := by
  unfold byte?
  split
  · rename_i cs hcs
    rw [hcs] at h
    -- a plus sign is no digit
    exact absurd ((digits_of_digitsByte? h).2 '+' (List.mem_cons_self ..)) (by decide)
  · exact h

theorem byte?_decimal (b : UInt8) : byte? (decimal b.toNat) = some b :=
  byte?_of_digitsByte? (digitsByte?_decimal b)

theorem chars_of_byte? {s : String} {b : UInt8} (h : byte? s = some b) :
    s.toList ≠ [] ∧ ∀ c ∈ s.toList, c = '+' ∨ c.isDigit = true := by
  unfold byte? at h
  split at h
  · rename_i cs hcs
    rw [hcs]
    refine ⟨List.cons_ne_nil _ _, fun c hc => ?_⟩
    rcases List.mem_cons.1 hc with rfl | hc
    · exact .inl rfl
    · exact .inr ((digits_of_digitsByte? h).2 c hc)
  · obtain ⟨hne, hd⟩ := digits_of_digitsByte? h
    exact ⟨hne, fun c hc => .inr (hd c hc)⟩

theorem ne_empty_of_byte? {s : String} {b : UInt8} (h : byte? s = some b) : s ≠ "" := by
  rintro rfl
  exact (chars_of_byte? h).1 rfl

theorem noBlank_of_byte? {s : String} {b : UInt8} (h : byte? s = some b) : NoBlank s := by
  intro c hc
  rcases (chars_of_byte? h).2 c hc with rfl | hd
  · decide
  · exact not_isBlank_of_isDigit hd

theorem signedByte?_of_byte? {s : String} {b : UInt8} (h : byte? s = some b) :
    signedByte? s = some b := by
  unfold signedByte?
  split
  · rename_i cs hcs
    -- a minus sign is neither a plus sign nor a digit
    have hminus := (chars_of_byte? h).2 '-' (by rw [hcs]; exact List.mem_cons_self ..)
    exact absurd hminus (by decide)
  · exact h

end RhythmClip.Text
