import RhythmClip.Proofs.Text.Printed
import RhythmClip.Text.Ink
import Mathlib.Data.List.Forall2

/-!
# Taking the ink off

A text on a terminal holds control sequences: an escape character and a
bracket, numbers with semicolons between them, and an `m`. Without them there
is the plain text. Painting puts whole sequences around a text; if this has no
escape character, no other sequence comes about, and the plain text is what was
painted.

* `sequenceLength?_eq_some_iff`: which sequence a text begins with.
* `eraseFrom_sequence`, `eraseFrom_cons`: what is erased, and what is kept.
* `shows_paint`, `Shows.append`, `Shows.intercalate`: coloured texts piece by piece.
* `Shows.unpainted_eq`: a coloured text without its ink.
* `Shows.map_unpainted_lines`: the same for its lines.
-/
namespace RhythmClip.Text

/-! ## Control sequences -/

/-- A number in decimal digits. -/
def isCode (cs : List Char) : Bool := !cs.isEmpty && cs.all Char.isDigit

/-- `ESC [ digits (; digits)* m` -/
def IsSequence (cs : List Char) : Prop :=
  ∃ codes : List (List Char), codes ≠ [] ∧ codes.all isCode = true ∧
    cs = '\x1b' :: '[' :: ([';'].intercalate codes ++ ['m'])

/-- The length of the sequence that the text begins with, if it begins with one. -/
def sequenceLength? : List Char → Option Nat
  | '\x1b' :: '[' :: cs =>
    let numbers := cs.takeWhile (· ≠ 'm')
    if numbers.length < cs.length ∧ (numbers.splitOn ';').all isCode = true then
      some (numbers.length + 3)
    else none
  | _ => none

/-- Erases all sequences behind the first characters, which are `skipped` too. -/
def eraseFrom : Nat → List Char → List Char
  | _, [] => []
  | skipped + 1, _ :: cs => eraseFrom skipped cs
  | 0, c :: cs =>
    match sequenceLength? (c :: cs) with
    | some n => eraseFrom (n - 1) cs
    | none => c :: eraseFrom 0 cs

/-- The text without its control sequences. -/
def unpainted (s : String) : String := String.ofList (eraseFrom 0 s.toList)

theorem isDigit_of_isCode {code : List Char} (h : isCode code = true) :
    ∀ c ∈ code, c.isDigit = true := by
  simp only [isCode, Bool.and_eq_true, List.all_eq_true] at h
  exact h.2

/-- The numbers of a sequence and the semicolons between them hold no other character. -/
theorem not_mem_numbers {codes : List (List Char)} (h : codes.all isCode = true) {c : Char}
    (hdigit : c.isDigit = false) (hc : c ≠ ';') : c ∉ [';'].intercalate codes := by
  have hall : ∀ d ∈ [';'].intercalate codes, d ≠ c := by
    refine forall_mem_intercalate (List.forall_mem_singleton.2 hc.symm) fun code hcode d hd => ?_
    rintro rfl
    rw [isDigit_of_isCode (List.all_eq_true.1 h code hcode) d hd] at hdigit
    cases hdigit
  exact fun hmem => hall c hmem rfl

theorem semicolon_not_mem_code {codes : List (List Char)} (h : codes.all isCode = true) :
    ∀ code ∈ codes, ';' ∉ code := by
  intro code hcode hmem
  exact absurd (isDigit_of_isCode (List.all_eq_true.1 h code hcode) ';' hmem) (by decide)

theorem IsSequence.not_mem_newline {cs : List Char} (h : IsSequence cs) : '\n' ∉ cs := by
  obtain ⟨codes, -, hcodes, rfl⟩ := h
  have hnumbers := not_mem_numbers hcodes (c := '\n') (by decide) (by decide)
  simp [hnumbers]

theorem sequenceLength?_append {front : List Char} (h : IsSequence front) (cs : List Char) :
    sequenceLength? (front ++ cs) = some front.length := by
  obtain ⟨codes, hne, hcodes, rfl⟩ := h
  have hm := not_mem_numbers hcodes (c := 'm') (by decide) (by decide)
  have hnumbers : ([';'].intercalate codes ++ 'm' :: cs).takeWhile (· ≠ 'm') =
      [';'].intercalate codes := by
    rw [List.takeWhile_append_of_pos]
    · simp
    · intro c hc
      rw [decide_eq_true_eq]
      rintro rfl
      exact hm hc
  have hsplit := List.splitOn_intercalate ';' (semicolon_not_mem_code hcodes) hne
  simp only [List.cons_append, List.append_assoc, List.nil_append, sequenceLength?]
  rw [hnumbers, hsplit, if_pos ⟨by simp, hcodes⟩]
  simp

/-- What ends the numbers is an `m`. -/
theorem exists_rest_of_length_lt {cs : List Char}
    (h : (cs.takeWhile (· ≠ 'm')).length < cs.length) :
    ∃ rest, cs.takeWhile (· ≠ 'm') ++ 'm' :: rest = cs := by
  have hcs := List.takeWhile_append_dropWhile (p := fun c => decide (c ≠ 'm')) (l := cs)
  cases hdrop : cs.dropWhile (· ≠ 'm') with
  | nil =>
    rw [hdrop, List.append_nil] at hcs
    rw [hcs] at h
    exact absurd h (Nat.lt_irrefl _)
  | cons c rest =>
    have hc := List.head?_dropWhile_not (fun c => decide (c ≠ 'm')) cs
    rw [hdrop, List.head?_cons] at hc
    obtain rfl : c = 'm' := by simpa using hc
    exact ⟨rest, by rwa [hdrop] at hcs⟩

theorem sequenceLength?_eq_some_iff {cs : List Char} {n : Nat} :
    sequenceLength? cs = some n ↔
      ∃ front rest, IsSequence front ∧ cs = front ++ rest ∧ front.length = n := by
  constructor
  · intro h
    unfold sequenceLength? at h
    split at h
    · rename_i cs
      simp only at h
      split at h
      · rename_i hnumbers
        obtain ⟨hlt, hcodes⟩ := hnumbers
        obtain ⟨rest, hrest⟩ := exists_rest_of_length_lt hlt
        generalize cs.takeWhile (· ≠ 'm') = numbers at h hlt hcodes hrest
        subst hrest
        refine ⟨'\x1b' :: '[' :: (numbers ++ ['m']), rest,
          ⟨numbers.splitOn ';', List.splitOn_ne_nil _ _, hcodes, ?_⟩, by simp, ?_⟩
        · rw [List.intercalate_splitOn]
        · rw [← Option.some.inj h]
          simp
      · cases h
    · cases h
  · rintro ⟨front, rest, hfront, rfl, rfl⟩
    exact sequenceLength?_append hfront rest

/-! ## Erasing -/

theorem eraseFrom_length (front cs : List Char) :
    eraseFrom front.length (front ++ cs) = eraseFrom 0 cs := by
  induction front with
  | nil => rfl
  | cons c front ih => exact ih

theorem eraseFrom_sequence {front : List Char} (h : IsSequence front) (cs : List Char) :
    eraseFrom 0 (front ++ cs) = eraseFrom 0 cs := by
  have hlength := sequenceLength?_append h cs
  obtain ⟨codes, -, -, rfl⟩ := h
  rw [List.cons_append] at hlength ⊢
  rw [eraseFrom, hlength]
  exact eraseFrom_length _ cs

theorem eraseFrom_cons {c : Char} (h : c ≠ '\x1b') (cs : List Char) :
    eraseFrom 0 (c :: cs) = c :: eraseFrom 0 cs := by
  have hnone : sequenceLength? (c :: cs) = none := by
    rw [Option.eq_none_iff_forall_ne_some]
    intro n hn
    obtain ⟨front, rest, ⟨codes, -, -, rfl⟩, hcs, -⟩ := sequenceLength?_eq_some_iff.1 hn
    exact h (List.cons.inj hcs).1
  rw [eraseFrom, hnone]

/-- There is no escape character in the text. -/
def NoEscape (s : String) : Prop := ∀ c ∈ s.toList, c ≠ '\x1b'

instance (s : String) : Decidable (NoEscape s) := List.decidableBAll (· ≠ '\x1b') s.toList

theorem eraseFrom_append {cs : List Char} (h : ∀ c ∈ cs, c ≠ '\x1b') (rest : List Char) :
    eraseFrom 0 (cs ++ rest) = cs ++ eraseFrom 0 rest := by
  induction cs with
  | nil => rfl
  | cons c cs ih =>
    obtain ⟨hc, hcs⟩ := List.forall_mem_cons.1 h
    rw [List.cons_append, eraseFrom_cons hc, ih hcs, List.cons_append]

theorem IsPrinted.noEscape {s : String} (h : IsPrinted s) : NoEscape s := by
  rintro c hc rfl
  exact absurd (h '\x1b' hc) (by decide)

@[simp] theorem noEscape_append_iff {s t : String} :
    NoEscape (s ++ t) ↔ NoEscape s ∧ NoEscape t := by
  rw [NoEscape, String.toList_append, List.forall_mem_append]
  rfl

/-- A literal is a list of characters, and better looked at as such. -/
theorem noEscape_ofList {cs : List Char} (h : cs.all (· ≠ '\x1b') = true) :
    NoEscape (String.ofList cs) := by
  rw [NoEscape, String.toList_ofList]
  simpa using h

theorem NoEscape.append {s t : String} (hs : NoEscape s) (ht : NoEscape t) : NoEscape (s ++ t) :=
  noEscape_append_iff.2 ⟨hs, ht⟩

@[simp] theorem noEscape_decimal (n : Nat) : NoEscape (decimal n) :=
  (isWord_decimal n).isPrinted.noEscape

theorem NoEscape.intercalate {sep : String} (hsep : NoEscape sep) {parts : List String}
    (hparts : ∀ part ∈ parts, NoEscape part) : NoEscape (String.intercalate sep parts) := by
  rw [NoEscape, String.toList_intercalate]
  exact forall_mem_intercalate hsep (List.forall_mem_map.2 hparts)

/-! ## Paint -/

theorem isCode_of_mem_codes (ink : Ink) : ∀ code ∈ ink.codes, isCode code.toList = true := by
  obtain ⟨emphasis, colour⟩ := ink
  have hemphasis : ∀ e : Emphasis, isCode e.code.toList = true := by
    intro e
    cases e <;> decide
  have hcolour : ∀ c : Colour, isCode c.code.toList = true := by
    intro c
    cases c <;> decide
  cases emphasis <;> cases colour <;> simp [Ink.codes, hemphasis, hcolour]

theorem isSequence_start {ink : Ink} (h : ink.codes ≠ []) : IsSequence ink.start := by
  refine ⟨ink.codes.map String.toList, by simpa, ?_, ?_⟩
  · rw [List.all_map, List.all_eq_true]
    exact isCode_of_mem_codes ink
  · rw [Ink.start, String.toList_intercalate]
    rfl

theorem isSequence_reset : IsSequence inkReset := ⟨[['0']], by decide, by decide, rfl⟩

theorem resume_of_noEscape (start : List Char) {cs : List Char} (h : ∀ c ∈ cs, c ≠ '\x1b') :
    resume start cs = cs := by
  induction cs with
  | nil => rfl
  | cons c cs ih =>
    obtain ⟨hc, hcs⟩ := List.forall_mem_cons.1 h
    rw [resume, ih hcs]
    rintro rest rfl
    exact absurd rfl hc

theorem toList_paint {s : String} (h : NoEscape s) (ink : Ink) :
    (paint .coloured ink s).toList = ink.start ++ (s.toList ++ inkReset) := by
  rw [paint, resume_of_noEscape ink.start h, String.toList_ofList, List.append_assoc]

/-! ## Coloured texts -/

/-- Without its control sequences the first text is the second. None of them
has a line break in it. -/
structure Shows (coloured plain : String) : Prop where
  erase : ∀ rest, eraseFrom 0 (coloured.toList ++ rest) = plain.toList ++ eraseFrom 0 rest
  newlines : coloured.toList.count '\n' = plain.toList.count '\n'

theorem NoEscape.shows {s : String} (h : NoEscape s) : Shows s s :=
  ⟨eraseFrom_append h, rfl⟩

theorem shows_paint (ink : Ink) (hink : ink.codes ≠ []) {s : String} (h : NoEscape s) :
    Shows (paint .coloured ink s) s where
  erase rest := by
    rw [toList_paint h, List.append_assoc, List.append_assoc,
      eraseFrom_sequence (isSequence_start hink), eraseFrom_append h,
      eraseFrom_sequence isSequence_reset]
  newlines := by
    have hstart := List.count_eq_zero.2 (isSequence_start hink).not_mem_newline
    rw [toList_paint h, List.count_append, List.count_append, hstart, Nat.zero_add]
    rfl

namespace Shows

variable {coloured plain coloured' plain' : String}

theorem append (h : Shows coloured plain) (h' : Shows coloured' plain') :
    Shows (coloured ++ coloured') (plain ++ plain') where
  erase rest := by
    rw [String.toList_append, String.toList_append, List.append_assoc, h.erase, h'.erase,
      List.append_assoc]
  newlines := by
    rw [String.toList_append, String.toList_append, List.count_append, List.count_append,
      h.newlines, h'.newlines]

theorem unpainted_eq (h : Shows coloured plain) : unpainted coloured = plain := by
  have herase := h.erase []
  rw [List.append_nil] at herase
  rw [unpainted, herase]
  simp [eraseFrom]

theorem not_mem_newline (h : Shows coloured plain) (hplain : '\n' ∉ plain.toList) :
    '\n' ∉ coloured.toList := by
  rw [← List.count_eq_zero] at hplain ⊢
  rw [h.newlines, hplain]

theorem intercalate {sep : String} (hsep : NoEscape sep) {parts parts' : List String}
    (h : List.Forall₂ Shows parts parts') :
    Shows (String.intercalate sep parts) (String.intercalate sep parts') := by
  induction h with
  | nil =>
    rw [String.intercalate_nil]
    exact NoEscape.shows (by decide)
  | @cons first first' parts parts' hfirst hparts ih =>
    cases hparts with
    | nil => rwa [String.intercalate_singleton, String.intercalate_singleton]
    | cons _ _ =>
      rw [String.intercalate_cons_cons, String.intercalate_cons_cons]
      exact (hfirst.append hsep.shows).append ih

theorem join {parts parts' : List String} (h : List.Forall₂ Shows parts parts') :
    Shows (String.join parts) (String.join parts') := by
  induction h with
  | nil => exact NoEscape.shows (by decide)
  | cons hfirst _ ih =>
    rw [String.join_cons, String.join_cons]
    exact hfirst.append ih

section Lines

variable {parts parts' : List String}

theorem map_unpainted_eq (h : List.Forall₂ Shows parts parts') : parts.map unpainted = parts' := by
  rw [← List.forall₂_eq_eq_eq, List.forall₂_map_left_iff]
  exact h.imp fun _ _ hpart => hpart.unpainted_eq

theorem forall_not_mem_newline (h : List.Forall₂ Shows parts parts')
    (hplain : ∀ part ∈ parts', '\n' ∉ part.toList) : ∀ part ∈ parts, '\n' ∉ part.toList := by
  induction h with
  | nil => exact List.forall_mem_nil _
  | cons hfirst _ ih =>
    rw [List.forall_mem_cons] at hplain ⊢
    exact ⟨hfirst.not_mem_newline hplain.1, ih hplain.2⟩

/-- Lines are coloured one by one. -/
theorem map_unpainted_lines (h : List.Forall₂ Shows parts parts') (hne : parts' ≠ [])
    (hplain : ∀ part ∈ parts', '\n' ∉ part.toList) :
    (lines (String.intercalate "\n" parts)).map unpainted =
      lines (String.intercalate "\n" parts') := by
  have hparts : parts ≠ [] := by
    rintro rfl
    cases h
    exact hne rfl
  rw [lines_intercalate hparts (forall_not_mem_newline h hplain), lines_intercalate hne hplain,
    map_unpainted_eq h]

end Lines

end Shows

end RhythmClip.Text
