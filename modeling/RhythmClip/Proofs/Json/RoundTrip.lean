import RhythmClip.Json.Reader
import RhythmClip.Json.Writer
import Mathlib.Data.List.Basic
import Mathlib.Data.List.TakeWhile

/-!
# What is written as JSON is read back

The scanner is looked at through the tokens it would end with (`Scan.finish`),
which takes in a word that is still open. `Reads cs ts` says that from between
two tokens the characters `cs` give the tokens `ts`; `Follows cs ts` says so
right after a token, where a word must not run on. Both go together with
appending, so the text of a value is taken apart as it is put together.

* `isNumber_decimal`: the decimal digits of a number are a JSON number.
* `reads_scalarChars`: a scalar gives its token.
* `reads_writeChars`: in either layout, a value gives its tokens.
* `parse?_write`: reading inverts writing.
-/
namespace RhythmClip.Json

/-! ## Numbers -/

theorem head?_toDigits {n : Nat} (h : 0 < n) : (Nat.toDigits 10 n).head? ≠ some '0' := by
  induction n using Nat.strongRecOn with
  | ind n ih =>
    by_cases hn : n < 10
    · have hdigit : ∀ n < 10, 0 < n → Nat.digitChar n ≠ '0' := by decide
      rw [Nat.toDigits_of_lt_base hn, List.head?_cons]
      exact fun e => hdigit n hn h (Option.some.inj e)
    · rw [Nat.toDigits_of_base_le (by decide) (by omega),
        List.head?_append_of_ne_nil _ Nat.toDigits_ne_nil]
      exact ih (n / 10) (by omega) (by omega)

theorem isNumber_of_digits {c : Char} {cs : List Char} (hne : c ≠ '0')
    (hdigits : ∀ d ∈ c :: cs, d.isDigit = true) : isNumber (c :: cs) = true := by
  have hc : c.isDigit = true := hdigits c List.mem_cons_self
  have hsign : c ≠ '-' := by rintro rfl; exact absurd hc (by decide)
  have hrest : cs.dropWhile Char.isDigit = [] := by
    rw [List.dropWhile_eq_nil_iff]
    exact fun d hd => hdigits d (List.mem_cons_of_mem c hd)
  have hmagnitude : isMagnitude (c :: cs) = true := by
    simp [isMagnitude, hc, hrest, isFraction, isExponent]
  simpa [isNumber, hsign] using hmagnitude

/-- The digits of a number are a zero, or have none in front. -/
theorem decimal_cases (n : Nat) :
    (Text.decimal n).toList = ['0'] ∨ ∃ c cs, (Text.decimal n).toList = c :: cs ∧ c ≠ '0' ∧
      ∀ d ∈ c :: cs, d.isDigit = true := by
  rw [Text.decimal, String.toList_ofList]
  rcases Nat.eq_zero_or_pos n with rfl | hn
  · exact .inl rfl
  · have hhead := head?_toDigits hn
    have hdigits : ∀ d ∈ Nat.toDigits 10 n, d.isDigit = true :=
      fun d hd => Nat.isDigit_of_mem_toDigits (by decide) (by decide) hd
    cases hd : Nat.toDigits 10 n with
    | nil => exact absurd hd Nat.toDigits_ne_nil
    | cons c cs =>
      rw [hd] at hhead hdigits
      exact .inr ⟨c, cs, rfl, fun e => hhead (by rw [e]; rfl), hdigits⟩

theorem isNumber_decimal (n : Nat) : isNumber (Text.decimal n).toList = true := by
  rcases decimal_cases n with h | ⟨c, cs, h, hzero, hdigits⟩
  · rw [h]
    rfl
  · rw [h]
    exact isNumber_of_digits hzero hdigits

/-! ## Words -/

def IsWord (cs : List Char) : Prop := ∀ c ∈ cs, isWordChar c = true

theorem isWordChar_of_isDigit {c : Char} (h : c.isDigit = true) : isWordChar c = true := by
  simp [isWordChar, Char.isAlphanum, h]

/-- Digits in front make no difference. -/
theorem isWord_of_dropWhile {cs : List Char} (h : IsWord (cs.dropWhile Char.isDigit)) :
    IsWord cs := by
  intro c hc
  rw [← List.takeWhile_append_dropWhile (p := Char.isDigit) (l := cs), List.mem_append] at hc
  rcases hc with hc | hc
  · exact isWordChar_of_isDigit (List.mem_takeWhile_imp hc)
  · exact h c hc

theorem isWord_of_isDigits {cs : List Char} (h : isDigits cs = true) : IsWord cs := by
  intro c hc
  simp only [isDigits, Bool.and_eq_true, List.all_eq_true] at h
  exact isWordChar_of_isDigit (h.2 c hc)

theorem IsWord.cons {c : Char} {cs : List Char} (hc : isWordChar c = true) (h : IsWord cs) :
    IsWord (c :: cs) := List.forall_mem_cons.2 ⟨hc, h⟩

theorem isWord_of_isExponent {cs : List Char} (h : isExponent cs = true) : IsWord cs := by
  cases cs with
  | nil => exact fun c hc => absurd hc List.not_mem_nil
  | cons e ds =>
    simp only [isExponent, Bool.and_eq_true, Bool.or_eq_true, beq_iff_eq] at h
    obtain ⟨he, hds⟩ := h
    refine IsWord.cons ?_ ?_
    · rcases he with rfl | rfl <;> decide
    · split at hds
      · exact (isWord_of_isDigits hds).cons (by decide)
      · exact (isWord_of_isDigits hds).cons (by decide)
      · exact isWord_of_isDigits hds

theorem isWord_of_isFraction {cs : List Char} (h : isFraction cs = true) : IsWord cs := by
  unfold isFraction at h
  split at h
  · rw [Bool.and_eq_true] at h
    exact (isWord_of_dropWhile (isWord_of_isExponent h.2)).cons (by decide)
  · exact isWord_of_isExponent h

theorem isWord_of_isMagnitude {cs : List Char} (h : isMagnitude cs = true) : IsWord cs := by
  unfold isMagnitude at h
  split at h
  · exact (isWord_of_isFraction h).cons (by decide)
  · rw [Bool.and_eq_true] at h
    exact (isWord_of_dropWhile (isWord_of_isFraction h.2)).cons (isWordChar_of_isDigit h.1)
  · cases h

theorem isWord_of_isNumber {cs : List Char} (h : isNumber cs = true) : IsWord cs := by
  unfold isNumber at h
  split at h
  · exact (isWord_of_isMagnitude h).cons (by decide)
  · exact isWord_of_isMagnitude h

theorem word?_of_isNumber {literal : String} (h : isNumber literal.toList = true) :
    word? literal.toList = some (.number literal) := by
  have hnot : ∀ cs, isNumber cs = false → literal.toList ≠ cs := by
    intro cs hcs e
    rw [← e, h] at hcs
    cases hcs
  rw [word?, if_neg (hnot _ (by decide)), if_neg (hnot _ (by decide)), if_neg (hnot _ (by decide)),
    if_pos h, String.ofList_toList]

/-! ## Rows of tokens -/

namespace Scan

/-- A word ends where a character of another kind comes. -/
theorem step_of_finish {s : Scan} {before : List Token} {c : Char}
    (h : s.finish = some before) (hc : isWordChar c = false) :
    s.step c = start before.reverse c := by
  obtain ⟨tokens, place⟩ := s
  cases place with
  | between =>
    obtain rfl : tokens.reverse = before := Option.some.inj h
    rw [List.reverse_reverse]
    rfl
  | word read =>
    cases hw : closeWord tokens read with
    | none => simp [finish, hw] at h
    | some closed =>
      obtain rfl : closed.reverse = before := by simpa [finish, hw] using h
      simp [step, hc, hw]
  | text read => cases h
  | escaped read => cases h

/-- Between two tokens, the characters give the tokens. -/
def Reads (cs : List Char) (ts : List Token) : Prop :=
  ∀ before, ∃ s, cs.foldlM step ⟨before, .between⟩ = some s ∧ s.finish = some (before.reverse ++ ts)

/-- After any token, the characters give the tokens. -/
def Follows (cs : List Char) (ts : List Token) : Prop :=
  ∀ s before, s.finish = some before →
    ∃ t, cs.foldlM step s = some t ∧ t.finish = some (before ++ ts)

variable {cs ds blanks : List Char} {ts us : List Token} {c : Char} {t : Token}

theorem Reads.append (h : Reads cs ts) (hf : Follows ds us) : Reads (cs ++ ds) (ts ++ us) := by
  intro before
  obtain ⟨s, hs, hfin⟩ := h before
  obtain ⟨t, ht, htfin⟩ := hf s _ hfin
  refine ⟨t, ?_, ?_⟩
  · rw [List.foldlM_append, hs]; exact ht
  · rw [htfin, List.append_assoc]

theorem foldlM_gap (h : ∀ c ∈ blanks, isGap c = true) (before : List Token) :
    blanks.foldlM step ⟨before, .between⟩ = some ⟨before, .between⟩ := by
  induction blanks with
  | nil => rfl
  | cons c cs ih =>
    rw [List.forall_mem_cons] at h
    rw [List.foldlM_cons, step_gap h.1]
    exact ih h.2

theorem Reads.gap (h : Reads cs ts) (hgap : ∀ c ∈ blanks, isGap c = true) :
    Reads (blanks ++ cs) ts := by
  intro before
  obtain ⟨s, hs, hfin⟩ := h before
  refine ⟨s, ?_, hfin⟩
  rw [List.foldlM_append, foldlM_gap hgap]
  exact hs

theorem not_isWordChar_of_isGap (h : isGap c = true) : isWordChar c = false := by
  simp only [isGap, Bool.or_eq_true, beq_iff_eq] at h
  rcases h with ((rfl | rfl) | rfl) | rfl <;> decide

theorem start_punctuation (h : punctuation? c = some t) (before : List Token) :
    isWordChar c = false ∧ start before c = some ⟨t :: before, .between⟩ := by
  unfold punctuation? at h
  split at h <;> cases h <;> exact ⟨by decide, rfl⟩

theorem Reads.punctuation (h : punctuation? c = some t) (hr : Reads cs ts) :
    Follows (c :: cs) (t :: ts) := by
  intro s before hs
  obtain ⟨hc, hstart⟩ := start_punctuation h before.reverse
  obtain ⟨s', hs', hfin⟩ := hr (t :: before.reverse)
  refine ⟨s', ?_, ?_⟩
  · rw [List.foldlM_cons, step_of_finish hs hc, hstart]; exact hs'
  · rw [hfin, List.reverse_cons, List.reverse_reverse, List.append_assoc, List.singleton_append]

theorem reads_nil : Reads [] [] := fun _ => ⟨_, rfl, by simp [finish]⟩

theorem Follows.reads (h : Follows cs ts) : Reads cs ts := fun _ => h _ _ rfl

theorem Follows.gap (h : Follows cs ts) (hgap : ∀ c ∈ blanks, isGap c = true) :
    Follows (blanks ++ cs) ts := by
  cases blanks with
  | nil => exact h
  | cons c blanks =>
    rw [List.forall_mem_cons] at hgap
    intro s before hs
    obtain ⟨t, ht, hfin⟩ := (h.reads.gap hgap.2) before.reverse
    refine ⟨t, ?_, by rw [hfin, List.reverse_reverse]⟩
    rw [List.cons_append, List.foldlM_cons, step_of_finish hs (not_isWordChar_of_isGap hgap.1),
      start, if_pos hgap.1]
    exact ht

/-! ## Scalars -/

theorem foldlM_word (h : IsWord cs) (before : List Token) (read : List Char) :
    cs.foldlM step ⟨before, .word read⟩ = some ⟨before, .word (cs.reverse ++ read)⟩ := by
  induction cs generalizing read with
  | nil => rfl
  | cons c cs ih =>
    obtain ⟨hc, hcs⟩ := List.forall_mem_cons.1 h
    have hstep : step ⟨before, .word read⟩ c = some ⟨before, .word (c :: read)⟩ := by
      simp [step, hc]
    rw [List.foldlM_cons, hstep]
    exact (ih hcs _).trans (by simp)

theorem start_wordChar (h : isWordChar c = true) (before : List Token) :
    start before c = some ⟨before, .word [c]⟩ := by
  have hgap : isGap c = false := by
    by_contra hne
    rw [not_isWordChar_of_isGap (by simpa using hne)] at h
    cases h
  have hquote : c ≠ '"' := by rintro rfl; exact absurd h (by decide)
  simp [start, hgap, hquote, h]

theorem reads_word {v : Scalar} (h : IsWord cs) (hv : word? cs = some v) :
    Reads cs [.scalar v] := by
  intro before
  cases cs with
  | nil => cases hv
  | cons c cs =>
    obtain ⟨hc, hcs⟩ := List.forall_mem_cons.1 h
    refine ⟨⟨before, .word (cs.reverse ++ [c])⟩, ?_, ?_⟩
    · rw [List.foldlM_cons]
      show (start before c).bind _ = _
      rw [start_wordChar hc]
      exact foldlM_word hcs before [c]
    · simp [finish, closeWord, hv]

theorem reads_quoted (content : Option String) :
    Reads (quoted content) [.scalar (.text content)] := by
  intro before
  refine ⟨⟨.scalar (.text content) :: before, .between⟩, ?_, by simp [finish]⟩
  cases content with
  | some s => exact run_quoted before s
  | none =>
    have hnone : unescape? ['\\', 'u', 'd', '8', '0', '0'] = some none := by decide +kernel
    simp [quoted, step, start, isGap, closeText, hnone]

end Scan

open Scan

/-- The numbers among the tokens are written as numbers. -/
def Proper (ts : List Token) : Prop :=
  ∀ literal, Token.scalar (.number literal) ∈ ts → isNumber literal.toList = true

@[simp] theorem proper_nil : Proper [] := fun _ h => absurd h List.not_mem_nil

@[simp] theorem proper_cons_iff {t : Token} {ts : List Token} :
    Proper (t :: ts) ↔
      (∀ literal, Token.scalar (.number literal) = t → isNumber literal.toList = true) ∧
        Proper ts := by
  simp only [Proper, List.mem_cons, or_imp, forall_and]

@[simp] theorem proper_append_iff {ts us : List Token} :
    Proper (ts ++ us) ↔ Proper ts ∧ Proper us := by
  simp only [Proper, List.mem_append, or_imp, forall_and]

theorem reads_scalarChars {v : Scalar} (h : Proper [.scalar v]) :
    Reads (scalarChars v) [.scalar v] := by
  cases v with
  | null => exact reads_word (List.all_eq_true.1 (by decide)) rfl
  | bool b => cases b <;> exact reads_word (List.all_eq_true.1 (by decide)) rfl
  | number literal =>
    have hn := h literal List.mem_cons_self
    exact reads_word (isWord_of_isNumber hn) (word?_of_isNumber hn)
  | text content => exact reads_quoted content

/-! ## Values -/

variable {style : Style} {depth : Nat} {v : Json} {cs : List Char} {ts : List Token}

theorem isGap_line {c : Char} (h : c ∈ style.line depth) : isGap c = true := by
  cases style with
  | compact => cases h
  | spread =>
    rcases List.mem_cons.1 h with rfl | h
    · decide
    · rw [List.eq_of_mem_replicate h]; decide

theorem isGap_gap {c : Char} (h : c ∈ style.gap) : isGap c = true := by
  cases style with
  | compact => cases h
  | spread => rw [List.mem_singleton.1 h]; decide

/-- An item of an array and what follows it. -/
theorem reads_item (hv : Reads (writeChars style (depth + 1) v) (tokens v)) (h : Follows cs ts) :
    Reads (style.line (depth + 1) ++ writeChars style (depth + 1) v ++ cs) (tokens v ++ ts) := by
  rw [List.append_assoc]
  exact (hv.append h).gap fun _ => isGap_line

/-- A member of an object and what follows it. -/
theorem reads_member (name : Option String)
    (hv : Reads (writeChars style (depth + 1) v) (tokens v)) (h : Follows cs ts) :
    Reads (style.line (depth + 1) ++ quoted name ++ ':' :: style.gap
        ++ writeChars style (depth + 1) v ++ cs)
      (.scalar (.text name) :: .colon :: (tokens v ++ ts)) := by
  have hvalue : Reads (style.gap ++ (writeChars style (depth + 1) v ++ cs)) (tokens v ++ ts) :=
    (hv.append h).gap fun _ => isGap_gap
  have hcolon : Follows (':' :: (style.gap ++ (writeChars style (depth + 1) v ++ cs)))
      (.colon :: (tokens v ++ ts)) := hvalue.punctuation rfl
  have hline : ∀ c ∈ style.line (depth + 1), isGap c = true := fun _ => isGap_line
  have hname := ((reads_quoted name).append hcolon).gap hline
  simpa only [List.append_assoc, List.cons_append, List.nil_append] using hname

theorem follows_close {c : Char} {t : Token} (h : punctuation? c = some t) :
    Follows (style.line depth ++ [c]) [t] :=
  (reads_nil.punctuation h).gap fun _ => isGap_line

mutual

theorem reads_writeChars (style : Style) (depth : Nat) (v : Json) (h : Proper (tokens v)) :
    Reads (writeChars style depth v) (tokens v) := by
  match v with
  | .scalar v => exact reads_scalarChars h
  | .array [] => exact ((reads_nil.punctuation rfl).reads.punctuation rfl).reads
  | .array (v :: vs) =>
    simp only [tokens, proper_cons_iff, proper_append_iff] at h
    have hv := reads_writeChars style (depth + 1) v h.2.1
    have hvs := follows_writeItems style depth vs h.2.2
    exact ((reads_item hv hvs).punctuation rfl).reads
  | .object [] => exact ((reads_nil.punctuation rfl).reads.punctuation rfl).reads
  | .object ((name, v) :: ms) =>
    simp only [tokens, proper_cons_iff, proper_append_iff] at h
    have hv := reads_writeChars style (depth + 1) v h.2.2.2.1
    have hms := follows_writeMembers style depth ms h.2.2.2.2
    exact ((reads_member name hv hms).punctuation rfl).reads

theorem follows_writeItems (style : Style) (depth : Nat) (vs : List Json)
    (h : Proper (itemTokens vs)) : Follows (writeItems style depth vs) (itemTokens vs) := by
  match vs with
  | [] => exact follows_close rfl
  | v :: vs =>
    simp only [itemTokens, proper_cons_iff, proper_append_iff] at h
    have hv := reads_writeChars style (depth + 1) v h.2.1
    have hvs := follows_writeItems style depth vs h.2.2
    exact (reads_item hv hvs).punctuation rfl

theorem follows_writeMembers (style : Style) (depth : Nat) (ms : List Member)
    (h : Proper (memberTokens ms)) : Follows (writeMembers style depth ms) (memberTokens ms) := by
  match ms with
  | [] => exact follows_close rfl
  | (name, v) :: ms =>
    simp only [memberTokens, proper_cons_iff, proper_append_iff] at h
    have hv := reads_writeChars style (depth + 1) v h.2.2.2.1
    have hms := follows_writeMembers style depth ms h.2.2.2.2
    exact (reads_member name hv hms).punctuation rfl

end

theorem tokens?_of_reads (h : Reads cs ts) : tokens? cs = some ts := by
  obtain ⟨s, hs, hfin⟩ := h []
  rw [tokens?, hs]
  exact hfin

/-- What is written in either layout is read back, when its numbers are numbers. -/
theorem parse?_write (style : Style) (h : Proper (tokens v)) : parse? (write style v) = some v := by
  rw [parse?, write, String.toList_ofList, tokens?_of_reads (reads_writeChars style 0 v h)]
  exact ofTokens?_tokens v

/-! ## The numbers of a value -/

theorem proper_text (s : String) : Proper (tokens (.text s)) := by
  simp [Json.text, tokens]

theorem proper_bool (b : Bool) : Proper (tokens (.bool b)) := by
  simp [Json.bool, tokens]

theorem proper_natural (n : Nat) : Proper (tokens (.natural n)) := by
  simp [Json.natural, tokens, isNumber_decimal]

theorem proper_itemTokens {vs : List Json} (h : ∀ v ∈ vs, Proper (tokens v)) :
    Proper (itemTokens vs) := by
  induction vs with
  | nil => simp [itemTokens]
  | cons v vs ih =>
    obtain ⟨hv, hvs⟩ := List.forall_mem_cons.1 h
    simp [itemTokens, hv, ih hvs]

theorem proper_memberTokens {ms : List Member} (h : ∀ m ∈ ms, Proper (tokens m.2)) :
    Proper (memberTokens ms) := by
  induction ms with
  | nil => simp [memberTokens]
  | cons m ms ih =>
    obtain ⟨hv, hms⟩ := List.forall_mem_cons.1 h
    simp [memberTokens, hv, ih hms]

theorem proper_array {vs : List Json} (h : ∀ v ∈ vs, Proper (tokens v)) :
    Proper (tokens (.array vs)) := by
  cases vs with
  | nil => simp [tokens]
  | cons v vs =>
    obtain ⟨hv, hvs⟩ := List.forall_mem_cons.1 h
    simp [tokens, hv, proper_itemTokens hvs]

theorem proper_object {ms : List Member} (h : ∀ m ∈ ms, Proper (tokens m.2)) :
    Proper (tokens (.object ms)) := by
  cases ms with
  | nil => simp [tokens]
  | cons m ms =>
    obtain ⟨hv, hms⟩ := List.forall_mem_cons.1 h
    simp [tokens, hv, proper_memberTokens hms]

end RhythmClip.Json
