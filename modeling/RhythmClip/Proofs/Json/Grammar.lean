import RhythmClip.Proofs.Json.RoundTrip

/-!
# The grammar of JSON

The grammar of RFC 8259 as a relation between characters and what they
denote, without a scanner: numbers, texts with their escapes, and values with
any blanks between their tokens. A text is spelled character by character, so
half of a surrogate pair that stands alone spells nothing.

* `isNumber_iff`: what the scanner takes for a number is a number.
* `unescape?_of_spells`: a text is read as what it spells.
* `parse?_of_denotes`: whatever the grammar derives is read as that value.
-/
namespace RhythmClip.Json

/-! ## Numbers -/

def IsDigits (cs : List Char) : Prop := ∀ c ∈ cs, c.isDigit = true

/-- Zero, or digits of which the first is not zero. -/
inductive IsWhole : List Char → Prop where
  | zero : IsWhole ['0']
  | digits {c : Char} {cs : List Char} : c ≠ '0' → IsDigits (c :: cs) → IsWhole (c :: cs)

inductive IsFraction : List Char → Prop where
  | absent : IsFraction []
  | point {ds : List Char} : ds ≠ [] → IsDigits ds → IsFraction ('.' :: ds)

inductive IsExponent : List Char → Prop where
  | absent : IsExponent []
  | power {e : Char} {sign ds : List Char} :
    e ∈ ['e', 'E'] → sign ∈ [[], ['+'], ['-']] → ds ≠ [] → IsDigits ds →
      IsExponent (e :: (sign ++ ds))

inductive IsNumber : List Char → Prop where
  | mk {sign whole fraction exponent : List Char} :
    sign ∈ [[], ['-']] → IsWhole whole → IsFraction fraction → IsExponent exponent →
      IsNumber (sign ++ (whole ++ (fraction ++ exponent)))

theorem isDigits_iff {cs : List Char} : isDigits cs = true ↔ cs ≠ [] ∧ IsDigits cs := by
  simp [isDigits, IsDigits]

theorem isExponent_iff {cs : List Char} : isExponent cs = true ↔ IsExponent cs := by
  constructor
  · intro h
    cases cs with
    | nil => exact .absent
    | cons e cs =>
      simp only [isExponent, Bool.and_eq_true, Bool.or_eq_true, beq_iff_eq] at h
      obtain ⟨he, h⟩ := h
      have he : e ∈ ['e', 'E'] := by simpa using he
      split at h
      · obtain ⟨hne, hds⟩ := isDigits_iff.1 h
        exact @IsExponent.power e ['+'] _ he (by simp) hne hds
      · obtain ⟨hne, hds⟩ := isDigits_iff.1 h
        exact @IsExponent.power e ['-'] _ he (by simp) hne hds
      · obtain ⟨hne, hds⟩ := isDigits_iff.1 h
        exact @IsExponent.power e [] _ he (by simp) hne hds
  · intro h
    cases h with
    | absent => rfl
    | @power e sign ds he hsign hne hds =>
      have hdigits := isDigits_iff.2 ⟨hne, hds⟩
      simp only [List.mem_cons, List.not_mem_nil, or_false] at he hsign
      simp only [isExponent, Bool.and_eq_true, Bool.or_eq_true, beq_iff_eq]
      refine ⟨he, ?_⟩
      rcases hsign with rfl | rfl | rfl
      · -- no sign: the first digit is not taken for one
        rw [List.nil_append]
        split
        · exact absurd (hds '+' List.mem_cons_self) (by decide)
        · exact absurd (hds '-' List.mem_cons_self) (by decide)
        · exact hdigits
      · exact hdigits
      · exact hdigits

/-- Behind the digits of a whole part there is no digit. -/
theorem head?_not_isDigit {fraction exponent : List Char} (hf : IsFraction fraction)
    (he : IsExponent exponent) : ∀ c ∈ (fraction ++ exponent).head?, c.isDigit = false := by
  cases hf with
  | point => intro c hc; cases hc; decide
  | absent =>
    cases he with
    | absent => intro c hc; cases hc
    | power he =>
      intro c hc
      cases hc
      simp only [List.mem_cons, List.not_mem_nil, or_false] at he
      rcases he with rfl | rfl <;> decide

theorem span_digits {ds cs : List Char} (hds : IsDigits ds)
    (hcs : ∀ c ∈ cs.head?, c.isDigit = false) :
    (ds ++ cs).takeWhile Char.isDigit = ds ∧ (ds ++ cs).dropWhile Char.isDigit = cs := by
  rw [List.takeWhile_append_of_pos hds, List.dropWhile_append_of_pos hds]
  cases cs with
  | nil => simp
  | cons c cs =>
    have hc : c.isDigit = false := hcs c rfl
    simp [hc]

theorem isFraction_iff {cs : List Char} :
    isFraction cs = true ↔ ∃ fraction exponent, cs = fraction ++ exponent ∧
      IsFraction fraction ∧ IsExponent exponent := by
  constructor
  · intro h
    unfold isFraction at h
    split at h
    · rename_i ds
      rw [Bool.and_eq_true] at h
      obtain ⟨hne, hds⟩ := isDigits_iff.1 h.1
      exact ⟨_, _, by rw [List.cons_append, List.takeWhile_append_dropWhile], .point hne hds,
        isExponent_iff.1 h.2⟩
    · exact ⟨[], cs, rfl, .absent, isExponent_iff.1 h⟩
  · rintro ⟨fraction, exponent, rfl, hf, he⟩
    cases hf with
    | @point ds hne hds =>
      obtain ⟨htake, hdrop⟩ := span_digits hds (head?_not_isDigit .absent he)
      rw [List.nil_append] at htake hdrop
      rw [List.cons_append, isFraction, htake, hdrop, isDigits_iff.2 ⟨hne, hds⟩,
        isExponent_iff.2 he]
      rfl
    | absent =>
      rw [List.nil_append]
      unfold isFraction
      split
      · cases he with
        | power he => exact absurd he (by decide)
      · exact isExponent_iff.2 he

theorem isMagnitude_iff {cs : List Char} :
    isMagnitude cs = true ↔ ∃ whole fraction exponent, cs = whole ++ (fraction ++ exponent) ∧
      IsWhole whole ∧ IsFraction fraction ∧ IsExponent exponent := by
  constructor
  · intro h
    unfold isMagnitude at h
    split at h
    · obtain ⟨fraction, exponent, rfl, hf, he⟩ := isFraction_iff.1 h
      exact ⟨['0'], fraction, exponent, rfl, .zero, hf, he⟩
    · rename_i c ds hzero
      rw [Bool.and_eq_true] at h
      obtain ⟨fraction, exponent, hrest, hf, he⟩ := isFraction_iff.1 h.2
      refine ⟨c :: ds.takeWhile Char.isDigit, fraction, exponent, ?_, .digits hzero ?_, hf, he⟩
      · rw [← hrest, List.cons_append, List.takeWhile_append_dropWhile]
      · exact List.forall_mem_cons.2 ⟨h.1, fun d hd => List.mem_takeWhile_imp hd⟩
    · cases h
  · rintro ⟨whole, fraction, exponent, rfl, hw, hf, he⟩
    have hrest : isFraction (fraction ++ exponent) = true :=
      isFraction_iff.2 ⟨fraction, exponent, rfl, hf, he⟩
    cases hw with
    | zero => exact hrest
    | @digits c ds hzero hds =>
      obtain ⟨hc, hds⟩ := List.forall_mem_cons.1 hds
      rw [List.cons_append]
      unfold isMagnitude
      split
      · rename_i h
        exact absurd (List.cons.inj h).1 hzero
      · rename_i h
        obtain ⟨rfl, rfl⟩ := List.cons.inj h
        rw [hc, (span_digits hds (head?_not_isDigit hf he)).2, hrest]
        rfl
      · rename_i h
        cases h

theorem isNumber_iff {cs : List Char} : isNumber cs = true ↔ IsNumber cs := by
  constructor
  · intro h
    unfold isNumber at h
    split at h
    · obtain ⟨whole, fraction, exponent, rfl, hw, hf, he⟩ := isMagnitude_iff.1 h
      exact @IsNumber.mk ['-'] _ _ _ (by simp) hw hf he
    · obtain ⟨whole, fraction, exponent, rfl, hw, hf, he⟩ := isMagnitude_iff.1 h
      exact @IsNumber.mk [] _ _ _ (by simp) hw hf he
  · rintro ⟨hsign, hw, hf, he⟩
    rename_i sign whole fraction exponent
    have hrest : isMagnitude (whole ++ (fraction ++ exponent)) = true :=
      isMagnitude_iff.2 ⟨whole, fraction, exponent, rfl, hw, hf, he⟩
    simp only [List.mem_cons, List.not_mem_nil, or_false] at hsign
    rcases hsign with rfl | rfl
    · cases hw with
      | zero => exact hrest
      | @digits c ds _ hds =>
        rw [List.nil_append]
        unfold isNumber
        split
        · rename_i h
          rw [(List.cons.inj h).1] at hds
          exact absurd (hds '-' List.mem_cons_self) (by decide)
        · exact hrest
    · exact hrest

/-! ## Texts -/

/-- What may follow a backslash, and the character it stands for. -/
def shortEscapes : List (Char × Char) :=
  [('"', '"'), ('\\', '\\'), ('/', '/'), ('b', '\x08'), ('f', '\x0c'), ('n', '\n'), ('r', '\r'),
    ('t', '\t')]

/-- A hexadecimal digit in either case, and its value. -/
def IsHexDigit (c : Char) (n : Nat) : Prop :=
  "0123456789abcdef".toList[n]? = some c ∨ "0123456789ABCDEF".toList[n]? = some c

inductive IsHex : List Char → Nat → Prop where
  | mk {a b c d : Char} {i j k l : Nat} :
    IsHexDigit a i → IsHexDigit b j → IsHexDigit c k → IsHexDigit d l →
      IsHex [a, b, c, d] (((i * 16 + j) * 16 + k) * 16 + l)

/-- Between quotation marks the characters `cs` spell the characters `s`. A
character may stand for itself, and may be escaped by its code point or, above
the first 65536, by the two halves of its surrogate pair. -/
inductive Spells : List Char → List Char → Prop where
  | nil : Spells [] []
  | plain {c : Char} {cs s : List Char} :
    0x20 ≤ c.toNat → c ≠ '"' → c ≠ '\\' → Spells cs s → Spells (c :: cs) (c :: s)
  | short {letter c : Char} {cs s : List Char} :
    (letter, c) ∈ shortEscapes → Spells cs s → Spells ('\\' :: letter :: cs) (c :: s)
  | point {digits cs s : List Char} {c : Char} :
    IsHex digits c.toNat → Spells cs s → Spells ('\\' :: 'u' :: (digits ++ cs)) (c :: s)
  | halves {high low cs s : List Char} {c : Char} :
    0x10000 ≤ c.toNat → IsHex high (0xD800 + (c.toNat - 0x10000) / 0x400) →
      IsHex low (0xDC00 + (c.toNat - 0x10000) % 0x400) → Spells cs s →
      Spells ('\\' :: 'u' :: (high ++ '\\' :: 'u' :: (low ++ cs))) (c :: s)

theorem IsHexDigit.lt {c : Char} {n : Nat} (h : IsHexDigit c n) : n < 16 := by
  rcases h with h | h
  · exact (List.getElem?_eq_some_iff.1 h).1
  · exact (List.getElem?_eq_some_iff.1 h).1

theorem hexDigit?_of_isHexDigit {c : Char} {n : Nat} (h : IsHexDigit c n) :
    hexDigit? c = some n := by
  have hsmall : ∀ n < 16, ("0123456789abcdef".toList[n]?.bind hexDigit?) = some n := by
    decide +kernel
  have hcapital : ∀ n < 16, ("0123456789ABCDEF".toList[n]?.bind hexDigit?) = some n := by
    decide +kernel
  have hn := h.lt
  rcases h with h | h
  · have hvalue := hsmall n hn
    rwa [h, Option.bind_some] at hvalue
  · have hvalue := hcapital n hn
    rwa [h, Option.bind_some] at hvalue

theorem not_isDelimiter_of_isHexDigit {c : Char} {n : Nat} (h : IsHexDigit c n) :
    c ≠ '"' ∧ c ≠ '\\' := by
  constructor
  · rintro rfl
    exact absurd (hexDigit?_of_isHexDigit h) (by simp [hexDigit?])
  · rintro rfl
    exact absurd (hexDigit?_of_isHexDigit h) (by simp [hexDigit?])

theorem units?_of_isHex {digits : List Char} {n : Nat} (h : IsHex digits n) (cs : List Char) :
    units? ('\\' :: 'u' :: (digits ++ cs)) = (units? cs).map (n :: ·) := by
  obtain ⟨ha, hb, hc, hd⟩ := h
  rename_i a b c d i j k l
  have hvalue : hex4? a b c d = some (((i * 16 + j) * 16 + k) * 16 + l) := by
    simp only [hex4?, hexDigit?_of_isHexDigit ha, hexDigit?_of_isHexDigit hb,
      hexDigit?_of_isHexDigit hc, hexDigit?_of_isHexDigit hd]
    show some _ = some _
    congr 1
    omega
  show (do return (← hex4? a b c d) :: (← units? cs)) = _
  rw [hvalue]
  cases units? cs <;> rfl

theorem units?_short {letter c : Char} (h : (letter, c) ∈ shortEscapes) (cs : List Char) :
    units? ('\\' :: letter :: cs) = (units? cs).map (c.toNat :: ·) := by
  simp only [shortEscapes, List.mem_cons, Prod.mk.injEq, List.not_mem_nil, or_false] at h
  rcases h with ⟨rfl, rfl⟩ | ⟨rfl, rfl⟩ | ⟨rfl, rfl⟩ | ⟨rfl, rfl⟩ | ⟨rfl, rfl⟩ | ⟨rfl, rfl⟩ |
    ⟨rfl, rfl⟩ | ⟨rfl, rfl⟩
  all_goals
    cases hu : units? cs <;> simp [units?, shortEscape?, hu]

theorem units?_plain {c : Char} (hc : 0x20 ≤ c.toNat) (hq : c ≠ '"') (hb : c ≠ '\\')
    (cs : List Char) : units? (c :: cs) = (units? cs).map (c.toNat :: ·) := by
  rw [units?.eq_4 c cs (fun _ _ _ _ _ e => absurd e hb) (fun _ _ e => absurd e hb), if_neg]
  · cases units? cs <;> rfl
  · rintro (hlt | rfl | rfl)
    · omega
    · exact hq rfl
    · exact hb rfl

theorem characters?_cons (c : Char) (us : List Nat) :
    characters? (c.toNat :: us) = (characters? us).map (c :: ·) := by
  obtain ⟨hh, hl⟩ := not_isHalf_toNat c
  cases us with
  | nil => simp [characters?, hh, hl]
  | cons u us =>
    simp only [characters?, hh, hl, Char.ofNat_toNat]
    cases characters? (u :: us) <;> rfl

theorem characters?_halves {c : Char} (h : 0x10000 ≤ c.toNat) (us : List Nat) :
    characters? ((0xD800 + (c.toNat - 0x10000) / 0x400) ::
        (0xDC00 + (c.toNat - 0x10000) % 0x400) :: us) = (characters? us).map (c :: ·) := by
  have hlt : c.toNat < 0x110000 := by
    have hv := c.valid
    simp only [UInt32.isValidChar, Nat.isValidChar] at hv
    simp only [Char.toNat]
    omega
  have hhigh : isHighHalf (0xD800 + (c.toNat - 0x10000) / 0x400) = true := by
    simp only [isHighHalf, Bool.and_eq_true, decide_eq_true_eq]
    omega
  have hlow : isLowHalf (0xDC00 + (c.toNat - 0x10000) % 0x400) = true := by
    simp only [isLowHalf, Bool.and_eq_true, decide_eq_true_eq]
    omega
  have hjoin : joinHalves (0xD800 + (c.toNat - 0x10000) / 0x400)
      (0xDC00 + (c.toNat - 0x10000) % 0x400) = c := by
    have hpoint : 0x10000 + (0xD800 + (c.toNat - 0x10000) / 0x400 - 0xD800) * 0x400 +
        (0xDC00 + (c.toNat - 0x10000) % 0x400 - 0xDC00) = c.toNat := by omega
    rw [joinHalves, hpoint, Char.ofNat_toNat]
  rw [characters?, hhigh, hlow, hjoin]
  cases characters? us <;> rfl

/-- A text is read as what it spells. -/
theorem unescape?_of_spells {cs s : List Char} (h : Spells cs s) :
    unescape? cs = some (some (String.ofList s)) := by
  have hunits : ∃ us, units? cs = some us ∧ characters? us = some s := by
    induction h with
    | nil => exact ⟨[], rfl, rfl⟩
    | plain hc hq hb _ ih =>
      obtain ⟨us, hu, hs⟩ := ih
      exact ⟨_, by rw [units?_plain hc hq hb, hu]; rfl, by rw [characters?_cons, hs]; rfl⟩
    | short hc _ ih =>
      obtain ⟨us, hu, hs⟩ := ih
      exact ⟨_, by rw [units?_short hc, hu]; rfl, by rw [characters?_cons, hs]; rfl⟩
    | point hd _ ih =>
      obtain ⟨us, hu, hs⟩ := ih
      exact ⟨_, by rw [units?_of_isHex hd, hu]; rfl, by rw [characters?_cons, hs]; rfl⟩
    | halves hc hh hl _ ih =>
      obtain ⟨us, hu, hs⟩ := ih
      exact ⟨_, by rw [units?_of_isHex hh, units?_of_isHex hl, hu]; rfl,
        by rw [characters?_halves hc, hs]; rfl⟩
  obtain ⟨us, hu, hs⟩ := hunits
  rw [unescape?, hu, Option.map_some, hs, Option.map_some]

/-! ## Values -/

def AreBlanks (cs : List Char) : Prop := ∀ c ∈ cs, c ∈ [' ', '\t', '\n', '\r']

mutual

/-- The characters are a value, without blanks around it. -/
inductive IsValue : List Char → Json → Prop where
  | null : IsValue ['n', 'u', 'l', 'l'] .null
  | yes : IsValue ['t', 'r', 'u', 'e'] (.bool true)
  | no : IsValue ['f', 'a', 'l', 's', 'e'] (.bool false)
  | number {cs : List Char} : IsNumber cs → IsValue cs (.scalar (.number (String.ofList cs)))
  | text {cs s : List Char} : Spells cs s → IsValue ('"' :: (cs ++ ['"'])) (.text (String.ofList s))
  | emptyArray {cs : List Char} : AreBlanks cs → IsValue ('[' :: (cs ++ [']'])) (.array [])
  | array {cs : List Char} {vs : List Json} :
    IsElements cs vs → IsValue ('[' :: (cs ++ [']'])) (.array vs)
  | emptyObject {cs : List Char} : AreBlanks cs → IsValue ('{' :: (cs ++ ['}'])) (.object [])
  | object {cs : List Char} {ms : List Member} :
    IsMembers cs ms → IsValue ('{' :: (cs ++ ['}'])) (.object ms)

/-- A value with any blanks around it. -/
inductive IsElement : List Char → Json → Prop where
  | mk {before cs behind : List Char} {v : Json} :
    AreBlanks before → IsValue cs v → AreBlanks behind → IsElement (before ++ (cs ++ behind)) v

/-- Values with commas between them. -/
inductive IsElements : List Char → List Json → Prop where
  | one {cs : List Char} {v : Json} : IsElement cs v → IsElements cs [v]
  | more {cs ds : List Char} {v : Json} {vs : List Json} :
    IsElement cs v → IsElements ds vs → IsElements (cs ++ ',' :: ds) (v :: vs)

/-- A name and a value with a colon between them. -/
inductive IsMember : List Char → Member → Prop where
  | mk {before cs behind ds s : List Char} {v : Json} :
    AreBlanks before → Spells cs s → AreBlanks behind → IsElement ds v →
      IsMember (before ++ ('"' :: (cs ++ ['"']) ++ (behind ++ ':' :: ds)))
        (some (String.ofList s), v)

/-- Members with commas between them. -/
inductive IsMembers : List Char → List Member → Prop where
  | one {cs : List Char} {m : Member} : IsMember cs m → IsMembers cs [m]
  | more {cs ds : List Char} {m : Member} {ms : List Member} :
    IsMember cs m → IsMembers ds ms → IsMembers (cs ++ ',' :: ds) (m :: ms)

end

/-- The text is a value in the grammar of JSON, and this is the value. -/
def Denotes (text : String) (v : Json) : Prop := IsElement text.toList v

/-! ## The scanner follows the grammar -/

theorem AreBlanks.gaps {cs : List Char} (h : AreBlanks cs) : ∀ c ∈ cs, isGap c = true := by
  intro c hc
  simpa [isGap, or_assoc] using h c hc

/-- The scanner passes over the characters inside a text, and the text stays open. -/
def RunsOn (cs : List Char) : Prop :=
  ∀ before read,
    cs.foldlM Scan.step ⟨before, .text read⟩ = some ⟨before, .text (cs.reverse ++ read)⟩

theorem RunsOn.append {cs ds : List Char} (hc : RunsOn cs) (hd : RunsOn ds) :
    RunsOn (cs ++ ds) := by
  intro before read
  rw [List.foldlM_append, hc]
  exact (hd before _).trans (by simp)

theorem runsOn_unquoted {cs : List Char} (h : ∀ c ∈ cs, c ≠ '"' ∧ c ≠ '\\') : RunsOn cs := by
  induction cs with
  | nil => exact fun _ _ => rfl
  | cons c cs ih =>
    obtain ⟨⟨hq, hb⟩, hcs⟩ := List.forall_mem_cons.1 h
    have hc : RunsOn [c] := fun before read => by simp [Scan.step, hq, hb]
    exact hc.append (ih hcs)

theorem runsOn_escaped (c : Char) : RunsOn ['\\', c] := fun _ _ => rfl

theorem runsOn_point {digits : List Char} {n : Nat} (h : IsHex digits n) :
    RunsOn ('\\' :: 'u' :: digits) := by
  obtain ⟨ha, hb, hc, hd⟩ := h
  refine (runsOn_escaped 'u').append (runsOn_unquoted ?_)
  simp only [List.forall_mem_cons, List.not_mem_nil, false_imp_iff, implies_true, and_true]
  exact ⟨not_isDelimiter_of_isHexDigit ha, not_isDelimiter_of_isHexDigit hb,
    not_isDelimiter_of_isHexDigit hc, not_isDelimiter_of_isHexDigit hd⟩

theorem runsOn_of_spells {cs s : List Char} (h : Spells cs s) : RunsOn cs := by
  induction h with
  | nil => exact fun _ _ => rfl
  | plain _ hq hb _ ih => exact (runsOn_unquoted (List.forall_mem_singleton.2 ⟨hq, hb⟩)).append ih
  | short _ _ ih => exact (runsOn_escaped _).append ih
  | point hd _ ih => exact (runsOn_point hd).append ih
  | halves _ hh hl _ ih => exact (runsOn_point hh).append ((runsOn_point hl).append ih)

theorem Scan.reads_spelled {cs s : List Char} (h : Spells cs s) :
    Reads ('"' :: (cs ++ ['"'])) [.scalar (.text (some (String.ofList s)))] := by
  intro before
  refine ⟨⟨.scalar (.text (some (String.ofList s))) :: before, .between⟩, ?_, by simp [finish]⟩
  rw [List.foldlM_cons]
  show (cs ++ ['"']).foldlM step ⟨before, .text []⟩ = _
  rw [List.foldlM_append, runsOn_of_spells h]
  simp [step, closeText, unescape?_of_spells h]

open Scan

mutual

theorem reads_of_isValue {cs : List Char} {v : Json} (h : IsValue cs v) : Reads cs (tokens v) := by
  match h with
  | .null => exact reads_word (List.all_eq_true.1 (by decide)) rfl
  | .yes => exact reads_word (List.all_eq_true.1 (by decide)) rfl
  | .no => exact reads_word (List.all_eq_true.1 (by decide)) rfl
  | @IsValue.number cs hn =>
    have hn := isNumber_iff.2 hn
    have hword := word?_of_isNumber ((congrArg isNumber String.toList_ofList).trans hn)
    rw [String.toList_ofList] at hword
    exact reads_word (isWord_of_isNumber hn) hword
  | .text hs => exact reads_spelled hs
  | .emptyArray hb =>
    have hclose : Follows [']'] [.closeArray] := reads_nil.punctuation rfl
    exact ((hclose.gap hb.gaps).reads.punctuation rfl).reads
  | .array hvs =>
    obtain ⟨v, vs, rfl, hreads⟩ := reads_of_isElements hvs
    exact (hreads.punctuation rfl).reads
  | .emptyObject hb =>
    have hclose : Follows ['}'] [.closeObject] := reads_nil.punctuation rfl
    exact ((hclose.gap hb.gaps).reads.punctuation rfl).reads
  | .object hms =>
    obtain ⟨name, v, ms, rfl, hreads⟩ := reads_of_isMembers hms
    exact (hreads.punctuation rfl).reads

theorem reads_of_isElement {cs ds : List Char} {v : Json} {ts : List Token} (h : IsElement cs v)
    (hf : Follows ds ts) : Reads (cs ++ ds) (tokens v ++ ts) := by
  match h with
  | .mk hbefore hv hbehind =>
    have hreads := ((reads_of_isValue hv).append (hf.gap hbehind.gaps)).gap hbefore.gaps
    simpa only [List.append_assoc] using hreads

/-- The values of an array, with what closes it. -/
theorem reads_of_isElements {cs : List Char} {vs : List Json} (h : IsElements cs vs) :
    ∃ w ws, vs = w :: ws ∧ Reads (cs ++ [']']) (tokens w ++ itemTokens ws) := by
  match h with
  | .one hv =>
    have hclose : Follows [']'] [.closeArray] := reads_nil.punctuation rfl
    exact ⟨_, [], rfl, reads_of_isElement hv hclose⟩
  | .more hv hvs =>
    obtain ⟨w, ws, rfl, hreads⟩ := reads_of_isElements hvs
    refine ⟨_, _, rfl, ?_⟩
    rw [List.append_assoc]
    exact reads_of_isElement hv (hreads.punctuation (c := ',') rfl)

theorem reads_of_isMember {cs ds : List Char} {m : Member} {ts : List Token} (h : IsMember cs m)
    (hf : Follows ds ts) :
    Reads (cs ++ ds) (.scalar (.text m.1) :: .colon :: (tokens m.2 ++ ts)) := by
  match h with
  | .mk hbefore hs hbehind hv =>
    have hvalue := (reads_of_isElement hv hf).punctuation (c := ':') rfl
    have hreads := ((reads_spelled hs).append (hvalue.gap hbehind.gaps)).gap hbefore.gaps
    simpa only [List.append_assoc, List.cons_append, List.nil_append] using hreads

/-- The members of an object, with what closes it. -/
theorem reads_of_isMembers {cs : List Char} {ms : List Member} (h : IsMembers cs ms) :
    ∃ name w ws, ms = (name, w) :: ws ∧
      Reads (cs ++ ['}']) (.scalar (.text name) :: .colon :: (tokens w ++ memberTokens ws)) := by
  match h with
  | .one hm =>
    have hclose : Follows ['}'] [.closeObject] := reads_nil.punctuation rfl
    exact ⟨_, _, [], rfl, reads_of_isMember hm hclose⟩
  | .more hm hms =>
    obtain ⟨name, w, ws, rfl, hreads⟩ := reads_of_isMembers hms
    refine ⟨_, _, _, rfl, ?_⟩
    rw [List.append_assoc]
    exact reads_of_isMember hm (hreads.punctuation (c := ',') rfl)

end

/-- Whatever the grammar derives is read as that value. -/
theorem parse?_of_denotes {text : String} {v : Json} (h : Denotes text v) :
    parse? text = some v := by
  have hend : Follows [] [] := fun s before hs => ⟨s, rfl, by rw [hs, List.append_nil]⟩
  have hreads := reads_of_isElement h hend
  rw [List.append_nil, List.append_nil] at hreads
  rw [parse?, tokens?_of_reads hreads]
  exact ofTokens?_tokens v

/-! ## Parts of a value -/

/-- Some text is the value. -/
def HasText (v : Json) : Prop := ∃ cs, IsValue cs v

theorem IsElement.hasText {cs : List Char} {v : Json} (h : IsElement cs v) : HasText v := by
  obtain ⟨_, hv, _⟩ := h
  exact ⟨_, hv⟩

theorem IsElements.hasText {cs : List Char} {vs : List Json} (h : IsElements cs vs) :
    ∀ v ∈ vs, HasText v := by
  match h with
  | .one hv => exact List.forall_mem_singleton.2 hv.hasText
  | .more hv hvs => exact List.forall_mem_cons.2 ⟨hv.hasText, hvs.hasText⟩

theorem IsMember.hasText {cs : List Char} {m : Member} (h : IsMember cs m) : HasText m.2 := by
  obtain ⟨_, _, _, hv⟩ := h
  exact hv.hasText

theorem IsMembers.hasText {cs : List Char} {ms : List Member} (h : IsMembers cs ms) :
    ∀ m ∈ ms, HasText m.2 := by
  match h with
  | .one hm => exact List.forall_mem_singleton.2 hm.hasText
  | .more hm hms => exact List.forall_mem_cons.2 ⟨hm.hasText, hms.hasText⟩

theorem HasText.isNumber {literal : String} (h : HasText (.scalar (.number literal))) :
    IsNumber literal.toList := by
  obtain ⟨cs, hv⟩ := h
  cases hv with
  | number hn => rwa [String.toList_ofList]

theorem HasText.of_mem_array {vs : List Json} (h : HasText (.array vs)) : ∀ v ∈ vs, HasText v := by
  obtain ⟨cs, hv⟩ := h
  cases hv with
  | emptyArray => exact List.forall_mem_nil _
  | array hvs => exact hvs.hasText

theorem HasText.of_mem_record {members : List (String × Json)} (h : HasText (.record members)) :
    ∀ m ∈ members, HasText m.2 := by
  intro m hm
  obtain ⟨cs, hv⟩ := h
  generalize hrecord : Json.record members = v at hv
  cases hv with
  | emptyObject =>
    injection hrecord with hms
    rw [List.map_eq_nil_iff.1 hms] at hm
    cases hm
  | object hobject =>
    injection hrecord with hms
    subst hms
    exact hobject.hasText (some m.1, m.2) (List.mem_map_of_mem hm)
  | _ => cases hrecord

end RhythmClip.Json
