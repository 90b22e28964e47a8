import RhythmClip.Proofs.Json.Grammar
import Mathlib.Data.List.Induction

/-!
# What is written is JSON

In either layout a value is written in the grammar, and the grammar gives that
value back. This is shown without the reader, from the values inside outwards:
a container is writable when all it holds is.

* `spells_escape`: a text is spelled by its escapes.
* `IsNumber.eq_decimal`: a natural number is written in the one way there is.
* `Writable.array`, `Writable.record`: containers of writable values.
* `Writable.denotes`: the text of a writable value is that value in the grammar.
-/
namespace RhythmClip.Json

/-! ## Texts -/

theorem isHexDigit_digitChar {n : Nat} (h : n < 16) : IsHexDigit (Nat.digitChar n) n := by
  have hdigit : ∀ n < 16, "0123456789abcdef".toList[n]? = some (Nat.digitChar n) := by
    decide +kernel
  exact .inl (hdigit n h)

theorem spells_escapeChar (c : Char) {cs s : List Char} (h : Spells cs s) :
    Spells (escapeChar c ++ cs) (c :: s) := by
  unfold escapeChar
  split
  all_goals try exact .short (by decide) h
  rename_i hq hb _ _ _ _ _
  split
  · rename_i hc
    have hzero : IsHexDigit '0' 0 := isHexDigit_digitChar (by decide)
    have hhex := IsHex.mk hzero hzero (isHexDigit_digitChar (n := c.toNat / 16) (by omega))
      (isHexDigit_digitChar (Nat.mod_lt c.toNat (by decide : 0 < 16)))
    rw [show ((0 * 16 + 0) * 16 + c.toNat / 16) * 16 + c.toNat % 16 = c.toNat by omega] at hhex
    exact .point hhex h
  · rename_i hc
    exact .plain (by omega) hq hb h

theorem spells_escape (cs : List Char) : Spells (escape cs) cs := by
  induction cs with
  | nil => exact .nil
  | cons c cs ih => exact spells_escapeChar c ih

/-! ## Numbers -/

theorem isWhole_decimal (n : Nat) : IsWhole (Text.decimal n).toList := by
  rcases decimal_cases n with h | ⟨c, cs, h, hzero, hdigits⟩
  · exact h ▸ .zero
  · exact h ▸ .digits hzero hdigits

theorem IsWhole.isNumber {sign whole : List Char} (hsign : sign ∈ [[], ['-']])
    (h : IsWhole whole) : IsNumber (sign ++ whole) := by
  simpa using IsNumber.mk hsign h .absent .absent

theorem isNumber_decimalInt (z : Int) : IsNumber (Text.decimalInt z).toList := by
  cases z with
  | ofNat n => exact (isWhole_decimal n).isNumber (by simp : [] ∈ _)
  | negSucc n =>
    rw [Text.decimalInt, String.toList_append]
    exact (isWhole_decimal (n + 1)).isNumber (by decide)

theorem ofDigitChars_append_singleton (cs : List Char) (d : Char) :
    Nat.ofDigitChars 10 (cs ++ [d]) 0 = 10 * Nat.ofDigitChars 10 cs 0 + (d.toNat - 48) := by
  rw [Nat.ofDigitChars_append, Nat.ofDigitChars_cons, Nat.ofDigitChars_nil]
  rfl

theorem digitChar_of_isDigit {d : Char} (h : d.isDigit = true) :
    d.toNat - 48 < 10 ∧ Nat.digitChar (d.toNat - 48) = d := by
  have hrange : 48 ≤ d.toNat ∧ d.toNat ≤ 57 := by
    simpa [Char.isDigit, UInt32.le_iff_toNat_le] using h
  have hlt : d.toNat - 48 < 10 := by omega
  refine ⟨hlt, Char.toNat_inj.1 ?_⟩
  rw [Nat.toNat_digitChar_of_lt_ten hlt]
  omega

/-- Digits without a leading zero are how their value is written. -/
theorem toDigits_ofDigitChars {c : Char} {cs : List Char} (hzero : c ≠ '0')
    (hds : IsDigits (c :: cs)) : Nat.toDigits 10 (Nat.ofDigitChars 10 (c :: cs) 0) = c :: cs := by
  induction cs using List.reverseRecOn with
  | nil =>
    obtain ⟨hlt, hdigit⟩ := digitChar_of_isDigit (hds c List.mem_cons_self)
    rw [← List.nil_append [c], ofDigitChars_append_singleton, Nat.ofDigitChars_nil, Nat.mul_zero,
      Nat.zero_add, Nat.toDigits_of_lt_base hlt, hdigit]
    rfl
  | append_singleton cs d ih =>
    rw [← List.cons_append] at hds ⊢
    obtain ⟨hcs, hd⟩ := List.forall_mem_append.1 hds
    obtain ⟨hlt, hdigit⟩ := digitChar_of_isDigit (hd d List.mem_cons_self)
    have ih := ih hcs
    have hpos : 0 < Nat.ofDigitChars 10 (c :: cs) 0 := by
      refine Nat.pos_of_ne_zero fun hn => hzero ?_
      rw [hn] at ih
      exact (List.cons.inj ih).1.symm
    rw [ofDigitChars_append_singleton, ← Nat.toDigits_append_toDigits (by decide) hpos hlt, ih,
      Nat.toDigits_of_lt_base hlt, hdigit]

/-- A number of digits only is a whole number without sign. -/
theorem IsNumber.isWhole {cs : List Char} (h : IsNumber cs) (hds : IsDigits cs) : IsWhole cs := by
  obtain ⟨hsign, hw, hf, he⟩ := h
  rename_i sign whole fraction exponent
  have hnot : ∀ c ∈ sign ++ (whole ++ (fraction ++ exponent)), c.isDigit = false → False :=
    fun c hc hdigit => by rw [hds c hc] at hdigit; cases hdigit
  obtain rfl : sign = [] := by
    simp only [List.mem_cons, List.not_mem_nil, or_false] at hsign
    rcases hsign with rfl | rfl
    · rfl
    · exact (hnot '-' (by simp) rfl).elim
  have hfe : fraction ++ exponent = [] := by
    cases hrest : fraction ++ exponent with
    | nil => rfl
    | cons c cs =>
      have hc := head?_not_isDigit hf he c (by rw [hrest]; rfl)
      exact (hnot c (by simp [hrest]) hc).elim
  rwa [hfe, List.append_nil, List.nil_append]

/-- JSON has one literal for each natural number. -/
theorem IsNumber.eq_decimal {cs : List Char} {n : Nat} (h : IsNumber cs)
    (hn : Text.natural? cs = some n) : cs = (Text.decimal n).toList := by
  unfold Text.natural? at hn
  split at hn
  · cases hn
  · rename_i hcs
    obtain ⟨-, hds⟩ : cs ≠ [] ∧ IsDigits cs := by simpa [IsDigits] using hcs
    rw [← Option.some.inj hn, Text.decimal, String.toList_ofList]
    cases h.isWhole hds with
    | zero => rfl
    | digits hzero hds => exact (toDigits_ofDigitChars hzero hds).symm

/-! ## Values -/

/-- In every layout and at every depth, the value is written in the grammar. -/
def Writable (v : Json) : Prop := ∀ style depth, IsValue (writeChars style depth v) v

theorem areBlanks_nil : AreBlanks [] := List.forall_mem_nil _

theorem areBlanks_line (style : Style) (depth : Nat) : AreBlanks (style.line depth) := by
  intro c hc
  simpa [isGap, or_assoc] using isGap_line hc

theorem areBlanks_gap (style : Style) : AreBlanks style.gap := by
  intro c hc
  simpa [isGap, or_assoc] using isGap_gap hc

theorem Writable.null : Writable .null := fun _ _ => .null

theorem Writable.bool (b : Bool) : Writable (.bool b) := by
  cases b with
  | true => exact fun _ _ => .yes
  | false => exact fun _ _ => .no

theorem Writable.text (s : String) : Writable (.text s) := by
  intro style depth
  have hvalue := IsValue.text (spells_escape s.toList)
  rwa [String.ofList_toList] at hvalue

theorem writable_number {literal : String} (h : IsNumber literal.toList) :
    Writable (.scalar (.number literal)) := by
  intro style depth
  have hvalue := IsValue.number h
  rwa [String.ofList_toList] at hvalue

theorem Writable.natural (n : Nat) : Writable (.natural n) :=
  writable_number ((isWhole_decimal n).isNumber (by simp : [] ∈ _))

theorem Writable.integer (z : Int) : Writable (.integer z) := writable_number (isNumber_decimalInt z)

variable {v : Json} {vs : List Json}

/-- An item of an array, and the later ones up to the closing bracket. -/
theorem isElements_written (style : Style) (depth : Nat) (hv : Writable v)
    (hvs : ∀ v ∈ vs, Writable v) :
    ∃ cs, style.line (depth + 1) ++ writeChars style (depth + 1) v ++ writeItems style depth vs =
      cs ++ [']'] ∧ IsElements cs (v :: vs) := by
  induction vs generalizing v with
  | nil =>
    exact ⟨_, by rw [writeItems, List.append_assoc, List.append_assoc, List.append_assoc],
      .one (.mk (areBlanks_line style (depth + 1)) (hv style _) (areBlanks_line style depth))⟩
  | cons w ws ih =>
    obtain ⟨hw, hws⟩ := List.forall_mem_cons.1 hvs
    obtain ⟨cs, heq, hcs⟩ := ih hw hws
    have hfirst := IsElement.mk (areBlanks_line style (depth + 1)) (hv style (depth + 1))
      areBlanks_nil
    refine ⟨_, ?_, .more hfirst hcs⟩
    rw [writeItems, heq]
    simp only [List.append_assoc, List.append_nil, List.cons_append]

theorem Writable.array (h : ∀ v ∈ vs, Writable v) : Writable (.array vs) := by
  intro style depth
  cases vs with
  | nil => exact .emptyArray areBlanks_nil
  | cons v vs =>
    obtain ⟨hv, hvs⟩ := List.forall_mem_cons.1 h
    obtain ⟨cs, heq, hcs⟩ := isElements_written style depth hv hvs
    rw [writeChars_array_cons, heq]
    exact .array hcs

/-- A member of an object with any blanks behind its value. -/
theorem isMember_written (style : Style) (depth : Nat) (name : String) {behind : List Char}
    (hv : Writable v) (hbehind : AreBlanks behind) :
    IsMember (style.line (depth + 1) ++ (quoted (some name) ++ ([] ++ ':' :: (style.gap ++
      (writeChars style (depth + 1) v ++ behind))))) (some name, v) := by
  have hvalue := IsElement.mk (areBlanks_gap style) (hv style (depth + 1)) hbehind
  have hmember := IsMember.mk (areBlanks_line style (depth + 1)) (spells_escape name.toList)
    areBlanks_nil hvalue
  rw [String.ofList_toList] at hmember
  exact hmember

/-- A member of an object, and the later ones up to the closing bracket. -/
theorem isMembers_written (style : Style) (depth : Nat) (name : String)
    {members : List (String × Json)} (hv : Writable v) (h : ∀ m ∈ members, Writable m.2) :
    ∃ cs, style.line (depth + 1) ++ quoted (some name) ++ ':' :: style.gap
        ++ writeChars style (depth + 1) v
        ++ writeMembers style depth (members.map fun (name, value) => (some name, value)) =
      cs ++ ['}'] ∧
      IsMembers cs ((some name, v) :: members.map fun (name, value) => (some name, value)) := by
  induction members generalizing name v with
  | nil =>
    refine ⟨_, ?_, .one (isMember_written style depth name hv (areBlanks_line style depth))⟩
    simp only [List.map_nil, writeMembers, List.append_assoc, List.cons_append, List.nil_append]
  | cons m ms ih =>
    obtain ⟨hm, hms⟩ := List.forall_mem_cons.1 h
    obtain ⟨cs, heq, hcs⟩ := ih m.1 hm hms
    refine ⟨_, ?_, .more (isMember_written style depth name hv areBlanks_nil) hcs⟩
    rw [List.map_cons, writeMembers, heq]
    simp only [List.append_assoc, List.append_nil, List.cons_append, List.nil_append]

theorem Writable.record {members : List (String × Json)} (h : ∀ m ∈ members, Writable m.2) :
    Writable (.record members) := by
  intro style depth
  cases members with
  | nil => exact .emptyObject areBlanks_nil
  | cons m ms =>
    obtain ⟨hm, hms⟩ := List.forall_mem_cons.1 h
    obtain ⟨cs, heq, hcs⟩ := isMembers_written style depth m.1 hm hms
    have hobject := IsValue.object hcs
    rw [← heq] at hobject
    exact hobject

theorem Writable.denotes (h : Writable v) (style : Style) : Denotes (write style v) v := by
  have helement := IsElement.mk areBlanks_nil (h style 0) areBlanks_nil
  rw [Denotes, write, String.toList_ofList]
  simpa only [List.nil_append, List.append_nil] using helement

end RhythmClip.Json
