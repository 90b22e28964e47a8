import RhythmClip.Proofs.Pattern.Notation
import Mathlib.Data.List.Induction
import Mathlib.Data.String.Basic

/-!
# Open and misplaced brackets

A scan of a text from left to right keeps the places of the brackets that are
open on a stack. A `]` is misplaced when the stack is empty or a `[` stands
right in front of it. All this is said of the characters alone, without a
reader.

* `foreign_of_symbolsFrom`: only a first foreign character keeps a text from being notation.
* `stands_at_of_mem_openBrackets`: the stack holds places of opening brackets.
* `FirstMisplaced.unique`: one `]` is the first that is misplaced.
-/
namespace RhythmClip.Pattern

/-! ## Notation characters -/

/-- The text has no character that is foreign to patterns. -/
def IsNotation (cs : List Char) : Prop := ∀ c ∈ cs, c ∈ ['x', '-', '_', '[', ']']

theorem notation_contains_char (s : Symbol) : s.char ∈ ['x', '-', '_', '[', ']'] := by
  rcases s with (_ | _ | _) | _ | _ <;> decide

theorem ofChar?_eq_none_iff (c : Char) :
    Symbol.ofChar? c = none ↔ c ∉ ['x', '-', '_', '[', ']'] := by
  constructor
  · intro h hc
    simp only [List.mem_cons, List.not_mem_nil, or_false] at hc
    rcases hc with rfl | rfl | rfl | rfl | rfl <;> cases h
  · intro h
    cases hs : Symbol.ofChar? c with
    | none => rfl
    | some s => exact absurd (Symbol.char_of_ofChar? hs ▸ notation_contains_char s) h

theorem isNotation_map_char (ss : List Symbol) : IsNotation (ss.map Symbol.char) := by
  intro c hc
  obtain ⟨s, -, rfl⟩ := List.mem_map.1 hc
  exact notation_contains_char s

theorem IsNotation.exists_symbols {cs : List Char} (h : IsNotation cs) :
    ∃ ss : List Symbol, ss.map Symbol.char = cs := by
  induction cs with
  | nil => exact ⟨[], rfl⟩
  | cons c cs ih =>
    obtain ⟨hc, hcs⟩ := List.forall_mem_cons.1 h
    obtain ⟨ss, rfl⟩ := ih hcs
    cases hs : Symbol.ofChar? c with
    | none => exact absurd hc ((ofChar?_eq_none_iff c).1 hs)
    | some s => exact ⟨s :: ss, by rw [List.map_cons, Symbol.char_of_ofChar? hs]⟩

/-- Notation characters take one byte each. -/
theorem IsNotation.utf8ByteSize {cs : List Char} (h : IsNotation cs) :
    (String.ofList cs).utf8ByteSize = cs.length := by
  obtain ⟨ss, rfl⟩ := h.exists_symbols
  rw [String.utf8ByteSize_ofList]
  induction ss with
  | nil => rfl
  | cons s ss ih =>
    rw [List.map_cons, String.utf8Len_cons, Symbol.utf8Size_char, ih (isNotation_map_char ss),
      List.length_cons]

theorem foreign_of_symbolsFrom {cs : List Char} {offset : Nat} {cause : PatternFault}
    (h : symbolsFrom offset cs = .error cause) :
    ∃ before c after, cs = before ++ c :: after ∧ IsNotation before ∧
      c ∉ ['x', '-', '_', '[', ']'] ∧ cause = .foreign c (offset + before.length) := by
  induction cs generalizing offset with
  | nil => cases h
  | cons c cs ih =>
    simp only [symbolsFrom] at h
    cases hs : Symbol.ofChar? c with
    | none =>
      rw [hs] at h
      cases h
      exact ⟨[], c, cs, rfl, fun _ h => (List.not_mem_nil h).elim, (ofChar?_eq_none_iff c).1 hs, rfl⟩
    | some s =>
      rw [hs] at h
      cases hr : symbolsFrom (offset + c.utf8Size) cs with
      | ok ss => rw [hr] at h; cases h
      | error e =>
        rw [hr] at h
        cases h
        obtain ⟨before, d, after, rfl, hbefore, hd, rfl⟩ := ih hr
        obtain rfl := Symbol.char_of_ofChar? hs
        refine ⟨s.char :: before, d, after, rfl,
          List.forall_mem_cons.2 ⟨notation_contains_char s, hbefore⟩, hd, ?_⟩
        rw [Symbol.utf8Size_char, List.length_cons, Nat.add_assoc, Nat.add_comm 1]

/-! ## The scan -/

/-- The stack of open brackets behind a text that begins at `offset`; each is
held as its place, the innermost in front. -/
def openFrom (opened : List Nat) (offset : Nat) : List Char → List Nat
  | [] => opened
  | c :: cs =>
    if c = '[' then openFrom (offset :: opened) (offset + 1) cs
    else if c = ']' then openFrom opened.tail (offset + 1) cs
    else openFrom opened (offset + 1) cs

/-- The places of the brackets that a text leaves open. -/
def openBrackets (cs : List Char) : List Nat := openFrom [] 0 cs

/-- A `]` behind this text closes no bracket, or one without slots. -/
def Misplaced (front : List Char) : Prop := openBrackets front = [] ∨ front.getLast? = some '['

/-- No `]` of the text is misplaced. -/
def Sound (cs : List Char) : Prop := ∀ front back, cs = front ++ ']' :: back → ¬Misplaced front

/-- The first misplaced `]` of the text stands behind `front`. -/
structure FirstMisplaced (cs front : List Char) : Prop where
  split : ∃ back, cs = front ++ ']' :: back
  sound : Sound front
  misplaced : Misplaced front

theorem openFrom_append (opened : List Nat) (offset : Nat) (cs ds : List Char) :
    openFrom opened offset (cs ++ ds) =
      openFrom (openFrom opened offset cs) (offset + cs.length) ds := by
  induction cs generalizing opened offset with
  | nil => rfl
  | cons c cs ih =>
    have hlen : offset + (c :: cs).length = offset + 1 + cs.length := by
      rw [List.length_cons, Nat.add_assoc, Nat.add_comm 1]
    rw [List.cons_append, openFrom, openFrom, hlen]
    split
    · exact ih _ _
    · split
      · exact ih _ _
      · exact ih _ _

theorem openBrackets_append (cs ds : List Char) :
    openBrackets (cs ++ ds) = openFrom (openBrackets cs) cs.length ds := by
  rw [openBrackets, openFrom_append, Nat.zero_add]
  rfl

@[simp] theorem openBrackets_opening (cs : List Char) :
    openBrackets (cs ++ ['[']) = cs.length :: openBrackets cs := openBrackets_append cs ['[']

@[simp] theorem openBrackets_closing (cs : List Char) :
    openBrackets (cs ++ [']']) = (openBrackets cs).tail := openBrackets_append cs [']']

theorem openBrackets_other {c : Char} (ho : c ≠ '[') (hc : c ≠ ']') (cs : List Char) :
    openBrackets (cs ++ [c]) = openBrackets cs := by
  rw [openBrackets_append, openFrom, if_neg ho, if_neg hc, openFrom]

/-- The stack holds places of opening brackets. -/
theorem stands_at_of_mem_openBrackets {cs : List Char} {start : Nat}
    (h : start ∈ openBrackets cs) :
    ∃ before after, cs = before ++ '[' :: after ∧ before.length = start := by
  induction cs using List.reverseRecOn with
  | nil => cases h
  | append_singleton cs c ih =>
    have hlater : start ∈ openBrackets cs →
        ∃ before after, cs ++ [c] = before ++ '[' :: after ∧ before.length = start := by
      intro hmem
      obtain ⟨before, after, rfl, hlen⟩ := ih hmem
      exact ⟨before, after ++ [c], by simp, hlen⟩
    by_cases ho : c = '['
    · subst ho
      rw [openBrackets_opening] at h
      rcases List.mem_cons.1 h with rfl | h
      · exact ⟨cs, [], rfl, rfl⟩
      · exact hlater h
    · by_cases hc : c = ']'
      · subst hc
        rw [openBrackets_closing] at h
        exact hlater (List.mem_of_mem_tail h)
      · rw [openBrackets_other ho hc] at h
        exact hlater h

theorem sound_nil : Sound [] := fun front back h => by simp at h

theorem Sound.append_singleton {cs : List Char} {c : Char} (h : Sound cs)
    (hc : c = ']' → ¬Misplaced cs) : Sound (cs ++ [c]) := by
  intro front back hsplit
  rcases List.eq_nil_or_concat back with rfl | ⟨back, d, rfl⟩
  · obtain ⟨rfl, he⟩ := List.append_inj' hsplit rfl
    exact hc (List.cons.inj he).1
  · have hcut : cs ++ [c] = (front ++ ']' :: back) ++ [d] := by rw [hsplit]; simp
    exact h front back (List.append_inj' hcut rfl).1

theorem FirstMisplaced.not_sound {cs front : List Char} (h : FirstMisplaced cs front) :
    ¬Sound cs := by
  obtain ⟨back, hsplit⟩ := h.split
  exact fun hs => hs front back hsplit h.misplaced

theorem FirstMisplaced.length_le {cs front front' : List Char} (h : FirstMisplaced cs front)
    (h' : FirstMisplaced cs front') : front'.length ≤ front.length := by
  obtain ⟨back, rfl⟩ := h.split
  obtain ⟨back', hsplit⟩ := h'.split
  rcases List.append_eq_append_iff.1 hsplit with ⟨more, rfl, he⟩ | ⟨more, rfl, -⟩
  · cases more with
    | nil => simp
    | cons c more =>
      -- a longer front would hold the misplaced `]` behind the shorter one
      obtain rfl := (List.cons.inj he).1
      exact absurd h.misplaced (h'.sound front more rfl)
  · simp

theorem FirstMisplaced.unique {cs front front' : List Char} (h : FirstMisplaced cs front)
    (h' : FirstMisplaced cs front') : front' = front := by
  obtain ⟨back, hsplit⟩ := h.split
  obtain ⟨back', hsplit'⟩ := h'.split
  exact (List.append_inj (hsplit'.symm.trans hsplit)
    (Nat.le_antisymm (h.length_le h') (h'.length_le h))).1

end RhythmClip.Pattern
