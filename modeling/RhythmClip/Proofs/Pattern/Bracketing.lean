import RhythmClip.Proofs.Pattern.Blame
import RhythmClip.Proofs.Pattern.Durations

/-!
# Brackets around a single slot

A group of one slot has the slot to itself, so brackets around the text of one
slot change nothing but the text. They may stand anywhere in a text, also in
one that cannot be read, and nested in others.

The reader meets the slot with some rows open around it. From there on it holds
the same rows in both texts, up to brackets around single slots (`Bracketed`),
and every further symbol keeps them so.

* `readRow_alike`: reading on from rows that are alike ends alike.
* `alike_readChars`: two such texts are both read, as rows that are alike, or
  both refused.
* `Bracketed.layOut_eq`: rows that are alike have the same layout.
* `AddsBrackets.read_cases`: what becomes of a text with one pair of brackets more.
-/
namespace RhythmClip.Pattern

/-! ## Rows that are alike -/

/-- The second row is the first with brackets added around single slots, at any depth. -/
inductive Bracketed : Pattern → Pattern → Prop where
  | nil : Bracketed nil nil
  | mark (m : Mark) {p q : Pattern} : Bracketed p q → Bracketed (mark m p) (mark m q)
  | group {i j p q : Pattern} : Bracketed i j → Bracketed p q → Bracketed (group i p) (group j q)
  | slot {single j p q : Pattern} : single.slots = 1 → Bracketed single j → Bracketed p q →
    Bracketed (single ++ p) (group j q)

theorem Bracketed.refl (p : Pattern) : Bracketed p p := by
  induction p with
  | nil => exact .nil
  | mark m p ih => exact .mark m ih
  | group i p ihi ih => exact .group ihi ih

theorem Bracketed.append {p q r s : Pattern} (h : Bracketed p q) (h' : Bracketed r s) :
    Bracketed (p ++ r) (q ++ s) := by
  induction h with
  | nil => exact h'
  | mark m _ ih => exact .mark m ih
  | group hi _ _ ih => exact .group hi ih
  | slot hone hi _ _ ih =>
    rw [append_assoc]
    exact .slot hone hi ih

theorem reverse_of_slots_eq_one {p : Pattern} (h : p.slots = 1) : p.reverse = p := by
  cases p with
  | nil => cases h
  | mark m p =>
    obtain rfl := (slots_eq_zero_iff p).1 (Nat.succ.inj h)
    rfl
  | group i p =>
    obtain rfl := (slots_eq_zero_iff p).1 (Nat.succ.inj h)
    rfl

theorem Bracketed.reverse {p q : Pattern} (h : Bracketed p q) : Bracketed p.reverse q.reverse := by
  induction h with
  | nil => exact .nil
  | mark m _ ih =>
    rw [reverse_mark, reverse_mark]
    exact ih.append (.mark m .nil)
  | group hi _ _ ih =>
    rw [reverse_group, reverse_group]
    exact ih.append (.group hi .nil)
  | @slot single _ _ _ hone hi _ _ ih =>
    rw [reverse_append, reverse_of_slots_eq_one hone, reverse_group, ← append_nil single]
    exact ih.append (.slot hone hi .nil)

theorem Bracketed.slots_eq {p q : Pattern} (h : Bracketed p q) : q.slots = p.slots := by
  induction h with
  | nil => rfl
  | mark m _ ih => simp [slots, ih]
  | group _ _ _ ih => simp [slots, ih]
  | slot hone _ _ _ ih => simp [slots, ih, hone, Nat.add_comm]

theorem Bracketed.eq_nil_iff {p q : Pattern} (h : Bracketed p q) : q = .nil ↔ p = .nil := by
  rw [← slots_eq_zero_iff, h.slots_eq, slots_eq_zero_iff]

theorem Bracketed.layOut_eq {p q : Pattern} (h : Bracketed p q) {slot : Ticks}
    (hs : slot.den ≤ Ticks.wordMax) : q.layOut slot = p.layOut slot := by
  induction h generalizing slot with
  | nil => rfl
  | mark m _ ih => rw [layOut, layOut, ih hs]
  | group hi _ ihi ih =>
    rw [layOut, layOut, hi.slots_eq, ih hs]
    split
    · rfl
    · rename_i share hshare
      rw [ihi (Ticks.den_le_of_split? hshare)]
  | slot hone hi _ ihi ih =>
    rw [layOut_append, layOut, hi.slots_eq, hone, Ticks.split?_one hs, ih hs]
    simp only [ihi hs]

/-! ## Reading rows that are alike -/

/-- Both readings give a row, and the rows are alike, or neither does. -/
inductive Alike : Except PatternFault Pattern → Except PatternFault Pattern → Prop where
  | rows {p q : Pattern} : Bracketed p q → Alike (.ok p) (.ok q)
  | faults (e e' : PatternFault) : Alike (.error e) (.error e')

/-- The open brackets stand at other places, but the rows in front of them are alike. -/
def FramesAlike : List Frame → List Frame → Prop :=
  List.Forall₂ fun f g => Bracketed f.before g.before

theorem readRow_alike {ss : List Symbol} {current current' : Pattern} {frames frames' : List Frame}
    (hc : Bracketed current current') (hf : FramesAlike frames frames') (offset offset' : Nat) :
    Alike (readRow current frames offset ss) (readRow current' frames' offset' ss) := by
  -- on the symbols still to come, as for any property of what the reader holds
  induction ss generalizing current current' frames frames' offset offset' with
  | nil =>
    cases hf with
    | nil => exact .rows hc.reverse
    | cons => exact .faults _ _
  | cons s ss ih =>
    cases s with
    | mark m => exact ih (.mark m hc) hf _ _
    | opening => exact ih .nil (.cons hc hf) _ _
    | closing =>
      cases hf with
      | nil => exact .faults _ _
      | @cons f g outer outer' hfront hf =>
        simp only [readRow]
        by_cases hnil : current = nil
        · rw [if_pos hnil, if_pos (hc.eq_nil_iff.2 hnil)]
          exact .faults _ _
        · rw [if_neg hnil, if_neg (mt hc.eq_nil_iff.1 hnil)]
          exact ih (.group hc.reverse hfront) hf _ _

theorem framesAlike_refl (frames : List Frame) : FramesAlike frames frames :=
  List.forall₂_same.2 fun f _ => .refl f.before

/-- What stands in front of the slot is read the same way, or refused, in both texts. -/
theorem alike_readRow_bracketed {single : Pattern} (hone : single.slots = 1)
    (hg : single.NoEmptyGroup) (us vs : List Symbol) (current : Pattern) (frames : List Frame)
    (offset : Nat) :
    Alike (readRow current frames offset (us ++ single.symbols ++ vs))
      (readRow current frames offset (us ++ (group single nil).symbols ++ vs)) := by
  induction us generalizing current frames offset with
  | nil =>
    have hne : single ≠ nil := by
      rintro rfl
      cases hone
    rw [List.nil_append, List.nil_append, readRow_symbols single hg,
      readRow_symbols (group single nil) ⟨hne, hg, trivial⟩, reverseOnto_eq, reverseOnto_eq,
      reverse_of_slots_eq_one hone]
    exact readRow_alike (.slot hone (.refl single) (.refl current)) (framesAlike_refl frames) _ _
  | cons s us ih =>
    cases s with
    | mark m => exact ih _ _ _
    | opening => exact ih _ _ _
    | closing =>
      cases frames with
      | nil => exact .faults _ _
      | cons frame outer =>
        simp only [List.cons_append, readRow]
        split
        · exact .faults _ _
        · exact ih _ _ _

/-! ## Texts -/

theorem alike_of_ne_ok {x y : Except PatternFault Pattern} (hx : ∀ p, x ≠ .ok p)
    (hy : ∀ q, y ≠ .ok q) : Alike x y := by
  cases x with
  | ok p => exact absurd rfl (hx p)
  | error e =>
    cases y with
    | ok q => exact absurd rfl (hy q)
    | error e' => exact .faults e e'

theorem isNotation_of_readChars {cs : List Char} {p : Pattern} (h : readChars cs = .ok p) :
    IsNotation cs := by
  obtain ⟨-, -, rfl⟩ := (readChars_eq_ok_iff cs p).1 h
  exact isNotation_map_char p.symbols

theorem readChars_map_char {ss : List Symbol} (h : ss ≠ []) :
    readChars (ss.map Symbol.char) = readRow nil [] 0 ss := by
  rw [readChars_eq, symbolsFrom_map_char]
  exact if_neg h

theorem alike_readChars {single : Pattern} (hone : single.slots = 1) (hg : single.NoEmptyGroup)
    (before after : List Char) :
    Alike (readChars (before ++ single.symbols.map Symbol.char ++ after))
      (readChars (before ++ (group single nil).symbols.map Symbol.char ++ after)) := by
  by_cases hcs : IsNotation before ∧ IsNotation after
  · obtain ⟨us, rfl⟩ := hcs.1.exists_symbols
    obtain ⟨vs, rfl⟩ := hcs.2.exists_symbols
    have hne : single.symbols ≠ [] := symbols_ne_nil (by rintro rfl; cases hone)
    rw [← List.map_append, ← List.map_append, ← List.map_append, ← List.map_append,
      readChars_map_char (by simp [hne]), readChars_map_char (by simp [symbols])]
    exact alike_readRow_bracketed hone hg us vs nil [] 0
  · -- a foreign character in front or behind keeps both texts from being read
    have hrefused : ∀ middle p, readChars (before ++ middle ++ after) ≠ .ok p := by
      intro middle p h
      have hall := isNotation_of_readChars h
      exact hcs ⟨fun c hc => hall c (by simp [hc]), fun c hc => hall c (by simp [hc])⟩
    exact alike_of_ne_ok (hrefused _) (hrefused _)

theorem IsSlot.exists_single {cs : List Char} (h : IsSlot cs) :
    ∃ single : Pattern, single.slots = 1 ∧ single.NoEmptyGroup ∧
      single.symbols.map Symbol.char = cs := by
  cases h with
  | note => exact ⟨.mark .note .nil, rfl, trivial, rfl⟩
  | rest => exact ⟨.mark .rest .nil, rfl, trivial, rfl⟩
  | sustain => exact ⟨.mark .sustain .nil, rfl, trivial, rfl⟩
  | group h =>
    obtain ⟨p, hp⟩ := h.writes
    obtain ⟨-, hg, htext⟩ := writes_group hp
    exact ⟨.group p .nil, rfl, hg, htext⟩

/-- The reader refuses no text for its depth. -/
theorem readChars_ne_tooDeep (cs : List Char) : readChars cs ≠ .error .tooDeep :=
  fun h => nomatch (readChars_eq_error_iff cs _).1 h

/-- The second text has one pair of brackets more than the first, around a part
that is the text of a single slot. -/
inductive AddsBrackets : String → String → Prop where
  | slot (before single after : String) : IsSlot single.toList →
    AddsBrackets (before ++ single ++ after) (before ++ "[" ++ single ++ "]" ++ after)

theorem AddsBrackets.alike {t t' : String} (h : AddsBrackets t t') :
    Alike (readChars t.toList) (readChars t'.toList) := by
  obtain ⟨before, single, after, hslot⟩ := h
  obtain ⟨row, hone, hg, htext⟩ := hslot.exists_single
  have hgroup : (group row nil).symbols.map Symbol.char = '[' :: (single.toList ++ [']']) := by
    rw [← htext]
    simp [symbols, Symbol.char]
  have halike := alike_readChars hone hg before.toList after.toList
  rw [htext, hgroup] at halike
  simpa using halike

/-- Both texts are read, as rows that are alike, or both are refused, and not
for their depth. -/
theorem AddsBrackets.read_cases {t t' : String} (h : AddsBrackets t t') :
    (∃ p q, read t = .ok p ∧ read t' = .ok q ∧ Bracketed p q) ∨
      ∃ e e', read t = .error (.pattern e) ∧ read t' = .error (.pattern e') ∧
        e ≠ .tooDeep ∧ e' ≠ .tooDeep := by
  have hdeep := readChars_ne_tooDeep t.toList
  have hdeep' := readChars_ne_tooDeep t'.toList
  have halike := h.alike
  rw [read, read]
  generalize readChars t.toList = x at *
  generalize readChars t'.toList = y at *
  cases halike with
  | rows hrows => exact .inl ⟨_, _, rfl, rfl, hrows⟩
  | faults e e' => exact .inr ⟨e, e', rfl, rfl, by simpa using hdeep, by simpa using hdeep'⟩

end RhythmClip.Pattern
