import RhythmClip.Proofs.Pattern.Brackets
import RhythmClip.Proofs.Pattern.Descent

/-!
# What a pattern text is blamed for

A text that cannot be read is to blame in one of five ways, and each can be
told from the scan of its brackets: the first misplaced `]` decides, and without
one the innermost bracket that is open at the end.

The reader holds more than the scan, the slots of every open row. `Scanned`
relates what it holds to the scan of the text in front of it, symbol by symbol.

* `Blames.unique`: a text is to blame in one way only.
* `verdict_readRow`: reading on from a scanned state judges the whole text rightly.
* `Blames.stands_at`: a fault points at the character that is to blame.
* `read_eq_error_iff_blames`: a text is refused with just what it is to blame for.
-/
namespace RhythmClip.Pattern

/-! ## One blame for a text -/

/-- What a text is to blame for. -/
inductive Blames (cs : List Char) : PatternFault → Prop where
  | foreign {before after : List Char} {c : Char} : cs = before ++ c :: after →
    IsNotation before → c ∉ ['x', '-', '_', '[', ']'] →
      Blames cs (.foreign c (String.ofList before).utf8ByteSize)
  | empty : cs = [] → Blames cs .empty
  | unmatched {front : List Char} : IsNotation cs → FirstMisplaced cs front →
    openBrackets front = [] → Blames cs (.unmatched front.length)
  | emptyGroup {front : List Char} : IsNotation cs → FirstMisplaced cs (front ++ ['[']) →
    Blames cs (.emptyGroup front.length)
  | unclosed {start : Nat} {outer : List Nat} : IsNotation cs → Sound cs →
    openBrackets cs = start :: outer → Blames cs (.unclosed start)

theorem foreign_unique {before before' after after' : List Char} {c c' : Char}
    (h : before ++ c :: after = before' ++ c' :: after') (hb : IsNotation before)
    (hb' : IsNotation before') (hc : c ∉ ['x', '-', '_', '[', ']'])
    (hc' : c' ∉ ['x', '-', '_', '[', ']']) : before' = before ∧ c' = c := by
  rcases List.append_eq_append_iff.1 h with ⟨more, rfl, he⟩ | ⟨more, rfl, he⟩
  · cases more with
    | nil => exact ⟨by simp, (List.cons.inj he).1.symm⟩
    | cons d more => exact absurd (hb' d (by simp)) ((List.cons.inj he).1 ▸ hc)
  · cases more with
    | nil => exact ⟨by simp, (List.cons.inj he).1⟩
    | cons d more => exact absurd (hb d (by simp)) ((List.cons.inj he).1 ▸ hc')

theorem Blames.unique {cs : List Char} {cause cause' : PatternFault} (h : Blames cs cause)
    (h' : Blames cs cause') : cause' = cause := by
  have hclash : ∀ {before after : List Char} {c : Char}, cs = before ++ c :: after →
      c ∉ ['x', '-', '_', '[', ']'] → ¬IsNotation cs := by
    rintro before after c rfl hc hcs
    exact hc (hcs c (by simp))
  cases h with
  | foreign hsplit hb hc =>
    cases h' with
    | foreign hsplit' hb' hc' =>
      obtain ⟨rfl, rfl⟩ := foreign_unique (hsplit.symm.trans hsplit') hb hb' hc hc'
      rfl
    | empty hnil => rw [hnil] at hsplit; simp at hsplit
    | unmatched hcs | emptyGroup hcs | unclosed hcs => exact absurd hcs (hclash hsplit hc)
  | empty hnil =>
    cases h' with
    | foreign hsplit => rw [hnil] at hsplit; simp at hsplit
    | empty => rfl
    | unmatched _ hfirst | emptyGroup _ hfirst => exact absurd (hnil ▸ sound_nil) hfirst.not_sound
    | unclosed _ _ hopen => rw [hnil] at hopen; cases hopen
  | unmatched hcs hfirst hnone =>
    cases h' with
    | foreign hsplit _ hc => exact absurd hcs (hclash hsplit hc)
    | empty hnil => exact absurd (hnil ▸ sound_nil) hfirst.not_sound
    | unmatched _ hfirst' => rw [hfirst.unique hfirst']
    | emptyGroup _ hfirst' =>
      rw [← hfirst.unique hfirst', openBrackets_opening] at hnone
      cases hnone
    | unclosed _ hsound => exact absurd hsound hfirst.not_sound
  | emptyGroup hcs hfirst =>
    cases h' with
    | foreign hsplit _ hc => exact absurd hcs (hclash hsplit hc)
    | empty hnil => exact absurd (hnil ▸ sound_nil) hfirst.not_sound
    | unmatched _ hfirst' hnone =>
      rw [hfirst.unique hfirst', openBrackets_opening] at hnone
      cases hnone
    | emptyGroup _ hfirst' => rw [List.append_cancel_right (hfirst.unique hfirst')]
    | unclosed _ hsound => exact absurd hsound hfirst.not_sound
  | unclosed hcs hsound hopen =>
    cases h' with
    | foreign hsplit _ hc => exact absurd hcs (hclash hsplit hc)
    | empty hnil => rw [hnil] at hopen; cases hopen
    | unmatched _ hfirst | emptyGroup _ hfirst => exact absurd hsound hfirst.not_sound
    | unclosed _ _ hopen' =>
      rw [hopen] at hopen'
      rw [(List.cons.inj hopen').1]

/-! ## The reader on its scan -/

/-- What the reader holds behind a text without a misplaced `]`. -/
structure Scanned (front : List Char) (current : Pattern) (frames : List Frame) : Prop where
  sound : Sound front
  opened : frames.map Frame.offset = openBrackets front
  fresh : current = nil ↔ front = [] ∨ front.getLast? = some '['

theorem scanned_nil : Scanned [] nil [] := ⟨sound_nil, rfl, by simp⟩

variable {front : List Char} {current : Pattern} {frames : List Frame}

theorem scanned_mark (h : Scanned front current frames) (m : Mark) :
    Scanned (front ++ [(Symbol.mark m).char]) (mark m current) frames := by
  have ho : (Symbol.mark m).char ≠ '[' := by cases m <;> decide
  have hc : (Symbol.mark m).char ≠ ']' := by cases m <;> decide
  refine ⟨h.sound.append_singleton fun e => absurd e hc, ?_, by simp [ho]⟩
  rw [openBrackets_other ho hc, h.opened]

theorem scanned_opening (h : Scanned front current frames) :
    Scanned (front ++ ['[']) nil (⟨front.length, current⟩ :: frames) := by
  refine ⟨h.sound.append_singleton fun e => absurd e (by decide), ?_, by simp⟩
  rw [openBrackets_opening, List.map_cons, h.opened]

theorem scanned_closing {frame : Frame} (h : Scanned front current (frame :: frames))
    (hne : current ≠ nil) (row before : Pattern) :
    Scanned (front ++ [']']) (group row before) frames := by
  refine ⟨h.sound.append_singleton fun _ hbad => ?_, ?_, by simp⟩
  · rcases hbad with hnone | hlast
    · rw [← h.opened] at hnone
      cases hnone
    · exact hne (h.fresh.2 (.inr hlast))
  · rw [openBrackets_closing, ← h.opened]
    rfl

/-- Right answers about a text: its row if nothing is misplaced or left open,
and else what it is to blame for. -/
def Verdict (cs : List Char) : Except PatternFault Pattern → Prop
  | .ok _ => Sound cs ∧ openBrackets cs = []
  | .error cause => Blames cs cause

theorem verdict_closing_unmatched (h : Scanned front current []) (ss : List Symbol)
    (hcs : IsNotation (front ++ ']' :: ss.map Symbol.char)) :
    Blames (front ++ ']' :: ss.map Symbol.char) (.unmatched front.length) :=
  .unmatched hcs ⟨⟨_, rfl⟩, h.sound, .inl h.opened.symm⟩ h.opened.symm

theorem verdict_closing_empty {frame : Frame} (h : Scanned front nil (frame :: frames))
    (ss : List Symbol) (hcs : IsNotation (front ++ ']' :: ss.map Symbol.char)) :
    Blames (front ++ ']' :: ss.map Symbol.char) (.emptyGroup frame.offset) := by
  rcases h.fresh.1 rfl with rfl | hlast
  · cases h.opened
  · obtain ⟨before, rfl⟩ := List.getLast?_eq_some_iff.1 hlast
    have hopen := h.opened
    rw [openBrackets_opening, List.map_cons] at hopen
    rw [(List.cons.inj hopen).1]
    exact .emptyGroup hcs ⟨⟨_, rfl⟩, h.sound, .inr hlast⟩

theorem verdict_readRow (ss : List Symbol) (h : Scanned front current frames)
    (hcs : IsNotation (front ++ ss.map Symbol.char)) :
    Verdict (front ++ ss.map Symbol.char) (readRow current frames front.length ss) := by
  -- on the symbols still to come; each of them moves to the front
  induction ss generalizing front current frames with
  | nil =>
    rw [List.map_nil, List.append_nil] at hcs ⊢
    have hopen := h.opened
    cases frames with
    | nil => exact ⟨h.sound, hopen.symm⟩
    | cons frame outer => exact .unclosed hcs h.sound hopen.symm
  | cons s ss ih =>
    have hmove : front ++ (s :: ss).map Symbol.char = (front ++ [s.char]) ++ ss.map Symbol.char := by
      simp
    have hlen : (front ++ [s.char]).length = front.length + 1 := by simp
    cases s with
    | mark m =>
      rw [hmove] at hcs ⊢
      rw [readRow, ← hlen]
      exact ih (scanned_mark h m) hcs
    | opening =>
      rw [hmove] at hcs ⊢
      rw [readRow, ← hlen]
      exact ih (scanned_opening h) hcs
    | closing =>
      cases frames with
      | nil => exact verdict_closing_unmatched h ss hcs
      | cons frame outer =>
        simp only [readRow]
        split
        · rename_i hnil
          subst hnil
          exact verdict_closing_empty h ss hcs
        · rename_i hne
          rw [hmove] at hcs ⊢
          rw [← hlen]
          exact ih (scanned_closing h hne _ _) hcs

/-! ## Texts -/

theorem verdict_readChars (cs : List Char) :
    match readChars cs with
    | .ok _ => IsNotation cs ∧ cs ≠ [] ∧ Sound cs ∧ openBrackets cs = []
    | .error cause => Blames cs cause := by
  rw [readChars_eq]
  cases hs : symbolsFrom 0 cs with
  | error cause =>
    obtain ⟨before, c, after, hsplit, hb, hc, rfl⟩ := foreign_of_symbolsFrom hs
    rw [Nat.zero_add, ← hb.utf8ByteSize]
    exact .foreign hsplit hb hc
  | ok ss =>
    obtain rfl := map_char_of_symbolsFrom hs
    have hcs := isNotation_map_char ss
    have hv := verdict_readRow ss scanned_nil hcs
    by_cases hnil : ss = []
    · subst hnil
      exact .empty rfl
    · simp only [if_neg hnil]
      simp only [List.nil_append, List.length_nil] at hv
      cases hr : readRow nil [] 0 ss with
      | error cause => rw [hr] at hv; exact hv
      | ok p =>
        rw [hr] at hv
        exact ⟨hcs, by simpa using hnil, hv⟩

theorem readChars_eq_error_iff (cs : List Char) (cause : PatternFault) :
    readChars cs = .error cause ↔ Blames cs cause := by
  have hv := verdict_readChars cs
  cases hr : readChars cs with
  | error cause' =>
    rw [hr] at hv
    constructor
    · intro h
      cases h
      exact hv
    · intro h
      rw [hv.unique h]
  | ok p =>
    rw [hr] at hv
    obtain ⟨hcs, hne, hsound, hclosed⟩ := hv
    refine ⟨nofun, fun h => ?_⟩
    cases h with
    | foreign hsplit _ hc => exact absurd (hcs _ (by rw [hsplit]; simp)) hc
    | empty hnil => exact absurd hnil hne
    | unmatched _ hfirst | emptyGroup _ hfirst => exact absurd hsound hfirst.not_sound
    | unclosed _ _ hopen => rw [hclosed] at hopen; cases hopen

/-- The character that a fault is about. -/
def culprit? : PatternFault → Option Char
  | .foreign c _ => some c
  | .unmatched _ => some ']'
  | .emptyGroup _ | .unclosed _ => some '['
  | .empty | .tooDeep => none

/-- The character stands behind `offset` others, and behind as many bytes. -/
def StandsAt (cs : List Char) (c : Char) (offset : Nat) : Prop :=
  ∃ before after, cs = before ++ c :: after ∧ before.length = offset ∧
    (String.ofList before).utf8ByteSize = offset

theorem IsNotation.standsAt {cs before after : List Char} {c : Char} (h : IsNotation cs)
    (hsplit : cs = before ++ c :: after) : StandsAt cs c before.length := by
  have hb : IsNotation before := fun d hd => h d (by rw [hsplit]; exact List.mem_append_left _ hd)
  exact ⟨before, after, hsplit, rfl, hb.utf8ByteSize⟩

theorem Blames.stands_at {cs : List Char} {cause : PatternFault} (h : Blames cs cause)
    {offset : Nat} (hoffset : cause.offset? = some offset) :
    ∃ c, culprit? cause = some c ∧ StandsAt cs c offset := by
  cases h with
  | foreign hsplit hb hc =>
    cases hoffset
    exact ⟨_, rfl, _, _, hsplit, hb.utf8ByteSize.symm, rfl⟩
  | empty => cases hoffset
  | unmatched hcs hfirst =>
    cases hoffset
    obtain ⟨back, hsplit⟩ := hfirst.split
    exact ⟨_, rfl, hcs.standsAt hsplit⟩
  | emptyGroup hcs hfirst =>
    cases hoffset
    obtain ⟨back, hsplit⟩ := hfirst.split
    rw [List.append_assoc, List.singleton_append] at hsplit
    exact ⟨_, rfl, hcs.standsAt hsplit⟩
  | unclosed hcs _ hopen =>
    cases hoffset
    obtain ⟨before, after, hsplit, rfl⟩ :=
      stands_at_of_mem_openBrackets (hopen ▸ List.mem_cons_self)
    exact ⟨_, rfl, hcs.standsAt hsplit⟩

/-- **Why a text is refused.** A text is refused with just what it is to blame
for: a foreign character, wherever the first one stands; else that it is empty;
else the first misplaced `]`, as unmatched or as the end of an empty group; else
the innermost bracket that is left open. A place that is reported is that of the
character to blame, in characters and in bytes. A reader that calls itself for
the groups of a text answers alike, and never halts at a character that is no
symbol. -/
theorem read_eq_error_iff_blames (s : String) :
    (∀ fault, read s = .error fault ↔ ∃ cause, fault = .pattern cause ∧ Blames s.toList cause) ∧
      (∀ cause offset, Blames s.toList cause → cause.offset? = some offset →
        ∃ c, culprit? cause = some c ∧ StandsAt s.toList c offset) ∧
      descent s.toList = (readChars s.toList).mapError Halt.fault ∧
      ∀ c offset, descent s.toList ≠ .error (.stray c offset) := by
  have hdescent := descent_eq s.toList
  refine ⟨fun fault => ?_, fun cause offset h => h.stands_at, hdescent, fun c offset h => ?_⟩
  · simp only [← readChars_eq_error_iff, read]
    cases readChars s.toList with
    | ok p =>
      constructor
      · intro h; cases h
      · rintro ⟨cause, -, h⟩; cases h
    | error cause =>
      constructor
      · intro h; cases h; exact ⟨cause, rfl, rfl⟩
      · rintro ⟨cause', rfl, h⟩; cases h; rfl
  · rw [hdescent] at h
    cases hr : readChars s.toList with
    | ok p => rw [hr] at h; cases h
    | error cause => rw [hr] at h; cases h

/-- The `]` that closes nothing decides, not the empty group or the open bracket behind it. -/
theorem read_eq_error_iff_blames_first : Blames "x[-]]x[[]".toList (.unmatched 4) := by
  obtain ⟨cause, hcause, hblames⟩ :=
    ((read_eq_error_iff_blames "x[-]]x[[]").1 (.pattern (.unmatched 4))).1 (by decide +kernel)
  cases hcause
  exact hblames

end RhythmClip.Pattern
