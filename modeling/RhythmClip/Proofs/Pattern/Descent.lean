import RhythmClip.Proofs.Pattern.Notation

/-!
# Reading by descent

A reader may also call itself for every group, so that the open brackets are
the calls that have not returned. Such a reader takes a text character by
character, and could halt at one that is no symbol. The calls that wait for a
group are the frames of the stack (`unwind`), and behind a check of all
characters the two readers answer alike.

* `readRow_eq_unwind`: reading on with a stack is returning to its frames.
* `descent_eq`: so descent and stack agree, and the descent halts at faults only.
-/
namespace RhythmClip.Pattern

/-! ## The descent -/

/-- What stops a descent: a fault of the brackets, or a character that is no symbol. -/
inductive Halt where
  | fault (cause : PatternFault)
  | stray (char : Char) (offset : Nat)
  deriving DecidableEq, Repr

/-- A row from the front of a text, and the end of the text, which begins at `offset`. -/
structure Parsed (cs : List Char) where
  row : Pattern
  offset : Nat
  rest : List Char
  length_rest_le : rest.length ≤ cs.length

def Parsed.widen {cs ds : List Char} (parsed : Parsed cs) (h : cs.length ≤ ds.length) :
    Parsed ds :=
  { parsed with length_rest_le := Nat.le_trans parsed.length_rest_le h }

/-- Reads a row up to the `]` of the bracket at `opened`, or to the end of the
text if no bracket is open; `done` holds the slots so far, the latest in front. -/
def descend (opened : Option Nat) (done : Pattern) (offset : Nat) :
    (cs : List Char) → Except Halt (Parsed cs)
  | [] =>
    match opened with
    | none => .ok ⟨done.reverse, offset, [], Nat.le_refl _⟩
    | some start => .error (.fault (.unclosed start))
  | c :: cs =>
    match Symbol.ofChar? c with
    | none => .error (.stray c offset)
    | some (.mark m) =>
      (descend opened (mark m done) (offset + c.utf8Size) cs).map (·.widen (Nat.le_succ _))
    | some .opening =>
      match descend (some offset) nil (offset + c.utf8Size) cs with
      | .error halt => .error halt
      | .ok inner =>
        if inner.row = nil then .error (.fault (.emptyGroup offset))
        else
          (descend opened (group inner.row done) inner.offset inner.rest).map
            (·.widen (Nat.le_succ_of_le inner.length_rest_le))
    | some .closing =>
      match opened with
      | none => .error (.fault (.unmatched offset))
      | some _ => .ok ⟨done.reverse, offset + c.utf8Size, cs, Nat.le_succ _⟩
termination_by cs => cs.length
decreasing_by
  · exact Nat.lt_succ_self _
  · exact Nat.lt_succ_self _
  · exact Nat.lt_succ_of_le inner.length_rest_le

/-- Reads a text by descent, once all its characters have been checked. -/
def descent (cs : List Char) : Except Halt Pattern := do
  let _ ← (symbolsFrom 0 cs).mapError Halt.fault
  if cs.isEmpty then throw (.fault .empty)
  (descend none nil 0 cs).map (·.row)

/-! ## Returning to frames -/

/-- Returns from the calls that wait for a group, the innermost first. -/
def unwind : List Frame → {cs : List Char} → Except Halt (Parsed cs) → Except Halt Pattern
  | [], _, parsed => parsed.map (·.row)
  | _ :: _, _, .error halt => .error halt
  | frame :: outer, _, .ok inner =>
    if inner.row = nil then .error (.fault (.emptyGroup frame.offset))
    else
      unwind outer (descend (outer.head?.map Frame.offset) (group inner.row frame.before)
        inner.offset inner.rest)

theorem unwind_widen (frames : List Frame) {cs ds : List Char} (x : Except Halt (Parsed cs))
    (h : cs.length ≤ ds.length) : unwind frames (x.map (·.widen h)) = unwind frames x := by
  cases frames <;> cases x <;> rfl

theorem unwind_error (frames : List Frame) {cs : List Char} (halt : Halt) :
    unwind frames (.error halt : Except Halt (Parsed cs)) = .error halt := by
  cases frames <;> rfl

theorem readRow_eq_unwind (ss : List Symbol) (current : Pattern) (frames : List Frame)
    (offset : Nat) :
    (readRow current frames offset ss).mapError Halt.fault =
      unwind frames
        (descend (frames.head?.map Frame.offset) current offset (ss.map Symbol.char)) := by
  induction ss generalizing current frames offset with
  | nil =>
    rw [List.map_nil, descend.eq_def]
    cases frames with
    | nil => rfl
    | cons frame outer => rfl
  | cons s ss ih =>
    rw [List.map_cons, descend.eq_def]
    simp only [Symbol.ofChar?_char, Symbol.utf8Size_char]
    cases s with
    | mark m => rw [unwind_widen, ← ih, readRow]
    | opening =>
      -- the group is read by a call of its own, which returns to a new frame
      rw [readRow, ih]
      show unwind (⟨offset, current⟩ :: frames) (descend (some offset) nil (offset + 1) _) = _
      cases descend (some offset) nil (offset + 1) (ss.map Symbol.char) with
      | error halt => simp only [unwind_error]
      | ok inner =>
        simp only [unwind]
        split
        · rw [unwind_error]
        · rw [unwind_widen]
    | closing =>
      cases frames with
      | nil => rfl
      | cons frame outer =>
        simp only [readRow, List.head?_cons, Option.map_some, unwind]
        by_cases hnil : current = nil
        · rw [hnil]
          rfl
        · rw [if_neg hnil, if_neg (reverse_ne_nil hnil), ih]

/-- **Descent and stack read alike.** In particular a descent behind the check
of characters never meets a character that is no symbol. -/
theorem descent_eq (cs : List Char) : descent cs = (readChars cs).mapError Halt.fault := by
  rw [readChars_eq, descent]
  cases h : symbolsFrom 0 cs with
  | error e => rfl
  | ok ss =>
    obtain rfl := map_char_of_symbolsFrom h
    cases ss with
    | nil => rfl
    | cons s ss => exact (readRow_eq_unwind (s :: ss) nil [] 0).symm

end RhythmClip.Pattern
