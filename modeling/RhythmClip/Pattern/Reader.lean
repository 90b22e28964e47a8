import RhythmClip.Fault
import RhythmClip.Pattern

/-!
# Reading patterns

A text is first turned into symbols; a foreign character anywhere is reported
before anything else. The symbols are then read from left to right with the
open brackets on a stack: each frame holds the place of its bracket and the
slots read before it, the latest in front.

* `readRow_symbols`: reading the notation of a row adds that row.
-/
namespace RhythmClip

/-- Turns characters into symbols; `offset` bytes stand in front of them. -/
def symbolsFrom (offset : Nat) : List Char → Except PatternFault (List Symbol)
  | [] => .ok []
  | c :: cs =>
    match Symbol.ofChar? c with
    | none => .error (.foreign c offset)
    | some s => do
      let rest ← symbolsFrom (offset + c.utf8Size) cs
      return s :: rest

namespace Pattern

/-- A bracket that is still open. -/
structure Frame where
  offset : Nat
  before : Pattern
  deriving DecidableEq, Repr

/-- Reads symbols from `offset` on, with `current` the slots read so far in
the innermost open row, the latest in front, and `frames` the open brackets,
the innermost in front. -/
def readRow (current : Pattern) (frames : List Frame) (offset : Nat) :
    List Symbol → Except PatternFault Pattern
  | [] =>
    match frames with
    | [] => .ok current.reverse
    | frame :: _ => .error (.unclosed frame.offset)
  | .mark m :: rest => readRow (mark m current) frames (offset + 1) rest
  | .opening :: rest => readRow nil (⟨offset, current⟩ :: frames) (offset + 1) rest
  | .closing :: rest =>
    match frames with
    | [] => .error (.unmatched offset)
    | frame :: outer =>
      if current = nil then .error (.emptyGroup frame.offset)
      else readRow (group current.reverse frame.before) outer (offset + 1) rest

/-- Accepts a text of notation characters, whatever its brackets. -/
def check (s : String) : Except Fault Unit :=
  match symbolsFrom 0 s.toList with
  | .ok _ => .ok ()
  | .error cause => .error (.pattern cause)

/-- Reads a text as pattern notation; there must be at least one slot. -/
def readChars (cs : List Char) : Except PatternFault Pattern := do
  let symbols ← symbolsFrom 0 cs
  if symbols.isEmpty then throw .empty
  readRow nil [] 0 symbols

def read (s : String) : Except Fault Pattern := (readChars s.toList).mapError .pattern

/-! ## Small facts -/

theorem readRow_symbols (p : Pattern) (h : p.NoEmptyGroup) (current : Pattern) (frames : List Frame)
    (offset : Nat) (rest : List Symbol) :
    readRow current frames offset (p.symbols ++ rest) =
      readRow (p.reverseOnto current) frames (offset + p.symbols.length) rest := by
  induction p generalizing current frames offset rest with
  | nil => rfl
  | mark m p ih =>
    simp only [symbols, List.cons_append, readRow, reverseOnto, List.length_cons]
    rw [ih h, Nat.add_right_comm, Nat.add_assoc]
  | group i p ihi ih =>
    obtain ⟨hne, hi, hp⟩ := h
    simp only [symbols, List.cons_append, List.append_assoc, readRow, reverseOnto]
    rw [ihi hi, reverseOnto_eq, append_nil]
    simp only [readRow, reverse_ne_nil hne, if_false, reverse_reverse]
    rw [ih hp]
    congr 1
    simp only [List.length_cons, List.length_append]
    omega

end Pattern

end RhythmClip
