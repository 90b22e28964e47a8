import RhythmClip.Pattern.Symbol

/-!
# Patterns

A pattern is a row of slots. A slot holds a mark or a group, and a group is a
row of its own that shares out the slot. The row is one inductive type, so
every view of it is a recursion along the row and into its groups.

* `slots_append`, `symbols_append`, `marks_append`: the views of two rows one
  after the other.
* `NoEmptyGroup`: every group, at any depth, has a slot.
* `reverse_reverse`: a row read backwards twice is the row itself.
-/
namespace RhythmClip

inductive Pattern where
  | nil
  | mark (m : Mark) (rest : Pattern)
  | group (inner rest : Pattern)
  deriving DecidableEq, Repr

namespace Pattern

/-! ## Views -/

/-- The number of slots of the row itself. -/
def slots : Pattern → Nat
  | nil => 0
  | mark _ rest => rest.slots + 1
  | group _ rest => rest.slots + 1

/-- The marks at any depth, from left to right. -/
def marks : Pattern → List Mark
  | nil => []
  | mark m rest => m :: rest.marks
  | group inner rest => inner.marks ++ rest.marks

def leafCount : Pattern → Nat
  | nil => 0
  | mark _ rest => rest.leafCount + 1
  | group inner rest => inner.leafCount + rest.leafCount

def noteCount : Pattern → Nat
  | nil => 0
  | mark .note rest => rest.noteCount + 1
  | mark _ rest => rest.noteCount
  | group inner rest => inner.noteCount + rest.noteCount

/-- The notation of the row, a group in brackets. -/
def symbols : Pattern → List Symbol
  | nil => []
  | mark m rest => .mark m :: rest.symbols
  | group inner rest => .opening :: (inner.symbols ++ .closing :: rest.symbols)

def text (p : Pattern) : String := String.ofList (p.symbols.map Symbol.char)

/-- The row as a group: its text in brackets. -/
def bracketed (p : Pattern) : String := "[" ++ p.text ++ "]"

/-- One row after the other. -/
def append : Pattern → Pattern → Pattern
  | nil, q => q
  | mark m rest, q => mark m (rest.append q)
  | group inner rest, q => group inner (rest.append q)

instance : Append Pattern := ⟨append⟩

/-- Moves the slots of the row, one by one, to the front of another. -/
def reverseOnto : Pattern → Pattern → Pattern
  | nil, done => done
  | mark m rest, done => rest.reverseOnto (mark m done)
  | group inner rest, done => rest.reverseOnto (group inner done)

/-- The row read backwards; the groups stay as they are. -/
def reverse (p : Pattern) : Pattern := p.reverseOnto nil

/-- Every group, at any depth, has a slot. -/
def NoEmptyGroup : Pattern → Prop
  | nil => True
  | mark _ rest => rest.NoEmptyGroup
  | group inner rest => inner ≠ nil ∧ inner.NoEmptyGroup ∧ rest.NoEmptyGroup

/-! ## Small facts -/

@[simp] theorem nil_append (q : Pattern) : nil ++ q = q := rfl

@[simp] theorem mark_append (m : Mark) (p q : Pattern) : mark m p ++ q = mark m (p ++ q) := rfl

@[simp] theorem group_append (i p q : Pattern) : group i p ++ q = group i (p ++ q) := rfl

@[simp] theorem append_nil (p : Pattern) : p ++ nil = p := by
  induction p with
  | nil => rfl
  | mark m p ih => rw [mark_append, ih]
  | group i p _ ih => rw [group_append, ih]

theorem append_assoc (p q r : Pattern) : p ++ q ++ r = p ++ (q ++ r) := by
  induction p with
  | nil => rfl
  | mark m p ih => simp [ih]
  | group i p _ ih => simp [ih]

@[simp] theorem slots_append (p q : Pattern) : (p ++ q).slots = p.slots + q.slots := by
  induction p with
  | nil => simp [slots]
  | mark m p ih => simp [slots, ih]; omega
  | group i p _ ih => simp [slots, ih]; omega

@[simp] theorem symbols_append (p q : Pattern) : (p ++ q).symbols = p.symbols ++ q.symbols := by
  induction p with
  | nil => rfl
  | mark m p ih => simp [symbols, ih]
  | group i p _ ih => simp [symbols, ih]

@[simp] theorem marks_append (p q : Pattern) : (p ++ q).marks = p.marks ++ q.marks := by
  induction p with
  | nil => rfl
  | mark m p ih => simp [marks, ih]
  | group i p _ ih => simp [marks, ih]

theorem reverseOnto_eq (p q : Pattern) : p.reverseOnto q = p.reverse ++ q := by
  induction p generalizing q with
  | nil => rfl
  | mark m p ih => simp only [reverse, reverseOnto]; rw [ih, ih (mark m nil), append_assoc]; rfl
  | group i p _ ih => simp only [reverse, reverseOnto]; rw [ih, ih (group i nil), append_assoc]; rfl

@[simp] theorem reverse_nil : nil.reverse = nil := rfl

@[simp] theorem reverse_mark (m : Mark) (p : Pattern) :
    (mark m p).reverse = p.reverse ++ mark m nil := reverseOnto_eq p (mark m nil)

@[simp] theorem reverse_group (i p : Pattern) :
    (group i p).reverse = p.reverse ++ group i nil := reverseOnto_eq p (group i nil)

theorem reverse_append (p q : Pattern) : (p ++ q).reverse = q.reverse ++ p.reverse := by
  induction p with
  | nil => simp
  | mark m p ih => rw [mark_append, reverse_mark, ih, append_assoc, reverse_mark]
  | group i p _ ih => rw [group_append, reverse_group, ih, append_assoc, reverse_group]

@[simp] theorem reverse_reverse (p : Pattern) : p.reverse.reverse = p := by
  induction p with
  | nil => rfl
  | mark m p ih => rw [reverse_mark, reverse_append, ih]; rfl
  | group i p _ ih => rw [reverse_group, reverse_append, ih]; rfl

theorem reverse_ne_nil {p : Pattern} (h : p ≠ nil) : p.reverse ≠ nil := by
  intro e
  apply h
  rw [← reverse_reverse p, e, reverse_nil]

theorem noEmptyGroup_append (p q : Pattern) :
    (p ++ q).NoEmptyGroup ↔ p.NoEmptyGroup ∧ q.NoEmptyGroup := by
  induction p with
  | nil => simp [NoEmptyGroup]
  | mark m p ih => simpa [NoEmptyGroup] using ih
  | group i p _ ih => simp [NoEmptyGroup, ih, and_assoc]

theorem noEmptyGroup_reverse {p : Pattern} (h : p.NoEmptyGroup) : p.reverse.NoEmptyGroup := by
  induction p with
  | nil => exact h
  | mark m p ih =>
    rw [reverse_mark, noEmptyGroup_append]
    exact ⟨ih h, trivial⟩
  | group i p _ ih =>
    obtain ⟨hne, hi, hp⟩ := h
    rw [reverse_group, noEmptyGroup_append]
    exact ⟨ih hp, hne, hi, trivial⟩

theorem length_marks (p : Pattern) : p.marks.length = p.leafCount := by
  induction p with
  | nil => rfl
  | mark m p ih => simp [marks, leafCount, ih]
  | group i p ihi ih => simp [marks, leafCount, ihi, ih]

theorem count_marks (p : Pattern) : p.marks.count .note = p.noteCount := by
  induction p with
  | nil => rfl
  | mark m p ih => cases m <;> simp [marks, noteCount, ih]
  | group i p ihi ih => simp [marks, noteCount, ihi, ih]

end Pattern

end RhythmClip
