import RhythmClip.Pattern

/-!
# Outlines

An outline lists the slots of a pattern in reading order, a group before the
slots in it, with the depth and the counts of each. The row itself comes
first, as the group that it is at depth 0.
-/
namespace RhythmClip

/-- What a slot holds. -/
inductive SlotShape where
  | mark (m : Mark)
  | group
  deriving DecidableEq, Repr

structure OutlineLine where
  depth : Nat
  shape : SlotShape
  children : Nat
  notes : Nat
  leaves : Nat
  deriving DecidableEq, Repr

namespace Pattern

def groupLine (depth : Nat) (p : Pattern) : OutlineLine :=
  ⟨depth, .group, p.slots, p.noteCount, p.leafCount⟩

def markLine (depth : Nat) (m : Mark) : OutlineLine :=
  ⟨depth, .mark m, 0, if m = .note then 1 else 0, 1⟩

/-- The lines of the slots of a row at the given depth. -/
def outlineFrom (depth : Nat) : Pattern → List OutlineLine
  | nil => []
  | mark m rest => markLine depth m :: rest.outlineFrom depth
  | group inner rest =>
    groupLine depth inner :: (inner.outlineFrom (depth + 1) ++ rest.outlineFrom depth)

def outline (p : Pattern) : List OutlineLine := p.groupLine 0 :: p.outlineFrom 1

/-- The text of each slot; a group is shown without its own brackets. -/
def slotTexts : Pattern → List String
  | nil => []
  | mark m rest => (Symbol.mark m).char.toString :: rest.slotTexts
  | group inner rest => inner.text :: rest.slotTexts

end Pattern

end RhythmClip
