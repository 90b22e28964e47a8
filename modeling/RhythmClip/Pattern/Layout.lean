import RhythmClip.Pattern
import RhythmClip.Ticks

/-!
# Laying out a pattern

Every slot of the top row lasts one slot length; a group shares its slot out
evenly among its own slots. A layout lists the leaves with their lengths in
reading order. When a share cannot be written in 64-bit numbers the layout
stops at that group and is not exact.

* `marks_layOut`: an exact layout has the marks of the pattern.
* `durations_layOut`: and each leaf lasts the slot length divided by its share.
* `layOut_append`: two rows in one are laid out one after the other.
-/
namespace RhythmClip

/-- A mark and the length of its slot. -/
structure Leaf where
  mark : Mark
  duration : Ticks
  deriving DecidableEq, Repr

structure Layout where
  leaves : List Leaf
  exact : Bool
  deriving DecidableEq, Repr

/-- One layout after the other; nothing follows one that stopped. -/
def Layout.append (a b : Layout) : Layout :=
  if a.exact then ⟨a.leaves ++ b.leaves, b.exact⟩ else a

theorem Layout.append_assoc (a b c : Layout) : (a.append b).append c = a.append (b.append c) := by
  cases ha : a.exact <;> cases hb : b.exact <;> simp [Layout.append, ha, hb]

namespace Pattern

/-- Lays out a row whose slots last `slot` each. -/
def layOut (slot : Ticks) : Pattern → Layout
  | nil => ⟨[], true⟩
  | mark m rest => Layout.append ⟨[⟨m, slot⟩], true⟩ (rest.layOut slot)
  | group inner rest =>
    match Ticks.split? slot inner.slots with
    | none => ⟨[], false⟩
    | some share => (inner.layOut share).append (rest.layOut slot)

/-! ## Shares -/

/-- The number of equal parts into which a top-level slot is cut for each
leaf, where the slots of the row are themselves cut out of `parts`. -/
def sharesFrom (parts : Nat) : Pattern → List Nat
  | nil => []
  | mark _ rest => parts :: rest.sharesFrom parts
  | group inner rest => inner.sharesFrom (parts * inner.slots) ++ rest.sharesFrom parts

/-- For each leaf the product of the slot counts of the groups around it. -/
def shares (p : Pattern) : List Nat := p.sharesFrom 1

/-! ## Small facts -/

theorem layOut_append (p q : Pattern) (slot : Ticks) :
    (p ++ q).layOut slot = (p.layOut slot).append (q.layOut slot) := by
  induction p with
  | nil => rfl
  | mark m p ih => rw [mark_append, layOut, ih, layOut, Layout.append_assoc]
  | group i p _ ih =>
    rw [group_append, layOut, layOut]
    split
    · rfl
    · rw [ih, Layout.append_assoc]

theorem marks_layOut (p : Pattern) (slot : Ticks) (h : (p.layOut slot).exact = true) :
    (p.layOut slot).leaves.map Leaf.mark = p.marks := by
  induction p generalizing slot with
  | nil => rfl
  | mark m p ih =>
    simp only [layOut, Layout.append, if_true] at h ⊢
    simp [marks, ih slot h]
  | group i p ihi ih =>
    simp only [layOut] at h ⊢
    split at h
    · cases h
    · rename_i share hs
      simp only [Layout.append] at h ⊢
      split at h
      · rename_i hi
        simp only [hi, if_true, marks, List.map_append]
        rw [ihi share hi, ih slot h]
      · rename_i hi
        exact absurd h hi

theorem durations_layOut_div (p : Pattern) (slot : Ticks) (parts : Nat)
    (h : (p.layOut (slot / parts)).exact = true) :
    (p.layOut (slot / parts)).leaves.map Leaf.duration =
      (p.sharesFrom parts).map fun n : Nat => slot / n := by
  induction p generalizing parts with
  | nil => rfl
  | mark m p ih =>
    simp only [layOut, Layout.append, if_true] at h ⊢
    simp [sharesFrom, ih parts h]
  | group i p ihi ih =>
    simp only [layOut] at h ⊢
    split at h
    · cases h
    · rename_i share hs
      obtain ⟨_, rfl⟩ := Ticks.split?_eq_some hs
      have hcut : slot / parts / i.slots = slot / ((parts * i.slots : Nat) : Rat) := by grind
      simp only [Layout.append] at h ⊢
      split at h
      · rename_i hi
        simp only [hi, if_true, sharesFrom, List.map_append]
        rw [hcut] at hi ⊢
        rw [ihi _ hi, ih parts h]
      · rename_i hi
        exact absurd h hi

theorem durations_layOut (p : Pattern) (slot : Ticks) (h : (p.layOut slot).exact = true) :
    (p.layOut slot).leaves.map Leaf.duration = p.shares.map fun n : Nat => slot / n := by
  have hone : slot / ((1 : Nat) : Rat) = slot := by grind
  have key := durations_layOut_div p slot 1
  rw [hone] at key
  exact key h

end Pattern

end RhythmClip
