/-!
# Cycles

A cycle is a list with at least one member that is read round and round: the
member at place `i` is the one at `i` modulo the length. It has no empty case,
so reading never fails.

* `getElem?_toList`: the place of a member in the list of all.
-/
namespace RhythmClip

structure Cycle (α : Type) where
  first : α
  rest : List α
  deriving DecidableEq, Repr

namespace Cycle

variable {α β : Type}

def toList (c : Cycle α) : List α := c.first :: c.rest

def length (c : Cycle α) : Nat := c.rest.length + 1

def ofList? : List α → Option (Cycle α)
  | [] => none
  | a :: as => some ⟨a, as⟩

theorem length_pos (c : Cycle α) : 0 < c.length := Nat.succ_pos _

@[simp] theorem length_toList (c : Cycle α) : c.toList.length = c.length := by
  simp [toList, length]

/-- The member met at place `i`. -/
def get (c : Cycle α) (i : Nat) : α :=
  c.toList.get ⟨i % c.length, by rw [length_toList]; exact Nat.mod_lt _ c.length_pos⟩

def map (f : α → β) (c : Cycle α) : Cycle β := ⟨f c.first, c.rest.map f⟩

theorem getElem?_toList (c : Cycle α) (i : Nat) :
    c.toList[i % c.toList.length]? = some (c.get i) := by
  have hlt : i % c.toList.length < c.toList.length := by
    rw [c.length_toList]
    exact Nat.mod_lt _ c.length_pos
  rw [List.getElem?_eq_getElem hlt]
  simp [get]

theorem get_map (f : α → β) (c : Cycle α) (i : Nat) : (c.map f).get i = f (c.get i) := by
  have h := (c.map f).getElem?_toList i
  have hl : (c.map f).toList = c.toList.map f := rfl
  rw [hl, List.length_map, List.getElem?_map, c.getElem?_toList] at h
  exact (Option.some.inj h).symm

end Cycle

end RhythmClip
