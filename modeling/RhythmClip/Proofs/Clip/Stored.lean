import RhythmClip.Proofs.Clip.Compile
import RhythmClip.Proofs.Ticks.Offsets

/-!
# Clips in machine words

A clip is compiled from exact times, on the condition that certain numbers fit.
The same walk runs on words alone: stored slots are cut into stored shares,
these are the durations of the events, and they are added up for the starts and
the total. It stops just where the exact walk does, and otherwise every word
stands for the time in its place.

* `holdsLayout_layOut`: the shares of a row.
* `rel_storedTimes?`: all times of a clip, or none.
* `stored_of_compile`: so the times of every compiled clip are stored times.
* `compile_eq_tooDeep_iff_words`: and a clip fails on its times just if words do.
-/
namespace RhythmClip

open Ticks (Fraction)

/-! ## Laying out a row -/

namespace Pattern

/-- Lays out a row whose slots last `slot` each: how long the leaves last, in
reading order, and whether all shares have words. -/
def layOutStored (slot : Fraction) : Pattern → List Fraction × Bool
  | nil => ([], true)
  | mark _ rest => (slot :: (rest.layOutStored slot).1, (rest.layOutStored slot).2)
  | group inner rest =>
    match slot.split? inner.slots with
    | none => ([], false)
    | some share =>
      if (inner.layOutStored share).2 then
        ((inner.layOutStored share).1 ++ (rest.layOutStored slot).1, (rest.layOutStored slot).2)
      else inner.layOutStored share

/-- The stored lengths are those of the leaves, and stop where the layout does. -/
def HoldsLayout (stored : List Fraction × Bool) (layout : Layout) : Prop :=
  List.Forall₂ Fraction.Holds stored.1 (layout.leaves.map Leaf.duration) ∧ stored.2 = layout.exact

theorem holdsLayout_layOut (p : Pattern) {slot : Fraction} {t : Ticks} (h : slot.Holds t) :
    HoldsLayout (p.layOutStored slot) (p.layOut t) := by
  induction p generalizing slot t with
  | nil => exact ⟨.nil, rfl⟩
  | mark m rest ih =>
    obtain ⟨hrest, hexact⟩ := ih h
    exact ⟨.cons h hrest, hexact⟩
  | group inner rest ihi ih =>
    have hcut := Fraction.rel_split? h inner.slots
    rw [layOutStored, layOut]
    generalize slot.split? inner.slots = x, Ticks.split? t inner.slots = y at hcut
    cases hcut with
    | none => exact ⟨.nil, rfl⟩
    | some hshare =>
      obtain ⟨hinner, hstop⟩ := ihi hshare
      obtain ⟨hrest, hexact⟩ := ih h
      dsimp only
      rw [Layout.append, hstop]
      split
      · refine ⟨?_, hexact⟩
        rw [List.map_append]
        exact List.rel_append hinner hrest
      · exact ⟨hinner, hstop⟩

end Pattern

/-! ## The times of a clip -/

/-- The slot length, a whole number of ticks. -/
def Subdivision.stored (g : Subdivision) : Fraction := ⟨Int64.ofNat (ticksPerBar / g.perBar), 1⟩

theorem Subdivision.holds_stored (g : Subdivision) : g.stored.Holds g.ticks := by
  cases g <;> decide +kernel

namespace Clip

structure StoredTimes where
  durations : List Fraction
  starts : List Fraction
  total : Fraction
  deriving DecidableEq, Repr

/-- The times of a row on a grid, if its shares and their sums have words. -/
def storedTimes? (grid : Subdivision) (p : Pattern) : Option StoredTimes :=
  if (p.layOutStored grid.stored).2 then
    (Fraction.offsets? (p.layOutStored grid.stored).1).map fun laid =>
      ⟨(p.layOutStored grid.stored).1, laid.1, laid.2⟩
  else none

/-- Every word stands for the time of the clip that is in its place. -/
structure StoredTimes.Holds (w : StoredTimes) (c : Clip) : Prop where
  durations : List.Forall₂ Fraction.Holds w.durations (c.events.map Event.duration)
  starts : List.Forall₂ Fraction.Holds w.starts c.starts
  total : w.total.Holds c.total

/-- **Clips are put together in words.** Once settings, notes and pattern are
accepted, the words have the times of a clip just if there is one. -/
theorem rel_storedTimes? (s : Settings) (voicings : Cycle Voicing) (p : Pattern) :
    Option.Rel StoredTimes.Holds (storedTimes? s.grid p) (assembleFrom s voicings p).toOption := by
  obtain ⟨hdurations, hexact⟩ := p.holdsLayout_layOut s.grid.holds_stored
  have hlaid := Fraction.rel_offsets? hdurations
  have hperformed := (s.part voicings).perform_durations 0 (p.layOut s.grid.ticks).leaves
  unfold storedTimes? assembleFrom assemble
  rw [hperformed, hexact]
  generalize (p.layOut s.grid.ticks).exact = exact
  generalize Fraction.offsets? _ = x, Ticks.offsets? _ = y at hlaid
  cases exact with
  | false => exact .none
  | true =>
    cases hlaid with
    | none => exact .none
    | some h =>
      rw [← hperformed] at hdurations
      exact .some ⟨hdurations, h.1, h.2⟩

/-- A triplet on quarters: the last share brings the end back to a whole number. -/
example : storedTimes? .quarter (.group (.mark .note (.mark .rest (.mark .note .nil))) .nil) =
    some ⟨[⟨128, 3⟩, ⟨128, 3⟩, ⟨128, 3⟩], [⟨0, 1⟩, ⟨128, 3⟩, ⟨256, 3⟩], ⟨128, 1⟩⟩ := by
  decide +kernel

/-- The times of a compiled clip are stored times, from the slot length on. -/
theorem stored_of_compile {d : Dictionary} {s : Settings} {c : Clip} (h : compile d s = .ok c) :
    ∃ p w, Pattern.read s.pattern = .ok p ∧ storedTimes? s.grid p = some w ∧ w.Holds c := by
  obtain ⟨voicings, p, hc⟩ := compiled_of_compile h
  have hmade : assembleFrom s voicings p = .ok c := by
    rw [← compile_eq_assembleFrom hc.check hc.resolve hc.read, h]
  have hrel := rel_storedTimes? s voicings p
  rw [hmade] at hrel
  generalize hw : storedTimes? s.grid p = x at hrel
  cases hrel with
  | some hholds => exact ⟨p, _, hc.read, hw, hholds⟩

/-- A row nests too deep just if the words have no times for it. -/
theorem compile_eq_tooDeep_iff_words {d : Dictionary} {s : Settings} {voicings : Cycle Voicing}
    {p : Pattern} (hc : s.check = .ok ()) (hv : s.notes.resolve d = .ok voicings)
    (hp : Pattern.read s.pattern = .ok p) :
    compile d s = .error (.pattern .tooDeep) ↔ storedTimes? s.grid p = none := by
  have hrel := rel_storedTimes? s voicings p
  rw [compile_eq_assembleFrom hc hv hp]
  generalize storedTimes? s.grid p = x at hrel
  cases hmade : assembleFrom s voicings p with
  | ok c =>
    rw [hmade] at hrel
    cases hrel
    simp
  | error e =>
    rw [hmade] at hrel
    cases hrel
    rw [((assemble_eq_error_iff ..).1 hmade).1]
    simp

end Clip

end RhythmClip
