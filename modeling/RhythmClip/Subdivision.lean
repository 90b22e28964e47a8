import RhythmClip.Fault
import RhythmClip.Ticks

/-!
# Subdivisions

A bar of four quarters has 512 ticks. A subdivision is the length of a
top-level slot: the whole bar, or a half, a quarter, an eighth or a sixteenth
of it.

* `ofName?_name`: a subdivision is found by its name.
-/
namespace RhythmClip

inductive Subdivision where
  | whole | half | quarter | eighth | sixteenth
  deriving DecidableEq, Repr

namespace Subdivision

def ticksPerBar : Nat := 512

def all : List Subdivision := [whole, half, quarter, eighth, sixteenth]

/-- How many of these slots fill a bar. -/
def perBar : Subdivision → Nat
  | whole => 1 | half => 2 | quarter => 4 | eighth => 8 | sixteenth => 16

def name (s : Subdivision) : String := Text.decimal s.perBar ++ "n"

/-- The length of one slot. -/
def ticks (s : Subdivision) : Ticks := ((ticksPerBar / s.perBar : Nat) : Rat)

def ofName? (name : String) : Option Subdivision := all.find? fun s => s.name = name

/-- The subdivision of a name, and a quarter for a name that is none. -/
def ofNameOrQuarter (name : String) : Subdivision := (ofName? name).getD quarter

/-- As `ofName?`, with the fault of an unknown name. -/
def parse (name : String) : Except Fault Subdivision :=
  match ofName? name with
  | some s => .ok s
  | none => .error (.setting (.unknownSubdivision name))

theorem ofName?_name (s : Subdivision) : ofName? s.name = some s := by
  cases s <;> decide +kernel

end Subdivision

end RhythmClip
