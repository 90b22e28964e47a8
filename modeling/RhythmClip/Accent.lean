import RhythmClip.Cycle

/-!
# Accents

An accent map is cycled over the sounding events: `x` takes the high velocity
and any other character the low one. An empty map accents nothing.
-/
namespace RhythmClip

structure Accent where
  map : Cycle Bool
  hi : UInt8
  lo : UInt8
  deriving DecidableEq, Repr

namespace Accent

/-- The accents of a map text, if it has a character. -/
def ofMap? (map : String) (hi lo : UInt8) : Option Accent :=
  (Cycle.ofList? (map.toList.map (· == 'x'))).map fun m => ⟨m, hi, lo⟩

/-- The velocity of the `i`-th sounding event. -/
def velocity (a : Accent) (i : Nat) : UInt8 := if a.map.get i then a.hi else a.lo

end Accent

end RhythmClip
