import RhythmClip.Note
import RhythmClip.Subdivision

/-!
# Settings

All that a clip is compiled from. The types leave three things open, which
`check` looks at: velocities go up to 127 only, and the accent map has no
characters but `x` and `-`. Notes and pattern are judged where they are read.
Three flags are accepted for later and change nothing.

* `check_eq_ok_iff`: when settings pass.
-/
namespace RhythmClip

def maxVelocity : UInt8 := 127

/-- The settings of a clip; a field that is not given has the value stated here. -/
structure Settings where
  notes : NoteList := .text "C4"
  pattern : String := "x"
  subdivision : String := "4n"
  velocity : UInt8 := 127
  accentMap : String := ""
  accentHi : UInt8 := 127
  accentLo : UInt8 := 70
  shuffle : Bool := false
  sizzle : Bool := false
  arpeggiate : Bool := false
  deriving DecidableEq, Repr

/-- Settings that are accepted and have no effect. -/
inductive Flag where
  | shuffle | sizzle | arpeggiate
  deriving DecidableEq, Repr

def Flag.name : Flag → String
  | .shuffle => "shuffle" | .sizzle => "sizzle" | .arpeggiate => "arpeggiate"

namespace Settings

/-- The length of a top-level slot; a name that is no subdivision means a quarter. -/
def grid (s : Settings) : Subdivision := Subdivision.ofNameOrQuarter s.subdivision

def velocities (s : Settings) : List (VelocityField × UInt8) :=
  [(.velocity, s.velocity), (.accentHi, s.accentHi), (.accentLo, s.accentLo)]

/-- The flags that are set. -/
def flags (s : Settings) : List Flag :=
  (if s.shuffle then [.shuffle] else []) ++ (if s.sizzle then [.sizzle] else [])
    ++ (if s.arpeggiate then [.arpeggiate] else [])

/-- The accent map may only hold these. -/
def isAccentChar (c : Char) : Bool := c = 'x' || c = '-'

/-- Judges the velocities in order, then the accent map from its front. -/
def check (s : Settings) : Except Fault Unit :=
  match s.velocities.find? fun (_, v) => maxVelocity < v with
  | some (field, v) => .error (.setting (.tooLoud field v))
  | none =>
    match s.accentMap.toList.find? fun c => !isAccentChar c with
    | some c => .error (.setting (.accentCharacter c))
    | none => .ok ()

theorem check_eq_ok_iff (s : Settings) :
    s.check = .ok () ↔ s.velocity ≤ maxVelocity ∧ s.accentHi ≤ maxVelocity ∧
      s.accentLo ≤ maxVelocity ∧ ∀ c ∈ s.accentMap.toList, isAccentChar c = true := by
  have hv : s.velocities.find? (fun (_, v) => maxVelocity < v) = none ↔
      s.velocity ≤ maxVelocity ∧ s.accentHi ≤ maxVelocity ∧ s.accentLo ≤ maxVelocity := by
    simp [velocities, List.find?_eq_none]
  have hc : s.accentMap.toList.find? (fun c => !isAccentChar c) = none ↔
      ∀ c ∈ s.accentMap.toList, isAccentChar c = true := by
    simp [List.find?_eq_none]
  unfold check
  split
  · rename_i h
    constructor
    · intro e; cases e
    · intro ⟨h1, h2, h3, _⟩
      rw [hv.2 ⟨h1, h2, h3⟩] at h; cases h
  · rename_i h
    obtain ⟨h1, h2, h3⟩ := hv.1 h
    split
    · rename_i c hx
      constructor
      · intro e; cases e
      · intro ⟨_, _, _, h4⟩
        rw [hc.2 h4] at hx; cases hx
    · rename_i hx
      exact ⟨fun _ => ⟨h1, h2, h3, hc.1 hx⟩, fun _ => rfl⟩

end Settings

end RhythmClip
