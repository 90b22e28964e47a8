import RhythmClip.Journal

/-!
# Compiling with a journal

The stages of compiling once more, each with the records that it makes:
flags without effect when the settings pass, chords found in the dictionary,
a subdivision that had to be replaced, the notes as they are placed, and at
last the clip.

* `outcome_compile`: the journal does not change what is compiled.
-/
namespace RhythmClip

/-- The record of a token that was no pitch and so was found in a dictionary. -/
def NoteEntry.chordRecords (e : NoteEntry) (v : Voicing) : List Record :=
  match e with
  | .token t => if (Pitch.ofText? t).isNone then [.chordFound t v] else []
  | .pitches _ => []

def Settings.gridRecords (s : Settings) : List Record :=
  if (Subdivision.ofName? s.subdivision).isNone then [.subdivisionReplaced s.subdivision] else []

/-- One record for each note among leaves before which `i` notes have sounded. -/
def Part.records (part : Part) (i : Nat) : List Leaf → List Record
  | [] => []
  | ⟨.note, d⟩ :: leaves =>
    .notePlaced (i % part.voicings.length) (part.voicings.get i) d :: part.records (i + 1) leaves
  | ⟨.rest, _⟩ :: leaves => part.records i leaves
  | ⟨.sustain, _⟩ :: leaves => part.records i leaves

namespace Attempt

def check (s : Settings) : Attempt Unit := noting s.check fun _ => s.flags.map .flagIgnored

def grid (s : Settings) : Attempt Subdivision := noting (.ok s.grid) fun _ => s.gridRecords

def resolveEntry (d : Dictionary) (e : NoteEntry) : Attempt Voicing :=
  noting (RhythmClip.resolveEntry d e) e.chordRecords

def resolveAll (d : Dictionary) : List NoteEntry → Attempt (List Voicing)
  | [] => pure []
  | e :: es => do
    let v ← resolveEntry d e
    let vs ← resolveAll d es
    return v :: vs

def resolve (d : Dictionary) (notes : NoteList) : Attempt (Cycle Voicing) := do
  match Cycle.ofList? (← resolveAll d notes.toEntries) with
  | some voicings => return voicings
  | none => throw (.setting .noNotes)

/-- As `Clip.compile`. The notes of a layout that stopped are still recorded. -/
def compile (d : Dictionary) (s : Settings) : Attempt Clip := do
  check s
  let voicings ← resolve d s.notes
  let pattern ← Pattern.read s.pattern
  let grid ← grid s
  let layout := pattern.layOut grid.ticks
  let part := s.part voicings
  record (part.records 0 layout.leaves)
  let clip ← Clip.assemble grid pattern.slots layout.exact (part.perform 0 layout.leaves)
  record [.clipCompiled s.pattern clip]
  return clip

theorem outcome_resolveAll (d : Dictionary) (es : List NoteEntry) :
    (resolveAll d es).outcome = RhythmClip.resolveAll d es := by
  induction es with
  | nil => rfl
  | cons e es ih => simp [resolveAll, RhythmClip.resolveAll, resolveEntry, ih]

theorem outcome_resolve (d : Dictionary) (notes : NoteList) :
    (resolve d notes).outcome = notes.resolve d := by
  simp only [resolve, NoteList.resolve, outcome_bind, outcome_resolveAll]
  congr 1
  funext vs
  cases Cycle.ofList? vs <;> rfl

theorem outcome_compile (d : Dictionary) (s : Settings) :
    (compile d s).outcome = Clip.compile d s := by
  simp only [compile, Clip.compile, outcome_bind, outcome_resolve, outcome_lift, check, grid, record,
    outcome_noting, outcome_pure]
  have same : ∀ x : Except Fault Clip, (x >>= fun c => Except.ok () >>= fun _ => .ok c) = x := by
    rintro (_ | _) <;> rfl
  congr 1; funext _
  congr 1; funext voicings
  congr 1; funext pattern
  exact same _

end Attempt

end RhythmClip
