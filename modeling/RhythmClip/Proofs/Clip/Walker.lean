import RhythmClip.Clip.Journaled
import RhythmClip.Proofs.Access
import RhythmClip.Proofs.Clip.Compile
import RhythmClip.Proofs.Clip.Rotation

/-!
# Walking a pattern by index

Compiling once more, now with the notes and the accents in plain lists. A
walker goes through the pattern, has a counter for the next note and one for
the next accent, and reads its lists by place. The counter of the notes is
always the number of notes played, modulo the number of voicings (`InTurn`),
which is positive because an empty list of notes is refused. Therefore the
walker never reads past the end, and it plays what `Part.perform` plays.

* `AccentRow.velocity_row`: an accent is read without a miss.
* `walkMark_eq`: what one slot does to a walker, and `InTurn.after`: it stays in turn.
* `walk_eq`: a whole pattern, by induction on its rows.
* `compileChecked_eq`: compiling by index never misses, and compiles the same.
* `reads_hit`: no read of a compilation, of a chord name or of a line misses.
-/
namespace RhythmClip

open Access

/-! ## Accents -/

/-- Accents in a plain list. -/
structure AccentRow where
  marks : List Bool
  hi : UInt8
  lo : UInt8
  deriving DecidableEq, Repr

namespace AccentRow

/-- The accents of a map text; an empty one has none. -/
def ofMap? (map : String) (hi lo : UInt8) : Option AccentRow :=
  if map.isEmpty then none else some ⟨map.toList.map (· == 'x'), hi, lo⟩

def velocity (a : AccentRow) (i : Nat) : Access UInt8 := do
  let place ← wrap i a.marks.length
  return if ← member a.marks place then a.hi else a.lo

end AccentRow

def Accent.row (a : Accent) : AccentRow := ⟨a.map.toList, a.hi, a.lo⟩

namespace AccentRow

theorem ofMap?_eq (map : String) (hi lo : UInt8) :
    ofMap? map hi lo = (Accent.ofMap? map hi lo).map Accent.row := by
  cases hl : map.toList with
  | nil =>
    rw [String.toList_eq_nil_iff] at hl
    subst hl
    rfl
  | cons c cs =>
    have hne : map.isEmpty = false := by
      rw [String.isEmpty_eq_false_iff]
      rintro rfl
      cases hl
    rw [ofMap?, Accent.ofMap?, hne, hl]
    rfl

theorem velocity_row (a : Accent) (i : Nat) : a.row.velocity i = .ok (a.velocity i) := by
  have hpos : 0 < a.map.toList.length := by simp [Cycle.length]
  have hread : member a.map.toList (i % a.map.toList.length) = .ok (a.map.get i) :=
    (member_eq_ok_iff _ _ _).2 (a.map.getElem?_toList i)
  rw [velocity, Accent.row, bind_of_ok (wrap_of_pos hpos i), bind_of_ok hread]
  rfl

end AccentRow

/-! ## Walkers -/

/-- What a walker plays from. -/
structure Sheet where
  notes : List Voicing
  accent : Option AccentRow
  velocity : UInt8
  deriving DecidableEq, Repr

/-- The place of the next note, the number of notes played, and what has been
played and recorded so far. -/
structure Walker where
  step : Nat := 0
  played : Nat := 0
  events : List Event := []
  journal : List Record := []
  deriving DecidableEq, Repr

namespace Sheet

def noteVelocity (sheet : Sheet) (i : Nat) : Access UInt8 :=
  match sheet.accent with
  | some a => a.velocity i
  | none => return sheet.velocity

/-- One slot; only a note moves the counters. -/
def walkMark (sheet : Sheet) (duration : Ticks) (w : Walker) : Mark → Access Walker
  | .note => do
    let velocity ← sheet.noteVelocity w.played
    let voicing ← member sheet.notes w.step
    let next ← wrap (w.step + 1) sheet.notes.length
    return ⟨next, w.played + 1, w.events ++ [⟨.note voicing, duration, velocity⟩],
      w.journal ++ [.notePlaced w.step voicing duration]⟩
  | .rest => return { w with events := w.events ++ [⟨.rest, duration, sheet.velocity⟩] }
  | .sustain => return { w with events := w.events ++ [⟨.sustain, duration, sheet.velocity⟩] }

/-- The walkers that slots of whatever lengths lead to from the beginning. -/
inductive Reaches (sheet : Sheet) : Walker → Prop where
  | start : Reaches sheet {}
  | next {w next : Walker} {slot : Ticks} {m : Mark} : Reaches sheet w →
    sheet.walkMark slot w m = .ok next → Reaches sheet next

/-- Walks a row whose slots last `slot` each, and tells whether it came to the
end; it stops where a share cannot be written. -/
def walk (sheet : Sheet) (slot : Ticks) : Pattern → Walker → Access (Walker × Bool)
  | .nil, w => return (w, true)
  | .mark m rest, w => do
    let next ← sheet.walkMark slot w m
    sheet.walk slot rest next
  | .group inner rest, w =>
    match Ticks.split? slot inner.slots with
    | none => return (w, false)
    | some share => do
      let (next, exact) ← sheet.walk share inner w
      if exact then sheet.walk slot rest next else return (next, false)

/-- A walk goes from slot to slot, at whatever depth these are. -/
theorem Reaches.walk {sheet : Sheet} {p : Pattern} {slot : Ticks} {w last : Walker} {exact : Bool}
    (h : sheet.Reaches w) (hw : sheet.walk slot p w = .ok (last, exact)) : sheet.Reaches last := by
  induction p generalizing slot w last exact with
  | nil => cases hw; exact h
  | mark m rest ih =>
    obtain ⟨next, hm, hrest⟩ := exists_of_bind hw
    exact ih (h.next hm) hrest
  | group inner rest ihi ih =>
    rw [Sheet.walk] at hw
    cases hs : Ticks.split? slot inner.slots with
    | none =>
      rw [hs] at hw
      cases hw
      exact h
    | some share =>
      rw [hs] at hw
      obtain ⟨⟨next, whole⟩, hi, hrest⟩ := exists_of_bind hw
      have hnext := ihi h hi
      dsimp only at hrest
      split at hrest
      · exact ih hnext hrest
      · cases hrest
        exact hnext

end Sheet

/-! ## Where a walker is -/

namespace Part

def sheet (part : Part) : Sheet :=
  ⟨part.voicings.toList, part.accent.map Accent.row, part.velocity⟩

/-- As `perform_append`. -/
theorem records_append (part : Part) (i : Nat) (leaves others : List Leaf) :
    part.records i (leaves ++ others) =
      part.records i leaves ++ part.records (i + (leaves.map Leaf.mark).count .note) others := by
  induction leaves generalizing i with
  | nil => rfl
  | cons leaf leaves ih =>
    obtain ⟨_ | _ | _, d⟩ := leaf
    · simp [records, ih, Nat.add_assoc, Nat.add_comm 1]
    · simp [records, ih]
    · simp [records, ih]

end Part

namespace Walker

variable {part : Part} {w : Walker}

/-- The place of the next note is the number of notes played, round and round. -/
def InTurn (part : Part) (w : Walker) : Prop := w.step = w.played % part.voicings.length

/-- The walker once the leaves are played. -/
def after (part : Part) (w : Walker) (leaves : List Leaf) : Walker :=
  let played := w.played + (leaves.map Leaf.mark).count .note
  ⟨played % part.voicings.length, played, w.events ++ part.perform w.played leaves,
    w.journal ++ part.records w.played leaves⟩

theorem InTurn.step_lt (h : w.InTurn part) : w.step < part.voicings.length := by
  rw [h]
  exact Nat.mod_lt _ part.voicings.length_pos

theorem InTurn.after (part : Part) (w : Walker) (leaves : List Leaf) :
    (w.after part leaves).InTurn part := rfl

theorem InTurn.after_nil (h : w.InTurn part) : w.after part [] = w := by
  have hstep : w.played % part.voicings.length = w.step := h.symm
  simp [Walker.after, Part.perform, Part.records, hstep]

theorem after_append (part : Part) (w : Walker) (leaves others : List Leaf) :
    (w.after part leaves).after part others = w.after part (leaves ++ others) := by
  simp [after, Part.perform_append, Part.records_append, Nat.add_assoc]

end Walker

/-! ## One slot -/

namespace Part

variable (part : Part) {w : Walker}

theorem noteVelocity_sheet (i : Nat) : part.sheet.noteVelocity i = .ok (part.noteVelocity i) := by
  cases ha : part.accent with
  | none => simp [Sheet.noteVelocity, noteVelocity, sheet, ha, pure, Except.pure]
  | some a => simp [Sheet.noteVelocity, noteVelocity, sheet, ha, AccentRow.velocity_row]

/-- The place of the next note is in the list. -/
theorem member_step (h : w.InTurn part) :
    member part.sheet.notes w.step = .ok (part.voicings.get w.played) := by
  have hread := part.voicings.getElem?_toList w.played
  rw [Cycle.length_toList, ← h] at hread
  exact (member_eq_ok_iff _ _ _).2 hread

theorem walkMark_eq (h : w.InTurn part) (slot : Ticks) (m : Mark) :
    part.sheet.walkMark slot w m = .ok (w.after part [⟨m, slot⟩]) := by
  have hstep : w.played % part.voicings.length = w.step := h.symm
  cases m with
  | note =>
    have hlen : part.sheet.notes.length = part.voicings.length := part.voicings.length_toList
    have hpos : 0 < part.sheet.notes.length := hlen ▸ part.voicings.length_pos
    have hnext : (w.step + 1) % part.sheet.notes.length =
        (w.played + 1) % part.voicings.length := by
      rw [hlen, h, Nat.mod_add_mod]
    rw [Sheet.walkMark, bind_of_ok (noteVelocity_sheet part w.played),
      bind_of_ok (member_step part h), bind_of_ok (wrap_of_pos hpos (w.step + 1)), hnext]
    simp [Walker.after, perform, records, hstep, pure, Except.pure]
  | rest => simp [Sheet.walkMark, Walker.after, perform, records, hstep, sheet, pure, Except.pure]
  | sustain => simp [Sheet.walkMark, Walker.after, perform, records, hstep, sheet, pure, Except.pure]

/-! ## A whole pattern -/

/-- A walker that begins in turn never misses; it plays the leaves of the
layout, and stops where the layout stops. -/
theorem walk_eq (p : Pattern) (slot : Ticks) {w : Walker} (h : w.InTurn part) :
    part.sheet.walk slot p w =
      .ok (w.after part (p.layOut slot).leaves, (p.layOut slot).exact) := by
  induction p generalizing slot w with
  | nil => rw [Sheet.walk, Pattern.layOut, h.after_nil]; rfl
  | mark m rest ih =>
    rw [Sheet.walk, bind_of_ok (walkMark_eq part h slot m), ih slot (Walker.InTurn.after part w _),
      Walker.after_append]
    rfl
  | group inner rest ihi ih =>
    rw [Sheet.walk, Pattern.layOut]
    cases hs : Ticks.split? slot inner.slots with
    | none => rw [h.after_nil]; rfl
    | some share =>
      dsimp only
      rw [bind_of_ok (ihi share h)]
      cases hexact : (inner.layOut share).exact with
      | false => simp [Layout.append, hexact, pure, Except.pure]
      | true =>
        dsimp only
        rw [if_pos rfl, ih slot (Walker.InTurn.after part w _), Walker.after_append]
        simp [Layout.append, hexact]

theorem inTurn_of_reaches (h : part.sheet.Reaches w) : w.InTurn part := by
  induction h with
  | start => rfl
  | next _ hm ih =>
    rw [walkMark_eq part ih] at hm
    cases hm
    rfl

theorem getElem?_of_notePlaced {place i : Nat} {v : Voicing} {q : Ticks} {leaves : List Leaf}
    (h : .notePlaced place v q ∈ part.records i leaves) :
    part.voicings.toList[place]? = some v := by
  induction leaves generalizing i with
  | nil => cases h
  | cons leaf leaves ih =>
    obtain ⟨_ | _ | _, d⟩ := leaf
    · rcases List.mem_cons.1 h with he | hlater
      · cases he
        rw [← part.voicings.length_toList]
        exact part.voicings.getElem?_toList i
      · exact ih hlater
    · exact ih h
    · exact ih h

end Part

/-! ## Compiling -/

/-- As `resolve`, with the voicings in a plain list; a list without entries is refused. -/
def NoteList.resolveList (d : Dictionary) (notes : NoteList) : Except Fault (List Voicing) :=
  if notes.toEntries.isEmpty then .error (.setting .noNotes) else resolveAll d notes.toEntries

theorem NoteList.resolveList_eq (d : Dictionary) (notes : NoteList) :
    notes.resolveList d = (notes.resolve d).map Cycle.toList := by
  rw [resolveList, resolve]
  cases hes : notes.toEntries with
  | nil => rfl
  | cons e es =>
    rw [List.isEmpty_cons, if_neg Bool.false_ne_true]
    cases hall : resolveAll d (e :: es) with
    | error fault => rfl
    | ok vs =>
      cases vs with
      | nil => simpa using length_of_resolveAll hall
      | cons v vs => rfl

/-- As `part`, for voicings in a plain list. -/
def Settings.sheet (s : Settings) (notes : List Voicing) : Sheet :=
  ⟨notes, AccentRow.ofMap? s.accentMap s.accentHi s.accentLo, s.velocity⟩

theorem Settings.sheet_part (s : Settings) (voicings : Cycle Voicing) :
    (s.part voicings).sheet = s.sheet voicings.toList := by
  rw [sheet, AccentRow.ofMap?_eq]
  rfl

namespace Clip

/-- Compiles settings by walking their pattern. -/
def compileChecked (d : Dictionary) (s : Settings) : ExceptT Fault Access Clip := do
  s.check
  let notes ← s.notes.resolveList d
  let pattern ← Pattern.read s.pattern
  let (w, exact) ← (s.sheet notes).walk s.grid.ticks pattern {}
  assemble s.grid pattern.slots exact w.events

theorem compileChecked_eq (d : Dictionary) (s : Settings) :
    (compileChecked d s).run = .ok (compile d s) := by
  unfold compileChecked
  rcases compile_cases d s with ⟨e, hc, he⟩ | ⟨hc, e, hv, he⟩ | ⟨hc, v, hv, e, hp, he⟩ |
    ⟨hc, v, hv, p, hp, he⟩
  · rw [hc, he]
    rfl
  · rw [hc, NoteList.resolveList_eq, hv, he]
    rfl
  · rw [hc, NoteList.resolveList_eq, hv, hp, he]
    rfl
  · have hwalk := (s.part v).walk_eq p s.grid.ticks (w := {}) rfl
    rw [s.sheet_part] at hwalk
    rw [hc, NoteList.resolveList_eq, hv, hp, he]
    show (liftM ((s.sheet v.toList).walk s.grid.ticks p {}) >>= fun x =>
      (liftM (assemble s.grid p.slots x.2 x.1.events) : ExceptT Fault Access Clip)).run = _
    rw [hwalk]
    rfl

/-- **No read misses.** Compiling by index, with every read checked, misses
nothing and compiles the same clip. Once notes are resolved, every walker that
can come about has its place in their list, can take any slot next, comes to
the end of every walk and has recorded only members of the list. Accents that
exist have a mark, and give a velocity for every note. A chord name is cut
behind its letter and a line behind the name that it asks for; both are cuts
within the text and between two characters, whatever the text and the table. -/
theorem reads_hit {α : Type} (d : Dictionary) (s : Settings) (name line : String)
    (t : CommandTable α) :
    (compileChecked d s).run = .ok (compile d s) ∧
      (∀ notes, s.notes.resolveList d = .ok notes →
        (∀ w, (s.sheet notes).Reaches w → w.step < notes.length ∧
          ∀ slot m, ∃ next, (s.sheet notes).walkMark slot w m = .ok next) ∧
        ∀ slot p, ∃ w exact, (s.sheet notes).walk slot p {} = .ok (w, exact) ∧
          (s.sheet notes).Reaches w ∧
          ∀ place v q, .notePlaced place v q ∈ w.journal → notes[place]? = some v) ∧
      (∀ map hi lo a, AccentRow.ofMap? map hi lo = some a →
        0 < a.marks.length ∧ ∀ i, ∃ velocity, a.velocity i = .ok velocity) ∧
      ChordName.readChecked name = .ok (ChordName.ofChars? name.toList) ∧
      (∀ c cs letter, name.toList = c :: cs → Letter.ofChar? c = some letter →
        String.Pos.Raw.IsValid name ⟨1⟩) ∧
      t.lookupChecked line = .ok (t.lookup line) ∧
      ∀ entry ∈ t.entries, ∀ arg, CommandTable.argument? entry.1 line = some arg →
        String.Pos.Raw.IsValid line ⟨entry.1.utf8ByteSize⟩ := by
  refine ⟨compileChecked_eq d s, fun notes hnotes => ?_, fun map hi lo a ha => ?_,
    ChordName.readChecked_eq name, fun c cs letter hname hletter => ?_, t.lookupChecked_eq line,
    fun entry _ arg => CommandTable.isValid_of_argument?⟩
  · rw [NoteList.resolveList_eq] at hnotes
    cases hv : s.notes.resolve d with
    | error fault => rw [hv] at hnotes; cases hnotes
    | ok voicings =>
      rw [hv] at hnotes
      cases hnotes
      rw [← s.sheet_part]
      refine ⟨fun w hw => ?_, fun slot p => ?_⟩
      · have hturn := (s.part voicings).inTurn_of_reaches hw
        rw [voicings.length_toList]
        exact ⟨hturn.step_lt, fun slot m => ⟨_, (s.part voicings).walkMark_eq hturn slot m⟩⟩
      · have hwalk := (s.part voicings).walk_eq p slot (w := {}) rfl
        refine ⟨_, _, hwalk, Sheet.Reaches.start.walk hwalk, fun place v q hmem => ?_⟩
        exact (s.part voicings).getElem?_of_notePlaced hmem
  · rw [AccentRow.ofMap?_eq] at ha
    obtain ⟨accent, -, rfl⟩ := Option.map_eq_some_iff.1 ha
    exact ⟨by simp [Accent.row, Cycle.length], fun i => ⟨_, AccentRow.velocity_row accent i⟩⟩
  · exact (exists_cut_iff name 1).1 ⟨_, ChordName.cut_one_of_letter hname hletter⟩

/-- Two notes with two accents, and a line that asks for a name of two bytes. -/
theorem reads_hit_wide :
    let s : Settings := { notes := .text "c4 d4", pattern := "x[xx]", accentMap := "x-" }
    let notes : List Voicing := [.single ⟨.c, .natural, 4⟩, .single ⟨.d, .natural, 4⟩]
    let t : CommandTable Nat := .ofList [("", 0), ("é", 1)]
    (compileChecked standardChords s).run = .ok (compile standardChords s) ∧
      s.notes.resolveList standardChords = .ok notes ∧
      (∀ w, (s.sheet notes).Reaches w → w.step < 2) ∧
      (∀ i, ∃ velocity, AccentRow.velocity ⟨[true, false], 127, 70⟩ i = .ok velocity) ∧
      String.Pos.Raw.IsValid "CM" ⟨1⟩ ∧ t.lookupChecked "é lí" = .ok (some (1, "lí")) ∧
      String.Pos.Raw.IsValid "é lí" ⟨2⟩ ∧ ¬String.Pos.Raw.IsValid "é lí" ⟨1⟩ := by
  intro s notes t
  have hnotes : s.notes.resolveList standardChords = .ok notes := by decide +kernel
  obtain ⟨hcompile, hwalk, haccent, -, hname, hlookup, hline⟩ :=
    reads_hit standardChords s "CM" "é lí" t
  exact ⟨hcompile, hnotes, fun w hw => ((hwalk notes hnotes).1 w hw).1,
    (haccent "x-" 127 70 _ (by decide +kernel)).2, hname 'C' ['M'] .c rfl rfl,
    hlookup.trans (by decide +kernel), hline ("é", 1) (by decide +kernel) "lí" (by decide +kernel),
    by decide +kernel⟩

end Clip

end RhythmClip
