import RhythmClip.Proofs.Clip.Events
import RhythmClip.Proofs.Clip.Warnings
import RhythmClip.Proofs.Note
import RhythmClip.Proofs.Session.Admissible

/-!
# The journal of a compilation

What compiling records can be read off its input and its clip: the flags that
are set, the entries that a dictionary was asked for, the name of the
subdivision, the events that sound, and the clip itself. Each stage adds its
records behind those of the stages before, and a fault keeps what was recorded
up to it.

* `records_resolveAll_append`, `records_resolve_of_error`: entries are recorded
  up to the first that is bad.
* `records_eq_placements`: notes are recorded as they stand among the events.
* `records_compile_of_check`, `_of_resolve`, `_of_read`, `_of_assemble`: the
  journal that a fault of each stage leaves behind, and
  `Compiled.records_compile` that of a clip.
* `transcript_of_compile`: the whole journal, for whatever compiling comes to.
-/
namespace RhythmClip

/-! ## Chords -/

/-- The chord that a dictionary was asked for and has; it is not asked for a pitch. -/
def NoteEntry.chord? (d : Dictionary) : NoteEntry → Option (String × Voicing)
  | .token t => if (Pitch.ofText? t).isNone then (d.voicing? t).map (t, ·) else none
  | .pitches _ => none

/-- One record for each entry that a dictionary has resolved. -/
def chordsFound (d : Dictionary) (es : List NoteEntry) : List Record :=
  (es.filterMap (·.chord? d)).map fun x => .chordFound x.1 x.2

theorem NoteEntry.chordRecords_eq {d : Dictionary} {e : NoteEntry} {v : Voicing}
    (h : resolveEntry d e = .ok v) : e.chordRecords v = chordsFound d [e] := by
  cases e with
  | pitches members => rfl
  | token t =>
    rw [resolveEntry, resolveToken] at h
    cases hp : Pitch.ofText? t with
    | some p => simp [chordRecords, chordsFound, chord?, hp]
    | none =>
      cases hv : d.voicing? t with
      | none => simp [hp, hv] at h
      | some u =>
        simp only [hp, hv, Except.ok.injEq] at h
        simp [chordRecords, chordsFound, chord?, hp, hv, h]

theorem chordsFound_cons (d : Dictionary) (e : NoteEntry) (es : List NoteEntry) :
    chordsFound d (e :: es) = chordsFound d [e] ++ chordsFound d es := by
  rw [← List.singleton_append, chordsFound, List.filterMap_append, List.map_append]
  rfl

theorem map_level_chordsFound (d : Dictionary) (es : List NoteEntry) :
    (chordsFound d es).map Record.level =
      List.replicate (es.countP fun e => (e.chord? d).isSome) .trace := by
  rw [chordsFound, List.map_map, ← List.length_filterMap_eq_countP]
  exact List.map_const' ..

namespace Attempt

section Resolve

variable {d : Dictionary} {es before behind : List NoteEntry} {e : NoteEntry} {fault : Fault}
  {notes : NoteList}

theorem records_resolveAll_cons_of_ok {v : Voicing} (h : RhythmClip.resolveEntry d e = .ok v)
    (es : List NoteEntry) :
    (resolveAll d (e :: es)).records = chordsFound d [e] ++ (resolveAll d es).records := by
  have hentry : (resolveEntry d e).outcome = .ok v := h
  rw [resolveAll, records_bind_ok hentry, resolveEntry, h, records_noting_ok,
    NoteEntry.chordRecords_eq h]
  cases ho : (resolveAll d es).outcome with
  | error f => rw [records_bind_error ho]
  | ok vs => rw [records_bind_ok ho, records_pure, List.append_nil]

theorem records_resolveAll_cons_of_error (h : RhythmClip.resolveEntry d e = .error fault)
    (es : List NoteEntry) : (resolveAll d (e :: es)).records = [] := by
  have hentry : (resolveEntry d e).outcome = .error fault := h
  rw [resolveAll, records_bind_error hentry, resolveEntry, h, records_noting_error]

/-- Entries that resolve leave their records, whatever stands behind them. -/
theorem records_resolveAll_append (h : ∀ b ∈ before, ∃ v, RhythmClip.resolveEntry d b = .ok v)
    (behind : List NoteEntry) :
    (resolveAll d (before ++ behind)).records =
      chordsFound d before ++ (resolveAll d behind).records := by
  induction before with
  | nil => rfl
  | cons e before ih =>
    obtain ⟨⟨v, hv⟩, hbefore⟩ := List.forall_mem_cons.1 h
    rw [List.cons_append, records_resolveAll_cons_of_ok hv, ih hbefore, chordsFound_cons d e before,
      List.append_assoc]

theorem records_resolve (d : Dictionary) (notes : NoteList) :
    (resolve d notes).records = (resolveAll d notes.toEntries).records := by
  cases ho : (resolveAll d notes.toEntries).outcome with
  | error f => rw [resolve, records_bind_error ho]
  | ok vs =>
    rw [resolve, records_bind_ok ho]
    cases Cycle.ofList? vs <;> exact List.append_nil _

theorem records_resolve_of_ok {v : Cycle Voicing} (h : notes.resolve d = .ok v) :
    (resolve d notes).records = chordsFound d notes.toEntries := by
  have hall := exists_of_forall₂ ((NoteList.resolve_eq_ok_iff_forall₂ d notes v).1 h)
  have hrecords := records_resolveAll_append hall []
  rw [List.append_nil] at hrecords
  rw [records_resolve, hrecords]
  exact List.append_nil _

/-- The records end before the first bad entry. -/
theorem records_resolve_of_error (h : notes.resolve d = .error fault) :
    notes.toEntries = [] ∧ (resolve d notes).records = [] ∨
      ∃ before e behind, notes.toEntries = before ++ e :: behind ∧
        (∀ b ∈ before, ∃ v, RhythmClip.resolveEntry d b = .ok v) ∧
        RhythmClip.resolveEntry d e = .error fault ∧
        (resolve d notes).records = chordsFound d before := by
  rcases (NoteList.resolve_eq_error_iff d notes fault).1 h with
    ⟨hnil, -⟩ | ⟨before, e, behind, hcut, hbefore, he⟩
  · refine .inl ⟨hnil, ?_⟩
    rw [records_resolve, hnil]
    rfl
  · refine .inr ⟨before, e, behind, hcut, hbefore, he, ?_⟩
    rw [records_resolve, hcut, records_resolveAll_append hbefore,
      records_resolveAll_cons_of_error he, List.append_nil]

end Resolve

end Attempt

/-! ## Notes -/

/-- What an event sounds and for how long, if it sounds. -/
def Event.sounding? (e : Event) : Option (Voicing × Ticks) := e.voicing?.map (·, e.duration)

/-- One record for each event that sounds; they cycle through `steps` places from `i` on. -/
def placements (steps i : Nat) (events : List Event) : List Record :=
  (events.filterMap Event.sounding?).mapIdx fun k x => .notePlaced ((i + k) % steps) x.1 x.2

theorem Part.records_eq_placements (part : Part) (i : Nat) (leaves : List Leaf) :
    part.records i leaves = placements part.voicings.length i (part.perform i leaves) := by
  induction leaves generalizing i with
  | nil => rfl
  | cons leaf leaves ih =>
    obtain ⟨_ | _ | _, d⟩ := leaf
    · have hnext : ∀ k, i + 1 + k = i + (k + 1) := fun k => by omega
      simp only [records, ih, placements, perform, List.filterMap_cons, Event.sounding?,
        Event.voicing?, Option.map_some, List.mapIdx_cons, Nat.add_zero, hnext]
    · exact ih i
    · exact ih i

theorem length_placements (steps i : Nat) (events : List Event) :
    (placements steps i events).length = events.countP Event.isSounding := by
  rw [placements, List.length_mapIdx, List.length_filterMap_eq_countP]
  simp only [Event.sounding?, Option.isSome_map]
  rfl

theorem map_level_placements (steps i : Nat) (events : List Event) :
    (placements steps i events).map Record.level =
      List.replicate (events.countP Event.isSounding) .trace := by
  rw [← length_placements steps i, List.map_eq_replicate_iff]
  intro r hr
  obtain ⟨k, hk, rfl⟩ := List.mem_mapIdx.1 hr
  rfl

/-! ## Stages -/

theorem Subdivision.isNone_ofName?_iff (name : String) :
    (ofName? name).isNone = true ↔ name ∉ ["1n", "2n", "4n", "8n", "16n"] := by
  rw [Option.isNone_iff_eq_none]
  refine ⟨fun h hname => ?_, fun h => ?_⟩
  · obtain ⟨g, rfl⟩ := exists_name_eq hname
    rw [ofName?_name] at h
    cases h
  · cases hg : ofName? name with
    | none => rfl
    | some g =>
      have hname : g.name = name := by simpa using List.find?_some hg
      exact absurd (hname ▸ g.name_mem) h

theorem Settings.gridRecords_eq (s : Settings) :
    s.gridRecords = if s.subdivision ∈ ["1n", "2n", "4n", "8n", "16n"] then []
      else [.subdivisionReplaced s.subdivision] := by
  simp only [gridRecords, Subdivision.isNone_ofName?_iff, ite_not]

namespace Attempt

variable {d : Dictionary} {s : Settings} {voicings : Cycle Voicing} {p : Pattern} {e : Fault}

theorem records_lift {α : Type} (o : Except Fault α) : (liftM o : Attempt α).records = [] := by
  cases o <;> rfl

theorem records_record (records : List Record) : (record records).records = records := rfl

theorem records_grid (s : Settings) : (grid s).records = s.gridRecords := rfl

theorem records_check (h : s.check = .ok ()) :
    (check s).records = s.flags.map .flagIgnored := by
  rw [check, h, records_noting_ok]

theorem records_compile_of_check (h : s.check = .error e) (d : Dictionary) :
    (compile d s).records = [] := by
  have hcheck : (check s).outcome = .error e := h
  rw [compile, records_bind_error hcheck, check, h, records_noting_error]

theorem records_compile_of_resolve (hc : s.check = .ok ()) (h : s.notes.resolve d = .error e) :
    (compile d s).records = s.flags.map .flagIgnored ++ (resolve d s.notes).records := by
  have hcheck : (check s).outcome = .ok () := hc
  have hresolve : (resolve d s.notes).outcome = .error e := (outcome_resolve d s.notes).trans h
  rw [compile, records_bind_ok hcheck, records_bind_error hresolve, records_check hc]

theorem records_compile_of_read (hc : s.check = .ok ()) (hv : s.notes.resolve d = .ok voicings)
    (h : Pattern.read s.pattern = .error e) :
    (compile d s).records = s.flags.map .flagIgnored ++ chordsFound d s.notes.toEntries := by
  have hcheck : (check s).outcome = .ok () := hc
  have hresolve : (resolve d s.notes).outcome = .ok voicings :=
    (outcome_resolve d s.notes).trans hv
  have hread : (liftM (Pattern.read s.pattern) : Attempt Pattern).outcome = .error e := h
  rw [compile, records_bind_ok hcheck, records_bind_ok hresolve, records_bind_error hread,
    records_check hc, records_resolve_of_ok hv, records_lift, List.append_nil]

/-- The last record is that of the clip, if there is one. -/
theorem records_finish (pattern : String) (o : Except Fault Clip) :
    (do
      let clip ← (liftM o : Attempt Clip)
      record [.clipCompiled pattern clip]
      return clip).records =
      match o with
      | .ok clip => [.clipCompiled pattern clip]
      | .error _ => [] := by
  cases o <;> rfl

/-- Past the three judgements everything is recorded but a clip that does not come about. -/
theorem records_compile_of_assemble (hc : s.check = .ok ())
    (hv : s.notes.resolve d = .ok voicings) (hp : Pattern.read s.pattern = .ok p) :
    (compile d s).records =
      s.flags.map .flagIgnored ++ chordsFound d s.notes.toEntries ++ s.gridRecords ++
        placements voicings.length 0
          ((s.part voicings).perform 0 (p.layOut s.grid.ticks).leaves) ++
        match Clip.assembleFrom s voicings p with
        | .ok c => [.clipCompiled s.pattern c]
        | .error _ => [] := by
  have hcheck : (check s).outcome = .ok () := hc
  have hresolve : (resolve d s.notes).outcome = .ok voicings :=
    (outcome_resolve d s.notes).trans hv
  have hread : (liftM (Pattern.read s.pattern) : Attempt Pattern).outcome = .ok p := hp
  have hgrid : (grid s).outcome = .ok s.grid := rfl
  have hnotes : ∀ records, (record records).outcome = .ok () := fun _ => rfl
  rw [compile, records_bind_ok hcheck, records_bind_ok hresolve, records_bind_ok hread,
    records_bind_ok hgrid, records_bind_ok (hnotes _), records_check hc, records_resolve_of_ok hv,
    records_lift, records_grid, records_record, Part.records_eq_placements, records_finish]
  simp only [List.nil_append, List.append_assoc]
  rfl

end Attempt

/-! ## The journal -/

theorem map_level_flags (s : Settings) :
    (s.flags.map Record.flagIgnored).map Record.level = List.replicate s.flags.length .warn := by
  rw [List.map_map]
  exact List.map_const' ..

theorem map_level_gridRecords (s : Settings) :
    s.gridRecords.map Record.level =
      List.replicate (if s.subdivision ∈ ["1n", "2n", "4n", "8n", "16n"] then 0 else 1) .warn := by
  rw [s.gridRecords_eq]
  split <;> rfl

namespace Clip

variable {d : Dictionary} {s : Settings}

theorem Compiled.records_compile {voicings : Cycle Voicing} {p : Pattern} {c : Clip}
    (h : Compiled d s voicings p c) :
    (Attempt.compile d s).records =
      s.flags.map .flagIgnored ++ chordsFound d s.notes.toEntries ++ s.gridRecords ++
        placements s.notes.toEntries.length 0 c.events ++ [.clipCompiled s.pattern c] := by
  have hsteps : voicings.length = s.notes.toEntries.length := by
    rw [← length_of_resolveAll ((NoteList.resolve_eq_ok_iff d s.notes voicings).1 h.resolve),
      Cycle.length_toList]
  have hclip := h.compile_eq
  rw [compile_eq_assembleFrom h.check h.resolve h.read] at hclip
  rw [Attempt.records_compile_of_assemble h.check h.resolve h.read, hclip, h.events, hsteps]

theorem debug_notMem_levels {e : Fault} (h : compile d s = .error e) :
    .debug ∉ (Attempt.compile d s).records.map Record.level := by
  have hflags : .debug ∉ (s.flags.map Record.flagIgnored).map Record.level := by
    simp [map_level_flags, -List.map_map]
  have hchords : ∀ es, .debug ∉ (chordsFound d es).map Record.level := by
    simp [map_level_chordsFound]
  rcases compile_cases d s with ⟨e', hc, -⟩ | ⟨hc, e', hv, -⟩ | ⟨hc, v, hv, e', hp, -⟩ |
    ⟨hc, v, hv, p, hp, he⟩
  · rw [Attempt.records_compile_of_check hc]
    exact List.not_mem_nil
  · rw [Attempt.records_compile_of_resolve hc hv]
    rcases Attempt.records_resolve_of_error hv with ⟨-, hr⟩ | ⟨before, b, behind, -, -, -, hr⟩
    · rwa [hr, List.append_nil]
    · rw [hr, List.map_append, List.mem_append, not_or]
      exact ⟨hflags, hchords before⟩
  · rw [Attempt.records_compile_of_read hc hv hp, List.map_append, List.mem_append, not_or]
    exact ⟨hflags, hchords s.notes.toEntries⟩
  · rw [Attempt.records_compile_of_assemble hc hv hp, ← he, h, List.append_nil]
    simp only [List.map_append, List.mem_append, not_or]
    refine ⟨⟨⟨hflags, hchords s.notes.toEntries⟩, ?_⟩, ?_⟩
    · simp [map_level_gridRecords]
    · simp [map_level_placements]

/-- **The whole journal.** Recording does not change what compiling comes to.
For a clip there is a warning for each flag that is set, then a trace for each
entry that the dictionary has resolved, in order, then a warning if the
subdivision has no such name, then a trace for each event that sounds, in
order, with its place in the cycle of the notes, its pitches and its length,
and at last the summary of the clip. Where there is no clip there is no
summary. Settings at fault record nothing, and notes at fault only the flags
and the chords before the first bad entry. -/
theorem transcript_of_compile (d : Dictionary) (s : Settings) :
    (Attempt.compile d s).outcome = compile d s ∧
      (∀ c, compile d s = .ok c →
        (Attempt.compile d s).records =
            s.flags.map .flagIgnored ++ chordsFound d s.notes.toEntries ++
              (if s.subdivision ∈ ["1n", "2n", "4n", "8n", "16n"] then []
                else [.subdivisionReplaced s.subdivision]) ++
              placements s.notes.toEntries.length 0 c.events ++ [.clipCompiled s.pattern c] ∧
          (Attempt.compile d s).records.map Record.level =
            List.replicate s.flags.length .warn ++
              List.replicate (s.notes.toEntries.countP fun e => (e.chord? d).isSome) .trace ++
              List.replicate
                (if s.subdivision ∈ ["1n", "2n", "4n", "8n", "16n"] then 0 else 1) .warn ++
              List.replicate c.noteCount .trace ++ [.debug]) ∧
      (∀ e, compile d s = .error e →
        .debug ∉ (Attempt.compile d s).records.map Record.level) ∧
      (∀ e, s.check = .error e → (Attempt.compile d s).records = []) ∧
      ∀ e, s.check = .ok () → s.notes.resolve d = .error e →
        s.notes.toEntries = [] ∧ (Attempt.compile d s).records = s.flags.map .flagIgnored ∨
          ∃ before b behind, s.notes.toEntries = before ++ b :: behind ∧
            (∀ a ∈ before, ∃ v, resolveEntry d a = .ok v) ∧ resolveEntry d b = .error e ∧
            (Attempt.compile d s).records =
              s.flags.map .flagIgnored ++ chordsFound d before := by
  refine ⟨Attempt.outcome_compile d s, fun c h => ?_, fun e => debug_notMem_levels,
    fun e h => Attempt.records_compile_of_check h d, fun e hc h => ?_⟩
  · obtain ⟨voicings, p, hcompiled⟩ := compiled_of_compile h
    refine ⟨by rw [hcompiled.records_compile, s.gridRecords_eq], ?_⟩
    rw [hcompiled.records_compile]
    simp only [List.map_append, map_level_flags, map_level_chordsFound, map_level_gridRecords,
      map_level_placements]
    rfl
  · rw [Attempt.records_compile_of_resolve hc h]
    rcases Attempt.records_resolve_of_error h with ⟨hnil, hr⟩ |
      ⟨before, b, behind, hcut, hbefore, hb, hr⟩
    · exact .inl ⟨hnil, by rw [hr, List.append_nil]⟩
    · exact .inr ⟨before, b, behind, hcut, hbefore, hb, by rw [hr]⟩

/-- A flag, a chord beside a pitch, a subdivision without a name and three
notes; with an unknown word in place of the pitch there is no summary, and with
a velocity out of range nothing at all. -/
theorem transcript_of_compile_replaced :
    let s : Settings :=
      { notes := .text "CM c4", pattern := "x-[xx]", subdivision := "3n", sizzle := true }
    (Attempt.compile standardChords s).records.map Record.level =
        [.warn, .trace, .warn, .trace, .trace, .trace, .debug] ∧
      .debug ∉ (Attempt.compile standardChords { s with notes := .text "CM c" }).records.map
        Record.level ∧
      (Attempt.compile standardChords { s with velocity := 128 }).records = [] := by
  intro s
  refine ⟨?_, ?_, ?_⟩
  · have hcount : (compile standardChords s).map noteCount = .ok 3 := by decide +kernel
    cases hc : compile standardChords s with
    | error e => rw [hc] at hcount; cases hcount
    | ok c =>
      rw [hc] at hcount
      have hthree : c.noteCount = 3 := Except.ok.inj hcount
      rw [((transcript_of_compile standardChords s).2.1 c hc).2, hthree]
      decide +kernel
  · exact (transcript_of_compile standardChords { s with notes := .text "CM c" }).2.2.1
      (.note "c" .unknown) (by decide +kernel)
  · exact (transcript_of_compile standardChords { s with velocity := 128 }).2.2.2.1
      (.setting (.tooLoud .velocity 128)) (by decide +kernel)

end Clip

end RhythmClip
