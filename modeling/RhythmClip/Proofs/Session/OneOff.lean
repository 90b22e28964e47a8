import RhythmClip.Proofs.Clip.Events
import RhythmClip.Proofs.Pattern.Brackets
import RhythmClip.Proofs.Session.Reachable

/-!
# One pattern, three ways to compile it

A pattern can be stored and then compiled, compiled once without being stored,
or typed on a line of its own. All three compile the settings with that pattern
in place of theirs. The settings of a session have no other fault, so a pattern
that cannot be stored is refused for the same reason when it is compiled.

* `reply_pattern`: what is replied to a pattern that is to be stored.
* `compile_of_read_error`: in a session the fault of the pattern decides.
* `step_of_isNotation`: a line of notation characters is compiled.
* `oneOff_agrees`: the three ways agree.
-/
namespace RhythmClip.Session

open Text

variable {palette : Palette} {s : Settings} {P : String}

theorem calls_pattern (h : Trimmed P) : Calls ("pattern " ++ P) .pattern P :=
  calls_name (c := .pattern) (List.mem_singleton.2 rfl) h

theorem calls_oneOff (h : Trimmed P) : Calls ("clip " ++ P) .clip P :=
  calls_name (c := .clip) (List.mem_singleton.2 rfl) h

/-! ## Storing -/

/-- What is said of a pattern with so many slots and notes. -/
def patternText (palette : Palette) (P : String) (slots notes : Nat) : String :=
  paint palette Colour.brightGreen.ink
    ("🥁 Pattern set: " ++ P ++ (" (" ++ decimal slots ++ " slots, " ++ decimal notes ++ " notes)"))

theorem run_pattern (hne : P ≠ "") (palette : Palette) (s : Settings) :
    Command.pattern.run palette P s =
      match Pattern.read P with
      | .ok p => .say { s with pattern := P } (patternText palette P p.slots p.noteCount)
      | .error fault => .refuse s (.fault fault) := by
  rw [Command.run, pattern, if_neg ((not_isEmpty_iff P).2 hne)]
  cases Pattern.read P <;> rfl

/-! ## Compiling -/

theorem run_clip (hne : P ≠ "") (palette : Palette) (s : Settings) :
    (Command.clip.run palette P s).reply =
      match Clip.compile standardChords { s with pattern := P } with
      | .ok clip => .message (clip.listing palette)
      | .error fault => .error (.fault fault) := by
  rw [Command.run, clip, if_neg ((not_isEmpty_iff P).2 hne)]
  exact reply_compile s { s with pattern := P } (Clip.listing palette)

/-- Settings of a session are at fault for their pattern alone. -/
theorem compile_of_read_error (h : Admissible s) {fault : Fault} (hread : Pattern.read P = .error fault) :
    Clip.compile standardChords { s with pattern := P } = .error fault := by
  obtain ⟨text, hnotes, -, voicings, hv⟩ := h.notes
  rw [← hnotes] at hv
  have hcheck : Settings.check { s with pattern := P } = .ok () :=
    (s.check_pattern P).trans h.check
  exact Clip.compile_eq_error_of_read hcheck hv hread

theorem counts_of_compile {p : Pattern} (hread : Pattern.read s.pattern = .ok p) {c : Clip}
    (h : Clip.compile standardChords s = .ok c) : c.slots = p.slots ∧ c.noteCount = p.noteCount := by
  obtain ⟨voicings, q, hc⟩ := Clip.compiled_of_compile h
  have he := hc.read.symm.trans hread
  cases he
  exact ⟨hc.slots, hc.noteCount_eq⟩

/-! ## Lines of notation -/

/-- Every name of a command has a letter that is foreign to patterns. -/
theorem exists_foreign_of_mem_names {c : Command} {name : String} (h : name ∈ c.names) :
    ∃ d ∈ name.toList, d ∉ ['x', '-', '_', '[', ']'] := by
  have hall : ∀ name ∈ c.names, name.toList.any (· ∉ ['x', '-', '_', '[', ']']) := by
    cases c <;> decide +kernel
  obtain ⟨d, hd, hforeign⟩ := List.any_eq_true.1 (hall name h)
  exact ⟨d, hd, of_decide_eq_true hforeign⟩

theorem not_calls_of_isNotation (h : Pattern.IsNotation P.toList) (c : Command) (arg : String) :
    ¬Calls P c arg := by
  rintro ⟨name, hname, hasks⟩
  obtain ⟨d, hd, hforeign⟩ := exists_foreign_of_mem_names hname
  rcases hasks with ⟨rfl, -⟩ | ⟨rest, rfl, -⟩
  · exact hforeign (h d hd)
  · exact hforeign (h d (by simp [hd]))

theorem check_of_isNotation (h : Pattern.IsNotation P.toList) : Pattern.check P = .ok () := by
  obtain ⟨ss, hss⟩ := h.exists_symbols
  rw [Pattern.check, ← hss, symbolsFrom_map_char]

theorem step_of_isNotation (h : Pattern.IsNotation P.toList) (palette : Palette) (s : Settings) :
    step palette P s = Command.clip.run palette P s := by
  rw [step_of_not_calls (not_calls_of_isNotation h), bare, check_of_isNotation h]
  rfl

/-- **Three ways to compile a pattern agree.** In a session a pattern that is
compiled once gives what it gives when it is stored first, and if it cannot be
stored the same complaint; it is not stored by that. A line of notation
characters is answered as the command to compile it once. The slots and notes
that are told when a pattern is stored are those of the clip. -/
theorem oneOff_agrees (palette : Palette) (s : Settings) (hs : Reachable palette s) (P : String)
    (hP : Trimmed P) (hne : P ≠ "") :
    let stored := execute palette ("pattern " ++ P) s
    let once := execute palette ("clip " ++ P) s
    ((∃ text, stored.reply = .message text) ∨ ∃ why, stored.reply = .error why) ∧
      (∀ text, stored.reply = .message text →
        once.reply = (execute palette "clip" stored.settings).reply) ∧
      (∀ why, stored.reply = .error why → once.reply = .error why) ∧
      once.settings = s ∧
      (Pattern.IsNotation P.toList → step palette P s = step palette ("clip " ++ P) s) ∧
      ∀ text, stored.reply = .message text →
        ∃ slots notes, text = patternText palette P slots notes ∧
          ∀ c, Clip.compile standardChords stored.settings = .ok c →
            c.slots = slots ∧ c.noteCount = notes := by
  intro stored once
  have hstored : stored = Command.pattern.run palette P s := execute_of_calls (calls_pattern hP) ..
  have honce : once = Command.clip.run palette P s := execute_of_calls (calls_oneOff hP) ..
  have hstep : step palette ("clip " ++ P) s = Command.clip.run palette P s :=
    step_of_calls (calls_oneOff hP) ..
  have hsettings : once.settings = s := by rw [honce]; exact settings_clip palette P s
  have hbare : Pattern.IsNotation P.toList → step palette P s = step palette ("clip " ++ P) s :=
    fun h => by rw [step_of_isNotation h, hstep]
  rw [run_pattern hne] at hstored
  cases hread : Pattern.read P with
  | ok p =>
    simp only [hread] at hstored
    have hcompiled : (execute palette "clip" stored.settings).reply = once.reply := by
      rw [hstored, execute_of_calls calls_clip, reply_clip, honce, run_clip hne]
      rfl
    rw [hstored]
    refine ⟨.inl ⟨_, rfl⟩, fun text _ => ?_, nofun, hsettings, hbare, fun text htext => ?_⟩
    · rw [← hcompiled, hstored]
    · cases htext
      exact ⟨p.slots, p.noteCount, rfl, fun c => counts_of_compile (s := { s with pattern := P }) hread⟩
  | error fault =>
    simp only [hread] at hstored
    rw [hstored]
    refine ⟨.inr ⟨_, rfl⟩, nofun, fun why hwhy => ?_, hsettings, hbare, nofun⟩
    cases hwhy
    rw [honce, run_clip hne, compile_of_read_error hs.admissible hread]

/-- An empty group is refused in the same words when it is compiled once, and a
whole row plays as it does when it is stored. -/
theorem oneOff_agrees_emptyGroup :
    Reachable .plain changed ∧ Trimmed "x[-[]]" ∧ Trimmed "x[-x]" ∧
      (execute .plain ("clip " ++ "x[-[]]") changed).reply =
        .error (.fault (.pattern (.emptyGroup 3))) ∧
      (execute .plain ("clip " ++ "x[-x]") changed).reply =
        (execute .plain "clip" { changed with pattern := "x[-x]" }).reply := by
  have hempty : Trimmed "x[-[]]" := (trim_eq_self_iff _).1 (by decide +kernel)
  have hwhole : Trimmed "x[-x]" := (trim_eq_self_iff _).1 (by decide +kernel)
  obtain ⟨-, -, hrefused, -⟩ :=
    oneOff_agrees .plain changed reachable_changed "x[-[]]" hempty (by decide)
  obtain ⟨-, hplayed, -⟩ :=
    oneOff_agrees .plain changed reachable_changed "x[-x]" hwhole (by decide)
  have hstored : (execute .plain ("pattern " ++ "x[-x]") changed).settings =
      { changed with pattern := "x[-x]" } := by decide +kernel
  have hsaid : (execute .plain ("pattern " ++ "x[-x]") changed).reply =
      .message (patternText .plain "x[-x]" 2 2) := by decide +kernel
  refine ⟨reachable_changed, hempty, hwhole, hrefused _ (by decide +kernel), ?_⟩
  rw [hplayed _ hsaid, hstored]

end RhythmClip.Session
