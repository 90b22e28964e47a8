import RhythmClip.CommandLine.Run
import RhythmClip.Proofs.CommandLine.Compile

/-!
# One token, three front ends

A token can be looked up in a session, stored there as the only note, and
looked up on the command line. The session takes the argument of its line, the
notes are split into words first, and the command line reads arguments. A word
without blanks that begins with no hyphen passes all three unchanged, and so
all three say of it what `resolveToken` says.

* `ofText_operand`: an argument without a hyphen in front is an operand.
* `resolve_single`: the notes of one word are the voicing of that word.
* `chord_of_ok`, `chord_of_error`, `notes_of_ok`, `notes_of_error`,
  `runChord_of_ok`, `runChord_of_error`: each front end, by what the token means.
* `token_agrees`: the three together.
-/
namespace RhythmClip

open Text

variable {t : String} {v : Voicing} {fault : Fault}

/-! ## The notes of one word -/

theorem NoteList.toEntries_single (hne : t ≠ "") (hword : NoBlank t) :
    (NoteList.text t).toEntries = [.token t] := by
  rw [toEntries, words_single hne hword, List.map_singleton]

theorem NoteList.resolve_single (hne : t ≠ "") (hword : NoBlank t) (d : Dictionary) :
    (NoteList.text t).resolve d = (resolveToken d t).map fun v => ⟨v, []⟩ := by
  rw [resolve, toEntries_single hne hword, resolveAll, resolveEntry]
  cases resolveToken d t <;> rfl

/-! ## In a session -/

namespace Session

theorem chord_of_ok (hne : t ≠ "") (h : resolveToken standardChords t = .ok v)
    (palette : Palette) (s : Settings) :
    (chord palette t s).reply =
      .message (paint palette Colour.cyan.ink t ++ ": " ++ resolution v) := by
  have hentry : (Attempt.resolveEntry standardChords (.token t)).outcome = .ok v := h
  rw [chord, if_neg (by simpa using hne), Step.reply_attempt_of_ok hentry]
  rfl

/-- The step complains in these words, and the settings stay. -/
def Step.Refuses (step : Step) (s : Settings) (why : String) : Prop :=
  (∃ complaint, step.reply = .error complaint ∧ complaint.text = why) ∧ step.settings = s

theorem refuses_attempt {α : Type} {x : Attempt α} (h : x.outcome = .error fault) (s : Settings)
    (done : α → Step) : (Step.attempt s x done).Refuses s fault.message :=
  ⟨⟨.fault fault, Step.reply_attempt_of_error h done, rfl⟩, Step.settings_attempt_of_error h done⟩

theorem chord_of_error (hne : t ≠ "") (h : resolveToken standardChords t = .error fault)
    (palette : Palette) (s : Settings) : (chord palette t s).Refuses s fault.message := by
  have hentry : (Attempt.resolveEntry standardChords (.token t)).outcome = .error fault := h
  rw [chord, if_neg (by simpa using hne)]
  exact refuses_attempt hentry s _

theorem notes_of_ok (hne : t ≠ "") (hword : NoBlank t) (h : resolveToken standardChords t = .ok v)
    (palette : Palette) (s : Settings) :
    (notes palette t s).reply =
        .message (paint palette Colour.brightGreen.ink ("🎵 Notes set: " ++ v.text)) ∧
      (notes palette t s).settings = { s with notes := .text t } := by
  have hresolve : (Attempt.resolve standardChords (.text t)).outcome = .ok ⟨v, []⟩ := by
    rw [Attempt.outcome_resolve, NoteList.resolve_single hne hword, h]
    rfl
  rw [notes, if_neg (by simpa using hne), Step.reply_attempt_of_ok hresolve,
    Step.settings_attempt_of_ok hresolve]
  exact ⟨rfl, rfl⟩

theorem notes_of_error (hne : t ≠ "") (hword : NoBlank t)
    (h : resolveToken standardChords t = .error fault) (palette : Palette) (s : Settings) :
    (notes palette t s).Refuses s fault.message := by
  rw [notes, if_neg (by simpa using hne)]
  refine refuses_attempt ?_ s _
  rw [Attempt.outcome_resolve, NoteList.resolve_single hne hword, h]
  rfl

end Session

/-! ## On the command line -/

namespace CommandLine

open Session

theorem ofText_operand (h : t.toList.head? ≠ some '-') : Argument.ofText t = .operand := by
  have hform : ∀ {cs}, t.toList = '-' :: cs → False := fun hl => by
    rw [hl] at h
    exact h rfl
  unfold Argument.ofText Argument.ofChars
  split
  · rename_i hl
    exact (hform hl).elim
  · rename_i hl
    exact (hform hl).elim
  · rename_i hl
    exact (hform hl).elim
  · rfl

/-- The run has failed in these words, and said nothing else. -/
def Outcome.Complains (o : Outcome) (why : String) : Prop :=
  o.code = 1 ∧ o.stdout = "" ∧ o.stderr = "Error: " ++ why ++ "\n" ∧
    ∀ r ∈ o.records, r.level ≠ .warn

theorem invocation_chord (h : t.toList.head? ≠ some '-') :
    invocation 0 ["chord", t] = .ok ⟨0, .chord t⟩ := by
  have hname : Argument.ofText "chord" = .operand := by decide +kernel
  have hpieces : pieces sharedOptions none [t] = [.operand t] := by
    simp only [pieces, ofText_operand h]
  rw [invocation, hname]
  show invokeChord 0 [t] = _
  rw [invokeChord, hpieces]
  rfl

theorem run_chord (h : t.toList.head? ≠ some '-') (palette : Palette)
    (readFile : String → Except String String) (input : String) :
    run palette readFile input ["chord", t] = runChord t := by
  rw [run, invocation_chord h]
  rfl

/-- Looking up a token makes traces at most. -/
theorem no_warning_of_resolveEntry (t : String) :
    ∀ r ∈ (Attempt.resolveEntry standardChords (.token t)).records, r.level ≠ .warn := by
  intro r hr hwarn
  have htrace := Attempt.forall_mem_records_noting (NoteEntry.level_chordRecords (.token t)) r hr
  rw [htrace] at hwarn
  cases hwarn

theorem runChord_of_ok (h : resolveToken standardChords t = .ok v) :
    (runChord t).Prints (t ++ ": " ++ v.text) := by
  have hentry : (Attempt.resolveEntry standardChords (.token t)).outcome = .ok v := h
  simp only [runChord, hentry]
  exact ⟨rfl, rfl, rfl, no_warning_of_resolveEntry t⟩

theorem runChord_of_error (h : resolveToken standardChords t = .error fault) :
    (runChord t).Complains fault.message := by
  have hentry : (Attempt.resolveEntry standardChords (.token t)).outcome = .error fault := h
  simp only [runChord, hentry]
  exact ⟨rfl, rfl, rfl, no_warning_of_resolveEntry t⟩

/-- **All front ends agree on a token.** Take a word without blanks that does
not begin with a hyphen. Either it means a voicing: a session shows it, stores
the word as notes that are just this voicing, and the command line prints it.
Or it has no meaning, and a session refuses both lines and the command line
fails, all in the words of the same fault, and no setting changes. -/
theorem token_agrees (palette : Palette) (readFile : String → Except String String)
    (input : String) (s : Settings) (hne : t ≠ "") (hword : NoBlank t)
    (hhyphen : t.toList.head? ≠ some '-') :
    let shown := step palette ("chord " ++ t) s
    let stored := step palette ("notes " ++ t) s
    let printed := run palette readFile input ["chord", t]
    execute palette ("chord " ++ t) s = shown ∧ execute palette ("notes " ++ t) s = stored ∧
      ((∃ v, resolveToken standardChords t = .ok v ∧
          shown.reply = .message (paint palette Colour.cyan.ink t ++ ": " ++ resolution v) ∧
          shown.settings = s ∧
          stored.reply =
            .message (paint palette Colour.brightGreen.ink ("🎵 Notes set: " ++ v.text)) ∧
          stored.settings = { s with notes := .text t } ∧
          (NoteList.text t).resolve standardChords = .ok ⟨v, []⟩ ∧
          printed.Prints (t ++ ": " ++ v.text)) ∨
        ∃ fault, resolveToken standardChords t = .error fault ∧
          shown.Refuses s fault.message ∧ stored.Refuses s fault.message ∧
          printed.Complains fault.message) := by
  have hchord : Calls ("chord " ++ t) .chord t :=
    calls_name (c := .chord) (List.mem_singleton.2 rfl) hword.trimmed
  have hnotes : Calls ("notes " ++ t) .notes t :=
    calls_name (c := .notes) (List.mem_singleton.2 rfl) hword.trimmed
  intro shown stored printed
  have hshown : shown = chord palette t s := step_of_calls hchord palette s
  have hstored : stored = notes palette t s := step_of_calls hnotes palette s
  have hprinted : printed = runChord t := run_chord hhyphen palette readFile input
  refine ⟨(execute_of_calls hchord palette s).trans hshown.symm,
    (execute_of_calls hnotes palette s).trans hstored.symm, ?_⟩
  rw [hshown, hstored, hprinted]
  cases h : resolveToken standardChords t with
  | ok v =>
    obtain ⟨hreply, hsettings⟩ := notes_of_ok hne hword h palette s
    refine .inl ⟨v, rfl, chord_of_ok hne h palette s, settings_chord palette t s, hreply, hsettings,
      ?_, runChord_of_ok h⟩
    rw [NoteList.resolve_single hne hword, h]
    rfl
  | error fault =>
    exact .inr ⟨fault, rfl, chord_of_error hne h palette s, notes_of_error hne hword h palette s,
      runChord_of_error h⟩

/-- The name of a power chord that is also a pitch, and a word that is neither. -/
theorem token_agrees_C5 :
    "C5" ≠ "" ∧ NoBlank "C5" ∧ "C5".toList.head? ≠ some '-' ∧
      (step .plain "chord C5" {}).reply =
        .message "C5: C5 (a single pitch; pitch spellings win over chord names)" ∧
      (step .plain "notes C5" {}).settings = { notes := .text "C5" } ∧
      (run .plain .ok "" ["chord", "C5"]).Prints "C5: C5" ∧
      (step .plain "chord H♭" {}).Refuses {} (Fault.note "H♭" .unknown).message ∧
      (run .plain .ok "" ["chord", "H♭"]).Complains (Fault.note "H♭" .unknown).message := by
  have hpitch : resolveToken standardChords "C5" = .ok ⟨⟨.c, .natural, 5⟩, []⟩ := by
    decide +kernel
  have hnone : resolveToken standardChords "H♭" = .error (.note "H♭" .unknown) := by
    decide +kernel
  obtain ⟨-, -, ⟨v, hv, hshown, -, -, hstored, -, hprinted⟩ | ⟨fault, hfault, -⟩⟩ :=
    token_agrees .plain .ok "" {} (t := "C5") (by decide) (by decide +kernel) (by decide +kernel)
  · obtain ⟨-, -, ⟨u, hu, -⟩ | ⟨fault, hfault, hrefused, -, hcomplains⟩⟩ :=
      token_agrees .plain .ok "" {} (t := "H♭") (by decide) (by decide +kernel) (by decide +kernel)
    · rw [hnone] at hu; cases hu
    rw [hpitch] at hv
    rw [hnone] at hfault
    cases hv
    cases hfault
    exact ⟨by decide, by decide +kernel, by decide +kernel, hshown.trans (by decide +kernel), hstored,
      hprinted, hrefused, hcomplains⟩
  · rw [hpitch] at hfault; cases hfault

end CommandLine

end RhythmClip
