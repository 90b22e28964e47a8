import RhythmClip.Proofs.Clip.Colour
import RhythmClip.Proofs.Session.Quoting
import RhythmClip.Proofs.Session.Reachable
import RhythmClip.Proofs.Text.Words

/-!
# Sessions in colour

A line is answered twice, in colour and without it, from the same settings.
The two answers are of one kind, leave the same settings, and what is shown in
colour shows the plain text (`ShowsStep`). Each command paints whole texts
only, and none with an escape character in it, as the settings of a session
have none and the line is supposed to have none.

* `showsStep_attempt`: steps that depend on an attempt.
* `showsStep_run`: one command, with a line for each of them.
* `showsStep_step`: a line as it is typed.
* `unpainted_shown`: what is shown in colour, without the control sequences.
-/
namespace RhythmClip

open Text

theorem Subdivision.noEscape_name (d : Subdivision) : NoEscape d.name := by
  cases d <;> decide

theorem CommandTable.Asks.noEscape {line name arg : String} (h : Asks line name arg)
    (hline : NoEscape line) : NoEscape arg := by
  rcases h with ⟨-, rfl⟩ | ⟨rest, rfl, rfl⟩
  · decide
  · rw [noEscape_append_iff] at hline
    exact fun c hc => hline.2 c (mem_of_mem_trim hc)

theorem noEscape_of_mem_words {s word : String} (hs : NoEscape s) (h : word ∈ words s) :
    NoEscape word := fun c hc => hs c (mem_of_mem_words h hc)

theorem NoteList.noEscape_typed_text {text : String} (h : NoEscape text) :
    NoEscape (NoteList.text text).typed := by
  refine .intercalate (by decide) (List.forall_mem_map.2 fun entry hentry => ?_)
  obtain ⟨word, hword, rfl⟩ := List.mem_map.1 hentry
  exact noEscape_of_mem_words h hword

namespace Session

variable {s : Settings} {line arg : String}

/-! ## Answers in colour -/

/-- Replies of one kind, the second without the colour of the first. -/
inductive ShowsReply : Reply → Reply → Prop where
  | success : ShowsReply .success .success
  | message {text plain : String} : Shows text plain → ShowsReply (.message text) (.message plain)
  | exit : ShowsReply .exit .exit
  | notACommand : ShowsReply .notACommand .notACommand
  | error {why : Complaint} : NoEscape why.text → ShowsReply (.error why) (.error why)

/-- Steps to the same settings, the second without the colour of the first. -/
structure ShowsStep (coloured plain : Step) : Prop where
  reply : ShowsReply coloured.reply plain.reply
  settings : coloured.settings = plain.settings
  printed : Shows coloured.printed plain.printed

theorem shows_empty : Shows "" "" := NoEscape.shows (by decide)

theorem showsStep_say (s : Settings) {text plain : String} (h : Shows text plain) :
    ShowsStep (.say s text) (.say s plain) := ⟨.message h, rfl, shows_empty⟩

theorem showsStep_refuse (s : Settings) {why : Complaint} (h : NoEscape why.text) :
    ShowsStep (.refuse s why) (.refuse s why) := ⟨.error h, rfl, shows_empty⟩

theorem showsStep_attempt {α : Type} {x : Attempt α} {done done' : α → Step}
    (hfault : ∀ fault, x.outcome = .error fault → NoEscape fault.message)
    (hdone : ∀ a, x.outcome = .ok a → ShowsStep (done a) (done' a)) :
    ShowsStep (.attempt s x done) (.attempt s x done') := by
  unfold Step.attempt
  cases hx : x.outcome with
  | ok a =>
    have h := hdone a hx
    exact ⟨h.reply, h.settings, h.printed⟩
  | error fault =>
    have htext : NoEscape (Complaint.fault fault).text := hfault fault hx
    exact ⟨.error htext, rfl, shows_empty⟩

theorem ShowsReply.shows_shown {coloured plain : Reply} (h : ShowsReply coloured plain) :
    Shows (coloured.shown .coloured) (plain.shown .plain) := by
  cases h with
  | success | notACommand => exact shows_empty
  | message h => exact h.append (NoEscape.shows (by decide))
  | exit => exact (shows_paint _ (by decide) (by decide)).append (NoEscape.shows (by decide))
  | error h =>
    have hword := shows_paint Colour.brightRed.boldInk (by decide) (by decide : NoEscape "Error:")
    have htext := shows_paint Colour.red.ink (by decide) h
    exact ((hword.append (NoEscape.shows (by decide))).append htext).append
      (NoEscape.shows (by decide))

theorem ShowsStep.shows_shown {coloured plain : Step} (h : ShowsStep coloured plain) :
    Shows (coloured.shown .coloured) (plain.shown .plain) := h.printed.append h.reply.shows_shown

theorem ShowsStep.exit_iff {coloured plain : Step} (h : ShowsStep coloured plain) :
    coloured.reply = .exit ↔ plain.reply = .exit := by
  have hreply := h.reply
  revert hreply
  generalize coloured.reply = r
  generalize plain.reply = r'
  rintro (_ | _ | _ | _ | _) <;> simp

/-! ## Complaints -/

theorem noEscape_velocity {typed : String} (h : NoEscape typed) :
    NoEscape (Complaint.velocity typed).text := by
  unfold Complaint.text
  simp only [noEscape_append_iff, h, and_true]
  exact ⟨noEscape_ofList rfl, noEscape_ofList rfl⟩

theorem noEscape_unknownLine (h : NoEscape line) : NoEscape (Complaint.unknownLine line).text := by
  unfold Complaint.text
  simp only [noEscape_append_iff, h, and_true]
  exact ⟨noEscape_ofList rfl, noEscape_ofList rfl⟩

theorem readVelocity_eq_error {current : UInt8} {typed : Option String} {why : Complaint}
    (h : readVelocity current typed = .error why) : ∃ t ∈ typed, why = .velocity t := by
  unfold readVelocity at h
  split at h
  · cases h
  · split at h
    · cases h
    · cases h
      exact ⟨_, rfl, rfl⟩

theorem readAccent_eq_error {map : String} {typed : List String} {why : Complaint}
    (h : readAccent s map typed = .error why) : ∃ t ∈ typed, why = .velocity t := by
  unfold readAccent at h
  cases hhi : readVelocity s.accentHi typed.head? with
  | error e =>
    rw [hhi] at h
    cases h
    obtain ⟨t, ht, rfl⟩ := readVelocity_eq_error hhi
    exact ⟨t, List.mem_of_mem_head? ht, rfl⟩
  | ok hi =>
    cases hlo : readVelocity s.accentLo typed.tail.head? with
    | error e =>
      rw [hhi, hlo] at h
      cases h
      obtain ⟨t, ht, rfl⟩ := readVelocity_eq_error hlo
      exact ⟨t, List.mem_of_mem_tail (List.mem_of_mem_head? ht), rfl⟩
    | ok lo =>
      rw [hhi, hlo] at h
      cases h

/-! ## Commands that edit -/

theorem showsStep_notes (hs : s.Clear) (harg : NoEscape arg) :
    ShowsStep (notes .coloured arg s) (notes .plain arg s) := by
  unfold notes
  split
  · exact showsStep_say s (((by decide : NoEscape "Notes: ").append hs.notes).shows)
  · refine showsStep_attempt (fun fault hfault => ?_) fun voicings _ => ?_
    · rw [Attempt.outcome_resolve] at hfault
      refine Fault.noEscape_message fun c hc => ?_
      exact NoteList.noEscape_typed_text harg c (NoteList.quotes_of_resolve hfault c hc)
    · have hshown : NoEscape (String.intercalate " " (voicings.toList.map Voicing.text)) :=
        .intercalate (by decide) (List.forall_mem_map.2 fun v _ => v.isPrinted_text.noEscape)
      exact showsStep_say _ (shows_paint _ (by decide) (.append (by decide) hshown))

theorem showsStep_pattern (hs : s.Clear) (harg : NoEscape arg) :
    ShowsStep (pattern .coloured arg s) (pattern .plain arg s) := by
  unfold pattern
  split
  · exact showsStep_say s (((by decide : NoEscape "Pattern: ").append hs.pattern).shows)
  · refine showsStep_attempt (fun fault hfault => ?_) fun p _ => showsStep_say _ ?_
    · exact Fault.noEscape_message fun c hc => harg c (Pattern.quotes_of_read hfault c hc)
    · refine shows_paint _ (by decide) ?_
      simp only [noEscape_append_iff, noEscape_decimal, harg]
      decide

theorem showsStep_subdivision (s : Settings) (arg : String) :
    ShowsStep (subdivision arg s) (subdivision arg s) := by
  unfold subdivision
  split
  · refine showsStep_attempt nofun fun d _ => showsStep_say s ?_
    exact ((by decide : NoEscape "Subdivision: ").append d.noEscape_name).shows
  · split
    · rename_i d _
      refine showsStep_say _ (NoEscape.shows ?_)
      simp only [noEscape_append_iff, d.noEscape_name, d.ticks.isWord_text.isPrinted.noEscape]
      decide
    · exact showsStep_refuse s (by decide)

theorem showsStep_velocity (s : Settings) (harg : NoEscape arg) :
    ShowsStep (velocity arg s) (velocity arg s) := by
  unfold velocity
  split
  · exact showsStep_say s (((by decide : NoEscape "Velocity: ").append (noEscape_decimal _)).shows)
  · split
    · exact ⟨.success, rfl, shows_empty⟩
    · rename_i why hwhy
      obtain ⟨t, ht, rfl⟩ := readVelocity_eq_error hwhy
      obtain rfl := Option.some.inj ht
      exact showsStep_refuse s (noEscape_velocity harg)

theorem showsStep_accent (hs : s.Clear) (harg : NoEscape arg) :
    ShowsStep (accent arg s) (accent arg s) := by
  unfold accent
  split
  · refine showsStep_say s (NoEscape.shows ?_)
    simp only [noEscape_append_iff, noEscape_decimal, hs.accentMap]
    decide
  · rename_i map typed hwords
    have hclear : ∀ word ∈ map :: typed, NoEscape word := by
      rw [← hwords]
      exact fun word => noEscape_of_mem_words harg
    obtain ⟨hmap, htyped⟩ := List.forall_mem_cons.1 hclear
    split
    · rename_i why hwhy
      obtain ⟨t, ht, rfl⟩ := readAccent_eq_error hwhy
      exact showsStep_refuse s (noEscape_velocity (htyped t ht))
    · rename_i t ht
      obtain ⟨hi, lo, -, -, rfl⟩ := readAccent_eq_ok ht
      refine showsStep_attempt (fun fault hfault => ?_) fun _ _ => ⟨.success, rfl, shows_empty⟩
      have hstored : NoEscape (if map = "off" then "" else map) := by
        split
        · decide
        · exact hmap
      exact Fault.noEscape_message fun c hc => hstored c (Settings.quotes_of_check hfault c hc)

/-! ## Commands that look -/

theorem showsStep_compile {compiled : Settings} (hs : compiled.Clear) {text plain : Clip → String}
    (h : ∀ c, Shows (text c) (plain c)) :
    ShowsStep (.attempt s (Attempt.compile standardChords compiled) fun c => .say s (text c))
      (.attempt s (Attempt.compile standardChords compiled) fun c => .say s (plain c)) := by
  refine showsStep_attempt (fun fault hfault => ?_) fun c _ => showsStep_say s (h c)
  rw [Attempt.outcome_compile] at hfault
  exact hs.noEscape_of_compile hfault

theorem showsStep_clip (hs : s.Clear) (harg : NoEscape arg) :
    ShowsStep (clip .coloured arg s) (clip .plain arg s) := by
  have hcompiled : (if arg.isEmpty then s else { s with pattern := arg }).Clear := by
    split
    · exact hs
    · exact { hs with pattern := harg }
  exact showsStep_compile hcompiled Clip.shows_listing

theorem showsStep_json (hs : s.Clear) : ShowsStep (json s) (json s) :=
  showsStep_compile hs fun c => c.noEscape_json.shows

theorem noEscape_resolution (v : Voicing) : NoEscape (resolution v) := by
  unfold resolution
  split
  · exact v.isPrinted_text.noEscape
  · exact v.isPrinted_text.noEscape.append (noEscape_ofList rfl)

theorem showsStep_chord (s : Settings) (harg : NoEscape arg) :
    ShowsStep (chord .coloured arg s) (chord .plain arg s) := by
  unfold chord
  split
  · exact showsStep_say s (NoEscape.shows (by decide))
  · refine showsStep_attempt (fun fault hfault => ?_) fun v _ => showsStep_say s ?_
    · have hresolve : resolveEntry standardChords (.token arg) = .error fault := hfault
      exact Fault.noEscape_message fun c hc => harg c (NoteEntry.quotes_of_resolve hresolve c hc)
    · have hsaid : NoEscape (": " ++ resolution v) := .append (by decide) (noEscape_resolution v)
      rw [String.append_assoc, String.append_assoc]
      exact (shows_paint _ (by decide) harg).append hsaid.shows

theorem noEscape_accentSummary (hs : s.Clear) : NoEscape (accentSummary s) := by
  unfold accentSummary
  split
  · decide
  · simp only [noEscape_append_iff, noEscape_decimal, hs.accentMap]
    decide

theorem showsStep_overview (hs : s.Clear) :
    ShowsStep (overview .coloured s) (overview .plain s) := by
  refine showsStep_attempt nofun fun grid _ => showsStep_say s (.intercalate (by decide) ?_)
  have row : ∀ {label value : String}, NoEscape label → NoEscape value →
      Shows (paint .coloured Colour.green.ink label ++ value) (label ++ value) :=
    fun hlabel hvalue => (shows_paint _ (by decide) hlabel).append hvalue.shows
  exact .cons (row (by decide) (.append (by decide) hs.notes)) <|
    .cons (row (by decide) (.append (by decide) hs.pattern)) <|
    .cons (row (by decide) (.append (by decide) grid.noEscape_name)) <|
    .cons (row (by decide) (.append (by decide) (noEscape_decimal _))) <|
    .cons (row (by decide) (.append (by decide) (noEscape_accentSummary hs))) .nil

theorem shows_helpLines : List.Forall₂ Shows (helpLines .coloured) (helpLines .plain) := by
  have row : ∀ {front usage text : String}, NoEscape front → NoEscape usage → NoEscape text →
      Shows (front ++ paint .coloured Colour.cyan.ink usage ++ text) (front ++ usage ++ text) :=
    fun hfront husage htext =>
      (hfront.shows.append (shows_paint _ (by decide) husage)).append htext.shows
  unfold helpLines
  simp only [List.forall₂_cons, paint_plain]
  -- a title or heading is painted as a whole, and in a row what is typed
  refine ⟨shows_paint _ ?_ ?_, shows_paint _ ?_ ?_, shows_empty,
    shows_paint _ ?_ ?_, row ?_ ?_ ?_, row ?_ ?_ ?_, row ?_ ?_ ?_, row ?_ ?_ ?_, shows_empty,
    shows_paint _ ?_ ?_, row ?_ ?_ ?_, row ?_ ?_ ?_, row ?_ ?_ ?_, row ?_ ?_ ?_, row ?_ ?_ ?_,
    row ?_ ?_ ?_, row ?_ ?_ ?_, shows_empty,
    shows_paint _ ?_ ?_, row ?_ ?_ ?_, row ?_ ?_ ?_, row ?_ ?_ ?_, row ?_ ?_ ?_, shows_empty,
    row ?_ ?_ ?_, ((((NoEscape.shows ?_).append (shows_paint _ ?_ ?_)).append
      (NoEscape.shows ?_)).append (shows_paint _ ?_ ?_)).append (NoEscape.shows ?_), .nil⟩
  all_goals first | exact noEscape_ofList rfl | decide

theorem showsStep_help (s : Settings) : ShowsStep (help .coloured s) (help .plain s) where
  reply := .success
  settings := rfl
  printed := by
    have hbreak : NoEscape "\n" := by decide
    refine .join (List.rel_map (fun _ _ hline => ?_) shows_helpLines)
    exact hline.append hbreak.shows

/-! ## Lines -/

theorem showsStep_run (hs : s.Clear) (harg : NoEscape arg) (c : Command) :
    ShowsStep (c.run .coloured arg s) (c.run .plain arg s) := by
  cases c with
  | notes => exact showsStep_notes hs harg
  | pattern => exact showsStep_pattern hs harg
  | subdivision => exact showsStep_subdivision s arg
  | accent => exact showsStep_accent hs harg
  | velocity => exact showsStep_velocity s harg
  | clip => exact showsStep_clip hs harg
  | json => exact showsStep_json hs
  | chord => exact showsStep_chord s harg
  | overview => exact showsStep_overview hs
  | reset => exact showsStep_say _ (NoEscape.shows (by decide))
  | help => exact showsStep_help s
  | quit => exact ⟨.exit, rfl, shows_empty⟩

theorem showsStep_bare (hs : s.Clear) (hline : NoEscape line) :
    ShowsStep (bare .coloured line s) (bare .plain line s) := by
  unfold bare
  split
  · exact showsStep_refuse s (noEscape_unknownLine hline)
  · exact showsStep_clip hs hline

theorem showsStep_step (hs : s.Clear) (hline : NoEscape line) :
    ShowsStep (step .coloured line s) (step .plain line s) := by
  rcases calls_or_not line with ⟨c, arg, hc⟩ | hno
  · rw [step_of_calls hc, step_of_calls hc]
    obtain ⟨name, -, hasks⟩ := hc
    exact showsStep_run hs (hasks.noEscape hline) c
  · rw [step_of_not_calls hno, step_of_not_calls hno]
    exact showsStep_bare hs hline

/-- **Colour changes only escapes.** A line without an escape character is
answered in a session in colour as it is without colour: both go on or both end,
with the same settings, and what is shown in colour is the plain text when its
control sequences are erased. The same holds for the listing of every clip, and
for its lines one by one, so that they are equally many and equally wide. -/
theorem unpainted_shown :
    (∀ palette s line, Reachable palette s → NoEscape line →
      let coloured := step .coloured line s
      let plain := step .plain line s
      (coloured.reply = .exit ↔ plain.reply = .exit) ∧ coloured.settings = plain.settings ∧
        unpainted (coloured.shown .coloured) = plain.shown .plain) ∧
      ∀ clip : Clip, unpainted (clip.listing .coloured) = clip.listing .plain ∧
        (lines (clip.listing .coloured)).map unpainted = lines (clip.listing .plain) := by
  refine ⟨fun palette s line hs hline => ?_, fun clip => ?_⟩
  · have h := showsStep_step hs.admissible.clear hline
    exact ⟨h.exit_iff, h.settings, h.shows_shown.unpainted_eq⟩
  · exact ⟨clip.shows_listing.unpainted_eq, clip.map_unpainted_lines⟩

/-- The overview of settings that are not the defaults, and a line that is repeated
in the complaint, with what would end a control sequence. -/
theorem unpainted_shown_unknownLine :
    Reachable .plain changed ∧ NoEscape "show" ∧ NoEscape "[0m" ∧
      unpainted ((step .coloured "show" changed).shown .coloured) =
        "notes:  CM E4\npattern:  x\nsubdiv:   4n\nvelocity: 90\naccent:   x- (hi 120, lo 60)\n" ∧
      unpainted ((step .coloured "[0m" changed).shown .coloured) =
        "Error: Unknown command or pattern '[0m'. Type 'help' for commands.\n" := by
  have hshow : NoEscape "show" := by decide
  have hline : NoEscape "[0m" := by decide
  obtain ⟨-, -, hoverview⟩ := unpainted_shown.1 .plain changed "show" reachable_changed hshow
  obtain ⟨-, -, hcomplaint⟩ := unpainted_shown.1 .plain changed "[0m" reachable_changed hline
  refine ⟨reachable_changed, hshow, hline, hoverview.trans ?_, hcomplaint.trans ?_⟩
  · decide +kernel
  · decide +kernel

end Session

end RhythmClip
