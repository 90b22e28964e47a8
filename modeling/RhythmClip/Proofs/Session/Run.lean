import RhythmClip.Proofs.Pattern.Notation
import RhythmClip.Proofs.Session.Admissible

/-!
# Lines in any order

A line can set fields to values that are known beforehand and leave the others
alone (`Sets`). Lines that together set all fields of the same settings come
to these settings in any order, and each of them is carried out. Texts for the
values of admissible settings (`Wording`) make up such lines, one for each of
the editing commands.

* `isDone_of_mem_replies`, `get_after_of_sets`: a run of such lines, field by field.
* `sets_notes`, `sets_pattern`, `sets_subdivision`, `sets_velocity`, `sets_accent`:
  the lines of a wording.
* `after_eq_of_perm`: the five of them, in any order.
-/
namespace RhythmClip.Session

open Text Settings

variable {palette : Palette} {line arg : String} {s t target : Settings} {c : Command}

/-! ## Runs of lines -/

/-- The settings after some typed lines. -/
def after (palette : Palette) (s : Settings) : List String → Settings
  | [] => s
  | line :: later => after palette (step palette line s).settings later

/-- What is replied to typed lines, one after the other. -/
def replies (palette : Palette) (s : Settings) : List String → List Reply
  | [] => []
  | line :: later =>
    (step palette line s).reply :: replies palette (step palette line s).settings later

/-- In any admissible settings, the line is carried out, brings the fields to
the target and leaves the other fields alone. -/
def Sets (palette : Palette) (target : Settings) (fields : List Field) (line : String) : Prop :=
  ∀ s, Admissible s → (step palette line s).reply.isDone = true ∧
    (∀ f ∈ fields, (step palette line s).settings.get f = target.get f) ∧
    AgreeOff fields s (step palette line s).settings

theorem isDone_of_mem_replies {lines : List String} (hs : Admissible s)
    (h : ∀ line ∈ lines, ∃ fields, Sets palette target fields line) :
    ∀ reply ∈ replies palette s lines, reply.isDone = true := by
  induction lines generalizing s with
  | nil => intro reply hmem; cases hmem
  | cons line later ih =>
    obtain ⟨⟨fields, hsets⟩, hlater⟩ := List.forall_mem_cons.1 h
    exact List.forall_mem_cons.2 ⟨(hsets s hs).1, ih (hs.step palette line) hlater⟩

/-- A field is at the target once a line has set it, or from the beginning. -/
theorem get_after_of_sets {lines : List String} (hs : Admissible s)
    (h : ∀ line ∈ lines, ∃ fields, Sets palette target fields line) {f : Field}
    (hf : s.get f = target.get f ∨
      ∃ line ∈ lines, ∃ fields, Sets palette target fields line ∧ f ∈ fields) :
    (after palette s lines).get f = target.get f := by
  induction lines generalizing s with
  | nil =>
    rcases hf with hf | ⟨line, hmem, -⟩
    · exact hf
    · cases hmem
  | cons line later ih =>
    obtain ⟨⟨fields, hsets⟩, hlater⟩ := List.forall_mem_cons.1 h
    refine ih (hs.step palette line) hlater ?_
    obtain ⟨-, hin, hoff⟩ := hsets s hs
    rcases hf with hf | ⟨line', hmem, fields', hsets', hf⟩
    · by_cases hown : f ∈ fields
      · exact .inl (hin f hown)
      · exact .inl ((hoff f hown).trans hf)
    · rcases List.mem_cons.1 hmem with rfl | hmem
      · exact .inl ((hsets' s hs).2.1 f hf)
      · exact .inr ⟨line', hmem, fields', hsets', hf⟩

/-! ## Lines that set fields -/

theorem sets_of_edits (hc : Calls line c arg)
    (h : ∀ s, Admissible s → ∃ t, Edits c arg s t ∧ ∀ f ∈ c.owned, t.get f = target.get f) :
    Sets palette target c.owned line := by
  intro s hs
  obtain ⟨t, he, ht⟩ := h s hs
  obtain ⟨hset, hdone⟩ := run_of_edits he palette
  rw [step_of_calls hc, hset]
  exact ⟨hdone, ht, agreeOff_of_edits he⟩

/-! ## Arguments that are accepted -/

theorem calls_name {name : String} (hname : name ∈ c.names) (harg : Trimmed arg) :
    Calls (name ++ " " ++ arg) c arg := ⟨name, hname, CommandTable.asks_space name harg⟩

theorem ne_empty_of_resolve {text : String} {voicings : Cycle Voicing}
    (h : (NoteList.text text).resolve standardChords = .ok voicings) : text ≠ "" := by
  rintro rfl
  cases h

theorem ne_empty_of_read {p : Pattern} (h : Pattern.read arg = .ok p) : arg ≠ "" := by
  rintro rfl
  cases h

theorem noBlank_of_read {p : Pattern} (h : Pattern.read arg = .ok p) : NoBlank arg := by
  obtain ⟨-, -, htext⟩ := (Pattern.read_eq_ok_iff arg p).1 h
  have hchar : ∀ symbol : Symbol, isBlank symbol.char = false := by
    rintro ((_ | _ | _) | _ | _) <;> decide
  intro c hc
  rw [← htext, Pattern.text, String.toList_ofList] at hc
  obtain ⟨symbol, -, rfl⟩ := List.mem_map.1 hc
  exact hchar symbol

theorem noBlank_of_accentMap {map : String} (h : ∀ c ∈ map.toList, c = 'x' ∨ c = '-') :
    NoBlank map := by
  intro c hc
  rcases h c hc with rfl | rfl <;> decide

/-- The argument that sets a map and both of its velocities. -/
theorem trimmed_accent {map hi lo : String} {vhi vlo : UInt8} (hne : map ≠ "")
    (hmap : NoBlank map) (hhi : byte? hi = some vhi) (hlo : byte? lo = some vlo) :
    Trimmed (map ++ " " ++ (hi ++ " " ++ lo)) := by
  have htail : Trimmed (hi ++ " " ++ lo) :=
    trimmed_append (ne_empty_of_byte? hhi) (ne_empty_of_byte? hlo) (noBlank_of_byte? hhi).trimmed
      (noBlank_of_byte? hlo).trimmed " "
  have hne' : hi ++ " " ++ lo ≠ "" := by simp
  exact trimmed_append hne hne' hmap.trimmed htail " "

theorem edits_accent {map hi lo : String} {vhi vlo : UInt8} (hne : map ≠ "") (hmap : NoBlank map)
    (hhi : byte? hi = some vhi) (hlo : byte? lo = some vlo) (hhiLe : vhi ≤ maxVelocity)
    (hloLe : vlo ≤ maxVelocity)
    (ht : t = { s with
      accentMap := if map = "off" then "" else map, accentHi := vhi, accentLo := vlo })
    (hc : t.check = .ok ()) : Edits .accent (map ++ " " ++ (hi ++ " " ++ lo)) s t := by
  have hwords : words (map ++ " " ++ (hi ++ " " ++ lo)) = [map, hi, lo] := by
    rw [words_append_space hne hmap,
      words_append_space (ne_empty_of_byte? hhi) (noBlank_of_byte? hhi),
      words_single (ne_empty_of_byte? hlo) (noBlank_of_byte? hlo)]
  have hread : readAccent s map [hi, lo] = .ok t := by
    rw [ht, readAccent]
    simp only [List.head?_cons, List.tail_cons, readVelocity_of_byte? hhi hhiLe,
      readVelocity_of_byte? hlo hloLe]
    rfl
  exact .accent hwords hread hc

theorem ne_off_of_accentMap {map : String} (h : ∀ c ∈ map.toList, c = 'x' ∨ c = '-') :
    map ≠ "off" := by
  rintro rfl
  exact absurd (h 'o' (by decide)) (by decide)

/-! ## The lines of a wording -/

/-- Texts that a session takes for the values of settings. The word `off`
stands for the empty accent map. -/
structure Wording (target : Settings) where
  notes : String
  velocity : String
  accent : String
  hi : String
  lo : String
  notes_eq : target.notes = .text notes
  velocity_eq : byte? velocity = some target.velocity
  accent_ne : accent ≠ ""
  noBlank_accent : NoBlank accent
  accent_eq : (if accent = "off" then "" else accent) = target.accentMap
  hi_eq : byte? hi = some target.accentHi
  lo_eq : byte? lo = some target.accentLo

namespace Wording

def lines (w : Wording target) : List String :=
  ["notes" ++ " " ++ w.notes, "pattern" ++ " " ++ target.pattern,
    "subdiv" ++ " " ++ target.subdivision, "velocity" ++ " " ++ w.velocity,
    "accent" ++ " " ++ (w.accent ++ " " ++ (w.hi ++ " " ++ w.lo))]

variable (w : Wording target) (htarget : Admissible target)
include htarget

theorem sets_notes : Sets palette target [.notes] ("notes" ++ " " ++ w.notes) := by
  obtain ⟨_, htext, htrim, voicings, hv⟩ := htarget.notes
  cases w.notes_eq.symm.trans htext
  have hc := calls_name (c := .notes) (List.mem_singleton.2 rfl) htrim
  refine sets_of_edits hc fun s _ => ⟨_, .notes (ne_empty_of_resolve hv) hv, ?_⟩
  exact List.forall_mem_singleton.2 w.notes_eq.symm

omit w in
theorem sets_pattern : Sets palette target [.pattern] ("pattern" ++ " " ++ target.pattern) := by
  obtain ⟨p, hp⟩ := htarget.pattern
  have hc := calls_name (c := .pattern) (List.mem_singleton.2 rfl) (noBlank_of_read hp).trimmed
  refine sets_of_edits hc fun s _ => ⟨_, .pattern (ne_empty_of_read hp) hp, ?_⟩
  exact List.forall_mem_singleton.2 rfl

omit w in
theorem sets_subdivision :
    Sets palette target [.subdivision] ("subdiv" ++ " " ++ target.subdivision) := by
  obtain ⟨d, hd⟩ := Subdivision.exists_name_eq htarget.subdivision
  rw [← hd]
  have hc := calls_name (c := .subdivision) (List.mem_singleton.2 rfl) d.trimmed_name
  refine sets_of_edits hc fun s _ => ⟨_, .subdivision d, ?_⟩
  exact List.forall_mem_singleton.2 hd

theorem sets_velocity : Sets palette target [.velocity] ("velocity" ++ " " ++ w.velocity) := by
  have htrim := (noBlank_of_byte? w.velocity_eq).trimmed
  have hc := calls_name (c := .velocity) (List.mem_singleton.2 rfl) htrim
  refine sets_of_edits hc fun s _ => ⟨_, .velocity w.velocity_eq htarget.velocity, ?_⟩
  exact List.forall_mem_singleton.2 rfl

/-- The new accents are judged together with the velocity that was there before. -/
theorem sets_accent : Sets palette target [.accentMap, .accentHi, .accentLo]
    ("accent" ++ " " ++ (w.accent ++ " " ++ (w.hi ++ " " ++ w.lo))) := by
  have htrim := trimmed_accent w.accent_ne w.noBlank_accent w.hi_eq w.lo_eq
  have hc := calls_name (c := .accent) (List.mem_singleton.2 rfl) htrim
  refine sets_of_edits hc fun s hs => ?_
  have ht : Admissible { s with
      accentMap := target.accentMap, accentHi := target.accentHi, accentLo := target.accentLo } :=
    { hs with
      accentMap := htarget.accentMap
      accentHi := htarget.accentHi
      accentLo := htarget.accentLo }
  refine ⟨_, edits_accent w.accent_ne w.noBlank_accent w.hi_eq w.lo_eq htarget.accentHi
    htarget.accentLo (by rw [w.accent_eq]) ht.check, ?_⟩
  intro f hf
  simp only [Command.owned, List.mem_cons, List.not_mem_nil, or_false] at hf
  rcases hf with rfl | rfl | rfl <;> rfl

/-- The lines are all carried out, and come to the settings that they put into words. -/
theorem after_eq_of_perm (palette : Palette) {lines : List String}
    (hlines : lines.Perm w.lines) :
    (∀ reply ∈ replies palette {} lines, reply.isDone = true) ∧
      after palette {} lines = target := by
  have hn : Sets palette target _ _ := w.sets_notes htarget
  have hp : Sets palette target _ _ := sets_pattern htarget
  have hd : Sets palette target _ _ := sets_subdivision htarget
  have hv : Sets palette target _ _ := w.sets_velocity htarget
  have ha : Sets palette target _ _ := w.sets_accent htarget
  unfold Wording.lines at hlines
  have hall : ∀ line ∈ lines, ∃ fields, Sets palette target fields line := by
    intro line hmem
    rw [hlines.mem_iff] at hmem
    simp only [List.mem_cons, List.not_mem_nil, or_false] at hmem
    rcases hmem with rfl | rfl | rfl | rfl | rfl
    exacts [⟨_, hn⟩, ⟨_, hp⟩, ⟨_, hd⟩, ⟨_, hv⟩, ⟨_, ha⟩]
  refine ⟨isDone_of_mem_replies admissible_fresh hall, ext_get fun f => ?_⟩
  have hset : ∀ {line : String} {fields : List Field}, line ∈ lines →
      Sets palette target fields line → f ∈ fields →
        (after palette {} lines).get f = target.get f :=
    fun hmem hsets hf => get_after_of_sets admissible_fresh hall (.inr ⟨_, hmem, _, hsets, hf⟩)
  -- each field is set by one of the lines, or is a flag
  cases f with
  | notes => exact hset (hlines.mem_iff.2 (by simp)) hn (by simp)
  | pattern => exact hset (hlines.mem_iff.2 (by simp)) hp (by simp)
  | subdivision => exact hset (hlines.mem_iff.2 (by simp)) hd (by simp)
  | velocity => exact hset (hlines.mem_iff.2 (by simp)) hv (by simp)
  | accentMap => exact hset (hlines.mem_iff.2 (by simp)) ha (by simp)
  | accentHi => exact hset (hlines.mem_iff.2 (by simp)) ha (by simp)
  | accentLo => exact hset (hlines.mem_iff.2 (by simp)) ha (by simp)
  | shuffle => exact get_after_of_sets admissible_fresh hall (.inl htarget.shuffle.symm)
  | sizzle => exact get_after_of_sets admissible_fresh hall (.inl htarget.sizzle.symm)
  | arpeggiate => exact get_after_of_sets admissible_fresh hall (.inl htarget.arpeggiate.symm)

end Wording

/-! ## Lines that are not refused -/

theorem exists_resolve_of_reply {text : String} (hne : text ≠ "") (htrim : Trimmed text)
    (h : ∀ why, (step palette ("notes" ++ " " ++ text) s).reply ≠ .error why) :
    ∃ voicings, (NoteList.text text).resolve standardChords = .ok voicings := by
  cases hv : (NoteList.text text).resolve standardChords with
  | ok voicings => exact ⟨voicings, rfl⟩
  | error e =>
    have hc := calls_name (c := .notes) (List.mem_singleton.2 rfl) htrim
    have ho := (Attempt.outcome_resolve standardChords (.text text)).trans hv
    refine absurd ?_ (h (.fault e))
    rw [step_of_calls hc, Command.run, notes, if_neg ((not_isEmpty_iff text).2 hne),
      Step.reply_attempt_of_error ho]

theorem exists_read_of_reply {text : String} (hne : text ≠ "") (htrim : Trimmed text)
    (h : ∀ why, (step palette ("pattern" ++ " " ++ text) s).reply ≠ .error why) :
    ∃ p, Pattern.read text = .ok p := by
  cases hp : Pattern.read text with
  | ok p => exact ⟨p, rfl⟩
  | error e =>
    have hc := calls_name (c := .pattern) (List.mem_singleton.2 rfl) htrim
    have ho : (liftM (Pattern.read text) : Attempt Pattern).outcome = .error e := hp
    refine absurd ?_ (h (.fault e))
    rw [step_of_calls hc, Command.run, pattern, if_neg ((not_isEmpty_iff text).2 hne),
      Step.reply_attempt_of_error ho]

theorem Reply.ne_error_of_isDone {r : Reply} (h : r.isDone = true) (why : Complaint) :
    r ≠ .error why := by
  rintro rfl
  cases h

end RhythmClip.Session
