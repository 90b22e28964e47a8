import RhythmClip.Proofs.CommandTable
import RhythmClip.Session

/-!
# What a line asks for and what a command does

A line calls a command by one of its names (`Calls`), and then `execute` and
`step` run it. A command that changes settings does so in one way only, which
`Edits` states with all that was judged before. Whatever else a session does
leaves the settings alone, so later modules look at `Edits` and never into
the commands.

* `lookup_eq_some_iff_calls`: the table finds the command that a line calls.
* `execute_of_calls`, `step_of_calls`, `step_of_not_calls`: how a line is answered.
* `run_of_edits`: an edit that is possible is made, and the line is carried out.
* `run_cases`: a command makes an edit and is carried out, or changes nothing.
-/
namespace RhythmClip

theorem Subdivision.name_ne_empty (d : Subdivision) : d.name ≠ "" := by
  cases d <;> decide +kernel

namespace Session

open Text

/-! ## Calls -/

def Command.names : Command → List String
  | .notes => ["notes"]
  | .pattern => ["pattern"]
  | .subdivision => ["subdiv"]
  | .accent => ["accent"]
  | .velocity => ["velocity"]
  | .clip => ["clip"]
  | .json => ["json"]
  | .chord => ["chord"]
  | .overview => ["show"]
  | .reset => ["reset"]
  | .help => ["help"]
  | .quit => ["quit", "exit"]

/-- The line is a name of the command, or such a name, a space and the argument. -/
def Calls (line : String) (c : Command) (arg : String) : Prop :=
  ∃ name ∈ c.names, CommandTable.Asks line name arg

theorem mem_entries_iff (name : String) (c : Command) :
    (name, c) ∈ commands.entries ↔ name ∈ c.names := by
  constructor
  · have hall : ∀ e ∈ commands.entries, e.1 ∈ e.2.names := by decide +kernel
    exact hall (name, c)
  · have hall : ∀ c : Command, ∀ name ∈ c.names, (name, c) ∈ commands.entries := by
      intro c
      cases c <;> decide +kernel
    exact hall c name

theorem lookup_eq_some_iff_calls (line : String) (c : Command) (arg : String) :
    commands.lookup line = some (c, arg) ↔ Calls line c arg := by
  have hspace : ∀ e ∈ commands.entries, ' ' ∉ e.1.toList := by decide +kernel
  have honce : ∀ e ∈ commands.entries, ∀ e' ∈ commands.entries, e.1 = e'.1 → e.2 = e'.2 := by
    decide +kernel
  simp only [CommandTable.lookup_eq_some_iff hspace honce, mem_entries_iff, Calls]

theorem Calls.trimmed {line arg : String} {c : Command} (h : Calls line c arg) : Trimmed arg := by
  obtain ⟨name, -, hasks⟩ := h
  exact hasks.trimmed

/-! ## Answering a line -/

variable {palette : Palette} {line arg : String} {s t : Settings} {c : Command}

theorem execute_of_calls (h : Calls line c arg) (palette : Palette) (s : Settings) :
    execute palette line s = c.run palette arg s := by
  rw [execute, (lookup_eq_some_iff_calls line c arg).2 h]

theorem execute_of_not_calls (h : ∀ c arg, ¬Calls line c arg) (palette : Palette) (s : Settings) :
    execute palette line s = { reply := .notACommand, settings := s } := by
  cases hl : commands.lookup line with
  | none => rw [execute, hl]
  | some found => exact absurd ((lookup_eq_some_iff_calls line found.1 found.2).1 hl) (h _ _)

/-- The line has been carried out. -/
def Reply.isDone : Reply → Bool
  | .success | .message _ => true
  | .exit | .notACommand | .error _ => false

theorem reply_attempt_ne_notACommand {α : Type} (s : Settings) (x : Attempt α) {done : α → Step}
    (h : ∀ a, (done a).reply ≠ .notACommand) : (Step.attempt s x done).reply ≠ .notACommand := by
  cases hx : x.outcome with
  | error fault => rw [Step.reply_attempt_of_error hx]; simp
  | ok a => rw [Step.reply_attempt_of_ok hx]; exact h a

/-- Every command gives an answer of its own. -/
theorem reply_run_ne_notACommand (palette : Palette) (arg : String) (s : Settings) (c : Command) :
    (c.run palette arg s).reply ≠ .notACommand := by
  have hsay : ∀ (s : Settings) (text : String), (Step.say s text).reply ≠ .notACommand :=
    fun _ _ h => nomatch h
  have hrefuse : ∀ (s : Settings) (why : Complaint), (Step.refuse s why).reply ≠ .notACommand :=
    fun _ _ h => nomatch h
  cases c with
  | notes =>
    simp only [Command.run, notes]
    split
    · exact hsay _ _
    · exact reply_attempt_ne_notACommand _ _ fun _ => hsay _ _
  | pattern =>
    simp only [Command.run, pattern]
    split
    · exact hsay _ _
    · exact reply_attempt_ne_notACommand _ _ fun _ => hsay _ _
  | subdivision =>
    simp only [Command.run, subdivision]
    split
    · exact reply_attempt_ne_notACommand _ _ fun _ => hsay _ _
    · split
      · exact hsay _ _
      · exact hrefuse _ _
  | accent =>
    simp only [Command.run, accent]
    split
    · exact hsay _ _
    · split
      · exact hrefuse _ _
      · exact reply_attempt_ne_notACommand _ _ fun _ => nofun
  | velocity =>
    simp only [Command.run, velocity]
    split
    · exact hsay _ _
    · split
      · exact nofun
      · exact hrefuse _ _
  | clip => exact reply_attempt_ne_notACommand _ _ fun _ => hsay _ _
  | json => exact reply_attempt_ne_notACommand _ _ fun _ => hsay _ _
  | chord =>
    simp only [Command.run, chord]
    split
    · exact hsay _ _
    · exact reply_attempt_ne_notACommand _ _ fun _ => hsay _ _
  | overview => exact reply_attempt_ne_notACommand _ _ fun _ => hsay _ _
  | reset => exact hsay _ _
  | help => exact nofun
  | quit => exact nofun

theorem step_of_calls (h : Calls line c arg) (palette : Palette) (s : Settings) :
    step palette line s = c.run palette arg s := by
  have hreply := reply_run_ne_notACommand palette arg s c
  rw [← execute_of_calls h palette s] at hreply ⊢
  simp only [step]

theorem step_of_not_calls (h : ∀ c arg, ¬Calls line c arg) (palette : Palette) (s : Settings) :
    step palette line s = bare palette line s := by
  rw [step, execute_of_not_calls h palette s]

/-! ## Edits -/

/-- How a command with an argument can change settings. -/
inductive Edits : Command → String → Settings → Settings → Prop where
  | notes {arg : String} {s : Settings} {voicings : Cycle Voicing} : arg ≠ "" →
    (NoteList.text arg).resolve standardChords = .ok voicings →
      Edits .notes arg s { s with notes := .text arg }
  | pattern {arg : String} {s : Settings} {p : Pattern} : arg ≠ "" → Pattern.read arg = .ok p →
    Edits .pattern arg s { s with pattern := arg }
  | subdivision {s : Settings} (d : Subdivision) :
    Edits .subdivision d.name s { s with subdivision := d.name }
  | velocity {arg : String} {s : Settings} {v : UInt8} : byte? arg = some v → v ≤ maxVelocity →
    Edits .velocity arg s { s with velocity := v }
  | accent {arg map : String} {typed : List String} {s t : Settings} : words arg = map :: typed →
    readAccent s map typed = .ok t → t.check = .ok () → Edits .accent arg s t
  | reset {arg : String} {s : Settings} : Edits .reset arg s {}

theorem not_isEmpty_iff (s : String) : s.isEmpty ≠ true ↔ s ≠ "" := by
  simp

theorem readVelocity_of_byte? {typed : String} {v : UInt8} (h : byte? typed = some v)
    (hv : v ≤ maxVelocity) (current : UInt8) : readVelocity current (some typed) = .ok v := by
  simp [readVelocity, h, Option.filter, hv]

/-- A velocity that is typed is read from its digits. -/
theorem byte?_of_readVelocity {current v : UInt8} {typed : String}
    (h : readVelocity current (some typed) = .ok v) : byte? typed = some v ∧ v ≤ maxVelocity := by
  simp only [readVelocity] at h
  split at h
  · rename_i w hw
    cases h
    simpa using Option.filter_eq_some_iff.1 hw
  · cases h

theorem run_of_edits (h : Edits c arg s t) (palette : Palette) :
    (c.run palette arg s).settings = t ∧ (c.run palette arg s).reply.isDone = true := by
  cases h with
  | notes hne hv =>
    have ho := (Attempt.outcome_resolve standardChords (.text arg)).trans hv
    rw [Command.run, notes, if_neg ((not_isEmpty_iff arg).2 hne)]
    exact ⟨Step.settings_attempt_of_ok ho _, by rw [Step.reply_attempt_of_ok ho]; rfl⟩
  | @pattern arg s p hne hp =>
    have ho : (liftM (Pattern.read arg) : Attempt Pattern).outcome = .ok p := hp
    rw [Command.run, pattern, if_neg ((not_isEmpty_iff arg).2 hne)]
    exact ⟨Step.settings_attempt_of_ok ho _, by rw [Step.reply_attempt_of_ok ho]; rfl⟩
  | subdivision d =>
    rw [Command.run, subdivision, if_neg ((not_isEmpty_iff _).2 (Subdivision.name_ne_empty d)),
      Subdivision.ofName?_name]
    exact ⟨rfl, rfl⟩
  | velocity hb hv =>
    rw [Command.run, velocity, if_neg ((not_isEmpty_iff arg).2 (ne_empty_of_byte? hb)),
      readVelocity_of_byte? hb hv]
    exact ⟨rfl, rfl⟩
  | accent hw hr hc =>
    have ho : (Attempt.check t).outcome = .ok () := hc
    simp only [Command.run, accent, hw, hr]
    exact ⟨Step.settings_attempt_of_ok ho _, by rw [Step.reply_attempt_of_ok ho]; rfl⟩
  | reset => exact ⟨rfl, rfl⟩

/-! ## All that a command can do -/

theorem edits_of_notes (h : (notes palette arg s).settings ≠ s) :
    ∃ t, Edits .notes arg s t := by
  unfold notes at h
  split at h
  · exact absurd rfl h
  · rename_i hne
    cases hv : (NoteList.text arg).resolve standardChords with
    | ok voicings => exact ⟨_, .notes ((not_isEmpty_iff arg).1 hne) hv⟩
    | error e =>
      have ho := (Attempt.outcome_resolve standardChords (.text arg)).trans hv
      exact absurd (Step.settings_attempt_of_error ho _) h

theorem edits_of_pattern (h : (pattern palette arg s).settings ≠ s) :
    ∃ t, Edits .pattern arg s t := by
  unfold pattern at h
  split at h
  · exact absurd rfl h
  · rename_i hne
    cases hp : Pattern.read arg with
    | ok p => exact ⟨_, .pattern ((not_isEmpty_iff arg).1 hne) hp⟩
    | error e =>
      have ho : (liftM (Pattern.read arg) : Attempt Pattern).outcome = .error e := hp
      exact absurd (Step.settings_attempt_of_error ho _) h

theorem edits_of_subdivision (h : (subdivision arg s).settings ≠ s) :
    ∃ t, Edits .subdivision arg s t := by
  unfold subdivision at h
  split at h
  · exact absurd (Step.settings_attempt_say ..) h
  · split at h
    · rename_i d hd
      have hname := List.find?_some hd
      rw [decide_eq_true_eq] at hname
      subst hname
      exact ⟨_, .subdivision d⟩
    · exact absurd rfl h

theorem edits_of_velocity (h : (velocity arg s).settings ≠ s) :
    ∃ t, Edits .velocity arg s t := by
  unfold velocity at h
  split at h
  · exact absurd rfl h
  · split at h
    · rename_i v hv
      obtain ⟨hb, hle⟩ := byte?_of_readVelocity hv
      exact ⟨_, .velocity hb hle⟩
    · exact absurd rfl h

theorem edits_of_accent (h : (accent arg s).settings ≠ s) : ∃ t, Edits .accent arg s t := by
  unfold accent at h
  split at h
  · exact absurd rfl h
  · rename_i map typed hw
    split at h
    · exact absurd rfl h
    · rename_i t hr
      cases hc : t.check with
      | ok u => exact ⟨t, .accent hw hr hc⟩
      | error e =>
        have ho : (Attempt.check t).outcome = .error e := hc
        exact absurd (Step.settings_attempt_of_error ho _) h

/-- Settings that a command changes are changed by an edit. -/
theorem edits_of_run (h : (c.run palette arg s).settings ≠ s) : ∃ t, Edits c arg s t := by
  cases c with
  | notes => exact edits_of_notes h
  | pattern => exact edits_of_pattern h
  | subdivision => exact edits_of_subdivision h
  | accent => exact edits_of_accent h
  | velocity => exact edits_of_velocity h
  | clip => exact absurd (settings_clip ..) h
  | json => exact absurd (Step.settings_attempt_say ..) h
  | chord => exact absurd (settings_chord ..) h
  | overview => exact absurd (Step.settings_attempt_say ..) h
  | reset => exact ⟨{}, .reset⟩
  | help => exact absurd rfl h
  | quit => exact absurd rfl h

theorem run_cases (palette : Palette) (arg : String) (s : Settings) (c : Command) :
    (c.run palette arg s).settings = s ∨
      (Edits c arg s (c.run palette arg s).settings ∧
        (c.run palette arg s).reply.isDone = true) := by
  by_cases h : (c.run palette arg s).settings = s
  · exact .inl h
  · obtain ⟨t, ht⟩ := edits_of_run h
    obtain ⟨hs, hdone⟩ := run_of_edits ht palette
    rw [hs]
    exact .inr ⟨ht, hdone⟩

end Session

end RhythmClip
