import RhythmClip.Clip.Journaled
import RhythmClip.Proofs.Note

/-!
# What a dictionary has a say in

A dictionary is asked for a token only if the token is no pitch, and never for
the members of a list of pitches. So a compilation can tell two dictionaries
apart by no other names than the tokens among its notes that are no pitches.

* `resolveEntry_eq_of_agree`: an entry means the same in dictionaries that agree on it.
* `Attempt.compile_eq_of_resolveEntry`: and that is all that compiling asks for.
* `compile_of_agree`: compiling with two dictionaries.
-/
namespace RhythmClip

/-- Two dictionaries answer alike for a name. A chord without pitches is no answer. -/
def Dictionary.AgreeOn (d e : Dictionary) (name : String) : Prop :=
  (e name).filter (· ≠ []) = (d name).filter (· ≠ [])

/-! ## Entries -/

theorem Dictionary.voicing?_eq_filter (d : Dictionary) (name : String) :
    d.voicing? name = ((d name).filter (· ≠ [])).bind Voicing.ofList? := by
  unfold voicing?
  rcases d name with _ | _ | _ <;> rfl

theorem Dictionary.AgreeOn.voicing?_eq {d e : Dictionary} {name : String} (h : d.AgreeOn e name) :
    e.voicing? name = d.voicing? name := by
  rw [voicing?_eq_filter, h, ← voicing?_eq_filter]

theorem resolveEntry_eq_of_agree {d e : Dictionary} {entry : NoteEntry}
    (h : ∀ token, entry = .token token → ¬Pitch.Notated token → d.AgreeOn e token) :
    resolveEntry e entry = resolveEntry d entry := by
  cases entry with
  | pitches members => rfl
  | token t =>
    rw [resolveEntry, resolveEntry, resolveToken, resolveToken]
    cases hp : Pitch.ofText? t with
    | some p => rfl
    | none => rw [(h t rfl ((Pitch.ofText?_eq_none_iff t).1 hp)).voicing?_eq]

theorem resolveEntry_token_of_parse {token : String} {p : Pitch} (h : Pitch.parse token = .ok p)
    (d : Dictionary) : resolveEntry d (.token token) = .ok (.single p) := by
  have hp := (Pitch.ofChars?_eq_some_iff_writes _ _).2 ((Pitch.parse_eq_ok_iff token p).1 h)
  exact resolveToken_of_pitch hp d

/-- A list of pitches sounds as its members are read. -/
theorem resolveEntry_pitches_eq_ok_iff (d : Dictionary) (members : List String) (v : Voicing) :
    resolveEntry d (.pitches members) = .ok v ↔
      List.Forall₂ (fun m p => Pitch.parse m = .ok p) members v.pitches := by
  have hread : ∀ m p, readMember m = .ok p ↔ Pitch.parse m = .ok p := by
    intro m p
    rw [readMember_eq_ok_iff, Pitch.ofText?, Pitch.ofChars?_eq_some_iff_writes,
      Pitch.parse_eq_ok_iff]
  simp only [← hread, ← mapM_eq_ok_iff_forall₂, ← readMembers_eq_mapM, resolveEntry]
  obtain ⟨first, others⟩ := v
  rcases readMembers members with _ | _ | _ <;>
    simp [bind, Except.bind, Voicing.ofList?, Voicing.pitches, pure, Except.pure, throw, throwThe,
      MonadExceptOf.throw]

/-! ## Compiling -/

namespace Attempt

variable {d e : Dictionary} {es : List NoteEntry}

theorem resolveAll_eq_of_resolveEntry
    (h : ∀ entry ∈ es, RhythmClip.resolveEntry e entry = RhythmClip.resolveEntry d entry) :
    resolveAll e es = resolveAll d es := by
  induction es with
  | nil => rfl
  | cons entry es ih =>
    obtain ⟨hentry, hes⟩ := List.forall_mem_cons.1 h
    rw [resolveAll, resolveAll, resolveEntry, resolveEntry, hentry, ih hes]

/-- Nothing but the entries of the notes is looked up. -/
theorem compile_eq_of_resolveEntry {s : Settings}
    (h : ∀ entry ∈ s.notes.toEntries,
      RhythmClip.resolveEntry e entry = RhythmClip.resolveEntry d entry) :
    compile e s = compile d s := by
  have hnotes : resolve e s.notes = resolve d s.notes := by
    rw [resolve, resolve, resolveAll_eq_of_resolveEntry h]
  rw [compile, compile, hnotes]

end Attempt

namespace Clip

/-- **A dictionary has no say about pitches.** Two dictionaries that agree on
the tokens of the notes that are no pitches compile the settings to the same
clip or the same fault, and leave the same records. A token that is a pitch
means this pitch in every dictionary, and a list of pitches the pitches that its
members are. -/
theorem compile_of_agree (d e : Dictionary) (s : Settings)
    (h : ∀ token, NoteEntry.token token ∈ s.notes.toEntries → ¬Pitch.Notated token →
      d.AgreeOn e token) :
    compile e s = compile d s ∧ Attempt.compile e s = Attempt.compile d s ∧
      (∀ (f : Dictionary) (token : String) (p : Pitch), Pitch.parse token = .ok p →
        resolveEntry f (.token token) = .ok (.single p)) ∧
      ∀ (f : Dictionary) (members : List String) (v : Voicing),
        resolveEntry f (.pitches members) = .ok v ↔
          List.Forall₂ (fun m p => Pitch.parse m = .ok p) members v.pitches := by
  have hentry : ∀ entry ∈ s.notes.toEntries, resolveEntry e entry = resolveEntry d entry := by
    intro entry hmem
    refine resolveEntry_eq_of_agree fun token htoken => ?_
    subst htoken
    exact h token hmem
  have hjournaled : Attempt.compile e s = Attempt.compile d s :=
    Attempt.compile_eq_of_resolveEntry hentry
  refine ⟨?_, hjournaled, fun f token p hp => resolveEntry_token_of_parse hp f,
    resolveEntry_pitches_eq_ok_iff⟩
  rw [← Attempt.outcome_compile, hjournaled, Attempt.outcome_compile]

/-- A dictionary that calls every name but `CM` a single low C. -/
theorem compile_of_agree_liar :
    let liar : Dictionary := fun name =>
      if name = "CM" then standardChords name else some [⟨.c, .natural, 0⟩]
    let s : Settings := { notes := .entries [.token "C6", .pitches ["bb5", "c4"], .token "CM"] }
    liar "C6" ≠ standardChords "C6" ∧ compile liar s = compile standardChords s ∧
      (compile standardChords s).isOk = true := by
  intro liar s
  refine ⟨by decide +kernel, (compile_of_agree standardChords liar s ?_).1, by decide +kernel⟩
  intro token hmem hnot
  simp only [s, NoteList.toEntries, List.mem_cons, NoteEntry.token.injEq, reduceCtorEq,
    List.not_mem_nil, false_or, or_false] at hmem
  rcases hmem with rfl | rfl
  · exact absurd (by decide +kernel) hnot
  · rfl

end Clip

end RhythmClip
