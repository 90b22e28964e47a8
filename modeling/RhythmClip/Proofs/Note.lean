import RhythmClip.Note
import RhythmClip.Proofs.Pitch.Notation
import RhythmClip.Proofs.Text.Words
import RhythmClip.Proofs.Walk

/-!
# Resolving lists of notes

Entries resolve one by one, and so are the members of a list of pitches read:
both are walks that stop at the first bad item. A text of notes is the list of
its words, whatever blanks are between them.

* `resolve_eq_ok_iff_forall₂`, `resolve_eq_error_iff`: the two ways that resolving ends.
* `resolveEntry_pitches_eq_error_iff`: what is wrong with a list of pitches.
* `resolve_lists`: a text agrees with its words, and a longer list with its parts.
-/
namespace RhythmClip

/-! ## Members -/

/-- What a member of a list of pitches means. -/
def readMember (text : String) : Except Fault Pitch :=
  match Pitch.ofText? text with
  | some p => .ok p
  | none => .error (.note text .badMember)

theorem readMember_eq_ok_iff (text : String) (p : Pitch) :
    readMember text = .ok p ↔ Pitch.ofText? text = some p := by
  unfold readMember
  cases Pitch.ofText? text <;> simp

theorem exists_readMember_iff (text : String) :
    (∃ p, readMember text = .ok p) ↔ Pitch.Notated text := by
  simp only [readMember_eq_ok_iff, Pitch.ofText?, Pitch.ofChars?_eq_some_iff_writes,
    Pitch.exists_writes_iff]

theorem readMember_eq_error_iff (text : String) (fault : Fault) :
    readMember text = .error fault ↔ ¬Pitch.Notated text ∧ fault = .note text .badMember := by
  rw [← Pitch.ofText?_eq_none_iff, readMember]
  cases Pitch.ofText? text <;> simp [eq_comm]

theorem readMembers_eq_mapM (members : List String) :
    readMembers members = members.mapM readMember := by
  induction members with
  | nil => rfl
  | cons m members ih =>
    rw [readMembers, List.mapM_cons, readMember, ih]
    cases Pitch.ofText? m <;> rfl

theorem readMembers_eq_ok_nil_iff (members : List String) :
    readMembers members = .ok [] ↔ members = [] := by
  rw [readMembers_eq_mapM, mapM_eq_ok_iff_forall₂, List.forall₂_nil_right_iff]

/-- The first member that is no pitch is to blame, else the list for having none. -/
theorem resolveEntry_pitches_eq_error_iff (d : Dictionary) (members : List String)
    (fault : Fault) :
    resolveEntry d (.pitches members) = .error fault ↔
      members = [] ∧ fault = .note "[]" .emptyArray ∨ FirstError readMember members fault := by
  rw [← mapM_eq_error_iff, ← readMembers_eq_mapM, ← readMembers_eq_ok_nil_iff, resolveEntry]
  cases readMembers members with
  | error e => simp [bind, Except.bind]
  | ok ps =>
    cases ps with
    | nil => simp [bind, Except.bind, Voicing.ofList?, throw, throwThe, MonadExceptOf.throw, eq_comm]
    | cons p ps => simp [bind, Except.bind, Voicing.ofList?, pure, Except.pure]

theorem firstError_readMember_iff (members : List String) (fault : Fault) :
    FirstError readMember members fault ↔
      ∃ before m behind, members = before ++ m :: behind ∧ (∀ b ∈ before, Pitch.Notated b) ∧
        ¬Pitch.Notated m ∧ fault = .note m .badMember := by
  simp only [FirstError, exists_readMember_iff, readMember_eq_error_iff]

/-! ## Entries -/

section Entries

variable {d : Dictionary} {es fs : List NoteEntry} {vs : List Voicing}

theorem resolveAll_eq_mapM (d : Dictionary) (es : List NoteEntry) :
    resolveAll d es = es.mapM (resolveEntry d) := by
  induction es with
  | nil => rfl
  | cons e es ih => rw [resolveAll, List.mapM_cons, ih]

theorem resolveAll_eq_ok_iff_forall₂ (d : Dictionary) (es : List NoteEntry) (vs : List Voicing) :
    resolveAll d es = .ok vs ↔ List.Forall₂ (fun e v => resolveEntry d e = .ok v) es vs := by
  rw [resolveAll_eq_mapM, mapM_eq_ok_iff_forall₂]

theorem length_of_resolveAll (h : resolveAll d es = .ok vs) : vs.length = es.length :=
  ((resolveAll_eq_ok_iff_forall₂ d es vs).1 h).length_eq.symm

theorem resolveAll_append_eq_ok (h : resolveAll d (es ++ fs) = .ok vs) :
    ∃ us ws, resolveAll d es = .ok us ∧ resolveAll d fs = .ok ws ∧ vs = us ++ ws := by
  rw [resolveAll_append] at h
  cases hes : resolveAll d es with
  | error e => rw [hes] at h; cases h
  | ok us =>
    cases hfs : resolveAll d fs with
    | error e => rw [hes, hfs] at h; cases h
    | ok ws =>
      rw [hes, hfs] at h
      cases h
      exact ⟨us, ws, rfl, rfl, rfl⟩

end Entries

namespace NoteList

variable {d : Dictionary} {es fs : List NoteEntry} {v w : Cycle Voicing} {fault : Fault}

theorem resolve_eq_ok_iff (d : Dictionary) (notes : NoteList) (v : Cycle Voicing) :
    notes.resolve d = .ok v ↔ resolveAll d notes.toEntries = .ok v.toList := by
  unfold resolve
  cases resolveAll d notes.toEntries with
  | error e => simp [bind, Except.bind]
  | ok vs =>
    cases vs with
    | nil => simp [bind, Except.bind, Cycle.ofList?, Cycle.toList]
    | cons w ws =>
      obtain ⟨first, rest⟩ := v
      simp [bind, Except.bind, Cycle.ofList?, Cycle.toList, pure, Except.pure]

theorem resolve_eq_error_iff (d : Dictionary) (notes : NoteList) (fault : Fault) :
    notes.resolve d = .error fault ↔
      notes.toEntries = [] ∧ fault = .setting .noNotes ∨
        FirstError (resolveEntry d) notes.toEntries fault := by
  have hnil : resolveAll d notes.toEntries = .ok [] ↔ notes.toEntries = [] := by
    rw [resolveAll_eq_ok_iff_forall₂, List.forall₂_nil_right_iff]
  rw [← mapM_eq_error_iff, ← resolveAll_eq_mapM, ← hnil, resolve]
  cases resolveAll d notes.toEntries with
  | error e => simp [bind, Except.bind]
  | ok vs =>
    cases vs with
    | nil => simp [bind, Except.bind, Cycle.ofList?, throw, throwThe, MonadExceptOf.throw, eq_comm]
    | cons u us => simp [bind, Except.bind, Cycle.ofList?, pure, Except.pure]

theorem resolve_eq_ok_iff_forall₂ (d : Dictionary) (notes : NoteList) (v : Cycle Voicing) :
    notes.resolve d = .ok v ↔
      List.Forall₂ (fun e u => resolveEntry d e = .ok u) notes.toEntries v.toList := by
  rw [resolve_eq_ok_iff, resolveAll_eq_ok_iff_forall₂]

theorem resolve_of_allBlank {text : String} (h : Text.AllBlank text) (d : Dictionary) :
    (NoteList.text text).resolve d = .error (.setting .noNotes) := by
  have hnil : (NoteList.text text).toEntries = [] := by
    rw [toEntries, (Text.words_eq_nil_iff text).2 h, List.map_nil]
  exact (resolve_eq_error_iff d _ _).2 (.inl ⟨hnil, rfl⟩)

/-! ## Longer lists -/

theorem resolve_append_of_ok (hv : (entries es).resolve d = .ok v)
    (hw : (entries fs).resolve d = .ok w) :
    ∃ u, (entries (es ++ fs)).resolve d = .ok u ∧ u.toList = v.toList ++ w.toList := by
  refine ⟨⟨v.first, v.rest ++ w.toList⟩, ?_, rfl⟩
  rw [resolve_eq_ok_iff_forall₂] at hv hw ⊢
  exact List.rel_append hv hw

theorem resolve_entries_eq_error_iff (hne : es ≠ []) :
    (entries es).resolve d = .error fault ↔ FirstError (resolveEntry d) es fault := by
  rw [resolve_eq_error_iff]
  simp [toEntries, hne]

theorem resolve_append_of_error_left (hne : es ≠ [])
    (h : (entries es).resolve d = .error fault) :
    (entries (es ++ fs)).resolve d = .error fault := by
  obtain ⟨before, e, behind, rfl, hbefore, he⟩ := (resolve_entries_eq_error_iff hne).1 h
  refine (resolve_eq_error_iff d _ _).2 (.inr ⟨before, e, behind ++ fs, ?_, hbefore, he⟩)
  simp [toEntries]

theorem resolve_append_of_error_right (hne : fs ≠ []) (hv : (entries es).resolve d = .ok v)
    (h : (entries fs).resolve d = .error fault) :
    (entries (es ++ fs)).resolve d = .error fault := by
  obtain ⟨before, f, behind, rfl, hbefore, hf⟩ := (resolve_entries_eq_error_iff hne).1 h
  have hes : ∀ e ∈ es, ∃ u, resolveEntry d e = .ok u :=
    exists_of_forall₂ ((resolve_eq_ok_iff_forall₂ d _ v).1 hv)
  refine (resolve_eq_error_iff d _ _).2 (.inr ⟨es ++ before, f, behind, ?_, ?_, hf⟩)
  · simp [toEntries]
  · exact List.forall_mem_append.2 ⟨hes, hbefore⟩

/-- **Lists of notes.** A text of words means what the list of these words
means, with whatever blanks between them and around them. A list of entries
resolves to as many voicings in the same order, and a longer list to those of
its two parts; what is wrong with it is what is wrong with its first bad entry,
and what is wrong with a list of pitches is its first bad member. Where there is
no entry at all, the configuration is at fault. -/
theorem resolve_lists (d : Dictionary) :
    (∀ lead parts, Text.AllBlank lead → Text.IsSpread parts →
        (text (lead ++ Text.spread parts)).resolve d =
          (entries (parts.map fun part => .token part.1)).resolve d) ∧
      (∀ es fs, es ≠ [] → fs ≠ [] →
        (∀ v w, (entries es).resolve d = .ok v → (entries fs).resolve d = .ok w →
          ∃ u, (entries (es ++ fs)).resolve d = .ok u ∧ u.toList = v.toList ++ w.toList) ∧
        (∀ fault, (entries es).resolve d = .error fault →
          (entries (es ++ fs)).resolve d = .error fault) ∧
        ∀ v fault, (entries es).resolve d = .ok v → (entries fs).resolve d = .error fault →
          (entries (es ++ fs)).resolve d = .error fault) ∧
      (∀ notes v, resolve d notes = .ok v ↔
        List.Forall₂ (fun e u => resolveEntry d e = .ok u) notes.toEntries v.toList) ∧
      (∀ notes fault, resolve d notes = .error fault ↔
        notes.toEntries = [] ∧ fault = .setting .noNotes ∨
          ∃ before e behind, notes.toEntries = before ++ e :: behind ∧
            (∀ b ∈ before, ∃ u, resolveEntry d b = .ok u) ∧ resolveEntry d e = .error fault) ∧
      (∀ members fault, resolveEntry d (.pitches members) = .error fault ↔
        members = [] ∧ fault = .note "[]" .emptyArray ∨
          ∃ before m behind, members = before ++ m :: behind ∧
            (∀ b ∈ before, Pitch.Notated b) ∧ ¬Pitch.Notated m ∧ fault = .note m .badMember) ∧
      ∀ blanks, Text.AllBlank blanks → (text blanks).resolve d = .error (.setting .noNotes) := by
  refine ⟨fun lead parts hlead hparts => ?_, fun es fs hes hfs => ⟨fun v w => resolve_append_of_ok,
    fun fault => resolve_append_of_error_left hes,
    fun v fault => resolve_append_of_error_right hfs⟩, resolve_eq_ok_iff_forall₂ d,
    resolve_eq_error_iff d, fun members fault => ?_, fun blanks h => resolve_of_allBlank h d⟩
  · have hentries : (text (lead ++ Text.spread parts)).toEntries =
        (entries (parts.map fun part => .token part.1)).toEntries := by
      rw [toEntries, Text.words_append_of_allBlank hlead, Text.words_spread hparts, List.map_map]
      rfl
    rw [resolve, hentries, resolve]
  · rw [resolveEntry_pitches_eq_error_iff, firstError_readMember_iff]

/-- A no-break space and an ideographic one are blanks like the others. -/
theorem resolve_lists_wideBlanks :
    let parts := [("c4", "\t\u3000"), ("CM", "\u00a0"), ("bb5", "")]
    Text.IsSpread parts ∧ (text ("\n" ++ Text.spread parts)).resolve standardChords =
      (entries [.token "c4", .token "CM", .token "bb5"]).resolve standardChords := by
  intro parts
  have hspread : Text.IsSpread parts :=
    ⟨by decide +kernel, by decide +kernel, by decide +kernel⟩
  exact ⟨hspread, (resolve_lists standardChords).1 "\n" parts (by decide +kernel) hspread⟩

end NoteList

end RhythmClip
