import RhythmClip.Proofs.Chord
import RhythmClip.Proofs.Clip.Compile
import RhythmClip.Proofs.Note
import RhythmClip.Proofs.Pattern.Blame
import RhythmClip.Proofs.Session.Admissible
import RhythmClip.Proofs.Text.Ink

/-!
# What is repeated of a request

A fault quotes characters of the request that it is about (`Fault.quotes`), and
its wording adds none that could be part of a control sequence. What a session
stores has been judged: accents and patterns are made of a few characters, and
notes of words that spell pitches and chords. So what a session says holds an
escape character only if the line that it answers does.

* `noEscape_message`: a message is as clear as what it quotes.
* `quotes_of_check`, `quotes_of_resolve`, `quotes_of_read`, `quotes_of_compile`:
  what the faults of each stage quote.
* `noEscape_of_resolveToken`: a token with a meaning.
* `Admissible.clear`: the texts of admissible settings.
-/
namespace RhythmClip

open Text

/-- The characters of the request that the message of a fault repeats. -/
def Fault.quotes : Fault → List Char
  | .pattern (.foreign c _) => [c]
  | .note token _ => token.toList
  | .setting (.accentCharacter c) => [c]
  | .setting (.unknownSubdivision name) => name.toList
  | .pattern _ | .setting _ => []

theorem noEscape_toString {c : Char} : NoEscape c.toString ↔ c ≠ '\x1b' := by
  simp [NoEscape]

theorem PatternFault.noEscape_reason {cause : PatternFault}
    (h : ∀ c ∈ (Fault.pattern cause).quotes, c ≠ '\x1b') : NoEscape cause.reason := by
  unfold reason
  cases cause with
  | foreign c offset =>
    have hc := noEscape_toString.2 (h c List.mem_cons_self)
    simp only [noEscape_append_iff, noEscape_decimal, hc, and_true]
    exact ⟨⟨noEscape_ofList rfl, noEscape_ofList rfl⟩, noEscape_ofList rfl⟩
  | unmatched offset | emptyGroup offset | unclosed offset =>
    simp only [noEscape_append_iff, noEscape_decimal, and_true]
    exact noEscape_ofList rfl
  | empty | tooDeep => exact noEscape_ofList rfl

theorem SettingFault.noEscape_reason {cause : SettingFault}
    (h : ∀ c ∈ (Fault.setting cause).quotes, c ≠ '\x1b') : NoEscape cause.reason := by
  unfold reason
  cases cause with
  | tooLoud field value =>
    have hfield : NoEscape field.name := by cases field <;> decide
    simp only [noEscape_append_iff, noEscape_decimal, hfield, and_true, true_and]
    exact noEscape_ofList rfl
  | accentCharacter c =>
    have hc := noEscape_toString.2 (h c List.mem_cons_self)
    simp only [noEscape_append_iff, hc, and_true]
    exact ⟨noEscape_ofList rfl, noEscape_ofList rfl⟩
  | unknownSubdivision name =>
    have hname : NoEscape name := h
    simp only [noEscape_append_iff, hname, and_true]
    exact ⟨noEscape_ofList rfl, noEscape_ofList rfl⟩
  | noNotes | malformed => exact noEscape_ofList rfl

theorem Fault.noEscape_message {e : Fault} (h : ∀ c ∈ e.quotes, c ≠ '\x1b') :
    NoEscape e.message := by
  cases e with
  | pattern cause =>
    exact NoEscape.append (noEscape_ofList rfl) (PatternFault.noEscape_reason h)
  | note token cause =>
    have htoken : NoEscape token := h
    have hreason : NoEscape cause.reason := by
      cases cause <;> exact noEscape_ofList rfl
    unfold message
    simp only [noEscape_append_iff, htoken, hreason, and_true]
    exact ⟨noEscape_ofList rfl, noEscape_ofList rfl⟩
  | setting cause =>
    exact NoEscape.append (noEscape_ofList rfl) (SettingFault.noEscape_reason h)

/-! ## What the stages quote -/

theorem Settings.quotes_of_check {s : Settings} {e : Fault} (h : s.check = .error e) :
    ∀ c ∈ e.quotes, c ∈ s.accentMap.toList := by
  unfold check at h
  split at h
  · cases h
    exact List.forall_mem_nil _
  · split at h
    · rename_i c hc
      cases h
      exact List.forall_mem_singleton.2 (List.mem_of_find?_eq_some hc)
    · cases h

theorem Pattern.quotes_of_read {text : String} {e : Fault} (h : read text = .error e) :
    ∀ c ∈ e.quotes, c ∈ text.toList := by
  unfold read at h
  cases hread : readChars text.toList with
  | ok p => rw [hread] at h; cases h
  | error cause =>
    rw [hread] at h
    cases h
    cases (readChars_eq_error_iff _ _).1 hread with
    | foreign hcut => exact List.forall_mem_singleton.2 (by rw [hcut]; simp)
    | empty | unmatched | emptyGroup | unclosed => exact List.forall_mem_nil _

theorem NoteEntry.quotes_of_resolve {d : Dictionary} {entry : NoteEntry} {e : Fault}
    (h : resolveEntry d entry = .error e) : ∀ c ∈ e.quotes, c ∈ entry.text.toList := by
  cases entry with
  | token t =>
    have hfault : e = .note t .unknown := by
      rw [resolveEntry, resolveToken] at h
      split at h
      · cases h
      · split at h
        · cases h
        · exact (Except.error.inj h).symm
    rw [hfault]
    exact fun c hc => hc
  | pitches members =>
    have htext : (NoteEntry.pitches members).text.toList =
        '[' :: ([' '].intercalate (members.map String.toList) ++ [']']) := by
      simp [NoteEntry.text]
    rw [htext]
    rcases (resolveEntry_pitches_eq_error_iff d members e).1 h with ⟨rfl, rfl⟩ | hfirst
    · exact fun c hc => hc
    · obtain ⟨before, m, behind, rfl, -, -, rfl⟩ := (firstError_readMember_iff _ _).1 hfirst
      intro c hc
      refine List.mem_cons_of_mem _ (List.mem_append_left _ ?_)
      exact mem_intercalate [' '] (List.mem_map_of_mem (by simp)) hc

theorem NoteList.quotes_of_resolve {d : Dictionary} {notes : NoteList} {e : Fault}
    (h : notes.resolve d = .error e) : ∀ c ∈ e.quotes, c ∈ notes.typed.toList := by
  rcases (resolve_eq_error_iff d notes e).1 h with ⟨-, rfl⟩ | ⟨before, entry, behind, hcut, -, he⟩
  · exact List.forall_mem_nil _
  · intro c hc
    rw [typed, hcut, String.toList_intercalate]
    refine mem_intercalate [' '] ?_ (entry.quotes_of_resolve he c hc)
    simp

/-- A fault of compiling quotes nothing but the request. -/
theorem Clip.quotes_of_compile {d : Dictionary} {s : Settings} {e : Fault}
    (h : compile d s = .error e) :
    ∀ c ∈ e.quotes, c ∈ s.accentMap.toList ∨ c ∈ s.notes.typed.toList ∨ c ∈ s.pattern.toList := by
  rcases compile_cases d s with ⟨e', hc, he⟩ | ⟨-, e', hv, he⟩ | ⟨-, v, -, e', hp, he⟩ |
    ⟨-, v, -, p, -, he⟩
  · cases he.symm.trans h
    exact fun c hmem => .inl (s.quotes_of_check hc c hmem)
  · cases he.symm.trans h
    exact fun c hmem => .inr (.inl (NoteList.quotes_of_resolve hv c hmem))
  · cases he.symm.trans h
    exact fun c hmem => .inr (.inr (Pattern.quotes_of_read hp c hmem))
  · rw [he] at h
    obtain ⟨rfl, -⟩ := (assemble_eq_error_iff _ _ _ _ e).1 h
    exact List.forall_mem_nil _

/-! ## Texts with a meaning -/

theorem Letter.ne_escape_of_isWritten {letter : Letter} {c : Char} (h : letter.IsWritten c) :
    c ≠ '\x1b' := by
  rcases h with rfl | rfl <;> cases letter <;> decide

theorem Accidental.ne_escape_of_mem_symbol (accidental : Accidental) :
    ∀ c ∈ accidental.symbol, c ≠ '\x1b' := by cases accidental <;> simp [Accidental.symbol]

theorem digitChar_ne_escape (octave : Fin 10) : Nat.digitChar octave ≠ '\x1b' := by
  revert octave
  decide

theorem noEscape_of_ofText? {token : String} {p : Pitch} (h : Pitch.ofText? token = some p) :
    NoEscape token := by
  obtain ⟨c, hletter, htoken⟩ := Pitch.writes_of_ofChars? h
  rw [NoEscape, htoken, List.forall_mem_cons, List.forall_mem_append, List.forall_mem_singleton]
  exact ⟨Letter.ne_escape_of_isWritten hletter, p.accidental.ne_escape_of_mem_symbol,
    digitChar_ne_escape p.octave⟩

theorem noEscape_of_standardChords {token : String} {ps : List Pitch}
    (h : standardChords token = some ps) : NoEscape token := by
  obtain ⟨name, hname, -⟩ := Option.bind_eq_some_iff.1 h
  obtain ⟨c, suffix, hsplit, hletter, hquality, hoctave⟩ := ChordName.spelled_of_ofChars? hname
  have hnames : ∀ q ∈ Quality.all, NoEscape q.name := by decide
  have hsuffix : ∀ c ∈ suffix, c ≠ '\x1b' := by
    rcases hoctave with ⟨rfl, -⟩ | rfl
    · exact List.forall_mem_nil _
    · rw [List.forall_mem_cons, List.forall_mem_singleton]
      exact ⟨by decide, digitChar_ne_escape _⟩
  rw [NoEscape, hsplit, List.forall_mem_cons, List.forall_mem_append, List.forall_mem_append]
  exact ⟨Letter.ne_escape_of_isWritten hletter, Accidental.ne_escape_of_mem_symbol _,
    hnames _ hquality, hsuffix⟩

theorem noEscape_of_resolveToken {token : String} {v : Voicing}
    (h : resolveToken standardChords token = .ok v) : NoEscape token := by
  unfold resolveToken at h
  split at h
  · rename_i p hp
    exact noEscape_of_ofText? hp
  · split at h
    · rename_i v hv
      obtain ⟨ps, hps, -⟩ := Option.bind_eq_some_iff.1 hv
      exact noEscape_of_standardChords hps
    · cases h

theorem noEscape_typed {text : String} {voicings : Cycle Voicing}
    (h : (NoteList.text text).resolve standardChords = .ok voicings) :
    NoEscape (NoteList.text text).typed := by
  have hgood := exists_of_forall₂ ((NoteList.resolve_eq_ok_iff_forall₂ standardChords _ _).1 h)
  have hentries : ∀ entry ∈ (NoteList.text text).toEntries, NoEscape entry.text := by
    intro entry hentry
    obtain ⟨v, hv⟩ := hgood entry hentry
    obtain ⟨word, -, rfl⟩ := List.mem_map.1 hentry
    exact noEscape_of_resolveToken hv
  exact .intercalate (by decide) (List.forall_mem_map.2 hentries)

theorem noEscape_of_read {text : String} {p : Pattern} (h : Pattern.read text = .ok p) :
    NoEscape text := by
  obtain ⟨-, -, rfl⟩ := (Pattern.read_eq_ok_iff _ _).1 h
  have hsymbol : ∀ symbol : Symbol, symbol.char ≠ '\x1b' := by
    rintro ((_ | _ | _) | _ | _) <;> decide
  rw [NoEscape, Pattern.text, String.toList_ofList]
  exact List.forall_mem_map.2 fun symbol _ => hsymbol symbol

/-- No text in the settings has an escape character. -/
structure Settings.Clear (s : Settings) : Prop where
  notes : NoEscape s.notes.typed
  pattern : NoEscape s.pattern
  accentMap : NoEscape s.accentMap

theorem Session.Admissible.clear {s : Settings} (h : Admissible s) : s.Clear where
  notes := by
    obtain ⟨text, hnotes, -, voicings, hv⟩ := h.notes
    rw [hnotes]
    exact noEscape_typed hv
  pattern := by
    obtain ⟨p, hp⟩ := h.pattern
    exact noEscape_of_read hp
  accentMap c hc := by
    rcases h.accentMap c hc with rfl | rfl <;> decide

theorem Settings.Clear.noEscape_of_compile {d : Dictionary} {s : Settings} {e : Fault}
    (hs : s.Clear) (h : Clip.compile d s = .error e) : NoEscape e.message := by
  refine Fault.noEscape_message fun c hc => ?_
  rcases Clip.quotes_of_compile h c hc with hmap | hnotes | hpattern
  · exact hs.accentMap c hmap
  · exact hs.notes c hnotes
  · exact hs.pattern c hpattern

end RhythmClip
