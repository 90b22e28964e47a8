import RhythmClip.Proofs.Clip.Compile
import RhythmClip.Proofs.Pattern.Bracketing
import Mathlib.Logic.Relation

/-!
# Redundant brackets in a clip

Rows that differ by brackets around single slots are laid out alike, so they
are put together into the same clip, or their depth stops both. Texts that
differ by such brackets give such rows, or none of them can be read.

* `SameEnd`: two attempts give the same clip or none, and too deep is too deep.
* `sameEnd_of_addsBrackets`: one pair of brackets, anywhere in the text.
* `compile_bracketed`: any number of pairs, beside each other and nested.
-/
namespace RhythmClip.Clip

/-- Two attempts end alike: with the same clip, or both without one, and then
the depth stops both or neither. -/
structure SameEnd (x y : Except Fault Clip) : Prop where
  ok_iff : ∀ c, x = .ok c ↔ y = .ok c
  tooDeep_iff : x = .error (.pattern .tooDeep) ↔ y = .error (.pattern .tooDeep)

theorem SameEnd.refl (x : Except Fault Clip) : SameEnd x x := ⟨fun _ => Iff.rfl, Iff.rfl⟩

theorem SameEnd.trans {x y z : Except Fault Clip} (h : SameEnd x y) (h' : SameEnd y z) :
    SameEnd x z :=
  ⟨fun c => (h.ok_iff c).trans (h'.ok_iff c), h.tooDeep_iff.trans h'.tooDeep_iff⟩

theorem sameEnd_refused {e e' : PatternFault} (he : e ≠ .tooDeep) (he' : e' ≠ .tooDeep) :
    SameEnd (.error (.pattern e)) (.error (.pattern e')) :=
  ⟨fun _ => by simp, by simp [he, he']⟩

/-- Settings and notes are judged before the pattern: they are refused whatever
it is, or nothing but the pattern decides. -/
theorem refused_or_read (d : Dictionary) (s : Settings) :
    (∃ e, ∀ t, compile d { s with pattern := t } = .error e) ∨
      ∃ v, (∀ t p, Pattern.read t = .ok p →
          compile d { s with pattern := t } = assembleFrom { s with pattern := t } v p) ∧
        ∀ t e, Pattern.read t = .error e → compile d { s with pattern := t } = .error e := by
  cases hc : s.check with
  | error e =>
    exact .inl ⟨e, fun t => compile_eq_error_of_check ((s.check_pattern t).trans hc) d⟩
  | ok u =>
    have hcheck : ∀ t, Settings.check { s with pattern := t } = .ok () :=
      fun t => (s.check_pattern t).trans hc
    cases hv : s.notes.resolve d with
    | error e => exact .inl ⟨e, fun t => compile_eq_error_of_resolve (hcheck t) hv⟩
    | ok v =>
      exact .inr ⟨v, fun t p hp => compile_eq_assembleFrom (hcheck t) hv hp,
        fun t e hp => compile_eq_error_of_read (hcheck t) hv hp⟩

theorem assembleFrom_bracketed {p q : Pattern} (h : p.Bracketed q) (s : Settings)
    (v : Cycle Voicing) (t t' : String) :
    assembleFrom { s with pattern := t' } v q = assembleFrom { s with pattern := t } v p := by
  have hlayout : q.layOut s.grid.ticks = p.layOut s.grid.ticks :=
    h.layOut_eq s.grid.den_ticks_le
  show assemble s.grid q.slots (q.layOut s.grid.ticks).exact
      ((s.part v).perform 0 (q.layOut s.grid.ticks).leaves) = _
  rw [hlayout, h.slots_eq]
  rfl

theorem sameEnd_of_addsBrackets (d : Dictionary) (s : Settings) {t t' : String}
    (h : Pattern.AddsBrackets t t') :
    SameEnd (compile d { s with pattern := t }) (compile d { s with pattern := t' }) := by
  rcases refused_or_read d s with ⟨e, he⟩ | ⟨v, hok, herror⟩
  · rw [he, he]
    exact .refl _
  · rcases h.read_cases with ⟨p, q, hp, hq, halike⟩ | ⟨e, e', he, he', hdeep, hdeep'⟩
    · rw [hok _ p hp, hok _ q hq, assembleFrom_bracketed halike]
      exact .refl _
    · rw [herror _ _ he, herror _ _ he']
      exact sameEnd_refused hdeep hdeep'

/-- **Redundant brackets are transparent.** Brackets around a part of a pattern
text that is the text of a single slot change nothing: both texts compile to
the same clip, or neither compiles. This holds for any number of such brackets
at any places; so a pattern is too deep only if it is so without them. -/
theorem compile_bracketed (d : Dictionary) (s : Settings) :
    (∀ before single after : String, Pattern.IsSlot single.toList → ∀ c : Clip,
      compile d { s with pattern := before ++ single ++ after } = .ok c ↔
        compile d { s with pattern := before ++ "[" ++ single ++ "]" ++ after } = .ok c) ∧
    ∀ t t' : String, Relation.ReflTransGen Pattern.AddsBrackets t t' →
      (∀ c : Clip, compile d { s with pattern := t } = .ok c ↔
        compile d { s with pattern := t' } = .ok c) ∧
      (compile d { s with pattern := t } = .error (.pattern .tooDeep) ↔
        compile d { s with pattern := t' } = .error (.pattern .tooDeep)) := by
  refine ⟨fun before single after h c => ?_, fun t t' h => ?_⟩
  · exact (sameEnd_of_addsBrackets d s (.slot before single after h)).ok_iff c
  · have hend : SameEnd (compile d { s with pattern := t })
        (compile d { s with pattern := t' }) := by
      induction h with
      | refl => exact .refl _
      | tail _ hadd ih => exact ih.trans (sameEnd_of_addsBrackets d s hadd)
    exact ⟨hend.ok_iff, hend.tooDeep_iff⟩

/-- Brackets around a note in a group, and then around the group. -/
theorem compile_bracketed_twice :
    ∃ c, compile standardChords { pattern := "x[x-]_" } = .ok c ∧
      compile standardChords { pattern := "x[[x]-]_" } = .ok c ∧
      compile standardChords { pattern := "x[[[x]-]]_" } = .ok c := by
  have hnote : Pattern.AddsBrackets "x[x-]_" "x[[x]-]_" := .slot "x[" "x" "-]_" .note
  have hgroup : Pattern.AddsBrackets "x[[x]-]_" "x[[[x]-]]_" :=
    .slot "x" "[[x]-]" "_" (.group (.cons (.group (.single .note)) (.single .rest)))
  obtain ⟨c, hc⟩ : ∃ c, compile standardChords { pattern := "x[x-]_" } = .ok c :=
    exists_clip (by decide +kernel)
  obtain ⟨honce, hmany⟩ := compile_bracketed standardChords {}
  obtain ⟨htwice, -⟩ := hmany "x[x-]_" "x[[[x]-]]_" (.tail (.single hnote) hgroup)
  exact ⟨c, hc, (honce "x[" "x" "-]_" .note c).1 hc, (htwice c).1 hc⟩

end RhythmClip.Clip
