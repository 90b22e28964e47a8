import RhythmClip.Proofs.Clip.Compile
import Mathlib.Data.String.Basic

/-!
# When compiling fails

The settings, the notes and the pattern are judged in this order, and each can
be at fault by itself. What is left is arithmetic: the layout divides and the
starts are added up in 64-bit numbers. Whether that goes well can be read off
the exact lengths of the leaves (`Overflows`), because every leaf begins at a
multiple of its length and so no step has to write down more than two numbers.

* `exact_and_offsets?_iff`: layout and starts exist just if nothing overflows.
* `assembleFrom_eq_error_iff`: putting a clip together fails just then.
* `Fails`: the faults of a request, each with the stages before it passed.
* `compile_eq_error_iff_fails`: compiling has just these faults.
-/
namespace RhythmClip

namespace Pattern

theorem utf8ByteSize_text (p : Pattern) : p.text.utf8ByteSize = p.symbols.length := by
  rw [text, String.utf8ByteSize_ofList]
  induction p.symbols with
  | nil => rfl
  | cons s ss ih =>
    rw [List.map_cons, String.utf8Len_cons, Symbol.utf8Size_char, ih, List.length_cons]

/-! ## Overflow -/

/-- Some leaf has a length whose denominator leaves the word, or ends at a time
whose numerator over that denominator does. -/
def Overflows (slot : Ticks) (p : Pattern) : Prop :=
  ∃ i q, (p.durations slot)[i]? = some q ∧
    (Ticks.wordMax < q.den ∨
      (Ticks.wordMax : Rat) < q.den * ((p.durations slot).take (i + 1)).sum)

theorem not_overflows_iff (slot : Ticks) (p : Pattern) :
    ¬p.Overflows slot ↔ ∀ i q, (p.durations slot)[i]? = some q →
      Ticks.Writable q ((p.durations slot).take (i + 1)).sum := by
  simp only [Overflows, Ticks.Writable, not_exists, not_and, not_or, not_lt]

theorem exact_and_offsets?_iff {p : Pattern} (hp : p.NoEmptyGroup) (hfits : p.GroupsFit)
    {slot : Ticks} (hpos : 0 < slot) (hs : slot.den ≤ Ticks.wordMax) :
    (p.layOut slot).exact = true ∧ (Ticks.offsets? (p.durations slot)).isSome ↔
      ¬p.Overflows slot := by
  -- the row begins at 0, which is a multiple of every length
  have ha := aligned_durations hp slot 0
  rw [Nat.cast_zero, zero_mul] at ha
  have hlay := Ticks.layFrom?_isSome_iff ha (pos_of_mem_durations hp hpos)
  simp only [zero_add] at hlay
  rw [not_overflows_iff, ← hlay, exact_layOut_iff hp hfits hs]
  -- an end can only be written if the length before it can, so the layout is exact too
  refine ⟨And.right, fun h => ⟨fun q hq => ?_, h⟩⟩
  obtain ⟨i, hi⟩ := List.getElem?_of_mem hq
  exact (hlay.1 h i q hi).1

end Pattern

namespace Clip

/-! ## Putting a clip together -/

theorem groupsFit_of_read {s : Settings} (hlen : s.pattern.utf8ByteSize < 2 ^ 63) {p : Pattern}
    (hp : Pattern.read s.pattern = .ok p) : p.GroupsFit := by
  obtain ⟨-, -, htext⟩ := (Pattern.read_eq_ok_iff _ _).1 hp
  rw [← htext, Pattern.utf8ByteSize_text] at hlen
  apply Pattern.groupsFit_of_length_le
  unfold Ticks.wordMax
  omega

theorem assembleFrom_eq_error_iff {s : Settings} {p : Pattern} (hfits : p.GroupsFit)
    (hp : Pattern.read s.pattern = .ok p) (voicings : Cycle Voicing) (e : Fault) :
    assembleFrom s voicings p = .error e ↔
      p.Overflows s.grid.ticks ∧ e = .pattern .tooDeep := by
  obtain ⟨-, hgroups, -⟩ := (Pattern.read_eq_ok_iff _ _).1 hp
  have hexact : (p.layOut s.grid.ticks).exact = true ∧
      (Ticks.offsets? (((s.part voicings).perform 0 (p.layOut s.grid.ticks).leaves).map
        Event.duration)).isSome ↔ ¬p.Overflows s.grid.ticks := by
    rw [← Pattern.exact_and_offsets?_iff hgroups hfits s.grid.ticks_pos s.grid.den_ticks_le]
    apply and_congr_right
    intro hexact
    rw [Part.perform_durations, Pattern.map_duration_layOut hexact]
  rw [assembleFrom, assemble_eq_error_iff, hexact, not_not, and_comm]

/-! ## Faults -/

/-- The faults of a request. A later stage has one only if those before it passed. -/
inductive Fails (d : Dictionary) (s : Settings) : Fault → Prop where
  | settings {e : Fault} : s.check = .error e → Fails d s e
  | notes {e : Fault} : s.check = .ok () → s.notes.resolve d = .error e → Fails d s e
  | pattern {e : Fault} {voicings : Cycle Voicing} :
    s.check = .ok () → s.notes.resolve d = .ok voicings → Pattern.read s.pattern = .error e →
      Fails d s e
  | depth {voicings : Cycle Voicing} {p : Pattern} :
    s.check = .ok () → s.notes.resolve d = .ok voicings → Pattern.read s.pattern = .ok p →
      p.Overflows s.grid.ticks → Fails d s (.pattern .tooDeep)

theorem fails_of_compile {d : Dictionary} {s : Settings} (hlen : s.pattern.utf8ByteSize < 2 ^ 63)
    {e : Fault} (h : compile d s = .error e) : Fails d s e := by
  rcases compile_cases d s with ⟨e', hc, he⟩ | ⟨hc, e', hv, he⟩ | ⟨hc, v, hv, e', hp, he⟩ |
    ⟨hc, v, hv, p, hp, he⟩
  · rw [he] at h; cases h
    exact .settings hc
  · rw [he] at h; cases h
    exact .notes hc hv
  · rw [he] at h; cases h
    exact .pattern hc hv hp
  · rw [he, assembleFrom_eq_error_iff (groupsFit_of_read hlen hp) hp] at h
    obtain ⟨ho, rfl⟩ := h
    exact .depth hc hv hp ho

theorem compile_of_fails {d : Dictionary} {s : Settings} (hlen : s.pattern.utf8ByteSize < 2 ^ 63)
    {e : Fault} (h : Fails d s e) : compile d s = .error e := by
  cases h with
  | settings hc => exact compile_eq_error_of_check hc d
  | notes hc hv => exact compile_eq_error_of_resolve hc hv
  | pattern hc hv hp => exact compile_eq_error_of_read hc hv hp
  | depth hc hv hp ho =>
    rw [compile_eq_assembleFrom hc hv hp, assembleFrom_eq_error_iff (groupsFit_of_read hlen hp) hp]
    exact ⟨ho, rfl⟩

/-- Past the three judgements only an overflow can stop a clip. -/
theorem compile_eq_ok_iff {d : Dictionary} {s : Settings} (hlen : s.pattern.utf8ByteSize < 2 ^ 63) :
    (∃ c, compile d s = .ok c) ↔
      s.check = .ok () ∧ (∃ v, s.notes.resolve d = .ok v) ∧
        ∃ p, Pattern.read s.pattern = .ok p ∧ ¬p.Overflows s.grid.ticks := by
  constructor
  · rintro ⟨c, h⟩
    obtain ⟨v, p, hc⟩ := compiled_of_compile h
    refine ⟨hc.check, ⟨v, hc.resolve⟩, p, hc.read, fun ho => ?_⟩
    rw [compile_of_fails hlen (.depth hc.check hc.resolve hc.read ho)] at h
    cases h
  · rintro ⟨hc, ⟨v, hv⟩, p, hp, ho⟩
    cases h : compile d s with
    | ok c => exact ⟨c, rfl⟩
    | error e =>
      rw [compile_eq_assembleFrom hc hv hp, assembleFrom_eq_error_iff (groupsFit_of_read hlen hp) hp] at h
      exact absurd h.1 ho

/-- **The faults of compiling.** Compiling fails with exactly the faults of
the request: of its settings, else of its notes, else of its pattern, and else
with a pattern that nests too deeply when some exact length or end leaves the
64-bit range, at no particular place. In every other case there is a clip. -/
theorem compile_eq_error_iff_fails (d : Dictionary) (s : Settings)
    (hlen : s.pattern.utf8ByteSize < 2 ^ 63) :
    (∀ e, compile d s = .error e ↔ Fails d s e) ∧
      ((∃ c, compile d s = .ok c) ↔
        s.check = .ok () ∧ (∃ v, s.notes.resolve d = .ok v) ∧
          ∃ p, Pattern.read s.pattern = .ok p ∧ ¬p.Overflows s.grid.ticks) ∧
      PatternFault.tooDeep.reason = "pattern nests too deeply for exact timing" ∧
      PatternFault.tooDeep.offset? = none :=
  ⟨fun _ => ⟨fails_of_compile hlen, compile_of_fails hlen⟩, compile_eq_ok_iff hlen, rfl, rfl⟩

theorem compile_eq_error_iff_fails_nested :
    let s : Settings :=
      { pattern := String.join (List.replicate 40 "[xx") ++ "x" ++ String.join (List.replicate 40 "]") }
    s.pattern.utf8ByteSize < 2 ^ 63 ∧ Fails standardChords s (.pattern .tooDeep) :=
  ⟨by decide +kernel,
    ((compile_eq_error_iff_fails standardChords _ (by decide +kernel)).1 _).1 (by decide +kernel)⟩

end Clip

end RhythmClip
