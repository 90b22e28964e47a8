import RhythmClip.Clip.Journaled

/-!
# What compiling warns of

A warning is a record of the level that is always reported. Compiling makes
one for a flag without effect and one for a subdivision that has no such name,
and all its other records are of the finer levels.

* `forall_mem_records_bind`: the records of a sequence are those of its parts.
* `warning_of_compile`: the two kinds of warnings.
-/
namespace RhythmClip

namespace Attempt

variable {α β : Type} {x : Attempt α} {f : α → Attempt β} {ok : Record → Prop}

theorem forall_mem_records_bind (hx : ∀ r ∈ x.records, ok r)
    (hf : ∀ a, ∀ r ∈ (f a).records, ok r) : ∀ r ∈ (x >>= f).records, ok r := by
  cases ho : x.outcome with
  | error e => rwa [records_bind_error ho]
  | ok a =>
    intro r hr
    rw [records_bind_ok ho, List.mem_append] at hr
    exact hr.elim (hx r) (hf a r)

theorem forall_mem_records_noting {o : Except Fault α} {g : α → List Record}
    (h : ∀ a, ∀ r ∈ g a, ok r) : ∀ r ∈ (noting o g).records, ok r := by
  cases o with
  | error e => intro r hr; cases hr
  | ok a => exact h a

theorem forall_mem_records_throw (e : Fault) : ∀ r ∈ (throw e : Attempt α).records, ok r :=
  fun _ hr => nomatch hr

theorem forall_mem_records_lift (o : Except Fault α) : ∀ r ∈ (liftM o : Attempt α).records, ok r :=
  fun _ hr => nomatch hr

theorem forall_mem_records_pure (a : α) : ∀ r ∈ (pure a : Attempt α).records, ok r :=
  fun _ hr => nomatch hr

end Attempt

/-! ## The stages of compiling -/

theorem NoteEntry.level_chordRecords (e : NoteEntry) (v : Voicing) :
    ∀ r ∈ e.chordRecords v, r.level = .trace := by
  intro r hr
  cases e with
  | pitches members => cases hr
  | token t =>
    simp only [chordRecords] at hr
    split at hr
    · rw [List.mem_singleton.1 hr]; rfl
    · cases hr

theorem Part.level_records (part : Part) (i : Nat) (leaves : List Leaf) :
    ∀ r ∈ part.records i leaves, r.level = .trace := by
  induction leaves generalizing i with
  | nil => intro r hr; cases hr
  | cons leaf leaves ih =>
    obtain ⟨_ | _ | _, d⟩ := leaf
    · exact List.forall_mem_cons.2 ⟨rfl, ih (i + 1)⟩
    · exact ih i
    · exact ih i

theorem Attempt.level_resolveAll (d : Dictionary) (es : List NoteEntry) :
    ∀ r ∈ (resolveAll d es).records, r.level = .trace := by
  induction es with
  | nil => exact forall_mem_records_pure []
  | cons e es ih =>
    refine forall_mem_records_bind (forall_mem_records_noting e.level_chordRecords) fun v => ?_
    exact forall_mem_records_bind ih fun vs => forall_mem_records_pure (v :: vs)

theorem Attempt.level_resolve (d : Dictionary) (notes : NoteList) :
    ∀ r ∈ (resolve d notes).records, r.level = .trace := by
  refine forall_mem_records_bind (level_resolveAll d notes.toEntries) fun vs => ?_
  cases Cycle.ofList? vs with
  | none => exact forall_mem_records_throw _
  | some voicings => exact forall_mem_records_pure voicings

/-- What compiling the settings may warn of. -/
def Settings.Warning (s : Settings) (r : Record) : Prop :=
  (∃ flag ∈ s.flags, r = .flagIgnored flag) ∨
    (Subdivision.ofName? s.subdivision = none ∧ r = .subdivisionReplaced s.subdivision)

theorem Settings.warning_of_gridRecords (s : Settings) : ∀ r ∈ s.gridRecords, s.Warning r := by
  intro r hr
  unfold gridRecords at hr
  split at hr
  · rename_i hnone
    exact .inr ⟨Option.isNone_iff_eq_none.1 hnone, List.mem_singleton.1 hr⟩
  · cases hr

namespace Attempt

theorem warning_of_compile (d : Dictionary) (s : Settings) :
    ∀ r ∈ (compile d s).records, r.level = .warn → s.Warning r := by
  have finer : ∀ {r : Record}, r.level ≠ .warn → r.level = .warn → s.Warning r :=
    fun hr h => absurd h hr
  refine forall_mem_records_bind ?_ fun _ => ?_
  · refine forall_mem_records_noting fun _ r hr _ => ?_
    obtain ⟨flag, hflag, rfl⟩ := List.mem_map.1 hr
    exact .inl ⟨flag, hflag, rfl⟩
  refine forall_mem_records_bind (fun r hr => ?_) fun voicings => ?_
  · exact finer (by rw [level_resolve d s.notes r hr]; decide)
  refine forall_mem_records_bind (forall_mem_records_lift _) fun p => ?_
  refine forall_mem_records_bind ?_ fun grid => ?_
  · exact forall_mem_records_noting fun _ r hr _ => s.warning_of_gridRecords r hr
  refine forall_mem_records_bind ?_ fun _ => ?_
  · refine forall_mem_records_noting fun _ r hr => ?_
    exact finer (by rw [Part.level_records _ _ _ r hr]; decide)
  refine forall_mem_records_bind (forall_mem_records_lift _) fun clip => ?_
  refine forall_mem_records_bind ?_ fun _ => forall_mem_records_pure clip
  refine forall_mem_records_noting fun _ r hr => ?_
  rw [List.mem_singleton.1 hr]
  exact finer (by simp [Record.level])

end Attempt

end RhythmClip
