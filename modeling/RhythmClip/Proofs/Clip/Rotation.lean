import RhythmClip.Proofs.Clip.Events
import RhythmClip.Proofs.Note
import Mathlib.Data.List.Rotate

/-!
# Playing on from a later note

Notes and accents are two cycles of their own lengths, and both have moved on
by `n` after `n` notes. Settings whose note entries and accents are rotated by
`n` therefore begin where the others are by then.

* `get_of_rotate`: a rotated cycle is read from a later place.
* `resolveAll_rotate`: entries resolve one by one, so rotated ones to the
  rotated voicings.
* `Settings.resumes_advance`: rotated settings play on after `n` notes.
* `perform_append`: the leaves behind others are performed by a part that
  resumes after the notes among these.
-/
namespace RhythmClip

/-! ## Cycles -/

namespace Cycle

variable {α : Type}

theorem exists_toList_eq {as : List α} (h : as ≠ []) : ∃ c : Cycle α, c.toList = as := by
  cases as with
  | nil => exact absurd rfl h
  | cons a as => exact ⟨⟨a, as⟩, rfl⟩

theorem get_of_rotate {c later : Cycle α} {n : Nat} (h : later.toList = c.toList.rotate n)
    (i : Nat) : later.get i = c.get (n + i) := by
  have hi := later.getElem?_toList i
  have hlt : i % c.toList.length < c.toList.length := by
    rw [length_toList]
    exact Nat.mod_lt _ c.length_pos
  rw [h, List.length_rotate, List.getElem?_rotate hlt, Nat.mod_add_mod, Nat.add_comm,
    c.getElem?_toList] at hi
  exact (Option.some.inj hi).symm

end Cycle

/-! ## Notes -/

section Resolve

variable {d : Dictionary} {es fs : List NoteEntry} {vs : List Voicing}

theorem resolveAll_rotate (h : resolveAll d es = .ok vs) (n : Nat) :
    resolveAll d (es.rotate n) = .ok (vs.rotate n) := by
  by_cases hnil : es = []
  · subst hnil
    cases h
    rfl
  · have hlen := length_of_resolveAll h
    have hlt := Nat.mod_lt n (List.length_pos_of_ne_nil hnil)
    rw [← List.take_append_drop (n % es.length) es] at h
    obtain ⟨us, ws, hus, hws, rfl⟩ := resolveAll_append_eq_ok h
    have hcut : us.length = n % es.length := by
      rw [length_of_resolveAll hus, List.length_take_of_le hlt.le]
    rw [List.rotate_eq_drop_append_take_mod, resolveAll_append, hws, hus, ← List.rotate_mod, hlen,
      ← hcut, List.rotate_append_length_eq]
    rfl

end Resolve

/-! ## Settings -/

namespace Settings

/-- The settings from the `n`-th note on: the entries of the notes and the
accents are rotated to the left by `n`, each modulo their number. -/
def advance (s : Settings) (n : Nat) : Settings :=
  { s with
    notes := .entries (s.notes.toEntries.rotate (n % s.notes.toEntries.length))
    accentMap := String.ofList (s.accentMap.toList.rotate (n % s.accentMap.toList.length)) }

theorem check_advance {s : Settings} (h : s.check = .ok ()) (n : Nat) :
    (s.advance n).check = .ok () := by
  rw [check_eq_ok_iff] at h ⊢
  obtain ⟨hvelocity, hhi, hlo, hmap⟩ := h
  refine ⟨hvelocity, hhi, hlo, fun c hc => hmap c ?_⟩
  rwa [advance, String.toList_ofList, List.mem_rotate] at hc

theorem resolve_advance {d : Dictionary} {s : Settings} {v : Cycle Voicing}
    (h : s.notes.resolve d = .ok v) (n : Nat) :
    ∃ later, (s.advance n).notes.resolve d = .ok later ∧ later.toList = v.toList.rotate n := by
  rw [NoteList.resolve_eq_ok_iff] at h
  have hne : v.toList.rotate n ≠ [] := by simp [Cycle.toList]
  obtain ⟨later, hlater⟩ := Cycle.exists_toList_eq hne
  refine ⟨later, ?_, hlater⟩
  rw [NoteList.resolve_eq_ok_iff, hlater, ← resolveAll_rotate h n]
  simp [advance, NoteList.toEntries, List.rotate_mod]

end Settings

/-! ## Parts -/

/-- `later` plays as `part` does once `n` notes have sounded. -/
structure Part.Resumes (part : Part) (n : Nat) (later : Part) : Prop where
  voicing : ∀ i, later.voicings.get i = part.voicings.get (n + i)
  noteVelocity : ∀ i, later.noteVelocity i = part.noteVelocity (n + i)
  velocity : later.velocity = part.velocity

theorem Settings.noteVelocity_advance (s : Settings) (v later : Cycle Voicing) (n i : Nat) :
    ((s.advance n).part later).noteVelocity i = (s.part v).noteVelocity (n + i) := by
  have hmap : (s.advance n).accentMap.toList = s.accentMap.toList.rotate n := by
    rw [advance, String.toList_ofList, List.rotate_mod]
  cases hl : s.accentMap.toList with
  | nil =>
    rw [hl, List.rotate_nil] at hmap
    simp only [Part.noteVelocity, part, Accent.ofMap?, hl, hmap]
    rfl
  | cons a as =>
    have hne : (a :: as).rotate n ≠ [] := by simp
    obtain ⟨⟨b, bs⟩, hturned⟩ := Cycle.exists_toList_eq hne
    have hturn : (Cycle.mk b bs).get i = (Cycle.mk a as).get (n + i) :=
      Cycle.get_of_rotate hturned i
    rw [hl, ← hturned] at hmap
    simp only [Part.noteVelocity, part, ofMap?_eq hl, ofMap?_eq hmap, Accent.velocity,
      Cycle.get_map, hturn]
    rfl

theorem Settings.resumes_advance (s : Settings) {v later : Cycle Voicing} {n : Nat}
    (h : later.toList = v.toList.rotate n) :
    (s.part v).Resumes n ((s.advance n).part later) :=
  ⟨Cycle.get_of_rotate h, s.noteVelocity_advance v later n, rfl⟩

namespace Part

theorem eventAt_resumes {part later : Part} {n : Nat} (h : part.Resumes n later) (i : Nat)
    (leaf : Leaf) : later.eventAt i leaf = part.eventAt (n + i) leaf := by
  obtain ⟨_ | _ | _, d⟩ := leaf
  · simp [eventAt, h.voicing, h.noteVelocity]
  · simp [eventAt, h.velocity]
  · simp [eventAt, h.velocity]

theorem perform_resumes {part later : Part} {n : Nat} (h : part.Resumes n later) (i : Nat)
    (leaves : List Leaf) : later.perform i leaves = part.perform (n + i) leaves := by
  induction leaves generalizing i with
  | nil => rfl
  | cons leaf leaves ih =>
    rw [perform_cons, perform_cons, eventAt_resumes h, ih, Nat.add_assoc]

theorem perform_append (part : Part) (i : Nat) (leaves others : List Leaf) :
    part.perform i (leaves ++ others) =
      part.perform i leaves ++ part.perform (i + (leaves.map Leaf.mark).count .note) others := by
  induction leaves generalizing i with
  | nil => rfl
  | cons leaf leaves ih =>
    have hcount : ((leaf :: leaves).map Leaf.mark).count .note =
        [leaf.mark].count .note + (leaves.map Leaf.mark).count .note := by
      rw [List.map_cons, ← List.singleton_append, List.count_append]
    rw [List.cons_append, perform_cons, perform_cons, ih, hcount, List.cons_append, Nat.add_assoc]

end Part

end RhythmClip
