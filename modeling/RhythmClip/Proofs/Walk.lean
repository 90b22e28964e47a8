import Mathlib.Data.List.Forall2

/-!
# Walks

A walk takes the items of a list from front to back. It ends well with an image
for each item, in order, or it stops at the first item that has none. Where
failures tell why, that of this item is the one of the walk (`FirstError`).

* `mapM_eq_some_iff_forall₂`, `mapM_eq_ok_iff_forall₂`: what a walk ends well with.
* `mapM_eq_some_iff`: reading back what is written item by item.
* `exists_mapM_iff`, `mapM_eq_error_iff`: when it ends well, and how else.
-/
namespace RhythmClip

variable {α β ε : Type}

/-! ## Without a reason -/

theorem mapM_eq_some_iff_forall₂ (f : α → Option β) (as : List α) (bs : List β) :
    as.mapM f = some bs ↔ List.Forall₂ (fun a b => f a = some b) as bs := by
  induction as generalizing bs with
  | nil => simp [eq_comm]
  | cons a as ih =>
    rw [List.mapM_cons, List.forall₂_cons_left_iff]
    simp only [Option.bind_eq_bind, Option.bind_eq_some_iff, ← ih]
    constructor
    · rintro ⟨b, hb, rest, hrest, he⟩
      cases he
      exact ⟨b, rest, hb, hrest, rfl⟩
    · rintro ⟨b, rest, hb, hrest, rfl⟩
      exact ⟨b, hb, rest, hrest, rfl⟩

theorem exists_mapM_iff (f : α → Option β) (as : List α) :
    (∃ bs, as.mapM f = some bs) ↔ ∀ a ∈ as, ∃ b, f a = some b := by
  induction as with
  | nil => simp
  | cons a as ih =>
    rw [List.forall_mem_cons, ← ih]
    simp only [mapM_eq_some_iff_forall₂, List.forall₂_cons_left_iff]
    constructor
    · rintro ⟨_, b, bs, hb, hbs, rfl⟩
      exact ⟨⟨b, hb⟩, bs, hbs⟩
    · rintro ⟨⟨b, hb⟩, bs, hbs⟩
      exact ⟨_, b, bs, hb, hbs, rfl⟩

theorem mapM_eq_some_iff {read : β → Option α} {write : α → β}
    (h : ∀ a b, read b = some a ↔ b = write a) {as : List α} {bs : List β} :
    bs.mapM read = some as ↔ bs = as.map write := by
  simp only [mapM_eq_some_iff_forall₂, h]
  rw [← List.forall₂_eq_eq_eq, List.forall₂_map_right_iff]

/-! ## With a reason -/

/-- The first item that fails, and how; all before it have an image. -/
def FirstError (f : α → Except ε β) (as : List α) (e : ε) : Prop :=
  ∃ before a behind, as = before ++ a :: behind ∧ (∀ b ∈ before, ∃ c, f b = .ok c) ∧
    f a = .error e

variable {f : α → Except ε β}

theorem not_firstError_nil (e : ε) : ¬FirstError f [] e := by
  rintro ⟨before, a, behind, h, -⟩
  simp at h

theorem firstError_cons_of_error {a : α} {e : ε} (h : f a = .error e) (as : List α) (e' : ε) :
    FirstError f (a :: as) e' ↔ e = e' := by
  constructor
  · rintro ⟨_ | ⟨b, before⟩, a', behind, hcut, hbefore, he⟩
    · cases hcut
      exact Except.error.inj (h.symm.trans he)
    · cases hcut
      obtain ⟨c, hc⟩ := hbefore a (List.mem_cons_self ..)
      rw [h] at hc
      cases hc
  · rintro rfl
    exact ⟨[], a, as, rfl, nofun, h⟩

theorem firstError_cons_of_ok {a : α} {b : β} (h : f a = .ok b) (as : List α) (e : ε) :
    FirstError f (a :: as) e ↔ FirstError f as e := by
  constructor
  · rintro ⟨_ | ⟨b, before⟩, a', behind, hcut, hbefore, he⟩
    · cases hcut
      rw [h] at he
      cases he
    · cases hcut
      exact ⟨before, a', behind, rfl, (List.forall_mem_cons.1 hbefore).2, he⟩
  · rintro ⟨before, a', behind, rfl, hbefore, he⟩
    exact ⟨a :: before, a', behind, rfl, List.forall_mem_cons.2 ⟨⟨b, h⟩, hbefore⟩, he⟩

theorem mapM_cons_of_error {a : α} {e : ε} (h : f a = .error e) (as : List α) :
    (a :: as).mapM f = .error e := by
  rw [List.mapM_cons, h]
  rfl

theorem mapM_cons_of_ok {a : α} {b : β} (h : f a = .ok b) (as : List α) :
    (a :: as).mapM f = (as.mapM f).map (b :: ·) := by
  rw [List.mapM_cons, h]
  cases as.mapM f <;> rfl

theorem mapM_eq_error_iff (as : List α) (e : ε) :
    as.mapM f = .error e ↔ FirstError f as e := by
  induction as with
  | nil => exact ⟨nofun, fun h => absurd h (not_firstError_nil e)⟩
  | cons a as ih =>
    cases h : f a with
    | error e' =>
      rw [mapM_cons_of_error h, firstError_cons_of_error h, Except.error.injEq]
    | ok b =>
      rw [mapM_cons_of_ok h, firstError_cons_of_ok h, ← ih]
      cases as.mapM f <;> simp [Except.map]

theorem mapM_eq_ok_iff_forall₂ (as : List α) (bs : List β) :
    as.mapM f = .ok bs ↔ List.Forall₂ (fun a b => f a = .ok b) as bs := by
  induction as generalizing bs with
  | nil => simp [pure, Except.pure, eq_comm]
  | cons a as ih =>
    rw [List.forall₂_cons_left_iff]
    cases h : f a with
    | error e => simp [mapM_cons_of_error h]
    | ok b =>
      simp only [mapM_cons_of_ok h, Except.ok.injEq, ← ih]
      cases as.mapM f <;> simp [Except.map, eq_comm]

theorem exists_of_forall₂ {as : List α} {bs : List β}
    (h : List.Forall₂ (fun a b => f a = .ok b) as bs) : ∀ a ∈ as, ∃ b, f a = .ok b := by
  induction h with
  | nil => exact nofun
  | cons hab _ ih => exact List.forall_mem_cons.2 ⟨⟨_, hab⟩, ih⟩

end RhythmClip
