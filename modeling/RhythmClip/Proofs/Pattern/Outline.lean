import RhythmClip.Pattern.Outline
import RhythmClip.Proofs.Pattern.Notation

/-!
# What an outline says

An outline is enough to build the pattern again, and the counts in a line are
those of the lines below it: the ones that follow it up to the next that is not
deeper. A row is outlined in front of lines that are less deep than its slots
(`Shallow`), so its own lines end where these begin.

* `outlineFrom_append_injective`, `outline_injective`: two patterns with one
  outline are the same.
* `below_outlineFrom`: the lines of a group are those below its line.
* `counted_outline`: each line counts what is below it.
* `join_slotTexts`: the texts of the slots, groups in brackets, make up the row.
-/
namespace RhythmClip

namespace OutlineLine

/-- The mark of a slot that holds one. -/
def mark? (line : OutlineLine) : Option Mark :=
  match line.shape with
  | .mark m => some m
  | .group => none

/-- What stands for a slot whose text is given. -/
def enclose (line : OutlineLine) (text : String) : String :=
  match line.shape with
  | .mark _ => text
  | .group => "[" ++ text ++ "]"

/-- The lines below a line, in what follows it. -/
def below (line : OutlineLine) (later : List OutlineLine) : List OutlineLine :=
  later.takeWhile fun l => line.depth < l.depth

/-- The counts of the line, told from the lines below it: a mark has none below
and is a leaf itself; the slots of a group stand one deeper than it does. -/
def Tells (line : OutlineLine) (lines : List OutlineLine) : Prop :=
  match line.shape with
  | .mark m =>
    lines = [] ∧ line.children = 0 ∧ line.leaves = 1 ∧ line.notes = [m].count .note
  | .group =>
    line.children = lines.countP (fun l => l.depth = line.depth + 1) ∧
      line.leaves = (lines.filterMap mark?).length ∧
      line.notes = (lines.filterMap mark?).count .note

end OutlineLine

namespace Pattern

open OutlineLine

@[simp] theorem mark?_markLine (depth : Nat) (m : Mark) : (markLine depth m).mark? = some m := rfl

@[simp] theorem mark?_groupLine (depth : Nat) (p : Pattern) : (groupLine depth p).mark? = none :=
  rfl

@[simp] theorem depth_markLine (depth : Nat) (m : Mark) : (markLine depth m).depth = depth := rfl

@[simp] theorem depth_groupLine (depth : Nat) (p : Pattern) : (groupLine depth p).depth = depth :=
  rfl

variable {p q : Pattern} {depth : Nat} {lines later u v : List OutlineLine}

/-- The lines do not begin with one that is as deep as this. -/
def Shallow (depth : Nat) (lines : List OutlineLine) : Prop :=
  ∀ l ∈ lines.head?, l.depth < depth

theorem shallow_nil : Shallow depth [] := fun _ h => nomatch h

theorem outlineFrom_nil (depth : Nat) : nil.outlineFrom depth = [] := rfl

/-- The lines of a group come before those of the rest of the row. -/
theorem outlineFrom_group_append (inner rest : Pattern) (depth : Nat) (later : List OutlineLine) :
    (group inner rest).outlineFrom depth ++ later =
      inner.groupLine depth ::
        (inner.outlineFrom (depth + 1) ++ (rest.outlineFrom depth ++ later)) := by
  rw [outlineFrom, List.cons_append, List.append_assoc]

/-- The row itself is outlined as a group that nothing follows. -/
theorem outline_eq (p : Pattern) : p.outline = (group p nil).outlineFrom 0 ++ [] := by
  rw [outlineFrom_group_append, outlineFrom, List.append_nil, List.append_nil, outline]

theorem shallow_outlineFrom (p : Pattern) (h : Shallow depth later) :
    Shallow (depth + 1) (p.outlineFrom depth ++ later) := by
  cases p with
  | nil => exact fun l hl => Nat.lt_succ_of_lt (h l hl)
  | mark m rest | group inner rest =>
    intro l hl
    cases hl
    exact Nat.lt_succ_self depth

theorem le_depth_of_mem_outlineFrom {l : OutlineLine} (h : l ∈ p.outlineFrom depth) :
    depth ≤ l.depth := by
  induction p generalizing depth with
  | nil => cases h
  | mark m rest ih =>
    rcases List.mem_cons.1 h with rfl | h
    · exact Nat.le_refl depth
    · exact ih h
  | group inner rest ihi ih =>
    rcases List.mem_cons.1 h with rfl | h
    · exact Nat.le_refl depth
    · rcases List.mem_append.1 h with h | h
      · exact Nat.le_of_succ_le (ihi h)
      · exact ih h

/-! ## The pattern of an outline -/

theorem not_shallow_cons {l : OutlineLine} (hl : l.depth = depth) : ¬Shallow depth (l :: lines) :=
  fun h => Nat.lt_irrefl depth (hl ▸ h l rfl)

/-- A row ends where its depth does, so that its lines can be told from what
comes after them. -/
theorem outlineFrom_append_injective (hu : Shallow depth u) (hv : Shallow depth v)
    (h : p.outlineFrom depth ++ u = q.outlineFrom depth ++ v) : p = q ∧ u = v := by
  -- slot by slot; a row that ended earlier would be followed by a line of its own depth
  induction p generalizing q depth u v with
  | nil =>
    cases q with
    | nil => exact ⟨rfl, h⟩
    | mark m' rest' | group inner' rest' =>
      rw [outlineFrom, List.nil_append] at h
      exact absurd (h ▸ hu) (not_shallow_cons rfl)
  | mark m rest ih =>
    cases q with
    | nil =>
      rw [outlineFrom_nil, List.nil_append] at h
      exact absurd (h ▸ hv) (not_shallow_cons rfl)
    | mark m' rest' =>
      obtain ⟨hline, hrest⟩ := List.cons.inj h
      obtain rfl : m = m' := SlotShape.mark.inj (congrArg OutlineLine.shape hline)
      obtain ⟨rfl, rfl⟩ := ih hu hv hrest
      exact ⟨rfl, rfl⟩
    | group inner' rest' => cases congrArg OutlineLine.shape (List.cons.inj h).1
  | group inner rest ihi ih =>
    cases q with
    | nil =>
      rw [outlineFrom_nil, List.nil_append] at h
      exact absurd (h ▸ hv) (not_shallow_cons rfl)
    | mark m' rest' => cases congrArg OutlineLine.shape (List.cons.inj h).1
    | group inner' rest' =>
      rw [outlineFrom_group_append, outlineFrom_group_append] at h
      obtain ⟨-, hrows⟩ := List.cons.inj h
      obtain ⟨rfl, hrest⟩ := ihi (shallow_outlineFrom rest hu) (shallow_outlineFrom rest' hv) hrows
      obtain ⟨rfl, rfl⟩ := ih hu hv hrest
      exact ⟨rfl, rfl⟩

/-- **An outline is of one pattern only.** -/
theorem outline_injective {p q : Pattern} (h : p.outline = q.outline) : p = q := by
  rw [outline_eq, outline_eq] at h
  exact (Pattern.group.inj (outlineFrom_append_injective shallow_nil shallow_nil h).1).1

/-! ## Counts -/

theorem below_of_shallow {line : OutlineLine} (h : Shallow (line.depth + 1) later) :
    line.below later = [] := by
  cases later with
  | nil => rfl
  | cons l later =>
    have hl : ¬line.depth < l.depth := Nat.not_lt.2 (Nat.le_of_lt_succ (h l rfl))
    rw [below, List.takeWhile_cons, if_neg (by simpa using hl)]

/-- The lines below that of a group are those of the row in it. -/
theorem below_outlineFrom (p : Pattern) (h : Shallow (depth + 1) later) :
    (p.groupLine depth).below (p.outlineFrom (depth + 1) ++ later) = p.outlineFrom (depth + 1) := by
  have hstop : (p.groupLine depth).below later = [] := below_of_shallow h
  rw [below] at hstop ⊢
  rw [List.takeWhile_append_of_pos, hstop, List.append_nil]
  exact fun l hl => decide_eq_true (le_depth_of_mem_outlineFrom hl)

theorem filterMap_mark?_outlineFrom (p : Pattern) (depth : Nat) :
    (p.outlineFrom depth).filterMap mark? = p.marks := by
  induction p generalizing depth with
  | nil => rfl
  | mark m rest ih => rw [outlineFrom, List.filterMap_cons_some (mark?_markLine depth m), ih, marks]
  | group inner rest ihi ih =>
    rw [outlineFrom, List.filterMap_cons_none (mark?_groupLine depth inner),
      List.filterMap_append, ihi, ih, marks]

theorem filter_depth_outlineFrom_succ (p : Pattern) (depth : Nat) :
    (p.outlineFrom (depth + 1)).filter (fun l => l.depth = depth) = [] := by
  rw [List.filter_eq_nil_iff]
  intro l hl
  have hle := le_depth_of_mem_outlineFrom hl
  simp only [decide_eq_true_eq]
  omega

theorem countP_depth_outlineFrom (p : Pattern) (depth : Nat) :
    (p.outlineFrom depth).countP (fun l => l.depth = depth) = p.slots := by
  rw [List.countP_eq_length_filter]
  induction p with
  | nil => rfl
  | mark m rest ih => rw [outlineFrom, List.filter_cons_of_pos (by simp), List.length_cons, ih, slots]
  | group inner rest _ ih =>
    rw [outlineFrom, List.filter_cons_of_pos (by simp), List.filter_append,
      filter_depth_outlineFrom_succ, List.nil_append, List.length_cons, ih, slots]

/-- What the line of a group says of the row in it. -/
theorem tells_groupLine (p : Pattern) (depth : Nat) :
    (p.groupLine depth).Tells (p.outlineFrom (depth + 1)) := by
  refine ⟨(p.countP_depth_outlineFrom (depth + 1)).symm, ?_, ?_⟩
  · rw [filterMap_mark?_outlineFrom, length_marks]
    rfl
  · rw [filterMap_mark?_outlineFrom, count_marks]
    rfl

/-- Every line tells the lines below it. -/
def Counted : List OutlineLine → Prop
  | [] => True
  | line :: later => line.Tells (line.below later) ∧ Counted later

theorem counted_outlineFrom (p : Pattern) (hs : Shallow depth later) (hc : Counted later) :
    Counted (p.outlineFrom depth ++ later) := by
  induction p generalizing depth later with
  | nil => exact hc
  | mark m rest ih =>
    have hbelow : (markLine depth m).below (rest.outlineFrom depth ++ later) = [] :=
      below_of_shallow (shallow_outlineFrom rest hs)
    refine ⟨⟨hbelow, rfl, rfl, ?_⟩, ih hs hc⟩
    cases m <;> rfl
  | group inner rest ihi ih =>
    have hstop := shallow_outlineFrom rest hs
    rw [outlineFrom_group_append]
    refine ⟨?_, ihi hstop (ih hs hc)⟩
    rw [below_outlineFrom inner hstop]
    exact tells_groupLine inner depth

/-- **An outline counts right.** -/
theorem counted_outline (p : Pattern) : Counted p.outline := by
  rw [outline_eq]
  exact counted_outlineFrom _ shallow_nil trivial

/-! ## Texts -/

theorem join_slotTextsFrom (p : Pattern) (depth : Nat) :
    String.join (List.zipWith enclose ((p.outlineFrom depth).filter fun l => l.depth = depth)
      p.slotTexts) = p.text := by
  induction p with
  | nil => rfl
  | mark m rest ih =>
    have htext : (mark m rest).text = (mark m nil).text ++ rest.text := text_append (mark m nil) rest
    rw [outlineFrom, List.filter_cons_of_pos (by simp), slotTexts, List.zipWith_cons_cons,
      String.join_cons, ih, htext]
    rfl
  | group inner rest _ ih =>
    have htext : (group inner rest).text = (group inner nil).text ++ rest.text :=
      text_append (group inner nil) rest
    rw [outlineFrom, List.filter_cons_of_pos (by simp), List.filter_append,
      filter_depth_outlineFrom_succ, List.nil_append, slotTexts, List.zipWith_cons_cons,
      String.join_cons, ih, htext, text_group]
    rfl

/-- **The slots make up the row.** Their texts, each with the brackets of the
group that its line is of, are the text of the row. -/
theorem join_slotTexts (p : Pattern) :
    String.join (List.zipWith enclose (p.outline.filter fun l => l.depth = 1) p.slotTexts) =
      p.text := by
  rw [outline, List.filter_cons_of_neg (by simp), join_slotTextsFrom]

end Pattern

end RhythmClip
