import RhythmClip.Proofs.Json.RoundTrip

/-!
# Control characters in JSON

A text is written with its control characters escaped, and numbers and names
have none. So the only control characters in what is written are the line
breaks of the spread layout.

* `isClear_escape`: a text in its escapes.
* `isClear_writeChars`: a value in either layout.
-/
namespace RhythmClip.Json

/-- There is no control character but line breaks. -/
def IsClear (cs : List Char) : Prop := ∀ c ∈ cs, c = '\n' ∨ 0x20 ≤ c.toNat

instance (cs : List Char) : Decidable (IsClear cs) :=
  List.decidableBAll (fun c => c = '\n' ∨ 0x20 ≤ c.toNat) cs

theorem isClear_cons_iff {c : Char} {cs : List Char} :
    IsClear (c :: cs) ↔ (c = '\n' ∨ 0x20 ≤ c.toNat) ∧ IsClear cs := List.forall_mem_cons

theorem isClear_append_iff {cs ds : List Char} :
    IsClear (cs ++ ds) ↔ IsClear cs ∧ IsClear ds := List.forall_mem_append

theorem isClear_escapeChar (c : Char) : IsClear (escapeChar c) := by
  unfold escapeChar
  split
  case h_8 =>
    split
    · rename_i h
      have hall : ∀ n < 32, IsClear
          ['\\', 'u', '0', '0', Nat.digitChar (n / 16), Nat.digitChar (n % 16)] := by decide
      exact hall _ h
    · rename_i h
      exact List.forall_mem_singleton.2 (.inr (Nat.le_of_not_lt h))
  all_goals decide

theorem isClear_escape (cs : List Char) : IsClear (escape cs) := by
  intro c hc
  obtain ⟨d, -, hd⟩ := List.mem_flatMap.1 hc
  exact isClear_escapeChar d c hd

theorem isClear_quoted (content : Option String) : IsClear (quoted content) := by
  cases content with
  | none => decide
  | some s =>
    rw [quoted, isClear_cons_iff, isClear_append_iff]
    exact ⟨by decide, isClear_escape s.toList, by decide⟩

theorem isClear_of_isWord {cs : List Char} (h : IsWord cs) : IsClear cs := by
  have hall : ∀ n < 0x20, isWordChar (Char.ofNat n) = false := by decide
  intro c hc
  refine .inr (Nat.le_of_not_lt fun hlt => ?_)
  have hnot := hall c.toNat hlt
  rw [Char.ofNat_toNat, h c hc] at hnot
  cases hnot

theorem isClear_scalarChars {v : Scalar} (h : Proper [.scalar v]) : IsClear (scalarChars v) := by
  cases v with
  | null => decide
  | bool b => cases b <;> decide
  | number literal => exact isClear_of_isWord (isWord_of_isNumber (h literal List.mem_cons_self))
  | text content => exact isClear_quoted content

theorem isClear_line (style : Style) (depth : Nat) : IsClear (style.line depth) := by
  cases style with
  | compact => exact List.forall_mem_nil _
  | spread =>
    rw [Style.line, isClear_cons_iff]
    refine ⟨by decide, fun c hc => ?_⟩
    rw [List.eq_of_mem_replicate hc]
    decide

theorem isClear_gap (style : Style) : IsClear style.gap := by cases style <;> decide

mutual

theorem isClear_writeChars (style : Style) (depth : Nat) (v : Json) (h : Proper (tokens v)) :
    IsClear (writeChars style depth v) := by
  match v with
  | .scalar v => exact isClear_scalarChars h
  | .array [] => exact (by decide : IsClear ['[', ']'])
  | .array (v :: vs) =>
    simp only [tokens, proper_cons_iff, proper_append_iff] at h
    simp only [writeChars, isClear_cons_iff, isClear_append_iff]
    exact ⟨by decide, ⟨isClear_line style _, isClear_writeChars style _ v h.2.1⟩,
      isClear_writeItems style depth vs h.2.2⟩
  | .object [] => exact (by decide : IsClear ['{', '}'])
  | .object ((name, v) :: ms) =>
    simp only [tokens, proper_cons_iff, proper_append_iff] at h
    simp only [writeChars, isClear_cons_iff, isClear_append_iff]
    exact ⟨by decide, ⟨⟨⟨isClear_line style _, isClear_quoted name⟩, by decide, isClear_gap style⟩,
      isClear_writeChars style _ v h.2.2.2.1⟩, isClear_writeMembers style depth ms h.2.2.2.2⟩

theorem isClear_writeItems (style : Style) (depth : Nat) (vs : List Json)
    (h : Proper (itemTokens vs)) : IsClear (writeItems style depth vs) := by
  match vs with
  | [] => exact isClear_append_iff.2 ⟨isClear_line style depth, by decide⟩
  | v :: vs =>
    simp only [itemTokens, proper_cons_iff, proper_append_iff] at h
    simp only [writeItems, isClear_cons_iff, isClear_append_iff]
    exact ⟨by decide, ⟨isClear_line style _, isClear_writeChars style _ v h.2.1⟩,
      isClear_writeItems style depth vs h.2.2⟩

theorem isClear_writeMembers (style : Style) (depth : Nat) (ms : List Member)
    (h : Proper (memberTokens ms)) : IsClear (writeMembers style depth ms) := by
  match ms with
  | [] => exact isClear_append_iff.2 ⟨isClear_line style depth, by decide⟩
  | (name, v) :: ms =>
    simp only [memberTokens, proper_cons_iff, proper_append_iff] at h
    simp only [writeMembers, isClear_cons_iff, isClear_append_iff]
    exact ⟨by decide, ⟨⟨⟨isClear_line style _, isClear_quoted name⟩, by decide, isClear_gap style⟩,
      isClear_writeChars style _ v h.2.2.2.1⟩, isClear_writeMembers style depth ms h.2.2.2.2⟩

end

end RhythmClip.Json
