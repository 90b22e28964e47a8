import RhythmClip.Proofs.CommandTable
import Mathlib.Data.List.Induction

/-!
# The longest name wins

A table is built by registering entries one after the other, and keeps the
longer names in front. Names of one length stay in the order in which they
were registered (`filter_ofList`), so a table is its entries in stable order,
and the first entry that fits a line is the earliest registered one of the
longest that fit.

* `entries_register_eq_mergeSort`: registering sorts the new entry in, stably.
* `chosen_of_lookup`, `Chosen.unique`: what is found is the one entry to be chosen.
* `lookup_ofList_eq_some_iff`: a table finds just that.
-/
namespace RhythmClip.CommandTable

open Text

variable {α β : Type}

/-! ## The order of a table -/

/-- The name of the entry has the given length in bytes. -/
def hasLength (n : Nat) (entry : String × α) : Bool := entry.1.utf8ByteSize = n

/-- A new entry comes behind those that are as long. -/
theorem filter_insert (n : Nat) (entry : String × α) {es : List (String × α)}
    (h : es.Pairwise fun a b => b.1.utf8ByteSize ≤ a.1.utf8ByteSize) :
    (insert entry es).filter (hasLength n) = (es ++ [entry]).filter (hasLength n) := by
  induction es with
  | nil => rfl
  | cons e es ih =>
    obtain ⟨he, hes⟩ := List.pairwise_cons.1 h
    unfold insert
    split
    · rename_i hlt
      -- all that is left is shorter than the new entry
      by_cases hn : entry.1.utf8ByteSize = n
      · have hnone : (e :: es).filter (hasLength n) = [] := by
          refine List.filter_eq_nil_iff.2 fun a ha => ?_
          have hle : a.1.utf8ByteSize ≤ e.1.utf8ByteSize := by
            rcases List.mem_cons.1 ha with rfl | ha
            · exact Nat.le_refl _
            · exact he a ha
          simp only [hasLength, decide_eq_true_eq]
          omega
        rw [List.filter_cons, List.filter_append, hnone]
        simp [hasLength, hn]
      · simp [hasLength, hn, List.filter_cons]
    · rw [List.cons_append, List.filter_cons, List.filter_cons, ih hes]

theorem ofList_append_singleton (es : List (String × α)) (entry : String × α) :
    ofList (es ++ [entry]) = (ofList es).register entry := by
  rw [ofList, List.foldl_append]
  rfl

theorem sorted_ofList (es : List (String × α)) : (ofList es).Sorted := by
  induction es using List.reverseRecOn with
  | nil => exact List.Pairwise.nil
  | append_singleton es entry ih =>
    rw [ofList_append_singleton]
    exact sorted_register ih entry

theorem perm_ofList (es : List (String × α)) : (ofList es).entries.Perm es := by
  induction es using List.reverseRecOn with
  | nil => exact .refl _
  | append_singleton es entry ih =>
    rw [ofList_append_singleton]
    have hfront : ((ofList es).register entry).entries.Perm (entry :: es) :=
      (perm_register _ entry).trans (ih.cons entry)
    exact hfront.trans (List.perm_append_singleton entry es).symm

/-- Entries of one length stay in the order in which they were registered. -/
theorem filter_ofList (n : Nat) (es : List (String × α)) :
    (ofList es).entries.filter (hasLength n) = es.filter (hasLength n) := by
  induction es using List.reverseRecOn with
  | nil => rfl
  | append_singleton es entry ih =>
    rw [ofList_append_singleton, register, filter_insert n entry (sorted_ofList es)]
    rw [List.filter_append, List.filter_append, ih]

/-! ## Sorting -/

theorem mem_iff_of_filter {es fs : List (String × α)}
    (h : ∀ n, es.filter (hasLength n) = fs.filter (hasLength n)) (e : String × α) :
    e ∈ es ↔ e ∈ fs := by
  have hiff : e ∈ es.filter (hasLength e.1.utf8ByteSize) ↔
      e ∈ fs.filter (hasLength e.1.utf8ByteSize) := by rw [h]
  simpa [List.mem_filter, hasLength] using hiff

theorem length_le_of_mem {e f : String × α} {fs : List (String × α)}
    (h : (f :: fs).Pairwise fun a b => b.1.utf8ByteSize ≤ a.1.utf8ByteSize) (he : e ∈ f :: fs) :
    e.1.utf8ByteSize ≤ f.1.utf8ByteSize := by
  rcases List.mem_cons.1 he with rfl | he
  · exact Nat.le_refl _
  · exact (List.pairwise_cons.1 h).1 e he

/-- Entries in order are known from the entries of each length. -/
theorem eq_of_filter_hasLength {es fs : List (String × α)}
    (hes : es.Pairwise fun a b => b.1.utf8ByteSize ≤ a.1.utf8ByteSize)
    (hfs : fs.Pairwise fun a b => b.1.utf8ByteSize ≤ a.1.utf8ByteSize)
    (h : ∀ n, es.filter (hasLength n) = fs.filter (hasLength n)) : es = fs := by
  induction es generalizing fs with
  | nil =>
    cases fs with
    | nil => rfl
    | cons f fs => exact absurd ((mem_iff_of_filter h f).2 List.mem_cons_self) List.not_mem_nil
  | cons e es ih =>
    cases fs with
    | nil => exact absurd ((mem_iff_of_filter h e).1 List.mem_cons_self) List.not_mem_nil
    | cons f fs =>
      -- each head is at least as long as the other, so both begin the entries of one length
      have hlen : f.1.utf8ByteSize = e.1.utf8ByteSize :=
        Nat.le_antisymm
          (length_le_of_mem hes ((mem_iff_of_filter h f).2 List.mem_cons_self))
          (length_le_of_mem hfs ((mem_iff_of_filter h e).1 List.mem_cons_self))
      have hhead := h e.1.utf8ByteSize
      rw [List.filter_cons_of_pos (by simp [hasLength]),
        List.filter_cons_of_pos (by simp [hasLength, hlen])] at hhead
      obtain rfl := (List.cons.inj hhead).1
      refine congrArg _ (ih hes.of_cons hfs.of_cons fun n => ?_)
      have hn := h n
      rw [List.filter_cons, List.filter_cons] at hn
      split at hn
      · exact (List.cons.inj hn).2
      · exact hn

/-- The first name is at least as long as the second. -/
def isLonger (a b : String × α) : Bool := b.1.utf8ByteSize ≤ a.1.utf8ByteSize

theorem isLonger_trans (a b c : String × α) (hab : isLonger a b = true)
    (hbc : isLonger b c = true) : isLonger a c = true :=
  decide_eq_true (Nat.le_trans (of_decide_eq_true hbc) (of_decide_eq_true hab))

theorem isLonger_total (a b : String × α) : (isLonger a b || isLonger b a) = true := by
  simp only [isLonger, Bool.or_eq_true, decide_eq_true_eq]
  exact Nat.le_total _ _

theorem pairwise_mergeSort_isLonger (es : List (String × α)) :
    (es.mergeSort isLonger).Pairwise fun a b => b.1.utf8ByteSize ≤ a.1.utf8ByteSize :=
  (List.pairwise_mergeSort isLonger_trans isLonger_total es).imp of_decide_eq_true

/-- Merge sort is stable: entries of one length are a sorted part of the list. -/
theorem filter_mergeSort_isLonger (n : Nat) (es : List (String × α)) :
    (es.mergeSort isLonger).filter (hasLength n) = es.filter (hasLength n) := by
  have hpart : (es.filter (hasLength n)).Sublist (es.mergeSort isLonger) := by
    refine List.sublist_mergeSort isLonger_trans isLonger_total ?_ List.filter_sublist
    refine List.pairwise_of_forall_mem_list fun a ha b hb => ?_
    have hla : a.1.utf8ByteSize = n := by simpa [hasLength] using (List.mem_filter.1 ha).2
    have hlb : b.1.utf8ByteSize = n := by simpa [hasLength] using (List.mem_filter.1 hb).2
    exact decide_eq_true (by omega)
  have hsub := hpart.filter (hasLength n)
  rw [List.filter_filter] at hsub
  simp only [Bool.and_self] at hsub
  exact (hsub.eq_of_length ((List.mergeSort_perm es isLonger).filter _).length_eq.symm).symm

/-- To register an entry is to put it at the end and to sort by length, stably. -/
theorem entries_register_eq_mergeSort {t : CommandTable α} (h : t.Sorted) (entry : String × α) :
    (t.register entry).entries = (t.entries ++ [entry]).mergeSort isLonger := by
  refine eq_of_filter_hasLength (sorted_register h entry) (pairwise_mergeSort_isLonger _) fun n => ?_
  rw [filter_mergeSort_isLonger]
  exact filter_insert n entry h

/-! ## The entry of a line -/

/-- The line is the name, or goes on after it with a space; the remainder is what comes behind. -/
def Fits (line name remainder : String) : Prop :=
  line = name ++ remainder ∧ (remainder = "" ∨ ∃ more, remainder = " " ++ more)

theorem argument?_eq_some_iff_fits (name line arg : String) :
    argument? name line = some arg ↔ ∃ remainder, Fits line name remainder ∧ arg = trim remainder := by
  rw [argument?_eq_some_iff]
  constructor
  · rintro (⟨rfl, rfl⟩ | ⟨rest, rfl, rfl⟩)
    · exact ⟨"", ⟨by simp, .inl rfl⟩, by decide +kernel⟩
    · exact ⟨" " ++ rest, ⟨by rw [String.append_assoc], .inr ⟨rest, rfl⟩⟩, (trim_space rest).symm⟩
  · rintro ⟨remainder, ⟨rfl, rfl | ⟨more, rfl⟩⟩, rfl⟩
    · exact .inl ⟨by simp, by decide +kernel⟩
    · exact .inr ⟨more, by rw [String.append_assoc], trim_space more⟩

/-- The entry fits the line, is at least as long as all that do, and was
registered before the others of its length. -/
structure Chosen (registered : List (String × α)) (line name : String) (command : α)
    (remainder : String) : Prop where
  fits : Fits line name remainder
  first : ∃ earlier later, registered = earlier ++ (name, command) :: later ∧
    (∀ e ∈ earlier, (∃ r, Fits line e.1 r) → e.1.utf8ByteSize < name.utf8ByteSize) ∧
    ∀ e ∈ later, (∃ r, Fits line e.1 r) → e.1.utf8ByteSize ≤ name.utf8ByteSize

/-- The entry fits the line, as the look-up finds out. -/
def fits (line : String) (entry : String × α) : Bool := (argument? entry.1 line).isSome

theorem fits_iff (line : String) (entry : String × α) :
    fits line entry = true ↔ ∃ r, Fits line entry.1 r := by
  rw [fits, Option.isSome_iff_exists]
  constructor
  · rintro ⟨arg, h⟩
    obtain ⟨r, hr, -⟩ := (argument?_eq_some_iff_fits _ _ _).1 h
    exact ⟨r, hr⟩
  · rintro ⟨r, hr⟩
    exact ⟨_, (argument?_eq_some_iff_fits _ _ _).2 ⟨r, hr, rfl⟩⟩

theorem chosen_of_lookup {registered : List (String × α)} {line arg : String} {command : α}
    (h : (ofList registered).lookup line = some (command, arg)) :
    ∃ name remainder, Chosen registered line name command remainder ∧ arg = trim remainder := by
  obtain ⟨front, ⟨name, c⟩, back, hsplit, hfound, hnone⟩ := List.findSome?_eq_some_iff.1 h
  obtain ⟨arg', harg, he⟩ := Option.map_eq_some_iff.1 hfound
  cases he
  obtain ⟨remainder, hfits, rfl⟩ := (argument?_eq_some_iff_fits _ _ _).1 harg
  -- nothing in front of the entry fits, and nothing behind it is longer
  have hfront : ∀ e ∈ front, fits line e = false := by
    intro e he
    simpa [fits] using hnone e he
  have hlong : ∀ e ∈ registered, fits line e = true → e.1.utf8ByteSize ≤ name.utf8ByteSize := by
    intro e he hfit
    have hmem := (perm_ofList registered).mem_iff.2 he
    have hsorted := sorted_ofList registered
    rw [hsplit] at hmem
    rw [Sorted, hsplit, List.pairwise_append] at hsorted
    rcases List.mem_append.1 hmem with hmem | hmem
    · rw [hfront e hmem] at hfit
      cases hfit
    · exact length_le_of_mem hsorted.2.1 hmem
  -- so it is the first of its length in the table, and was the first registered
  have hfind : (ofList registered).entries.find?
      (fun e => hasLength name.utf8ByteSize e ∧ fits line e) = some (name, command) := by
    refine List.find?_eq_some_iff_append.2 ⟨?_, front, back, hsplit, fun e he => ?_⟩
    · simp [hasLength, fits, harg]
    · simp [hfront e he]
  rw [← List.find?_filter, filter_ofList, List.find?_filter] at hfind
  obtain ⟨-, earlier, later, hreg, hearlier⟩ := List.find?_eq_some_iff_append.1 hfind
  refine ⟨name, remainder, ⟨hfits, earlier, later, hreg, fun e he hfit => ?_, fun e he hfit => ?_⟩, rfl⟩
  · have hfit := (fits_iff line e).2 hfit
    have hle := hlong e (by rw [hreg]; exact List.mem_append_left _ he) hfit
    have hne : e.1.utf8ByteSize ≠ name.utf8ByteSize := by
      simpa [hasLength, hfit] using hearlier e he
    omega
  · exact hlong e (by rw [hreg]; simp [he]) ((fits_iff line e).2 hfit)

theorem Fits.remainder_unique {line name r r' : String} (h : Fits line name r)
    (h' : Fits line name r') : r' = r := by
  have he := h.1.symm.trans h'.1
  exact (String.append_right_inj name).1 he.symm

theorem Chosen.unique {registered : List (String × α)} {line name name' r r' : String}
    {command command' : α} (h : Chosen registered line name command r)
    (h' : Chosen registered line name' command' r') :
    name' = name ∧ command' = command ∧ r' = r := by
  obtain ⟨earlier, later, hreg, hearlier, hlater⟩ := h.first
  obtain ⟨earlier', later', hreg', hearlier', hlater'⟩ := h'.first
  have hentry : (name', command') = (name, command) := by
    rcases List.append_eq_append_iff.1 (hreg.symm.trans hreg') with ⟨more, rfl, he⟩ | ⟨more, rfl, he⟩
    · cases more with
      | nil => exact (List.cons.inj he).1.symm
      | cons e more =>
        obtain ⟨rfl, rfl⟩ := List.cons.inj he
        have hlt := hearlier' (name, command) (by simp) ⟨r, h.fits⟩
        have hle := hlater (name', command') (by simp) ⟨r', h'.fits⟩
        exact absurd hle (Nat.not_le_of_lt hlt)
    · cases more with
      | nil => exact (List.cons.inj he).1
      | cons e more =>
        obtain ⟨rfl, rfl⟩ := List.cons.inj he
        have hlt := hearlier (name', command') (by simp) ⟨r', h'.fits⟩
        have hle := hlater' (name, command) (by simp) ⟨r, h.fits⟩
        exact absurd hle (Nat.not_le_of_lt hlt)
  cases hentry
  exact ⟨rfl, rfl, h.fits.remainder_unique h'.fits⟩

/-- A table finds the entry to be chosen, with the trimmed remainder as argument. -/
theorem lookup_ofList_eq_some_iff (registered : List (String × α)) (line arg : String)
    (command : α) :
    (ofList registered).lookup line = some (command, arg) ↔
      ∃ name remainder, Chosen registered line name command remainder ∧ arg = trim remainder := by
  refine ⟨chosen_of_lookup, ?_⟩
  rintro ⟨name, remainder, hc, rfl⟩
  have hmem : (name, command) ∈ (ofList registered).entries := by
    obtain ⟨earlier, later, hreg, -⟩ := hc.first
    exact (perm_ofList registered).mem_iff.2 (by rw [hreg]; simp)
  have hasked := (argument?_eq_some_iff _ _ _).1
    ((argument?_eq_some_iff_fits name line _).2 ⟨remainder, hc.fits, rfl⟩)
  obtain ⟨⟨command', arg'⟩, hfound⟩ := exists_lookup hmem hasked
  obtain ⟨name', remainder', hc', rfl⟩ := chosen_of_lookup hfound
  obtain ⟨rfl, rfl, rfl⟩ := hc.unique hc'
  exact hfound

theorem lookup_ofList_eq_none_iff (registered : List (String × α)) (line : String) :
    (ofList registered).lookup line = none ↔
      ∀ e ∈ registered, ¬∃ remainder, Fits line e.1 remainder := by
  rw [lookup, List.findSome?_eq_none_iff]
  have hnone : ∀ e : String × α,
      ((argument? e.1 line).map fun arg => (e.2, arg)) = none ↔ ¬∃ r, Fits line e.1 r := by
    intro e
    rw [← fits_iff, fits]
    cases argument? e.1 line <;> simp
  constructor
  · intro h e he
    exact (hnone e).1 (h e ((perm_ofList registered).mem_iff.2 he))
  · intro h e he
    exact (hnone e).2 (h e ((perm_ofList registered).mem_iff.1 he))

end RhythmClip.CommandTable
