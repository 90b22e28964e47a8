import RhythmClip.CommandTable
import RhythmClip.Proofs.Text.Blank
import Mathlib.Data.List.Basic
import Mathlib.Data.List.TakeWhile

/-!
# Looking up a command

A line asks for a name when it is the name, or goes on after it with a space
and an argument. A name without a space is then the front of the line up to
its first space, so a line asks for one such name at most, and a table of such
names finds the command that the line asks for whatever the order of its
entries.

* `argument?_eq_some_iff`: the argument of a line after a name.
* `Asks.trimmed`: an argument has no blanks around it.
* `lookup_eq_some_iff`: a table of names without spaces finds just what is asked for.
-/
namespace RhythmClip.CommandTable

open Text

variable {α : Type}

/-- The line asks for a name, with an argument. -/
def Asks (line name arg : String) : Prop :=
  (line = name ∧ arg = "") ∨ ∃ rest, line = name ++ " " ++ rest ∧ arg = trim rest

theorem Asks.trimmed {line name arg : String} (h : Asks line name arg) : Trimmed arg := by
  rcases h with ⟨-, rfl⟩ | ⟨rest, -, rfl⟩
  · exact (trim_eq_self_iff "").1 rfl
  · exact trimmed_trim rest

theorem asks_space (name : String) {arg : String} (h : Trimmed arg) :
    Asks (name ++ " " ++ arg) name arg := .inr ⟨arg, rfl, (trim_of_trimmed h).symm⟩

theorem argument?_eq_some_iff (name line arg : String) :
    argument? name line = some arg ↔ Asks line name arg := by
  unfold argument? Asks
  constructor
  · intro h
    split at h
    · rename_i hp
      rw [List.isPrefixOf?_eq_some_iff_append_eq, List.append_nil] at hp
      cases h
      exact .inl ⟨(String.toList_inj.1 hp).symm, rfl⟩
    · rename_i rest hp
      rw [List.isPrefixOf?_eq_some_iff_append_eq] at hp
      cases h
      refine .inr ⟨String.ofList rest, String.toList_inj.1 ?_, rfl⟩
      simp [← hp]
    · cases h
  · rintro (⟨rfl, rfl⟩ | ⟨rest, rfl, rfl⟩)
    · have hp : line.toList.isPrefixOf? line.toList = some [] := by
        rw [List.isPrefixOf?_eq_some_iff_append_eq, List.append_nil]
      rw [hp]
    · have hp : name.toList.isPrefixOf? (name ++ " " ++ rest).toList =
          some (' ' :: rest.toList) := by
        rw [List.isPrefixOf?_eq_some_iff_append_eq]
        simp
      rw [hp]
      simp

/-! ## Names without spaces -/

theorem Asks.toList_name {line name arg : String} (h : Asks line name arg)
    (hname : ' ' ∉ name.toList) : name.toList = line.toList.takeWhile (· ≠ ' ') := by
  have hall : ∀ c ∈ name.toList, decide (c ≠ ' ') = true := by
    intro c hc
    rw [decide_eq_true_eq]
    rintro rfl
    exact hname hc
  rcases h with ⟨rfl, -⟩ | ⟨rest, rfl, -⟩
  · exact (List.takeWhile_eq_self_iff.2 hall).symm
  · have hline : (name ++ " " ++ rest).toList = name.toList ++ ' ' :: rest.toList := by simp
    rw [hline, List.takeWhile_append_of_pos hall]
    simp

theorem Asks.name_unique {line name name' arg arg' : String} (h : Asks line name arg)
    (h' : Asks line name' arg') (hname : ' ' ∉ name.toList) (hname' : ' ' ∉ name'.toList) :
    name = name' :=
  String.toList_inj.1 ((h.toList_name hname).trans (h'.toList_name hname').symm)

theorem lookup_sound {t : CommandTable α} {line arg : String} {command : α}
    (h : t.lookup line = some (command, arg)) :
    ∃ name, (name, command) ∈ t.entries ∧ Asks line name arg := by
  obtain ⟨⟨name, c⟩, hmem, hfound⟩ := List.exists_of_findSome?_eq_some h
  obtain ⟨arg', harg, he⟩ := Option.map_eq_some_iff.1 hfound
  cases he
  exact ⟨name, hmem, (argument?_eq_some_iff _ _ _).1 harg⟩

theorem exists_lookup {t : CommandTable α} {line name arg : String} {command : α}
    (hmem : (name, command) ∈ t.entries) (h : Asks line name arg) :
    ∃ found, t.lookup line = some found := by
  apply Option.isSome_iff_exists.1
  apply List.findSome?_isSome_iff.2
  refine ⟨(name, command), hmem, ?_⟩
  show (Option.map _ (argument? name line)).isSome = true
  rw [(argument?_eq_some_iff _ _ _).2 h]
  rfl

/-- The entry that is found is the one asked for, since no other can be. -/
theorem lookup_eq_some_iff {t : CommandTable α} (hspace : ∀ e ∈ t.entries, ' ' ∉ e.1.toList)
    (honce : ∀ e ∈ t.entries, ∀ e' ∈ t.entries, e.1 = e'.1 → e.2 = e'.2) (line : String)
    (command : α) (arg : String) :
    t.lookup line = some (command, arg) ↔
      ∃ name, (name, command) ∈ t.entries ∧ Asks line name arg := by
  constructor
  · exact lookup_sound
  · rintro ⟨name, hmem, hasks⟩
    obtain ⟨⟨c, a⟩, hfound⟩ := exists_lookup hmem hasks
    obtain ⟨name', hmem', hasks'⟩ := lookup_sound hfound
    have hname := hasks.name_unique hasks' (hspace _ hmem) (hspace _ hmem')
    subst hname
    have hc : command = c := honce _ hmem _ hmem' rfl
    have ha : argument? name line = some arg := (argument?_eq_some_iff _ _ _).2 hasks
    rw [(argument?_eq_some_iff _ _ _).2 hasks'] at ha
    cases ha
    rw [hfound, hc]

end RhythmClip.CommandTable
