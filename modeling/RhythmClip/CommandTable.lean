import RhythmClip.Text.Blank

/-!
# Command tables

A table finds a command by the front of a line: the line is the name itself,
or starts with the name and a space. When several names fit, the longest in
bytes is taken, and among equally long names the one registered first, so the
table is kept in that order.

* `sorted_register`: registering keeps the longer names in front.
* `perm_register`: and neither loses nor adds another name.
-/
namespace RhythmClip

structure CommandTable (α : Type) where
  entries : List (String × α)

namespace CommandTable

variable {α : Type}

def empty : CommandTable α := ⟨[]⟩

def names (t : CommandTable α) : List String := t.entries.map (·.1)

/-- Puts an entry behind all entries whose names are at least as long. -/
def insert (entry : String × α) : List (String × α) → List (String × α)
  | [] => [entry]
  | e :: es =>
    if e.1.utf8ByteSize < entry.1.utf8ByteSize then entry :: e :: es else e :: insert entry es

def register (t : CommandTable α) (entry : String × α) : CommandTable α :=
  ⟨insert entry t.entries⟩

/-- Registers entries one after the other. -/
def ofList (entries : List (String × α)) : CommandTable α := entries.foldl register empty

/-- What a line says after a command name, without the blanks around it. -/
def argument? (name line : String) : Option String :=
  match name.toList.isPrefixOf? line.toList with
  | some [] => some ""
  | some (' ' :: rest) => some (Text.trim (String.ofList rest))
  | _ => none

/-- The command of a line and its argument. -/
def lookup (t : CommandTable α) (line : String) : Option (α × String) :=
  t.entries.findSome? fun (name, command) => (argument? name line).map fun arg => (command, arg)

/-! ## Small facts -/

/-- Longer names stand in front of shorter ones. -/
def Sorted (t : CommandTable α) : Prop :=
  t.entries.Pairwise fun a b => b.1.utf8ByteSize ≤ a.1.utf8ByteSize

theorem perm_insert (entry : String × α) (es : List (String × α)) :
    (insert entry es).Perm (entry :: es) := by
  induction es with
  | nil => exact .refl _
  | cons e es ih =>
    unfold insert
    split
    · exact .refl _
    · exact (ih.cons e).trans (.swap entry e es)

theorem pairwise_insert (entry : String × α) {es : List (String × α)}
    (h : es.Pairwise fun a b => b.1.utf8ByteSize ≤ a.1.utf8ByteSize) :
    (insert entry es).Pairwise fun a b => b.1.utf8ByteSize ≤ a.1.utf8ByteSize := by
  induction es with
  | nil => simp [insert]
  | cons e es ih =>
    obtain ⟨he, hes⟩ := List.pairwise_cons.1 h
    unfold insert
    split
    · rename_i hlt
      refine List.pairwise_cons.2 ⟨fun a ha => ?_, h⟩
      rcases List.mem_cons.1 ha with rfl | ha
      · omega
      · have := he a ha; omega
    · rename_i hle
      refine List.pairwise_cons.2 ⟨fun a ha => ?_, ih hes⟩
      rcases List.mem_cons.1 ((perm_insert entry es).mem_iff.1 ha) with rfl | ha
      · omega
      · exact he a ha

theorem sorted_register {t : CommandTable α} (h : t.Sorted) (entry : String × α) :
    (t.register entry).Sorted := pairwise_insert entry h

theorem perm_register (t : CommandTable α) (entry : String × α) :
    (t.register entry).entries.Perm (entry :: t.entries) := perm_insert entry t.entries

end CommandTable

end RhythmClip
