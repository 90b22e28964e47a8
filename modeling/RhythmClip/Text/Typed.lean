import RhythmClip.Text.Grapheme

/-!
# Typed lines

A backspace in a typed line takes back the last grapheme that is still there,
and does nothing at the start of the line.

* `takeBack_put`: a backspace undoes a grapheme of at most 255 bytes.
* `editedChars_of_not_mem`: a line without a backspace stays as it was typed.
-/
namespace RhythmClip.Text

def backspace : Char := '\x08'

/-- The length in UTF-8. -/
def byteLength : List Char → Nat
  | [] => 0
  | c :: cs => c.utf8Size + byteLength cs

/-- Drops characters until `n` bytes are gone. A character that the count ends
inside of goes as a whole; a line reader that cuts its text by bytes stops
there with a panic instead. -/
def dropBytes : Nat → List Char → List Char
  | 0, cs => cs
  | _, [] => []
  | n + 1, c :: cs => dropBytes (n + 1 - c.utf8Size) cs

/-- What is there of a line, the end first. -/
structure Typed where
  kept : List Char := []
  /-- The byte lengths of the graphemes that can be taken back; each counts modulo 256. -/
  lengths : List UInt8 := []

namespace Typed

def put (t : Typed) (grapheme : List Char) : Typed :=
  ⟨grapheme.reverse ++ t.kept, UInt8.ofNat (byteLength grapheme) :: t.lengths⟩

/-- Takes the last grapheme back, as long as its length says it is. After a
grapheme of 256 bytes or more that length is too short. It can then end inside
of a character, where a line reader panics; here the line goes on without that
character. -/
def takeBack (t : Typed) : Typed :=
  match t.lengths with
  | [] => t
  | n :: lengths => ⟨dropBytes n.toNat t.kept, lengths⟩

def press (t : Typed) (grapheme : List Char) : Typed :=
  if grapheme = [backspace] then t.takeBack else t.put grapheme

end Typed

def editedChars (cs : List Char) : List Char :=
  ((graphemes cs).foldl Typed.press {}).kept.reverse

/-- What is left of a line as it was typed. -/
def edited (s : String) : String := String.ofList (editedChars s.toList)

/-! ## Small facts -/

theorem byteLength_append (cs ds : List Char) :
    byteLength (cs ++ ds) = byteLength cs + byteLength ds := by
  induction cs with
  | nil => simp [byteLength]
  | cons c cs ih => simp only [List.cons_append, byteLength, ih, Nat.add_assoc]

theorem byteLength_reverse (cs : List Char) : byteLength cs.reverse = byteLength cs := by
  induction cs with
  | nil => rfl
  | cons c cs ih =>
    rw [List.reverse_cons, byteLength_append, ih]
    simp only [byteLength]
    omega

theorem dropBytes_append (cs ds : List Char) : dropBytes (byteLength cs) (cs ++ ds) = ds := by
  induction cs with
  | nil => simp [byteLength, dropBytes]
  | cons c cs ih =>
    have h := c.utf8Size_pos
    obtain ⟨n, hn⟩ : ∃ n, byteLength (c :: cs) = n + 1 :=
      ⟨byteLength (c :: cs) - 1, by simp [byteLength]; omega⟩
    have hc : n + 1 - c.utf8Size = byteLength cs := by
      rw [← hn]
      simp [byteLength]
    rw [hn, List.cons_append, dropBytes, hc, ih]

theorem takeBack_put (t : Typed) {grapheme : List Char} (h : byteLength grapheme < 256) :
    (t.put grapheme).takeBack = t := by
  have hn : (UInt8.ofNat (byteLength grapheme)).toNat = byteLength grapheme.reverse := by
    rw [byteLength_reverse]
    exact Nat.mod_eq_of_lt h
  simp [Typed.put, Typed.takeBack, hn, dropBytes_append]

theorem kept_foldl_press {gs : List (List Char)} (h : [backspace] ∉ gs) (t : Typed) :
    (gs.foldl Typed.press t).kept = gs.flatten.reverse ++ t.kept := by
  induction gs generalizing t with
  | nil => rfl
  | cons g gs ih =>
    obtain ⟨hg, hgs⟩ := not_or.1 (mt List.mem_cons.2 h)
    simp [ih hgs, Typed.press, Ne.symm hg, Typed.put]

theorem editedChars_of_not_mem {cs : List Char} (h : backspace ∉ cs) : editedChars cs = cs := by
  have hg : [backspace] ∉ graphemes cs := fun hg =>
    h (by rw [← flatten_graphemes cs]; exact List.mem_flatten_of_mem hg (by simp))
  simp [editedChars, kept_foldl_press hg, flatten_graphemes]

end RhythmClip.Text
