import RhythmClip.Proofs.Chord
import RhythmClip.Proofs.CommandTable

/-!
# Reads that could miss

A list read at a place, a remainder and a text cut at an offset all ask for
something that may not be there: the place can lie behind the last member, the
divisor can be zero, and the offset can lie outside of the text or within a
character. `Access` keeps such a miss apart from every other outcome, so a
computation whose reads are made this way ends in `.ok` only if none of them
misses. Offsets count bytes, as characters are of one to four bytes.

Chord names and lines are cut by such offsets here: a name behind its letter,
and a line behind the name of a command.

* `cut_eq_ok_iff`: what is cut off, and `exists_cut_iff`: where a text can be cut.
* `Letter.utf8Size_of_isWritten`: a letter is one byte.
* `readChecked_eq`: a chord name is read without a miss.
* `lookupChecked_eq`: and so is a line looked up, in whatever table.
-/
namespace RhythmClip

/-- What a read has asked for that is not there. -/
inductive Miss where
  | member (place length : Nat)
  | remainder
  | cut (offset : Nat)
  deriving DecidableEq, Repr

/-- A computation that stops at the first read that misses. -/
abbrev Access := Except Miss

namespace Access

variable {α β : Type}

theorem bind_of_ok {x : Access α} {a : α} (h : x = .ok a) (f : α → Access β) :
    (x >>= f) = f a := by
  rw [h]
  rfl

theorem exists_of_bind {x : Access α} {f : α → Access β} {b : β} (h : (x >>= f) = .ok b) :
    ∃ a, x = .ok a ∧ f a = .ok b := by
  cases x with
  | error miss => cases h
  | ok a => exact ⟨a, rfl, h⟩

/-- The member at a place of a list. -/
def member (as : List α) (place : Nat) : Access α :=
  match as[place]? with
  | some a => .ok a
  | none => .error (.member place as.length)

/-- The remainder of a division by `n`. -/
def wrap (i n : Nat) : Access Nat := if n = 0 then .error .remainder else .ok (i % n)

/-- What stands behind the first `offset` bytes. -/
def cut (s : String) (offset : Nat) : Access String :=
  if h : String.Pos.Raw.IsValid s ⟨offset⟩ then .ok (s.sliceFrom (s.pos ⟨offset⟩ h)).copy
  else .error (.cut offset)

theorem member_eq_ok_iff (as : List α) (place : Nat) (a : α) :
    member as place = .ok a ↔ as[place]? = some a := by
  unfold member
  cases as[place]? <;> simp

theorem wrap_of_pos {n : Nat} (h : 0 < n) (i : Nat) : wrap i n = .ok (i % n) := if_neg h.ne'

/-- A text can be cut at an offset within it and between two characters. -/
theorem exists_cut_iff (s : String) (offset : Nat) :
    (∃ rest, cut s offset = .ok rest) ↔ String.Pos.Raw.IsValid s ⟨offset⟩ := by
  unfold cut
  split <;> simp [*]

theorem cut_append (front rest : String) :
    cut (front ++ rest) front.utf8ByteSize = .ok rest := by
  have hvalid : String.Pos.Raw.IsValid (front ++ rest) ⟨front.utf8ByteSize⟩ :=
    String.Pos.Raw.isValid_iff_exists_append.2 ⟨front, rest, rfl, rfl⟩
  have hsplits : ((front ++ rest).pos ⟨front.utf8ByteSize⟩ hvalid).Splits front rest :=
    ⟨rfl, rfl⟩
  rw [cut, dif_pos hvalid, hsplits.copy_sliceFrom_eq]

theorem cut_eq_ok_iff (s : String) (offset : Nat) (rest : String) :
    cut s offset = .ok rest ↔ ∃ front, s = front ++ rest ∧ front.utf8ByteSize = offset := by
  constructor
  · intro h
    obtain ⟨front, rest', rfl, hoffset⟩ :=
      String.Pos.Raw.isValid_iff_exists_append.1 ((exists_cut_iff s offset).1 ⟨rest, h⟩)
    cases hoffset
    rw [cut_append] at h
    cases h
    exact ⟨front, rfl, rfl⟩
  · rintro ⟨front, rfl, rfl⟩
    exact cut_append front rest

end Access

open Access

/-! ## Chord names -/

theorem Letter.utf8Size_of_isWritten {letter : Letter} {c : Char} (h : letter.IsWritten c) :
    c.utf8Size = 1 := by
  rcases h with rfl | rfl <;> cases letter <;> rfl

namespace ChordName

/-- Reads a name that is cut behind its letter, once the letter is known to be one. -/
def readChecked (name : String) : Access (Option ChordName) :=
  match name.toList with
  | [] => return none
  | c :: _ =>
    if (Letter.ofChar? c).isNone then return none
    else do
      let rest ← cut name 1
      return ofChars? (c :: rest.toList)

theorem cut_one_of_letter {name : String} {c : Char} {cs : List Char} (hname : name.toList = c :: cs)
    {letter : Letter} (h : Letter.ofChar? c = some letter) :
    cut name 1 = .ok (String.ofList cs) := by
  have hsize := Letter.utf8Size_of_isWritten ((Letter.ofChar?_eq_some_iff c letter).1 h)
  rw [cut_eq_ok_iff]
  refine ⟨String.ofList [c], String.toList_inj.1 (by simp [hname]), ?_⟩
  simp [hsize]

theorem readChecked_eq (name : String) : readChecked name = .ok (ofChars? name.toList) := by
  unfold readChecked
  split
  · rename_i hname
    rw [hname]
    rfl
  · rename_i c cs hname
    cases hletter : Letter.ofChar? c with
    | none =>
      rw [Option.isNone_none, if_pos rfl, hname, ofChars?, hletter]
      rfl
    | some letter =>
      rw [Option.isNone_some, if_neg Bool.false_ne_true,
        bind_of_ok (cut_one_of_letter hname hletter), hname, String.toList_ofList]
      rfl

end ChordName

/-! ## Lines -/

namespace CommandTable

variable {α : Type}

/-- The argument of a line, cut off behind the name. -/
def argumentChecked (name line : String) : Access (Option String) :=
  if line = name ∨ (name ++ " ").toList.isPrefixOf line.toList then
    if name.utf8ByteSize < line.utf8ByteSize then do
      let rest ← cut line name.utf8ByteSize
      return some (Text.trim rest)
    else return some ""
  else return none

/-- Tries entries one after the other. -/
def findChecked (line : String) : List (String × α) → Access (Option (α × String))
  | [] => return none
  | (name, command) :: es => do
    match ← argumentChecked name line with
    | some arg => return some (command, arg)
    | none => findChecked line es

def lookupChecked (t : CommandTable α) (line : String) : Access (Option (α × String)) :=
  findChecked line t.entries

theorem isPrefixOf_space_iff (name line : String) :
    (name ++ " ").toList.isPrefixOf line.toList = true ↔ ∃ rest, line = name ++ " " ++ rest := by
  rw [List.isPrefixOf_iff_prefix]
  constructor
  · rintro ⟨rest, h⟩
    exact ⟨String.ofList rest, String.toList_inj.1 (by simp [← h])⟩
  · rintro ⟨rest, rfl⟩
    exact ⟨rest.toList, by simp⟩

theorem argumentChecked_eq (name line : String) :
    argumentChecked name line = .ok (argument? name line) := by
  have hself : argument? name name = some "" :=
    (argument?_eq_some_iff name name "").2 (.inl ⟨rfl, rfl⟩)
  unfold argumentChecked
  split
  · rename_i hfits
    rw [isPrefixOf_space_iff] at hfits
    rcases hfits with rfl | ⟨rest, rfl⟩
    · rw [if_neg (Nat.lt_irrefl _), hself]
      rfl
    · have hlonger : name.utf8ByteSize < (name ++ " " ++ rest).utf8ByteSize := by
        simp only [String.utf8ByteSize_append]
        have hspace : " ".utf8ByteSize = 1 := rfl
        omega
      have hcut : cut (name ++ " " ++ rest) name.utf8ByteSize = .ok (" " ++ rest) := by
        rw [String.append_assoc]
        exact cut_append name (" " ++ rest)
      rw [if_pos hlonger, bind_of_ok hcut, Text.trim_space,
        (argument?_eq_some_iff _ _ _).2 (.inr ⟨rest, rfl, rfl⟩)]
      rfl
  · rename_i hfits
    rw [isPrefixOf_space_iff] at hfits
    have hnone : argument? name line = none := by
      refine Option.eq_none_iff_forall_ne_some.2 fun arg harg => hfits ?_
      rcases (argument?_eq_some_iff name line arg).1 harg with ⟨rfl, -⟩ | ⟨rest, rfl, -⟩
      · exact .inl rfl
      · exact .inr ⟨rest, rfl⟩
    rw [hnone]
    rfl

theorem findChecked_eq (line : String) (es : List (String × α)) :
    findChecked line es = .ok (lookup ⟨es⟩ line) := by
  induction es with
  | nil => rfl
  | cons e es ih =>
    obtain ⟨name, command⟩ := e
    rw [findChecked, bind_of_ok (argumentChecked_eq name line)]
    simp only [lookup, List.findSome?_cons] at ih ⊢
    cases argument? name line with
    | some arg => rfl
    | none => exact ih

theorem lookupChecked_eq (t : CommandTable α) (line : String) :
    t.lookupChecked line = .ok (t.lookup line) := findChecked_eq line t.entries

/-- Behind a name that a line asks for, the line can be cut. -/
theorem isValid_of_argument? {name line arg : String} (h : argument? name line = some arg) :
    String.Pos.Raw.IsValid line ⟨name.utf8ByteSize⟩ := by
  rw [← exists_cut_iff]
  rcases (argument?_eq_some_iff name line arg).1 h with ⟨rfl, -⟩ | ⟨rest, rfl, -⟩
  · exact ⟨"", (cut_eq_ok_iff _ _ _).2 ⟨line, by simp, rfl⟩⟩
  · exact ⟨" " ++ rest, (cut_eq_ok_iff _ _ _).2 ⟨name, by simp [String.append_assoc], rfl⟩⟩

end CommandTable

end RhythmClip
