import RhythmClip.Text.Lines

/-!
# What backspaces leave

A typed line keeps the lengths of its graphemes, and those only modulo 256.
Here the graphemes themselves are kept (`pressed`), and a backspace takes the
last of them away. The two agree as long as no backspace meets a grapheme of
256 bytes or more (`MeetsShort`).

* `graphemes_append_backspace`: no grapheme goes across a backspace.
* `press_ofGraphemes`: one key.
* `foldl_press_ofGraphemes`: all keys of a line.
* `entered_eq_trim_backspaced`: so a line says what is left of its graphemes.
-/
namespace RhythmClip.Text

/-- A backspace is a key of its own wherever it stands. -/
theorem graphemes_append_backspace (cs ds : List Char) :
    graphemes (cs ++ backspace :: ds) = graphemes cs ++ [backspace] :: graphemes ds :=
  graphemes_append_control (by decide) cs ds

variable {there keys : List (List Char)} {key : List Char}

/-- The graphemes that are there after one more key, the last one first. -/
def pressed (there : List (List Char)) (key : List Char) : List (List Char) :=
  if key = [backspace] then there.tail else key :: there

/-- Each backspace among the keys takes back fewer than 256 bytes. -/
def TakesShort : List (List Char) → List (List Char) → Prop
  | _, [] => True
  | there, key :: keys =>
    (key = [backspace] → ∀ last ∈ there.head?, byteLength last < 256) ∧
      TakesShort (pressed there key) keys

instance decidableTakesShort : (there keys : List (List Char)) → Decidable (TakesShort there keys)
  | _, [] => .isTrue trivial
  | there, key :: keys =>
    have : Decidable (TakesShort (pressed there key) keys) := decidableTakesShort _ keys
    inferInstanceAs (Decidable (_ ∧ _))

/-- No backspace of the line meets a grapheme of 256 bytes or more. -/
def MeetsShort (line : String) : Prop := TakesShort [] (graphemes line.toList)

instance (line : String) : Decidable (MeetsShort line) :=
  inferInstanceAs (Decidable (TakesShort ..))

/-- The line without its backspaces and the graphemes that they take back. -/
def backspaced (line : String) : String :=
  String.ofList ((graphemes line.toList).foldl pressed []).reverse.flatten

namespace Typed

/-- The typed line in which these graphemes are there, the last one first. -/
def ofGraphemes (there : List (List Char)) : Typed := there.foldr (fun g t => t.put g) {}

theorem reverse_kept_ofGraphemes (there : List (List Char)) :
    (ofGraphemes there).kept.reverse = there.reverse.flatten := by
  induction there with
  | nil => rfl
  | cons g there ih =>
    have hkept : (ofGraphemes (g :: there)).kept = g.reverse ++ (ofGraphemes there).kept := rfl
    rw [hkept, List.reverse_append, List.reverse_reverse, ih, List.reverse_cons,
      List.flatten_append, List.flatten_singleton]

theorem press_ofGraphemes
    (h : key = [backspace] → ∀ last ∈ there.head?, byteLength last < 256) :
    (ofGraphemes there).press key = ofGraphemes (pressed there key) := by
  unfold press pressed
  split
  · rename_i hkey
    cases there with
    | nil => rfl
    | cons last there => exact takeBack_put (ofGraphemes there) (h hkey last rfl)
  · rfl

theorem foldl_press_ofGraphemes (h : TakesShort there keys) :
    keys.foldl press (ofGraphemes there) = ofGraphemes (keys.foldl pressed there) := by
  induction keys generalizing there with
  | nil => rfl
  | cons key keys ih =>
    obtain ⟨hkey, hkeys⟩ := h
    rw [List.foldl_cons, List.foldl_cons, press_ofGraphemes hkey, ih hkeys]

end Typed

theorem edited_eq_backspaced {line : String} (h : MeetsShort line) :
    edited line = backspaced line := by
  have hpressed : (graphemes line.toList).foldl Typed.press {} = Typed.ofGraphemes _ :=
    Typed.foldl_press_ofGraphemes h
  rw [edited, editedChars, hpressed, Typed.reverse_kept_ofGraphemes, backspaced]

/-- **A line says what its backspaces leave.** -/
theorem entered_eq_trim_backspaced {line : String} (h : MeetsShort line) :
    entered line = trim (backspaced line) := by
  rw [entered, edited_eq_backspaced h]

end RhythmClip.Text
