/-!
# Blank characters, trimming and words

A character is blank when Unicode gives it the property White_Space. Texts
are trimmed of blanks at both ends, and the words of a text are its maximal
runs of characters that are not blank.

* `wordChars_cons_of_isBlank`: a blank in front changes no word.
-/
namespace RhythmClip.Text

/-- The code points with the Unicode property White_Space, as closed ranges. -/
def blankRanges : List (Nat × Nat) :=
  [(0x09, 0x0D), (0x20, 0x20), (0x85, 0x85), (0xA0, 0xA0), (0x1680, 0x1680), (0x2000, 0x200A),
    (0x2028, 0x2029), (0x202F, 0x202F), (0x205F, 0x205F), (0x3000, 0x3000)]

def isBlank (c : Char) : Bool :=
  blankRanges.any fun (first, last) => first ≤ c.toNat && c.toNat ≤ last

/-! ## Trimming -/

def trimLeft (cs : List Char) : List Char := cs.dropWhile isBlank

def trimRight (cs : List Char) : List Char := (trimLeft cs.reverse).reverse

def trimChars (cs : List Char) : List Char := trimRight (trimLeft cs)

/-- The text without the blanks at its two ends. -/
def trim (s : String) : String := String.ofList (trimChars s.toList)

/-! ## Words -/

/-- Puts a finished word in front of the later ones; an empty run is no word. -/
def close (word : List Char) (later : List (List Char)) : List (List Char) :=
  if word.isEmpty then later else word :: later

/-- Reads from the right: the word that touches the front, and the later words. -/
def wordScan : List Char → List Char × List (List Char)
  | [] => ([], [])
  | c :: cs =>
    let (word, later) := wordScan cs
    if isBlank c then ([], close word later) else (c :: word, later)

def wordChars (cs : List Char) : List (List Char) := close (wordScan cs).1 (wordScan cs).2

/-- The maximal runs of non-blank characters, from left to right. -/
def words (s : String) : List String := (wordChars s.toList).map String.ofList

/-! ## Small facts -/

theorem wordChars_cons_of_isBlank {c : Char} (h : isBlank c = true) (cs : List Char) :
    wordChars (c :: cs) = wordChars cs := by
  simp [wordChars, wordScan, h, close]

theorem trimLeft_cons_of_isBlank {c : Char} (h : isBlank c = true) (cs : List Char) :
    trimLeft (c :: cs) = trimLeft cs := by
  simp [trimLeft, h]

theorem trimLeft_cons_of_not_isBlank {c : Char} (h : isBlank c = false) (cs : List Char) :
    trimLeft (c :: cs) = c :: cs := by
  simp [trimLeft, h]

end RhythmClip.Text
