import RhythmClip.Json
import RhythmClip.Json.Escape

/-!
# JSON tokens

A JSON text is a row of tokens, the brackets, commas, colons and scalars,
with blanks between them. The scanner takes one character at a time. A word,
that is a number or a name, goes on as long as its characters do, and a text
goes on to the next quotation mark that has no backslash before it; both are
judged when they end.

* `step_gap`: a blank between tokens changes nothing.
* `run_quoted`: a text in its escapes is scanned as that text.
-/
namespace RhythmClip.Json

inductive Token where
  | openArray | closeArray | openObject | closeObject | comma | colon
  | scalar (value : Scalar)
  deriving DecidableEq, Repr

/-- The blanks of JSON: space, tab, line feed and carriage return. -/
def isGap (c : Char) : Bool := c == ' ' || c == '\t' || c == '\n' || c == '\r'

def punctuation? : Char → Option Token
  | '[' => some .openArray
  | ']' => some .closeArray
  | '{' => some .openObject
  | '}' => some .closeObject
  | ',' => some .comma
  | ':' => some .colon
  | _ => none

/-! ## Words -/

def isWordChar (c : Char) : Bool := c.isAlphanum || c == '+' || c == '-' || c == '.'

/-- At least one digit, and nothing else. -/
def isDigits (cs : List Char) : Bool := !cs.isEmpty && cs.all Char.isDigit

/-- Nothing, or an exponent: `e` or `E`, perhaps a sign, and digits. -/
def isExponent : List Char → Bool
  | [] => true
  | e :: cs =>
    (e == 'e' || e == 'E') &&
      match cs with
      | '+' :: ds | '-' :: ds => isDigits ds
      | ds => isDigits ds

/-- What may follow the whole part of a number: perhaps a point and digits, and an exponent. -/
def isFraction : List Char → Bool
  | '.' :: cs => isDigits (cs.takeWhile Char.isDigit) && isExponent (cs.dropWhile Char.isDigit)
  | cs => isExponent cs

/-- A number without sign; its whole part has no leading zero. -/
def isMagnitude : List Char → Bool
  | '0' :: cs => isFraction cs
  | c :: cs => c.isDigit && isFraction (cs.dropWhile Char.isDigit)
  | [] => false

/-- The number grammar of RFC 8259. -/
def isNumber : List Char → Bool
  | '-' :: cs => isMagnitude cs
  | cs => isMagnitude cs

def word? (cs : List Char) : Option Scalar :=
  if cs = ['n', 'u', 'l', 'l'] then some .null
  else if cs = ['t', 'r', 'u', 'e'] then some (.bool true)
  else if cs = ['f', 'a', 'l', 's', 'e'] then some (.bool false)
  else if isNumber cs then some (.number (String.ofList cs))
  else none

/-! ## The scanner -/

/-- Where the scanner stands; the characters of an open word or text are kept latest first. -/
inductive Place where
  | between
  | word (read : List Char)
  | text (read : List Char)
  | escaped (read : List Char)
  deriving DecidableEq, Repr

/-- The tokens that are complete, the latest in front, and the place after them. -/
structure Scan where
  tokens : List Token
  place : Place
  deriving DecidableEq, Repr

namespace Scan

/-- Takes a character that belongs to no open word or text. -/
def start (tokens : List Token) (c : Char) : Option Scan :=
  if isGap c then some ⟨tokens, .between⟩
  else if c = '"' then some ⟨tokens, .text []⟩
  else if isWordChar c then some ⟨tokens, .word [c]⟩
  else (punctuation? c).map fun t => ⟨t :: tokens, .between⟩

/-- Completes the word that is open. -/
def closeWord (tokens : List Token) (read : List Char) : Option (List Token) :=
  (word? read.reverse).map fun value => .scalar value :: tokens

def closeText (tokens : List Token) (read : List Char) : Option (List Token) :=
  (unescape? read.reverse).map fun content => .scalar (.text content) :: tokens

def step (s : Scan) (c : Char) : Option Scan :=
  match s.place with
  | .between => start s.tokens c
  | .word read =>
    if isWordChar c then some ⟨s.tokens, .word (c :: read)⟩
    else (closeWord s.tokens read).bind fun tokens => start tokens c
  | .text read =>
    if c = '"' then (closeText s.tokens read).map fun tokens => ⟨tokens, .between⟩
    else if c = '\\' then some ⟨s.tokens, .escaped (c :: read)⟩
    else some ⟨s.tokens, .text (c :: read)⟩
  | .escaped read => some ⟨s.tokens, .text (c :: read)⟩

/-- The tokens at the end of the text, where no text may be open. -/
def finish (s : Scan) : Option (List Token) :=
  match s.place with
  | .between => some s.tokens.reverse
  | .word read => (closeWord s.tokens read).map List.reverse
  | .text _ | .escaped _ => none

end Scan

/-- The tokens of a text, if it consists of tokens and blanks. -/
def tokens? (cs : List Char) : Option (List Token) :=
  (cs.foldlM Scan.step ⟨[], .between⟩).bind Scan.finish

/-! ## Small facts -/

theorem Scan.step_gap {c : Char} (h : isGap c = true) (tokens : List Token) :
    Scan.step ⟨tokens, .between⟩ c = some ⟨tokens, .between⟩ := by
  simp [Scan.step, Scan.start, h]

theorem Scan.run_escapeChar (tokens : List Token) (read : List Char) (c : Char) :
    (escapeChar c).foldlM Scan.step ⟨tokens, .text read⟩ =
      some ⟨tokens, .text ((escapeChar c).reverse ++ read)⟩ := by
  unfold escapeChar
  split
  all_goals try rfl
  rename_i hq hb _ _ _ _ _
  split
  · rename_i h
    have hd : ∀ n < 32, Nat.digitChar (n / 16) ≠ '"' ∧ Nat.digitChar (n / 16) ≠ '\\' ∧
        Nat.digitChar (n % 16) ≠ '"' ∧ Nat.digitChar (n % 16) ≠ '\\' := by decide
    obtain ⟨h1, h2, h3, h4⟩ := hd _ h
    simp [Scan.step, h1, h2, h3, h4]
  · have hq' : c ≠ '"' := hq
    have hb' : c ≠ '\\' := hb
    simp [Scan.step, hq', hb']

theorem Scan.run_escape (tokens : List Token) (read : List Char) (cs : List Char) :
    (escape cs).foldlM Scan.step ⟨tokens, .text read⟩ =
      some ⟨tokens, .text ((escape cs).reverse ++ read)⟩ := by
  induction cs generalizing read with
  | nil => rfl
  | cons c cs ih =>
    have h : escape (c :: cs) = escapeChar c ++ escape cs := rfl
    simp [h, Scan.run_escapeChar, ih]

theorem Scan.run_quoted (tokens : List Token) (s : String) :
    ('"' :: (escape s.toList ++ ['"'])).foldlM Scan.step ⟨tokens, .between⟩ =
      some ⟨.scalar (.text (some s)) :: tokens, .between⟩ := by
  have h : Scan.step ⟨tokens, .between⟩ '"' = some ⟨tokens, .text []⟩ := rfl
  have hend : Scan.step ⟨tokens, .text (escape s.toList).reverse⟩ '"' =
      some ⟨.scalar (.text (some s)) :: tokens, .between⟩ := by
    simp [Scan.step, Scan.closeText, unescape_escape]
  simp only [List.foldlM_cons, List.foldlM_append, h, Option.bind_eq_bind, Option.bind_some,
    Scan.run_escape, List.append_nil, hend]
  rfl

end RhythmClip.Json
