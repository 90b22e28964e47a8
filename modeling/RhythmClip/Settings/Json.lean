import RhythmClip.Json.Reader
import RhythmClip.Json.Writer
import RhythmClip.Settings

/-!
# Settings as JSON

Settings are written as an object with one member per field. An object is
read back from any of the fields in any order, each at most once, and the
members with other names do not matter; an array gives the first fields by
their places. A field that is not given has its default.

* `ofJson?_toJson`: reading inverts writing.
-/
namespace RhythmClip

/-! ## Notes -/

def NoteEntry.toJson : NoteEntry → Json
  | .token t => .text t
  | .pitches members => .array (members.map .text)

def NoteEntry.ofJson? : Json → Option NoteEntry
  | .array items => (items.mapM Json.text?).map .pitches
  | v => v.text?.map .token

def NoteList.toJson : NoteList → Json
  | .text s => .text s
  | .entries es => .array (es.map NoteEntry.toJson)

def NoteList.ofJson? : Json → Option NoteList
  | .array items => (items.mapM NoteEntry.ofJson?).map .entries
  | v => v.text?.map .text

/-! ## Fields -/

namespace Settings

inductive Field where
  | notes | pattern | subdivision | velocity | accentMap | accentHi | accentLo
  | shuffle | sizzle | arpeggiate
  deriving DecidableEq, Repr

namespace Field

/-- All fields in their order. -/
def all : List Field :=
  [notes, pattern, subdivision, velocity, accentMap, accentHi, accentLo, shuffle, sizzle,
    arpeggiate]

/-- The name a field is written with. -/
def key : Field → String
  | notes => "notes"
  | pattern => "pattern"
  | subdivision => "subdiv"
  | velocity => "velocity"
  | accentMap => "accentMap"
  | accentHi => "accentHi"
  | accentLo => "accentLo"
  | shuffle => "shuffle"
  | sizzle => "sizzle"
  | arpeggiate => "arpeggiate"

/-- Other names that are read for a field. -/
def aliases : Field → List String
  | accentLo => ["accentLow"]
  | arpeggiate => ["arpegiate"]
  | _ => []

def ofKey? (key : String) : Option Field := all.find? fun f => f.key = key || key ∈ f.aliases

theorem ofKey?_key (f : Field) : ofKey? f.key = some f := by
  cases f <;> decide +kernel

end Field

/-- The value of a field. -/
def fieldJson (s : Settings) : Field → Json
  | .notes => s.notes.toJson
  | .pattern => .text s.pattern
  | .subdivision => .text s.subdivision
  | .velocity => .natural s.velocity.toNat
  | .accentMap => .text s.accentMap
  | .accentHi => .natural s.accentHi.toNat
  | .accentLo => .natural s.accentLo.toNat
  | .shuffle => .bool s.shuffle
  | .sizzle => .bool s.sizzle
  | .arpeggiate => .bool s.arpeggiate

/-- Gives a field a value, if the value has the shape of the field. -/
def setField? (s : Settings) (f : Field) (v : Json) : Option Settings :=
  match f with
  | .notes => (NoteList.ofJson? v).map fun x => { s with notes := x }
  | .pattern => v.text?.map fun x => { s with pattern := x }
  | .subdivision => v.text?.map fun x => { s with subdivision := x }
  | .velocity => v.byte?.map fun x => { s with velocity := x }
  | .accentMap => v.text?.map fun x => { s with accentMap := x }
  | .accentHi => v.byte?.map fun x => { s with accentHi := x }
  | .accentLo => v.byte?.map fun x => { s with accentLo := x }
  | .shuffle => v.bool?.map fun x => { s with shuffle := x }
  | .sizzle => v.bool?.map fun x => { s with sizzle := x }
  | .arpeggiate => v.bool?.map fun x => { s with arpeggiate := x }

/-! ## Whole settings -/

def toJson (s : Settings) : Json := .record (Field.all.map fun f => (f.key, s.fieldJson f))

/-- Takes the members of an object; the fields in `seen` have been given already. -/
def addMembers? (s : Settings) (seen : List Field) : List (Option String × Json) → Option Settings
  | [] => some s
  | (none, _) :: _ => none
  | (some key, v) :: rest =>
    match Field.ofKey? key with
    | none => s.addMembers? seen rest
    | some f =>
      if f ∈ seen then none
      else (s.setField? f v).bind fun s => s.addMembers? (f :: seen) rest

/-- Takes the items of an array for the given fields, one after the other. -/
def addItems? (s : Settings) : List Field → List Json → Option Settings
  | _, [] => some s
  | [], _ :: _ => none
  | f :: fs, v :: vs => (s.setField? f v).bind fun s => s.addItems? fs vs

def ofJson? : Json → Option Settings
  | .object members => ({} : Settings).addMembers? [] members
  | .array items => ({} : Settings).addItems? Field.all items
  | .scalar _ => none

/-- The settings of a JSON text. -/
def parse (text : String) : Except Fault Settings :=
  match (Json.parse? text).bind ofJson? with
  | some s => .ok s
  | none => .error (.setting .malformed)

/-! ## Small facts -/

theorem byte?_natural (b : UInt8) : (Json.natural b.toNat).byte? = some b := by
  have h : b.toNat ≤ 255 := Nat.le_of_lt_succ b.toNat_lt
  simp [Json.natural, Json.byte?, Text.digitsByte?, Text.natural?_decimal, h]

end Settings

theorem mapM_map_some {α β : Type} {read : β → Option α} {write : α → β}
    (h : ∀ a, read (write a) = some a) (as : List α) : (as.map write).mapM read = some as := by
  induction as with
  | nil => rfl
  | cons a as ih => simp [h, ih]

theorem text?_text (s : String) : (Json.text s).text? = some s := rfl

theorem NoteEntry.ofJson?_toJson (e : NoteEntry) : ofJson? e.toJson = some e := by
  cases e with
  | token t => rfl
  | pitches members =>
    show ((members.map Json.text).mapM Json.text?).map _ = _
    rw [mapM_map_some text?_text]
    rfl

theorem NoteList.ofJson?_toJson (notes : NoteList) : ofJson? notes.toJson = some notes := by
  cases notes with
  | text s => rfl
  | entries es =>
    show ((es.map NoteEntry.toJson).mapM NoteEntry.ofJson?).map _ = _
    rw [mapM_map_some NoteEntry.ofJson?_toJson]
    rfl

namespace Settings

theorem ofJson?_toJson (s : Settings) : ofJson? s.toJson = some s := by
  simp [ofJson?, toJson, Json.record, Field.all, addMembers?, Field.ofKey?_key, setField?,
    fieldJson, NoteList.ofJson?_toJson, byte?_natural, Json.text, Json.text?, Json.bool, Json.bool?]

end Settings

end RhythmClip
