import RhythmClip.Json.Token

/-!
# Reading JSON

A row of tokens is read by a machine with one step per token. Containers that
are open wait on a stack, each with what it holds so far, the latest in
front. A text is read if the machine has one complete value at its end.

* `run_tokens`: the tokens of a value bring the machine from wanting a value
  to having that value.
* `ofTokens?_tokens`: so the tokens of a value are read as that value.
-/
namespace RhythmClip.Json

abbrev Member := Option String × Json

/-- A container that is open. A `member` waits for the value of the given name. -/
inductive Frame where
  | array (items : List Json)
  | member (name : Option String) (members : List Member)

/-- What the machine wants next. -/
inductive State where
  | value (frames : List Frame)
  | itemOrEnd (frames : List Frame)
  | nameOrEnd (frames : List Frame)
  | memberName (frames : List Frame) (members : List Member)
  | colon (frames : List Frame) (members : List Member) (name : Option String)
  | after (frames : List Frame) (value : Json)

namespace State

/-- Takes the token that a value begins with. -/
def beginValue (frames : List Frame) : Token → Option State
  | .scalar v => some (.after frames (.scalar v))
  | .openArray => some (.itemOrEnd frames)
  | .openObject => some (.nameOrEnd frames)
  | _ => none

def takeName (frames : List Frame) (members : List Member) : Token → Option State
  | .scalar (.text name) => some (.colon frames members name)
  | _ => none

def step : State → Token → Option State
  | .value frames, t => beginValue frames t
  | .itemOrEnd frames, .closeArray => some (.after frames (.array []))
  | .itemOrEnd frames, t => beginValue (.array [] :: frames) t
  | .nameOrEnd frames, .closeObject => some (.after frames (.object []))
  | .nameOrEnd frames, t => takeName frames [] t
  | .memberName frames members, t => takeName frames members t
  | .colon frames members name, .colon => some (.value (.member name members :: frames))
  | .after (.array items :: frames) v, .comma => some (.value (.array (v :: items) :: frames))
  | .after (.array items :: frames) v, .closeArray =>
    some (.after frames (.array (v :: items).reverse))
  | .after (.member name members :: frames) v, .comma =>
    some (.memberName frames ((name, v) :: members))
  | .after (.member name members :: frames) v, .closeObject =>
    some (.after frames (.object ((name, v) :: members).reverse))
  | _, _ => none

/-- The value at the end, when nothing is open. -/
def finish : State → Option Json
  | .after [] v => some v
  | _ => none

end State

/-! ## The tokens of a value -/

mutual

def tokens : Json → List Token
  | .scalar v => [.scalar v]
  | .array [] => [.openArray, .closeArray]
  | .array (v :: vs) => .openArray :: (tokens v ++ itemTokens vs)
  | .object [] => [.openObject, .closeObject]
  | .object ((name, v) :: ms) =>
    .openObject :: .scalar (.text name) :: .colon :: (tokens v ++ memberTokens ms)

/-- The tokens of the later items of an array, and its end. -/
def itemTokens : List Json → List Token
  | [] => [.closeArray]
  | v :: vs => .comma :: (tokens v ++ itemTokens vs)

/-- The tokens of the later members of an object, and its end. -/
def memberTokens : List (Option String × Json) → List Token
  | [] => [.closeObject]
  | (name, v) :: ms => .comma :: .scalar (.text name) :: .colon :: (tokens v ++ memberTokens ms)

end

/-- The value of a row of tokens. -/
def ofTokens? (tokens : List Token) : Option Json :=
  (tokens.foldlM State.step (.value [])).bind State.finish

/-- The value of a JSON text. -/
def parse? (s : String) : Option Json := (tokens? s.toList).bind ofTokens?

/-! ## Small facts -/

theorem run_itemOrEnd (v : Json) (frames : List Frame) :
    (tokens v).foldlM State.step (.itemOrEnd frames) =
      (tokens v).foldlM State.step (.value (.array [] :: frames)) := by
  match v with
  | .scalar _ | .array [] | .array (_ :: _) | .object [] | .object ((_, _) :: _) => rfl

mutual

theorem run_tokens (v : Json) (frames : List Frame) :
    (tokens v).foldlM State.step (.value frames) = some (.after frames v) := by
  match v with
  | .scalar _ | .array [] | .object [] => rfl
  | .array (v :: vs) =>
    simp only [tokens, List.foldlM_cons, List.foldlM_append]
    show ((tokens v).foldlM State.step (.itemOrEnd frames)).bind _ = _
    rw [run_itemOrEnd, run_tokens v]
    exact run_itemTokens vs frames [] v
  | .object ((name, v) :: ms) =>
    simp only [tokens, List.foldlM_cons, List.foldlM_append]
    show ((tokens v).foldlM State.step (.value (.member name [] :: frames))).bind _ = _
    rw [run_tokens v]
    exact run_memberTokens ms frames [] name v

theorem run_itemTokens (vs : List Json) (frames : List Frame) (items : List Json) (v : Json) :
    (itemTokens vs).foldlM State.step (.after (.array items :: frames) v) =
      some (.after frames (.array (items.reverse ++ v :: vs))) := by
  match vs with
  | [] => simp [itemTokens, State.step]
  | w :: ws =>
    simp only [itemTokens, List.foldlM_cons, List.foldlM_append]
    show ((tokens w).foldlM State.step (.value (.array (v :: items) :: frames))).bind _ = _
    rw [run_tokens w]
    have h := run_itemTokens ws frames (v :: items) w
    simpa using h

theorem run_memberTokens (ms : List Member) (frames : List Frame) (members : List Member)
    (name : Option String) (v : Json) :
    (memberTokens ms).foldlM State.step (.after (.member name members :: frames) v) =
      some (.after frames (.object (members.reverse ++ (name, v) :: ms))) := by
  match ms with
  | [] => simp [memberTokens, State.step]
  | (name', w) :: ws =>
    simp only [memberTokens, List.foldlM_cons, List.foldlM_append]
    show ((tokens w).foldlM State.step
      (.value (.member name' ((name, v) :: members) :: frames))).bind _ = _
    rw [run_tokens w]
    have h := run_memberTokens ws frames ((name, v) :: members) name' w
    simpa using h

end

theorem ofTokens?_tokens (v : Json) : ofTokens? (tokens v) = some v := by
  simp [ofTokens?, run_tokens, State.finish]

end RhythmClip.Json
