/-!
# Arguments

An argument is an option by its long name, a cluster of short options, the
separator after which there are no more options, or an operand. The arguments
are cut into pieces from left to right: switches, parameters with their
values, and operands. A parameter takes its value from the rest of its own
argument, or else from the next one, which must then be an operand.
-/
namespace RhythmClip.CommandLine

/-! ## Options -/

/-- Options without a value. -/
inductive Switch where
  | verbose | version | help | json
  deriving DecidableEq, Repr

/-- Options with a value. -/
inductive Parameter where
  | params | notes | pattern | subdivision | velocity | accent | accentHi | accentLo
  deriving DecidableEq, Repr

inductive Choice where
  | switch (s : Switch)
  | parameter (p : Parameter)
  deriving DecidableEq, Repr

structure OptionEntry where
  long : String
  short : Option Char
  choice : Choice
  deriving DecidableEq, Repr

/-- The options of every command. -/
def sharedOptions : List OptionEntry :=
  [⟨"verbose", some 'v', .switch .verbose⟩, ⟨"help", some 'h', .switch .help⟩]

/-- The options in front of the command. -/
def leadingOptions : List OptionEntry :=
  sharedOptions ++ [⟨"version", some 'V', .switch .version⟩]

def compileOptions : List OptionEntry :=
  sharedOptions ++
    [⟨"params", none, .parameter .params⟩, ⟨"notes", some 'n', .parameter .notes⟩,
      ⟨"pattern", some 'p', .parameter .pattern⟩, ⟨"subdiv", some 's', .parameter .subdivision⟩,
      ⟨"velocity", none, .parameter .velocity⟩, ⟨"accent", none, .parameter .accent⟩,
      ⟨"accent-hi", none, .parameter .accentHi⟩, ⟨"accent-lo", none, .parameter .accentLo⟩,
      ⟨"json", none, .switch .json⟩]

/-- Long names are not abbreviated. -/
def findLong? (options : List OptionEntry) (name : String) : Option Choice :=
  (options.find? fun o => o.long = name).map (·.choice)

def findShort? (options : List OptionEntry) (letter : Char) : Option Choice :=
  (options.find? fun o => o.short = some letter).map (·.choice)

/-! ## The forms of an argument -/

inductive Argument where
  | separator
  | long (name : String) (value : Option String)
  | cluster (letters : List Char)
  | operand
  deriving DecidableEq, Repr

/-- What stands before and after the first equals sign. -/
def splitEquals (cs : List Char) : String × Option String :=
  match cs.dropWhile (· ≠ '=') with
  | [] => (String.ofList cs, none)
  | _ :: value => (String.ofList (cs.takeWhile (· ≠ '=')), some (String.ofList value))

/-- A hyphen alone is an operand. -/
def Argument.ofChars : List Char → Argument
  | ['-', '-'] => .separator
  | '-' :: '-' :: cs => let (name, value) := splitEquals cs; .long name value
  | '-' :: c :: cs => .cluster (c :: cs)
  | _ => .operand

def Argument.ofText (s : String) : Argument := ofChars s.toList

/-! ## Pieces -/

/-- What is wrong with the arguments. -/
inductive UsageFault where
  | unknownOption (arg : String)
  | unwantedValue (arg : String)
  | missingValue (p : Parameter)
  | badValue (p : Parameter) (value : String)
  | repeated (c : Choice)
  | extraOperand (text : String)
  | missingName
  | unknownCommand (name : String)
  deriving DecidableEq, Repr

inductive Piece where
  | switch (s : Switch)
  | value (p : Parameter) (value : String)
  | operand (text : String)
  | bad (fault : UsageFault)
  deriving DecidableEq, Repr

/-- The pieces of a cluster, and a parameter at its end that has no value
yet. One equals sign may stand before a value. -/
def clusterPieces (options : List OptionEntry) : List Char → List Piece × Option Parameter
  | [] => ([], none)
  | c :: cs =>
    match findShort? options c with
    | none => ([.bad (.unknownOption (String.ofList ['-', c]))], none)
    | some (.switch s) =>
      let (pieces, waiting) := clusterPieces options cs
      (.switch s :: pieces, waiting)
    | some (.parameter p) =>
      match cs with
      | [] => ([], some p)
      | '=' :: value => ([.value p (String.ofList value)], none)
      | value => ([.value p (String.ofList value)], none)

/-- The pieces of a long option. -/
def longPieces (options : List OptionEntry) (arg name : String) (value : Option String) :
    List Piece × Option Parameter :=
  match findLong? options name, value with
  | none, _ => ([.bad (.unknownOption arg)], none)
  | some (.switch s), none => ([.switch s], none)
  | some (.switch _), some _ => ([.bad (.unwantedValue arg)], none)
  | some (.parameter p), some v => ([.value p v], none)
  | some (.parameter p), none => ([], some p)

/-- Cuts arguments into pieces; `waiting` is a parameter whose value comes first. -/
def pieces (options : List OptionEntry) (waiting : Option Parameter) : List String → List Piece
  | [] =>
    match waiting with
    | none => []
    | some p => [.bad (.missingValue p)]
  | arg :: args =>
    match waiting, Argument.ofText arg with
    | none, .separator => args.map .operand
    | none, .operand => .operand arg :: pieces options none args
    | none, .long name value =>
      let (first, next) := longPieces options arg name value
      first ++ pieces options next args
    | none, .cluster letters =>
      let (first, next) := clusterPieces options letters
      first ++ pieces options next args
    | some p, .operand => .value p arg :: pieces options none args
    | some p, _ => [.bad (.missingValue p)]

end RhythmClip.CommandLine
