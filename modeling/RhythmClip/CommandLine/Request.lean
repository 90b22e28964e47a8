import RhythmClip.CommandLine.Argument
import RhythmClip.Settings

/-!
# Requests

The first operand names a command, and the arguments after it are read with
the options of that command. Without a command a session is started. Reading
stops at the first thing that is wrong, and at a switch that asks for the
version or the help.
-/
namespace RhythmClip.CommandLine

/-- What is given for compiling; each parameter overrides a setting. -/
structure CompileRequest where
  params : Option String := none
  notes : Option String := none
  pattern : Option String := none
  subdivision : Option String := none
  velocity : Option UInt8 := none
  accent : Option String := none
  accentHi : Option UInt8 := none
  accentLo : Option UInt8 := none
  json : Bool := false
  deriving DecidableEq, Repr

inductive Request where
  | compile (request : CompileRequest)
  | chord (name : String)
  | session
  deriving DecidableEq, Repr

structure Invocation where
  verbosity : Nat
  request : Request
  deriving DecidableEq, Repr

/-- Why reading stops before there is a request. -/
inductive Stop where
  | version
  | help
  | fault (cause : UsageFault)
  deriving DecidableEq, Repr

/-! ## Reading pieces -/

/-- Reads pieces into `state`. Counts `verbose` switches on top of `verbosity`. -/
def readPieces {α : Type} (take : α → Piece → Except UsageFault α) (verbosity : Nat) (state : α) :
    List Piece → Except Stop (Nat × α)
  | [] => .ok (verbosity, state)
  | .switch .verbose :: ps => readPieces take (verbosity + 1) state ps
  | .switch .version :: _ => .error .version
  | .switch .help :: _ => .error .help
  | .bad fault :: _ => .error (.fault fault)
  | p :: ps =>
    match take state p with
    | .ok next => readPieces take verbosity next ps
    | .error fault => .error (.fault fault)

/-- For a command that takes no operand and no parameter. -/
def takeNothing (_ : Unit) : Piece → Except UsageFault Unit
  | .operand text => .error (.extraOperand text)
  | _ => .ok ()

def takeName (name : Option String) : Piece → Except UsageFault (Option String)
  | .operand text =>
    match name with
    | none => .ok (some text)
    | some _ => .error (.extraOperand text)
  | _ => .ok name

/-- A parameter that is given for the first time. -/
def once {α : Type} (p : Parameter) (present : Option α) (value : α) :
    Except UsageFault (Option α) :=
  if present.isSome then .error (.repeated (.parameter p)) else .ok (some value)

/-- A velocity of any size up to 255; the settings are judged later. -/
def byteValue (p : Parameter) (value : String) : Except UsageFault UInt8 :=
  match Text.signedByte? value with
  | some b => .ok b
  | none => .error (.badValue p value)

/-- The path of a file is not empty. -/
def pathValue (p : Parameter) (value : String) : Except UsageFault String :=
  if value.isEmpty then .error (.badValue p value) else .ok value

def CompileRequest.give (r : CompileRequest) (p : Parameter) (value : String) :
    Except UsageFault CompileRequest := do
  match p with
  | .params => return { r with params := ← once p r.params (← pathValue p value) }
  | .notes => return { r with notes := ← once p r.notes value }
  | .pattern => return { r with pattern := ← once p r.pattern value }
  | .subdivision => return { r with subdivision := ← once p r.subdivision value }
  | .velocity => return { r with velocity := ← once p r.velocity (← byteValue p value) }
  | .accent => return { r with accent := ← once p r.accent value }
  | .accentHi => return { r with accentHi := ← once p r.accentHi (← byteValue p value) }
  | .accentLo => return { r with accentLo := ← once p r.accentLo (← byteValue p value) }

def takeCompile (r : CompileRequest) : Piece → Except UsageFault CompileRequest
  | .operand text => .error (.extraOperand text)
  | .value p value => r.give p value
  | .switch s =>
    if r.json then .error (.repeated (.switch s)) else .ok { r with json := true }
  | .bad fault => .error fault

/-! ## Commands -/

def invokeCompile (verbosity : Nat) (args : List String) : Except Stop Invocation := do
  let (verbosity, request) ← readPieces takeCompile verbosity {} (pieces compileOptions none args)
  return ⟨verbosity, .compile request⟩

def invokeChord (verbosity : Nat) (args : List String) : Except Stop Invocation := do
  let (verbosity, name) ← readPieces takeName verbosity none (pieces sharedOptions none args)
  match name with
  | some name => return ⟨verbosity, .chord name⟩
  | none => throw (.fault .missingName)

def invokeSession (verbosity : Nat) (args : List String) : Except Stop Invocation := do
  let (verbosity, _) ← readPieces takeNothing verbosity () (pieces sharedOptions none args)
  return ⟨verbosity, .session⟩

/-- The names that a request for help may give. -/
def helpTopics : List String := ["compile", "chord", "repl", "help"]

/-- Reads what help is asked for. Each argument has to be one of the topics,
and no topic has topics of its own. -/
def helpStop (topics : List String) : List String → Stop
  | [] => .help
  | name :: names =>
    if topics.contains name then helpStop [] names else .fault (.unknownCommand name)

/-- The invocation of a named command. -/
def invoke (verbosity : Nat) (name : String) (args : List String) : Except Stop Invocation :=
  match name with
  | "compile" => invokeCompile verbosity args
  | "chord" => invokeChord verbosity args
  | "repl" => invokeSession verbosity args
  | "help" => .error (helpStop helpTopics args)
  | _ => .error (.fault (.unknownCommand name))

/-- Reads arguments from the front, up to the name of the command. The
separator ends the options, and no operand is known behind it. -/
def invocation (verbosity : Nat) : List String → Except Stop Invocation
  | [] => .ok ⟨verbosity, .session⟩
  | arg :: args =>
    match Argument.ofText arg with
    | .operand => invoke verbosity arg args
    | .separator => invokeSession verbosity ("--" :: args)
    | _ => do
      let (verbosity, _) ← readPieces takeNothing verbosity () (pieces leadingOptions none [arg])
      invocation verbosity args

end RhythmClip.CommandLine
