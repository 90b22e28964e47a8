import RhythmClip.CommandLine.Run

/-!
# The program

Reads the arguments, the one file that a request names and, for a session,
the lines of the input as they come. The exit code and all that is printed
are decided by `RhythmClip.CommandLine`.
-/
namespace RhythmClip.Main

open CommandLine

/-- The least level that is reported for a number of `verbose` switches. -/
def isReported (verbosity : Nat) : Level → Bool
  | .warn => true
  | .debug => 1 ≤ verbosity
  | .trace => 2 ≤ verbosity

def report (verbosity : Nat) (records : List Record) : IO Unit :=
  for r in records do
    if isReported verbosity r.level then
      IO.eprintln (r.level.name.toUpper ++ " " ++ r.text)

/-- Colours are shown on a terminal, unless the environment asks for none. -/
def chosenPalette : IO Text.Palette := do
  let refused ← IO.getEnv "NO_COLOR"
  let terminal ← (← IO.getStdout).isTty
  return if terminal && refused.isNone then .coloured else .plain

def readParams (path : String) : IO (Except String String) := do
  try
    return .ok (← IO.FS.readFile path)
  catch
    | .noFileOrDirectory _ _ _ => return .error "No such file or directory (os error 2)"
    | e => return .error (toString e)

/-- Answers the lines of the input as they come. -/
partial def converse (palette : Text.Palette) (verbosity : Nat) (s : Settings) : IO Unit := do
  let stdout ← IO.getStdout
  let typed ← (← IO.getStdin).getLine
  if typed.isEmpty then
    stdout.putStr (Session.goodbye palette)
  else
    let line := Text.entered typed
    if line.isEmpty then
      converse palette verbosity s
    else
      let done := Session.step palette line s
      report verbosity done.records
      stdout.putStr (done.shown palette)
      stdout.flush
      if done.reply ≠ .exit then
        converse palette verbosity done.settings

def finish (verbosity : Nat) (outcome : Outcome) : IO UInt32 := do
  report verbosity outcome.records
  IO.print outcome.stdout
  IO.eprint outcome.stderr
  return outcome.code

def start (palette : Text.Palette) (i : Invocation) : IO UInt32 := do
  match i.request with
  | .session =>
    IO.print (Session.banner palette)
    converse palette i.verbosity {}
    return 0
  | .chord name => finish i.verbosity (runChord name)
  | .compile r =>
    let content ← match r.params with
      | some path => readParams path
      | none => pure (.ok "")
    finish i.verbosity (runCompile palette (fun _ => content) r)

end RhythmClip.Main

def main (args : List String) : IO UInt32 := do
  let palette ← RhythmClip.Main.chosenPalette
  match RhythmClip.CommandLine.invocation 0 args with
  | .ok i => RhythmClip.Main.start palette i
  | .error stop => RhythmClip.Main.finish 0 stop.outcome
