import RhythmClip.Journal
import RhythmClip.Text.Ink

/-!
# Steps of a session

A session keeps settings that are edited line by line. One step answers a
line: it replies, may print something on its own, and leaves the settings of
the next step together with the records made on the way.

* `Step.settings_refuse`: a complaint leaves the settings as they were.
-/
namespace RhythmClip.Session

open Text

/-- Why a line is refused. -/
inductive Complaint where
  | fault (cause : Fault)
  | velocity (typed : String)
  | subdivision
  | unknownLine (line : String)
  deriving DecidableEq, Repr

def Complaint.text : Complaint → String
  | .fault cause => cause.message
  | .velocity typed => "Invalid velocity '" ++ typed ++ "'. Use a value between 0-127"
  | .subdivision =>
    "Unknown subdivision. Use one of: " ++ String.intercalate ", " (Subdivision.all.map (·.name))
  | .unknownLine line => "Unknown command or pattern '" ++ line ++ "'. Type 'help' for commands."

inductive Reply where
  | success
  | message (text : String)
  | exit
  | notACommand
  | error (complaint : Complaint)
  deriving DecidableEq, Repr

structure Step where
  reply : Reply
  settings : Settings
  printed : String := ""
  records : List Record := []
  deriving DecidableEq, Repr

namespace Step

/-- A message; the settings stay. -/
def say (s : Settings) (text : String) : Step := { reply := .message text, settings := s }

/-- A complaint; the settings stay. -/
def refuse (s : Settings) (complaint : Complaint) : Step :=
  { reply := .error complaint, settings := s }

/-- What an attempt comes to: a step of its value, or a complaint about its
fault. Its records come first. -/
def attempt {α : Type} (s : Settings) (x : Attempt α) (done : α → Step) : Step :=
  let step := match x.outcome with
    | .ok a => done a
    | .error fault => refuse s (.fault fault)
  { step with records := x.records ++ step.records }

@[simp] theorem settings_say (s : Settings) (text : String) : (say s text).settings = s := rfl

@[simp] theorem settings_refuse (s : Settings) (complaint : Complaint) :
    (refuse s complaint).settings = s := rfl

theorem settings_attempt_of_error {α : Type} {s : Settings} {x : Attempt α} {fault : Fault}
    (h : x.outcome = .error fault) (done : α → Step) : (attempt s x done).settings = s := by
  simp [attempt, h]

theorem reply_attempt_of_error {α : Type} {s : Settings} {x : Attempt α} {fault : Fault}
    (h : x.outcome = .error fault) (done : α → Step) :
    (attempt s x done).reply = .error (.fault fault) := by
  simp [attempt, h, refuse]

theorem settings_attempt_of_ok {α : Type} {s : Settings} {x : Attempt α} {a : α}
    (h : x.outcome = .ok a) (done : α → Step) :
    (attempt s x done).settings = (done a).settings := by
  simp [attempt, h]

theorem reply_attempt_of_ok {α : Type} {s : Settings} {x : Attempt α} {a : α}
    (h : x.outcome = .ok a) (done : α → Step) : (attempt s x done).reply = (done a).reply := by
  simp [attempt, h]

end Step

end RhythmClip.Session
