import RhythmClip.Clip

/-!
# The journal of a computation

A record tells what a computation has done, from the small steps (`trace`) to
what a user should know (`warn`). `Logged` pairs a value with the records
made on the way, in order. An `Attempt` may fail as well; what was recorded
before the fault stays in the journal.

* `journal_bind`: the records of a sequence are those of its parts in order.
* `outcome_bind`: recording does not change what an attempt comes to.
-/
namespace RhythmClip

inductive Level where
  | warn | debug | trace
  deriving DecidableEq, Repr

def Level.name : Level → String
  | .warn => "warn" | .debug => "debug" | .trace => "trace"

inductive Record where
  | chordFound (token : String) (voicing : Voicing)
  | subdivisionReplaced (name : String)
  | flagIgnored (flag : Flag)
  | notePlaced (step : Nat) (voicing : Voicing) (duration : Ticks)
  | clipCompiled (pattern : String) (clip : Clip)
  deriving DecidableEq, Repr

namespace Record

def level : Record → Level
  | chordFound .. | notePlaced .. => .trace
  | subdivisionReplaced _ | flagIgnored _ => .warn
  | clipCompiled .. => .debug

def text : Record → String
  | chordFound token voicing => "'" ++ token ++ "' resolved as chord " ++ voicing.text
  | subdivisionReplaced name =>
    "unknown subdivision '" ++ name ++ "', falling back to " ++ Subdivision.quarter.name
  | flagIgnored flag => "'" ++ flag.name ++ "' is accepted but not applied by the clip compiler"
  | notePlaced step voicing duration =>
    "step " ++ Text.decimal step ++ ": " ++ voicing.text ++ " for " ++ Ticks.text duration
  | clipCompiled pattern clip =>
    "compiled '" ++ pattern ++ "' at " ++ clip.grid.name ++ ": "
      ++ Text.decimal clip.events.length ++ " events over " ++ Text.decimal clip.slots ++ " slots, "
      ++ Ticks.text clip.total ++ " ticks"

end Record

/-! ## Values with a journal -/

structure Logged (α : Type) where
  value : α
  journal : List Record

namespace Logged

variable {α β : Type}

def bind (x : Logged α) (f : α → Logged β) : Logged β :=
  ⟨(f x.value).value, x.journal ++ (f x.value).journal⟩

instance : Monad Logged where
  pure a := ⟨a, []⟩
  bind := bind

@[simp] theorem value_pure (a : α) : (pure a : Logged α).value = a := rfl

@[simp] theorem journal_pure (a : α) : (pure a : Logged α).journal = [] := rfl

@[simp] theorem value_bind (x : Logged α) (f : α → Logged β) :
    (x >>= f).value = (f x.value).value := rfl

@[simp] theorem journal_bind (x : Logged α) (f : α → Logged β) :
    (x >>= f).journal = x.journal ++ (f x.value).journal := rfl

instance : LawfulMonad Logged :=
  LawfulMonad.mk' Logged
    (fun x => by simp [Functor.map, Logged.bind])
    (fun _ _ => by simp [Bind.bind, Pure.pure, Logged.bind])
    (fun _ _ _ => by simp [Bind.bind, Logged.bind])

end Logged

/-! ## Attempts -/

abbrev Attempt (α : Type) := ExceptT Fault Logged α

namespace Attempt

variable {α β : Type}

/-- What the attempt comes to, its journal aside. -/
def outcome (x : Attempt α) : Except Fault α := x.run.value

def records (x : Attempt α) : List Record := x.run.journal

/-- An outcome, with records to make when it is a success. -/
def noting (outcome : Except Fault α) (records : α → List Record) : Attempt α :=
  ExceptT.mk ⟨outcome, match outcome with | .ok a => records a | .error _ => []⟩

def record (records : List Record) : Attempt Unit := noting (.ok ()) fun _ => records

@[simp] theorem outcome_noting (o : Except Fault α) (f : α → List Record) :
    (noting o f).outcome = o := rfl

@[simp] theorem records_noting_ok (a : α) (f : α → List Record) :
    (noting (.ok a) f).records = f a := rfl

@[simp] theorem records_noting_error (e : Fault) (f : α → List Record) :
    (noting (.error e) f).records = [] := rfl

@[simp] theorem outcome_pure (a : α) : (pure a : Attempt α).outcome = .ok a := rfl

@[simp] theorem records_pure (a : α) : (pure a : Attempt α).records = [] := rfl

@[simp] theorem outcome_bind (x : Attempt α) (f : α → Attempt β) :
    (x >>= f).outcome = x.outcome >>= fun a => (f a).outcome := by
  obtain ⟨_ | _, _⟩ := x <;> rfl

@[simp] theorem outcome_map (f : α → β) (x : Attempt α) : (f <$> x).outcome = f <$> x.outcome := by
  obtain ⟨_ | _, _⟩ := x <;> rfl

@[simp] theorem outcome_throw (e : Fault) : (throw e : Attempt α).outcome = .error e := rfl

/-- An outcome on its own makes no records. -/
@[simp] theorem outcome_lift (o : Except Fault α) : (liftM o : Attempt α).outcome = o := rfl

theorem records_bind_ok {x : Attempt α} {a : α} (h : x.outcome = .ok a) (f : α → Attempt β) :
    (x >>= f).records = x.records ++ (f a).records := by
  obtain ⟨v, j⟩ := x
  cases (h : v = .ok a)
  rfl

theorem records_bind_error {x : Attempt α} {e : Fault} (h : x.outcome = .error e)
    (f : α → Attempt β) : (x >>= f).records = x.records := by
  obtain ⟨v, j⟩ := x
  cases (h : v = .error e)
  exact List.append_nil j

end Attempt

end RhythmClip
