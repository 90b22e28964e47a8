import RhythmClip.CommandLine.Run
import RhythmClip.Proofs.Session.Run
import RhythmClip.Proofs.Text.Printed
import RhythmClip.Proofs.Text.Typed

/-!
# What a session shows

Seen from outside, a session is its lines answered one after the other, each
from the settings that those before it lead to (`steps`), and cut off behind
the first answer that exits (`untilExit`). The lines are what is typed between
the line feeds, after its backspaces, trimmed, and only if that leaves a text;
where nobody types a backspace, trimming is all.

* `transcript_eq`: the transcript is what the steps up to the exit show, and
  the farewell if there is no exit.
* `untilExit_append`: what comes behind an exit is not answered.
* `fullLines_eq_trimmedLines`: the lines of a text without backspaces.
* `run_eq_sessionOutcome`: the program without a command, or with the command for a
  session.
-/
namespace RhythmClip

/-! ## Lines without backspaces -/

namespace Text

/-- The lines of a text, trimmed, without those that are blank. -/
def trimmedLines (s : String) : List String := ((lines s).map trim).filter fun line => !line.isEmpty

theorem entered_of_not_mem {line : String} (h : backspace ∉ line.toList) :
    entered line = trim line := by
  rw [entered, edited, editedChars_of_not_mem h, String.ofList_toList]

theorem not_mem_of_mem_lines {s line : String} {c : Char} (h : c ∉ s.toList)
    (hline : line ∈ lines s) : c ∉ line.toList := by
  obtain ⟨cs, hcs, rfl⟩ := List.mem_map.1 hline
  rw [String.toList_ofList]
  intro hc
  have hmem := mem_intercalate ['\n'] hcs hc
  rw [List.intercalate_splitOn] at hmem
  exact h hmem

theorem fullLines_eq_trimmedLines {s : String} (h : backspace ∉ s.toList) :
    fullLines s = trimmedLines s := by
  have hmap : (lines s).map entered = (lines s).map trim :=
    List.map_congr_left fun line hline => entered_of_not_mem (not_mem_of_mem_lines h hline)
  rw [fullLines, hmap, trimmedLines]

end Text

namespace Session

open Text

variable {palette : Palette} {s : Settings}

/-! ## Steps -/

/-- The steps that lines lead to, one after the other, whatever is replied. -/
def steps (palette : Palette) (s : Settings) : List String → List Step
  | [] => []
  | line :: later => step palette line s :: steps palette (step palette line s).settings later

def exits (dones : List Step) : Bool := dones.any fun done => done.reply = .exit

/-- The steps up to the first one that exits, and that one too. -/
def untilExit : List Step → List Step
  | [] => []
  | done :: later => if done.reply = .exit then [done] else done :: untilExit later

/-- Each line is answered from the settings that the lines before it lead to. -/
theorem getElem?_steps (palette : Palette) (s : Settings) (lines : List String) (k : Nat) :
    (steps palette s lines)[k]? =
      lines[k]?.map fun line => step palette line (after palette s (lines.take k)) := by
  induction lines generalizing s k with
  | nil => rfl
  | cons line later ih =>
    cases k with
    | zero => rfl
    | succ k => exact ih _ k

theorem steps_append (palette : Palette) (s : Settings) (lines rest : List String) :
    steps palette s (lines ++ rest) =
      steps palette s lines ++ steps palette (after palette s lines) rest := by
  induction lines generalizing s with
  | nil => rfl
  | cons line later ih => simp [steps, after, ih]

theorem exits_cons (done : Step) (later : List Step) :
    exits (done :: later) = (decide (done.reply = .exit) || exits later) := rfl

theorem exits_append (dones later : List Step) :
    exits (dones ++ later) = (exits dones || exits later) := List.any_append

theorem untilExit_append {dones : List Step} (h : exits dones = true) (later : List Step) :
    untilExit (dones ++ later) = untilExit dones := by
  induction dones with
  | nil => cases h
  | cons done dones ih =>
    simp only [List.cons_append, untilExit]
    split
    · rfl
    · rename_i hstay
      rw [exits_cons, decide_eq_false hstay, Bool.false_or] at h
      rw [ih h]

/-! ## Transcripts -/

theorem transcript_eq (palette : Palette) (s : Settings) (lines : List String) :
    transcript palette s lines =
      String.join ((untilExit (steps palette s lines)).map (Step.shown palette)) ++
        if exits (steps palette s lines) then "" else goodbye palette := by
  induction lines generalizing s with
  | nil => simp [transcript, steps, untilExit, exits]
  | cons line later ih =>
    rw [transcript, steps, untilExit, exits_cons]
    by_cases hexit : (step palette line s).reply = .exit
    · simp [hexit, String.join]
    · rw [if_neg hexit, decide_eq_false hexit, Bool.false_or, List.map_cons, String.join_cons,
        String.append_assoc, ← ih]
      split
      · rename_i hr
        exact absurd hr hexit
      · rfl

/-- Behind an exit it does not matter what is typed. -/
theorem transcript_append {lines : List String} (h : exits (steps palette s lines) = true)
    (rest : List String) : transcript palette s (lines ++ rest) = transcript palette s lines := by
  rw [transcript_eq, transcript_eq, steps_append, untilExit_append h, exits_append, h, Bool.true_or]

/-- Two inputs say the same, line by line, up to their end or up to an exit. -/
def Agree (palette : Palette) (input input' : String) : Prop :=
  ∃ lines rest rest', fullLines input = lines ++ rest ∧ fullLines input' = lines ++ rest' ∧
    (rest = rest' ∨ exits (steps palette {} lines) = true)

theorem run_eq_of_agree {input input' : String} (h : Agree palette input input') :
    run palette input = run palette input' := by
  obtain ⟨lines, rest, rest', hlines, hlines', he⟩ := h
  rw [run, run, hlines, hlines']
  rcases he with rfl | hexit
  · rfl
  · rw [transcript_append hexit, transcript_append hexit]

end Session

namespace CommandLine

open Text Session

theorem run_of_session {args : List String} (h : args = [] ∨ args = ["repl"]) (palette : Palette)
    (readFile : String → Except String String) (input : String) :
    run palette readFile input args = .success (Session.run palette input) [] := by
  rcases h with rfl | rfl <;> rfl

/-- How a session ends whose lines are these. -/
def sessionOutcome (palette : Palette) (lines : List String) : Outcome :=
  let dones := steps palette {} lines
  ⟨0, banner palette ++ (String.join ((untilExit dones).map (Step.shown palette))
    ++ if exits dones then "" else goodbye palette), "", []⟩

/-- **A session is its lines.** Without arguments, or with the one for a
session, a run succeeds and shows the banner and what the lines of its input
show one after the other, up to the first that exits, or else to the end and
with a farewell. Each line is answered from the settings that those before it
lead to. Without a backspace the lines are trimmed and the blank ones left
out; so blanks around lines, blank lines and all that follows an exit make no
difference. A backspace is a grapheme of its own and takes back the last one
that is still there, if that is of fewer than 256 bytes. Of longer ones it takes
back the length modulo 256; where this ends inside of a character a line reader
panics, while here the line goes on (`Text.Typed.takeBack`). -/
theorem run_eq_sessionOutcome (palette : Palette) (readFile : String → Except String String)
    {args : List String} (h : args = [] ∨ args = ["repl"]) :
    (∀ input, run palette readFile input args = sessionOutcome palette (fullLines input)) ∧
      (∀ (lines : List String) (k : Nat), (steps palette {} lines)[k]? =
        lines[k]?.map fun line => step palette line (after palette {} (lines.take k))) ∧
      (∀ input, backspace ∉ input.toList → fullLines input = trimmedLines input) ∧
      (∀ input input', Agree palette input input' →
        run palette readFile input args = run palette readFile input' args) ∧
      (∀ input rest, exits (steps palette {} (fullLines input)) = true →
        run palette readFile (input ++ "\n" ++ rest) args = run palette readFile input args) ∧
      (∀ cs ds, graphemes (cs ++ backspace :: ds) = graphemes cs ++ [backspace] :: graphemes ds) ∧
      ∀ line, MeetsShort line → entered line = trim (backspaced line) := by
  have hrun := run_of_session h palette readFile
  refine ⟨fun input => ?_, getElem?_steps palette {}, fun input => fullLines_eq_trimmedLines,
    fun input input' hagree => ?_, fun input rest hexit => ?_, graphemes_append_backspace,
    fun line => entered_eq_trim_backspaced⟩
  · rw [hrun, Session.run, transcript_eq]
    rfl
  · rw [hrun, hrun, run_eq_of_agree hagree]
  · rw [hrun, hrun, Session.run, Session.run, fullLines_append, transcript_append hexit]

/-- Blanks and a late line make no difference to a session that exits, and a
letter that is taken back does not keep it from exiting. -/
theorem run_eq_sessionOutcome_quit :
    Agree .plain "\n  velocity 90\nquit" "velocity 90 \n\n quit\nclip" ∧
      run .plain (fun _ => .error "") "\n  velocity 90\nquit" ["repl"] =
        run .plain (fun _ => .error "") "velocity 90 \n\n quit\nclip" ["repl"] ∧
      MeetsShort "quix\x08t" ∧ entered "quix\x08t" = "quit" := by
  have hagree : Agree .plain "\n  velocity 90\nquit" "velocity 90 \n\n quit\nclip" :=
    ⟨["velocity 90", "quit"], [], ["clip"], by decide +kernel, by decide +kernel,
      .inr (by decide +kernel)⟩
  have hshort : MeetsShort "quix\x08t" := by decide +kernel
  obtain ⟨-, -, -, hsame, -, -, hentered⟩ :=
    run_eq_sessionOutcome .plain (fun _ => .error "") (.inr rfl)
  exact ⟨hagree, hsame _ _ hagree, hshort, (hentered _ hshort).trans (by decide +kernel)⟩

/-- A line is not what stands between two line feeds: a backspace takes back
what was typed before it, so this session exits. -/
theorem run_ne_sessionOutcome_trimmedLines :
    ¬∀ (palette : Palette) (readFile : String → Except String String) (args : List String),
      args = [] ∨ args = ["repl"] → ∀ input,
        run palette readFile input args = sessionOutcome palette (trimmedLines input) := by
  intro h
  exact absurd (h .plain (fun _ => .error "") ["repl"] (.inr rfl) "quix\x08t") (by decide +kernel)

end CommandLine

end RhythmClip
