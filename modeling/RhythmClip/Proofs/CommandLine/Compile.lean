import RhythmClip.CommandLine.Run
import RhythmClip.Proofs.Clip.Warnings
import RhythmClip.Proofs.Session.Reachable
import Mathlib.Data.List.TakeWhile

/-!
# Compiling on the command line and in a session

A parameter that is given with its value in one argument is read as just that
parameter. So the settings that all parameters together describe are known,
and they are the settings that the lines of a session with the same values
come to. What is then compiled, and how its outcome is shown, is the same on
both sides but for the framing of a failure.

* `pieces_assign`: arguments that give parameters their values.
* `invocation_compile`: the request of a command line with all parameters but the file.
* `run_compile`: how such a command line ends.
* `run_agrees_with_step`: the same settings in a session.
* `compile_agrees_with_session`: the command line and the session say the same.
-/
namespace RhythmClip.CommandLine

open Text Session

/-! ## Arguments -/

/-- The long name of a parameter. -/
def Parameter.name : Parameter → String
  | .params => "params"
  | .notes => "notes"
  | .pattern => "pattern"
  | .subdivision => "subdiv"
  | .velocity => "velocity"
  | .accent => "accent"
  | .accentHi => "accent-hi"
  | .accentLo => "accent-lo"

/-- A parameter with its value, in one argument. -/
def assign (p : Parameter) (value : String) : String := "--" ++ p.name ++ "=" ++ value

theorem findLong?_name (p : Parameter) : findLong? compileOptions p.name = some (.parameter p) := by
  cases p <;> decide +kernel

theorem splitEquals_of_not_mem {name : List Char} (h : '=' ∉ name) (value : List Char) :
    splitEquals (name ++ '=' :: value) = (String.ofList name, some (String.ofList value)) := by
  have hall : ∀ c ∈ name, decide (c ≠ '=') = true := by
    intro c hc
    rw [decide_eq_true_eq]
    rintro rfl
    exact h hc
  unfold splitEquals
  rw [List.dropWhile_append_of_pos hall, List.takeWhile_append_of_pos hall]
  simp

theorem ofText_assign (p : Parameter) (value : String) :
    Argument.ofText (assign p value) = .long p.name (some value) := by
  have hname : '=' ∉ p.name.toList := by cases p <;> decide
  have hlist : (assign p value).toList = '-' :: '-' :: (p.name.toList ++ '=' :: value.toList) := by
    simp [assign]
  have hne : p.name.toList ++ '=' :: value.toList ≠ [] := by simp
  have hsplit := splitEquals_of_not_mem hname value.toList
  rw [Argument.ofText, hlist]
  -- something follows the hyphens, so they are no separator
  obtain ⟨c, cs, hcs⟩ := List.exists_cons_of_ne_nil hne
  rw [hcs] at hsplit ⊢
  rw [Argument.ofChars, hsplit, String.ofList_toList, String.ofList_toList]
  exact nofun

theorem pieces_assign (given : List (Parameter × String)) (args : List String) :
    pieces compileOptions none ((given.map fun (p, value) => assign p value) ++ args) =
      (given.map fun (p, value) => .value p value) ++ pieces compileOptions none args := by
  induction given with
  | nil => rfl
  | cons a given ih =>
    obtain ⟨p, value⟩ := a
    rw [List.map_cons, List.cons_append]
    simp only [pieces, ofText_assign, longPieces, findLong?_name, ih]
    rfl

/-! ## The request -/

theorem invocation_cons_compile (verbosity : Nat) (args : List String) :
    invocation verbosity ("compile" :: args) = invokeCompile verbosity args := by
  have hname : Argument.ofText "compile" = .operand := by decide +kernel
  rw [invocation, hname]
  rfl

/-- The request after values that are given one after the other. -/
def CompileRequest.giveAll (r : CompileRequest) (given : List (Parameter × String)) :
    Except UsageFault CompileRequest :=
  given.foldlM (fun r (p, value) => r.give p value) r

theorem readPieces_values {given : List (Parameter × String)} {r r' : CompileRequest}
    (h : r.giveAll given = .ok r') (verbosity : Nat)
    (rest : List Piece) :
    readPieces takeCompile verbosity r ((given.map fun (p, value) => .value p value) ++ rest) =
      readPieces takeCompile verbosity r' rest := by
  induction given generalizing r with
  | nil => cases h; rfl
  | cons a given ih =>
    obtain ⟨p, value⟩ := a
    rw [CompileRequest.giveAll, List.foldlM_cons] at h
    cases hgive : r.give p value with
    | error fault => simp only [hgive] at h; cases h
    | ok next =>
      rw [List.map_cons, List.cons_append]
      simp only [readPieces, takeCompile, hgive]
      simp only [hgive] at h
      exact ih h

/-- Arguments that override every setting that can be overridden. -/
def overrideArgs (notes pattern subdivision velocity accent accentHi accentLo : String) :
    List String :=
  [assign .notes notes, assign .pattern pattern, assign .subdivision subdivision,
    assign .velocity velocity, assign .accent accent, assign .accentHi accentHi,
    assign .accentLo accentLo]

/-- The request of such arguments. -/
def CompileRequest.ofSettings (text : String) (s : Settings) (json : Bool) : CompileRequest where
  notes := some text
  pattern := some s.pattern
  subdivision := some s.subdivision
  velocity := some s.velocity
  accent := some s.accentMap
  accentHi := some s.accentHi
  accentLo := some s.accentLo
  json := json

section Request

variable {s : Settings} (w : Wording s)

/-- The values that the arguments give. -/
def given : List (Parameter × String) :=
  [(.notes, w.notes), (.pattern, s.pattern), (.subdivision, s.subdivision),
    (.velocity, w.velocity), (.accent, s.accentMap), (.accentHi, w.hi), (.accentLo, w.lo)]

theorem giveAll_given :
    CompileRequest.giveAll {} (given w) = .ok (.ofSettings w.notes s false) := by
  have hbyte : ∀ {p : Parameter} {value : String} {b : UInt8}, byte? value = some b →
      byteValue p value = .ok b := by
    intro p value b h
    rw [byteValue, signedByte?_of_byte? h]
  simp only [CompileRequest.giveAll, given, List.foldlM_cons, CompileRequest.give, once,
    hbyte w.velocity_eq, hbyte w.hi_eq, hbyte w.lo_eq]
  rfl

/-- What is added to ask for JSON. -/
def jsonArgs (json : Bool) : List String := if json then ["--json"] else []

theorem invocation_compile (json : Bool) :
    invocation 0 ("compile" ::
        (overrideArgs w.notes s.pattern s.subdivision w.velocity s.accentMap w.hi w.lo
          ++ jsonArgs json)) =
      .ok ⟨0, .compile (.ofSettings w.notes s json)⟩ := by
  have hread : readPieces takeCompile 0 (.ofSettings w.notes s false)
      (pieces compileOptions none (jsonArgs json)) = .ok (0, .ofSettings w.notes s json) := by
    cases json with
    | false => rfl
    | true =>
      have hpieces : pieces compileOptions none ["--json"] = [.switch .json] := by decide +kernel
      rw [jsonArgs, if_pos rfl, hpieces]
      rfl
  have hargs : overrideArgs w.notes s.pattern s.subdivision w.velocity s.accentMap w.hi w.lo =
      (given w).map fun (p, value) => assign p value := rfl
  rw [invocation_cons_compile, invokeCompile, hargs, pieces_assign, readPieces_values (giveAll_given w), hread]
  rfl

theorem override_ofSettings (hs : Admissible s) (json : Bool) :
    (CompileRequest.ofSettings w.notes s json).override {} = s := by
  apply Settings.ext_get
  intro f
  cases f with
  | notes => exact w.notes_eq.symm
  | shuffle => exact hs.shuffle.symm
  | sizzle => exact hs.sizzle.symm
  | arpeggiate => exact hs.arpeggiate.symm
  | _ => rfl

/-! ## The outcome -/

/-- The run has printed the text and said nothing else. -/
def Outcome.Prints (o : Outcome) (text : String) : Prop :=
  o.code = 0 ∧ o.stdout = text ++ "\n" ∧ o.stderr = "" ∧ ∀ r ∈ o.records, r.level ≠ .warn

/-- The run has failed to compile for the given reason, and said nothing else. -/
def Outcome.FailsWith (o : Outcome) (why : String) : Prop :=
  o.code = 1 ∧ o.stdout = "" ∧
    o.stderr = "Error: Failed to compile clip\n\nCaused by:\n    " ++ why ++ "\n" ∧
    ∀ r ∈ o.records, r.level ≠ .warn

theorem no_warning_of_admissible (hs : Admissible s) (d : Dictionary) :
    ∀ r ∈ (Attempt.compile d s).records, r.level ≠ .warn := by
  intro r hr hwarn
  rcases Attempt.warning_of_compile d s r hr hwarn with ⟨flag, hflag, -⟩ | ⟨hname, -⟩
  · simp [Settings.flags, hs.shuffle, hs.sizzle, hs.arpeggiate] at hflag
  · obtain ⟨subdivision, hd⟩ := Subdivision.exists_name_eq hs.subdivision
    rw [← hd, Subdivision.ofName?_name] at hname
    cases hname

/-- How a command line with all parameters but the file ends, when a session
can come to the settings that it describes. -/
theorem run_compile (hs : Admissible s) (palette : Palette)
    (readFile : String → Except String String) (input : String) (json : Bool) :
    let done := run palette readFile input ("compile" ::
      (overrideArgs w.notes s.pattern s.subdivision w.velocity s.accentMap w.hi w.lo
        ++ jsonArgs json))
    (∀ clip, Clip.compile standardChords s = .ok clip →
      done.Prints (if json then clip.json else clip.listing palette)) ∧
      ∀ fault, Clip.compile standardChords s = .error fault →
        done.FailsWith (indentRest fault.message) := by
  have hcompiled := Attempt.outcome_compile standardChords s
  have hwarn := no_warning_of_admissible hs standardChords
  have hbase : (CompileRequest.ofSettings w.notes s json).base readFile = .ok {} := rfl
  intro done
  have hdone : done = runCompile palette readFile (.ofSettings w.notes s json) := by
    show run _ _ _ _ = _
    rw [run, invocation_compile w]
    rfl
  rw [hdone, runCompile, hbase]
  simp only [override_ofSettings w hs, hcompiled]
  constructor
  · intro clip hclip
    rw [hclip]
    exact ⟨rfl, rfl, rfl, hwarn⟩
  · intro fault hfault
    rw [hfault]
    exact ⟨rfl, rfl, rfl, hwarn⟩

/-- With the settings that the arguments describe, a session says what the
command line says. -/
theorem run_agrees_with_step (hs : Admissible s) (readFile : String → Except String String)
    (input : String) :
    let args := overrideArgs w.notes s.pattern s.subdivision w.velocity s.accentMap w.hi w.lo
    (∃ listing json,
        (step .plain "clip" s).reply = .message listing ∧
          (run .plain readFile input ("compile" :: args)).Prints listing ∧
          (step .plain "json" s).reply = .message json ∧
          (run .plain readFile input ("compile" :: (args ++ ["--json"]))).Prints json) ∨
      ∃ why,
        (step .plain "clip" s).reply = .error why ∧
          (run .plain readFile input ("compile" :: args)).FailsWith why.text ∧
          (step .plain "json" s).reply = .error why ∧
          (run .plain readFile input ("compile" :: (args ++ ["--json"]))).FailsWith why.text := by
  have hplain := run_compile w hs .plain readFile input false
  rw [jsonArgs, if_neg Bool.false_ne_true, List.append_nil] at hplain
  have hasked := run_compile w hs .plain readFile input true
  rw [jsonArgs, if_pos rfl] at hasked
  rw [reply_step_clip, reply_step_json]
  rcases compile_of_admissible hs with ⟨clip, hok⟩ | hdeep
  · left
    refine ⟨clip.listing .plain, clip.json, ?_, hplain.1 clip hok, ?_, hasked.1 clip hok⟩
    · rw [hok]
    · rw [hok]
  · right
    -- the only reason left is told in one line
    have hindent : indentRest (Fault.pattern .tooDeep).message =
        (Complaint.fault (.pattern .tooDeep)).text := by decide +kernel
    refine ⟨.fault (.pattern .tooDeep), ?_, hindent ▸ hplain.2 _ hdeep, ?_,
      hindent ▸ hasked.2 _ hdeep⟩
    · rw [hdeep]
    · rw [hdeep]

end Request

/-! ## Both sides -/

/-- A number from 0 to 127 in decimal digits, perhaps with zeros in front. -/
def IsVelocity (typed : String) : Prop :=
  typed ≠ "" ∧ typed.toList.all Char.isDigit = true ∧ Nat.ofDigitChars 10 typed.toList 0 ≤ 127

theorem IsVelocity.exists_byte? {typed : String} (h : IsVelocity typed) :
    ∃ v, byte? typed = some v ∧ v ≤ maxVelocity := by
  obtain ⟨hne, hdigits, hle⟩ := h
  have hnatural : natural? typed.toList = some (Nat.ofDigitChars 10 typed.toList 0) := by
    rw [natural?, if_neg]
    simpa [hne] using hdigits
  have hbyte : digitsByte? typed.toList =
      some (UInt8.ofNat (Nat.ofDigitChars 10 typed.toList 0)) := by
    rw [digitsByte?, hnatural, Option.bind_some, if_pos (by omega)]
  refine ⟨_, byte?_of_digitsByte? hbyte, ?_⟩
  rw [UInt8.le_iff_toNat_le, UInt8.toNat_ofNat_of_lt' (Nat.lt_of_le_of_lt hle (by decide))]
  exact hle

section Session

variable {notes pattern subdivision velocity accent hi lo : String}

/-- The lines as names with arguments. -/
theorem typed_lines :
    ["notes " ++ notes, "pattern " ++ pattern, "subdiv " ++ subdivision, "velocity " ++ velocity,
      "accent " ++ accent ++ " " ++ hi ++ " " ++ lo] =
    ["notes" ++ " " ++ notes, "pattern" ++ " " ++ pattern, "subdiv" ++ " " ++ subdivision,
      "velocity" ++ " " ++ velocity,
      "accent" ++ " " ++ (accent ++ " " ++ (hi ++ " " ++ lo))] := by
  have haccent : "accent " ++ accent ++ " " ++ hi ++ " " ++ lo =
      "accent" ++ " " ++ (accent ++ " " ++ (hi ++ " " ++ lo)) := by
    simp only [String.append_assoc]
    rfl
  rw [haccent]
  rfl

/-- **The command line and the session agree.** Values that a session accepts
can be given on its lines, in any order, or all in the arguments of one
command line. Then the command line prints just what the session replies when
it is asked for a listing or for JSON, or it fails with the reason that the
session gives. -/
theorem compile_agrees_with_session (readFile : String → Except String String) (input : String)
    (hnotes : notes ≠ "") (hnotesTrim : Trimmed notes)
    (hnotesOk : ∀ why, (step .plain ("notes " ++ notes) {}).reply ≠ .error why)
    (hpattern : pattern ≠ "") (hpatternTrim : Trimmed pattern)
    (hpatternOk : ∀ why, (step .plain ("pattern " ++ pattern) {}).reply ≠ .error why)
    (hsubdivision : subdivision ∈ ["1n", "2n", "4n", "8n", "16n"]) (hvelocity : IsVelocity velocity)
    (haccent : accent ≠ "") (hmap : ∀ c ∈ accent.toList, c = 'x' ∨ c = '-')
    (hhi : IsVelocity hi) (hlo : IsVelocity lo) {lines : List String}
    (hlines : lines.Perm
      ["notes " ++ notes, "pattern " ++ pattern, "subdiv " ++ subdivision, "velocity " ++ velocity,
        "accent " ++ accent ++ " " ++ hi ++ " " ++ lo]) :
    let args := overrideArgs notes pattern subdivision velocity accent hi lo
    let s := after .plain {} lines
    (∀ reply ∈ replies .plain {} lines, ∀ why, reply ≠ .error why) ∧
      ((∃ listing json,
        (step .plain "clip" s).reply = .message listing ∧
          (run .plain readFile input ("compile" :: args)).Prints listing ∧
          (step .plain "json" s).reply = .message json ∧
          (run .plain readFile input ("compile" :: (args ++ ["--json"]))).Prints json) ∨
      ∃ why,
        (step .plain "clip" s).reply = .error why ∧
          (run .plain readFile input ("compile" :: args)).FailsWith why.text ∧
          (step .plain "json" s).reply = .error why ∧
          (run .plain readFile input ("compile" :: (args ++ ["--json"]))).FailsWith why.text) := by
  obtain ⟨v, hv, hvLe⟩ := hvelocity.exists_byte?
  obtain ⟨vhi, hvhi, hvhiLe⟩ := hhi.exists_byte?
  obtain ⟨vlo, hvlo, hvloLe⟩ := hlo.exists_byte?
  rw [typed_lines] at hlines
  obtain ⟨voicings, hresolve⟩ := exists_resolve_of_reply hnotes hnotesTrim hnotesOk
  obtain ⟨p, hread⟩ := exists_read_of_reply hpattern hpatternTrim hpatternOk
  let target : Settings :=
    { notes := .text notes, pattern, subdivision, velocity := v, accentMap := accent,
      accentHi := vhi, accentLo := vlo }
  have htarget : Admissible target :=
    { notes := ⟨notes, rfl, hnotesTrim, voicings, hresolve⟩
      pattern := ⟨p, hread⟩
      subdivision := hsubdivision
      velocity := hvLe
      accentHi := hvhiLe
      accentLo := hvloLe
      accentMap := hmap
      shuffle := rfl
      sizzle := rfl
      arpeggiate := rfl }
  let w : Wording target :=
    { notes, velocity, accent, hi, lo
      notes_eq := rfl
      velocity_eq := hv
      accent_ne := haccent
      noBlank_accent := noBlank_of_accentMap hmap
      accent_eq := if_neg (ne_off_of_accentMap hmap)
      hi_eq := hvhi
      lo_eq := hvlo }
  obtain ⟨hdone, hafter⟩ := w.after_eq_of_perm htarget .plain hlines
  refine ⟨fun reply hmem => Reply.ne_error_of_isDone (hdone reply hmem), ?_⟩
  rw [hafter]
  exact run_agrees_with_step w htarget readFile input

/-- With the lines of the session in reverse. -/
theorem compile_agrees_with_session_reversed :
    let done := run .plain (fun _ => .error "") ""
      ("compile" :: overrideArgs "c4 Am7" "x[xx]-" "8n" "064" "x-" "127" "7")
    let clip := step .plain "clip" (after .plain {}
      ["accent x- 127 7", "velocity 064", "subdiv 8n", "pattern x[xx]-", "notes c4 Am7"])
    (∃ listing, clip.reply = .message listing ∧ done.Prints listing) ∨
      ∃ why, clip.reply = .error why ∧ done.FailsWith why.text := by
  have hvelocity : ∀ typed ∈ ["064", "127", "7"], IsVelocity typed := by
    unfold IsVelocity
    decide +kernel
  have hnotes : (step .plain ("notes " ++ "c4 Am7") {}).reply.isDone = true := by decide +kernel
  have hpattern : (step .plain ("pattern " ++ "x[xx]-") {}).reply.isDone = true := by
    decide +kernel
  have h := compile_agrees_with_session (fun _ => .error "") "" (by decide)
    ((trim_eq_self_iff "c4 Am7").1 (by decide +kernel)) (Reply.ne_error_of_isDone hnotes)
    (by decide) ((trim_eq_self_iff "x[xx]-").1 (by decide +kernel))
    (Reply.ne_error_of_isDone hpattern) (by decide : "8n" ∈ _) (hvelocity "064" (by simp))
    (by decide) (by simp : ∀ c ∈ "x-".toList, c = 'x' ∨ c = '-') (hvelocity "127" (by simp))
    (hvelocity "7" (by simp))
    (by decide +kernel : ["accent x- 127 7", "velocity 064", "subdiv 8n", "pattern x[xx]-",
      "notes c4 Am7"].Perm _)
  rcases h.2 with ⟨listing, -, hreply, hrun, -⟩ | ⟨why, hreply, hrun, -⟩
  · exact .inl ⟨listing, hreply, hrun⟩
  · exact .inr ⟨why, hreply, hrun⟩

end Session

end RhythmClip.CommandLine
