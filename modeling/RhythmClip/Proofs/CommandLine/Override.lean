import RhythmClip.Proofs.CommandLine.Compile
import RhythmClip.Proofs.Settings.Json
import Mathlib.Data.List.Perm.Basic

/-!
# Overriding settings on the command line

What is compiled are the settings of a file, or the defaults where no file is
named, with each value that is given in the field of its parameter
(`Overridden`). The order of the arguments does not show in this, and neither
does it matter whether a setting comes from the file or from an argument: a
file with the overridden settings leads to the same run.

* `signedByte?_of_isNumeral`: a numeral is read as the number that it writes.
* `Overridden.unique`, `overridden_ofGiven`: there is just one way to override
  settings, and the request of the arguments describes it.
* `invocation_of_perm`: the request of arguments in any order.
* `run_of_overridden`: how a run ends follows from the overridden settings.
* `run_of_written`: a file with these settings leads to the same run.
* `compile_of_overridden`: all of it, from the text of the file to the output.
-/
namespace RhythmClip.CommandLine

open Json Text Settings

/-! ## Values of parameters -/

/-- The field that a parameter overrides. The file gives settings as a whole. -/
def Parameter.field? : Parameter → Option Field
  | .params => none
  | .notes => some .notes
  | .pattern => some .pattern
  | .subdivision => some .subdivision
  | .velocity => some .velocity
  | .accent => some .accentMap
  | .accentHi => some .accentHi
  | .accentLo => some .accentLo

/-- A number in decimal digits, perhaps with a sign in front; only zero is written with a minus. -/
def IsNumeral (typed : String) (n : UInt8) : Prop :=
  ∃ sign digits, typed.toList = sign ++ digits ∧
    (sign = [] ∨ sign = ['+'] ∨ sign = ['-'] ∧ n = 0) ∧
    digits ≠ [] ∧ digits.all Char.isDigit = true ∧ Nat.ofDigitChars 10 digits 0 = n.toNat

/-- The value that a text is for a field. -/
def IsValue (text : String) : (f : Field) → f.Value → Prop
  | .notes, notes => notes = NoteList.text text
  | .pattern, value | .subdivision, value | .accentMap, value => value = text
  | .velocity, n | .accentHi, n | .accentLo, n => IsNumeral text n
  | .shuffle, _ | .sizzle, _ | .arpeggiate, _ => False

/-- The texts that a parameter can be given: a path that is not empty, or a value of its field. -/
def Parameter.Accepts (p : Parameter) (text : String) : Prop :=
  match p.field? with
  | none => text ≠ ""
  | some f => ∃ value, IsValue text f value

/-- `t` has the given values in the fields of their parameters, and is `s` elsewhere. -/
structure Overridden (given : List (Parameter × String)) (s t : Settings) : Prop where
  holds : ∀ p text, (p, text) ∈ given → ∀ f, p.field? = some f → IsValue text f (t.get f)
  kept : AgreeOff (given.filterMap fun (p, _) => p.field?) s t

theorem digitsByte?_of_isDigit {digits : List Char} {n : UInt8} (hne : digits ≠ [])
    (hdigits : digits.all Char.isDigit = true) (hvalue : Nat.ofDigitChars 10 digits 0 = n.toNat) :
    digitsByte? digits = some n := by
  have hnatural : Text.natural? digits = some n.toNat := by
    rw [Text.natural?, if_neg, hvalue]
    simpa [hne] using hdigits
  have hle : n.toNat ≤ 255 := Nat.le_of_lt_succ n.toNat_lt
  rw [digitsByte?, hnatural, Option.bind_some, if_pos hle, UInt8.ofNat_toNat]

theorem signedByte?_of_isNumeral {typed : String} {n : UInt8} (h : IsNumeral typed n) :
    signedByte? typed = some n := by
  obtain ⟨sign, digits, htyped, hsign, hne, hdigits, hvalue⟩ := h
  have hread := digitsByte?_of_isDigit hne hdigits hvalue
  rcases hsign with rfl | rfl | ⟨rfl, rfl⟩
  · apply signedByte?_of_byte?
    apply byte?_of_digitsByte?
    rwa [htyped]
  · apply signedByte?_of_byte?
    simp only [Text.byte?, htyped]
    exact hread
  · simp only [signedByte?, htyped]
    rw [List.singleton_append]
    simp [hread]

theorem IsValue.unique {text : String} {f : Field} {value value' : f.Value}
    (h : IsValue text f value) (h' : IsValue text f value') : value = value' := by
  cases f with
  | notes => exact h.trans h'.symm
  | pattern | subdivision | accentMap => exact h.trans h'.symm
  | velocity | accentHi | accentLo =>
    have hread := signedByte?_of_isNumeral h
    rw [signedByte?_of_isNumeral h'] at hread
    exact (Option.some.inj hread).symm
  | shuffle | sizzle | arpeggiate => cases h

/-! ## Overridden settings -/

variable {given given' : List (Parameter × String)} {s s' t t' : Settings}

theorem Overridden.unique (h : Overridden given s t) (h' : Overridden given s t') : t = t' := by
  apply Settings.ext_get
  intro f
  by_cases hf : f ∈ given.filterMap fun (p, _) => p.field?
  · obtain ⟨⟨p, text⟩, hmem, hp⟩ := List.mem_filterMap.1 hf
    exact (h.holds p text hmem f hp).unique (h'.holds p text hmem f hp)
  · rw [h.kept f hf, h'.kept f hf]

theorem Overridden.of_perm (h : Overridden given s t) (hperm : given.Perm given') :
    Overridden given' s t where
  holds p text hmem := h.holds p text (hperm.mem_iff.2 hmem)
  kept f hf := h.kept f fun hmem => hf ((hperm.filterMap _).mem_iff.1 hmem)

/-! ## The request -/

/-- The request that gives these values. -/
def CompileRequest.ofGiven (given : List (Parameter × String)) (json : Bool) : CompileRequest where
  params := given.lookup .params
  notes := given.lookup .notes
  pattern := given.lookup .pattern
  subdivision := given.lookup .subdivision
  velocity := (given.lookup .velocity).bind signedByte?
  accent := given.lookup .accent
  accentHi := (given.lookup .accentHi).bind signedByte?
  accentLo := (given.lookup .accentLo).bind signedByte?
  json := json

theorem lookup_of_mem {p : Parameter} {text : String} (honce : (given.map Prod.fst).Nodup)
    (h : (p, text) ∈ given) : given.lookup p = some text := by
  induction given with
  | nil => cases h
  | cons first later ih =>
    obtain ⟨q, value⟩ := first
    obtain ⟨hnot, honce⟩ := List.nodup_cons.1 honce
    rcases List.mem_cons.1 h with heq | hlater
    · cases heq
      simp
    · have hne : p ≠ q := by
        rintro rfl
        exact hnot (List.mem_map.2 ⟨(p, text), hlater, rfl⟩)
      rw [List.lookup_cons, beq_eq_false_iff_ne.2 hne]
      exact ih honce hlater

theorem lookup_of_not_mem {p : Parameter} (h : p ∉ given.map Prod.fst) : given.lookup p = none := by
  rw [List.lookup_eq_none_iff]
  intro g hg
  rw [bne_iff_ne]
  rintro rfl
  exact h (List.mem_map_of_mem hg)

/-- A value that its parameter accepts is taken, if the parameter has none yet. -/
theorem give_ofGiven {p : Parameter} {text : String} (hnone : given.lookup p = none)
    (haccepts : p.Accepts text) (json : Bool) :
    (CompileRequest.ofGiven given json).give p text =
      .ok (CompileRequest.ofGiven ((p, text) :: given) json) := by
  cases p with
  | params =>
    have hpath : pathValue .params text = .ok text := by
      rw [pathValue, if_neg ((Session.not_isEmpty_iff text).2 haccepts)]
    simp only [CompileRequest.give, CompileRequest.ofGiven, once, hnone, hpath]
    rfl
  | notes | pattern | subdivision | accent =>
    simp only [CompileRequest.give, CompileRequest.ofGiven, once, hnone]
    rfl
  | velocity | accentHi | accentLo =>
    obtain ⟨n, hn⟩ := haccepts
    have hread := signedByte?_of_isNumeral hn
    simp only [CompileRequest.give, CompileRequest.ofGiven, once, hnone, byteValue, hread,
      List.lookup_cons_self, Option.bind_some]
    rfl

theorem giveAll_ofGiven {front : List (Parameter × String)}
    (honce : ((given.reverse ++ front).map Prod.fst).Nodup)
    (haccepts : ∀ g ∈ given, g.1.Accepts g.2) (json : Bool) :
    (CompileRequest.ofGiven front json).giveAll given =
      .ok (CompileRequest.ofGiven (given.reverse ++ front) json) := by
  induction given generalizing front with
  | nil => rfl
  | cons g later ih =>
    obtain ⟨p, text⟩ := g
    obtain ⟨hg, hlater⟩ := List.forall_mem_cons.1 haccepts
    rw [List.reverse_cons, List.append_assoc, List.singleton_append] at honce ⊢
    have hnot : p ∉ front.map Prod.fst := by
      rw [List.map_append, List.map_cons] at honce
      exact (List.nodup_cons.1 honce.of_append_right).1
    rw [CompileRequest.giveAll, List.foldlM_cons]
    simp only [give_ofGiven (lookup_of_not_mem hnot) hg]
    exact ih honce hlater

theorem overridden_ofGiven (honce : (given.map Prod.fst).Nodup)
    (haccepts : ∀ g ∈ given, g.1.Accepts g.2) (json : Bool) (s : Settings) :
    Overridden given s ((CompileRequest.ofGiven given json).override s) where
  holds p text hmem f hp := by
    have hlookup := lookup_of_mem honce hmem
    have hg := haccepts _ hmem
    cases p with
    | params => cases hp
    | notes | pattern | subdivision | accent =>
      cases hp
      simp only [CompileRequest.ofGiven, CompileRequest.override, hlookup]
      rfl
    | velocity | accentHi | accentLo =>
      obtain ⟨n, hn⟩ := hg
      cases hp
      simp only [CompileRequest.ofGiven, CompileRequest.override, hlookup, Option.bind_some,
        signedByte?_of_isNumeral hn]
      exact hn
  kept f hf := by
    have hkept : ∀ p : Parameter, p.field? = some f →
        ((CompileRequest.ofGiven given json).override s).get f = s.get f := by
      intro p hp
      have hnone : given.lookup p = none := by
        refine lookup_of_not_mem fun hmem => hf ?_
        obtain ⟨g, hg, rfl⟩ := List.mem_map.1 hmem
        exact List.mem_filterMap.2 ⟨g, hg, hp⟩
      cases p with
      | params => cases hp
      | notes | pattern | subdivision | accent | velocity | accentHi | accentLo =>
        cases hp
        simp only [CompileRequest.ofGiven, CompileRequest.override, hnone]
        rfl
    cases f with
    | notes => exact hkept .notes rfl
    | pattern => exact hkept .pattern rfl
    | subdivision => exact hkept .subdivision rfl
    | velocity => exact hkept .velocity rfl
    | accentMap => exact hkept .accent rfl
    | accentHi => exact hkept .accentHi rfl
    | accentLo => exact hkept .accentLo rfl
    | shuffle | sizzle | arpeggiate => rfl

/-! ## Arguments in any order -/

variable {args : List String} {json : Bool}

/-- The arguments that give the values, each in its own argument. -/
def assignAll (given : List (Parameter × String)) : List String :=
  given.map fun (p, value) => assign p value

theorem exists_assignAll (h : args.Perm (assignAll given)) :
    ∃ given', given'.Perm given ∧ args = assignAll given' := by
  have hall : List.Forall₂ (fun arg (g : Parameter × String) => arg = assign g.1 g.2)
      (assignAll given) given := by
    rw [assignAll, List.forall₂_map_left_iff, List.forall₂_same]
    exact fun _ _ => rfl
  obtain ⟨given', hargs, hperm⟩ := List.perm_comp_forall₂ h hall
  refine ⟨given', hperm, ?_⟩
  rw [← List.forall₂_eq_eq_eq, assignAll, List.forall₂_map_right_iff]
  exact hargs

/-- The switch for JSON, if it is there, has some of the values in front and the others behind. -/
theorem exists_around (h : args.Perm (assignAll given ++ jsonArgs json)) :
    ∃ front back, (front ++ back).Perm given ∧
      args = assignAll front ++ (jsonArgs json ++ assignAll back) := by
  cases json with
  | false =>
    rw [jsonArgs, if_neg Bool.false_ne_true, List.append_nil] at h
    obtain ⟨given', hperm, hargs⟩ := exists_assignAll h
    exact ⟨given', [], by simpa using hperm, by simpa [jsonArgs, assignAll] using hargs⟩
  | true =>
    have hmem : "--json" ∈ args := h.mem_iff.2 (by simp [jsonArgs])
    obtain ⟨before, after, rfl⟩ := List.append_of_mem hmem
    have hrest : (before ++ after).Perm (assignAll given) := by
      refine List.Perm.cons_inv (List.perm_middle.symm.trans (h.trans ?_))
      exact List.perm_append_singleton _ _
    obtain ⟨given', hperm, hargs⟩ := exists_assignAll hrest
    obtain ⟨front, back, rfl, rfl, rfl⟩ := List.append_eq_map_iff.1 hargs
    exact ⟨front, back, hperm, rfl⟩

theorem readPieces_assignAll {front : List (Parameter × String)}
    (honce : ((given.reverse ++ front).map Prod.fst).Nodup)
    (haccepts : ∀ g ∈ given, g.1.Accepts g.2) (verbosity : Nat) (rest : List String) :
    readPieces takeCompile verbosity (.ofGiven front json)
        (pieces compileOptions none (assignAll given ++ rest)) =
      readPieces takeCompile verbosity (.ofGiven (given.reverse ++ front) json)
        (pieces compileOptions none rest) := by
  rw [assignAll, pieces_assign, readPieces_values (giveAll_ofGiven honce haccepts json)]

theorem readPieces_jsonArgs (given : List (Parameter × String)) (verbosity : Nat)
    (rest : List String) :
    readPieces takeCompile verbosity (.ofGiven given false)
        (pieces compileOptions none (jsonArgs json ++ rest)) =
      readPieces takeCompile verbosity (.ofGiven given json)
        (pieces compileOptions none rest) := by
  cases json with
  | false => rfl
  | true =>
    have hname : Argument.ofText "--json" = .long "json" none := by decide +kernel
    have hfind : findLong? compileOptions "json" = some (.switch .json) := by decide +kernel
    simp only [jsonArgs, if_pos, List.singleton_append, pieces, hname, longPieces, hfind]
    rfl

theorem invocation_of_perm (hargs : args.Perm (assignAll given ++ jsonArgs json))
    (honce : (given.map Prod.fst).Nodup) (haccepts : ∀ g ∈ given, g.1.Accepts g.2) :
    ∃ given', given'.Perm given ∧
      invocation 0 ("compile" :: args) = .ok ⟨0, .compile (.ofGiven given' json)⟩ := by
  obtain ⟨front, back, hperm, rfl⟩ := exists_around hargs
  have hreverse : (back.reverse ++ front.reverse).Perm given := by
    rw [← List.reverse_append]
    exact (List.reverse_perm _).trans hperm
  refine ⟨back.reverse ++ front.reverse, hreverse, ?_⟩
  have hbackOnce : ((back.reverse ++ front.reverse).map Prod.fst).Nodup :=
    (hreverse.map _).nodup_iff.2 honce
  have hfrontOnce : ((front.reverse ++ []).map Prod.fst).Nodup := by
    rw [List.append_nil]
    rw [List.map_append] at hbackOnce
    exact hbackOnce.of_append_right
  have hfront : ∀ g ∈ front, g.1.Accepts g.2 := fun g hg =>
    haccepts g (hperm.mem_iff.1 (List.mem_append_left _ hg))
  have hback : ∀ g ∈ back, g.1.Accepts g.2 := fun g hg =>
    haccepts g (hperm.mem_iff.1 (List.mem_append_right _ hg))
  have hread : readPieces takeCompile 0 {}
      (pieces compileOptions none (assignAll front ++ (jsonArgs json ++ assignAll back))) =
        .ok (0, .ofGiven (back.reverse ++ front.reverse) json) := by
    show readPieces takeCompile 0 (.ofGiven [] false) _ = _
    rw [readPieces_assignAll hfrontOnce hfront, List.append_nil, readPieces_jsonArgs,
      ← List.append_nil (assignAll back), readPieces_assignAll hbackOnce hback]
    rfl
  rw [invocation_cons_compile, invokeCompile, hread]
  rfl

/-! ## Runs -/

/-- What the settings that are overridden come from: the text of the file that is given, or the
defaults if none is. -/
inductive Source (readFile : String → Except String String) (given : List (Parameter × String)) :
    Except Fault Settings → Prop where
  | defaults (h : .params ∉ given.map Prod.fst) : Source readFile given (.ok {})
  | file {path text : String} (hmem : (.params, path) ∈ given) (hread : readFile path = .ok text) :
    Source readFile given (Settings.parse text)

variable {readFile : String → Except String String} {source : Except Fault Settings}

theorem Source.of_perm (h : Source readFile given source) (hperm : given.Perm given') :
    Source readFile given' source := by
  cases h with
  | defaults h => exact .defaults fun hmem => h ((hperm.map _).mem_iff.2 hmem)
  | file hmem hread => exact .file (hperm.mem_iff.1 hmem) hread

theorem base_of_source (h : Source readFile given (.ok s)) (honce : (given.map Prod.fst).Nodup) :
    (CompileRequest.ofGiven given json).base readFile = .ok s := by
  generalize hsource : (Except.ok s : Except Fault Settings) = source at h
  cases h with
  | defaults h =>
    cases hsource
    simp only [CompileRequest.base, CompileRequest.ofGiven, lookup_of_not_mem h]
  | file hmem hread =>
    simp only [CompileRequest.base, CompileRequest.ofGiven, lookup_of_mem honce hmem, hread,
      ← hsource]

theorem exists_failure_of_source {fault : Fault} (h : Source readFile given (.error fault))
    (honce : (given.map Prod.fst).Nodup) :
    ∃ failure, (CompileRequest.ofGiven given json).base readFile = .error failure := by
  generalize hsource : (Except.error fault : Except Fault Settings) = source at h
  cases h with
  | defaults h => cases hsource
  | file hmem hread =>
    simp only [CompileRequest.base, CompileRequest.ofGiven, lookup_of_mem honce hmem, hread,
      ← hsource]
    exact ⟨_, rfl⟩

theorem runCompile_congr {r r' : CompileRequest}
    {readFile readFile' : String → Except String String} (hbase : r.base readFile = .ok s)
    (hbase' : r'.base readFile' = .ok s') (hsettings : r.override s = r'.override s')
    (hjson : r.json = r'.json) (palette : Palette) :
    runCompile palette readFile r = runCompile palette readFile' r' := by
  simp only [runCompile, hbase, hbase', hsettings, hjson]

/-- How compiling the overridden settings ends. -/
theorem runCompile_of_base {r : CompileRequest} (hbase : r.base readFile = .ok s)
    (palette : Palette) :
    let done := runCompile palette readFile r
    (∀ clip, Clip.compile standardChords (r.override s) = .ok clip →
      done.code = 0 ∧ done.stdout = (if r.json then clip.json else clip.listing palette) ++ "\n") ∧
      ∀ fault, Clip.compile standardChords (r.override s) = .error fault →
        done.code = 1 ∧ done.stdout = "" := by
  have hcompiled := Attempt.outcome_compile standardChords (r.override s)
  simp only [runCompile, hbase, hcompiled]
  constructor
  · intro clip hclip
    rw [hclip]
    exact ⟨rfl, rfl⟩
  · intro fault hfault
    rw [hfault]
    exact ⟨rfl, rfl⟩

section Run

variable {p : Settings} (palette : Palette) (input : String)

/-- A run is that of a request with the given values, in some order. -/
theorem run_of_perm (hargs : args.Perm (assignAll given ++ jsonArgs json))
    (honce : (given.map Prod.fst).Nodup) (haccepts : ∀ g ∈ given, g.1.Accepts g.2) :
    ∃ given', given.Perm given' ∧
      run palette readFile input ("compile" :: args) =
        runCompile palette readFile (.ofGiven given' json) := by
  obtain ⟨given', hperm, hinvocation⟩ := invocation_of_perm hargs honce haccepts
  refine ⟨given', hperm.symm, ?_⟩
  rw [run, hinvocation]
  rfl

theorem run_of_source_error {fault : Fault} (hargs : args.Perm (assignAll given ++ jsonArgs json))
    (honce : (given.map Prod.fst).Nodup) (haccepts : ∀ g ∈ given, g.1.Accepts g.2)
    (hsource : Source readFile given (.error fault)) :
    let done := run palette readFile input ("compile" :: args)
    done.code = 1 ∧ done.stdout = "" := by
  obtain ⟨given', hperm, hrun⟩ := run_of_perm palette input hargs honce haccepts
  obtain ⟨failure, hbase⟩ :
      ∃ failure, (CompileRequest.ofGiven given' json).base readFile = .error failure :=
    exists_failure_of_source (hsource.of_perm hperm) ((hperm.map _).nodup_iff.1 honce)
  rw [hrun, runCompile, hbase]
  exact ⟨rfl, rfl⟩

/-- A run is that of a request for the overridden settings. -/
theorem exists_request (hargs : args.Perm (assignAll given ++ jsonArgs json))
    (honce : (given.map Prod.fst).Nodup) (haccepts : ∀ g ∈ given, g.1.Accepts g.2)
    (hsource : Source readFile given (.ok s)) :
    ∃ r : CompileRequest, r.json = json ∧ r.base readFile = .ok s ∧
      Overridden given s (r.override s) ∧
      run palette readFile input ("compile" :: args) = runCompile palette readFile r := by
  obtain ⟨given', hperm, hrun⟩ := run_of_perm palette input hargs honce haccepts
  have honce' := (hperm.map _).nodup_iff.1 honce
  have hover := overridden_ofGiven honce' (fun g hg => haccepts g (hperm.mem_iff.2 hg)) json s
  exact ⟨_, rfl, base_of_source (hsource.of_perm hperm) honce', hover.of_perm hperm.symm, hrun⟩

theorem run_of_overridden (hargs : args.Perm (assignAll given ++ jsonArgs json))
    (honce : (given.map Prod.fst).Nodup) (haccepts : ∀ g ∈ given, g.1.Accepts g.2)
    (hsource : Source readFile given (.ok s)) (hp : Overridden given s p) :
    let done := run palette readFile input ("compile" :: args)
    (∀ clip, Clip.compile standardChords p = .ok clip →
      done.code = 0 ∧ done.stdout = (if json then clip.json else clip.listing palette) ++ "\n") ∧
      ∀ fault, Clip.compile standardChords p = .error fault → done.code = 1 ∧ done.stdout = "" := by
  obtain ⟨r, rfl, hbase, hover, hrun⟩ := exists_request palette input hargs honce haccepts hsource
  rw [hrun, hp.unique hover]
  exact runCompile_of_base hbase palette

/-- The overridden settings may as well come from a file that nothing overrides. -/
theorem run_of_written {path : String} {readFile' : String → Except String String} {style : Style}
    {input' : String} {args' : List String}
    (hargs : args.Perm (assignAll given ++ jsonArgs json))
    (honce : (given.map Prod.fst).Nodup) (haccepts : ∀ g ∈ given, g.1.Accepts g.2)
    (hsource : Source readFile given (.ok s)) (hp : Overridden given s p) (hpath : path ≠ "")
    (hread : readFile' path = .ok (write style p.toJson))
    (hargs' : args'.Perm (assign .params path :: jsonArgs json)) :
    run palette readFile' input' ("compile" :: args') =
      run palette readFile input ("compile" :: args) := by
  have hparse : Settings.parse (write style p.toJson) = .ok p := by
    rw [parse, parse?_write style p.proper_toJson, Option.bind_some, ofJson?_toJson]
  have hsource' : Source readFile' [(.params, path)] (.ok p) :=
    hparse ▸ .file List.mem_cons_self hread
  have hkept : Overridden [(.params, path)] p p := by
    refine ⟨fun q text hmem f hf => ?_, fun f _ => rfl⟩
    obtain ⟨rfl, rfl⟩ := Prod.mk.inj (List.mem_singleton.1 hmem)
    cases hf
  have hargs' : args'.Perm (assignAll [(.params, path)] ++ jsonArgs json) := hargs'
  obtain ⟨r, rfl, hbase, hover, hrun⟩ := exists_request palette input hargs honce haccepts hsource
  obtain ⟨r', hjson, hbase', hover', hrun'⟩ := exists_request palette input' hargs'
    (List.nodup_singleton _) (List.forall_mem_singleton.2 hpath) hsource'
  rw [hrun, hrun']
  refine runCompile_congr hbase' hbase ?_ hjson palette
  rw [hover'.unique hkept, hover.unique hp]

/-- **Compiling on the command line.** Values are given in any order, each at
most once, and JSON may be asked for. Then the settings to compile are those of
the file, or the defaults, with just the fields of the given values replaced.
The run succeeds exactly when the file describes settings and these compile, and
prints the clip; otherwise it fails with code 1 and prints nothing. A file with
the settings that are compiled leads to the same run, in code and texts. -/
theorem compile_of_overridden
    (hargs : args.Perm (assignAll given ++ jsonArgs json))
    (honce : (given.map Prod.fst).Nodup) (haccepts : ∀ g ∈ given, g.1.Accepts g.2)
    (hsource : Source readFile given source) :
    let done := run palette readFile input ("compile" :: args)
    (∀ base, source = .ok base → ∃! p, Overridden given base p) ∧
      (done.code = 0 ↔ ∃ base p clip, source = .ok base ∧ Overridden given base p ∧
        Clip.compile standardChords p = .ok clip) ∧
      (∀ base p clip, source = .ok base → Overridden given base p →
        Clip.compile standardChords p = .ok clip →
          done.stdout = (if json then clip.json else clip.listing palette) ++ "\n") ∧
      (done.code ≠ 0 → done.code = 1 ∧ done.stdout = "") ∧
      ∀ base p, source = .ok base → Overridden given base p →
        ∀ (style : Style) (path : String) (readFile' : String → Except String String)
          (input' : String) (args' : List String),
          path ≠ "" → readFile' path = .ok (write style p.toJson) →
          args'.Perm (assign .params path :: jsonArgs json) →
            run palette readFile' input' ("compile" :: args') = done := by
  intro done
  cases source with
  | error fault =>
    obtain ⟨hcode, hstdout⟩ : done.code = 1 ∧ done.stdout = "" :=
      run_of_source_error palette input hargs honce haccepts hsource
    have hne : done.code ≠ 0 := by rw [hcode]; decide
    refine ⟨fun _ h => (nomatch h), ⟨fun hzero => absurd hzero hne, ?_⟩, fun _ _ _ h => (nomatch h),
      fun _ => ⟨hcode, hstdout⟩, fun _ _ h => (nomatch h)⟩
    rintro ⟨_, _, _, h, -⟩
    cases h
  | ok base =>
    obtain ⟨r, -, -, hover, -⟩ := exists_request palette input hargs honce haccepts hsource
    obtain ⟨hok, herror⟩ := run_of_overridden palette input hargs honce haccepts hsource hover
    have hunique : ∀ base' p, (.ok base : Except Fault Settings) = .ok base' →
        Overridden given base' p → p = r.override base := by
      rintro _ p ⟨⟩ hp
      exact hp.unique hover
    refine ⟨?_, ⟨?_, ?_⟩, ?_, ?_, ?_⟩
    · rintro _ ⟨⟩
      exact ⟨_, hover, fun p hp => hp.unique hover⟩
    · intro hzero
      cases hcompile : Clip.compile standardChords (r.override base) with
      | ok clip => exact ⟨base, _, clip, rfl, hover, hcompile⟩
      | error fault =>
        have hcode : done.code = 1 := (herror fault hcompile).1
        rw [hcode] at hzero
        cases hzero
    · rintro ⟨base', p, clip, hbase, hp, hcompile⟩
      obtain rfl := hunique base' p hbase hp
      exact (hok clip hcompile).1
    · intro base' p clip hbase hp hcompile
      obtain rfl := hunique base' p hbase hp
      exact (hok clip hcompile).2
    · intro hne
      cases hcompile : Clip.compile standardChords (r.override base) with
      | ok clip => exact absurd (hok clip hcompile).1 hne
      | error fault => exact herror fault hcompile
    · rintro _ p ⟨⟩ hp style path readFile' input' args' hpath hread hargs'
      exact run_of_written palette input hargs honce haccepts hsource hp hpath hread hargs'

/-- With a velocity that is too large in the file, which an argument replaces. -/
theorem compile_of_overridden_velocity :
    let readFile : String → Except String String := fun _ => .ok "\x7b\"velocity\": 200\x7d"
    let done := run .plain readFile ""
      ["compile", "--velocity=+090", "--json", "--params=p", "--notes=e4"]
    let p : Settings := { notes := .text "e4", velocity := 90 }
    done.code = 0 ∧ ∃ clip, Clip.compile standardChords p = .ok clip ∧
      done.stdout = clip.json ++ "\n" := by
  intro readFile done p
  let given : List (Parameter × String) :=
    [(.params, "p"), (.velocity, "+090"), (.notes, "e4")]
  have haccepts : ∀ g ∈ given, g.1.Accepts g.2 := by
    have hvelocity : IsNumeral "+090" 90 :=
      ⟨['+'], "090".toList, by decide, by decide, by decide, by decide, by decide⟩
    simp only [given, List.forall_mem_cons]
    exact ⟨(by decide : "p" ≠ ""), ⟨(90 : UInt8), hvelocity⟩, ⟨_, rfl⟩, List.forall_mem_nil _⟩
  have hsource : Source readFile given (Settings.parse "\x7b\"velocity\": 200\x7d") :=
    .file List.mem_cons_self rfl
  have hbase : Settings.parse "\x7b\"velocity\": 200\x7d" = .ok { velocity := 200 } := by
    decide +kernel
  rw [hbase] at hsource
  have hargs : ["--velocity=+090", "--json", "--params=p", "--notes=e4"].Perm
      (assignAll given ++ jsonArgs true) := by decide +kernel
  obtain ⟨hunique, hcode, hstdout, -, -⟩ :=
    compile_of_overridden .plain "" hargs (by decide) haccepts hsource
  have hp : Overridden given { velocity := 200 } p := by
    have hover : (CompileRequest.ofGiven given true).override { velocity := 200 } = p := by
      decide +kernel
    exact hover ▸ overridden_ofGiven (by decide) haccepts true _
  have hok : (Clip.compile standardChords p).isOk = true := by decide +kernel
  obtain ⟨clip, hcompile⟩ := Clip.exists_clip hok
  exact ⟨hcode.2 ⟨_, p, clip, rfl, hp, hcompile⟩, clip, hcompile,
    hstdout _ p clip rfl hp hcompile⟩

end Run

end RhythmClip.CommandLine
