import RhythmClip.Clip.Listing
import RhythmClip.Proofs.Clip.Compile
import RhythmClip.Proofs.Clip.Json
import RhythmClip.Proofs.Text.Printed
import RhythmClip.Text.Lines

/-!
# A listing is read back

The words of a line name its columns whatever their widths, so a reader finds
in each line the start of an event, its duration and what it does, and in the
last line what the clip is laid out on. Only the velocity of an event that
does not sound is nowhere in the text.

* `ofText?_text`: a time is read back from its text.
* `words_line`: the words of the line of an event.
* `lines_listing`: no line is broken, so there is one for each event and one more.
* `ofText?_listing`: the reader finds in the text what the clip shows.
* `listing_eq_iff`: what clips with the same listing share.
-/
namespace RhythmClip

open Text

/-! ## Reading -/

/-- A whole number, or a numerator and a denominator with a slash between them. -/
def Ticks.ofText? (s : String) : Option Ticks :=
  let number (cs : List Char) : Json := .scalar (.number (String.ofList cs))
  match s.toList.splitOn '/' with
  | [n] => (Json.array [number n, .natural 1]).fraction?
  | [n, d] => (Json.array [number n, number d]).fraction?
  | _ => none

/-- The characters that stand around the pitches of a chord. -/
def isBracketing (c : Char) : Bool := c ∈ ['[', ',', ']']

/-- The pitch in a word, with what stands around it in a chord. -/
def Pitch.ofWord? (word : String) : Option Pitch :=
  ofChars? (word.toList.filter fun c => !isBracketing c)

/-- What an event shows in a listing; only a note shows its velocity. -/
structure Entry where
  start : Ticks
  duration : Ticks
  sound : Sound
  velocity : Option UInt8
  deriving DecidableEq, Repr

def Event.entry (start : Ticks) (e : Event) : Entry :=
  ⟨start, e.duration, e.sound, if e.isSounding then some e.velocity else none⟩

/-- What the words at the end of a line say, and with which velocity. -/
def Sound.ofWords? (words : List String) : Option (Sound × Option UInt8) :=
  match words.reverse with
  | velocity :: "vel" :: names => do
    let voicing ← Voicing.ofList? (← names.reverse.mapM Pitch.ofWord?)
    return (.note voicing, some (← byte? velocity))
  | ["rest", "-"] => some (.rest, none)
  | ["sustain", "_"] => some (.sustain, none)
  | _ => none

def Entry.ofLine? (line : String) : Option Entry :=
  match words line with
  | _ :: start :: duration :: does => do
    let start ← Ticks.ofText? (String.ofList (start.toList.drop 1))
    let duration ← Ticks.ofText? duration
    let (sound, velocity) ← Sound.ofWords? does
    return ⟨start, duration, sound, velocity⟩
  | _ => none

/-- What a clip shows in its listing. -/
structure Listed where
  entries : List Entry
  slots : Nat
  grid : Subdivision
  total : Ticks
  deriving DecidableEq, Repr

def Clip.listed (c : Clip) : Listed :=
  ⟨c.timeline.map fun (start, e) => e.entry start, c.slots, c.grid, c.total⟩

def Listed.ofText? (s : String) : Option Listed := do
  match words (← (lines s).getLast?) with
  | [_, "events,", _, "sounding,", slots, "slots", "of", grid, "=", total, "ticks"] =>
    let entries ← (lines s).dropLast.mapM Entry.ofLine?
    return ⟨entries, ← natural? slots.toList, ← Subdivision.ofName? grid, ← Ticks.ofText? total⟩
  | _ => none

/-! ## Times -/

theorem Ticks.isWord_text (t : Ticks) : IsWord (text t) := by
  unfold text
  split
  · exact isWord_decimalInt t.num
  · exact ((isWord_decimalInt t.num).append (by decide)).append (isWord_decimal t.den)

theorem slash_not_mem_decimal (n : Nat) : '/' ∉ (decimal n).toList := by
  intro h
  rw [decimal, String.toList_ofList] at h
  exact absurd (Nat.isDigit_of_mem_toDigits (by decide) (by decide) h) (by decide)

theorem slash_not_mem_decimalInt (z : Int) : '/' ∉ (decimalInt z).toList := by
  cases z with
  | ofNat n => exact slash_not_mem_decimal n
  | negSucc n =>
    rw [decimalInt, String.toList_append, List.mem_append, not_or]
    exact ⟨by decide, slash_not_mem_decimal (n + 1)⟩

theorem Ticks.ofText?_text (t : Ticks) : ofText? (text t) = some t := by
  have hnum : Json.scalar (.number (decimalInt t.num)) = .integer t.num := rfl
  have hden : Json.scalar (.number (decimal t.den)) = .natural t.den := rfl
  unfold text
  split
  · rename_i hone
    have hsplit : (decimalInt t.num).toList.splitOn '/' = [(decimalInt t.num).toList] := by
      have hslash : ∀ part ∈ [(decimalInt t.num).toList], '/' ∉ part :=
        List.forall_mem_singleton.2 (slash_not_mem_decimalInt t.num)
      have h := List.splitOn_intercalate '/' hslash (by simp)
      rwa [List.intercalate_singleton] at h
    simp only [ofText?, hsplit, String.ofList_toList]
    rw [hnum, ← hone]
    exact fraction?_fraction t
  · have hsplit : (decimalInt t.num ++ "/" ++ decimal t.den).toList.splitOn '/' =
        [(decimalInt t.num).toList, (decimal t.den).toList] := by
      have hslash : ∀ part ∈ [(decimalInt t.num).toList, (decimal t.den).toList], '/' ∉ part := by
        simp [slash_not_mem_decimalInt, slash_not_mem_decimal]
      have h := List.splitOn_intercalate '/' hslash (by simp)
      simpa using h
    simp only [ofText?, hsplit, String.ofList_toList]
    rw [hnum, hden]
    exact fraction?_fraction t

/-! ## Voicings -/

theorem Pitch.isWord_text (p : Pitch) : IsWord p.text := by
  obtain ⟨letter, accidental, octave⟩ := p
  cases letter <;> cases accidental <;> revert octave <;> decide

theorem Pitch.filter_chars (p : Pitch) : p.chars.filter (fun c => !isBracketing c) = p.chars := by
  obtain ⟨letter, accidental, octave⟩ := p
  cases letter <;> cases accidental <;> revert octave <;> decide

section Names

variable {opening closing : String}

theorem isGraphic_of_isBracketing {c : Char} (h : isBracketing c = true) : isGraphic c = true := by
  have hc : c = '[' ∨ c = ',' ∨ c = ']' := by simpa [isBracketing] using h
  rcases hc with rfl | rfl | rfl <;> decide

theorem Pitch.isWord_around (p : Pitch) (hopening : opening.toList.all isBracketing = true)
    (hclosing : closing.toList.all isBracketing = true) :
    IsWord (opening ++ p.text ++ closing) where
  ne_empty := by simp [p.isWord_text.ne_empty]
  graphic c hc := by
    rw [String.toList_append, String.toList_append, List.mem_append, List.mem_append] at hc
    rcases hc with (hc | hc) | hc
    · exact isGraphic_of_isBracketing (List.all_eq_true.1 hopening c hc)
    · exact p.isWord_text.graphic c hc
    · exact isGraphic_of_isBracketing (List.all_eq_true.1 hclosing c hc)

theorem Pitch.ofWord?_around (p : Pitch) (hopening : opening.toList.all isBracketing = true)
    (hclosing : closing.toList.all isBracketing = true) :
    ofWord? (opening ++ p.text ++ closing) = some p := by
  have hnil : ∀ cs : List Char, cs.all isBracketing = true →
      cs.filter (fun c => !isBracketing c) = [] := by
    intro cs hcs
    simpa using hcs
  rw [ofWord?, String.toList_append, String.toList_append, List.filter_append, List.filter_append,
    hnil _ hopening, hnil _ hclosing, text, String.toList_ofList, p.filter_chars]
  simp [ofChars?_chars]

/-- Each name stands in a word of its own, the first behind what opens the
list and each other behind a comma. -/
theorem exists_words_names (hopening : opening.toList.all isBracketing = true) (p : Pitch)
    (ps : List Pitch) (rest : String) :
    ∃ ws, words (opening ++ String.intercalate ", " ((p :: ps).map Pitch.text) ++ "]" ++ " " ++
          rest) = ws ++ words rest ∧
        ws.mapM Pitch.ofWord? = some (p :: ps) := by
  induction ps generalizing opening p with
  | nil =>
    have hclosing : "]".toList.all isBracketing = true := by decide
    have hword := p.isWord_around hopening hclosing
    refine ⟨[opening ++ p.text ++ "]"], ?_, by simp [p.ofWord?_around hopening hclosing]⟩
    rw [List.map_singleton, String.intercalate_singleton,
      words_append_space hword.ne_empty hword.noBlank]
    rfl
  | cons q qs ih =>
    have hcomma : ",".toList.all isBracketing = true := by decide
    have hword := p.isWord_around hopening hcomma
    have hnone : "".toList.all isBracketing = true := by decide
    obtain ⟨ws, hws, hread⟩ := ih hnone q
    refine ⟨(opening ++ p.text ++ ",") :: ws, ?_, by simp [p.ofWord?_around hopening hcomma, hread]⟩
    have hsplit : opening ++ String.intercalate ", " ((p :: q :: qs).map Pitch.text) ++ "]" ++
        " " ++ rest = (opening ++ p.text ++ ",") ++ " " ++
          ("" ++ String.intercalate ", " ((q :: qs).map Pitch.text) ++ "]" ++ " " ++ rest) := by
      have hsep : ", " = "," ++ " " := rfl
      rw [List.map_cons, List.map_cons, String.intercalate_cons_cons, hsep]
      simp only [String.append_assoc, String.empty_append]
    rw [hsplit, words_append_space hword.ne_empty hword.noBlank, hws, List.cons_append]

end Names

theorem Voicing.exists_words_text (v : Voicing) (rest : String) :
    ∃ ws, words (v.text ++ " " ++ rest) = ws ++ words rest ∧
      ws.mapM Pitch.ofWord? = some v.pitches := by
  obtain ⟨p, ps⟩ := v
  cases ps with
  | nil =>
    have hword := p.isWord_text
    have hnone : "".toList.all isBracketing = true := by decide
    have hread := p.ofWord?_around hnone hnone
    rw [String.empty_append, String.append_empty] at hread
    exact ⟨[p.text], words_append_space hword.ne_empty hword.noBlank rest,
      by simp [hread, pitches]⟩
  | cons q qs => exact exists_words_names (by decide) p (q :: qs) rest

/-! ## Lines -/

theorem Event.ofWords?_describe (e : Event) :
    Sound.ofWords? (words (e.describe .plain)) =
      some (e.sound, if e.isSounding then some e.velocity else none) := by
  obtain ⟨sound, duration, velocity⟩ := e
  cases sound with
  | note v =>
    obtain ⟨ws, hws, hread⟩ := v.exists_words_text ("vel" ++ " " ++ decimal velocity.toNat)
    have hnumber := isWord_decimal velocity.toNat
    have hvel : words ("vel" ++ " " ++ decimal velocity.toNat) =
        ["vel", decimal velocity.toNat] := by
      rw [words_append_space (by decide) (by decide), words_single hnumber.ne_empty hnumber.noBlank]
    have hdescribe : describe .plain ⟨.note v, duration, velocity⟩ =
        v.text ++ " " ++ ("vel" ++ " " ++ decimal velocity.toNat) := rfl
    rw [hdescribe, hws, hvel, Sound.ofWords?]
    simp only [List.reverse_append, List.reverse_cons, List.reverse_nil, List.nil_append,
      List.cons_append, List.reverse_reverse, hread, byte?_decimal, Option.bind_eq_bind,
      Option.bind_some]
    rfl
  | rest =>
    have hread : Sound.ofWords? (words "- rest") = some (.rest, none) := by decide +kernel
    exact hread
  | sustain =>
    have hread : Sound.ofWords? (words "_ sustain") = some (.sustain, none) := by decide +kernel
    exact hread

theorem Voicing.isPrinted_text (v : Voicing) : IsPrinted v.text := by
  have hnames : ∀ name ∈ v.names, IsPrinted name :=
    List.forall_mem_map.2 fun p _ => p.isWord_text.isPrinted
  unfold text
  split
  · exact (IsPrinted.append (by decide) (.intercalate (by decide) hnames)).append (by decide)
  · exact v.first.isWord_text.isPrinted

theorem Event.isPrinted_describe (e : Event) : IsPrinted (e.describe .plain) := by
  unfold describe
  split
  · rename_i v hv
    exact (v.isPrinted_text.append (by decide)).append
      (IsPrinted.append (by decide) (isWord_decimal _).isPrinted)
  · decide
  · decide

theorem Event.isPrinted_line (number : Nat) (start : Ticks) (e : Event) :
    IsPrinted (e.line .plain number start) := by
  have hnumber := (isWord_decimal number).isPrinted.alignRight 3
  have hstart := start.isWord_text.isPrinted.alignLeft 8
  have hduration := e.duration.isWord_text.isPrinted.alignLeft 8
  have htimes := (((hnumber.append (by decide : IsPrinted "  @")).append hstart).append
    (by decide : IsPrinted " ")).append hduration
  exact (htimes.append (by decide)).append e.isPrinted_describe

theorem Event.words_line (number : Nat) (start : Ticks) (e : Event) :
    words (e.line .plain number start) =
      decimal number :: ("@" ++ Ticks.text start) :: Ticks.text e.duration ::
        words (e.describe .plain) := by
  obtain ⟨front, hfront, hnumber⟩ := alignRight_eq 3 (decimal number)
  obtain ⟨gap, hgap, hstart⟩ := alignLeft_eq 8 (Ticks.text start)
  obtain ⟨gap', hgap', hduration⟩ := alignLeft_eq 8 (Ticks.text e.duration)
  have hline : e.line .plain number start =
      front ++ (decimal number ++ "  " ++ (("@" ++ Ticks.text start) ++ (gap ++ " ") ++
        (Ticks.text e.duration ++ (gap' ++ " ") ++ e.describe .plain))) := by
    have hat : "  @" = "  " ++ "@" := rfl
    rw [line, hnumber, hstart, hduration, hat]
    simp only [String.append_assoc]
  have hblank : ∀ {gap : String}, IsGap gap → AllBlank (gap ++ " ") := fun h =>
    IsGap.allBlank (h.append (by decide))
  have hword := isWord_decimal number
  have hword' : IsWord ("@" ++ Ticks.text start) := IsWord.append (by decide) start.isWord_text
  have hword'' := e.duration.isWord_text
  rw [hline, words_append_of_allBlank hfront.allBlank,
    words_append_gap hword.ne_empty hword.noBlank (by decide) (by decide),
    words_append_gap hword'.ne_empty hword'.noBlank (hblank hgap) (by simp),
    words_append_gap hword''.ne_empty hword''.noBlank (hblank hgap') (by simp)]

theorem Entry.ofLine?_line (number : Nat) (start : Ticks) (e : Event) :
    ofLine? (e.line .plain number start) = some (e.entry start) := by
  have hat : String.ofList (("@" ++ Ticks.text start).toList.drop 1) = Ticks.text start := by
    simp
  simp only [ofLine?, e.words_line, hat, Ticks.ofText?_text, e.ofWords?_describe,
    Option.bind_eq_bind, Option.bind_some]
  rfl

namespace Clip

theorem mapM_ofLine?_eventLines (number : Nat) (timeline : List (Ticks × Event)) :
    (eventLines .plain number timeline).mapM Entry.ofLine? =
      some (timeline.map fun (start, e) => e.entry start) := by
  induction timeline generalizing number with
  | nil => rfl
  | cons entry later ih =>
    obtain ⟨start, e⟩ := entry
    rw [eventLines, List.mapM_cons, Entry.ofLine?_line, ih]
    rfl

theorem eventLines_eq_mapIdx (palette : Palette) (number : Nat) (timeline : List (Ticks × Event)) :
    eventLines palette number timeline =
      timeline.mapIdx fun i (start, e) => e.line palette (number + i) start := by
  induction timeline generalizing number with
  | nil => rfl
  | cons entry later ih =>
    obtain ⟨start, e⟩ := entry
    rw [eventLines, ih, List.mapIdx_cons]
    simp only [Nat.add_zero, Nat.add_assoc, Nat.add_comm 1]

theorem isPrinted_of_mem_eventLines (number : Nat) (timeline : List (Ticks × Event)) :
    ∀ line ∈ eventLines .plain number timeline, IsPrinted line := by
  induction timeline generalizing number with
  | nil => exact List.forall_mem_nil _
  | cons entry later ih =>
    obtain ⟨start, e⟩ := entry
    exact List.forall_mem_cons.2 ⟨e.isPrinted_line number start, ih (number + 1)⟩

def summaryWords (c : Clip) : List String :=
  [decimal c.events.length, "events,", decimal c.noteCount, "sounding,", decimal c.slots, "slots",
    "of", c.grid.name, "=", Ticks.text c.total, "ticks"]

theorem summary_eq (c : Clip) : c.summary = String.intercalate " " c.summaryWords := by
  have hevents : " events, " = " " ++ "events," ++ " " := rfl
  have hsounding : " sounding, " = " " ++ "sounding," ++ " " := rfl
  have hslots : " slots of " = " " ++ "slots" ++ " " ++ "of" ++ " " := rfl
  have hequals : " = " = " " ++ "=" ++ " " := rfl
  have hticks : " ticks" = " " ++ "ticks" := rfl
  rw [summary, hevents, hsounding, hslots, hequals, hticks]
  simp only [summaryWords, String.intercalate_cons_cons, String.intercalate_singleton,
    String.append_assoc]

theorem isWord_of_mem_summaryWords (c : Clip) : ∀ word ∈ c.summaryWords, IsWord word := by
  have hgrid : IsWord c.grid.name := (isWord_decimal _).append (by decide)
  simp only [summaryWords, List.forall_mem_cons]
  exact ⟨isWord_decimal _, by decide, isWord_decimal _, by decide, isWord_decimal _, by decide,
    by decide, hgrid, by decide, c.total.isWord_text, by decide, List.forall_mem_nil _⟩

theorem words_summary (c : Clip) : words c.summary = c.summaryWords := by
  rw [c.summary_eq, words_intercalate c.isWord_of_mem_summaryWords]

theorem isPrinted_summary (c : Clip) : IsPrinted c.summary := by
  rw [c.summary_eq]
  exact .intercalate (by decide) fun word hword =>
    (c.isWord_of_mem_summaryWords word hword).isPrinted

/-! ## Whole listings -/

theorem not_mem_newline_lines (c : Clip) :
    ∀ line ∈ eventLines .plain 0 c.timeline ++ [c.summary], '\n' ∉ line.toList := by
  rw [List.forall_mem_append, List.forall_mem_singleton]
  exact ⟨fun line hline => (isPrinted_of_mem_eventLines 0 c.timeline line hline).not_mem_newline,
    c.isPrinted_summary.not_mem_newline⟩

theorem lines_listing (c : Clip) :
    lines (c.listing .plain) =
      (c.timeline.mapIdx fun i (start, e) => e.line .plain i start) ++ [c.summary] := by
  rw [listing, paint_plain, lines_intercalate (by simp) c.not_mem_newline_lines,
    eventLines_eq_mapIdx]
  simp only [Nat.zero_add]

theorem ofText?_listing (c : Clip) : Listed.ofText? (c.listing .plain) = some c.listed := by
  have hlines : lines (c.listing .plain) = eventLines .plain 0 c.timeline ++ [c.summary] := by
    rw [lines_listing, eventLines_eq_mapIdx]
    simp only [Nat.zero_add]
  rw [Listed.ofText?, hlines, List.getLast?_concat]
  simp only [Option.bind_eq_bind, Option.bind_some, words_summary, summaryWords,
    List.dropLast_concat, mapM_ofLine?_eventLines, natural?_decimal, Subdivision.ofName?_name,
    Ticks.ofText?_text]
  rfl

end Clip

/-! ## Clips with the same listing -/

/-- The events differ at most in the velocity with which nothing sounds. -/
structure Event.Alike (e e' : Event) : Prop where
  duration : e.duration = e'.duration
  sound : e.sound = e'.sound
  velocity : e.isSounding = true → e.velocity = e'.velocity

theorem Event.entry_eq_iff {start start' : Ticks} {e e' : Event} :
    e.entry start = e'.entry start' ↔ start = start' ∧ e.Alike e' := by
  obtain ⟨sound, duration, velocity⟩ := e
  obtain ⟨sound', duration', velocity'⟩ := e'
  constructor
  · intro h
    obtain ⟨rfl, rfl, rfl, hvelocity⟩ := (Entry.mk.injEq ..).mp h
    refine ⟨rfl, rfl, rfl, fun hsounding => ?_⟩
    cases sound with
    | note v => exact Option.some.inj hvelocity
    | rest | sustain => cases hsounding
  · rintro ⟨rfl, rfl, rfl, hvelocity⟩
    cases sound with
    | note v =>
      obtain rfl := hvelocity rfl
      rfl
    | rest | sustain => rfl

theorem Event.Alike.isSounding_eq {e e' : Event} (h : e.Alike e') :
    e.isSounding = e'.isSounding := by
  rw [isSounding, isSounding, voicing?, voicing?, h.sound]

theorem Event.line_eq_of_entry_eq {start start' : Ticks} {e e' : Event}
    (h : e.entry start = e'.entry start') (palette : Palette) (number : Nat) :
    e.line palette number start = e'.line palette number start' := by
  obtain ⟨rfl, halike⟩ := entry_eq_iff.1 h
  obtain ⟨sound, duration, velocity⟩ := e
  obtain ⟨sound', duration', velocity'⟩ := e'
  obtain ⟨rfl, rfl, hvelocity⟩ := halike
  cases sound with
  | note v =>
    obtain rfl := hvelocity rfl
    rfl
  | rest | sustain => rfl

namespace Clip

theorem eventLines_eq_of_entries_eq {timeline timeline' : List (Ticks × Event)}
    (h : (timeline.map fun (start, e) => e.entry start) =
      timeline'.map fun (start, e) => e.entry start) (palette : Palette) (number : Nat) :
    eventLines palette number timeline = eventLines palette number timeline' := by
  induction timeline generalizing number timeline' with
  | nil => rw [List.map_eq_nil_iff.1 h.symm]
  | cons first later ih =>
    cases timeline' with
    | nil => cases h
    | cons first' later' =>
      obtain ⟨hfirst, hlater⟩ := List.cons.inj h
      rw [eventLines, eventLines, Event.line_eq_of_entry_eq hfirst, ih hlater]

theorem entries_eq_iff {starts starts' : List Ticks} {events events' : List Event}
    (hlength : starts.length = events.length) (hlength' : starts'.length = events'.length) :
    ((starts.zip events).map fun (start, e) => e.entry start) =
        (starts'.zip events').map (fun (start, e) => e.entry start) ↔
      starts = starts' ∧ List.Forall₂ Event.Alike events events' := by
  induction starts generalizing starts' events events' with
  | nil =>
    obtain rfl := List.length_eq_zero_iff.1 hlength.symm
    cases starts' with
    | nil =>
      obtain rfl := List.length_eq_zero_iff.1 hlength'.symm
      simp
    | cons start' starts' =>
      obtain ⟨e', events', rfl⟩ := List.exists_cons_of_length_eq_add_one hlength'.symm
      simp
  | cons start starts ih =>
    obtain ⟨e, events, rfl⟩ := List.exists_cons_of_length_eq_add_one hlength.symm
    cases starts' with
    | nil => simp
    | cons start' starts' =>
      obtain ⟨e', events', rfl⟩ := List.exists_cons_of_length_eq_add_one hlength'.symm
      have hlater := ih (Nat.succ.inj hlength) (Nat.succ.inj hlength')
      simp only [List.zip_cons_cons, List.map_cons, List.cons.injEq, List.forall₂_cons, hlater,
        Event.entry_eq_iff]
      tauto

variable {c c' : Clip}

theorem listed_eq_iff (hlength : c.starts.length = c.events.length)
    (hlength' : c'.starts.length = c'.events.length) :
    c.listed = c'.listed ↔
      c.starts = c'.starts ∧ List.Forall₂ Event.Alike c.events c'.events ∧
        c.slots = c'.slots ∧ c.grid = c'.grid ∧ c.total = c'.total := by
  rw [listed, listed, Listed.mk.injEq, timeline, timeline, entries_eq_iff hlength hlength',
    and_assoc]

theorem countP_eq_of_alike {events events' : List Event}
    (h : List.Forall₂ Event.Alike events events') :
    events.countP Event.isSounding = events'.countP Event.isSounding := by
  induction h with
  | nil => rfl
  | cons hfirst _ ih => rw [List.countP_cons, List.countP_cons, ih, hfirst.isSounding_eq]

/-- The text is made of what the clip shows. -/
theorem listing_eq_of_listed_eq (hlength : c.starts.length = c.events.length)
    (hlength' : c'.starts.length = c'.events.length) (h : c.listed = c'.listed)
    (palette : Palette) : c.listing palette = c'.listing palette := by
  obtain ⟨-, halike, hslots, hgrid, htotal⟩ := (listed_eq_iff hlength hlength').1 h
  have hlines := eventLines_eq_of_entries_eq (congrArg Listed.entries h) palette 0
  have hsummary : c.summary = c'.summary := by
    rw [summary, summary, halike.length_eq, noteCount, noteCount, countP_eq_of_alike halike, hslots,
      hgrid, htotal]
  rw [listing, listing, hlines, hsummary]

/-- **A listing is read back.** The listing of a compiled clip has one line for
each event, in order, and a line that sums up the clip. A reader finds in it
what the clip shows; so two clips share their listing only if they share all of
it but the velocities of events that do not sound, and then they do. -/
theorem listing_eq_iff {d d' : Dictionary} {s s' : Settings} (h : compile d s = .ok c)
    (h' : compile d' s' = .ok c') :
    (lines (c.listing .plain) =
        (c.timeline.mapIdx fun i (start, e) => e.line .plain i start) ++ [c.summary] ∧
      (lines (c.listing .plain)).length = c.events.length + 1 ∧
      Listed.ofText? (c.listing .plain) = some c.listed) ∧
    (c.listing .plain = c'.listing .plain ↔
      c.starts = c'.starts ∧ List.Forall₂ Event.Alike c.events c'.events ∧
        c.slots = c'.slots ∧ c.grid = c'.grid ∧ c.total = c'.total) := by
  obtain ⟨voicings, p, hcompiled⟩ := compiled_of_compile h
  obtain ⟨voicings', p', hcompiled'⟩ := compiled_of_compile h'
  have hlength : c.starts.length = c.events.length := by
    rw [hcompiled.length_starts, hcompiled.length_events]
  have hlength' : c'.starts.length = c'.events.length := by
    rw [hcompiled'.length_starts, hcompiled'.length_events]
  refine ⟨⟨c.lines_listing, ?_, c.ofText?_listing⟩, ?_⟩
  · rw [lines_listing, List.length_append, List.length_mapIdx, timeline, List.length_zip, hlength,
      Nat.min_self, List.length_singleton]
  · rw [← listed_eq_iff hlength hlength']
    constructor
    · intro heq
      have hread := c.ofText?_listing
      rw [heq, ofText?_listing] at hread
      exact (Option.some.inj hread).symm
    · intro hlisted
      exact listing_eq_of_listed_eq hlength hlength' hlisted .plain

/-- With a rest whose velocity does not show. -/
theorem listing_eq_of_velocities :
    let clip (v : UInt8) : Clip :=
      ⟨[⟨.note ⟨⟨.c, .natural, 4⟩, []⟩, 128, 127⟩, ⟨.rest, 128, v⟩], [0, 128], 256, .quarter, 2⟩
    (clip 10).listing .plain = (clip 20).listing .plain := by
  intro clip
  have hclip : ∀ v ∈ [10, 20], compile standardChords
      { pattern := "x-", accentMap := "x", accentHi := 127, velocity := v } = .ok (clip v) := by
    decide +kernel
  refine (listing_eq_iff (hclip 10 (by decide)) (hclip 20 (by decide))).2.2
    ⟨rfl, .cons ⟨rfl, rfl, fun _ => rfl⟩ (.cons ⟨rfl, rfl, nofun⟩ .nil), rfl, rfl, rfl⟩

end Clip

end RhythmClip
