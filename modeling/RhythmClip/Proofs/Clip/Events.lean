import RhythmClip.Proofs.Clip.Compile

/-!
# The events of a compiled clip

Reading the pattern text from left to right without its brackets gives the
events of the clip, one for each character. Two counters run along: the notes
cycle through the voicings and through the accents. Both count the `x` read so
far, at whatever depth, so `eventAt` needs only that number.

* `perform_getElem?`: the event of a leaf depends on the notes before it.
* `map_char_marks`: the marks of a pattern are the characters of its text
  without the brackets.
* `Settings.Plays`: what a character stands for.
* `events_of_compile`: every event of a compiled clip is what its character
  stands for.
-/
namespace RhythmClip

/-! ## Performing leaf by leaf -/

namespace Part

/-- The event of a leaf before which `n` notes have sounded. -/
def eventAt (part : Part) (n : Nat) : Leaf → Event
  | ⟨.note, d⟩ => ⟨.note (part.voicings.get n), d, part.noteVelocity n⟩
  | ⟨.rest, d⟩ => ⟨.rest, d, part.velocity⟩
  | ⟨.sustain, d⟩ => ⟨.sustain, d, part.velocity⟩

theorem perform_cons (part : Part) (n : Nat) (leaf : Leaf) (leaves : List Leaf) :
    part.perform n (leaf :: leaves) =
      part.eventAt n leaf :: part.perform (n + [leaf.mark].count .note) leaves := by
  obtain ⟨_ | _ | _, d⟩ := leaf <;> rfl

theorem perform_getElem? (part : Part) (n : Nat) (leaves : List Leaf) (k : Nat) :
    (part.perform n leaves)[k]? =
      leaves[k]?.map (part.eventAt (n + ((leaves.take k).map Leaf.mark).count .note)) := by
  induction leaves generalizing n k with
  | nil => rfl
  | cons leaf leaves ih =>
    rw [perform_cons]
    cases k with
    | zero => simp
    | succ k =>
      have hcount : ((leaf :: leaves).take (k + 1)).map Leaf.mark =
          [leaf.mark] ++ (leaves.take k).map Leaf.mark := rfl
      rw [List.getElem?_cons_succ, List.getElem?_cons_succ, ih, hcount, List.count_append,
        Nat.add_assoc]

end Part

/-! ## Characters of the pattern text -/

namespace Pattern

def isBracket (c : Char) : Bool := c = '[' || c = ']'

/-- The characters of a pattern text that are no brackets. -/
def eventChars (s : String) : List Char := s.toList.filter fun c => !isBracket c

theorem isBracket_char (m : Mark) : isBracket (Symbol.mark m).char = false := by
  cases m <;> decide

theorem map_char_marks (p : Pattern) :
    p.marks.map (fun m => (Symbol.mark m).char) =
      (p.symbols.map Symbol.char).filter fun c => !isBracket c := by
  induction p with
  | nil => rfl
  | mark m p ih => simp [marks, symbols, isBracket_char, ih]
  | group i p ihi ih =>
    have ho : isBracket Symbol.opening.char = true := by decide
    have hc : isBracket Symbol.closing.char = true := by decide
    simp [marks, symbols, ho, hc, ihi, ih]

theorem eventChars_text (p : Pattern) :
    eventChars p.text = p.marks.map fun m => (Symbol.mark m).char := by
  rw [map_char_marks, eventChars, text, String.toList_ofList]

theorem count_map_char (ms : List Mark) :
    (ms.map fun m => (Symbol.mark m).char).count 'x' = ms.count .note := by
  induction ms with
  | nil => rfl
  | cons m ms ih =>
    rw [List.map_cons, List.count_cons, List.count_cons, ih]
    cases m <;> rfl

theorem count_toList_text (p : Pattern) : p.text.toList.count 'x' = p.noteCount := by
  have hfilter : p.text.toList.count 'x' = (eventChars p.text).count 'x' := by
    rw [eventChars, List.count_filter (by decide)]
  rw [hfilter, eventChars_text, count_map_char, count_marks]

end Pattern

/-! ## What a character stands for -/

namespace Settings

/-- The velocity of a note after `n` notes: the plain one without accents,
and else the high or the low one as the accent map has it, round and round. -/
def Accents (s : Settings) (n : Nat) (velocity : UInt8) : Prop :=
  (s.accentMap = "" ∧ velocity = s.velocity) ∨
    ∃ a, s.accentMap.toList[n % s.accentMap.toList.length]? = some a ∧
      (a = 'x' ∧ velocity = s.accentHi ∨ a = '-' ∧ velocity = s.accentLo)

/-- The event that a character stands for after `n` notes: an `x` plays the
next of the voicings, round and round, and the others are silent. -/
def Plays (s : Settings) (voicings : List Voicing) (n : Nat) (c : Char) (e : Event) : Prop :=
  (c = '-' ∧ e.mark = .rest ∧ e.voicing? = none ∧ e.velocity = s.velocity) ∨
    (c = '_' ∧ e.mark = .sustain ∧ e.voicing? = none ∧ e.velocity = s.velocity) ∨
    (c = 'x' ∧ e.mark = .note ∧
      (∃ v, voicings[n % voicings.length]? = some v ∧ e.voicing? = some v) ∧
      s.Accents n e.velocity)

/-- The accents of a map text with a first character. -/
theorem ofMap?_eq {map : String} {a : Char} {as : List Char} (h : map.toList = a :: as)
    (hi lo : UInt8) :
    Accent.ofMap? map hi lo = some ⟨(Cycle.mk a as).map (· == 'x'), hi, lo⟩ := by
  rw [Accent.ofMap?, h]
  rfl

theorem accents_noteVelocity {s : Settings} (h : s.check = .ok ()) (voicings : Cycle Voicing)
    (n : Nat) : s.Accents n ((s.part voicings).noteVelocity n) := by
  obtain ⟨-, -, -, hmap⟩ := s.check_eq_ok_iff.1 h
  cases hl : s.accentMap.toList with
  | nil =>
    left
    refine ⟨String.toList_eq_nil_iff.1 hl, ?_⟩
    simp [Part.noteVelocity, part, Accent.ofMap?, hl, Cycle.ofList?]
  | cons a as =>
    right
    have hat : s.accentMap.toList[n % s.accentMap.toList.length]? = some ((Cycle.mk a as).get n) := by
      rw [hl]
      exact Cycle.getElem?_toList ⟨a, as⟩ n
    have hv : (s.part voicings).noteVelocity n =
        if (Cycle.mk a as).get n == 'x' then s.accentHi else s.accentLo := by
      simp only [Part.noteVelocity, part, ofMap?_eq hl, Accent.velocity, Cycle.get_map]
    have hchar := hmap _ (List.mem_of_getElem? hat)
    rw [isAccentChar, Bool.or_eq_true, decide_eq_true_eq, decide_eq_true_eq] at hchar
    refine ⟨_, hat, ?_⟩
    rcases hchar with hx | hx
    · exact .inl ⟨hx, by rw [hv, hx]; rfl⟩
    · exact .inr ⟨hx, by rw [hv, hx]; rfl⟩

theorem plays_eventAt {s : Settings} (h : s.check = .ok ()) (voicings : Cycle Voicing) (n : Nat)
    (leaf : Leaf) :
    s.Plays voicings.toList n (Symbol.mark leaf.mark).char ((s.part voicings).eventAt n leaf) := by
  obtain ⟨_ | _ | _, d⟩ := leaf
  · exact .inr (.inr ⟨rfl, rfl, ⟨_, voicings.getElem?_toList n, rfl⟩,
      accents_noteVelocity h voicings n⟩)
  · exact .inl ⟨rfl, rfl, rfl, rfl⟩
  · exact .inr (.inl ⟨rfl, rfl, rfl, rfl⟩)

theorem le_of_accents {s : Settings} (h : s.check = .ok ()) {n : Nat} {velocity : UInt8}
    (ha : s.Accents n velocity) : velocity ≤ 127 := by
  obtain ⟨hv, hhi, hlo, -⟩ := s.check_eq_ok_iff.1 h
  rcases ha with ⟨-, rfl⟩ | ⟨a, -, ⟨-, rfl⟩ | ⟨-, rfl⟩⟩
  · exact hv
  · exact hhi
  · exact hlo

theorem le_of_plays {s : Settings} (h : s.check = .ok ()) {voicings : List Voicing} {n : Nat}
    {c : Char} {e : Event} (hp : s.Plays voicings n c e) : e.velocity ≤ 127 := by
  obtain ⟨hv, -⟩ := s.check_eq_ok_iff.1 h
  rcases hp with ⟨-, -, -, he⟩ | ⟨-, -, -, he⟩ | ⟨-, -, -, ha⟩
  · rw [he]; exact hv
  · rw [he]; exact hv
  · exact le_of_accents h ha

end Settings

namespace Clip

/-! ## Clips -/

theorem Event.isSounding_eq (e : Event) : e.isSounding = (e.mark == .note) := by
  obtain ⟨_ | _ | _, _, _⟩ := e <;> rfl

namespace Compiled

variable {d : Dictionary} {s : Settings} {voicings : Cycle Voicing} {p : Pattern} {c : Clip}

theorem marks (h : Compiled d s voicings p c) : c.events.map Event.mark = p.marks := by
  rw [h.events, Part.perform_marks, Pattern.marks_layOut p _ h.exact]

theorem eventChars_eq (h : Compiled d s voicings p c) :
    Pattern.eventChars s.pattern = p.marks.map fun m => (Symbol.mark m).char := by
  rw [← h.text, Pattern.eventChars_text]

theorem length_eventChars (h : Compiled d s voicings p c) :
    c.events.length = (Pattern.eventChars s.pattern).length := by
  rw [h.eventChars_eq, List.length_map, Pattern.length_marks, h.length_events]

theorem noteCount_eq (h : Compiled d s voicings p c) : c.noteCount = p.noteCount := by
  have hsound : c.noteCount = (c.events.map Event.mark).count .note := by
    rw [List.count, List.countP_map]
    exact List.countP_congr fun e _ => by rw [Event.isSounding_eq]; rfl
  rw [hsound, h.marks, Pattern.count_marks]

/-- The event at a place, and the leaf that it comes from. -/
theorem plays (h : Compiled d s voicings p c) {k : Nat} {e : Event} (he : c.events[k]? = some e) :
    ∃ ch, (Pattern.eventChars s.pattern)[k]? = some ch ∧
      s.Plays voicings.toList (((Pattern.eventChars s.pattern).take k).count 'x') ch e := by
  have hmarks := Pattern.marks_layOut p _ h.exact
  -- the marks before the leaf are the characters before it, so both count the same notes
  rw [h.events, Part.perform_getElem?, Nat.zero_add] at he
  obtain ⟨leaf, hleaf, rfl⟩ := Option.map_eq_some_iff.1 he
  rw [h.eventChars_eq, ← hmarks, ← List.map_take, ← List.map_take, Pattern.count_map_char,
    List.getElem?_map, List.getElem?_map, hleaf]
  exact ⟨_, rfl, Settings.plays_eventAt h.check voicings _ leaf⟩

end Compiled

/-- **The events are those of the text.** A compiled clip has one event for
each character of the pattern that is no bracket, in order. A `-` rests and a
`_` sustains, at the plain velocity; the `n`-th `x`, at whatever depth, plays
the `n`-th voicing and takes the `n`-th accent, both counted round and round.
So the counts of the clip are those of the pattern, velocities stay below 128,
and whatever sounds has a pitch. -/
theorem events_of_compile (d : Dictionary) (s : Settings) (c : Clip) (h : compile d s = .ok c) :
    ∃ voicings p, s.notes.resolve d = .ok voicings ∧ Pattern.read s.pattern = .ok p ∧
      c.events.length = (Pattern.eventChars s.pattern).length ∧
      (∀ k e, c.events[k]? = some e → ∃ ch, (Pattern.eventChars s.pattern)[k]? = some ch ∧
        s.Plays voicings.toList (((Pattern.eventChars s.pattern).take k).count 'x') ch e) ∧
      c.events.length = p.leafCount ∧ c.noteCount = p.noteCount ∧
      c.noteCount = s.pattern.toList.count 'x' ∧ c.slots = p.slots ∧
      (∀ e ∈ c.events, e.velocity ≤ 127) ∧
      ∀ e ∈ c.events, ∀ v, e.voicing? = some v → v.pitches ≠ [] := by
  obtain ⟨voicings, p, hc⟩ := compiled_of_compile h
  refine ⟨voicings, p, hc.resolve, hc.read, hc.length_eventChars, fun k e => hc.plays,
    hc.length_events, hc.noteCount_eq, ?_, hc.slots, fun e he => ?_, fun e _ v _ => ?_⟩
  · rw [← hc.text, Pattern.count_toList_text, hc.noteCount_eq]
  · obtain ⟨k, hk⟩ := List.getElem?_of_mem he
    obtain ⟨ch, -, hp⟩ := hc.plays hk
    exact Settings.le_of_plays hc.check hp
  · exact List.cons_ne_nil _ _

theorem events_of_compile_accented :
    ∃ c, compile standardChords { pattern := "x[x-x]_", accentMap := "x-" } = .ok c ∧
      c.events.length = 5 ∧ c.noteCount = 3 ∧ (∀ e ∈ c.events, e.velocity ≤ 127) ∧
      ∀ e, c.events[1]? = some e → e.mark = .note ∧ e.velocity = 70 := by
  have hok : (compile standardChords { pattern := "x[x-x]_", accentMap := "x-" }).isOk = true := by
    decide +kernel
  cases hc : compile standardChords { pattern := "x[x-x]_", accentMap := "x-" } with
  | error e => rw [hc] at hok; cases hok
  | ok c =>
    obtain ⟨voicings, p, -, -, hlen, hplays, -, -, hcount, -, hvelocity, -⟩ :=
      events_of_compile standardChords { pattern := "x[x-x]_", accentMap := "x-" } c hc
    refine ⟨c, rfl, hlen.trans (by decide +kernel), hcount.trans (by decide +kernel), hvelocity,
      fun e he => ?_⟩
    obtain ⟨ch, hch, hp⟩ := hplays 1 e he
    have hx : (Pattern.eventChars "x[x-x]_")[1]? = some 'x' := by decide +kernel
    cases hx.symm.trans hch
    rcases hp with ⟨h, -⟩ | ⟨h, -⟩ | ⟨-, hmark, -, h | ⟨a, ha, h⟩⟩
    · exact absurd h (by decide)
    · exact absurd h (by decide)
    · exact absurd h.1 (by decide)
    · have hlow : "x-".toList[1]? = some '-' := by decide +kernel
      cases hlow.symm.trans ha
      rcases h with ⟨h, -⟩ | ⟨-, h⟩
      · exact absurd h (by decide)
      · exact ⟨hmark, h⟩

end Clip

end RhythmClip
