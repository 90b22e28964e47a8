import RhythmClip.Proofs.CommandTable.Priority
import RhythmClip.Session

/-!
# Tables of handlers

A table may hold handlers of any kind under any names. A line runs the handler
that is found for it, and a session is the table of its own handlers
(`execute_eq_dispatch`).

* `dispatch_ofList`: which handler answers a line, and with what argument.
-/
namespace RhythmClip

namespace CommandTable

variable {α β : Type}

/-- The same names for other commands. -/
def map (f : α → β) (t : CommandTable α) : CommandTable β := ⟨t.entries.map (Prod.map id f)⟩

theorem insert_map (f : α → β) (entry : String × α) (es : List (String × α)) :
    insert (Prod.map id f entry) (es.map (Prod.map id f)) =
      (insert entry es).map (Prod.map id f) := by
  induction es with
  | nil => rfl
  | cons e es ih =>
    rw [List.map_cons, insert, insert, ih, apply_ite (List.map _)]
    rfl

theorem map_register (f : α → β) (t : CommandTable α) (entry : String × α) :
    (t.register entry).map f = (t.map f).register (Prod.map id f entry) :=
  congrArg CommandTable.mk (insert_map f entry t.entries).symm

theorem map_ofList (f : α → β) (es : List (String × α)) :
    (ofList es).map f = ofList (es.map (Prod.map id f)) := by
  induction es using List.reverseRecOn with
  | nil => rfl
  | append_singleton es entry ih =>
    rw [ofList_append_singleton, map_register, ih, List.map_append, List.map_singleton]
    rw [ofList_append_singleton]

theorem lookup_map (f : α → β) (t : CommandTable α) (line : String) :
    (t.map f).lookup line = (t.lookup line).map (Prod.map f id) := by
  rw [lookup, lookup, map, List.findSome?_map, List.map_findSome?]
  congr 1
  funext entry
  simp only [Function.comp_apply, Option.map_map]
  rfl

end CommandTable

namespace Session

open Text CommandTable

/-- What a command does with its argument and the present settings. -/
abbrev Handler := String → Settings → Step

/-- Runs a line by the handler that a table finds for it. -/
def dispatch (t : CommandTable Handler) (line : String) (s : Settings) : Step :=
  match t.lookup line with
  | some (handler, arg) => handler arg s
  | none => { reply := .notACommand, settings := s }

/-- The handlers of a session, as they are registered. -/
def handlers (palette : Palette) : List (String × Handler) :=
  [("notes", notes palette), ("pattern", pattern palette), ("subdiv", subdivision),
    ("accent", accent), ("velocity", velocity), ("clip", clip palette), ("json", fun _ => json),
    ("chord", chord palette), ("show", fun _ => overview palette), ("reset", fun _ => reset),
    ("help", fun _ => help palette), ("quit", fun _ s => { reply := .exit, settings := s }),
    ("exit", fun _ s => { reply := .exit, settings := s })]

theorem execute_eq_dispatch (palette : Palette) (line : String) (s : Settings) :
    execute palette line s = dispatch (.ofList (handlers palette)) line s := by
  have htable : CommandTable.ofList (handlers palette) =
      commands.map fun command arg s => command.run palette arg s := by
    rw [commands, map_ofList]
    rfl
  rw [htable, dispatch, lookup_map, execute]
  cases commands.lookup line <;> rfl

/-- **The longest command wins.** Whatever handlers are registered, under
whatever names: a line runs the handler of the earliest of the longest names
that fit it, with the trimmed remainder of the line as its argument. If no name
fits, the line is no command and the settings stay. The names are listed from
the longest to the shortest, and in the order of registration where they are of
one length. A session answers its lines so. -/
theorem dispatch_ofList (registered : List (String × Handler)) (line : String) (s : Settings) :
    (∀ name handler remainder, Chosen registered line name handler remainder →
      dispatch (.ofList registered) line s = handler (trim remainder) s) ∧
      ((∃ e ∈ registered, ∃ remainder, Fits line e.1 remainder) →
        ∃ name handler remainder, Chosen registered line name handler remainder) ∧
      ((∀ e ∈ registered, ¬∃ remainder, Fits line e.1 remainder) →
        dispatch (.ofList registered) line s = { reply := .notACommand, settings := s }) ∧
      (CommandTable.ofList registered).names.Perm (registered.map (·.1)) ∧
      (CommandTable.ofList registered).names.Pairwise
        (fun a b => b.utf8ByteSize ≤ a.utf8ByteSize) ∧
      (∀ n : Nat, (CommandTable.ofList registered).names.filter (·.utf8ByteSize = n) =
        (registered.map (·.1)).filter (·.utf8ByteSize = n)) ∧
      ∀ palette, execute palette line s = dispatch (.ofList (handlers palette)) line s := by
  refine ⟨fun name handler remainder hc => ?_, fun ⟨e, he, r, hr⟩ => ?_, fun hnone => ?_,
    (perm_ofList registered).map _, List.pairwise_map.2 (sorted_ofList registered), fun n => ?_,
    fun palette => execute_eq_dispatch palette line s⟩
  · rw [dispatch, (lookup_ofList_eq_some_iff registered line _ handler).2 ⟨name, remainder, hc, rfl⟩]
  · cases hl : (CommandTable.ofList registered).lookup line with
    | none => exact absurd ⟨r, hr⟩ ((lookup_ofList_eq_none_iff registered line).1 hl e he)
    | some found =>
      obtain ⟨name, remainder, hc, -⟩ := chosen_of_lookup hl
      exact ⟨name, found.1, remainder, hc⟩
  · rw [dispatch, (lookup_ofList_eq_none_iff registered line).2 hnone]
  · rw [names, List.filter_map, List.filter_map]
    exact congrArg _ (filter_ofList n registered)

/-- Of three names that fit, one of them registered twice. -/
theorem dispatch_ofList_twice :
    let named := fun text (arg : String) s => Step.say s (text ++ ":" ++ arg)
    dispatch (.ofList [("é", named "a"), ("é li", named "b"), ("", named "c"), ("é li", named "d")])
      "é li  maj " {} = Step.say {} "b:maj" := by
  intro named
  have hargument : trim "  maj " = "maj" := by decide +kernel
  have hchosen : Chosen
      [("é", named "a"), ("é li", named "b"), ("", named "c"), ("é li", named "d")]
      "é li  maj " "é li" (named "b") "  maj " := by
    refine ⟨⟨by decide +kernel, .inr ⟨" maj ", by decide +kernel⟩⟩, [("é", named "a")],
      [("", named "c"), ("é li", named "d")], rfl, fun e he _ => ?_, fun e he _ => ?_⟩
    · obtain rfl := List.mem_singleton.1 he
      decide +kernel
    · rcases List.mem_cons.1 he with rfl | he
      · decide +kernel
      · obtain rfl := List.mem_singleton.1 he
        decide +kernel
  rw [(dispatch_ofList _ "é li  maj " {}).1 _ _ _ hchosen, hargument]
  rfl

end Session

end RhythmClip
