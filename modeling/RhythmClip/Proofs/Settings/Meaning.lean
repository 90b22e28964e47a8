import RhythmClip.Proofs.Json.Written
import RhythmClip.Proofs.Walk
import RhythmClip.Settings.Json
import Mathlib.Data.Set.List

/-!
# What a JSON text says about settings

An object is looked at field by field: `given f members` are the values that
it gives under one of the names of the field. Settings are described by the
object when each field holds the one value that is given, or its default if
none is. Neither the order of the members nor those under other names show in
this, and an alias counts as the key.

* `setField?_eq_some_iff`: giving one field a value, for every value that has a text.
* `addMembers?_eq_some_iff`: the members one after the other.
* `exists_describes_iff`: which objects describe settings.
* `parse_of_denotes`: all of it, from the text.
-/
namespace RhythmClip

open Json

/-! ## Values and their shapes -/

theorem text?_eq_some_iff {v : Json} {s : String} : v.text? = some s ↔ v = .text s := by
  constructor
  · intro h
    unfold Json.text? at h
    split at h
    · rw [h]; rfl
    · cases h
  · rintro rfl
    rfl

theorem bool?_eq_some_iff {v : Json} {b : Bool} : v.bool? = some b ↔ v = .bool b := by
  constructor
  · intro h
    unfold Json.bool? at h
    split at h
    · rw [← Option.some.inj h]; rfl
    · cases h
  · rintro rfl
    rfl

/-- A byte is read from the one literal that JSON has for it. -/
theorem byte?_eq_some_iff {v : Json} (hv : HasText v) {b : UInt8} :
    v.byte? = some b ↔ v = .natural b.toNat := by
  constructor
  · intro h
    unfold Json.byte? at h
    split at h
    · rename_i literal
      obtain ⟨n, hn, hb⟩ := Option.bind_eq_some_iff.1 h
      obtain ⟨hle, rfl⟩ : n ≤ 255 ∧ UInt8.ofNat n = b := by simpa using hb
      have hliteral := String.toList_injective (hv.isNumber.eq_decimal hn)
      rw [Json.natural, UInt8.toNat_ofNat_of_lt' (Nat.lt_succ_of_le hle), hliteral]
    · cases h
  · rintro rfl
    exact Settings.byte?_natural b

theorem NoteEntry.ofJson?_eq_some_iff (e : NoteEntry) (v : Json) :
    ofJson? v = some e ↔ v = e.toJson := by
  constructor
  · intro h
    unfold ofJson? at h
    split at h
    · obtain ⟨members, hmembers, rfl⟩ := Option.map_eq_some_iff.1 h
      rw [(mapM_eq_some_iff fun _ _ => text?_eq_some_iff).1 hmembers, toJson]
    · obtain ⟨t, ht, rfl⟩ := Option.map_eq_some_iff.1 h
      exact text?_eq_some_iff.1 ht
  · rintro rfl
    exact ofJson?_toJson e

theorem NoteList.ofJson?_eq_some_iff {notes : NoteList} {v : Json} :
    ofJson? v = some notes ↔ v = notes.toJson := by
  constructor
  · intro h
    unfold ofJson? at h
    split at h
    · obtain ⟨es, hes, rfl⟩ := Option.map_eq_some_iff.1 h
      rw [(mapM_eq_some_iff NoteEntry.ofJson?_eq_some_iff).1 hes, toJson]
    · obtain ⟨t, ht, rfl⟩ := Option.map_eq_some_iff.1 h
      exact text?_eq_some_iff.1 ht
  · rintro rfl
    exact ofJson?_toJson notes

namespace Settings

/-! ## Fields of an object -/

namespace Field

/-- All the names under which a field may be given. -/
def names (f : Field) : List String := f.key :: f.aliases

/-- Notes are a text, or a list of texts and of lists of texts. -/
def IsNotes (v : Json) : Prop :=
  (∃ s, v = .text s) ∨
    ∃ items, v = .array items ∧
      ∀ item ∈ items, (∃ s, item = .text s) ∨ ∃ ss : List String, item = .array (ss.map .text)

/-- The values that a field may be given. -/
def HasShape : Field → Json → Prop
  | notes, v => IsNotes v
  | pattern, v | subdivision, v | accentMap, v => ∃ s, v = .text s
  | velocity, v | accentHi, v | accentLo, v => ∃ n ≤ 255, v = .natural n
  | shuffle, v | sizzle, v | arpeggiate, v => ∃ b, v = .bool b

theorem mem_all (f : Field) : f ∈ all := by cases f <;> decide

theorem ofKey?_eq_some_iff {key : String} {f : Field} : ofKey? key = some f ↔ key ∈ f.names := by
  constructor
  · intro h
    have hkey := List.find?_some h
    simp only [Bool.or_eq_true, decide_eq_true_eq] at hkey
    rcases hkey with rfl | hkey
    · exact List.mem_cons_self
    · exact List.mem_cons_of_mem _ hkey
  · have hkeys : ∀ f ∈ all, ∀ key ∈ f.names, ofKey? key = some f := by decide +kernel
    exact hkeys f f.mem_all key

end Field

/-- The values that the members give for a field, in order. -/
def given (f : Field) (members : List (String × Json)) : List Json :=
  (members.filter fun m => m.1 ∈ f.names).map Prod.snd

/-- Every field holds the one value that the members give for it, or its
default if they give none. -/
def Describes (members : List (String × Json)) (s : Settings) : Prop :=
  ∀ f, given f members = [s.fieldJson f] ∨
    given f members = [] ∧ s.fieldJson f = ({} : Settings).fieldJson f

variable {s t p : Settings} {f : Field} {v : Json} {members : List (String × Json)}

/-! ## Fields of settings -/

theorem ext_fieldJson (h : ∀ f, s.fieldJson f = t.fieldJson f) : s = t := by
  have hjson : s.toJson = t.toJson := by simp only [toJson, h]
  have hread := s.ofJson?_toJson
  rw [hjson, t.ofJson?_toJson] at hread
  exact (Option.some.inj hread).symm

/-- Settings that take each field from settings of its own. -/
def gather (source : Field → Settings) : Settings where
  notes := (source .notes).notes
  pattern := (source .pattern).pattern
  subdivision := (source .subdivision).subdivision
  velocity := (source .velocity).velocity
  accentMap := (source .accentMap).accentMap
  accentHi := (source .accentHi).accentHi
  accentLo := (source .accentLo).accentLo
  shuffle := (source .shuffle).shuffle
  sizzle := (source .sizzle).sizzle
  arpeggiate := (source .arpeggiate).arpeggiate

@[simp] theorem fieldJson_gather (source : Field → Settings) (f : Field) :
    (gather source).fieldJson f = (source f).fieldJson f := by
  cases f <;> rfl

theorem setField?_fieldJson (s t : Settings) (f : Field) :
    s.setField? f (t.fieldJson f) = some (gather fun g => if g = f then t else s) := by
  cases f with
  | notes => simp [setField?, fieldJson, NoteList.ofJson?_toJson, gather]
  | pattern | subdivision | accentMap => simp [setField?, fieldJson, text?_text, gather]
  | velocity | accentHi | accentLo => simp [setField?, fieldJson, byte?_natural, gather]
  | shuffle | sizzle | arpeggiate => simp [setField?, fieldJson, Json.bool, Json.bool?, gather]

theorem eq_fieldJson_of_setField? (hv : HasText v) (h : s.setField? f v = some t) :
    v = t.fieldJson f := by
  cases f with
  | notes =>
    obtain ⟨x, hx, rfl⟩ := Option.map_eq_some_iff.1 h
    exact NoteList.ofJson?_eq_some_iff.1 hx
  | pattern | subdivision | accentMap =>
    obtain ⟨x, hx, rfl⟩ := Option.map_eq_some_iff.1 h
    exact text?_eq_some_iff.1 hx
  | velocity | accentHi | accentLo =>
    obtain ⟨x, hx, rfl⟩ := Option.map_eq_some_iff.1 h
    exact (byte?_eq_some_iff hv).1 hx
  | shuffle | sizzle | arpeggiate =>
    obtain ⟨x, hx, rfl⟩ := Option.map_eq_some_iff.1 h
    exact bool?_eq_some_iff.1 hx

theorem setField?_eq_some_iff (hv : HasText v) :
    s.setField? f v = some t ↔
      v = t.fieldJson f ∧ ∀ g, g ≠ f → t.fieldJson g = s.fieldJson g := by
  constructor
  · intro h
    obtain rfl := eq_fieldJson_of_setField? hv h
    refine ⟨rfl, fun g hg => ?_⟩
    rw [setField?_fieldJson] at h
    rw [← Option.some.inj h, fieldJson_gather, if_neg hg]
  · rintro ⟨rfl, hother⟩
    rw [setField?_fieldJson]
    refine congrArg some (ext_fieldJson fun g => ?_)
    rw [fieldJson_gather]
    split
    · rfl
    · exact (hother g ‹_›).symm

/-! ## Members, one after the other -/

theorem given_cons (f : Field) (m : String × Json) (members : List (String × Json)) :
    given f (m :: members) = if m.1 ∈ f.names then m.2 :: given f members else given f members := by
  unfold given
  rw [List.filter_cons]
  by_cases hm : m.1 ∈ f.names <;> simp [hm]

theorem given_cons_of_ofKey? {g : Field} {key : String} (hkey : Field.ofKey? key = some g) :
    given f ((key, v) :: members) = if f = g then v :: given f members else given f members := by
  have hmem : key ∈ f.names ↔ f = g := by
    rw [← Field.ofKey?_eq_some_iff, hkey, Option.some.injEq, eq_comm]
  simp only [given_cons, hmem]

/-- The members bring settings in which the fields `seen` are given already to `p`. -/
def Brings (s : Settings) (seen : List Field) (members : List (String × Json)) (p : Settings) :
    Prop :=
  ∀ f, f ∉ seen ∧ given f members = [p.fieldJson f] ∨
    given f members = [] ∧ p.fieldJson f = s.fieldJson f

variable {seen : List Field} {key : String} {g : Field}

theorem brings_nil_iff : Brings s seen [] p ↔ s = p := by
  constructor
  · intro h
    refine ext_fieldJson fun f => ?_
    rcases h f with ⟨_, hgiven⟩ | ⟨_, hvalue⟩
    · cases hgiven
    · exact hvalue.symm
  · rintro rfl f
    exact .inr ⟨rfl, rfl⟩

theorem brings_cons_of_unknown (hkey : Field.ofKey? key = none) :
    Brings s seen ((key, v) :: members) p ↔ Brings s seen members p := by
  have hgiven : ∀ f, given f ((key, v) :: members) = given f members := by
    intro f
    rw [given_cons, if_neg]
    intro hmem
    rw [Field.ofKey?_eq_some_iff.2 hmem] at hkey
    cases hkey
  simp only [Brings, hgiven]

/-- A member of a field gives it its value, and it must be the only one. -/
theorem brings_cons_iff (hkey : Field.ofKey? key = some g) (hg : g ∉ seen) :
    Brings s seen ((key, v) :: members) p ↔
      ∃ t, (v = t.fieldJson g ∧ ∀ f, f ≠ g → t.fieldJson f = s.fieldJson f) ∧
        Brings t (g :: seen) members p := by
  simp only [Brings, given_cons_of_ofKey? hkey]
  constructor
  · intro h
    obtain ⟨hv, hnil⟩ : v = p.fieldJson g ∧ given g members = [] := by
      rcases h g with ⟨_, hgiven⟩ | ⟨hgiven, _⟩
      · simpa using hgiven
      · simp at hgiven
    refine ⟨gather fun f => if f = g then p else s, ⟨by simp [hv], fun f hf => by simp [hf]⟩,
      fun f => ?_⟩
    by_cases hf : f = g
    · subst hf
      exact .inr ⟨hnil, by simp⟩
    · have hrest := h f
      simp only [if_neg hf] at hrest
      simpa [hf] using hrest
  · rintro ⟨t, ⟨rfl, hother⟩, h⟩ f
    by_cases hf : f = g
    · subst hf
      obtain ⟨hnil, hvalue⟩ := (h f).resolve_left fun hnot => hnot.1 List.mem_cons_self
      exact .inl ⟨hg, by rw [if_pos rfl, hnil, hvalue]⟩
    · have hrest := h f
      simp only [List.mem_cons, hf, false_or, hother f hf] at hrest
      simpa [hf] using hrest

theorem not_brings_cons_of_seen (hkey : Field.ofKey? key = some g) (hg : g ∈ seen) :
    ¬ Brings s seen ((key, v) :: members) p := by
  intro h
  rcases h g with ⟨hnot, _⟩ | ⟨hnil, _⟩
  · exact hnot hg
  · rw [given_cons_of_ofKey? hkey, if_pos rfl] at hnil
    cases hnil

theorem addMembers?_eq_some_iff (h : ∀ m ∈ members, HasText m.2) :
    s.addMembers? seen (members.map fun (name, value) => (some name, value)) = some p ↔
      Brings s seen members p := by
  induction members generalizing s seen with
  | nil => exact Option.some_inj.trans brings_nil_iff.symm
  | cons m ms ih =>
    obtain ⟨key, v⟩ := m
    obtain ⟨hv, hms⟩ := List.forall_mem_cons.1 h
    rw [List.map_cons, addMembers?]
    cases hkey : Field.ofKey? key with
    | none => rw [brings_cons_of_unknown hkey, ← ih hms]
    | some g =>
      by_cases hg : g ∈ seen
      · simp [hg, not_brings_cons_of_seen hkey hg]
      · simp only [if_neg hg, Option.bind_eq_some_iff, setField?_eq_some_iff hv, ih hms,
          brings_cons_iff hkey hg]

/-! ## Items, by their places -/

/-- The members that pair the keys of the fields with the items. -/
def keyed (fields : List Field) (items : List Json) : List (String × Json) :=
  (fields.map Field.key).zip items

theorem addItems?_eq_addMembers? {fields : List Field} {items : List Json} (hnodup : fields.Nodup)
    (hseen : ∀ f ∈ fields, f ∉ seen) (hlength : items.length ≤ fields.length) :
    s.addItems? fields items =
      s.addMembers? seen ((keyed fields items).map fun (name, value) => (some name, value)) := by
  induction items generalizing s fields seen with
  | nil => simp [keyed, addItems?, addMembers?]
  | cons v vs ih =>
    cases fields with
    | nil => cases hlength
    | cons f fs =>
      obtain ⟨hf, hfs⟩ := List.forall_mem_cons.1 hseen
      obtain ⟨hnot, hnodup⟩ := List.nodup_cons.1 hnodup
      have hrest : ∀ g ∈ fs, g ∉ f :: seen := fun g hg =>
        List.not_mem_cons_of_ne_of_not_mem (fun e => hnot (e ▸ hg)) (hfs g hg)
      have hkeyed : keyed (f :: fs) (v :: vs) = (f.key, v) :: keyed fs vs := rfl
      simp only [hkeyed, List.map_cons, addItems?, addMembers?, Field.ofKey?_key, if_neg hf]
      exact congrArg _ (funext fun t => ih hnodup hrest (Nat.le_of_succ_le_succ hlength))

theorem length_le_of_addItems? {fields : List Field} {items : List Json}
    (h : s.addItems? fields items = some p) : items.length ≤ fields.length := by
  induction items generalizing s fields with
  | nil => exact Nat.zero_le _
  | cons v vs ih =>
    cases fields with
    | nil => cases h
    | cons f fs =>
      obtain ⟨t, -, ht⟩ := Option.bind_eq_some_iff.1 h
      exact Nat.succ_le_succ (ih ht)

/-! ## Objects that describe settings -/

theorem isNotes_iff : Field.IsNotes v ↔ ∃ notes : NoteList, v = notes.toJson := by
  constructor
  · rintro (⟨t, rfl⟩ | ⟨items, rfl, hitems⟩)
    · exact ⟨.text t, rfl⟩
    · have hrange : items ∈ Set.range (List.map NoteEntry.toJson) := by
        rw [Set.range_list_map]
        intro item hitem
        rcases hitems item hitem with ⟨t, rfl⟩ | ⟨ss, rfl⟩
        · exact ⟨.token t, rfl⟩
        · exact ⟨.pitches ss, rfl⟩
      obtain ⟨es, rfl⟩ := hrange
      exact ⟨.entries es, rfl⟩
  · rintro ⟨notes, rfl⟩
    cases notes with
    | text t => exact .inl ⟨t, rfl⟩
    | entries es =>
      refine .inr ⟨_, rfl, List.forall_mem_map.2 fun e _ => ?_⟩
      cases e with
      | token t => exact .inl ⟨t, rfl⟩
      | pitches ss => exact .inr ⟨ss, rfl⟩

theorem exists_byte_iff : (∃ n ≤ 255, v = .natural n) ↔ ∃ b : UInt8, v = .natural b.toNat := by
  constructor
  · rintro ⟨n, hn, rfl⟩
    exact ⟨UInt8.ofNat n, by rw [UInt8.toNat_ofNat_of_lt' (Nat.lt_succ_of_le hn)]⟩
  · rintro ⟨b, rfl⟩
    exact ⟨b.toNat, Nat.le_of_lt_succ b.toNat_lt, rfl⟩

/-- The shape of a field is what fields of settings are written as. -/
theorem hasShape_iff : f.HasShape v ↔ ∃ t : Settings, v = t.fieldJson f := by
  constructor
  · intro h
    cases f with
    | notes =>
      obtain ⟨x, hx⟩ := isNotes_iff.1 h
      exact ⟨{ notes := x }, hx⟩
    | pattern => exact h.elim fun x hx => ⟨{ pattern := x }, hx⟩
    | subdivision => exact h.elim fun x hx => ⟨{ subdivision := x }, hx⟩
    | accentMap => exact h.elim fun x hx => ⟨{ accentMap := x }, hx⟩
    | velocity => exact (exists_byte_iff.1 h).elim fun x hx => ⟨{ velocity := x }, hx⟩
    | accentHi => exact (exists_byte_iff.1 h).elim fun x hx => ⟨{ accentHi := x }, hx⟩
    | accentLo => exact (exists_byte_iff.1 h).elim fun x hx => ⟨{ accentLo := x }, hx⟩
    | shuffle => exact h.elim fun x hx => ⟨{ shuffle := x }, hx⟩
    | sizzle => exact h.elim fun x hx => ⟨{ sizzle := x }, hx⟩
    | arpeggiate => exact h.elim fun x hx => ⟨{ arpeggiate := x }, hx⟩
  · rintro ⟨t, rfl⟩
    cases f with
    | notes => exact isNotes_iff.2 ⟨_, rfl⟩
    | pattern | subdivision | accentMap => exact ⟨_, rfl⟩
    | velocity | accentHi | accentLo => exact exists_byte_iff.2 ⟨_, rfl⟩
    | shuffle | sizzle | arpeggiate => exact ⟨_, rfl⟩

theorem exists_describes_iff :
    (∃ p, Describes members p) ↔
      ∀ f, (given f members).length ≤ 1 ∧ ∀ v ∈ given f members, f.HasShape v := by
  constructor
  · rintro ⟨p, h⟩ f
    rcases h f with hgiven | ⟨hgiven, _⟩
    · rw [hgiven]
      exact ⟨Nat.le_refl 1, List.forall_mem_singleton.2 (hasShape_iff.2 ⟨p, rfl⟩)⟩
    · rw [hgiven]
      exact ⟨Nat.zero_le 1, List.forall_mem_nil _⟩
  · intro h
    have hsource : ∀ f, ∃ t : Settings, given f members = [t.fieldJson f] ∨
        given f members = [] ∧ t.fieldJson f = ({} : Settings).fieldJson f := by
      intro f
      obtain ⟨hlength, hshape⟩ := h f
      cases hgiven : given f members with
      | nil => exact ⟨{}, .inr ⟨rfl, rfl⟩⟩
      | cons v vs =>
        rw [hgiven] at hlength hshape
        obtain ⟨t, rfl⟩ := hasShape_iff.1 (hshape v List.mem_cons_self)
        obtain rfl : vs = [] := by simpa using hlength
        exact ⟨t, .inl rfl⟩
    choose source hs using hsource
    exact ⟨gather source, fun f => by simpa using hs f⟩

/-! ## Texts -/

theorem parse_eq_ok_iff {text : String} (h : Denotes text v) :
    parse text = .ok p ↔ ofJson? v = some p := by
  rw [parse, parse?_of_denotes h, Option.bind_some]
  cases ofJson? v <;> simp

theorem parse_eq_of_denotes {text text' : String} {v' : Json} (h : Denotes text v)
    (h' : Denotes text' v') (hv : ofJson? v = ofJson? v') : parse text = parse text' := by
  rw [parse, parse, parse?_of_denotes h, parse?_of_denotes h', Option.bind_some, Option.bind_some,
    hv]

theorem ofJson?_record_eq_some_iff (h : ∀ m ∈ members, HasText m.2) :
    ofJson? (.record members) = some p ↔ Describes members p := by
  refine (addMembers?_eq_some_iff h).trans ?_
  simp only [Brings, Describes, List.not_mem_nil, not_false_eq_true, true_and]

theorem ofJson?_array {items : List Json} (h : items.length ≤ Field.all.length) :
    ofJson? (.array items) = ofJson? (.record (keyed Field.all items)) :=
  addItems?_eq_addMembers? (by decide) (fun _ _ => List.not_mem_nil) h

theorem hasText_keyed {fields : List Field} {items : List Json} (h : ∀ v ∈ items, HasText v) :
    ∀ m ∈ keyed fields items, HasText m.2 :=
  fun _ hm => h _ (List.of_mem_zip hm).2

theorem describes_congr {members' : List (String × Json)}
    (h : ∀ f, (given f members).Perm (given f members')) :
    Describes members p ↔ Describes members' p := by
  refine forall_congr' fun f => ?_
  have hone : given f members = [p.fieldJson f] ↔ given f members' = [p.fieldJson f] :=
    ⟨fun e => List.perm_singleton.1 (e ▸ h f).symm, fun e => List.perm_singleton.1 (e ▸ h f)⟩
  have hnone : given f members = [] ↔ given f members' = [] :=
    ⟨fun e => List.perm_nil.1 (e ▸ h f).symm, fun e => List.perm_nil.1 (e ▸ h f)⟩
  rw [hone, hnone]

/-- **Settings from a JSON text.** An object is read just when no field is
given twice and every value that is given has the shape of its field, and then
as the settings it describes; so only the values given for each field count.
An array of at most ten items is read as the object that gives these items to
the first fields, and a longer one is not read. -/
theorem parse_of_denotes (text : String) :
    (∀ members, Denotes text (.record members) →
      ((∃ p, parse text = .ok p) ↔
        ∀ f, (given f members).length ≤ 1 ∧ ∀ v ∈ given f members, f.HasShape v) ∧
      (∀ p, parse text = .ok p ↔ Describes members p) ∧
      ∀ text' members', Denotes text' (.record members') →
        (∀ f, (given f members).Perm (given f members')) →
          ∀ p, parse text = .ok p ↔ parse text' = .ok p) ∧
    ∀ items, Denotes text (.array items) →
      (items.length ≤ 10 →
        (∀ p, parse text = .ok p ↔ Describes (keyed Field.all items) p) ∧
        ∀ text', Denotes text' (.record (keyed Field.all items)) → parse text = parse text') ∧
      (10 < items.length → ∃ fault, parse text = .error fault) := by
  constructor
  · intro members h
    have hparse : ∀ p, parse text = .ok p ↔ Describes members p := fun p =>
      (parse_eq_ok_iff h).trans (ofJson?_record_eq_some_iff h.hasText.of_mem_record)
    refine ⟨?_, hparse, fun text' members' h' hgiven p => ?_⟩
    · simp only [hparse, exists_describes_iff]
    · have hparse' := (parse_eq_ok_iff (p := p) h').trans
        (ofJson?_record_eq_some_iff h'.hasText.of_mem_record)
      rw [hparse, hparse', describes_congr hgiven]
  · intro items h
    refine ⟨fun hlength => ⟨fun p => ?_, fun text' h' => ?_⟩, fun hlength => ?_⟩
    · rw [parse_eq_ok_iff h, ofJson?_array hlength]
      exact ofJson?_record_eq_some_iff (hasText_keyed h.hasText.of_mem_array)
    · exact parse_eq_of_denotes h h' (ofJson?_array hlength)
    · cases hparse : parse text with
      | error fault => exact ⟨fault, rfl⟩
      | ok p =>
        have hle : items.length ≤ 10 := length_le_of_addItems? ((parse_eq_ok_iff h).1 hparse)
        omega

/-- An alias and a name that is no field, and an array of one item. -/
theorem parse_of_denotes_alias :
    parse (write .spread (.record
        [("tempo", .array [.null]), ("accentLow", .natural 60), ("shuffle", .bool true)])) =
        .ok { accentLo := 60, shuffle := true } ∧
      parse (write .compact (.array [.text "E4"])) = .ok { notes := .text "E4" } := by
  constructor
  · have hwritable : Writable (.record
        [("tempo", .array [.null]), ("accentLow", .natural 60), ("shuffle", .bool true)]) :=
      .record (by simp [Writable.array, Writable.null, Writable.natural, Writable.bool])
    refine (((parse_of_denotes _).1 _ (hwritable.denotes .spread)).2.1 _).2 fun f => ?_
    cases f with
    | accentLo | shuffle => exact .inl rfl
    | _ => exact .inr ⟨rfl, rfl⟩
  · have hwritable : Writable (.array [.text "E4"]) := .array (by simp [Writable.text])
    have harray := (parse_of_denotes _).2 _ (hwritable.denotes .compact)
    refine ((harray.1 (by decide)).1 _).2 fun f => ?_
    cases f with
    | notes => exact .inl rfl
    | _ => exact .inr ⟨rfl, rfl⟩

end Settings

end RhythmClip
