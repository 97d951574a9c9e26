import Mathlib.Data.List.Basic
import Mathlib.Tactic.SplitIfs
import Stylesmith.Config.Decode

set_option autoImplicit false

namespace Stylesmith.Config

open Json.Value (get?)

/-- Whether the value that was found gives an option the value `x`. Null gives it none. -/
def IsGiven {α : Type} (write : α → Json.Value) (found : Option Json.Value) : Option α → Prop
  | some a => found = some (write a)
  | none => found = none ∨ found = some .null

/-- Whether some fields give each option its value: one of its type, or none by null or by nothing. -/
structure Gives (fields : List (Text × Json.Value)) (o : Options) : Prop where
  parser : IsGiven .string (get? "parser" fields) o.parser
  excludedPackages : IsGiven (fun names : List Text => .array (names.map .string))
    (get? "excludedPackages" fields) o.excludedPackages
  anchorReferences : IsGiven .bool (get? "rewriteUrls" fields) o.anchorReferences
  chunkBudget : IsGiven (fun n : Nat => .number (.natural n))
    (get? "maxSelectorsPerChunk" fields) o.chunkBudget

section Fields

variable {α : Type} {key : Text} {v : Json.Value} {fields : List (Text × Json.Value)}

theorem get?_cons_ne {other : Text} (h : key ≠ other) :
    get? other ((key, v) :: fields) = get? other fields := if_neg h

theorem get?_eq_none (h : key ∉ fields.map Prod.fst) : get? key fields = none := by
  induction fields with
  | nil => rfl
  | cons f fields ih =>
    rw [List.map_cons, List.mem_cons, not_or] at h
    exact (get?_cons_ne (Ne.symm h.1)).trans (ih h.2)

theorem get?_of_mem {f : Text × Json.Value} (hnodup : (fields.map Prod.fst).Nodup)
    (hf : f ∈ fields) : get? f.1 fields = some f.2 := by
  induction fields with
  | nil => exact absurd hf List.not_mem_nil
  | cons first fields ih =>
    rw [List.map_cons, List.nodup_cons] at hnodup
    rcases List.mem_cons.1 hf with rfl | hf
    · exact if_pos rfl
    · refine (get?_cons_ne fun h => hnodup.1 ?_).trans (ih hnodup.2 hf)
      rw [h]
      exact List.mem_map_of_mem hf

theorem get?_filter {keep : Text × Json.Value → Bool} (h : ∀ v, keep (key, v) = true) :
    get? key (fields.filter keep) = get? key fields := by
  induction fields with
  | nil => rfl
  | cons f fields ih =>
    obtain ⟨other, v⟩ := f
    by_cases hkey : other = key
    · subst hkey
      rw [List.filter_cons_of_pos (h v), get?, get?, if_pos rfl, if_pos rfl]
    · rw [get?_cons_ne hkey, ← ih]
      by_cases hkeep : keep (other, v) = true
      · rw [List.filter_cons_of_pos hkeep, get?_cons_ne hkey]
      · rw [List.filter_cons_of_neg hkeep]

theorem get?_filter_eq_none {keep : Text × Json.Value → Bool} (h : ∀ v, keep (key, v) = false) :
    get? key (fields.filter keep) = none := by
  refine get?_eq_none fun hmem => ?_
  obtain ⟨⟨other, v⟩, hf, rfl⟩ := List.mem_map.1 hmem
  exact Bool.eq_false_iff.1 (h v) (List.mem_filter.1 hf).2

end Fields

structure Slot (α : Type) where
  key : Text
  read : Json.Value → Except Complaint α
  write : α → Json.Value
  get : Options → Option α
  set : Options → Option α → Options

/-- Whether an option is read from its key into its place and nothing else is. -/
structure Slot.Lawful {α : Type} (s : Slot α) : Prop where
  write_ne_null (a : α) : s.write a ≠ .null
  read_write (a : α) : s.read (s.write a) = .ok a
  get_set (o : Options) (x : Option α) : s.get (s.set o x) = x
  readOption (o : Options) (v : Json.Value) :
    readOption o s.key v = under s.key ((readOptional s.read v).map (s.set o))
  get_readOption {o o' : Options} {key : Text} {v : Json.Value} :
    key ≠ s.key → Config.readOption o key v = .ok o' → s.get o' = s.get o

def parserSlot : Slot Text where
  key := "parser"
  read := readString
  write := .string
  get := Options.parser
  set o x := { o with parser := x }

def excludedSlot : Slot (List Text) where
  key := "excludedPackages"
  read := readStrings
  write names := .array (names.map .string)
  get := Options.excludedPackages
  set o x := { o with excludedPackages := x }

def anchorSlot : Slot Bool where
  key := "rewriteUrls"
  read := readBool
  write := .bool
  get := Options.anchorReferences
  set o x := { o with anchorReferences := x }

def budgetSlot : Slot Nat where
  key := "maxSelectorsPerChunk"
  read := readNatural
  write n := .number (.natural n)
  get := Options.chunkBudget
  set o x := { o with chunkBudget := x }

section Slots

variable {α : Type} {o o' : Options} {key : Text} {v : Json.Value}

theorem under_map_eq_ok {r : Except Complaint α} {f : α → Options}
    (h : under key (r.map f) = .ok o') : ∃ a, f a = o' := by
  cases r with
  | error c => cases h
  | ok a => exact ⟨a, Except.ok.inj h⟩

/-- What reading a field changes: one option, or nothing. -/
theorem readOption_cases (h : readOption o key v = .ok o') :
    (key = "parser" ∧ ∃ x, { o with parser := x } = o') ∨
    (key = "excludedPackages" ∧ ∃ x, { o with excludedPackages := x } = o') ∨
    (key = "rewriteUrls" ∧ ∃ x, { o with anchorReferences := x } = o') ∨
    (key = "maxSelectorsPerChunk" ∧ ∃ x, { o with chunkBudget := x } = o') ∨ o = o' := by
  unfold readOption at h
  split_ifs at h with hparser hexcluded hanchor hbudget
  · exact .inl ⟨hparser, under_map_eq_ok h⟩
  · exact .inr (.inl ⟨hexcluded, under_map_eq_ok h⟩)
  · exact .inr (.inr (.inl ⟨hanchor, under_map_eq_ok h⟩))
  · exact .inr (.inr (.inr (.inl ⟨hbudget, under_map_eq_ok h⟩)))
  · exact .inr (.inr (.inr (.inr (Except.ok.inj h))))

theorem readItems_strings (names : List Text) (i : Nat) :
    readItems readString i (names.map .string) = .ok names := by
  induction names generalizing i with
  | nil => rfl
  | cons name names ih =>
    rw [List.map_cons, readItems, ih]
    rfl

theorem parserSlot_lawful : parserSlot.Lawful where
  write_ne_null := fun _ h => by cases h
  read_write := fun _ => rfl
  get_set := fun _ _ => rfl
  readOption := fun _ _ => rfl
  get_readOption := by
    intro o o' key v hkey h
    rcases readOption_cases h with ⟨rfl, _⟩ | ⟨_, _, rfl⟩ | ⟨_, _, rfl⟩ | ⟨_, _, rfl⟩ | rfl
    · exact absurd rfl hkey
    all_goals rfl

theorem excludedSlot_lawful : excludedSlot.Lawful where
  write_ne_null := fun _ h => by cases h
  read_write := fun names => readItems_strings names 0
  get_set := fun _ _ => rfl
  readOption := fun _ _ => rfl
  get_readOption := by
    intro o o' key v hkey h
    rcases readOption_cases h with ⟨_, _, rfl⟩ | ⟨rfl, _⟩ | ⟨_, _, rfl⟩ | ⟨_, _, rfl⟩ | rfl
    · rfl
    · exact absurd rfl hkey
    all_goals rfl

theorem anchorSlot_lawful : anchorSlot.Lawful where
  write_ne_null := fun _ h => by cases h
  read_write := fun _ => rfl
  get_set := fun _ _ => rfl
  readOption := fun _ _ => rfl
  get_readOption := by
    intro o o' key v hkey h
    rcases readOption_cases h with ⟨_, _, rfl⟩ | ⟨_, _, rfl⟩ | ⟨rfl, _⟩ | ⟨_, _, rfl⟩ | rfl
    · rfl
    · rfl
    · exact absurd rfl hkey
    all_goals rfl

theorem budgetSlot_lawful : budgetSlot.Lawful where
  write_ne_null := fun _ h => by cases h
  read_write := fun _ => rfl
  get_set := fun _ _ => rfl
  readOption := fun _ _ => rfl
  get_readOption := by
    intro o o' key v hkey h
    rcases readOption_cases h with ⟨_, _, rfl⟩ | ⟨_, _, rfl⟩ | ⟨_, _, rfl⟩ | ⟨rfl, _⟩ | rfl
    · rfl
    · rfl
    · rfl
    · exact absurd rfl hkey
    · rfl

variable {s : Slot α} {x : Option α} {fields : List (Text × Json.Value)}

theorem Slot.Lawful.readOption_of_isGiven (hs : s.Lawful) (h : IsGiven s.write (some v) x) :
    Config.readOption o s.key v = .ok (s.set o x) := by
  rw [hs.readOption]
  cases x with
  | none =>
    obtain rfl : v = .null := by
      rcases h with h | h
      · cases h
      · exact Option.some.inj h
    rfl
  | some a =>
    obtain rfl : v = s.write a := Option.some.inj h
    have hread : readOptional s.read (s.write a) = .ok (some a) := by
      unfold readOptional
      split
      · exact absurd ‹_› (hs.write_ne_null a)
      · rw [hs.read_write]
        rfl
    rw [hread]
    rfl

theorem readFields_cons {rest : List (Text × Json.Value)}
    (h : readFields o ((key, v) :: rest) = .ok o') :
    ∃ next, readOption o key v = .ok next ∧ readFields next rest = .ok o' := by
  rw [readFields] at h
  cases hnext : readOption o key v with
  | error c =>
    rw [hnext] at h
    cases h
  | ok next =>
    rw [hnext] at h
    exact ⟨next, rfl, h⟩

theorem Slot.Lawful.get_readFields_of_not_mem (hs : s.Lawful)
    (hkey : s.key ∉ fields.map Prod.fst) (h : readFields o fields = .ok o') :
    s.get o' = s.get o := by
  induction fields generalizing o with
  | nil => exact congrArg s.get (Except.ok.inj h).symm
  | cons f fields ih =>
    rw [List.map_cons, List.mem_cons, not_or] at hkey
    obtain ⟨next, hnext, hrest⟩ := readFields_cons h
    exact (ih hkey.2 hrest).trans (hs.get_readOption (Ne.symm hkey.1) hnext)

/-- What the fields of an object give an option is what stands in its place in the end. -/
theorem Slot.Lawful.get_readFields (hs : s.Lawful) (hnodup : (fields.map Prod.fst).Nodup)
    (hgiven : IsGiven s.write (get? s.key fields) x) (hnone : s.get o = none)
    (h : readFields o fields = .ok o') : s.get o' = x := by
  induction fields generalizing o with
  | nil =>
    obtain rfl := Except.ok.inj h
    cases x with
    | none => exact hnone
    | some a => cases hgiven
  | cons f fields ih =>
    obtain ⟨key, v⟩ := f
    rw [List.map_cons, List.nodup_cons] at hnodup
    obtain ⟨next, hnext, hrest⟩ := readFields_cons h
    by_cases hkey : key = s.key
    · subst hkey
      rw [get?, if_pos rfl] at hgiven
      rw [hs.readOption_of_isGiven hgiven] at hnext
      obtain rfl := Except.ok.inj hnext
      exact (hs.get_readFields_of_not_mem hnodup.1 hrest).trans (hs.get_set o x)
    · rw [get?_cons_ne hkey] at hgiven
      exact ih hnodup.2 hgiven ((hs.get_readOption hkey hnext).trans hnone) hrest

end Slots

section Options

variable {fields : List (Text × Json.Value)} {o : Options}

theorem exists_readFields (h : ∀ f ∈ fields, ∀ o, ∃ o', readOption o f.1 f.2 = .ok o')
    (o : Options) : ∃ o', readFields o fields = .ok o' := by
  induction fields generalizing o with
  | nil => exact ⟨o, rfl⟩
  | cons f fields ih =>
    rw [List.forall_mem_cons] at h
    obtain ⟨next, hnext⟩ := h.1 o
    obtain ⟨o', ho'⟩ := ih h.2 next
    refine ⟨o', ?_⟩
    rw [readFields, hnext]
    exact ho'

theorem Slot.Lawful.exists_readOption {α : Type} {s : Slot α} {x : Option α} (hs : s.Lawful)
    (hgiven : IsGiven s.write (get? s.key fields) x) (hnodup : (fields.map Prod.fst).Nodup)
    {f : Text × Json.Value} (hf : f ∈ fields) (hkey : f.1 = s.key) (start : Options) :
    ∃ o', Config.readOption start f.1 f.2 = .ok o' := by
  rw [← hkey, get?_of_mem hnodup hf] at hgiven
  rw [hkey]
  exact ⟨_, hs.readOption_of_isGiven hgiven⟩

theorem Gives.readOption (h : Gives fields o) (hnodup : (fields.map Prod.fst).Nodup)
    {f : Text × Json.Value} (hf : f ∈ fields) (start : Options) :
    ∃ o', Config.readOption start f.1 f.2 = .ok o' := by
  by_cases hparser : f.1 = parserSlot.key
  · exact parserSlot_lawful.exists_readOption h.parser hnodup hf hparser start
  by_cases hexcluded : f.1 = excludedSlot.key
  · exact excludedSlot_lawful.exists_readOption h.excludedPackages hnodup hf hexcluded start
  by_cases hanchor : f.1 = anchorSlot.key
  · exact anchorSlot_lawful.exists_readOption h.anchorReferences hnodup hf hanchor start
  by_cases hbudget : f.1 = budgetSlot.key
  · exact budgetSlot_lawful.exists_readOption h.chunkBudget hnodup hf hbudget start
  refine ⟨start, ?_⟩
  unfold Config.readOption
  split_ifs with h1 h2 h3 h4
  · exact absurd h1 hparser
  · exact absurd h2 hexcluded
  · exact absurd h3 hanchor
  · exact absurd h4 hbudget
  · rfl

/-- Fields are read as the options that they give. -/
theorem Gives.readFields (h : Gives fields o) (hnodup : (fields.map Prod.fst).Nodup) :
    Config.readFields .none fields = .ok o := by
  obtain ⟨o', ho'⟩ := exists_readFields (fun f hf => h.readOption hnodup hf) .none
  have hparser : o'.parser = o.parser :=
    parserSlot_lawful.get_readFields hnodup h.parser rfl ho'
  have hexcluded : o'.excludedPackages = o.excludedPackages :=
    excludedSlot_lawful.get_readFields hnodup h.excludedPackages rfl ho'
  have hanchor : o'.anchorReferences = o.anchorReferences :=
    anchorSlot_lawful.get_readFields hnodup h.anchorReferences rfl ho'
  have hbudget : o'.chunkBudget = o.chunkBudget :=
    budgetSlot_lawful.get_readFields hnodup h.chunkBudget rfl ho'
  refine ho'.trans (congrArg Except.ok ?_)
  calc o' = ⟨o'.parser, o'.excludedPackages, o'.anchorReferences, o'.chunkBudget⟩ := rfl
    _ = ⟨o.parser, o.excludedPackages, o.anchorReferences, o.chunkBudget⟩ := by
      rw [hparser, hexcluded, hanchor, hbudget]
    _ = o := rfl

def pluginsOf : Option Json.Value → Except Problem (List Plugin)
  | none => .ok []
  | some v =>
    match readPlugins v with
    | .ok plugins => plugins.toList
    | .error c => .error c.problem

def assemble (inner outer : Options) (plugins : List Plugin) : Config :=
  ⟨plugins, inner.parser.or outer.parser,
    (inner.excludedPackages.or outer.excludedPackages).getD [],
    (inner.anchorReferences.or outer.anchorReferences).getD false,
    inner.chunkBudget.or outer.chunkBudget⟩

def readPart {α : Type} (key : Text) (read : Json.Value → Except Complaint α) (before : α) :
    Option Json.Value → Except Complaint α
  | none => .ok before
  | some v => under key (read v)

theorem readParts_eq {d : Dialect} {p : Parts} {inner : Options}
    (hnodup : (fields.map Prod.fst).Nodup)
    (hoptions : readPart "options" (readOptions d) p.options (get? "options" fields) = .ok inner) :
    readParts d p fields =
      (readPart "plugins" readPlugins p.plugins (get? "plugins" fields)).map (⟨·, inner⟩) := by
  induction fields generalizing p with
  | nil =>
    rw [← Except.ok.inj hoptions]
    rfl
  | cons f fields ih =>
    obtain ⟨key, v⟩ := f
    rw [List.map_cons, List.nodup_cons] at hnodup
    rw [readParts]
    split_ifs with hplugins hkey
    · subst hplugins
      rw [get?_cons_ne (by decide)] at hoptions
      rw [get?, if_pos rfl, readPart]
      cases under "plugins" (readPlugins v) with
      | error c => rfl
      | ok plugins =>
        refine (ih (p := { p with plugins := plugins }) hnodup.2 hoptions).trans ?_
        rw [get?_eq_none hnodup.1]
        rfl
    · subst hkey
      rw [get?, if_pos rfl, readPart] at hoptions
      rw [get?_cons_ne (by decide), hoptions]
      refine ih (p := { p with options := inner }) hnodup.2 ?_
      rw [get?_eq_none hnodup.1]
      rfl
    · rw [get?_cons_ne hkey] at hoptions
      rw [get?_cons_ne hplugins]
      exact ih hnodup.2 hoptions

theorem pluginsOf_eq (found : Option Json.Value) : pluginsOf found =
    match readPart "plugins" readPlugins (.list []) found with
    | .ok plugins => plugins.toList
    | .error c => .error c.problem := by
  cases found with
  | none => rfl
  | some v =>
    rw [pluginsOf, readPart]
    cases readPlugins v <;> rfl

/-- A configuration is what its plugins and the options in both places make up. -/
theorem ofValue_object {nested : List (Text × Json.Value)} {inner outer : Options}
    (hnodup : (fields.map Prod.fst).Nodup) (hnested : (nested.map Prod.fst).Nodup)
    (houter : Gives fields outer) (hinner : Gives nested inner)
    (hoptions : get? "options" fields = some (.object nested) ∨
      get? "options" fields = none ∧ nested = []) :
    ofValue (.object fields) =
      (pluginsOf (get? "plugins" fields)).map (assemble inner outer) := by
  have hread : readPart "options" (readOptions ⟨false⟩) .none (get? "options" fields) =
      .ok inner := by
    have hfields := hinner.readFields hnested
    rcases hoptions with hoptions | ⟨hoptions, rfl⟩
    · rw [hoptions, readPart, readOptions, hfields]
      rfl
    · rw [hoptions]
      exact hfields
  have hbeside (p : Text × Json.Value → Bool)
      (hp : ∀ f, p f = decide (f.1 ≠ "plugins".toList ∧ f.1 ≠ "options".toList)) :
      readFields .none (fields.filter p) = .ok outer := by
    refine Gives.readFields ⟨?_, ?_, ?_, ?_⟩ ((List.filter_sublist.map Prod.fst).nodup hnodup)
    · rw [get?_filter fun _ => (hp _).trans rfl]
      exact houter.parser
    · rw [get?_filter fun _ => (hp _).trans rfl]
      exact houter.excludedPackages
    · rw [get?_filter fun _ => (hp _).trans rfl]
      exact houter.anchorReferences
    · rw [get?_filter fun _ => (hp _).trans rfl]
      exact houter.chunkBudget
  have hparts := readParts_eq (d := ⟨false⟩) (p := ⟨.list [], .none⟩) hnodup hread
  rw [ofValue, decode, hparts, hbeside _ ?beside, pluginsOf_eq]
  case beside => exact fun _ => rfl
  cases readPart "plugins" readPlugins (.list []) (get? "plugins" fields) with
  | error c => rfl
  | ok plugins =>
    simp only [Except.map, Except.mapError, displaced, bind, Except.bind]
    cases plugins.toList <;> rfl

def pluginFields (fields : List (Text × Json.Value)) : List (Text × Json.Value) :=
  fields.filter fun f => f.1 = ("plugins" : Text)

theorem ofValue_pluginFields (hnodup : (fields.map Prod.fst).Nodup) :
    ofValue (.object (pluginFields fields)) =
      (pluginsOf (get? "plugins" fields)).map (assemble .none .none) := by
  have hkeys : ((pluginFields fields).map Prod.fst).Nodup :=
    (List.filter_sublist.map Prod.fst).nodup hnodup
  have hnil : (([] : List (Text × Json.Value)).map Prod.fst).Nodup := List.Pairwise.nil
  have houter : Gives (pluginFields fields) .none :=
    ⟨.inl (get?_filter_eq_none fun _ => rfl), .inl (get?_filter_eq_none fun _ => rfl),
      .inl (get?_filter_eq_none fun _ => rfl), .inl (get?_filter_eq_none fun _ => rfl)⟩
  have hinner : Gives [] .none := ⟨.inl rfl, .inl rfl, .inl rfl, .inl rfl⟩
  have hoptions : get? "options" (pluginFields fields) = none :=
    get?_filter_eq_none fun _ => rfl
  have hplugins : get? "plugins" (pluginFields fields) = get? "plugins" fields :=
    get?_filter fun _ => rfl
  rw [ofValue_object hkeys hnil houter hinner (.inr ⟨hoptions, rfl⟩), hplugins]

end Options

section Plugins

variable {entries : List (Text × Json.Value)}

/-- Whether the value of a plugin is refused: a number, a string or an array. A number that is
infinite or none, which JSON does not have, counts as null. -/
def isRefused : Json.Value → Bool
  | .number (.real x) => decide (x.magnitude < Binary64.infinity)
  | .number _ | .string _ | .array _ => true
  | .null | .bool _ | .object _ => false

/-- The description that says in a list what a plugin with its value says in an object. -/
def describe? : Text × Json.Value → Option Json.Value
  | (_, .bool false) => none
  | (name, .object options) =>
    some (.object [("name", .string name), ("options", .object options)])
  | (name, _) => some (.object [("name", .string name), ("options", .object [])])

def plugin? : Text × Json.Value → Option Plugin
  | (_, .bool false) => none
  | (name, .object options) => some ⟨name, (Json.Value.object options).finite⟩
  | (name, _) => some (.plain name)

theorem enabled_cons (e : Text × Json.Value) (rest : List (Text × Json.Value)) :
    enabled ((e.1, e.2.finite) :: rest) =
      if isRefused e.2 then .error (.wrongPlugin e.1 e.2.finite)
      else (enabled rest).map ((plugin? e).toList ++ ·) := by
  obtain ⟨name, v⟩ := e
  cases v with
  | null => rfl
  | bool b =>
    cases b with
    | false =>
      show enabled rest = (enabled rest).map ([] ++ ·)
      cases enabled rest <;> rfl
    | true => rfl
  | number n =>
    cases n with
    | natural n => rfl
    | negative n => rfl
    | real x =>
      rw [isRefused]
      by_cases hx : x.magnitude < Binary64.infinity
      · simp [Json.Value.finite, enabled, hx]
      · simp [Json.Value.finite, enabled, hx, plugin?]
  | string t => rfl
  | array items => rfl
  | object options => rfl

theorem enabled_finite (h : ∀ e ∈ entries, isRefused e.2 = false) :
    enabled (Json.finiteFields entries) = .ok (entries.filterMap plugin?) := by
  induction entries with
  | nil => rfl
  | cons e entries ih =>
    rw [List.forall_mem_cons] at h
    rw [Json.finiteFields, enabled_cons, h.1, if_neg Bool.false_ne_true, ih h.2]
    rw [List.filterMap_cons]
    cases plugin? e <;> rfl

theorem enabled_refused (h : ∃ e ∈ entries, isRefused e.2 = true) :
    ∃ p, enabled (Json.finiteFields entries) = .error p := by
  induction entries with
  | nil =>
    obtain ⟨e, he, _⟩ := h
    cases he
  | cons e entries ih =>
    rw [Json.finiteFields, enabled_cons]
    split_ifs with hfirst
    · exact ⟨_, rfl⟩
    · obtain ⟨f, hf, hrefused⟩ := h
      rcases List.mem_cons.1 hf with rfl | hf
      · exact absurd hrefused hfirst
      · obtain ⟨p, hp⟩ := ih ⟨f, hf, hrefused⟩
        exact ⟨p, by rw [hp]; rfl⟩

/-- A description is read as its plugin, and there is none of a plugin that is switched off. -/
theorem describe_cases (e : Text × Json.Value) :
    describe? e = none ∧ plugin? e = none ∨
      ∃ description plugin, describe? e = some description ∧ plugin? e = some plugin ∧
        readPlugin? description = some plugin := by
  obtain ⟨name, v⟩ := e
  cases v with
  | bool b =>
    cases b with
    | false => exact .inl ⟨rfl, rfl⟩
    | true => exact .inr ⟨_, _, rfl, rfl, rfl⟩
  | object options => exact .inr ⟨_, _, rfl, rfl, rfl⟩
  | null | number n | string t | array items => exact .inr ⟨_, _, rfl, rfl, rfl⟩

theorem mapM_describe (entries : List (Text × Json.Value)) :
    (entries.filterMap describe?).mapM readPlugin? = some (entries.filterMap plugin?) := by
  induction entries with
  | nil => rfl
  | cons e entries ih =>
    rcases describe_cases e with ⟨hnone, hplugin⟩ | ⟨description, plugin, hsome, hplugin, hread⟩
    · rw [List.filterMap_cons_none hnone, List.filterMap_cons_none hplugin, ih]
    · rw [List.filterMap_cons_some hsome, List.filterMap_cons_some hplugin, List.mapM_cons, hread,
        ih]
      rfl

theorem pluginsOf_object (entries : List (Text × Json.Value)) :
    pluginsOf (some (.object entries)) = enabled (Json.finiteFields entries) := rfl

theorem pluginsOf_described (entries : List (Text × Json.Value)) :
    pluginsOf (some (.array (entries.filterMap describe?))) =
      .ok (entries.filterMap plugin?) := by
  rw [pluginsOf, readPlugins, mapM_describe]
  rfl

theorem ofValue_plugins (v : Json.Value) : ofValue (.object [("plugins", v)]) =
    (pluginsOf (some v)).map (assemble .none .none) :=
  @ofValue_pluginFields [("plugins", v)] (by simp)

end Plugins

/-- An object of plugins is refused exactly if the value of one is a number, a string or an array, and
otherwise says the same as the list of descriptions of those that are not switched off. Options that
are given inside `options`, beside it or in both places leave the plugins as they are, and each of
them has the inner value if there is one, else the outer one, else its default. -/
theorem ofValue_notations :
    (∀ entries : List (Text × Json.Value),
      ((∃ p, ofValue (.object [("plugins", .object entries)]) = .error p) ↔
        ∃ e ∈ entries, isRefused e.2 = true) ∧
      ((∀ e ∈ entries, isRefused e.2 = false) →
        ofValue (.object [("plugins", .object entries)]) =
          ofValue (.object [("plugins", .array (entries.filterMap describe?))]))) ∧
    ∀ (fields nested : List (Text × Json.Value)) (inner outer : Options),
      (fields.map Prod.fst).Nodup → (nested.map Prod.fst).Nodup →
      Gives fields outer → Gives nested inner →
      (get? "options" fields = some (.object nested) ∨
        get? "options" fields = none ∧ nested = []) →
      ofValue (.object fields) =
        (ofValue (.object (pluginFields fields))).map (fun c =>
          ⟨c.plugins, inner.parser.or outer.parser,
            (inner.excludedPackages.or outer.excludedPackages).getD [],
            (inner.anchorReferences.or outer.anchorReferences).getD false,
            inner.chunkBudget.or outer.chunkBudget⟩) ∧
      (get? "plugins" fields = none →
        ofValue (.object (pluginFields fields)) = .ok .default) := by
  refine ⟨fun entries => ⟨?_, fun hfree => ?_⟩, ?_⟩
  · rw [ofValue_plugins, pluginsOf_object]
    constructor
    · rintro ⟨p, hp⟩
      by_contra hnone
      have hfree : ∀ e ∈ entries, isRefused e.2 = false := by
        intro e he
        exact Bool.eq_false_iff.2 fun hrefused => hnone ⟨e, he, hrefused⟩
      rw [enabled_finite hfree] at hp
      cases hp
    · intro hrefused
      obtain ⟨p, hp⟩ := enabled_refused hrefused
      exact ⟨p, by rw [hp]; rfl⟩
  · rw [ofValue_plugins, ofValue_plugins, pluginsOf_object, enabled_finite hfree,
      pluginsOf_described]
  · intro fields nested inner outer hnodup hnested houter hinner hoptions
    refine ⟨?_, fun hplugins => ?_⟩
    · rw [ofValue_object hnodup hnested houter hinner hoptions, ofValue_pluginFields hnodup]
      cases pluginsOf (get? "plugins" fields) <;> rfl
    · rw [ofValue_pluginFields hnodup, hplugins]
      rfl

/-- One plugin is switched off, and the options stand in both places. -/
theorem ofValue_notations_mixed :
    (∀ e ∈ [(("zeta" : Text), Json.Value.object []), ("off", .bool false), ("alpha", .null)],
      isRefused e.2 = false) ∧
    ofValue (.object [("plugins", .object [("zeta", .object []), ("off", .bool false),
        ("alpha", .null)])]) =
      ofValue (.object [("plugins", .array [
        .object [("name", .string "zeta"), ("options", .object [])],
        .object [("name", .string "alpha"), ("options", .object [])]])]) ∧
    ofValue (.object [("parser", .string "top"), ("rewriteUrls", .bool true), ("options", .object [
        ("rewriteUrls", .null), ("parser", .string "scss"),
        ("maxSelectorsPerChunk", .number (.natural 4000))])]) =
      .ok ⟨[], some "scss", [], true, some 4000⟩ := by
  have hfree : ∀ e ∈ [(("zeta" : Text), Json.Value.object []), ("off", .bool false),
      ("alpha", .null)], isRefused e.2 = false := by decide
  have houter : Gives [("parser", .string "top"), ("rewriteUrls", .bool true), ("options", .object [
        ("rewriteUrls", .null), ("parser", .string "scss"),
        ("maxSelectorsPerChunk", .number (.natural 4000))])] ⟨some "top", none, some true, none⟩ :=
    ⟨rfl, .inl rfl, rfl, .inl rfl⟩
  have hinner : Gives [("rewriteUrls", .null), ("parser", .string "scss"),
        ("maxSelectorsPerChunk", .number (.natural 4000))] ⟨some "scss", none, none, some 4000⟩ :=
    ⟨rfl, .inl rfl, .inr rfl, rfl⟩
  obtain ⟨hobject, hplaces⟩ := ofValue_notations
  obtain ⟨hconfig, hplugins⟩ := hplaces _ _ _ _ (by decide) (by decide) houter hinner (.inl rfl)
  refine ⟨hfree, (hobject _).2 hfree, ?_⟩
  rw [hconfig, hplugins rfl]
  rfl

end Stylesmith.Config
