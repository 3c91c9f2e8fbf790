import Mathlib.Logic.Basic
import Fala.Toml.Tables

namespace Fala.Toml

open Durable TomlRules
open Schema (bind_ok)

/-- The object that `_put_path` and `_ensure_path` go on in, however it was written. -/
def throughTable : Json → Option Object
  | .obj members => some members
  | .arr items => items.getLast?.bind fun last => match last with
    | .obj members => some members
    | _ => none
  | _ => none

/-- The object that `_put_object` goes on in. -/
def throughObject : Json → Option Object
  | .obj members => some members
  | _ => none

/-- A path that leads through the value to a key which is not there, or whose value `ends` it well. -/
def Reaches (through : Json → Option Object) (ends : Option Json → Prop) : List String → Object → Prop
  | [], _ => False
  | [key], members => ends (Assoc.find key members)
  | key :: next :: rest, members =>
    match Assoc.find key members with
    | none => True
    | some held =>
      match through held with
      | none => False
      | some inner => Reaches through ends (next :: rest) inner

def Unset (existing : Option Json) : Prop := existing = none

def EndsArray : Option Json → Prop
  | none | some (.arr _) => True
  | _ => False

def EndsTable : Option Json → Prop
  | none | some (.obj _) => True
  | some (.arr items) => items ≠ []
  | _ => False

section

variable {path : String}

theorem reaches_nil {through : Json → Option Object} {ends : Option Json → Prop} (free : ends none)
    {parts : List String} (some_key : parts ≠ []) : Reaches through ends parts [] := by
  match parts with
  | [] => exact some_key rfl
  | [key] => exact free
  | key :: next :: rest => trivial

theorem atPath_iff {select : Option Json → Except String Json} {refusal : String}
    {finish : String → Object → Except String Object} {through : Json → Option Object} {ends : Option Json → Prop}
    (fresh : select none = .ok (.obj []))
    (selects : ∀ held members,
      (select (some held) >>= object path refusal) = .ok members ↔ through held = some members)
    (free : ends none)
    (finishes : ∀ key members, (∃ after, finish key members = .ok after) ↔ ends (Assoc.find key members))
    {parts : List String} (some_key : parts ≠ []) (members : Object) :
    (∃ after, atPath path select refusal finish parts members = .ok after) ↔ Reaches through ends parts members := by
  induction parts generalizing members with
  | nil => exact absurd rfl some_key
  | cons key rest ih =>
    cases rest with
    | nil => exact finishes key members
    | cons next rest =>
      have deeper := ih (List.cons_ne_nil next rest)
      rw [atPath_cons (List.cons_ne_nil next rest), Reaches]
      cases found : Assoc.find key members with
      | none =>
        obtain ⟨after, went⟩ := (deeper []).mpr (reaches_nil free (List.cons_ne_nil next rest))
        rw [fresh]
        simp only [object, bind, Except.bind, went]
        exact iff_of_true ⟨_, rfl⟩ trivial
      | some held =>
        simp only [bind_ok, pure, Except.pure, Except.ok.injEq]
        cases entered : through held with
        | none =>
          refine iff_of_false ?_ id
          rintro ⟨_, selected, picked, members', opened, _⟩
          have through' := (selects held members').mp (bind_ok.mpr ⟨selected, picked, opened⟩)
          rw [entered] at through'
          cases through'
        | some inner =>
          obtain ⟨selected, picked, opened⟩ := bind_ok.mp ((selects held inner).mpr entered)
          show _ ↔ Reaches through ends (next :: rest) inner
          rw [← deeper inner]
          constructor
          · rintro ⟨_, _, picked', _, opened', after, went, _⟩
            rw [picked] at picked'
            cases picked'
            rw [opened] at opened'
            cases opened'
            exact ⟨after, went⟩
          · rintro ⟨after, went⟩
            exact ⟨_, selected, picked, inner, opened, after, went, rfl⟩

theorem innerTable_through (held : Json) (members : Object) :
    (innerTable path (some held) >>= object path "table path is not an object") = .ok members ↔
      throughTable held = some members := by
  cases held with
  | arr items =>
    simp only [innerTable, throughTable]
    cases items.getLast? with
    | none => simp [fail, bind, Except.bind]
    | some last => cases last <;> simp [object, fail, bind, Except.bind]
  | obj => simp [innerTable, throughTable, object, bind, Except.bind]
  | null | bool | int | uint | float | str => simp [innerTable, throughTable, fail, bind, Except.bind]

theorem innerObject_through (held : Json) (members : Object) :
    (innerObject path (some held) >>= object path "dotted key conflicts with scalar") = .ok members ↔
      throughObject held = some members := by
  cases held <;> simp [innerObject, throughObject, object, fail, bind, Except.bind]

theorem putKey_iff (value : Json) (key : String) (members : Object) :
    (∃ after, putKey path value key members = .ok after) ↔ Unset (Assoc.find key members) := by
  unfold putKey Unset
  cases Assoc.find key members <;> simp [fail]

theorem appendKey_iff (value : Json) (key : String) (members : Object) :
    (∃ after, appendKey path value key members = .ok after) ↔ EndsArray (Assoc.find key members) := by
  unfold appendKey
  cases Assoc.find key members with
  | none => simp [EndsArray]
  | some held => cases held <;> simp [EndsArray, fail]

theorem ensureKey_iff (key : String) (members : Object) :
    (∃ after, ensureKey path key members = .ok after) ↔ EndsTable (Assoc.find key members) := by
  unfold ensureKey
  cases Assoc.find key members with
  | none => simp [EndsTable, innerTable, bind, Except.bind, pure, Except.pure]
  | some held =>
    cases held with
    | arr items =>
      rcases List.eq_nil_or_concat items with rfl | ⟨earlier, last, rfl⟩
      · simp [EndsTable, innerTable, fail, bind, Except.bind]
      · simp [EndsTable, innerTable, bind, Except.bind, pure, Except.pure]
    | obj => simp [EndsTable, innerTable, bind, Except.bind, pure, Except.pure]
    | null | bool | int | uint | float | str => simp [EndsTable, innerTable, fail, bind, Except.bind]

theorem putObject_iff (path : String) (value : Json) (parts : List String) (members : Object) :
    (∃ after, putObject path members parts value = .ok after) ↔ Reaches throughObject Unset parts members := by
  unfold putObject
  by_cases some_key : parts = []
  · simp [some_key, Reaches, fail]
  · rw [if_neg some_key]
    have free : Unset none := rfl
    exact atPath_iff rfl innerObject_through free (putKey_iff value) some_key members

theorem putPath_iff (path : String) (value : Json) (parts : List String) (members : Object) :
    (∃ after, putPath path members parts value false = .ok after) ↔ Reaches throughTable Unset parts members := by
  unfold putPath
  by_cases some_key : parts = []
  · simp [some_key, Reaches, fail]
  · rw [if_neg some_key]
    have free : Unset none := rfl
    exact atPath_iff rfl innerTable_through free (putKey_iff value) some_key members

theorem appendPath_iff (path : String) (value : Json) (parts : List String) (members : Object) :
    (∃ after, putPath path members parts value true = .ok after) ↔ Reaches throughTable EndsArray parts members := by
  unfold putPath
  by_cases some_key : parts = []
  · simp [some_key, Reaches, fail]
  · rw [if_neg some_key]
    exact atPath_iff rfl innerTable_through trivial (appendKey_iff value) some_key members

theorem ensurePath_iff (path : String) (parts : List String) (members : Object) :
    (∃ after, ensurePath path members parts = .ok after) ↔
      parts = [] ∨ Reaches throughTable EndsTable parts members := by
  unfold ensurePath
  by_cases some_key : parts = []
  · subst some_key
    exact iff_of_true ⟨members, rfl⟩ (.inl rfl)
  · rw [or_iff_right some_key]
    exact atPath_iff rfl innerTable_through trivial ensureKey_iff some_key members

end

/-! Inline tables. -/

/-- A dotted key that TOML refuses although the value so far leaves room for it. -/
def MisplacedEntry (members : Members Json) (key : List String) : Prop :=
  dotted .null key members = none ∧ Reaches throughObject Unset key (erase members)

mutual

/-- A written value whose inline tables have no misplaced key. What follows a refused entry does not count. -/
def Tidy : Written Json → Prop
  | .scalar _ => True
  | .array items => TidyItems items
  | .inline entries => TidyEntries [] entries

def TidyItems : List (Written Json) → Prop
  | [] => True
  | item :: rest => Tidy item ∧ (value .obj .arr item ≠ none → TidyItems rest)

def TidyEntries (members : Members Json) : Entries → Prop
  | [] => True
  | (key, item) :: rest =>
    ¬ MisplacedEntry members key ∧ (dotted .null key members ≠ none → Tidy item) ∧
      ∀ held changed, value .obj .arr item = some held → dotted held key members = some changed →
        TidyEntries changed rest

end

section

variable {path : String}

theorem along_none {rules : Select} {change change' : Members Json → Option (Members Json)}
    (same : ∀ members, change members = none ↔ change' members = none) (start : List String) (members : Members Json) :
    along rules change start members = none ↔ along rules change' start members = none := by
  induction start generalizing members with
  | nil => exact same members
  | cons key rest ih =>
    rw [along, along]
    cases rules (Assoc.find key members) with
    | none => rfl
    | some opened => simp [ih]

theorem giveValue_none (held other : Json) (key : String) (members : Members Json) :
    giveValue held key members = none ↔ giveValue other key members = none := by
  unfold giveValue
  cases Assoc.find key members <;> simp

theorem dotted_none (held other : Json) (parts : List String) (members : Members Json) :
    dotted held parts members = none ↔ dotted other parts members = none := by
  unfold dotted atLast
  cases parts.getLast? with
  | none => rfl
  | some key => exact along_none (giveValue_none held other key) _ _

theorem putObject_toOption {members : Members Json} {key : List String} (placed : ¬ MisplacedEntry members key)
    (held : Json) :
    (putObject path (erase members) key held).toOption = (dotted held key members).map erase := by
  cases allowed : dotted held key members with
  | some changed => rw [putObject_of_dotted allowed]; rfl
  | none =>
    have refused : ¬ Reaches throughObject Unset key (erase members) :=
      fun reaches => placed ⟨(dotted_none held .null key members).mp allowed, reaches⟩
    cases went : putObject path (erase members) key held with
    | error => rfl
    | ok after => exact absurd ((putObject_iff path held key (erase members)).mp ⟨after, went⟩) refused

mutual

theorem build_toOption (item : Written Json) (tidy : Tidy item) :
    (build path item).toOption = value .obj .arr item := by
  cases item with
  | scalar => rfl
  | array items =>
    rw [Tidy] at tidy
    have same := buildItems_toOption items tidy
    rw [build, value, toOption_bind, same]
    cases values .obj .arr items <;> rfl
  | inline entries =>
    rw [Tidy] at tidy
    have same := buildEntries_toOption [] entries tidy
    rw [build, value, toOption_bind]
    rw [show ([] : Object) = erase [] from rfl, same]
    cases entriesIn .obj .arr [] entries <;> rfl

theorem buildItems_toOption (items : List (Written Json)) (tidy : TidyItems items) :
    (buildItems path items).toOption = values .obj .arr items := by
  cases items with
  | nil => rfl
  | cons item rest =>
    rw [TidyItems] at tidy
    have first := build_toOption item tidy.1
    rw [buildItems, values, toOption_bind, first]
    cases here : value .obj .arr item with
    | none => rfl
    | some held =>
      have later := buildItems_toOption rest (tidy.2 (by simp [here]))
      rw [Option.bind_some, Option.bind_some, toOption_bind, later]
      cases values .obj .arr rest <;> rfl

theorem buildEntries_toOption (members : Members Json) (entries : Entries) (tidy : TidyEntries members entries) :
    (buildEntries path (erase members) entries).toOption = (entriesIn .obj .arr members entries).map erase := by
  cases entries with
  | nil => rfl
  | cons entry rest =>
    obtain ⟨key, item⟩ := entry
    rw [TidyEntries] at tidy
    obtain ⟨placed, inner, later⟩ := tidy
    rw [buildEntries, entriesIn, toOption_bind]
    by_cases possible : dotted .null key members = none
    · -- The key is refused whatever its value is, once the value has been read.
      have never : ∀ held, dotted held key members = none := fun held => (dotted_none held .null key members).mpr possible
      have refused : ∀ held, (putObject path (erase members) key held).toOption = none := by
        intro held
        rw [putObject_toOption placed, never]
        rfl
      simp only [toOption_bind, refused, never, Option.bind_none, Option.bind_fun_none, Option.map_none]
    · have first := build_toOption item (inner possible)
      rw [first]
      cases here : value .obj .arr item with
      | none => rfl
      | some held =>
        rw [Option.bind_some, Option.bind_some, toOption_bind, putObject_toOption placed]
        cases went : dotted held key members with
        | none => rfl
        | some changed => exact buildEntries_toOption changed rest (later held changed here went)

end

end

/-! Documents. -/

/-- A definition on which the two differ by its place alone: a header that repeats the dotted text of an
    earlier one although TOML allows it, or a path that TOML refuses although the value so far leaves room
    for it. -/
def Misplaced (s : State Json) (tables : List String) : Definition Json → Prop
  | .table parts =>
    if tablePathText parts ∈ tables then headed openTable parts s.members ≠ none
    else
      headed openTable parts s.members = none ∧
        (parts = [] ∨ Reaches throughTable EndsTable parts (erase s.members))
  | .tables parts =>
    headed (addTable .obj .arr) parts s.members = none ∧ Reaches throughTable EndsArray parts (erase s.members)
  | .entry key _ =>
    assigned .null s.current key s.members = none ∧
      Reaches throughTable Unset (s.current ++ key) (erase s.members)

def TidyIn (s : State Json) : Definition Json → Prop
  | .entry key item => assigned .null s.current key s.members ≠ none → Tidy item
  | _ => True

def declared (tables : List String) : Definition Json → List String
  | .table parts => tables ++ [tablePathText parts]
  | _ => tables

/-- A sequence of definitions with none misplaced, up to one that is refused. -/
def Sound (s : State Json) (tables : List String) : List (Definition Json) → Prop
  | [] => True
  | definition :: rest =>
    ¬ Misplaced s tables definition ∧ TidyIn s definition ∧
      ∀ s', define .obj .arr s definition = some s' → Sound s' (declared tables definition) rest

/-- The parser's document where the rules are in a state. -/
def documentOf (s : State Json) (tables : List String) : Document := ⟨erase s.members, s.current, tables⟩

section

variable {path : String}

theorem toOption_none {α : Type} {x : Except String α} (never : ¬ ∃ a, x = .ok a) : x.toOption = none := by
  cases x with
  | error => rfl
  | ok a => exact absurd ⟨a, rfl⟩ never

theorem assigned_none (held other : Json) (current key : List String) (members : Members Json) :
    assigned held current key members = none ↔ assigned other current key members = none :=
  along_none (dotted_none held other key) current members

theorem declareTable_toOption {s : State Json} {tables parts : List String}
    (placed : ¬ Misplaced s tables (.table parts)) :
    (declareTable path (documentOf s tables) parts).toOption =
      (headed openTable parts s.members).map fun changed =>
        documentOf ⟨changed, parts⟩ (tables ++ [tablePathText parts]) := by
  rw [Misplaced] at placed
  rw [declareTable]
  by_cases again : tablePathText parts ∈ tables
  · rw [if_pos again, not_not] at placed
    rw [placed, if_pos (show tablePathText parts ∈ (documentOf s tables).tables from again)]
    rfl
  · rw [if_neg again] at placed
    rw [if_neg (show tablePathText parts ∉ (documentOf s tables).tables from again), toOption_map]
    cases allowed : headed openTable parts s.members with
    | some changed =>
      have went : ensurePath path (documentOf s tables).root parts = .ok (erase changed) := ensurePath_of_headed allowed
      rw [went]
      rfl
    | none =>
      have refused : ¬ ∃ after, ensurePath path (documentOf s tables).root parts = .ok after := by
        rw [ensurePath_iff]
        exact fun reaches => placed ⟨allowed, reaches⟩
      rw [toOption_none refused]
      rfl

theorem declareArray_toOption {s : State Json} {tables parts : List String}
    (placed : ¬ Misplaced s tables (.tables parts)) :
    (declareArray path (documentOf s tables) parts).toOption =
      (headed (addTable .obj .arr) parts s.members).map fun changed => documentOf ⟨changed, parts⟩ tables := by
  rw [Misplaced] at placed
  rw [declareArray, toOption_map]
  cases allowed : headed (addTable .obj .arr) parts s.members with
  | some changed =>
    have went : putPath path (documentOf s tables).root parts (.obj []) true = .ok (erase changed) :=
      putPath_of_headed allowed
    rw [went]
    rfl
  | none =>
    have refused : ¬ ∃ after, putPath path (documentOf s tables).root parts (.obj []) true = .ok after := by
      rw [appendPath_iff]
      exact fun reaches => placed ⟨allowed, reaches⟩
    rw [toOption_none refused]
    rfl

theorem assignKey_toOption {s : State Json} {tables key : List String} {item : Written Json}
    (placed : ¬ Misplaced s tables (.entry key item)) (held : Json) :
    (assignKey path (documentOf s tables) key held).toOption =
      (assigned held s.current key s.members).map fun changed => documentOf ⟨changed, s.current⟩ tables := by
  rw [Misplaced] at placed
  rw [assignKey, toOption_map]
  cases allowed : assigned held s.current key s.members with
  | some changed =>
    have went : putPath path (documentOf s tables).root ((documentOf s tables).current ++ key) held false =
        .ok (erase changed) := putPath_of_assigned allowed
    rw [went]
    rfl
  | none =>
    have refused : ¬ ∃ after, putPath path (documentOf s tables).root ((documentOf s tables).current ++ key) held
        false = .ok after := by
      rw [putPath_iff]
      exact fun reaches => placed ⟨(assigned_none held .null ..).mp allowed, reaches⟩
    rw [toOption_none refused]
    rfl

theorem buildDefinition_toOption (path : String) {s : State Json} {tables : List String} {definition : Definition Json}
    (placed : ¬ Misplaced s tables definition) (tidy : TidyIn s definition) :
    (buildDefinition path (documentOf s tables) definition).toOption =
      (define .obj .arr s definition).map fun s' => documentOf s' (declared tables definition) := by
  cases definition with
  | table parts =>
    rw [buildDefinition, declareTable_toOption placed, define, Option.map_map]
    rfl
  | tables parts =>
    rw [buildDefinition, declareArray_toOption placed, define, Option.map_map]
    rfl
  | entry key item =>
    rw [buildDefinition, define, toOption_bind]
    simp only [assignKey_toOption placed]
    by_cases possible : assigned .null s.current key s.members = none
    · have never : ∀ held, assigned held s.current key s.members = none :=
        fun held => (assigned_none held .null ..).mpr possible
      simp only [never, Option.map_none, Option.bind_fun_none]
    · rw [build_toOption item (tidy possible)]
      cases value .obj .arr item with
      | none => rfl
      | some held =>
        rw [Option.bind_some, Option.bind_some, Option.map_map]
        rfl

theorem buildDocument_toOption {definitions : List (Definition Json)} {s : State Json} {tables : List String}
    (sound : Sound s tables definitions) :
    (buildDocument path (documentOf s tables) definitions).toOption.map Document.root =
      (run .obj .arr s definitions).map fun s' => erase s'.members := by
  induction definitions generalizing s tables with
  | nil => rfl
  | cons definition rest ih =>
    obtain ⟨placed, tidy, later⟩ := sound
    rw [buildDocument, run, toOption_bind, buildDefinition_toOption path placed tidy]
    cases step : define .obj .arr s definition with
    | none => rfl
    | some s' => exact ih (later s' step)

end

end Fala.Toml
