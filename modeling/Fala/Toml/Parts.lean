import Fala.Toml.Agreement

namespace Fala.Toml

open TomlRules

/-- What is left of a written value if its text ends early and what is open is closed. -/
inductive Leads : Written Json → Written Json → Prop where
  | scalar (held : Json) : Leads (.scalar held) (.scalar held)
  | items (before later : List (Written Json)) : Leads (.array before) (.array (before ++ later))
  | item {part item : Written Json} (before later : List (Written Json)) (inside : Leads part item) :
      Leads (.array (before ++ [part])) (.array (before ++ item :: later))
  | entries (before later : Entries) : Leads (.inline before) (.inline (before ++ later))
  | entry {part item : Written Json} (before : Entries) (key : List String) (later : Entries)
      (inside : Leads part item) :
      Leads (.inline (before ++ [(key, part)])) (.inline (before ++ (key, item) :: later))

/-- What is left of a document in the same way. -/
inductive LeadsTo : List (Definition Json) → List (Definition Json) → Prop where
  | cut (before later : List (Definition Json)) : LeadsTo before (before ++ later)
  | inside {part item : Written Json} (before : List (Definition Json)) (key : List String)
      (later : List (Definition Json)) (leads : Leads part item) :
      LeadsTo (before ++ [.entry key part]) (before ++ .entry key item :: later)

/-! A part of what is sound is sound. -/

theorem tidyItems_before {before later : List (Written Json)} (tidy : TidyItems (before ++ later)) :
    TidyItems before := by
  induction before with
  | nil => trivial
  | cons item rest ih =>
    rw [List.cons_append, TidyItems] at tidy
    exact ⟨tidy.1, fun accepted => ih (tidy.2 accepted)⟩

theorem tidyItems_part {before later : List (Written Json)} {part item : Written Json}
    (tidy : TidyItems (before ++ item :: later)) (inside : Tidy item → Tidy part) : TidyItems (before ++ [part]) := by
  induction before with
  | nil =>
    rw [List.nil_append, TidyItems] at tidy
    exact ⟨inside tidy.1, fun _ => trivial⟩
  | cons first rest ih =>
    rw [List.cons_append, TidyItems] at tidy
    exact ⟨tidy.1, fun accepted => ih (tidy.2 accepted)⟩

theorem tidyEntries_before {before later : Entries} {members : Members Json}
    (tidy : TidyEntries members (before ++ later)) : TidyEntries members before := by
  induction before generalizing members with
  | nil => trivial
  | cons entry rest ih =>
    rw [List.cons_append, TidyEntries] at tidy
    obtain ⟨placed, inner, next⟩ := tidy
    exact ⟨placed, inner, fun held changed accepted went => ih (next held changed accepted went)⟩

theorem tidyEntries_part {before later : Entries} {key : List String} {part item : Written Json}
    {members : Members Json} (tidy : TidyEntries members (before ++ (key, item) :: later))
    (inside : Tidy item → Tidy part) : TidyEntries members (before ++ [(key, part)]) := by
  induction before generalizing members with
  | nil =>
    rw [List.nil_append, TidyEntries] at tidy
    obtain ⟨placed, inner, _⟩ := tidy
    exact ⟨placed, fun possible => inside (inner possible), fun _ _ _ _ => trivial⟩
  | cons entry rest ih =>
    rw [List.cons_append, TidyEntries] at tidy
    obtain ⟨placed, inner, next⟩ := tidy
    exact ⟨placed, inner, fun held changed accepted went => ih (next held changed accepted went)⟩

theorem Leads.tidy {part item : Written Json} (leads : Leads part item) (tidy : Tidy item) : Tidy part := by
  induction leads with
  | scalar => trivial
  | items before later =>
    rw [Tidy] at tidy ⊢
    exact tidyItems_before tidy
  | item before later _ ih =>
    rw [Tidy] at tidy ⊢
    exact tidyItems_part tidy ih
  | entries before later =>
    rw [Tidy] at tidy ⊢
    exact tidyEntries_before tidy
  | entry before key later _ ih =>
    rw [Tidy] at tidy ⊢
    exact tidyEntries_part tidy ih

theorem sound_before {before later : List (Definition Json)} {s : State Json} {tables : List String}
    (sound : Sound s tables (before ++ later)) : Sound s tables before := by
  induction before generalizing s tables with
  | nil => trivial
  | cons definition rest ih =>
    obtain ⟨placed, tidy, next⟩ := sound
    exact ⟨placed, tidy, fun s' went => ih (next s' went)⟩

theorem sound_part {before later : List (Definition Json)} {key : List String} {part item : Written Json}
    {s : State Json} {tables : List String} (leads : Leads part item)
    (sound : Sound s tables (before ++ .entry key item :: later)) : Sound s tables (before ++ [.entry key part]) := by
  induction before generalizing s tables with
  | nil =>
    obtain ⟨placed, tidy, _⟩ := sound
    exact ⟨placed, fun possible => leads.tidy (tidy possible), fun _ _ => trivial⟩
  | cons definition rest ih =>
    obtain ⟨placed, tidy, next⟩ := sound
    exact ⟨placed, tidy, fun s' went => ih (next s' went)⟩

theorem LeadsTo.sound {part whole : List (Definition Json)} {s : State Json} {tables : List String}
    (leads : LeadsTo part whole) (sound : Sound s tables whole) : Sound s tables part := by
  cases leads with
  | cut before later => exact sound_before sound
  | inside before key later leads => exact sound_part leads sound

/-! What is not sound has a part on which the parser and the rules differ. -/

section

variable {path : String}

theorem accepted_part (path : String) (item : Written Json) :
    ∃ part held, Leads part item ∧ value .obj .arr part = some held ∧ build path part = .ok held := by
  cases item with
  | scalar held => exact ⟨_, held, .scalar held, rfl, rfl⟩
  | array items => exact ⟨_, .arr [], .items [] items, rfl, rfl⟩
  | inline entries => exact ⟨_, .obj [], .entries [] entries, rfl, rfl⟩

/-- TOML refuses the value and the parser builds it. -/
def Slips (path : String) (part : Written Json) : Prop :=
  value .obj .arr part = none ∧ ∃ held, build path part = .ok held

theorem build_of_value {item : Written Json} {held : Json} (tidy : Tidy item)
    (accepted : value .obj .arr item = some held) : build path item = .ok held :=
  toOption_some.mp ((build_toOption item tidy).trans accepted)

mutual

theorem untidy_part (path : String) (item : Written Json) (untidy : ¬ Tidy item) : ∃ part, Leads part item ∧ Slips path part := by
  cases item with
  | scalar => exact absurd trivial untidy
  | array items =>
    rw [Tidy] at untidy
    obtain ⟨before, item, part, later, rfl, leads, refused, held, built⟩ := untidyItems_part path items untidy
    refine ⟨_, .item before later leads, ?_, .arr held, ?_⟩
    · rw [value, refused]
      rfl
    · rw [build, built]
      rfl
  | inline entries =>
    rw [Tidy] at untidy
    obtain ⟨before, key, item, part, later, rfl, leads, refused, members, built⟩ :=
      untidyEntries_part path [] entries untidy
    refine ⟨_, .entry before key later leads, ?_, .obj members, ?_⟩
    · rw [value, refused]
      rfl
    · have built : buildEntries path [] (before ++ [(key, part)]) = .ok members := built
      rw [build, built]
      rfl

theorem untidyItems_part (path : String) (items : List (Written Json)) (untidy : ¬ TidyItems items) :
    ∃ before item part later, items = before ++ item :: later ∧ Leads part item ∧
      values .obj .arr (before ++ [part]) = none ∧ ∃ held, buildItems path (before ++ [part]) = .ok held := by
  cases items with
  | nil => exact absurd trivial untidy
  | cons item rest =>
    rw [TidyItems] at untidy
    by_cases tidy : Tidy item
    · have ⟨accepted, later⟩ : value .obj .arr item ≠ none ∧ ¬ TidyItems rest := by
        by_contra both
        exact untidy ⟨tidy, fun accepted => by_contra fun never => both ⟨accepted, never⟩⟩
      obtain ⟨held, accepted⟩ := Option.ne_none_iff_exists'.mp accepted
      obtain ⟨before, item', part, after, rfl, leads, refused, rest, built⟩ := untidyItems_part path rest later
      refine ⟨item :: before, item', part, after, rfl, leads, ?_, held :: rest, ?_⟩
      · rw [List.cons_append, values, accepted, refused]
        rfl
      · rw [List.cons_append, buildItems, build_of_value tidy accepted, built]
        rfl
    · obtain ⟨part, leads, refused, held, built⟩ := untidy_part path item tidy
      refine ⟨[], item, part, rest, rfl, leads, ?_, [held], ?_⟩
      · rw [List.nil_append, values, refused]
        rfl
      · rw [List.nil_append, buildItems, built]
        rfl

theorem untidyEntries_part (path : String) (members : Members Json) (entries : Entries) (untidy : ¬ TidyEntries members entries) :
    ∃ before key item part later, entries = before ++ (key, item) :: later ∧ Leads part item ∧
      entriesIn .obj .arr members (before ++ [(key, part)]) = none ∧
      ∃ after, buildEntries path (erase members) (before ++ [(key, part)]) = .ok after := by
  cases entries with
  | nil => exact absurd trivial untidy
  | cons entry rest =>
    obtain ⟨key, item⟩ := entry
    rw [TidyEntries] at untidy
    by_cases placed : MisplacedEntry members key
    · obtain ⟨part, held, leads, accepted, built⟩ := accepted_part path item
      obtain ⟨after, put⟩ := (putObject_iff path held key (erase members)).mpr placed.2
      have refused : dotted held key members = none := (dotted_none held .null key members).mpr placed.1
      refine ⟨[], key, item, part, rest, rfl, leads, ?_, after, ?_⟩
      · rw [List.nil_append, entriesIn, accepted, Option.bind_some, refused]
        rfl
      · rw [List.nil_append, buildEntries, built]
        simp only [bind, Except.bind, put, buildEntries]
    · by_cases inner : dotted .null key members ≠ none → Tidy item
      · have ⟨held, changed, accepted, went, later⟩ : ∃ held changed, value .obj .arr item = some held ∧
            dotted held key members = some changed ∧ ¬ TidyEntries changed rest := by
          by_contra none
          exact untidy ⟨placed, inner, fun held changed accepted went =>
            by_contra fun never => none ⟨held, changed, accepted, went, never⟩⟩
        have possible : dotted .null key members ≠ none := by
          intro never
          rw [(dotted_none held .null key members).mpr never] at went
          cases went
        obtain ⟨before, key', item', part, after, rfl, leads, refused, built⟩ :=
          untidyEntries_part path changed rest later
        refine ⟨(key, item) :: before, key', item', part, after, rfl, leads, ?_, ?_⟩
        · rw [List.cons_append, entriesIn, accepted, Option.bind_some, went]
          exact refused
        · rw [List.cons_append, buildEntries, build_of_value (inner possible) accepted]
          simp only [bind, Except.bind, putObject_of_dotted went]
          exact built
      · have ⟨possible, untidy⟩ : dotted .null key members ≠ none ∧ ¬ Tidy item := by
          by_contra both
          exact inner fun possible => by_contra fun never => both ⟨possible, never⟩
        obtain ⟨part, leads, refused, held, built⟩ := untidy_part path item untidy
        have possible : dotted held key members ≠ none := fun never =>
          possible ((dotted_none held .null key members).mp never)
        obtain ⟨changed, went⟩ := Option.ne_none_iff_exists'.mp possible
        refine ⟨[], key, item, part, rest, rfl, leads, ?_, erase changed, ?_⟩
        · rw [List.nil_append, entriesIn, refused]
          rfl
        · rw [List.nil_append, buildEntries, built]
          simp only [bind, Except.bind, putObject_of_dotted went, buildEntries]

end

/-- The parser takes the sequence and the rules refuse it, or the other way round. -/
def Differs (path : String) (s : State Json) (tables : List String) (part : List (Definition Json)) : Prop :=
  (buildDocument path (documentOf s tables) part).toOption.isSome ≠ (run .obj .arr s part).isSome

theorem buildDocument_singleton (d : Document) (definition : Definition Json) :
    buildDocument path d [definition] = buildDefinition path d definition := by
  rw [buildDocument]
  cases buildDefinition path d definition <;> rfl

theorem run_singleton (s : State Json) (definition : Definition Json) :
    run .obj .arr s [definition] = define .obj .arr s definition := by
  rw [run]
  cases define .obj .arr s definition <;> rfl

theorem differs_refused {s : State Json} {tables : List String} {definition : Definition Json} {d : Document}
    (refused : define .obj .arr s definition = none)
    (built : buildDefinition path (documentOf s tables) definition = .ok d) : Differs path s tables [definition] := by
  rw [Differs, buildDocument_singleton, run_singleton, refused, built]
  simp [Except.toOption]

theorem LeadsTo.cons {part whole : List (Definition Json)} (definition : Definition Json) (leads : LeadsTo part whole) :
    LeadsTo (definition :: part) (definition :: whole) := by
  cases leads with
  | cut _ later => exact .cut (definition :: part) later
  | inside before key later leads => exact .inside (definition :: before) key later leads

theorem misplaced_table {s : State Json} {tables parts : List String} (misplaced : Misplaced s tables (.table parts)) :
    Differs path s tables [.table parts] := by
  rw [Misplaced] at misplaced
  by_cases again : tablePathText parts ∈ tables
  · rw [if_pos again] at misplaced
    obtain ⟨changed, allowed⟩ := Option.ne_none_iff_exists'.mp misplaced
    have refused : buildDefinition path (documentOf s tables) (.table parts) =
        fail path ("table declared more than once: " ++ tablePathText parts) := if_pos again
    rw [Differs, buildDocument_singleton, run_singleton, refused, define, allowed]
    simp [Except.toOption, fail]
  · rw [if_neg again] at misplaced
    obtain ⟨refused, reaches⟩ := misplaced
    obtain ⟨root, went⟩ := (ensurePath_iff path parts (erase s.members)).mpr reaches
    have built : buildDefinition path (documentOf s tables) (.table parts) =
        .ok ⟨root, parts, tables ++ [tablePathText parts]⟩ := by
      rw [buildDefinition, declareTable, if_neg (show tablePathText parts ∉ (documentOf s tables).tables from again)]
      show (ensurePath path (erase s.members) parts >>= _) = _
      rw [went]
      rfl
    refine differs_refused ?_ built
    rw [define, refused]
    rfl

theorem misplaced_tables {s : State Json} {tables parts : List String}
    (misplaced : Misplaced s tables (.tables parts)) : Differs path s tables [.tables parts] := by
  obtain ⟨refused, reaches⟩ := misplaced
  obtain ⟨root, went⟩ := (appendPath_iff path (.obj []) parts (erase s.members)).mpr reaches
  have built : buildDefinition path (documentOf s tables) (.tables parts) = .ok ⟨root, parts, tables⟩ := by
    show (putPath path (erase s.members) parts (.obj []) true >>= _) = _
    rw [went]
    rfl
  refine differs_refused ?_ built
  rw [define, refused]
  rfl

theorem misplaced_entry {s : State Json} {tables key : List String} {item part : Written Json} {held : Json}
    (misplaced : Misplaced s tables (.entry key item)) (built : build path part = .ok held) :
    Differs path s tables [.entry key part] := by
  obtain ⟨refused, reaches⟩ := misplaced
  obtain ⟨root, went⟩ := (putPath_iff path held (s.current ++ key) (erase s.members)).mpr reaches
  have built : buildDefinition path (documentOf s tables) (.entry key part) = .ok ⟨root, s.current, tables⟩ := by
    rw [buildDefinition, built]
    show (putPath path (erase s.members) (s.current ++ key) held false >>= _) = _
    rw [went]
    rfl
  refine differs_refused ?_ built
  rw [define]
  cases value .obj .arr part with
  | none => rfl
  | some other =>
    rw [Option.bind_some, (assigned_none other .null ..).mpr refused]
    rfl

theorem slipping_entry {s : State Json} {tables key : List String} {part : Written Json} (slips : Slips path part)
    (possible : assigned .null s.current key s.members ≠ none) : Differs path s tables [.entry key part] := by
  obtain ⟨refused, held, built⟩ := slips
  have possible : assigned held s.current key s.members ≠ none :=
    fun never => possible ((assigned_none held .null ..).mp never)
  obtain ⟨changed, allowed⟩ := Option.ne_none_iff_exists'.mp possible
  have built : buildDefinition path (documentOf s tables) (.entry key part) = .ok ⟨erase changed, s.current, tables⟩ := by
    rw [buildDefinition, built]
    show (putPath path (erase s.members) (s.current ++ key) held false >>= _) = _
    rw [putPath_of_assigned allowed]
    rfl
  refine differs_refused ?_ built
  rw [define, refused]
  rfl

theorem unsound_part (path : String) {definitions : List (Definition Json)} {s : State Json} {tables : List String}
    (unsound : ¬ Sound s tables definitions) : ∃ part, LeadsTo part definitions ∧ Differs path s tables part := by
  induction definitions generalizing s tables with
  | nil => exact absurd trivial unsound
  | cons definition rest ih =>
    by_cases placed : Misplaced s tables definition
    · cases definition with
      | table parts => exact ⟨_, .cut [.table parts] rest, misplaced_table placed⟩
      | tables parts => exact ⟨_, .cut [.tables parts] rest, misplaced_tables placed⟩
      | entry key item =>
        obtain ⟨part, held, leads, _, built⟩ := accepted_part path item
        exact ⟨_, .inside [] key rest leads, misplaced_entry placed built⟩
    · by_cases tidy : TidyIn s definition
      · obtain ⟨s', step, later⟩ : ∃ s', define .obj .arr s definition = some s' ∧
            ¬ Sound s' (declared tables definition) rest := by
          by_contra none
          exact unsound ⟨placed, tidy, fun s' step => by_contra fun never => none ⟨s', step, never⟩⟩
        obtain ⟨part, leads, differs⟩ := ih later
        refine ⟨definition :: part, leads.cons definition, ?_⟩
        have built := (buildDefinition_toOption path placed tidy).trans (congrArg _ step)
        rw [Differs, run, step, buildDocument, toOption_some.mp built]
        exact differs
      · cases definition with
        | table => exact absurd trivial tidy
        | tables => exact absurd trivial tidy
        | entry key item =>
          obtain ⟨possible, untidy⟩ : assigned .null s.current key s.members ≠ none ∧ ¬ Tidy item := by
            by_contra both
            exact tidy fun possible => by_contra fun never => both ⟨possible, never⟩
          obtain ⟨part, leads, slips⟩ := untidy_part path item untidy
          exact ⟨_, .inside [] key rest leads, slipping_entry slips possible⟩

end

/-- The parser makes of a sequence of definitions what TOML assigns to it, or both refuse it. -/
def Agrees (path : String) (written : List (Definition Json)) : Prop :=
  ∀ value, (∃ d, buildDocument path .empty written = .ok d ∧ value = .obj d.root) ↔
    document .obj .arr written = some value

theorem agrees_iff {path : String} {written : List (Definition Json)} :
    Agrees path written ↔ (buildDocument path (documentOf ⟨[], []⟩ []) written).toOption.map Document.root =
      (run .obj .arr ⟨[], []⟩ written).map fun s => erase s.members := by
  have start : documentOf ⟨[], []⟩ [] = .empty := rfl
  unfold Agrees document
  rw [start]
  cases built : buildDocument path .empty written with
  | error =>
    cases went : run .obj .arr ⟨[], []⟩ written with
    | none => simp [Except.toOption]
    | some s => simp [Except.toOption]
  | ok d =>
    cases went : run .obj .arr ⟨[], []⟩ written with
    | none => simp [Except.toOption]
    | some s => simp [Except.toOption, eq_comm]

theorem Differs.disagrees {path : String} {part : List (Definition Json)} (differs : Differs path ⟨[], []⟩ [] part) :
    ¬ Agrees path part := by
  intro agrees
  have same := congrArg Option.isSome (agrees_iff.mp agrees)
  rw [Option.isSome_map, Option.isSome_map] at same
  exact differs same

theorem agrees_of_sound (path : String) {written : List (Definition Json)} (sound : Sound ⟨[], []⟩ [] written) :
    Agrees path written := agrees_iff.mpr (buildDocument_toOption sound)

/-- Two elements of an array of tables, each with a sub-table of the same name. -/
def twoElements : List (Definition Json) := [.tables ["a"], .table ["a", "b"], .tables ["a"], .table ["a", "b"]]

theorem two_elements_read (parse : String → Option Json) :
    definitions parse "[[a]]\n[a.b]\n[[a]]\n[a.b]\n" "" = .ok twoElements := by
  with_unfolding_all rfl

example : (buildDocument "" .empty [.table ["a", "b"], .table ["a.b"]]).toOption.isSome = false := by decide +kernel

example : document Json.obj Json.arr [.entry ["a"] (.array [.scalar .null]), .tables ["a"]] = none := rfl

example : (buildDocument "" .empty [.entry ["a"] (.array [.scalar .null]), .tables ["a"]]).toOption.isSome = true := by
  decide +kernel

end Fala.Toml
