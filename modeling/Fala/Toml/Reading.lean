import Fala.Toml.Rules

namespace Fala.Toml

open Schema (bind_ok)
open TomlRules (Written Definition)

abbrev Entries := List (List String × Written Json)

/-- A text as it is written: nothing is refused for the place it has. -/
def written : Builder (Written Json) Entries (List (Definition Json)) where
  scalar := .scalar
  array := .array
  table := .inline
  empty := []
  put entries key value := .ok (entries ++ [(key, value)])
  header definitions parts := .ok (definitions ++ [.table parts])
  arrayHeader definitions parts := .ok (definitions ++ [.tables parts])
  assign definitions key value := .ok (definitions ++ [.entry key value])

/-- The sequence of definitions that a text is. -/
def definitions (parse : String → Option Json) (text path : String) : Except String (List (Definition Json)) :=
  parseStatements written parse path [] text.toList

section

variable (path : String)

mutual

/-- What the parser makes of a written value. -/
def build : Written Json → Except String Json
  | .scalar value => .ok value
  | .array items => do return .arr (← buildItems items)
  | .inline entries => do return .obj (← buildEntries [] entries)

def buildItems : List (Written Json) → Except String (List Json)
  | [] => .ok []
  | item :: rest => do
    let first ← build item
    let later ← buildItems rest
    return first :: later

def buildEntries (members : Object) : Entries → Except String Object
  | [] => .ok members
  | (key, item) :: rest => do
    let value ← build item
    let members ← putObject path members key value
    buildEntries members rest

end

def buildDefinition (d : Document) : Definition Json → Except String Document
  | .table parts => declareTable path d parts
  | .tables parts => declareArray path d parts
  | .entry key item => do
    let value ← build path item
    assignKey path d key value

def buildDocument (d : Document) : List (Definition Json) → Except String Document
  | [] => .ok d
  | definition :: rest => do
    let d ← buildDefinition path d definition
    buildDocument d rest

end

section

variable {path : String}

theorem buildItems_concat (items : List (Written Json)) (item : Written Json) :
    buildItems path (items ++ [item]) = (do
      let values ← buildItems path items
      let value ← build path item
      return values ++ [value]) := by
  induction items with
  | nil =>
    cases first : build path item <;>
      simp [buildItems, first, bind, Except.bind, pure, Except.pure]
  | cons head rest ih =>
    rw [List.cons_append, buildItems, ih, buildItems]
    cases build path head with
    | error => rfl
    | ok =>
      cases buildItems path rest with
      | error => rfl
      | ok => cases build path item <;> rfl

theorem buildEntries_concat (entries : Entries) (members : Object) (key : List String) (item : Written Json) :
    buildEntries path members (entries ++ [(key, item)]) = (do
      let members ← buildEntries path members entries
      let value ← build path item
      putObject path members key value) := by
  induction entries generalizing members with
  | nil =>
    cases first : build path item with
    | error => simp [buildEntries, first, bind, Except.bind]
    | ok value =>
      cases grown : putObject path members key value <;>
        simp [buildEntries, first, grown, bind, Except.bind]
  | cons head rest ih =>
    rw [List.cons_append, buildEntries, buildEntries]
    cases build path head.2 with
    | error => rfl
    | ok value =>
      cases grown : putObject path members head.1 value with
      | error => simp [grown, bind, Except.bind]
      | ok => simpa [grown, bind, Except.bind] using ih _

theorem buildDocument_concat (d : Document) (definitions : List (Definition Json)) (definition : Definition Json) :
    buildDocument path d (definitions ++ [definition]) = (do
      let d ← buildDocument path d definitions
      buildDefinition path d definition) := by
  induction definitions generalizing d with
  | nil => cases step : buildDefinition path d definition <;> simp [buildDocument, step, bind, Except.bind]
  | cons head rest ih =>
    rw [List.cons_append, buildDocument, buildDocument]
    cases buildDefinition path d head with
    | error => rfl
    | ok => exact ih _

end

/-! A text is built as it is read: where one of the two goes on, so does the other, unless what has been
read so far cannot be built. -/

section

variable (path : String)

def Frame.built : Frame (Written Json) Entries → Option (Frame Json Object)
  | .array phase items => (buildItems path items).toOption.map (.array phase)
  | .table phase entries pending afterComma =>
    (buildEntries path [] entries).toOption.map fun members => .table phase members pending afterComma

def framesBuilt : List (Frame (Written Json) Entries) → Option (List (Frame Json Object))
  | [] => some []
  | top :: outer => (top.built path).bind fun top => (framesBuilt outer).map fun outer => top :: outer

def Progress.built : Progress (Written Json) Entries → Option (Progress Json Object)
  | .more rest frames => (framesBuilt path frames).map (.more rest)
  | .done item rest => (build path item).toOption.map (.done · rest)

end

section

variable {parse : String → Option Json} {path : String}

theorem toOption_bind {α β : Type} (x : Except String α) (f : α → Except String β) :
    (x >>= f).toOption = x.toOption.bind fun a => (f a).toOption := by
  cases x <;> rfl

theorem toOption_some {α : Type} {x : Except String α} {a : α} : x.toOption = some a ↔ x = .ok a := by
  cases x <;> simp [Except.toOption]

theorem toOption_map {α β : Type} (x : Except String α) (f : α → β) :
    (x >>= fun a => pure (f a)).toOption = x.toOption.map f := by
  cases x <;> rfl

variable (path) in
theorem take_built (frame : Frame (Written Json) Entries) (resets : Bool) (item : Written Json) :
    ∃ taken, frame.take written resets item = .ok taken ∧
      taken.built path = (frame.built path).bind fun built => (build path item).toOption.bind fun value =>
        (built.take (coded path) resets value).toOption := by
  cases frame with
  | array phase items =>
    refine ⟨_, rfl, ?_⟩
    simp only [Frame.built, buildItems_concat]
    cases buildItems path items with
    | error => rfl
    | ok values => cases build path item <;> rfl
  | table phase entries pending afterComma =>
    refine ⟨_, rfl, ?_⟩
    simp only [Frame.built, buildEntries_concat]
    cases buildEntries path [] entries with
    | error => rfl
    | ok members =>
      cases build path item with
      | error => rfl
      | ok value =>
        show (putObject path members pending value).toOption.map _ = _
        simp only [Except.toOption, Option.map, Option.bind_some, Frame.take, coded]
        cases putObject path members pending value <;> rfl

variable (path) in
theorem deliver_built (resets : Bool) (item : Written Json) (rest : Text)
    (outer : List (Frame (Written Json) Entries)) :
    ∃ next, deliver written resets item rest outer = .ok next ∧
      next.built path = (framesBuilt path outer).bind fun built => (build path item).toOption.bind fun value =>
        (deliver (coded path) resets value rest built).toOption := by
  cases outer with
  | nil =>
    refine ⟨_, rfl, ?_⟩
    simp only [framesBuilt, Progress.built, Option.bind_some]
    cases build path item <;> rfl
  | cons parent outer =>
    obtain ⟨taken, took, same⟩ := take_built path parent resets item
    refine ⟨.more rest (taken :: outer), by rw [deliver, took]; rfl, ?_⟩
    simp only [Progress.built, framesBuilt, same]
    cases parent.built path with
    | none => rfl
    | some top =>
      cases framesBuilt path outer with
      | none => cases build path item <;> simp
      | some built =>
        cases build path item with
        | error => rfl
        | ok value =>
          simp only [Option.bind_some, Option.map_some, Except.toOption, deliver]
          cases top.take (coded path) resets value <;> rfl

theorem itemStep_built (text : Text) (outer : List (Frame (Written Json) Entries))
    (top : Frame (Written Json) Entries) :
    ((itemStep written parse path text outer top).toOption.bind fun next => next.built path) =
      (top.built path).bind fun top => (framesBuilt path outer).bind fun outer =>
        (itemStep (coded path) parse path text outer top).toOption := by
  cases top with
  | array phase items =>
    simp only [itemStep, Frame.built]
    split
    · rename_i rest _
      obtain ⟨next, went, same⟩ := deliver_built path true (.array items) rest outer
      rw [show written.array items = .array items from rfl, went]
      simp only [Except.toOption, Option.bind_some, same, build]
      cases buildItems path items with
      | error => cases framesBuilt path outer <;> rfl
      | ok values =>
        cases framesBuilt path outer with
        | none => rfl
        | some built => rfl
    · simp only [Except.toOption, Option.bind_some, Progress.built, framesBuilt, Frame.built]
      cases buildItems path items with
      | error => rfl
      | ok values =>
        cases framesBuilt path outer with
        | none => rfl
        | some built => rfl
  | table phase entries pending afterComma =>
    simp only [itemStep, Frame.built]
    split
    · cases framesBuilt path outer <;> cases buildEntries path [] entries <;> rfl
    · cases framesBuilt path outer <;> cases buildEntries path [] entries <;> rfl
    · cases framesBuilt path outer <;> cases buildEntries path [] entries <;> rfl
    · rename_i rest _
      by_cases trailing : afterComma = true
      · simp only [trailing, if_true]
        cases framesBuilt path outer <;> cases buildEntries path [] entries <;> rfl
      · obtain ⟨next, went, same⟩ := deliver_built path true (.inline entries) rest outer
        simp only [trailing, Bool.false_eq_true, if_false]
        rw [show written.table entries = .inline entries from rfl, went]
        simp only [Except.toOption, Option.bind_some, same, build]
        cases buildEntries path [] entries with
        | error => cases framesBuilt path outer <;> rfl
        | ok members => cases framesBuilt path outer <;> rfl
    · cases parseAssigned parse path (skipSpaces text) with
      | error => cases framesBuilt path outer <;> cases buildEntries path [] entries <;> rfl
      | ok read =>
        show (Progress.more read.2 (.table .value entries read.1 false :: outer)).built path = _
        simp only [Progress.built, framesBuilt, Frame.built]
        cases buildEntries path [] entries with
        | error => rfl
        | ok members => cases framesBuilt path outer <;> rfl

theorem valueStep_built (text : Text) (outer : List (Frame (Written Json) Entries))
    (top : Frame (Written Json) Entries) :
    ((valueStep written parse path text outer top).toOption.bind fun next => next.built path) =
      (top.built path).bind fun top => (framesBuilt path outer).bind fun outer =>
        (valueStep (coded path) parse path text outer top).toOption := by
  simp only [valueStep]
  split
  · rename_i rest _
    simp only [Except.toOption, Option.bind_some, Progress.built, framesBuilt]
    cases top.built path with
    | none => rfl
    | some => cases framesBuilt path outer <;> rfl
  · rename_i rest _
    simp only [Except.toOption, Option.bind_some, Progress.built, framesBuilt]
    cases top.built path with
    | none => rfl
    | some => cases framesBuilt path outer <;> rfl
  · cases scalar : parseScalarValue parse path (skipSpaces text) with
    | error =>
      cases top.built path with
      | none => rfl
      | some => cases framesBuilt path outer <;> rfl
    | ok read =>
      obtain ⟨next, went, same⟩ := deliver_built path true (.scalar read.1) read.2 (top :: outer)
      show (deliver written true (.scalar read.1) read.2 (top :: outer)).toOption.bind _ = _
      rw [went]
      simp only [Except.toOption, Option.bind_some, same, build, framesBuilt]
      cases top.built path with
      | none => rfl
      | some => cases framesBuilt path outer <;> rfl

theorem delimiterStep_built (text : Text) (outer : List (Frame (Written Json) Entries))
    (top : Frame (Written Json) Entries) :
    ((delimiterStep written path text outer top).toOption.bind fun next => next.built path) =
      (top.built path).bind fun top => (framesBuilt path outer).bind fun outer =>
        (delimiterStep (coded path) path text outer top).toOption := by
  cases top with
  | array phase items =>
    simp only [delimiterStep, Frame.built]
    split
    · simp only [Except.toOption, Option.bind_some, Progress.built, framesBuilt, Frame.built]
      cases buildItems path items with
      | error => rfl
      | ok values => cases framesBuilt path outer <;> rfl
    · rename_i rest _
      obtain ⟨next, went, same⟩ := deliver_built path false (.array items) rest outer
      rw [show written.array items = .array items from rfl, went]
      simp only [Except.toOption, Option.bind_some, same, build]
      cases buildItems path items with
      | error => cases framesBuilt path outer <;> rfl
      | ok values => cases framesBuilt path outer <;> rfl
    · cases framesBuilt path outer <;> cases buildItems path items <;> rfl
  | table phase entries pending afterComma =>
    simp only [delimiterStep, Frame.built]
    split
    · simp only [Except.toOption, Option.bind_some, Progress.built, framesBuilt, Frame.built]
      cases buildEntries path [] entries with
      | error => rfl
      | ok members => cases framesBuilt path outer <;> rfl
    · rename_i rest _
      obtain ⟨next, went, same⟩ := deliver_built path false (.inline entries) rest outer
      rw [show written.table entries = .inline entries from rfl, went]
      simp only [Except.toOption, Option.bind_some, same, build]
      cases buildEntries path [] entries with
      | error => cases framesBuilt path outer <;> rfl
      | ok members => cases framesBuilt path outer <;> rfl
    · cases framesBuilt path outer <;> cases buildEntries path [] entries <;> rfl

theorem step_built (text : Text) (frames : List (Frame (Written Json) Entries)) :
    ((step written parse path text frames).toOption.bind fun next => next.built path) =
      (framesBuilt path frames).bind fun frames => (step (coded path) parse path text frames).toOption := by
  cases frames with
  | nil => rfl
  | cons top outer =>
    have phase : ∀ built, top.built path = some built → built.phase = top.phase := by
      intro built same
      cases top <;>
        · simp only [Frame.built, Option.map_eq_some_iff] at same
          obtain ⟨_, _, rfl⟩ := same
          rfl
    have rounds : ∀ {b : Frame (Written Json) Entries → Except String (Progress (Written Json) Entries)}
        {c : List (Frame Json Object) → Frame Json Object → Except String (Progress Json Object)},
        ((b top).toOption.bind fun next => next.built path) =
          ((top.built path).bind fun top => (framesBuilt path outer).bind fun outer => (c outer top).toOption) →
        (∀ built fr, built.phase = top.phase → step (coded path) parse path text (built :: fr) = c fr built) →
        ((b top).toOption.bind fun next => next.built path) =
          (framesBuilt path (top :: outer)).bind fun frames =>
            (step (coded path) parse path text frames).toOption := by
      intro b c same reads
      rw [same, framesBuilt]
      cases built : top.built path with
      | none => rfl
      | some built' =>
        cases framesBuilt path outer with
        | none => rfl
        | some fr => exact (congrArg Except.toOption (reads built' fr (phase built' built))).symm
    simp only [step]
    cases here : top.phase with
    | item =>
      refine rounds (itemStep_built text outer top) fun built fr same => ?_
      rw [step, same, here]
    | value =>
      refine rounds (valueStep_built text outer top) fun built fr same => ?_
      rw [step, same, here]
    | delimiter =>
      refine rounds (delimiterStep_built text outer top) fun built fr same => ?_
      rw [step, same, here]

/-- Where the loop ends up after a round. -/
def finished {V T R : Type} (b : Builder V T R) (parse : String → Option Json) (path : String) :
    Progress V T → Option (V × Text)
  | .done value rest => some (value, rest)
  | .more rest frames => (loop b parse path rest frames).toOption

theorem loop_toOption {V T R : Type} (b : Builder V T R) (text : Text) (frames : List (Frame V T)) :
    (loop b parse path text frames).toOption =
      (step b parse path text frames).toOption.bind (finished b parse path) := by
  rw [loop]
  split
  · rename_i went
    rw [went]
    rfl
  · rename_i went
    rw [went]
    rfl
  · rename_i went
    rw [went]
    rfl

theorem loop_round (text : Text) (frames : List (Frame (Written Json) Entries)) :
    ((framesBuilt path frames).bind fun frames => (loop (coded path) parse path text frames).toOption) =
      ((step written parse path text frames).toOption.bind fun next => next.built path).bind
        (finished (coded path) parse path) := by
  rw [step_built, Option.bind_assoc]
  congr 1
  funext frames
  exact loop_toOption (coded path) text frames

theorem loop_built (text : Text) (frames : List (Frame (Written Json) Entries)) :
    ((loop written parse path text frames).toOption.bind fun read =>
        (build path read.1).toOption.map fun value => (value, read.2)) =
      (framesBuilt path frames).bind fun frames => (loop (coded path) parse path text frames).toOption := by
  fun_induction loop written parse path text frames with
  | case1 text frames message went =>
    rw [loop_round, went]
    rfl
  | case2 text frames item rest went =>
    rw [loop_round, went]
    show (build path item).toOption.map _ = ((build path item).toOption.map _).bind _
    cases build path item <;> rfl
  | case3 text frames rest frames' went ih =>
    rw [loop_round, went, ih]
    show _ = ((framesBuilt path frames').map _).bind _
    cases framesBuilt path frames' <;> rfl

variable (path parse) in
theorem parseValue_built (text : Text) :
    ((parseValue written parse path text).toOption.bind fun read =>
        (build path read.1).toOption.map fun value => (value, read.2)) =
      (parseValue (coded path) parse path text).toOption := by
  simp only [parseValue]
  split
  · exact loop_built _ [.array .item []]
  · exact loop_built _ [.table .item [] [] false]
  · cases parseScalarValue parse path (skipSpaces text) <;> rfl

/-- A document under way that can be built, and what is built of it. -/
def documentBuilt (path : String) (definitions : List (Definition Json)) : Option Document :=
  (buildDocument path .empty definitions).toOption

theorem documentBuilt_concat (definitions : List (Definition Json)) (definition : Definition Json) :
    documentBuilt path (definitions ++ [definition]) = (documentBuilt path definitions).bind fun document =>
      (buildDefinition path document definition).toOption := by
  rw [documentBuilt, buildDocument_concat, toOption_bind]
  rfl

theorem parseHeader_built (definitions : List (Definition Json)) (text : Text) :
    ((parseHeader written parse path definitions text).toOption.bind fun read =>
        (documentBuilt path read.1).map fun document => (document, read.2)) =
      (documentBuilt path definitions).bind fun document =>
        (parseHeader (coded path) parse path document text).toOption := by
  simp only [parseHeader]
  split
  · cases headerLine parse path "]]" (text.drop 2) with
    | error => cases documentBuilt path definitions <;> rfl
    | ok read =>
      show (documentBuilt path (definitions ++ [.tables read.1])).map _ = _
      rw [documentBuilt_concat]
      cases documentBuilt path definitions with
      | none => rfl
      | some document =>
        have same : (coded path).arrayHeader = declareArray path := rfl
        simp only [Option.bind_some, buildDefinition, same, bind, Except.bind]
        cases declareArray path document read.1 <;> rfl
  · cases expect path "[" text with
    | error => cases documentBuilt path definitions <;> rfl
    | ok rest =>
      cases line : headerLine parse path "]" rest with
      | error =>
        cases documentBuilt path definitions with
        | none => simp [line, Except.toOption, bind, Except.bind]
        | some => simp [line, Except.toOption, bind, Except.bind]
      | ok read =>
        simp only [line, bind, Except.bind]
        show (documentBuilt path (definitions ++ [.table read.1])).map _ = _
        rw [documentBuilt_concat]
        cases documentBuilt path definitions with
        | none => rfl
        | some document =>
          have same : (coded path).header = declareTable path := rfl
          simp only [Option.bind_some, buildDefinition, same]
          cases declareTable path document read.1 <;> rfl

theorem parseAssignment_built (definitions : List (Definition Json)) (text : Text) :
    ((parseAssignment written parse path definitions text).toOption.bind fun read =>
        (documentBuilt path read.1).map fun document => (document, read.2)) =
      (documentBuilt path definitions).bind fun document =>
        (parseAssignment (coded path) parse path document text).toOption := by
  simp only [parseAssignment]
  cases parseAssigned parse path text with
  | error => cases documentBuilt path definitions <;> rfl
  | ok key =>
    have value := parseValue_built parse path key.2
    simp only [bind, Except.bind]
    cases found : parseValue written parse path key.2 with
    | error =>
      rw [found] at value
      cases coding : parseValue (coded path) parse path key.2 with
      | error => cases documentBuilt path definitions <;> rfl
      | ok => rw [coding] at value; cases value
    | ok read =>
      rw [found] at value
      change ((build path read.1).toOption.map fun value => (value, read.2)) = _ at value
      have entered : written.assign definitions key.1 read.1 = .ok (definitions ++ [.entry key.1 read.1]) := rfl
      have same : (coded path).assign = assignKey path := rfl
      simp only [entered, same]
      cases built : build path read.1 with
      | error =>
        rw [built] at value
        cases coding : parseValue (coded path) parse path key.2 with
        | ok => rw [coding] at value; cases value
        | error =>
          cases finishStatement path read.2 with
          | error => cases documentBuilt path definitions <;> rfl
          | ok rest =>
            show (documentBuilt path (definitions ++ [.entry key.1 read.1])).map _ = _
            rw [documentBuilt_concat]
            cases documentBuilt path definitions with
            | none => rfl
            | some document =>
              simp only [Option.bind_some, buildDefinition, built]
              rfl
      | ok v =>
        rw [built] at value
        cases coding : parseValue (coded path) parse path key.2 with
        | error => rw [coding] at value; cases value
        | ok coded =>
          rw [coding] at value
          cases value
          dsimp only
          cases finishStatement path read.2 with
          | error =>
            cases documentBuilt path definitions with
            | none => rfl
            | some document =>
              simp only [Option.bind_some]
              cases assignKey path document key.1 v <;> rfl
          | ok rest =>
            show (documentBuilt path (definitions ++ [.entry key.1 read.1])).map _ = _
            rw [documentBuilt_concat]
            cases documentBuilt path definitions with
            | none => rfl
            | some document =>
              simp only [Option.bind_some, buildDefinition, built, bind, Except.bind]
              cases assignKey path document key.1 v <;> rfl

theorem parseStatement_built (definitions : List (Definition Json)) (text : Text) :
    ((parseStatement written parse path definitions text).toOption.bind fun read =>
        (documentBuilt path read.1).map fun document => (document, read.2)) =
      (documentBuilt path definitions).bind fun document =>
        (parseStatement (coded path) parse path document text).toOption := by
  simp only [parseStatement]
  split
  · exact parseHeader_built definitions text
  · exact parseAssignment_built definitions text

theorem parseStatements_toOption {V T R : Type} (b : Builder V T R) (root : R) (text : Text) :
    (parseStatements b parse path root text).toOption =
      if skipBlankLines text = [] then some root
      else (parseStatement b parse path root (skipBlankLines text)).toOption.bind fun read =>
        (parseStatements b parse path read.1 read.2).toOption := by
  rw [parseStatements]
  split
  · rename_i left
    rw [if_pos left]
    rfl
  · rename_i c rest left
    rw [if_neg (by rw [left]; exact List.cons_ne_nil _ _), left]
    split
    · rename_i read
      rw [read]
      rfl
    · rename_i read
      rw [read]
      rfl

theorem parseStatements_round (definitions : List (Definition Json)) (text : Text) :
    ((documentBuilt path definitions).bind fun document =>
        (parseStatements (coded path) parse path document text).toOption) =
      if skipBlankLines text = [] then documentBuilt path definitions
      else ((parseStatement written parse path definitions (skipBlankLines text)).toOption.bind fun read =>
        (documentBuilt path read.1).map fun document => (document, read.2)).bind fun read =>
          (parseStatements (coded path) parse path read.1 read.2).toOption := by
  rw [parseStatement_built, Option.bind_assoc]
  cases documentBuilt path definitions with
  | none => simp
  | some document =>
    rw [Option.bind_some, Option.bind_some, parseStatements_toOption]

variable (path parse) in
theorem parseStatements_built (definitions : List (Definition Json)) (text : Text) :
    ((parseStatements written parse path definitions text).toOption.bind (documentBuilt path)) =
      (documentBuilt path definitions).bind fun document =>
        (parseStatements (coded path) parse path document text).toOption := by
  fun_induction parseStatements written parse path definitions text with
  | case1 definitions text left =>
    rw [parseStatements_round, if_pos left]
    rfl
  | case2 definitions text c rest left message read =>
    rw [parseStatements_round, left, if_neg (List.cons_ne_nil _ _), read]
    rfl
  | case3 definitions text c rest left definitions' rest' read ih =>
    rw [parseStatements_round, left, if_neg (List.cons_ne_nil _ _), read, ih]
    show _ = ((documentBuilt path definitions').map _).bind _
    cases documentBuilt path definitions' <;> rfl

theorem parseTomlValue_built (parse : String → Option Json) (text path : String) (value : Json) :
    parseTomlValue parse text path = .ok value ↔
      ∃ written d, definitions parse text path = .ok written ∧ buildDocument path .empty written = .ok d ∧
        value = .obj d.root := by
  have same := parseStatements_built parse path [] text.toList
  have start : documentBuilt path [] = some .empty := rfl
  rw [start, Option.bind_some] at same
  simp only [parseTomlValue, bind_ok, pure, Except.pure, Except.ok.injEq]
  constructor
  · rintro ⟨d, parsed, rfl⟩
    rw [parsed] at same
    cases found : parseStatements written parse path [] text.toList with
    | error => rw [found] at same; cases same
    | ok definitions =>
      rw [found] at same
      exact ⟨definitions, d, found, toOption_some.mp same, rfl⟩
  · rintro ⟨definitions, d, found, built, rfl⟩
    have found : parseStatements written parse path [] text.toList = .ok definitions := found
    rw [found] at same
    have parsed : (parseStatements (coded path) parse path .empty text.toList).toOption = some d :=
      same.symm.trans (toOption_some.mpr built)
    exact ⟨d, toOption_some.mp parsed, rfl⟩

end

end Fala.Toml
