import Fala.Package.Templates

/-! The expansion of a template as one substitution in its texts. -/

namespace Fala.Package
open Json Schema Correlation Replacing Substitution

/-! What an expansion stands for. -/

/-- A value of the type that a parameter is declared with. -/
inductive Fits : Json → Json → Prop
  | string (text : String) : Fits (.str "string") (.str text)
  | integer (n : Int) : Fits (.str "integer") (.int n)
  | unsigned (n : Nat) : Fits (.str "integer") (.uint n)
  | number {value : Json} (isNumber : value.isNumber = true) : Fits (.str "number") value
  | boolean (b : Bool) : Fits (.str "boolean") (.bool b)

/-- An item gives every declared parameter a value of its type, and nothing else. -/
structure Supplies (declared : List (String × Json)) (item : Json) (supplied : List (String × Json)) : Prop where
  is : item = .obj supplied
  known : ∀ m ∈ supplied, m.1 ∈ declared.map Prod.fst
  fits : ∀ d ∈ declared, ∃ value, lookup d.1 supplied = some value ∧ Fits d.2 value

/-- A template as the loader lets it through, of effectors with the last one named. -/
structure IsTemplate (lib : Json.Library) (declared : List (String × Json)) (source : List Json) : Prop where
  named : ∀ d ∈ declared, isRuntimeId d.1 = true
  distinct : (declared.map Prod.fst).Nodup
  parsed : lib.Parsed (.arr source)
  nonempty : source ≠ []
  objects : ∀ effector ∈ source, ∃ members, effector = .obj members
  identified : ∃ last id, source.getLast? = some last ∧ last.member "id" = some (.str id)

/-- The items of an expansion, within its bound, and whether it is serial. -/
structure IsExpansion (expansion : Json) (items : List Json) (serial : Bool) : Prop where
  listed : expansion.member "items" = some (.arr items)
  bounded : ∃ maximum : Nat, items.length ≤ maximum ∧
    (expansion.member "max_items" = some (.int maximum) ∨ expansion.member "max_items" = some (.uint maximum))
  flagged : expansion.member "serial" = some (.bool serial) ∨
    (serial = false ∧ (expansion.member "serial" = none ∨ expansion.member "serial" = some .null))

section Specification

variable (print : Json → String)

/-- The text that a value is put in with. -/
def valueText : Json → String
  | .str text => text
  | value => print value

def suppliedBy : Json → List (String × Json)
  | .obj members => members
  | _ => []

/-- What each placeholder stands for. -/
def tableOf (declared supplied : List (String × Json)) : List (List Char × List Char) :=
  declared.map fun d => ((placeholder d.1).toList, (valueText print ((lookup d.1 supplied).getD .null)).toList)

/-- The effectors of an item: every placeholder in a text of the template is replaced in one pass. -/
def instanceOf (declared : List (String × Json)) (source : List Json) (item : Json) : List Json :=
  mapTextsItems (substituteIn (tableOf print declared (suppliedBy item))) (canonicalItems source)

end Specification

/-- The id of the last effector. -/
def tailId (group : List Json) : String :=
  match group.getLast?.bind (member "id") with
  | some (.str id) => id
  | _ => ""

/-- An effector without dependencies of its own depends on exactly the one given. -/
def dependsOn (tail : String) (effector : Json) : Json :=
  match effector with
  | .obj members =>
    if optionalMember effector "conduction" = .null then .obj (setMember "conduction" (.arr [.str tail]) members)
    else effector
  | _ => effector

/-- The groups of a serial expansion, each linked to the last effector of the one before it. -/
def linkedAfter (serial : Bool) : Option (List Json) → List (List Json) → List (List Json)
  | _, [] => []
  | none, group :: rest => group :: linkedAfter serial (some group) rest
  | some previous, group :: rest =>
    (if serial then group.map (dependsOn (tailId previous)) else group) :: linkedAfter serial (some group) rest

def expected (serial : Bool) (groups : List (List Json)) : List Json := (linkedAfter serial none groups).flatten

/-- In whatever order the parameters are declared, the expansion of the items is one substitution for each of them. -/
def Simultaneous (lib : Json.Library) (declared : List (String × Json)) (source items : List Json) (serial : Bool)
    (expansion : Json) (path : String) : Prop :=
  ∀ template reordered, declared.Perm reordered → template.member "parameters" = some (.obj reordered) →
    template.member "effectors" = some (.arr source) →
    templateEffectors lib.print lib.read template expansion path =
      .ok (.arr (expected serial (items.map (instanceOf lib.print declared source))))

/-! The placeholders. -/

section Placeholders

variable {lib : Json.Library} {declared supplied : List (String × Json)}

theorem placeholder_toList (name : String) : (placeholder name).toList = '$' :: '\x7b' :: (name.toList ++ ['\x7d']) := by
  simp [placeholder]

theorem placeholder_inj {a b : String} (same : (placeholder a).toList = (placeholder b).toList) : a = b := by
  simp only [placeholder_toList, List.cons.injEq, true_and] at same
  exact String.toList_inj.mp (List.append_cancel_right same)

theorem isRuntimeId_plain {name : String} (named : isRuntimeId name = true) : ∀ c ∈ name.toList, isPlain c = true := by
  intro c listed
  unfold isRuntimeId at named
  split at named
  · cases named
  · rename_i first rest is
    simp only [Bool.and_eq_true, List.all_eq_true] at named
    rw [is, List.mem_cons] at listed
    rcases listed with rfl | later
    · have alpha := named.1.2
      simp only [isIdFirst] at alpha
      simp [isPlain, Char.isAlphanum, alpha]
    · have plain := named.2 c later
      simp only [isIdRest, Bool.or_eq_true, decide_eq_true_eq, List.mem_cons, List.not_mem_nil, or_false] at plain
      simp only [isPlain, Bool.or_eq_true, decide_eq_true_eq, List.mem_cons, List.not_mem_nil, or_false]
      rcases plain with alphanum | under | dot | dash
      · exact .inl alphanum
      · exact .inr (.inl under)
      · exact .inr (.inr (.inl dot))
      · exact .inr (.inr (.inr (.inl dash)))

theorem isPlain_not {c d : Char} (plain : isPlain c = true) (other : isPlain d = false) : c ≠ d := by
  rintro rfl
  rw [plain] at other
  cases other

theorem closed_of_begins {brace : Char} {a b : List Char} (free : brace ∉ b)
    (begins : a ++ [brace] <+: b ++ [brace]) : a = b := by
  have longest := begins.length_le
  simp only [List.length_append, List.length_cons, List.length_nil] at longest
  by_cases short : a.length < b.length
  · have whole : a ++ [brace] <+: b := by
      apply List.prefix_of_prefix_length_le begins (List.prefix_append _ _)
      simp only [List.length_append, List.length_cons, List.length_nil]
      omega
    exact absurd (whole.subset (List.mem_append_right _ List.mem_cons_self)) free
  · have same := begins.eq_of_length (by simp only [List.length_append, List.length_cons, List.length_nil]; omega)
    exact List.append_cancel_right same

theorem findable_tableOf (named : ∀ d ∈ declared, isRuntimeId d.1 = true) :
    Findable lib.escape (tableOf lib.print declared supplied) where
  proper :=
    { apart := by decide
      opens := by
        intro e listed
        have ⟨d, among, same⟩ := List.mem_map.mp listed
        refine ⟨d.1.toList ++ ['\x7d'], ?_, ?_⟩
        · rw [← same, placeholder_toList]
        · rw [List.mem_append, not_or]
          refine ⟨fun inside => ?_, by decide⟩
          exact isPlain_not (isRuntimeId_plain (named d among) _ inside) (by decide) rfl
      free := by
        intro e listed e' listed' begins
        have ⟨d, among, same⟩ := List.mem_map.mp listed
        have ⟨d', among', same'⟩ := List.mem_map.mp listed'
        subst same same'
        simp only [placeholder_toList, List.cons_prefix_cons, true_and] at begins ⊢
        have free : '\x7d' ∉ d'.1.toList := fun inside =>
          isPlain_not (isRuntimeId_plain (named d' among') _ inside) (by decide) rfl
        rw [closed_of_begins free begins] }
  plain := by
    intro e listed c inside
    have ⟨d, among, same⟩ := List.mem_map.mp listed
    subst same
    simp only [placeholder_toList, List.mem_cons, List.mem_append, List.not_mem_nil, or_false] at inside
    rcases inside with rfl | rfl | name | rfl
    · exact ⟨lib.plain _ (by decide), by decide, by decide⟩
    · exact ⟨lib.plain _ (by decide), by decide, by decide⟩
    · have plain := isRuntimeId_plain (named d among) c name
      exact ⟨lib.plain _ (.inl plain), isPlain_not plain (by decide), isPlain_not plain (by decide)⟩
    · exact ⟨lib.plain _ (by decide), by decide, by decide⟩

theorem instanceOf_perm {reordered : List (String × Json)} (named : ∀ d ∈ declared, isRuntimeId d.1 = true)
    (distinct : (declared.map Prod.fst).Nodup) (same : declared.Perm reordered) (source : List Json) (item : Json) :
    instanceOf lib.print reordered source item = instanceOf lib.print declared source item := by
  have words : ((tableOf lib.print declared (suppliedBy item)).map Prod.fst).Nodup := by
    rw [tableOf, List.map_map]
    have apart := List.Nodup.map (fun _ _ => placeholder_inj) distinct
    rwa [List.map_map] at apart
  have proper := (@findable_tableOf lib declared (suppliedBy item) named).proper
  have tables : (tableOf lib.print declared (suppliedBy item)).Perm (tableOf lib.print reordered (suppliedBy item)) :=
    same.map _
  have inside : substituteIn (tableOf lib.print reordered (suppliedBy item)) =
      substituteIn (tableOf lib.print declared (suppliedBy item)) := by
    funext text
    rw [substituteIn, substitute_perm proper words tables, substituteIn]
  rw [instanceOf, inside, instanceOf]

theorem Supplies.perm {reordered : List (String × Json)} {item : Json} (supplies : Supplies declared item supplied)
    (same : declared.Perm reordered) : Supplies reordered item supplied where
  is := supplies.is
  known m listed := (same.map Prod.fst).mem_iff.mp (supplies.known m listed)
  fits d listed := supplies.fits d (same.mem_iff.mpr listed)

theorem IsTemplate.perm {reordered : List (String × Json)} {source : List Json} (template : IsTemplate lib declared source)
    (same : declared.Perm reordered) : IsTemplate lib reordered source :=
  { template with
    named := fun d listed => template.named d (same.mem_iff.mpr listed)
    distinct := (same.map Prod.fst).nodup_iff.mp template.distinct }

end Placeholders

/-! The rendering of one item. -/

section Render

variable {lib : Json.Library} {declared supplied : List (String × Json)} {source : List Json} {item : Json}
  {path itemPath : String}

theorem checkKeys_ok {allowed : List String} {message : String} {members : List (String × Json)} {u : Unit} :
    checkKeys allowed path message members = .ok u ↔ ∀ m ∈ members, m.1 ∈ allowed := by
  induction members with
  | nil => simp [checkKeys]
  | cons m rest ih => simp [checkKeys, ensure_bind_ok, ih]

theorem parameterText_spelled {kind value : Json} (fits : Fits kind value) (path : String) :
    ∃ name text, kind = .str name ∧ parameterText lib.print value name path = .ok text ∧
      text.toList = (valueText lib.print value).toList.flatMap lib.escape := by
  have leaf (value : Json) : (lib.scalar value).flatMap lib.escape = lib.scalar value :=
    flatMap_plain fun c listed => lib.plain c (.inl (lib.leaf value c listed))
  cases fits with
  | string text =>
    refine ⟨"string", _, rfl, rfl, ?_⟩
    rw [String.toList_ofList, lib.printed, write, writeText, List.drop_succ_cons, List.drop_zero, List.dropLast_concat]
    rfl
  | integer n =>
    refine ⟨"integer", _, rfl, rfl, ?_⟩
    rw [valueText, lib.printed, write, leaf, lib.int]
    · simp
    all_goals simp
  | unsigned n =>
    refine ⟨"integer", _, rfl, rfl, ?_⟩
    rw [valueText, lib.printed, write, leaf, lib.uint]
    all_goals simp
  | number isNumber =>
    refine ⟨"number", _, rfl, if_pos isNumber, ?_⟩
    cases value with
    | int | uint | float =>
      rw [valueText, lib.printed, write, leaf]
      all_goals simp
    | _ => cases isNumber
  | boolean b =>
    refine ⟨"boolean", _, rfl, rfl, ?_⟩
    rw [valueText, lib.printed, write, leaf, lib.bool]
    all_goals simp

/-- The words of a table put in one after another. -/
def inTurnIn (table : List (List Char × List Char)) (text : String) : String := String.ofList (inTurn table text.toList)

theorem replaceAllIn_print {name replacement value : String} (named : isRuntimeId name = true)
    (same : replacement.toList = value.toList.flatMap lib.escape) (tree : Json) :
    replaceAllIn (lib.print tree) (placeholder name) replacement =
      lib.print (mapTexts (substituteIn [((placeholder name).toList, value.toList)]) tree) := by
  have one : ∀ d ∈ [(name, Json.str "string")], isRuntimeId d.1 = true := by
    rw [List.forall_mem_singleton]
    exact named
  have single : tableOf lib.print [(name, .str "string")] [(name, .str value)] =
      [((placeholder name).toList, value.toList)] := by
    simp [tableOf, lookup, valueText]
  have findable := @findable_tableOf lib _ [(name, .str value)] one
  rw [single] at findable
  rw [← Library.substitute_print findable, replaceAllIn, same]
  exact congrArg String.ofList (substitute_single _).symm

theorem replaceParameters_print (named : ∀ d ∈ declared, isRuntimeId d.1 = true)
    (fits : ∀ d ∈ declared, ∃ value, lookup d.1 supplied = some value ∧ Fits d.2 value) (tree : Json) :
    replaceParameters lib.print path itemPath supplied declared (lib.print tree) =
      .ok (lib.print (mapTexts (inTurnIn (tableOf lib.print declared supplied)) tree)) := by
  induction declared generalizing tree with
  | nil =>
    have same : inTurnIn (tableOf lib.print [] supplied) = id := by
      funext text
      exact String.ofList_toList
    rw [replaceParameters, same, mapTexts_id]
  | cons d rest ih =>
    rw [List.forall_mem_cons] at named fits
    have ⟨⟨value, found, fit⟩, later⟩ := fits
    have ⟨kind, text, is, given, spelledAs⟩ := @parameterText_spelled lib _ _ fit (itemPath ++ "/" ++ pointerToken d.1)
    have put := replaceAllIn_print named.1 spelledAs tree
    have next := ih named.2 later (mapTexts (substituteIn [((placeholder d.1).toList, (valueText lib.print value).toList)]) tree)
    have composed : inTurnIn (tableOf lib.print rest supplied) ∘
        substituteIn [((placeholder d.1).toList, (valueText lib.print value).toList)] =
          inTurnIn (tableOf lib.print (d :: rest) supplied) := by
      funext text
      simp only [Function.comp_apply, inTurnIn, substituteIn, substitute_single, String.toList_ofList, tableOf, List.map_cons,
        inTurn_cons, found, Option.getD_some]
    rw [mapTexts_mapTexts, composed, ← put] at next
    rw [← next, replaceParameters]
    simp only [found, Option.isSome_some, Option.getD_some, is, stringAt, ensure, if_true, bind, Except.bind, pure,
      Except.pure, given]

theorem occurs_opening {text : String} : occurs "$\x7b" text = true ↔ opening <:+: text.toList := by
  have same : "$\x7b".toList = opening := by decide
  rw [occurs, decide_eq_true_iff, same]

/-- What an item is rendered to before the check for what is left undeclared. -/
def treeOf (lib : Json.Library) (declared supplied : List (String × Json)) (source : List Json) : List Json :=
  mapTextsItems (inTurnIn (tableOf lib.print declared supplied)) (canonicalItems source)

theorem treeOf_known (known : ∀ leaf ∈ (Json.arr source).leaves, lib.Known leaf) :
    ∀ leaf ∈ (Json.arr (treeOf lib declared supplied source)).leaves, lib.Known leaf := by
  intro leaf listed
  rw [leaves, treeOf, leavesItems_mapTexts] at listed
  exact known leaf (mem_leavesItems_canonical source listed)

theorem renderItem_tree (template : IsTemplate lib declared source) (supplies : Supplies declared item supplied) :
    renderItem lib.print lib.read declared (.arr source) path itemPath item =
      (do
        ensure (!occurs "$\x7b" (lib.print (.arr (treeOf lib declared supplied source))))
          (located "manifest.value" itemPath "template contains an undeclared parameter")
        let value ← lib.read (lib.print (.arr (treeOf lib declared supplied source)))
        arrayAt value itemPath "expanded effectors must be an array") := by
  have known : checkKeys (declared.map Prod.fst) itemPath "unknown parameter" supplied = .ok () :=
    checkKeys_ok.mpr supplies.known
  have authored : canonicalText lib.print lib.read (lib.print (.arr source)) = .ok (lib.print (Json.arr source).canonical) := by
    rw [canonicalText, lib.reads _ template.parsed.1 template.parsed.2]
    rfl
  have replaced := @replaceParameters_print lib declared supplied path itemPath template.named supplies.fits
    (Json.arr source).canonical
  have is : mapTexts (inTurnIn (tableOf lib.print declared supplied)) (Json.arr source).canonical =
      .arr (treeOf lib declared supplied source) := rfl
  rw [is] at replaced
  rw [renderItem, supplies.is]
  simp only [objectAt, known, authored, replaced, bind, Except.bind]

theorem renderItem_closed (template : IsTemplate lib declared source) (supplies : Supplies declared item supplied)
    {effectors : List Json} (rendered : renderItem lib.print lib.read declared (.arr source) path itemPath item = .ok effectors) :
    (∀ leaf ∈ leavesItems effectors, lib.Known leaf) ∧ ∀ text ∈ textsItems effectors, ¬ opening <:+: text.toList := by
  rw [renderItem_tree template supplies, ensure_bind_ok, bind_ok] at rendered
  have ⟨closed, value, read, array⟩ := rendered
  have is : value = .arr effectors := by
    cases value with
    | arr items =>
      cases array
      rfl
    | _ => cases array
  subst is
  refine ⟨(lib.sound read).1, fun text listed inside => ?_⟩
  have among := lib.faithful (treeOf_known template.parsed.1) read listed
  have left := occurs_opening.mpr ((@Library.opening_print lib _).mpr ⟨text, among, inside⟩)
  rw [left] at closed
  cases closed

/-- The instance of an item has nothing in it that looks like a placeholder, and no object with a key twice. -/
def Clean (effectors : List Json) : Prop :=
  ∀ effector ∈ effectors, effector.keysDistinct = true ∧ ∀ text ∈ effector.texts, ¬ opening <:+: text.toList

theorem instanceOf_known (template : IsTemplate lib declared source) (item : Json) :
    ∀ leaf ∈ leavesItems (instanceOf lib.print declared source item), lib.Known leaf := by
  intro leaf listed
  rw [instanceOf, leavesItems_mapTexts] at listed
  exact template.parsed.1 leaf (mem_leavesItems_canonical source listed)

theorem renderItem_clean (template : IsTemplate lib declared source) (supplies : Supplies declared item supplied)
    (clean : Clean (instanceOf lib.print declared source item)) :
    renderItem lib.print lib.read declared (.arr source) path itemPath item =
      .ok (instanceOf lib.print declared source item) := by
  have given : suppliedBy item = supplied := by rw [supplies.is, suppliedBy]
  have findable := @findable_tableOf lib declared supplied template.named
  have closed : ∀ text ∈ textsItems (instanceOf lib.print declared source item), ¬ opening <:+: text.toList := by
    intro text listed
    rw [textsItems_eq, List.mem_flatMap] at listed
    obtain ⟨effector, among, inside⟩ := listed
    exact (clean effector among).2 text inside
  have same : treeOf lib declared supplied source = instanceOf lib.print declared source item := by
    rw [treeOf, instanceOf, given]
    apply mapTextsItems_congr
    intro text listed
    have after : substituteIn (tableOf lib.print declared supplied) text ∈
        textsItems (instanceOf lib.print declared source item) := by
      rw [instanceOf, given, textsItems_mapTexts]
      exact List.mem_map_of_mem listed
    have clear := closed _ after
    rw [substituteIn, String.toList_ofList] at clear
    rw [inTurnIn, inTurn_eq findable.proper clear, substituteIn]
  have distinct : (Json.arr (instanceOf lib.print declared source item)).keysDistinct = true :=
    keysDistinctItems_iff.mpr fun effector among => (clean effector among).1
  have quiet : occurs "$\x7b" (lib.print (.arr (instanceOf lib.print declared source item))) = false := by
    rw [← Bool.not_eq_true, occurs_opening, Library.opening_print]
    rintro ⟨text, listed, inside⟩
    exact closed text listed inside
  rw [renderItem_tree template supplies, same, quiet,
    lib.reads (.arr (instanceOf lib.print declared source item)) (instanceOf_known template item) distinct]
  rfl

end Render

/-! The links between the items. -/

section Links

variable {lib : Json.Library} {tail itemPath : String} {effector : Json} {group : List Json}

theorem lookup_setMember (key name : String) (value : Json) (members : List (String × Json)) :
    lookup key (setMember name value members) = if name = key then some value else lookup key members := by
  induction members with
  | nil => rfl
  | cons m rest ih =>
    by_cases here : m.1 = name
    · rw [setMember, if_pos here, lookup, lookup, here]
      by_cases same : name = key
      · rw [if_pos same, if_pos same]
      · rw [if_neg same, if_neg same, if_neg same]
    · rw [setMember, if_neg here, lookup, lookup, ih]
      by_cases same : m.1 = key
      · have other : name ≠ key := fun also => here (same.trans also.symm)
        rw [if_pos same, if_neg other, if_pos same]
      · rw [if_neg same, if_neg same]

theorem names_setMember (name : String) (value : Json) (members : List (String × Json)) :
    (setMember name value members).map Prod.fst =
      members.map Prod.fst ++ (if name ∈ members.map Prod.fst then [] else [name]) := by
  induction members with
  | nil => rfl
  | cons m rest ih =>
    by_cases here : m.1 = name
    · rw [setMember, if_pos here, List.map_cons, List.map_cons, here, if_pos List.mem_cons_self, List.append_nil]
    · have same : name ∈ (m :: rest).map Prod.fst ↔ name ∈ rest.map Prod.fst := by
        rw [List.map_cons, List.mem_cons, or_iff_right (Ne.symm here)]
      simp only [setMember, if_neg here, same]
      rw [List.map_cons, List.map_cons, ih, List.cons_append]

theorem mem_setMember {name : String} {value : Json} {members : List (String × Json)} {m : String × Json}
    (listed : m ∈ setMember name value members) : m = (name, value) ∨ m ∈ members := by
  induction members with
  | nil => exact .inl (List.mem_singleton.mp listed)
  | cons head rest ih =>
    by_cases here : head.1 = name
    · rw [setMember, if_pos here, List.mem_cons] at listed
      exact listed.imp_right (List.mem_cons_of_mem _)
    · rw [setMember, if_neg here, List.mem_cons] at listed
      rcases listed with rfl | later
      · exact .inr List.mem_cons_self
      · exact (ih later).imp_right (List.mem_cons_of_mem _)

theorem kept_setMember {name : String} {value : Json} {members : List (String × Json)} {m : String × Json}
    (listed : m ∈ members) : m ∈ setMember name value members ∨ lookup name members = some m.2 ∧ m.1 = name := by
  induction members with
  | nil => cases listed
  | cons head rest ih =>
    rw [List.mem_cons] at listed
    by_cases here : head.1 = name
    · rw [setMember, if_pos here, lookup, if_pos here, List.mem_cons]
      rcases listed with rfl | later
      · exact .inr ⟨rfl, here⟩
      · exact .inl (.inr later)
    · rw [setMember, if_neg here, lookup, if_neg here, List.mem_cons]
      rcases listed with rfl | later
      · exact .inl (.inl rfl)
      · exact (ih later).imp_left .inr

theorem dependsOn_obj (tail : String) (members : List (String × Json)) : dependsOn tail (.obj members) =
    if optionalMember (.obj members) "conduction" = .null then .obj (setMember "conduction" (.arr [.str tail]) members)
    else .obj members := rfl

theorem member_dependsOn {key : String} (other : key ≠ "conduction") (effector : Json) :
    (dependsOn tail effector).member key = effector.member key := by
  cases effector with
  | obj members =>
    rw [dependsOn_obj]
    by_cases absent : optionalMember (.obj members) "conduction" = .null
    · rw [if_pos absent, member, lookup_setMember, if_neg (Ne.symm other), member]
    · rw [if_neg absent]
  | _ => rfl

theorem joined_toList (items : List Json) :
    (joined (items.map lib.print)).toList = writeItems lib.scalar lib.escape items := by
  induction items with
  | nil => rfl
  | cons item rest ih =>
    have empty : rest.map lib.print = [] ↔ rest = [] := List.map_eq_nil_iff
    rw [List.map_cons, joined, String.toList_append, String.toList_append, ih, lib.printed, writeItems]
    by_cases last : rest = []
    · simp [last]
    · simp [last, empty]

theorem print_arr (items : List Json) : "[" ++ joined (items.map lib.print) ++ "]" = lib.print (.arr items) := by
  apply Library.print_inj
  rw [String.toList_append, String.toList_append, joined_toList, write]
  rfl

theorem read_single (text : String) : lib.read ("[" ++ lib.print (.str text) ++ "]") = .ok (.arr [.str text]) := by
  have one := @print_arr lib [.str text]
  have same : joined ([.str text].map lib.print) = lib.print (.str text) := by simp [joined]
  rw [same] at one
  rw [one]
  apply lib.reads
  · simp [leaves, leavesItems]
  · rfl

theorem linkEffector_ok (linked : Bool) (object : ∃ members, effector = .obj members) :
    linkEffector lib.print lib.read linked tail effector = .ok (if linked then dependsOn tail effector else effector) := by
  have ⟨members, is⟩ := object
  subst is
  rw [linkEffector, dependsOn_obj]
  cases linked with
  | false => rfl
  | true =>
    by_cases absent : optionalMember (.obj members) "conduction" = .null
    · rw [if_pos ⟨rfl, absent⟩, if_pos absent, read_single]
      rfl
    · rw [if_neg fun both => absent both.2, if_neg absent]
      rfl

theorem tailId_cons (some : group ≠ []) : tailId (effector :: group) = tailId group := by
  rw [tailId, List.getLast?_cons_of_ne_nil some, tailId]

theorem linkEffectors_ok (linked : Bool) (some : group ≠ []) (objects : ∀ effector ∈ group, ∃ members, effector = .obj members)
    (identified : ∃ last id, group.getLast? = .some last ∧ last.member "id" = .some (.str id)) :
    linkEffectors lib.print lib.read linked tail itemPath group =
      .ok (if linked then group.map (dependsOn tail) else group, tailId group) := by
  induction group with
  | nil => exact absurd rfl some
  | cons effector rest ih =>
    rw [List.forall_mem_cons] at objects
    have step := @linkEffector_ok lib tail _ linked objects.1
    have ⟨last, id, is, named⟩ := identified
    rw [linkEffectors, step]
    by_cases single : rest = []
    · subst single
      cases is
      have kept : (if linked then dependsOn tail effector else effector).member "id" = .some (.str id) := by
        cases linked with
        | true => exact (member_dependsOn (by decide) effector).trans named
        | false => exact named
      have first : effector.member "id" = .some (.str id) := named
      have tailed : tailId [effector] = id := by simp [tailId, first]
      have found : requiredNonnull (if linked then dependsOn tail effector else effector) "id" itemPath = .ok (.str id) := by
        rw [requiredNonnull, required, kept]
        rfl
      simp only [bind, Except.bind, if_true, found, stringAt, tailed, pure, Except.pure]
      cases linked <;> rfl
    · rw [List.getLast?_cons_of_ne_nil single] at is
      have later := ih single objects.2 ⟨last, id, is, named⟩
      simp only [bind, Except.bind, if_neg single, later, pure, Except.pure, tailId_cons single]
      cases linked <;> rfl

theorem distinct_of_dependsOn (distinct : (dependsOn tail effector).keysDistinct = true) :
    effector.keysDistinct = true := by
  cases effector with
  | obj members =>
    rw [dependsOn_obj] at distinct
    by_cases absent : optionalMember (.obj members) "conduction" = .null
    · rw [if_pos absent, keysDistinct_obj, names_setMember] at distinct
      rw [keysDistinct_obj]
      refine ⟨(List.nodup_append.mp distinct.1).1, fun m listed => ?_⟩
      rcases kept_setMember listed with kept | ⟨found, _⟩
      · exact distinct.2 m kept
      · rw [optionalMember, member, found, Option.getD_some] at absent
        rw [absent]
        rfl
    · rwa [if_neg absent] at distinct
  | _ => exact distinct

theorem texts_dependsOn {text : String} (listed : text ∈ effector.texts) : text ∈ (dependsOn tail effector).texts := by
  cases effector with
  | obj members =>
    rw [dependsOn_obj]
    by_cases absent : optionalMember (.obj members) "conduction" = .null
    · rw [if_pos absent]
      rw [texts, textsMembers_eq, List.mem_flatMap] at listed ⊢
      have ⟨m, among, inside⟩ := listed
      rcases kept_setMember among with kept | ⟨found, named⟩
      · exact ⟨m, kept, inside⟩
      · rw [optionalMember, member, found, Option.getD_some] at absent
        rw [absent, named] at inside
        have same := List.mem_singleton.mp inside
        refine ⟨("conduction", .arr [.str tail]), ?_, same ▸ List.mem_cons_self⟩
        apply lookup_mem
        rw [lookup_setMember, if_pos rfl]
    · rwa [if_neg absent]
  | _ => exact listed

theorem distinct_dependsOn (distinct : effector.keysDistinct = true) : (dependsOn tail effector).keysDistinct = true := by
  cases effector with
  | obj members =>
    rw [dependsOn_obj]
    by_cases absent : optionalMember (.obj members) "conduction" = .null
    · rw [if_pos absent]
      rw [keysDistinct_obj] at distinct ⊢
      refine ⟨?_, fun m listed => ?_⟩
      · rw [names_setMember]
        by_cases held : "conduction" ∈ members.map Prod.fst
        · rw [if_pos held, List.append_nil]
          exact distinct.1
        · rw [if_neg held, List.nodup_append]
          refine ⟨distinct.1, List.nodup_singleton _, fun name among other last => ?_⟩
          rw [List.mem_singleton.mp last]
          rintro rfl
          exact held among
      · rcases mem_setMember listed with rfl | among
        · rfl
        · exact distinct.2 m among
    · rwa [if_neg absent]
  | _ => exact distinct

theorem leaves_dependsOn {leaf : Json} (listed : leaf ∈ (dependsOn tail effector).leaves) : leaf ∈ effector.leaves := by
  cases effector with
  | obj members =>
    rw [dependsOn_obj] at listed
    by_cases absent : optionalMember (.obj members) "conduction" = .null
    · rw [if_pos absent] at listed
      rw [leaves, leavesMembers_eq, List.mem_flatMap] at listed ⊢
      have ⟨m, among, inside⟩ := listed
      rcases mem_setMember among with rfl | held
      · cases inside
      · exact ⟨m, held, inside⟩
    · rwa [if_neg absent] at listed
  | _ => exact listed

end Links

end Fala.Package
