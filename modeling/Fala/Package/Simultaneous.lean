import Fala.Json.Reading
import Fala.Package.Expansion

/-! When the expansion of a template is one simultaneous substitution. -/

namespace Fala.Package
open Json Schema Correlation Replacing Substitution

variable {lib : Json.Library} {declared : List (String × Json)} {source items : List Json} {serial : Bool}
  {expansion : Json} {path : String}

/-! The instances are named as the template is. -/

section Instances

variable {f : String → String}

theorem mapTextsMembers_eq {members : List (String × Json)} :
    mapTextsMembers f members = members.map fun m => (f m.1, mapTexts f m.2) := by
  induction members with
  | nil => rfl
  | cons m rest ih => rw [mapTextsMembers, ih, List.map_cons]

theorem canonicalItems_eq (items : List Json) : canonicalItems items = items.map canonical := by
  induction items with
  | nil => rfl
  | cons item rest ih => rw [canonicalItems, ih, List.map_cons]

theorem instanceOf_eq (item : Json) : instanceOf lib.print declared source item =
    source.map fun effector => mapTexts (substituteIn (tableOf lib.print declared (suppliedBy item))) effector.canonical := by
  rw [instanceOf, mapTextsItems_eq, canonicalItems_eq, List.map_map]
  rfl

theorem instanceOf_nonempty (template : IsTemplate lib declared source) (item : Json) :
    instanceOf lib.print declared source item ≠ [] := by
  rw [instanceOf_eq, ne_eq, List.map_eq_nil_iff]
  exact template.nonempty

theorem instanceOf_objects (template : IsTemplate lib declared source) (item : Json) :
    ∀ effector ∈ instanceOf lib.print declared source item, ∃ members, effector = .obj members := by
  intro effector listed
  rw [instanceOf_eq, List.mem_map] at listed
  have ⟨authored, among, is⟩ := listed
  have ⟨members, object⟩ := template.objects authored among
  subst is object
  exact ⟨_, rfl⟩

theorem member_id {members : List (String × Json)} {id : String} (named : lookup "id" members = some (.str id))
    (kept : f "id" = "id") (distinct : (mapTexts f (Json.obj members).canonical).keysDistinct = true) :
    (mapTexts f (Json.obj members).canonical).member "id" = some (.str (f id)) := by
  rw [canonical, mapTexts] at distinct ⊢
  rw [member, lookup_iff (keysDistinct_obj.mp distinct).1, mapTextsMembers_eq, List.mem_map]
  refine ⟨("id", .str id), ?_, by rw [kept, mapTexts]⟩
  apply lookup_mem
  rw [lookup_sortMembers, lookup_canonicalMembers, named]
  rfl

theorem instanceOf_identified (template : IsTemplate lib declared source) {item : Json}
    (clean : Clean (instanceOf lib.print declared source item)) :
    ∃ last id, (instanceOf lib.print declared source item).getLast? = some last ∧ last.member "id" = some (.str id) := by
  have ⟨authored, id, is, named⟩ := template.identified
  have ⟨members, object⟩ := template.objects authored (List.mem_of_getLast? is)
  subst object
  have last : (instanceOf lib.print declared source item).getLast? =
      some (mapTexts (substituteIn (tableOf lib.print declared (suppliedBy item))) (Json.obj members).canonical) := by
    rw [instanceOf_eq, List.getLast?_map, is]
    rfl
  have proper := (@findable_tableOf lib declared (suppliedBy item) template.named).proper
  have kept : substituteIn (tableOf lib.print declared (suppliedBy item)) "id" = "id" := by
    have plain : '$' ∉ "id".toList := by decide
    have passed := @substitute_plain _ _ _ _ _ [] proper _ plain
    rw [List.append_nil, substitute_nil, List.append_nil] at passed
    rw [substituteIn, passed, String.ofList_toList]
  have distinct := (clean _ (List.mem_of_getLast? last)).1
  exact ⟨_, _, last, member_id named kept distinct⟩

end Instances

/-! Clean instances: the expansion gives them, linked. -/

theorem expandItems_clean (template : IsTemplate lib declared source)
    (supplies : ∀ item ∈ items, ∃ supplied, Supplies declared item supplied)
    (clean : ∀ item ∈ items, Clean (instanceOf lib.print declared source item)) {index : Nat} {tail : String}
    {previous : Option (List Json)}
    (state : (index = 0 ∧ previous = none) ∨ (0 < index ∧ ∃ group, previous = some group ∧ tail = tailId group)) :
    expandItems lib.print lib.read declared (.arr source) serial path index tail items =
      .ok (linkedAfter serial previous (items.map (instanceOf lib.print declared source))).flatten := by
  induction items generalizing index tail previous with
  | nil => cases previous <;> rfl
  | cons item rest ih =>
    rw [List.forall_mem_cons] at supplies clean
    have ⟨supplied, given⟩ := supplies.1
    have rendered := @renderItem_clean lib declared supplied source item path (path ++ "/expansion/items/" ++ toString index)
      template given clean.1
    have linked := @linkEffectors_ok lib tail (path ++ "/expansion/items/" ++ toString index) _
      (serial && decide (0 < index)) (instanceOf_nonempty template item) (instanceOf_objects template item)
      (instanceOf_identified template clean.1)
    have later := @ih supplies.2 clean.2 (index + 1) (tailId (instanceOf lib.print declared source item))
      (some (instanceOf lib.print declared source item)) (.inr ⟨by omega, _, rfl, rfl⟩)
    rw [expandItems, rendered]
    simp only [bind, Except.bind, linked, later, pure, Except.pure, List.map_cons]
    rcases state with ⟨zero, none⟩ | ⟨positive, group, some, is⟩
    · subst zero none
      simp [linkedAfter]
    · subst some is
      cases serial <;> simp [linkedAfter, positive]

theorem mem_linkedAfter {previous : Option (List Json)} {groups : List (List Json)} {effector : Json}
    (listed : effector ∈ (linkedAfter serial previous groups).flatten) :
    ∃ group ∈ groups, ∃ authored ∈ group, effector = authored ∨ ∃ tail, effector = dependsOn tail authored := by
  induction groups generalizing previous with
  | nil => cases previous <;> cases listed
  | cons group rest ih =>
    cases previous with
    | none =>
      rw [linkedAfter, List.flatten_cons, List.mem_append] at listed
      rcases listed with here | later
      · exact ⟨group, List.mem_cons_self, effector, here, .inl rfl⟩
      · have ⟨group', among, rest⟩ := ih later
        exact ⟨group', List.mem_cons_of_mem _ among, rest⟩
    | some previous =>
      rw [linkedAfter, List.flatten_cons, List.mem_append] at listed
      rcases listed with here | later
      · cases serial with
        | false => exact ⟨group, List.mem_cons_self, effector, here, .inl rfl⟩
        | true =>
          rw [if_pos rfl, List.mem_map] at here
          have ⟨authored, among, is⟩ := here
          exact ⟨group, List.mem_cons_self, authored, among, .inr ⟨_, is.symm⟩⟩
      · have ⟨group', among, rest⟩ := ih later
        exact ⟨group', List.mem_cons_of_mem _ among, rest⟩

theorem linkedAfter_mem {previous : Option (List Json)} {groups : List (List Json)} {group : List Json} {authored : Json}
    (listed : group ∈ groups) (among : authored ∈ group) :
    ∃ effector ∈ (linkedAfter serial previous groups).flatten,
      effector = authored ∨ ∃ tail, effector = dependsOn tail authored := by
  induction groups generalizing previous with
  | nil => cases listed
  | cons first rest ih =>
    rcases List.mem_cons.mp listed with same | later
    · subst same
      cases previous with
      | none =>
        refine ⟨authored, ?_, .inl rfl⟩
        rw [linkedAfter, List.flatten_cons]
        exact List.mem_append_left _ among
      | some previous =>
        cases serial with
        | false =>
          refine ⟨authored, ?_, .inl rfl⟩
          rw [linkedAfter, List.flatten_cons]
          exact List.mem_append_left _ among
        | true =>
          refine ⟨dependsOn (tailId previous) authored, ?_, .inr ⟨_, rfl⟩⟩
          rw [linkedAfter, List.flatten_cons, if_pos rfl]
          exact List.mem_append_left _ (List.mem_map_of_mem among)
    · have ⟨effector, held, is⟩ := @ih (some first) later
      refine ⟨effector, ?_, is⟩
      cases previous <;> exact List.mem_append_right _ held

theorem templateEffectors_eq (given : IsExpansion expansion items serial) (some : source ≠ []) {template : Json}
    (parameters : template.member "parameters" = .some (.obj declared))
    (effectors : template.member "effectors" = .some (.arr source)) :
    templateEffectors lib.print lib.read template expansion path = (do
      let effectors ← expandItems lib.print lib.read declared (.arr source) serial path 0 "" items
      lib.read ("[" ++ joined (effectors.map lib.print) ++ "]")) := by
  have nonnull {root value : Json} {key path : String} (found : root.member key = .some value) (other : value ≠ .null) :
      requiredNonnull root key path = .ok value := by
    simp only [requiredNonnull, required, found, bind, Except.bind, ensure, decide_eq_true other, if_true, pure, Except.pure]
  have flag : serialFlag expansion path = .ok serial := by
    rcases given.flagged with is | ⟨off, absent | null⟩
    · simp [serialFlag, optionalMember, is]
    · simp [serialFlag, optionalMember, absent, off]
    · simp [serialFlag, optionalMember, null, off]
  have other : Json.arr source ≠ .arr [] := fun same => some (Json.arr.inj same)
  obtain ⟨maximum, bound, is⟩ := given.bounded
  have within : ((items.length : Int) ≤ (maximum : Int)) := by omega
  have counted : ∃ value, expansion.member "max_items" = .some value ∧ value ≠ .null ∧
      ∀ path, integerAt value path = .ok (maximum : Int) := by
    rcases is with int | uint
    · exact ⟨_, int, by simp, fun _ => rfl⟩
    · exact ⟨_, uint, by simp, fun _ => rfl⟩
  obtain ⟨value, found, present, read⟩ := counted
  rw [templateEffectors, nonnull parameters (by simp), nonnull effectors (by simp), nonnull given.listed (by simp),
    nonnull found present]
  simp only [bind, Except.bind, objectAt, arrayAt, read, flag, ensure, isArray, Bool.true_and, decide_eq_true other, if_true,
    decide_eq_true within, decide_eq_true (Int.natCast_nonneg maximum), pure, Except.pure]

theorem templateEffectors_clean (template : IsTemplate lib declared source) (given : IsExpansion expansion items serial)
    (supplies : ∀ item ∈ items, ∃ supplied, Supplies declared item supplied)
    (clean : ∀ item ∈ items, Clean (instanceOf lib.print declared source item)) {value : Json}
    (parameters : value.member "parameters" = some (.obj declared))
    (effectors : value.member "effectors" = some (.arr source)) :
    templateEffectors lib.print lib.read value expansion path =
      .ok (.arr (expected serial (items.map (instanceOf lib.print declared source)))) := by
  have all := @expandItems_clean lib declared source items serial path template supplies clean 0 "" none (.inl ⟨rfl, rfl⟩)
  rw [templateEffectors_eq given template.nonempty parameters effectors, all]
  simp only [bind, Except.bind, print_arr]
  apply lib.reads
  · intro leaf listed
    rw [leaves, leavesItems_eq, List.mem_flatMap] at listed
    have ⟨effector, among, inside⟩ := listed
    have ⟨group, instances, authored, held, is⟩ := mem_linkedAfter among
    have ⟨item, _, same⟩ := List.mem_map.mp instances
    have below : leaf ∈ authored.leaves := by
      rcases is with rfl | ⟨tail, rfl⟩
      · exact inside
      · exact leaves_dependsOn inside
    apply instanceOf_known template item
    rw [same, leavesItems_eq, List.mem_flatMap]
    exact ⟨authored, held, below⟩
  · rw [keysDistinct, keysDistinctItems_iff]
    intro effector among
    have ⟨group, instances, authored, held, is⟩ := mem_linkedAfter among
    have ⟨item, listed, same⟩ := List.mem_map.mp instances
    have distinct := (clean item listed authored (same ▸ held)).1
    rcases is with rfl | ⟨tail, rfl⟩
    · exact distinct
    · exact distinct_dependsOn distinct

/-! No expansion gives a text with a placeholder left in it. -/

/-- An effector that the library knows, without an opening in its texts. -/
def Closed (lib : Json.Library) (effector : Json) : Prop :=
  (∀ leaf ∈ effector.leaves, lib.Known leaf) ∧ ∀ text ∈ effector.texts, ¬ opening <:+: text.toList

theorem linkEffector_closed {linked : Bool} {tail : String} {effector result : Json} (closed : Closed lib effector)
    (clear : ¬ opening <:+: tail.toList) (passed : linkEffector lib.print lib.read linked tail effector = .ok result) :
    Closed lib result := by
  unfold linkEffector at passed
  by_cases links : linked = true ∧ optionalMember effector "conduction" = .null
  · rw [if_pos links] at passed
    cases effector with
    | obj members =>
      simp only [read_single, bind, Except.bind, pure, Except.pure, Except.ok.injEq] at passed
      subst passed
      refine ⟨fun leaf listed => ?_, fun text listed => ?_⟩
      · rw [leaves, leavesMembers_eq, List.mem_flatMap] at listed
        have ⟨m, among, inside⟩ := listed
        rcases mem_setMember among with rfl | held
        · cases inside
        · apply closed.1
          rw [leaves, leavesMembers_eq, List.mem_flatMap]
          exact ⟨m, held, inside⟩
      · rw [texts, textsMembers_eq, List.mem_flatMap] at listed
        have ⟨m, among, inside⟩ := listed
        rcases mem_setMember among with rfl | held
        · rcases List.mem_cons.mp inside with name | text
          · rw [name]
            show ¬ opening <:+: "conduction".toList
            decide
          · rw [List.mem_singleton.mp text]
            exact clear
        · apply closed.2
          rw [texts, textsMembers_eq, List.mem_flatMap]
          exact ⟨m, held, inside⟩
    | _ => cases passed
  · rw [if_neg links] at passed
    cases passed
    exact closed

theorem member_texts {effector : Json} {key text : String} (found : effector.member key = some (.str text)) :
    text ∈ effector.texts := by
  cases effector with
  | obj members =>
    rw [texts, textsMembers_eq, List.mem_flatMap]
    exact ⟨_, lookup_mem found, List.mem_cons_of_mem _ List.mem_cons_self⟩
  | _ => cases found

theorem linkEffectors_closed {linked : Bool} {tail last itemPath : String} {effectors results : List Json}
    (closed : ∀ effector ∈ effectors, Closed lib effector) (clear : ¬ opening <:+: tail.toList)
    (passed : linkEffectors lib.print lib.read linked tail itemPath effectors = .ok (results, last)) :
    (∀ effector ∈ results, Closed lib effector) ∧ ¬ opening <:+: last.toList := by
  induction effectors generalizing results with
  | nil =>
    cases passed
    exact ⟨fun _ none => absurd none List.not_mem_nil, clear⟩
  | cons effector rest ih =>
    rw [List.forall_mem_cons] at closed
    rw [linkEffectors, bind_ok] at passed
    obtain ⟨result, step, passed⟩ := passed
    have here := linkEffector_closed closed.1 clear step
    by_cases single : rest = []
    · rw [if_pos single, bind_ok] at passed
      obtain ⟨id, named, passed⟩ := passed
      rw [bind_ok] at passed
      obtain ⟨name, text, passed⟩ := passed
      cases passed
      have found : result.member "id" = some (.str last) := by
        rw [requiredNonnull_ok named]
        cases id with
        | str => rw [Except.ok.inj text]
        | _ => cases text
      refine ⟨?_, here.2 last (member_texts found)⟩
      rw [List.forall_mem_singleton]
      exact here
    · rw [if_neg single, bind_ok] at passed
      obtain ⟨⟨others, end_⟩, later, passed⟩ := passed
      cases passed
      obtain ⟨all, after⟩ := ih closed.2 later
      rw [List.forall_mem_cons]
      exact ⟨⟨here, all⟩, after⟩

theorem expandItems_closed (template : IsTemplate lib declared source)
    (supplies : ∀ item ∈ items, ∃ supplied, Supplies declared item supplied) {index : Nat} {tail : String}
    {effectors : List Json} (clear : ¬ opening <:+: tail.toList)
    (passed : expandItems lib.print lib.read declared (.arr source) serial path index tail items = .ok effectors) :
    ∀ effector ∈ effectors, Closed lib effector := by
  induction items generalizing index tail effectors with
  | nil =>
    cases passed
    exact fun _ none => absurd none List.not_mem_nil
  | cons item rest ih =>
    rw [List.forall_mem_cons] at supplies
    have ⟨supplied, given⟩ := supplies.1
    rw [expandItems, bind_ok] at passed
    have ⟨rendered, here, passed⟩ := passed
    rw [bind_ok] at passed
    have ⟨⟨linked, last⟩, links, passed⟩ := passed
    rw [bind_ok] at passed
    have ⟨others, later, passed⟩ := passed
    cases passed
    have known := renderItem_closed template given here
    have all : ∀ effector ∈ rendered, Closed lib effector := by
      intro effector listed
      refine ⟨fun leaf inside => known.1 leaf ?_, fun text inside => known.2 text ?_⟩
      · rw [leavesItems_eq, List.mem_flatMap]
        exact ⟨effector, listed, inside⟩
      · rw [textsItems_eq, List.mem_flatMap]
        exact ⟨effector, listed, inside⟩
    have ⟨first, after⟩ := linkEffectors_closed all clear links
    rw [List.forall_mem_append]
    exact ⟨first, ih supplies.2 after later⟩

/-- An expansion is one substitution exactly when putting the values in leaves nothing that looks like a
    placeholder, and no object with a key twice. -/
theorem expansion_simultaneous_iff (template : IsTemplate lib declared source) (given : IsExpansion expansion items serial)
    (supplies : ∀ item ∈ items, ∃ supplied, Supplies declared item supplied) (path : String) :
    Simultaneous lib declared source items serial expansion path ↔
      ∀ item ∈ items, Clean (instanceOf lib.print declared source item) := by
  constructor
  · intro simultaneous item listed authored among
    have result := simultaneous (.obj [("parameters", .obj declared), ("effectors", .arr source)]) declared (.refl _) rfl rfl
    rw [templateEffectors_eq given template.nonempty rfl rfl, bind_ok] at result
    obtain ⟨effectors, expanded, read⟩ := result
    rw [print_arr] at read
    have empty : ¬ opening <:+: "".toList := by decide
    have closed := expandItems_closed template supplies empty expanded
    have known : ∀ leaf ∈ (Json.arr effectors).leaves, lib.Known leaf := by
      intro leaf inside
      rw [leaves, leavesItems_eq, List.mem_flatMap] at inside
      obtain ⟨effector, held, below⟩ := inside
      exact (closed effector held).1 leaf below
    obtain ⟨effector, held, is⟩ := @linkedAfter_mem serial none _ _ authored (List.mem_map_of_mem listed) among
    have distinct := (lib.sound read).2
    rw [keysDistinct, keysDistinctItems_iff] at distinct
    refine ⟨?_, fun text inside => ?_⟩
    · have here := distinct effector held
      rcases is with rfl | ⟨tail, rfl⟩
      · exact here
      · exact distinct_of_dependsOn here
    · have kept : text ∈ effector.texts := by
        rcases is with rfl | ⟨tail, rfl⟩
        · exact inside
        · exact texts_dependsOn inside
      have found : text ∈ (Json.arr (expected serial (items.map (instanceOf lib.print declared source)))).texts := by
        rw [texts, textsItems_eq, List.mem_flatMap]
        exact ⟨effector, held, kept⟩
      have below := lib.faithful known read found
      rw [texts, textsItems_eq, List.mem_flatMap] at below
      obtain ⟨result, produced, text'⟩ := below
      exact (closed result produced).2 text text'
  · intro clean value reordered same parameters effectors
    have instances (item : Json) := @instanceOf_perm lib declared _ template.named template.distinct same source item
    have reorderedClean : ∀ item ∈ items, Clean (instanceOf lib.print reordered source item) := by
      intro item listed
      rw [instances]
      exact clean item listed
    have result := @templateEffectors_clean lib reordered source items serial expansion path (template.perm same) given
      (fun item listed => (supplies item listed).imp fun _ known => known.perm same) reorderedClean value parameters effectors
    have all : instanceOf lib.print reordered source = instanceOf lib.print declared source := funext instances
    rwa [all] at result

/-- Two items of a serial expansion, the second linked to the first. -/
theorem expansion_simultaneous_slots :
    Simultaneous plainLibrary [("name", .str "string")] [.obj [("id", .str "slot_$\x7bname\x7d")]]
      [.obj [("name", .str "a")], .obj [("name", .str "b")]] true
      (.obj [("items", .arr [.obj [("name", .str "a")], .obj [("name", .str "b")]]), ("max_items", .int 2),
        ("serial", .bool true)]) "/correlation_paths/0" := by
  have template : IsTemplate plainLibrary [("name", .str "string")] [.obj [("id", .str "slot_$\x7bname\x7d")]] :=
    { named := by decide
      distinct := by decide
      parsed := ⟨fun _ none => absurd none List.not_mem_nil, rfl⟩
      nonempty := List.cons_ne_nil _ _
      objects := by
        rw [List.forall_mem_singleton]
        exact ⟨_, rfl⟩
      identified := ⟨_, _, rfl, rfl⟩ }
  have given : IsExpansion (.obj [("items", .arr [.obj [("name", .str "a")], .obj [("name", .str "b")]]),
      ("max_items", .int 2), ("serial", .bool true)]) [.obj [("name", .str "a")], .obj [("name", .str "b")]] true :=
    { listed := rfl
      bounded := ⟨2, Nat.le_refl _, .inl rfl⟩
      flagged := .inl rfl }
  have gives (text : String) : ∃ supplied, Supplies [("name", .str "string")] (.obj [("name", .str text)]) supplied :=
    ⟨_, { is := rfl
          known := by simp
          fits := by
            rw [List.forall_mem_singleton]
            exact ⟨_, rfl, .string text⟩ }⟩
  refine (expansion_simultaneous_iff template given ?_ _).mpr ?_
  · simp only [List.mem_cons, List.not_mem_nil, or_false, forall_eq_or_imp, forall_eq]
    exact ⟨gives "a", gives "b"⟩
  · have instances : [Json.obj [("name", .str "a")], .obj [("name", .str "b")]].map
        (instanceOf plainLibrary.print [("name", .str "string")] [.obj [("id", .str "slot_$\x7bname\x7d")]]) =
          [[.obj [("id", .str "slot_a")]], [.obj [("id", .str "slot_b")]]] := by decide +kernel
    have clean : ∀ group ∈ [[Json.obj [("id", .str "slot_a")]], [.obj [("id", .str "slot_b")]]], Clean group := by
      unfold Clean
      decide
    intro item listed
    apply clean
    rw [← instances]
    exact List.mem_map_of_mem listed

/-- A value that spells another parameter is itself expanded, or refused in the other order. -/
theorem value_expanded :
    ¬ Simultaneous plainLibrary [("a", .str "string"), ("b", .str "string")] [.obj [("id", .str "slot_$\x7ba\x7d")]]
      [.obj [("a", .str "$\x7bb\x7d"), ("b", .str "c")]] false
      (.obj [("items", .arr [.obj [("a", .str "$\x7bb\x7d"), ("b", .str "c")]]), ("max_items", .int 1)])
      "/correlation_paths/0" := by
  intro simultaneous
  have result := simultaneous (.obj [("parameters", .obj [("a", .str "string"), ("b", .str "string")]),
    ("effectors", .arr [.obj [("id", .str "slot_$\x7ba\x7d")]])]) _ (.refl _) rfl rfl
  have got := congrArg Except.toOption result
  revert got
  decide +kernel

end Fala.Package
