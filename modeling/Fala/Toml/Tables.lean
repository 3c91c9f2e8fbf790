import Fala.Toml.Reading

namespace Fala.Toml

open Durable TomlRules
open Schema (bind_ok)

/-- The object that the members of an open table amount to. -/
abbrev erase (members : Members Json) : Object := closeMembers .obj .arr members

theorem find_erase (key : String) (members : Members Json) :
    Assoc.find key (erase members) = (Assoc.find key members).map (close .obj .arr) := by
  rw [erase, closeMembers_eq, Assoc.find_mapValues]

theorem put_erase (key : String) (node : Node Json) (members : Members Json) :
    Assoc.put key (close .obj .arr node) (erase members) = erase (Assoc.put key node members) := by
  rw [erase, erase, closeMembers_eq, closeMembers_eq, Assoc.put_mapValues]

abbrev Select := Option (Node Json) → Option (Members Json × (Members Json → Node Json))

/-- Where the rules go on, so does the code, and it puts back what the rules put back. -/
def Follows (rules : Select) (code : Option Json → Except String Json) : Prop :=
  ∀ node inner back, rules node = some (inner, back) →
    code (node.map (close .obj .arr)) = .ok (.obj (erase inner)) ∧
      ∀ changed, replaced (node.map (close .obj .arr)) (.obj (erase changed)) = close .obj .arr (back changed)

section

variable {path : String}

theorem follows_enter (path : String) : Follows enter (innerTable path) := by
  intro node inner back entered
  cases node with
  | none =>
    cases entered
    exact ⟨rfl, fun _ => rfl⟩
  | some node =>
    cases node with
    | value => cases entered
    | table origin members =>
      cases entered
      exact ⟨rfl, fun _ => rfl⟩
    | tables earlier members =>
      cases entered
      refine ⟨?_, fun changed => ?_⟩
      · simp [innerTable, close]
      · simp [replaced, close]

theorem extend_table {origin : Origin} {members inner : Members Json} {back : Members Json → Node Json}
    (extended : extend (some (.table origin members)) = some (inner, back)) :
    inner = members ∧ back = .table origin := by
  rw [extend] at extended
  split at extended
  · cases extended
  · cases extended
    exact ⟨rfl, rfl⟩

theorem follows_extend_table (path : String) : Follows extend (innerTable path) := by
  intro node inner back extended
  cases node with
  | none =>
    cases extended
    exact ⟨rfl, fun _ => rfl⟩
  | some node =>
    cases node with
    | value => cases extended
    | tables => cases extended
    | table origin members =>
      obtain ⟨rfl, rfl⟩ := extend_table extended
      exact ⟨rfl, fun _ => rfl⟩

theorem follows_extend_object (path : String) : Follows extend (innerObject path) := by
  intro node inner back extended
  cases node with
  | none =>
    cases extended
    exact ⟨rfl, fun _ => rfl⟩
  | some node =>
    cases node with
    | value => cases extended
    | tables => cases extended
    | table origin members =>
      obtain ⟨rfl, rfl⟩ := extend_table extended
      exact ⟨rfl, fun _ => rfl⟩

theorem atPath_cons {select : Option Json → Except String Json} {refusal key : String}
    {finish : String → Object → Except String Object} {rest : List String} (more : rest ≠ []) (members : Object) :
    atPath path select refusal finish (key :: rest) members = (do
      let inner ← select (Assoc.find key members)
      let inner ← object path refusal inner
      let inner ← atPath path select refusal finish rest inner
      return Assoc.put key (replaced (Assoc.find key members) (.obj inner)) members) := by
  cases rest with
  | nil => exact absurd rfl more
  | cons => rfl

theorem along_atPath (path refusal : String) (finish : String → Object → Except String Object) {rules : Select}
    {select : Option Json → Except String Json} (follows : Follows rules select)
    {change : Members Json → Option (Members Json)} {ending : List String} (some_key : ending ≠ [])
    (changes : ∀ members changed, change members = some changed →
      atPath path select refusal finish ending (erase members) = .ok (erase changed))
    {start : List String} {members changed : Members Json} (allowed : along rules change start members = some changed) :
    atPath path select refusal finish (start ++ ending) (erase members) = .ok (erase changed) := by
  induction start generalizing members changed with
  | nil => exact changes members changed allowed
  | cons key rest ih =>
    rw [along, Option.bind_eq_some_iff] at allowed
    obtain ⟨⟨inner, back⟩, opened, allowed⟩ := allowed
    obtain ⟨inner', went, rfl⟩ := Option.map_eq_some_iff.mp allowed
    obtain ⟨selected, putBack⟩ := follows _ _ _ opened
    have more : rest ++ ending ≠ [] := by simp [some_key]
    rw [List.cons_append, atPath_cons more, find_erase, selected]
    simp only [object, bind, Except.bind, pure, Except.pure, ih went, putBack, put_erase]

theorem atLast_atPath (path refusal : String) {rules : Select} {select : Option Json → Except String Json}
    {finish : String → Object → Except String Object} (follows : Follows rules select)
    {change : String → Members Json → Option (Members Json)}
    (changes : ∀ key members changed, change key members = some changed →
      finish key (erase members) = .ok (erase changed))
    {parts : List String} {members changed : Members Json} (allowed : atLast rules change parts members = some changed) :
    parts ≠ [] ∧ atPath path select refusal finish parts (erase members) = .ok (erase changed) := by
  rw [atLast, Option.bind_eq_some_iff] at allowed
  obtain ⟨key, last, allowed⟩ := allowed
  have some_key : parts ≠ [] := by
    rintro rfl
    cases last
  have whole : parts.dropLast ++ [key] = parts := List.dropLast_append_getLast? key last
  refine ⟨some_key, ?_⟩
  have went := along_atPath path refusal finish follows
    (List.cons_ne_nil key []) (fun members changed => changes key members changed) allowed
  rwa [whole] at went

theorem openTable_ensure {key : String} {members changed : Members Json} (opened : openTable key members = some changed) :
    ensureKey path key (erase members) = .ok (erase changed) := by
  rw [ensureKey, find_erase]
  cases found : Assoc.find key members with
  | none =>
    rw [openTable, found] at opened
    cases opened
    exact congrArg Except.ok (put_erase key (.table .header []) members)
  | some node =>
    rw [openTable, found] at opened
    cases node with
    | value => cases opened
    | tables => cases opened
    | table origin inner =>
      cases origin with
      | header => cases opened
      | dotted => cases opened
      | implied =>
        cases opened
        exact congrArg Except.ok (put_erase key (.table .header inner) members)

theorem addTable_append {key : String} {members changed : Members Json}
    (added : addTable .obj .arr key members = some changed) :
    appendKey path (.obj []) key (erase members) = .ok (erase changed) := by
  rw [appendKey, find_erase]
  cases found : Assoc.find key members with
  | none =>
    rw [addTable, found] at added
    cases added
    exact congrArg Except.ok (put_erase key (.tables [] []) members)
  | some node =>
    rw [addTable, found] at added
    cases node with
    | value => cases added
    | table => cases added
    | tables earlier inner =>
      cases added
      have same := put_erase key (.tables (earlier ++ [.obj (erase inner)]) []) members
      rw [close] at same
      exact congrArg Except.ok same

theorem giveValue_put {value : Json} {key : String} {members changed : Members Json}
    (given : giveValue value key members = some changed) :
    putKey path value key (erase members) = .ok (erase changed) := by
  rw [putKey, find_erase]
  cases found : Assoc.find key members with
  | none =>
    rw [giveValue, found] at given
    cases given
    exact congrArg Except.ok (put_erase key (.value value) members)
  | some node =>
    rw [giveValue, found] at given
    cases given

theorem ensurePath_of_headed {parts : List String} {members changed : Members Json}
    (allowed : headed openTable parts members = some changed) :
    ensurePath path (erase members) parts = .ok (erase changed) := by
  have opens : ∀ key members changed, openTable key members = some changed →
      ensureKey path key (erase members) = .ok (erase changed) := fun _ _ _ opened => openTable_ensure opened
  exact (atLast_atPath path _ (follows_enter path) opens allowed).2

theorem putPath_of_headed {parts : List String} {members changed : Members Json}
    (allowed : headed (addTable .obj .arr) parts members = some changed) :
    putPath path (erase members) parts (.obj []) true = .ok (erase changed) := by
  have adds : ∀ key members changed, addTable .obj .arr key members = some changed →
      appendKey path (.obj []) key (erase members) = .ok (erase changed) := fun _ _ _ added => addTable_append added
  have ⟨some_key, went⟩ := atLast_atPath path "table path is not an object"
    (follows_enter path) adds allowed
  rw [putPath, if_neg some_key]
  exact went

theorem gives (path : String) (value : Json) : ∀ key members changed, giveValue value key members = some changed →
    putKey path value key (erase members) = .ok (erase changed) := fun _ _ _ given => giveValue_put given

theorem putObject_of_dotted {value : Json} {parts : List String} {members changed : Members Json}
    (allowed : dotted value parts members = some changed) :
    putObject path (erase members) parts value = .ok (erase changed) := by
  have ⟨some_key, went⟩ := atLast_atPath path "dotted key conflicts with scalar"
    (follows_extend_object path) (gives path value) allowed
  rw [putObject, if_neg some_key]
  exact went

theorem along_some {rules : Select} {change : Members Json → Option (Members Json)} {start : List String}
    {members changed : Members Json} (allowed : along rules change start members = some changed) :
    ∃ inner changed, change inner = some changed := by
  induction start generalizing members changed with
  | nil => exact ⟨members, changed, allowed⟩
  | cons key rest ih =>
    rw [along, Option.bind_eq_some_iff] at allowed
    obtain ⟨opened, _, allowed⟩ := allowed
    obtain ⟨inner, went, _⟩ := Option.map_eq_some_iff.mp allowed
    exact ih went

theorem putPath_of_assigned {value : Json} {current parts : List String} {members changed : Members Json}
    (allowed : assigned value current parts members = some changed) :
    putPath path (erase members) (current ++ parts) value false = .ok (erase changed) := by
  have places : ∀ members changed, dotted value parts members = some changed → parts ≠ [] ∧
      atPath path (innerTable path) "table path is not an object" (putKey path value) parts (erase members) =
        .ok (erase changed) :=
    fun members changed placed => atLast_atPath path _ (follows_extend_table path) (gives path value) placed
  obtain ⟨inner, changed', placed⟩ := along_some allowed
  have some_key := (places inner changed' placed).1
  have went := along_atPath path _ _ (follows_enter path) some_key (fun members changed placed => (places members changed placed).2)
    allowed
  rw [putPath, if_neg (by simp [some_key])]
  exact went

end

end Fala.Toml
