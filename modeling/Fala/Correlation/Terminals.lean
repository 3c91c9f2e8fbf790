import Fala.Correlation.When

/-! Which terminal of a path is selected. -/

namespace Fala.Correlation
open Json Schema Journal

namespace PathTerminal

/-- The row is the source of the terminal and has its status. -/
def sourced (processPrefix : String) (t : PathTerminal) (row : ProcessRow) : Bool :=
  decide (row.id = processPrefix ++ ":" ++ t.sourceEffector) && decide (row.status = t.status)

def document (t : PathTerminal) (row : ProcessRow) : Text :=
  if t.status = .succeeded ∨ t.status = .skipped then row.outputJson else row.errorJson

/-- What the condition of the terminal finds under its path, with what it expects there. -/
def compared (t : PathTerminal) (values : Json) : Option (Json × Json) :=
  match t.whenJson.parse with
  | none => none
  | some condition =>
    match condition.member "path", condition.member "equals" with
    | some (.str path), some expected => (valueAt (segments path) values).map (·, expected)
    | _, _ => none

/-- The values have the field that the condition names. -/
def answered (t : PathTerminal) (values : Json) : Bool :=
  decide (t.whenJson = .empty) || (t.compared values).isSome

/-- The condition holds of the values. -/
def holds (t : PathTerminal) (values : Json) : Bool :=
  decide (t.whenJson = .empty) || (t.compared values).any fun c => valuesEqual c.1 c.2

/-- The values satisfy the schema of the terminal. -/
def fits (t : PathTerminal) (values : Json) : Bool :=
  t.outputSchemaJson.parse.any fun schema => succeeds (validateValue values schema "/path_result/values")

/-- The row is the source of the terminal, in its status and with values that meet its condition and its schema. -/
def matching (processPrefix : String) (t : PathTerminal) (row : ProcessRow) : Bool :=
  t.sourced processPrefix row &&
    (t.document row).parse.any fun envelope => t.holds (terminalValues envelope) && t.fits (terminalValues envelope)

/-- A source row in the terminal's status can be read, has the field of the condition, and violates no schema where
the condition holds. -/
def clear (processPrefix : String) (t : PathTerminal) (row : ProcessRow) : Bool :=
  !t.sourced processPrefix row ||
    (t.document row).parse.any fun envelope => t.answered (terminalValues envelope) &&
      (!t.holds (terminalValues envelope) || t.fits (terminalValues envelope))

def picked (t : PathTerminal) (row : ProcessRow) (earlier : Text) : PathTerminalResult :=
  match (t.document row).parse with
  | some envelope => ⟨t.id, .printed (terminalValues envelope), evidence envelope earlier⟩
  | none => {}

theorem meets_ok {t : PathTerminal} {values : Json} {met : Bool} :
    t.meets values = .ok met ↔ t.answered values = true ∧ t.holds values = met := by
  by_cases always : t.whenJson = .empty
  · simp [meets, answered, holds, always]
  · cases read : t.whenJson.parse with
    | none => simp [meets, answered, holds, compared, always, read, parsed, bind, Except.bind]
    | some condition =>
      have answer : t.meets values = match condition.member "path", condition.member "equals" with
          | some (.str path), some expected => do
            let current ← t.fieldAt (segments path) values
            return valuesEqual current expected
          | _, _ => .error "expected path and equals" := by
        simp only [meets, if_neg always, parsed, read]
        rfl
      rw [answer]
      simp only [answered, holds, compared, read, always, decide_false, Bool.false_or]
      split
      · rename_i path expected _ _
        simp only [bind_ok, Tested.terminalFieldAt_ok]
        cases found : valueAt (segments path) values <;> simp [pure, Except.pure]
      · simp

theorem succeeds_iff {α : Type} {x : Except String α} : succeeds x = true ↔ ∃ a, x = .ok a := by
  cases x <;> simp [Schema.succeeds]

theorem consider_ok {processPrefix : String} {t : PathTerminal} {row : ProcessRow}
    {chosen next : Nat × PathTerminalResult} :
    t.consider processPrefix row chosen = .ok next ↔ t.clear processPrefix row = true ∧
      next = if t.matching processPrefix row then (chosen.1 + 1, t.picked row chosen.2.evidenceJson) else chosen := by
  by_cases source : t.sourced processPrefix row = true
  · have here : ¬ (row.id ≠ processPrefix ++ ":" ++ t.sourceEffector ∨ row.status ≠ t.status) := by
      simp only [sourced, Bool.and_eq_true, decide_eq_true_eq] at source
      simp [source.1, source.2]
    have text : (if t.status = .succeeded ∨ t.status = .skipped then row.outputJson else row.errorJson) =
        t.document row := rfl
    simp only [consider, if_neg here, text, clear, matching, source, Bool.not_true, Bool.false_or, Bool.true_and]
    cases read : (t.document row).parse with
    | none => simp [parsed, read, bind, Except.bind]
    | some envelope =>
      simp only [bind_ok, Tested.parsed_ok, read, Option.some.injEq, exists_eq_left', meets_ok, Option.any_some, picked]
      constructor
      · rintro ⟨met, ⟨answered, rfl⟩, rest⟩
        cases held : t.holds (terminalValues envelope) with
        | false =>
          simp only [held, Bool.false_eq_true, if_false, pure, Except.pure, Except.ok.injEq] at rest
          simp [answered, rest]
        | true =>
          simp only [held, if_true, bind_ok, Tested.parsed_ok] at rest
          obtain ⟨schema, known, _, valid, made⟩ := rest
          have fit : t.fits (terminalValues envelope) = true := by
            simp only [fits, known, Option.any_some]
            exact succeeds_iff.mpr ⟨_, valid⟩
          simp only [pure, Except.pure, Except.ok.injEq] at made
          simp [answered, fit, made]
      · rintro ⟨settled, made⟩
        simp only [Bool.and_eq_true, Bool.or_eq_true, Bool.not_eq_true'] at settled
        refine ⟨_, ⟨settled.1, rfl⟩, ?_⟩
        cases held : t.holds (terminalValues envelope) with
        | false => simp [held, made, pure, Except.pure]
        | true =>
          have fit : t.fits (terminalValues envelope) = true := by simpa [held] using settled.2
          simp only [held, fit, Bool.and_self, if_true] at made
          simp only [fits] at fit
          cases known : t.outputSchemaJson.parse with
          | none => simp [known] at fit
          | some schema =>
            simp only [known, Option.any_some] at fit
            obtain ⟨u, valid⟩ := succeeds_iff.mp fit
            simp [made, bind_ok, Tested.parsed_ok, known, valid, pure, Except.pure]
  · have other : row.id ≠ processPrefix ++ ":" ++ t.sourceEffector ∨ row.status ≠ t.status := by
      simp only [sourced, Bool.and_eq_true, decide_eq_true_eq] at source
      by_cases named : row.id = processPrefix ++ ":" ++ t.sourceEffector
      · exact Or.inr fun same => source ⟨named, same⟩
      · exact Or.inl named
    have none : t.sourced processPrefix row = false := by simpa using source
    rw [consider, if_pos other]
    simp [clear, matching, none, eq_comm]

end PathTerminal

/-- Every terminal with every row, in the order in which they are looked at. -/
def terminalPairs (terminals : List PathTerminal) (rows : List ProcessRow) : List (PathTerminal × ProcessRow) :=
  terminals ×ˢ rows

/-- The pairs that match. -/
def matchingPairs (terminals : List PathTerminal) (rows : List ProcessRow) (processPrefix : String) :
    List (PathTerminal × ProcessRow) :=
  (terminalPairs terminals rows).filter fun p => p.1.matching processPrefix p.2

def counted (chosen : Nat × PathTerminalResult) (p : PathTerminal × ProcessRow) : Nat × PathTerminalResult :=
  (chosen.1 + 1, p.1.picked p.2 chosen.2.evidenceJson)

theorem counted_length (pairs : List (PathTerminal × ProcessRow)) (chosen : Nat × PathTerminalResult) :
    (pairs.foldl counted chosen).1 = chosen.1 + pairs.length := by
  induction pairs generalizing chosen with
  | nil => rfl
  | cons p rest ih =>
    rw [List.foldl_cons, ih, counted, List.length_cons]
    omega

theorem considered_pairs (terminals : List PathTerminal) (rows : List ProcessRow) (processPrefix : String)
    (chosen : Nat × PathTerminalResult) :
    terminals.foldlM (fun chosen t => rows.foldlM (fun chosen row => t.consider processPrefix row chosen) chosen) chosen =
      (terminalPairs terminals rows).foldlM (fun chosen p => p.1.consider processPrefix p.2 chosen) chosen := by
  induction terminals generalizing chosen with
  | nil => rfl
  | cons t rest ih =>
    rw [terminalPairs, List.product_cons, List.foldlM_append, List.foldlM_map, List.foldlM_cons]
    congr 1
    funext next
    exact ih next

theorem considered_ok {processPrefix : String} {pairs : List (PathTerminal × ProcessRow)}
    {chosen last : Nat × PathTerminalResult} :
    pairs.foldlM (fun chosen p => p.1.consider processPrefix p.2 chosen) chosen = .ok last ↔
      (∀ p ∈ pairs, p.1.clear processPrefix p.2 = true) ∧
        last = (pairs.filter fun p => p.1.matching processPrefix p.2).foldl counted chosen := by
  induction pairs generalizing chosen with
  | nil =>
    rw [List.foldlM_nil, List.filter_nil, List.foldl_nil]
    constructor
    · intro ended
      cases ended
      exact ⟨fun p none => absurd none List.not_mem_nil, rfl⟩
    · rintro ⟨-, rfl⟩
      rfl
  | cons p rest ih =>
    have step : (if p.1.matching processPrefix p.2 then counted chosen p else chosen) =
        ([p].filter fun p => p.1.matching processPrefix p.2).foldl counted chosen := by
      by_cases here : p.1.matching processPrefix p.2 = true <;> simp [here]
    have whole : ((p :: rest).filter fun p => p.1.matching processPrefix p.2).foldl counted chosen =
        (rest.filter fun p => p.1.matching processPrefix p.2).foldl counted
          (if p.1.matching processPrefix p.2 then counted chosen p else chosen) := by
      rw [step, ← List.foldl_append, ← List.filter_append, List.singleton_append]
    rw [List.foldlM_cons, bind_ok, List.forall_mem_cons, whole]
    constructor
    · rintro ⟨next, first, others⟩
      obtain ⟨clear, made⟩ := PathTerminal.consider_ok.mp first
      obtain ⟨clears, ended⟩ := ih.mp others
      rw [made] at ended
      exact ⟨⟨clear, clears⟩, ended⟩
    · rintro ⟨⟨clear, clears⟩, ended⟩
      exact ⟨_, PathTerminal.consider_ok.mpr ⟨clear, rfl⟩, ih.mpr ⟨clears, ended⟩⟩

/-- A terminal is selected exactly if it is the only match and nothing that was looked at fails; nothing is selected
where nothing matches and nothing has to. -/
theorem terminal_selected_iff (terminals : List PathTerminal) (rows : List ProcessRow) (processPrefix : String)
    (requireMatch : Bool) (result : PathTerminalResult) :
    selectPathTerminal terminals rows processPrefix requireMatch = .ok result ↔
      (∀ t ∈ terminals, ∀ row ∈ rows, t.clear processPrefix row = true) ∧
        ((∃ t row, matchingPairs terminals rows processPrefix = [(t, row)] ∧
            result = t.picked row (.printed (.arr []))) ∨
          (matchingPairs terminals rows processPrefix = [] ∧ (terminals = [] ∨ requireMatch = false) ∧ result = {})) := by
  have pairs : (∀ p ∈ terminalPairs terminals rows, p.1.clear processPrefix p.2 = true) ↔
      ∀ t ∈ terminals, ∀ row ∈ rows, t.clear processPrefix row = true := by
    constructor
    · intro clear t declared row stored
      exact clear (t, row) (List.mem_product.mpr ⟨declared, stored⟩)
    · intro clear p listed
      have both := List.mem_product.mp listed
      exact clear p.1 both.1 p.2 both.2
  simp only [selectPathTerminal, considered_pairs, bind_ok, considered_ok, ensure_ok, exists_const, pairs]
  constructor
  · rintro ⟨chosen, ⟨clear, made⟩, few, found, ended⟩
    refine ⟨clear, ?_⟩
    have length := counted_length (matchingPairs terminals rows processPrefix) (0, {})
    rw [matchingPairs, ← made] at length
    simp only [decide_eq_true_eq] at few found
    cases ended
    cases matched : matchingPairs terminals rows processPrefix with
    | nil =>
      rw [matchingPairs] at matched
      rw [matched] at made
      subst made
      refine Or.inr ⟨rfl, ?_, rfl⟩
      cases terminals with
      | nil => exact Or.inl rfl
      | cons t rest => exact Or.inr (by simpa using found)
    | cons first more =>
      rw [matchingPairs] at matched
      cases more with
      | nil =>
        rw [matched] at made
        subst made
        exact Or.inl ⟨first.1, first.2, rfl, rfl⟩
      | cons second rest =>
        rw [matched] at length
        simp only [List.length_cons] at length
        omega
  · rintro ⟨clear, chosen⟩
    refine ⟨_, ⟨clear, rfl⟩, ?_⟩
    change decide ((List.foldl counted (0, {}) (matchingPairs terminals rows processPrefix)).1 ≤ 1) = true ∧ _
    obtain ⟨t, row, only, rfl⟩ | ⟨matched, unneeded, rfl⟩ := chosen
    · rw [matchingPairs] at only
      rw [matchingPairs, only]
      simp [counted, pure, Except.pure]
    · rw [matchingPairs] at matched
      rw [matchingPairs, matched]
      obtain rfl | optional := unneeded
      · simp [pure, Except.pure]
      · simp [optional, pure, Except.pure]

/-- A condition on a field that the output lacks fails the selection, whatever else matches. -/
theorem terminal_hidden_by_missing_field :
    let waiting : PathTerminal := ⟨"waiting", "decide", .succeeded,
      .printed (.obj [("equals", .str "wait"), ("path", .str "route")]), .braces⟩
    let done : PathTerminal := ⟨"done", "decide", .succeeded, .empty, .braces⟩
    let row := sampleRow "ship:decide" .succeeded .braces .braces
    matchingPairs [waiting, done] [row] "ship" = [(done, row)] ∧
      selectPathTerminal [waiting, done] [row] "ship" true =
        .error "path.terminal.missing_field at /terminals/waiting/when: route" := by
  constructor <;> decide +kernel

end Fala.Correlation
