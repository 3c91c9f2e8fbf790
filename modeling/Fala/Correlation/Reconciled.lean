import Fala.Correlation.Rounds

/-! The fixed point that `advance_correlation` reaches: what each round makes of the rows, and that the rounds end. -/

namespace Fala.Correlation
open Durable Program Journal
open Driver (listProcesses listProcesses_ok listProcesses_reads)

variable {db db' : Database}

/-! The states of the rows. -/

namespace Advance

theorem stateFor_ok {rows : List ProcessRow} {item : CorrelationProcessPlan Text} {state : CorrelationExecutionState Text}
    (h : stateFor rows item = .ok state) :
    ∃ row, findRow rows item.id = some row ∧ state.processId = row.id ∧ state.effectorId = item.effectorId ∧
      state.status = row.status ∧ state.conduction = item.conduction := by
  unfold stateFor at h
  cases found : findRow rows item.id with
  | none =>
    rw [found] at h
    cases h
  | some row =>
    rw [found] at h
    obtain ⟨output, -, made⟩ := Schema.bind_ok.mp h
    cases made
    exact ⟨row, rfl, rfl, rfl, rfl, rfl⟩

section
variable {plan : CorrelationInstantiationPlan Text} {held : List (CorrelationExecutionState Text)}

/-- Each process of the plan has the state of its row. -/
def Tracks (plan : CorrelationInstantiationPlan Text) (db : Database) (item : CorrelationProcessPlan Text)
    (state : CorrelationExecutionState Text) : Prop :=
  state.processId = item.id ∧ state.effectorId = item.effectorId ∧ state.conduction = item.conduction ∧
    ∃ row, db.processes.find? (plan.runId, item.id) = some row ∧ state.status = row.status

theorem states_track (h : states plan (listed db plan.runId) = .ok held) :
    List.Forall₂ (Tracks plan db) plan.processes held := by
  refine (mapM_ok h).imp fun item state made => ?_
  obtain ⟨row, found, id, effector, status, conduction⟩ := stateFor_ok made
  rw [findRow_listed] at found
  have named : row.id = item.id := congrArg Prod.snd (Table.find?_key found)
  exact ⟨id.trans named, effector, conduction, row, found, status⟩

theorem stateOf_related {r : CorrelationProcessPlan Text → CorrelationExecutionState Text → Prop}
    (same : ∀ item state, r item state → state.effectorId = item.effectorId) {items : List (CorrelationProcessPlan Text)}
    (each : List.Forall₂ r items held) (effectorId : String) :
    (processOf items effectorId = none ∧ stateOf held effectorId = none) ∨
      ∃ item state, processOf items effectorId = some item ∧ stateOf held effectorId = some state ∧ r item state := by
  induction each with
  | nil => exact .inl ⟨rfl, rfl⟩
  | @cons item state items held first _ ih =>
    simp only [processOf, stateOf, List.find?_cons, same item state first] at ih ⊢
    by_cases here : item.effectorId = effectorId
    · simp only [here, decide_true]
      exact .inr ⟨item, state, rfl, rfl, first⟩
    · simp only [here, decide_false]
      exact ih

theorem stateOf_tracked (tracked : List.Forall₂ (Tracks plan db) plan.processes held) (effectorId : String) :
    (processOf plan.processes effectorId = none ∧ stateOf held effectorId = none) ∨
      ∃ item state, processOf plan.processes effectorId = some item ∧ stateOf held effectorId = some state ∧
        Tracks plan db item state :=
  stateOf_related (fun _ _ tracks => tracks.2.1) tracked effectorId

/-- The direct upstreams of a process are over. -/
def Over (plan : CorrelationInstantiationPlan Text) (db : Database) (item : CorrelationProcessPlan Text) : Prop :=
  ∀ upstream ∈ item.conduction, ∀ source, processOf plan.processes upstream = some source →
    ∃ row, db.processes.find? (plan.runId, source.id) = some row ∧ row.status.isTerminal = true

/-- The row of a process waits for no upstream any more. -/
def Due (plan : CorrelationInstantiationPlan Text) (db : Database) (item : CorrelationProcessPlan Text) : Prop :=
  item ∈ plan.processes ∧
    (∃ row, db.processes.find? (plan.runId, item.id) = some row ∧ row.status = .pending) ∧ Over plan db item

theorem unmet_tracked (tracked : List.Forall₂ (Tracks plan db) plan.processes held)
    {item : CorrelationProcessPlan Text} {state : CorrelationExecutionState Text} (tracks : Tracks plan db item state) :
    unmet held state = [] ↔ Over plan db item := by
  rw [unmet, List.filter_eq_nil_iff, tracks.2.2.1]
  constructor
  · intro met upstream listed source found
    have here := met upstream listed
    rcases stateOf_tracked tracked upstream with ⟨absent, -⟩ | ⟨other, state, same, held, -, -, -, row, stored, status⟩
    · rw [found] at absent
      cases absent
    · rw [found] at same
      cases same
      refine ⟨row, stored, ?_⟩
      rw [held] at here
      simpa [status] using here
  · intro over_ upstream listed
    rcases stateOf_tracked tracked upstream with ⟨-, absent⟩ | ⟨source, state, found, held, -, -, -, row, stored, status⟩
    · rw [absent]
      simp
    · obtain ⟨row', stored', terminal⟩ := over_ upstream listed source found
      rw [stored] at stored'
      cases stored'
      rw [held]
      simp [status, terminal]

theorem mem_readyStates {state : CorrelationExecutionState Text} :
    state ∈ readyStates held ↔ state ∈ held ∧ state.status = .pending ∧ unmet held state = [] := by
  simp only [readyStates, pendingStates, List.mem_filter, decide_eq_true_eq, and_assoc]

theorem readied_due (tracked : List.Forall₂ (Tracks plan db) plan.processes held) {id : String} :
    id ∈ (readyStates held).map (·.processId) ↔ ∃ item, Due plan db item ∧ item.id = id := by
  rw [List.mem_map]
  constructor
  · rintro ⟨state, ready, rfl⟩
    obtain ⟨member, pending, met⟩ := mem_readyStates.mp ready
    obtain ⟨item, listed, tracks⟩ := forall₂_right tracked member
    obtain ⟨row, found, status⟩ := tracks.2.2.2
    refine ⟨item, ⟨listed, ⟨row, found, status.symm.trans pending⟩, (unmet_tracked tracked tracks).mp met⟩, tracks.1.symm⟩
  · rintro ⟨item, ⟨listed, ⟨row, found, pending⟩, met⟩, rfl⟩
    obtain ⟨state, member, tracks⟩ := forall₂_left tracked listed
    obtain ⟨row', found', status⟩ := tracks.2.2.2
    rw [found] at found'
    cases found'
    exact ⟨state, mem_readyStates.mpr ⟨member, status.trans pending, (unmet_tracked tracked tracks).mpr met⟩, tracks.1⟩

end

/-! An accepted plan. -/

theorem checkIdentities_distinct {runId pathId : String} {index : Nat} {ids effectors : List String}
    {items : List (CorrelationProcessPlan Text)} {u : Unit}
    (h : checkIdentities runId pathId index ids effectors items = .ok u) :
    ((items.map (·.id)).Nodup ∧ ∀ item ∈ items, item.id ∉ ids) ∧
      (items.map (·.effectorId)).Nodup ∧ ∀ item ∈ items, item.effectorId ∉ effectors := by
  induction items generalizing index ids effectors with
  | nil => exact ⟨⟨List.nodup_nil, List.forall_mem_nil _⟩, List.nodup_nil, List.forall_mem_nil _⟩
  | cons item rest ih =>
    simp only [checkIdentities, Schema.ensure_bind_ok] at h
    obtain ⟨-, -, -, new, later⟩ := h
    obtain ⟨⟨ids_, idsNew⟩, effectors_, effectorsNew⟩ := ih later
    have new : ¬ (item.id ∈ ids ∨ item.effectorId ∈ effectors) := by simpa using new
    have known {kept : List String} {name : String} (absent : name ∉ kept ++ [item.id]) : name ∉ kept ∧ name ≠ item.id := by
      rw [List.mem_append, List.mem_singleton] at absent
      exact not_or.mp absent
    refine ⟨⟨List.nodup_cons.mpr ⟨?_, ids_⟩, fun other member => ?_⟩, List.nodup_cons.mpr ⟨?_, effectors_⟩,
      fun other member => ?_⟩
    · intro twice
      obtain ⟨other, member, same⟩ := List.mem_map.mp twice
      exact (known (idsNew other member)).2 same
    · rcases List.mem_cons.mp member with rfl | member
      · exact fun seen => new (.inl seen)
      · exact (known (idsNew other member)).1
    · intro twice
      obtain ⟨other, member, same⟩ := List.mem_map.mp twice
      exact effectorsNew other member (List.mem_append_right _ (List.mem_singleton.mpr same))
    · rcases List.mem_cons.mp member with rfl | member
      · exact fun seen => new (.inr seen)
      · exact fun seen => effectorsNew other member (List.mem_append_left _ seen)

theorem validate_distinct {plan : CorrelationInstantiationPlan Text} {u : Unit} (valid : validate plan = .ok u) :
    (plan.processes.map (·.id)).Nodup ∧ (plan.processes.map (·.effectorId)).Nodup := by
  obtain ⟨_, identities, -⟩ := Schema.bind_ok.mp valid
  simp only [validateCorrelationAdvancePlan, Schema.ensure_bind_ok] at identities
  obtain ⟨-, -, -, rest⟩ := identities
  obtain ⟨_, distinct, -⟩ := Schema.bind_ok.mp rest
  obtain ⟨⟨ids, -⟩, effectors, -⟩ := checkIdentities_distinct distinct
  exact ⟨ids, effectors⟩

/-! One round. -/

section Round

variable {digest : Json → String} {plan : CorrelationInstantiationPlan Text}
  {held : List (CorrelationExecutionState Text)}

/-- What a round makes of the row of a due process. -/
inductive Made (digest : Json → String) (plan : CorrelationInstantiationPlan Text)
    (held : List (CorrelationExecutionState Text)) (item : CorrelationProcessPlan Text) (old : ProcessRow) :
    ProcessRow → Prop
  | promoted {inputJson : Text} (met : conditionMatches item plan held = .ok true)
      (merged : mergedInput digest plan held item = .ok inputJson) : Made digest plan held item old (promotedRow inputJson old)
  | skipped {output : Text} (missed : conditionMatches item plan held = .ok false)
      (printed : (conditionMissed item).canonical = some output) : Made digest plan held item old (skippedRow output old)

/-- What the decision about a readied process is. -/
inductive Decides (digest : Json → String) (plan : CorrelationInstantiationPlan Text) (db : Database)
    (held : List (CorrelationExecutionState Text)) (id : String) : Option Decision → Prop
  | promote {item : CorrelationProcessPlan Text} {old : ProcessRow} {inputJson : Text}
      (named : item.id = id) (listed : item ∈ plan.processes)
      (found : db.processes.find? (plan.runId, id) = some old)
      (met : conditionMatches item plan held = .ok true) (merged : mergedInput digest plan held item = .ok inputJson) :
      Decides digest plan db held id
        (some (.promote { processId := id, targetStatus := "ready", inputJson, errorJson := .braces }))
  | skip {item : CorrelationProcessPlan Text} {old : ProcessRow} (named : item.id = id) (listed : item ∈ plan.processes)
      (found : db.processes.find? (plan.runId, id) = some old)
      (missed : conditionMatches item plan held = .ok false) :
      Decides digest plan db held id (some (.skip id old.createdAt (conditionMissed item)))
  | idle (settled : ∀ old, db.processes.find? (plan.runId, id) = some old → old.status ≠ .pending) :
      Decides digest plan db held id none

theorem decision_decides {id : String} {made : Option Decision}
    (h : decision digest plan (listed db plan.runId) held id = .ok made) : Decides digest plan db held id made := by
  unfold decision at h
  rw [findRow_listed] at h
  cases found : db.processes.find? (plan.runId, id) with
  | none =>
    rw [found] at h
    cases h
    refine .idle fun old stored => ?_
    rw [found] at stored
    cases stored
  | some old =>
    rw [found] at h
    dsimp only at h
    by_cases settled : old.status ≠ .pending
    · rw [if_pos settled] at h
      cases h
      refine .idle fun other stored => ?_
      rw [found] at stored
      cases stored
      exact settled
    · rw [if_neg settled] at h
      cases listed : plan.processes.find? fun p => p.id = id with
      | none =>
        rw [listed] at h
        cases h
      | some item =>
        rw [listed] at h
        have named : item.id = id := by simpa using List.find?_some listed
        have member := List.mem_of_find?_eq_some listed
        obtain ⟨met, matched, h⟩ := Schema.bind_ok.mp h
        cases met with
        | false =>
          cases h
          exact .skip named member found matched
        | true =>
          obtain ⟨inputJson, merged, h⟩ := Schema.bind_ok.mp h
          cases h
          exact .promote named member found matched merged

/-- The parts of an input that was merged. -/
structure Merges (digest : Json → String) (plan : CorrelationInstantiationPlan Text)
    (held : List (CorrelationExecutionState Text)) (item : CorrelationProcessPlan Text)
    (authored : List (String × Json)) (metadata : Json) (values : List (CorrelationConductionValue Text))
    (conducted : List (String × Json)) (upstream : List (List (String × Json))) (reactions : Option (List Json)) : Prop where
  read : parsed item.inputJson = .ok (.obj authored)
  described : parsed item.metadataJson = .ok metadata
  projected : ∃ downstream, (held.find? fun state => state.processId = item.id) = some downstream ∧
    projectConduction held downstream.conduction = .ok values
  conducts : values.mapM (conductedMember plan held item) = .ok conducted
  regulated : values.mapM (regulationFrom held) = .ok upstream
  reacted : accumulated digest plan held item metadata = .ok reactions

theorem mergedInput_ok {item : CorrelationProcessPlan Text} {inputJson : Text}
    (h : mergedInput digest plan held item = .ok inputJson) :
    ∃ authored metadata values conducted upstream reactions,
      Merges digest plan held item authored metadata values conducted upstream reactions ∧
        inputJson = .printed (Json.obj (mergedMembers authored (setMembers [] conducted)
          (setMembers (setMembers [] upstream.flatten) (regulationOf metadata)) reactions)).canonical := by
  obtain ⟨value, read, h⟩ := Schema.bind_ok.mp h
  cases value with
  | obj authored =>
    dsimp only at h
    cases found : held.find? fun state => state.processId = item.id with
    | none =>
      rw [found] at h
      cases h
    | some downstream =>
      rw [found] at h
      obtain ⟨values, projected, h⟩ := Schema.bind_ok.mp h
      obtain ⟨conducted, conducts, h⟩ := Schema.bind_ok.mp h
      obtain ⟨metadata, described, h⟩ := Schema.bind_ok.mp h
      obtain ⟨upstream, regulated, h⟩ := Schema.bind_ok.mp h
      obtain ⟨reactions, reacted, h⟩ := Schema.bind_ok.mp h
      cases h
      exact ⟨authored, metadata, values, conducted, upstream, reactions,
        ⟨read, described, ⟨downstream, found, projected⟩, conducts, regulated, reacted⟩, rfl⟩
  | null | bool _ | int _ | uint _ | float _ | str _ | arr _ => cases h

theorem mergedInput_filled {item : CorrelationProcessPlan Text} {inputJson : Text}
    (h : mergedInput digest plan held item = .ok inputJson) : inputJson ≠ .empty := by
  obtain ⟨_, _, _, _, _, _, -, rfl⟩ := mergedInput_ok h
  nofun

theorem advanceRound_parts {changed : Bool} (h : advanceRound (reconciliation digest plan) db = (.ok changed, db')) :
    ∃ held left flag d₁ d₂, states plan (listed db plan.runId) = .ok held ∧
      applyDecisions plan.runId (((readyStates held).map (·.processId)).map
        (decision digest plan (listed db plan.runId) held)) [] false db = (.ok (left, flag), d₁) ∧
      (promoteChildren plan.runId left).eval d₁ = (.ok (), d₂) ∧
      RunMarked plan.runId (waitDiagnostic (advanceCorrelationStates literals held)) d₂ db' ∧
      changed = (flag || left ≠ []) := by
  obtain ⟨rows, _, read, h⟩ := Session.bind_ok.mp h
  obtain ⟨-, same, rfl⟩ := listProcesses_ok.mp (Session.program_ok.mp read)
  obtain ⟨computed, _, returned, h⟩ := Session.bind_ok.mp h
  obtain ⟨computes, rfl⟩ := Session.of_ok.mp returned
  have same : rows = listed db plan.runId := same
  subst same
  have computes : round digest plan (listed db plan.runId) = .ok computed := computes
  obtain ⟨held, track, made⟩ := Schema.bind_ok.mp computes
  cases made
  obtain ⟨⟨left, flag⟩, d₁, applied, h⟩ := Session.bind_ok.mp h
  obtain ⟨_, d₂, promoted, h⟩ := Session.bind_ok.mp h
  obtain ⟨_, d₃, marked, h⟩ := Session.bind_ok.mp h
  obtain ⟨flags, rfl⟩ := Session.pure_ok.mp h
  refine ⟨held, left, flag, d₁, d₂, track, ?_, promoted, persistWaitDiagnostic_marks marked, flags.symm⟩
  rw [List.map_map]
  have ids : (advanceCorrelationStates literals held).readied.map
        (fun readied => decision digest plan (listed db plan.runId) held readied.id) =
      (readyStates held).map (decision digest plan (listed db plan.runId) held ∘ (·.processId)) := List.map_map
  rw [← ids]
  exact applied

theorem Decides.merged {id : String} {child : CorrelationChildTransition}
    (h : Decides digest plan db held id (some (.promote child))) :
    ∃ item, mergedInput digest plan held item = .ok child.inputJson := by
  generalize same : some (Decision.promote child) = made at h
  cases h with
  | promote named listed found met merged =>
    cases same
    exact ⟨_, merged⟩
  | skip => cases same
  | idle => cases same

/-- No command is recorded yet for the move of a pending row. -/
def Unrecorded (plan : CorrelationInstantiationPlan Text) (db : Database) : Prop :=
  ∀ item ∈ plan.processes, ∀ row, db.processes.find? (plan.runId, item.id) = some row → row.status = .pending →
    db.commandByKey plan.runId ("process.ready:" ++ item.id) = none ∧
      db.commandByKey plan.runId ("process.skip:" ++ item.id) = none

theorem Unrecorded.of_none
    (fresh : ∀ item ∈ plan.processes, db.commandByKey plan.runId ("process.ready:" ++ item.id) = none ∧
      db.commandByKey plan.runId ("process.skip:" ++ item.id) = none) : Unrecorded plan db :=
  fun item listed _ _ _ => fresh item listed

/-- What a round leaves of the rows: the due ones are made over, the others stay but for the wait marker. -/
structure Advanced (digest : Json → String) (plan : CorrelationInstantiationPlan Text) (db db' : Database) : Prop where
  due : ∃ held, states plan (listed db plan.runId) = .ok held ∧ ∀ item, Due plan db item → ∃ old made new,
    db.processes.find? (plan.runId, item.id) = some old ∧ Made digest plan held item old made ∧ Marked made new ∧
      db'.processes.find? (plan.runId, item.id) = some new
  kept (k : String × String) (idle : ∀ item, Due plan db item → k ≠ (plan.runId, item.id)) :
    Option.Rel Marked (db.processes.find? k) (db'.processes.find? k)
  others (k : String × String) (other : k.1 ≠ plan.runId) : db'.processes.find? k = db.processes.find? k

theorem Made.moved {item : CorrelationProcessPlan Text} {old made : ProcessRow} (h : Made digest plan held item old made) :
    made.status = .ready ∨ made.status = .skipped := by
  cases h with
  | promoted met merged => exact .inl rfl
  | skipped missed printed => exact .inr rfl

theorem Advanced.pending (advanced : Advanced digest plan db db') (distinct : (plan.processes.map (·.id)).Nodup)
    {item : CorrelationProcessPlan Text} {row : ProcessRow} (member : item ∈ plan.processes)
    (found : db'.processes.find? (plan.runId, item.id) = some row) (pending : row.status = .pending) :
    ¬ Due plan db item ∧ ∃ old, db.processes.find? (plan.runId, item.id) = some old ∧ old.status = .pending := by
  have idle : ¬ Due plan db item := by
    intro due
    obtain ⟨held, -, each⟩ := advanced.due
    obtain ⟨old, made, new, -, makes, mark, stored⟩ := each item due
    rw [found] at stored
    cases stored
    rw [mark.status] at pending
    rcases makes.moved with ready | skipped
    · rw [ready] at pending
      cases pending
    · rw [skipped] at pending
      cases pending
  have apart : ∀ other, Due plan db other → (plan.runId, item.id) ≠ (plan.runId, other.id) := by
    intro other due same
    exact idle (List.inj_on_of_nodup_map distinct due.1 member (congrArg Prod.snd same).symm ▸ due)
  obtain ⟨old, stored, mark⟩ := rel_right (advanced.kept _ apart) found
  exact ⟨idle, old, stored, mark.status.symm.trans pending⟩

/-- The processes that a round readies. -/
def readyIds (held : List (CorrelationExecutionState Text)) : List String := (readyStates held).map (·.processId)

/-- A round that returned: what was skipped, promoted and marked, one after another. -/
structure Ran (digest : Json → String) (plan : CorrelationInstantiationPlan Text)
    (held : List (CorrelationExecutionState Text)) (db d₁ d₂ db' : Database) : Prop where
  distinct : (plan.processes.map (·.id)).Nodup
  track : states plan (listed db plan.runId) = .ok held
  skipping : Moved plan.runId (skips (decision digest plan (listed db plan.runId) held) (readyIds held)) db d₁
  each : ∀ id ∈ readyIds held, ∃ made, decision digest plan (listed db plan.runId) held id = .ok made ∧
    Applied plan.runId db d₁ id made
  promoting : Moved plan.runId
    ((promotions (decision digest plan (listed db plan.runId) held) (readyIds held)).map (·.processId)) d₁ d₂
  children : ∀ child ∈ promotions (decision digest plan (listed db plan.runId) held) (readyIds held), ∃ old,
    d₁.processes.find? (plan.runId, child.processId) = some old ∧ old.status = .pending ∧
      d₂.processes.find? (plan.runId, child.processId) = some (promotedRow child.inputJson old)
  marked : RunMarked plan.runId (waitDiagnostic (advanceCorrelationStates literals held)) d₂ db'

theorem decision_aimed (id : String) (made : Decision)
    (decided : decision digest plan (listed db plan.runId) held id = .ok (some made)) : made.target = id := by
  cases decision_decides decided <;> rfl

theorem readyIds_nodup (distinct : (plan.processes.map (·.id)).Nodup)
    (track : states plan (listed db plan.runId) = .ok held) : (readyIds held).Nodup := by
  have names : held.map (·.processId) = plan.processes.map (·.id) :=
    forall₂_map (states_track track) fun item state tracks => tracks.1
  have sub : (readyIds held).Sublist (held.map (·.processId)) := (List.filter_sublist.trans List.filter_sublist).map _
  exact (names ▸ distinct).sublist sub

theorem promotions_apart {child : CorrelationChildTransition}
    (member : child ∈ promotions (decision digest plan (listed db plan.runId) held) (readyIds held)) :
    child.processId ∈ readyIds held ∧
      child.processId ∉ skips (decision digest plan (listed db plan.runId) held) (readyIds held) ∧
      decision digest plan (listed db plan.runId) held child.processId = .ok (some (.promote child)) := by
  obtain ⟨id, member, decided⟩ := mem_promotions.mp member
  obtain rfl : child.processId = id := decision_aimed id _ decided
  refine ⟨member, fun skipped => ?_, decided⟩
  have isSkipped := (List.mem_filter.mp skipped).2
  rw [decided] at isSkipped
  cases isSkipped

theorem advanceRound_ran (distinct : (plan.processes.map (·.id)).Nodup) (unrecorded : Unrecorded plan db)
    {changed : Bool} (h : advanceRound (reconciliation digest plan) db = (.ok changed, db')) :
    ∃ held d₁ d₂, Ran digest plan held db d₁ d₂ db' ∧
      (changed = true ↔ skips (decision digest plan (listed db plan.runId) held) (readyIds held) ≠ [] ∨
        promotions (decision digest plan (listed db plan.runId) held) (readyIds held) ≠ []) := by
  obtain ⟨held, left, flag, d₁, d₂, track, applied, promoted, marked, rfl⟩ := advanceRound_parts h
  have fresh : ∀ id ∈ readyIds held, db.commandByKey plan.runId ("process.ready:" ++ id) = none ∧
      db.commandByKey plan.runId ("process.skip:" ++ id) = none := by
    intro id member
    obtain ⟨item, ⟨listed, ⟨row, found, pending⟩, -⟩, rfl⟩ := (readied_due (states_track track)).mp member
    exact unrecorded item listed row found pending
  have nodup := readyIds_nodup distinct track
  obtain ⟨skipping, all, each, flags⟩ :=
    applyDecisions_moves decision_aimed nodup (fun id member => (fresh id member).2) applied
  rw [List.nil_append] at all
  subst all
  obtain ⟨promoting, children⟩ := promoteChildren_moves (nodup.sublist (promotions_sublist decision_aimed _))
    (fun child member => (skipping.unrecorded (promotions_apart member).2.1).1.trans (fresh _ (promotions_apart member).1).1)
    (fun child member => by
      obtain ⟨item, merged⟩ := (decision_decides (promotions_apart member).2.2).merged
      exact mergedInput_filled merged) promoted
  refine ⟨held, d₁, d₂, ⟨distinct, track, skipping, each, promoting, children, marked⟩, ?_⟩
  rw [Bool.or_eq_true, decide_eq_true_eq, flags]
  simp [readyIds]

namespace Ran

variable {d₁ d₂ : Database} (ran : Ran digest plan held db d₁ d₂ db')
include ran

theorem ready {id : String} : id ∈ readyIds held ↔ ∃ item, Due plan db item ∧ item.id = id :=
  readied_due (states_track ran.track)

theorem same {item other : CorrelationProcessPlan Text} (member : item ∈ plan.processes) (member' : other ∈ plan.processes)
    (named : other.id = item.id) : other = item := List.inj_on_of_nodup_map ran.distinct member' member named

theorem row {item : CorrelationProcessPlan Text} (due : Due plan db item) :
    (∃ old made new, db.processes.find? (plan.runId, item.id) = some old ∧ Made digest plan held item old made ∧
      Marked made new ∧ db'.processes.find? (plan.runId, item.id) = some new) ∧
    (item.id ∈ skips (decision digest plan (listed db plan.runId) held) (readyIds held) ∨
      promotions (decision digest plan (listed db plan.runId) held) (readyIds held) ≠ []) := by
  have ⟨listed, ⟨row, found, pending⟩, _⟩ := due
  have member : item.id ∈ readyIds held := ran.ready.mpr ⟨item, due, rfl⟩
  obtain ⟨made, decided, done⟩ := ran.each item.id member
  cases decision_decides decided with
  | idle settled => exact absurd pending (settled row found)
  | @promote other old inputJson named member' found' met merged =>
    obtain rfl := ran.same listed member' named
    have child := mem_promotions.mpr ⟨_, member, decided⟩
    obtain ⟨before, stored, -, written⟩ := ran.children _ child
    have unskipped := ran.skipping.row (promotions_apart child).2.1
    rw [unskipped.trans found'] at stored
    cases stored
    obtain ⟨new, stored, mark⟩ := ran.marked.row written
    exact ⟨⟨old, _, new, found', .promoted met merged, mark, stored⟩, .inr (List.ne_nil_of_mem child)⟩
  | @skip other old named member' found' missed =>
    obtain rfl := ran.same listed member' named
    obtain ⟨before, output, stored, printed, written⟩ := done
    rw [found'] at stored
    cases stored
    have skipped : other.id ∈ skips (decision digest plan (Correlation.listed db plan.runId) held) (readyIds held) := by
      refine List.mem_filter.mpr ⟨member, ?_⟩
      rw [decided]
      rfl
    have unpromoted : other.id ∉
        (promotions (decision digest plan (Correlation.listed db plan.runId) held) (readyIds held)).map (·.processId) := by
      intro twice
      obtain ⟨child, member, named⟩ := List.mem_map.mp twice
      exact (promotions_apart member).2.1 (named ▸ skipped)
    obtain ⟨new, stored, mark⟩ := ran.marked.row ((ran.promoting.row unpromoted).trans written)
    exact ⟨⟨old, _, new, found', .skipped missed printed, mark, stored⟩, .inl skipped⟩

theorem untouched (k : String × String) (idle : ∀ item, Due plan db item → k ≠ (plan.runId, item.id)) :
    d₂.processes.find? k = db.processes.find? k := by
  have apart : ¬ (k.1 = plan.runId ∧ k.2 ∈ readyIds held) := by
    rintro ⟨run, member⟩
    obtain ⟨item, due, named⟩ := ran.ready.mp member
    exact idle item due (Prod.ext run named.symm)
  rw [ran.promoting.rows k fun here => apart ⟨here.1, (promotions_sublist decision_aimed _).subset here.2⟩,
    ran.skipping.rows k fun here => apart ⟨here.1, List.mem_of_mem_filter here.2⟩]

theorem advances : Advanced digest plan db db' where
  due := ⟨held, ran.track, fun _ due => (ran.row due).1⟩
  kept k idle := by
    rw [← ran.untouched k idle]
    exact ran.marked.rows k
  others k other := by
    rw [ran.marked.others k other]
    exact ran.untouched k fun item due same => other (congrArg Prod.fst same)

theorem unrecorded (unrecorded : Unrecorded plan db) : Unrecorded plan db' := by
  intro item member row found pending
  obtain ⟨idle, old, stored, wasPending⟩ := ran.advances.pending ran.distinct member found pending
  have absent : item.id ∉ readyIds held := by
    intro listed
    obtain ⟨other, due, named⟩ := ran.ready.mp listed
    exact idle (ran.same member due.1 named ▸ due)
  have keys := unrecorded item member old stored wasPending
  have first := ran.skipping.unrecorded fun skipped => absent (List.mem_of_mem_filter skipped)
  have second := ran.promoting.unrecorded fun child => absent ((promotions_sublist decision_aimed _).subset child)
  have last (key : String) : db'.commandByKey plan.runId key = d₂.commandByKey plan.runId key := by
    unfold Database.commandByKey
    rw [ran.marked.commands]
  rw [last, last]
  exact ⟨(second.1.trans first.1).trans keys.1, (second.2.trans first.2).trans keys.2⟩

theorem moves : skips (decision digest plan (listed db plan.runId) held) (readyIds held) ≠ [] ∨
    promotions (decision digest plan (listed db plan.runId) held) (readyIds held) ≠ [] ↔ ∃ item, Due plan db item := by
  constructor
  · intro some_
    have found : ∃ id, id ∈ readyIds held := by
      rcases some_ with skipped | child
      · obtain ⟨id, member⟩ := List.exists_mem_of_ne_nil _ skipped
        exact ⟨id, List.mem_of_mem_filter member⟩
      · obtain ⟨child, member⟩ := List.exists_mem_of_ne_nil _ child
        exact ⟨_, (promotions_apart member).1⟩
    obtain ⟨id, member⟩ := found
    obtain ⟨item, due, -⟩ := ran.ready.mp member
    exact ⟨item, due⟩
  · rintro ⟨item, due⟩
    exact (ran.row due).2.imp_left List.ne_nil_of_mem

end Ran

theorem advanceRound_advances (distinct : (plan.processes.map (·.id)).Nodup) (unrecorded : Unrecorded plan db)
    {changed : Bool} (h : advanceRound (reconciliation digest plan) db = (.ok changed, db')) :
    Advanced digest plan db db' ∧ Unrecorded plan db' ∧ (changed = true ↔ ∃ item, Due plan db item) := by
  obtain ⟨held, d₁, d₂, ran, flags⟩ := advanceRound_ran distinct unrecorded h
  exact ⟨ran.advances, ran.unrecorded unrecorded, flags.trans ran.moves⟩

/-! The rounds of a call. -/

/-- Every round but the last one moves the due rows, and the last one finds none. -/
inductive Rounds (digest : Json → String) (plan : CorrelationInstantiationPlan Text) : Nat → Database → Database → Prop
  | last {db db' : Database} (settled : ∀ item, ¬ Due plan db item) (advanced : Advanced digest plan db db') :
      Rounds digest plan 0 db db'
  | next {n : Nat} {db middle db' : Database} (due : ∃ item, Due plan db item)
      (advanced : Advanced digest plan db middle) (later : Rounds digest plan n middle db') :
      Rounds digest plan (n + 1) db db'

def isPending (plan : CorrelationInstantiationPlan Text) (db : Database) (item : CorrelationProcessPlan Text) : Bool :=
  (db.processes.find? (plan.runId, item.id)).any fun row => row.status = .pending

/-- The rows of a plan that are pending. -/
def pendingRows (plan : CorrelationInstantiationPlan Text) (db : Database) : Nat :=
  plan.processes.countP (isPending plan db)

theorem isPending_iff {item : CorrelationProcessPlan Text} :
    isPending plan db item = true ↔ ∃ row, db.processes.find? (plan.runId, item.id) = some row ∧ row.status = .pending := by
  rw [isPending, Option.any_eq_true]
  simp only [decide_eq_true_eq]

theorem countP_lt {α : Type} {p q : α → Bool} {items : List α} (fewer : ∀ a ∈ items, q a = true → p a = true) {a : α}
    (member : a ∈ items) (met : p a = true) (missed : q a = false) : items.countP q < items.countP p := by
  obtain ⟨before, after, rfl⟩ := List.append_of_mem member
  have left : before.countP q ≤ before.countP p :=
    List.countP_mono_left fun b listed => fewer b (List.mem_append_left _ listed)
  have right : after.countP q ≤ after.countP p :=
    List.countP_mono_left fun b listed => fewer b (List.mem_append_right _ (.tail _ listed))
  rw [List.countP_append, List.countP_append, List.countP_cons_of_pos met, List.countP_cons_of_neg (by simp [missed])]
  omega

theorem Advanced.pendingRows_lt (advanced : Advanced digest plan db db') (distinct : (plan.processes.map (·.id)).Nodup)
    (due : ∃ item, Due plan db item) : pendingRows plan db' < pendingRows plan db := by
  obtain ⟨item, due⟩ := due
  refine countP_lt (fun other member pending => ?_) due.1 (isPending_iff.mpr due.2.1) ?_
  · obtain ⟨row, found, pending⟩ := isPending_iff.mp pending
    exact isPending_iff.mpr (advanced.pending distinct member found pending).2
  · apply Bool.eq_false_iff.mpr
    intro pending
    obtain ⟨row, found, pending⟩ := isPending_iff.mp pending
    exact (advanced.pending distinct due.1 found pending).1 due

theorem advanceRounds_bound (distinct : (plan.processes.map (·.id)).Nodup) (unrecorded : Unrecorded plan db) {n : Nat}
    (h : advanceRounds (reconciliation digest plan) n db = (.ok true, db')) : n ≤ pendingRows plan db := by
  induction n generalizing db with
  | zero => exact Nat.zero_le _
  | succ n ih =>
    obtain ⟨changed, middle, round, h⟩ := Session.bind_ok.mp h
    obtain ⟨advanced, unrecorded', moved⟩ := advanceRound_advances distinct unrecorded round
    cases changed with
    | false =>
      obtain ⟨no, -⟩ := Session.pure_ok.mp h
      cases no
    | true =>
      have fewer := advanced.pendingRows_lt distinct (moved.mp rfl)
      have later := ih unrecorded' h
      omega

theorem advanceRounds_rounds (distinct : (plan.processes.map (·.id)).Nodup) (unrecorded : Unrecorded plan db) {n : Nat}
    (h : advanceRounds (reconciliation digest plan) n db = (.ok false, db')) :
    ∃ k ≤ pendingRows plan db, Rounds digest plan k db db' ∧ Unrecorded plan db' := by
  induction n generalizing db with
  | zero =>
    obtain ⟨no, -⟩ := Session.pure_ok.mp h
    cases no
  | succ n ih =>
    obtain ⟨changed, middle, round, h⟩ := Session.bind_ok.mp h
    obtain ⟨advanced, unrecorded', moved⟩ := advanceRound_advances distinct unrecorded round
    cases changed with
    | false =>
      obtain ⟨-, rfl⟩ := Session.pure_ok.mp h
      have settled : ∀ item, ¬ Due plan db item := by
        intro item due
        cases moved.mpr ⟨item, due⟩
      exact ⟨0, Nat.zero_le _, .last settled advanced, unrecorded'⟩
    | true =>
      obtain ⟨k, bounded, rounds, unrecorded''⟩ := ih unrecorded' h
      have due := moved.mp rfl
      have fewer := advanced.pendingRows_lt distinct due
      exact ⟨k + 1, by omega, .next due advanced rounds, unrecorded''⟩

theorem advanceCorrelation_ok {rows : List ProcessRow}
    (h : advanceCorrelation (reconciliation digest plan) db = (.ok rows, db')) :
    validate plan = .ok () ∧ plan.processes.forM (checkRow (listed db plan.runId)) = .ok () ∧
      advanceRounds (reconciliation digest plan) (plan.processes.length + 1) db = (.ok false, db') ∧
      RunKnown db' plan.runId ∧ rows = listed db' plan.runId := by
  obtain ⟨_, _, accepted, h⟩ := Session.bind_ok.mp h
  obtain ⟨valid, rfl⟩ := Session.of_ok.mp accepted
  obtain ⟨initial, _, read, h⟩ := Session.bind_ok.mp h
  obtain ⟨-, rfl, rfl⟩ := listProcesses_ok.mp (Session.program_ok.mp read)
  obtain ⟨_, _, checks, h⟩ := Session.bind_ok.mp h
  obtain ⟨checked, rfl⟩ := Session.of_ok.mp checks
  obtain ⟨changed, d₁, rounds, h⟩ := Session.bind_ok.mp h
  obtain ⟨_, _, converged, h⟩ := Session.bind_ok.mp h
  obtain ⟨converged, rfl⟩ := Session.require_ok.mp converged
  obtain ⟨known, rfl, rfl⟩ := listProcesses_ok.mp (Session.program_ok.mp h)
  cases changed with
  | true => cases converged
  | false => exact ⟨valid, checked, rounds, known, rfl⟩

theorem Due.of_marked (marked : ∀ k, Option.Rel Marked (db.processes.find? k) (db'.processes.find? k))
    {item : CorrelationProcessPlan Text} (due : Due plan db' item) : Due plan db item := by
  obtain ⟨listed, ⟨row, found, pending⟩, met⟩ := due
  obtain ⟨old, stored, mark⟩ := rel_right (marked _) found
  refine ⟨listed, ⟨old, stored, mark.status.symm.trans pending⟩, fun upstream member source named => ?_⟩
  obtain ⟨row, found, terminal⟩ := met upstream member source named
  obtain ⟨old, stored, mark⟩ := rel_right (marked _) found
  exact ⟨old, stored, mark.status ▸ terminal⟩

theorem Rounds.settled {k : Nat} (rounds : Rounds digest plan k db db') (item : CorrelationProcessPlan Text) :
    ¬ Due plan db' item := by
  induction rounds with
  | last settled advanced =>
    have marked := fun k => advanced.kept k fun other due => absurd due (settled other)
    exact fun due => settled item (due.of_marked marked)
  | next due advanced later ih => exact ih

/-- A process of a two-process plan. -/
def pairItem (id effectorId : String) (seq : Int) (conduction : List String) : CorrelationProcessPlan Text where
  id := id
  runId := "r"
  effectorId := effectorId
  declarationSeq := seq
  status := .pending
  priority := 0
  maxAttempts := 1
  timeoutSeconds := 0
  inputJson := .printed (.obj [("k", .int 1)])
  configJson := .braces
  outputSchemaJson := .braces
  conduction := conduction
  whenJson := .empty
  metadataJson := .printed (.obj [("seq", .int seq), ("effector_id", .str effectorId)])
  idempotencyKey := ""

def pairPlan : CorrelationInstantiationPlan Text where
  correlationPathId := "p"
  runId := "r"
  processes := [pairItem "p:a" "a" 0 [], pairItem "p:b" "b" 1 ["a"]]
  replayed := false

/-- The plan persisted in a new run, its first process skipped. -/
def pairStart : Database :=
  let built : Session Database Unit := do
    let _ ← Session.program (createRun { runId := "r", status := "active", metadata := "", createdAt := "t0" })
    let _ ← persistCorrelationPlan (Persist.persistence (fun _ => "") pairPlan) "t1"
    let _ ← Session.program (skipProcess "r" "p:a" "o" "t2" .braces "k")
  (built Database.empty).2

def pairCall : Session Database (List ProcessRow) := advanceCorrelation (reconciliation (fun _ => "") pairPlan)

theorem pairPlan_valid : validate pairPlan = .ok () := by decide +kernel

theorem pairStart_unrecorded : Unrecorded pairPlan pairStart := .of_none (by decide +kernel)

theorem pairCall_returns : ∃ rows db', pairCall pairStart = (.ok rows, db') := by
  have returned : (pairCall pairStart).1.isOk = true := by decide +kernel
  match call : pairCall pairStart, returned with
  | (.ok rows, db'), _ => exact ⟨rows, db', rfl⟩

/-- A row stays but for the marker, or it was pending and moved on after its upstreams. -/
def Followed (plan : CorrelationInstantiationPlan Text) (db' : Database) (k : String × String) (old new : ProcessRow) : Prop :=
  Marked old new ∨ ∃ item ∈ plan.processes, k = (plan.runId, item.id) ∧ old.status = .pending ∧
    (new.status = .ready ∨ new.status = .skipped) ∧ Over plan db' item

def Sound (plan : CorrelationInstantiationPlan Text) (db db' : Database) : Prop :=
  ∀ k, Option.Rel (Followed plan db' k) (db.processes.find? k) (db'.processes.find? k)

namespace Sound

variable {middle : Database}

theorem refl (plan : CorrelationInstantiationPlan Text) (db : Database) : Sound plan db db :=
  fun _ => rel_refl (fun row => .inl (.refl row)) _

theorem over_mono {item : CorrelationProcessPlan Text}
    (finished : ∀ k row, middle.processes.find? k = some row → row.status.isTerminal = true →
      ∃ new, db'.processes.find? k = some new ∧ new.status.isTerminal = true)
    (met : Over plan middle item) : Over plan db' item := by
  intro upstream listed source found
  obtain ⟨row, stored, terminal⟩ := met upstream listed source found
  exact finished _ row stored terminal

theorem terminal (sound : Sound plan db db') {k : String × String} {row : ProcessRow}
    (found : db.processes.find? k = some row) (terminal : row.status.isTerminal = true) :
    ∃ new, db'.processes.find? k = some new ∧ new.status.isTerminal = true := by
  obtain ⟨new, later, followed⟩ := rel_left (sound k) found
  refine ⟨new, later, ?_⟩
  rcases followed with mark | ⟨-, -, -, pending, -⟩
  · rw [mark.status]
    exact terminal
  · rw [pending] at terminal
    cases terminal

theorem trans (first : Sound plan db middle) (later : Sound plan middle db') : Sound plan db db' := by
  refine fun k => rel_trans (first k) (later k) fun old row new before after => ?_
  have kept : ∀ item, Over plan middle item → Over plan db' item :=
    fun item => over_mono fun k row found ended => later.terminal found ended
  rcases before with mark | ⟨item, listed, named, pending, moved, met⟩
  · rcases after with mark' | ⟨item, listed, named, pending, moved⟩
    · exact .inl (mark.trans mark')
    · exact .inr ⟨item, listed, named, mark.status ▸ pending, moved⟩
  · rcases after with mark' | ⟨-, -, -, pending', -⟩
    · rw [← mark'.status] at moved
      exact .inr ⟨item, listed, named, pending, moved, kept item met⟩
    · rcases moved with ready | skipped
      · rw [ready] at pending'
        cases pending'
      · rw [skipped] at pending'
        cases pending'

theorem write {k : String × String} {old new : ProcessRow} (sound : Sound plan db middle)
    (found : middle.processes.find? k = some old)
    (rows : ∀ other, db'.processes.find? other = if other = k then some new else middle.processes.find? other)
    (closed : old.status.isTerminal = true → new.status.isTerminal = true)
    (follows : ∀ first, db.processes.find? k = some first → Followed plan middle k first old →
      (∀ item, Over plan middle item → Over plan db' item) → Followed plan db' k first new) : Sound plan db db' := by
  have kept : ∀ item, Over plan middle item → Over plan db' item := by
    intro item
    apply over_mono
    intro other row stored terminal
    by_cases here : other = k
    · subst here
      rw [found] at stored
      cases stored
      exact ⟨new, (rows _).trans (if_pos rfl), closed terminal⟩
    · exact ⟨row, ((rows other).trans (if_neg here)).trans stored, terminal⟩
  intro other
  by_cases here : other = k
  · subst here
    obtain ⟨first, stored, followed⟩ := rel_right (sound other) found
    rw [rows, if_pos rfl, stored]
    exact .some (follows first stored followed kept)
  · rw [rows, if_neg here]
    refine rel_imp (sound other) fun first later followed => ?_
    rcases followed with mark | ⟨item, listed, named, pending, moved, met⟩
    · exact .inl mark
    · exact .inr ⟨item, listed, named, pending, moved, kept item met⟩

theorem move {item : CorrelationProcessPlan Text} {old new : ProcessRow} (sound : Sound plan db middle)
    (due : Due plan db item) (found : middle.processes.find? (plan.runId, item.id) = some old)
    (rows : ∀ other, db'.processes.find? other =
      if other = (plan.runId, item.id) then some new else middle.processes.find? other)
    (closed : old.status.isTerminal = true → new.status.isTerminal = true)
    (moved : new.status = .ready ∨ new.status = .skipped) : Sound plan db db' := by
  obtain ⟨listed, ⟨row, stored, pending⟩, met⟩ := due
  refine sound.write found rows closed fun first stored' _ kept => ?_
  rw [stored] at stored'
  cases stored'
  refine .inr ⟨item, listed, rfl, pending, moved, kept item (over_mono (fun k row here terminal => ?_) met)⟩
  exact sound.terminal here terminal

theorem mark {d : CorrelationWaitDiagnostic} (sound : Sound plan db middle) (marked : RunMarked plan.runId d middle db') :
    Sound plan db db' := by
  have kept : ∀ item, Over plan middle item → Over plan db' item := by
    intro item
    apply over_mono
    intro k row stored terminal
    obtain ⟨new, found, mark⟩ := marked.row stored
    exact ⟨new, found, mark.status ▸ terminal⟩
  refine fun k => rel_trans (sound k) (marked.rows k) fun old row new followed mark => ?_
  rcases followed with before | ⟨item, listed, named, pending, moved, met⟩
  · exact .inl (before.trans mark)
  · rw [← mark.status] at moved
    exact .inr ⟨item, listed, named, pending, moved, kept item met⟩

theorem promote {c : ChildrenCall} {children : List CorrelationChildTransition} (run : c.runId = plan.runId)
    (due : ∀ child ∈ children, ∃ item, Due plan db item ∧ item.id = child.processId) {writes : List Write}
    (sound : Sound plan db middle) (made : ∀ w ∈ writes, c.Makes children w) (written : Writes middle writes db') :
    Sound plan db db' := by
  induction written with
  | nil => exact sound
  | @cons start next last write rest first later ih =>
    refine ih ?_ fun w member => made w (.tail _ member)
    obtain ⟨child, member, rfl⟩ := made write List.mem_cons_self
    obtain ⟨item, due, named⟩ := due child member
    cases first with
    | act found enabled processes logged =>
      rw [run, ← named] at found processes
      have pending := enabled
      refine sound.move due found processes (fun terminal => ?_) (.inl rfl)
      rw [show _ = ProcessStatus.pending from pending] at terminal
      cases terminal

theorem skip {item : CorrelationProcessPlan Text} {at_ : String} {outputJson : Text} (due : Due plan db item)
    (sound : Sound plan db middle) :
    (skipProcess plan.runId item.id "correlation" at_ outputJson ("process.skip:" ++ item.id)).void.Settles middle
      (Sound plan db) := by
  refine .void ((transitionProcess_settles _ middle).imp fun later commits => ?_)
  rcases commits with rfl | ⟨w, ⟨output, error, -, -, rfl⟩, written⟩
  · exact sound
  · cases written with
    | act found enabled processes logged => exact sound.move due found processes (fun _ => rfl) (.inr rfl)

end Sound

theorem applyDecisions_left {runId : String} {decide : String → Except String (Option Decision)} {ids : List String}
    {children left : List CorrelationChildTransition} {changed flag : Bool}
    (h : applyDecisions runId (ids.map decide) children changed db = (.ok (left, flag), db')) :
    left = children ++ promotions decide ids := by
  induction ids generalizing children changed db with
  | nil =>
    obtain ⟨same, -⟩ := Session.pure_ok.mp h
    cases same
    exact (List.append_nil _).symm
  | cons id rest ih =>
    simp only [List.map_cons, applyDecisions] at h
    obtain ⟨made, middle, first, next⟩ := Session.bind_ok.mp h
    obtain ⟨decided, -⟩ := Session.of_ok.mp first
    clear h first
    cases made with
    | none => simpa [promotions, decided] using ih next
    | some made =>
      cases made with
      | promote child => simpa [promotions, decided, Decision.child?] using ih next
      | skip target at_ outputJson =>
        obtain ⟨_, start, -, next⟩ := Session.bind_ok.mp next
        simpa [promotions, decided, Decision.child?] using ih next

theorem applyDecisions_sound {decide : String → Except String (Option Decision)}
    (aimed : ∀ id made, decide id = .ok (some made) → made.target = id) {ids : List String}
    (due : ∀ id ∈ ids, ∃ item, Due plan db item ∧ item.id = id) {middle : Database} (sound : Sound plan db middle)
    (children : List CorrelationChildTransition) (changed : Bool) :
    (applyDecisions plan.runId (ids.map decide) children changed).Leaves middle (Sound plan db) := by
  induction ids generalizing children changed middle with
  | nil => exact sound
  | cons id rest ih =>
    have rest_ := fun other member => due other (.tail _ member)
    simp only [List.map_cons, applyDecisions]
    refine .afterOf sound fun made decided => ?_
    cases made with
    | none => exact ih rest_ sound children changed
    | some made =>
      cases made with
      | promote child => exact ih rest_ sound (children ++ [child]) changed
      | skip target at_ outputJson =>
        obtain rfl : target = id := aimed id _ decided
        obtain ⟨item, late, rfl⟩ := due target List.mem_cons_self
        exact .andThen (.program (sound.skip late) sound) fun _ _ _ sound => ih rest_ sound children true

theorem advanceRound_sound (db : Database) : (advanceRound (reconciliation digest plan)).Leaves db (Sound plan db) := by
  have start := Sound.refl plan db
  refine .afterRead (listProcesses_reads _) start fun rows read => ?_
  obtain ⟨-, same, -⟩ := listProcesses_ok.mp read
  have same : rows = listed db plan.runId := same
  subst same
  refine .afterOf start fun computed computes => ?_
  have computes : round digest plan (listed db plan.runId) = .ok computed := computes
  obtain ⟨held, track, made⟩ := Schema.bind_ok.mp computes
  cases made
  have decisions : ((advanceCorrelationStates literals held).readied.map
        fun readied => decision digest plan (listed db plan.runId) held readied.id) =
      (readyIds held).map (decision digest plan (listed db plan.runId) held) := by
    rw [readyIds, List.map_map]
    exact List.map_map
  have due : ∀ id ∈ readyIds held, ∃ item, Due plan db item ∧ item.id = id :=
    fun id => (readied_due (states_track track)).mp
  refine .andThen (Q := Sound plan db) ?_ fun applied middle looped sound => ?_
  · show (applyDecisions plan.runId _ [] false).Leaves db (Sound plan db)
    rw [decisions]
    exact applyDecisions_sound decision_aimed due start [] false
  · obtain ⟨left, flag⟩ := applied
    have looped : applyDecisions plan.runId ((readyIds held).map (decision digest plan (listed db plan.runId) held)) []
        false db = (.ok (left, flag), middle) := decisions ▸ looped
    have left_ : left = promotions _ _ := applyDecisions_left looped
    have children : ∀ child ∈ left, ∃ item, Due plan db item ∧ item.id = child.processId := by
      intro child member
      exact due _ (promotions_apart (left_ ▸ member)).1
    have promoted : (promoteChildren plan.runId left).Settles middle (Sound plan db) := by
      unfold promoteChildren
      by_cases none_ : left = []
      · rw [if_pos none_]
        exact .ofReadOnly (.pure _)
      · rw [if_neg none_]
        refine .void ((applyCorrelationChildren_settles _ left middle).imp fun later done => ?_)
        obtain ⟨writes, made, written⟩ := done
        exact sound.promote rfl children made written
    refine .andThen (.program promoted sound) fun _ middle _ sound => ?_
    have marked : (persistWaitDiagnostic plan.runId
        (waitDiagnostic (advanceCorrelationStates literals held))).Settles middle (Sound plan db) :=
      .afterRead (listProcesses_reads _) fun rows read => .transact fun u later h =>
        sound.mark (persistWaitDiagnostic_marks (bind_ok.mpr ⟨rows, middle, read, transact_ok.mpr h⟩))
    exact .andThen (.program marked sound) fun _ _ _ sound => sound

theorem advanceRounds_sound (n : Nat) (db : Database) :
    (advanceRounds (reconciliation digest plan) n).Leaves db (Sound plan db) := by
  induction n generalizing db with
  | zero => exact .refl plan db
  | succ n ih =>
    refine .andThen (advanceRound_sound db) fun changed middle _ sound => ?_
    cases changed with
    | false => exact sound
    | true => exact sound.trans (ih middle)

theorem stateFor_congr {rows others : List ProcessRow} (same : ∀ id, Option.Rel Marked (findRow rows id) (findRow others id))
    (item : CorrelationProcessPlan Text) : stateFor others item = stateFor rows item := by
  have related := same item.id
  unfold stateFor
  generalize findRow rows item.id = old at related ⊢
  generalize findRow others item.id = new at related ⊢
  cases related with
  | none => rfl
  | some mark =>
    rw [mark]
    rfl

theorem states_congr (same : ∀ k, Option.Rel Marked (db.processes.find? k) (db'.processes.find? k)) :
    states plan (listed db' plan.runId) = states plan (listed db plan.runId) := by
  have each : stateFor (listed db' plan.runId) = stateFor (listed db plan.runId) := by
    funext item
    apply stateFor_congr
    intro id
    rw [findRow_listed, findRow_listed]
    exact same _
  rw [states, states, each]

/-- A round has nothing to move and nothing to mark. -/
def Rested (plan : CorrelationInstantiationPlan Text) (db : Database) : Prop :=
  ∃ held, states plan (listed db plan.runId) = .ok held ∧ readyStates held = [] ∧
    ∀ row ∈ listed db plan.runId, Still (waitDiagnostic (advanceCorrelationStates literals held)) row

theorem advanceRounds_rested (distinct : (plan.processes.map (·.id)).Nodup) (unrecorded : Unrecorded plan db) {n : Nat}
    (h : advanceRounds (reconciliation digest plan) n db = (.ok false, db')) : Rested plan db' := by
  induction n generalizing db with
  | zero =>
    obtain ⟨no, -⟩ := Session.pure_ok.mp h
    cases no
  | succ n ih =>
    obtain ⟨changed, middle, round, h⟩ := Session.bind_ok.mp h
    obtain ⟨held, d₁, d₂, ran, flags⟩ := advanceRound_ran distinct unrecorded round
    cases changed with
    | true => exact ih (ran.unrecorded unrecorded) h
    | false =>
      obtain ⟨-, rfl⟩ := Session.pure_ok.mp h
      have settled : ∀ item, ¬ Due plan db item := by
        intro item due
        cases (flags.trans ran.moves).mpr ⟨item, due⟩
      have none_ : readyStates held = [] := by
        apply List.eq_nil_iff_forall_not_mem.mpr
        intro state ready
        obtain ⟨item, due, -⟩ := ran.ready.mp (List.mem_map.mpr ⟨state, ready, rfl⟩)
        exact settled item due
      have same := fun k => ran.advances.kept k fun item due => absurd due (settled item)
      exact ⟨held, (states_congr same).trans ran.track, none_, ran.marked.still⟩

theorem markRows_still {runId : String} {d : CorrelationWaitDiagnostic} {rows : List ProcessRow}
    (still : ∀ row ∈ rows, Still d row) : markRows runId d rows = pure () := by
  induction rows with
  | nil => rfl
  | cons row rest ih =>
    show (markRow runId d row >>= fun _ => markRows runId d rest) = pure ()
    rw [still row List.mem_cons_self runId, ih fun r member => still r (.tail _ member)]
    rfl

theorem Rested.round (rested : Rested plan db) (known : RunKnown db plan.runId) :
    advanceRound (reconciliation digest plan) db = (.ok false, db) := by
  obtain ⟨held, track, none_, still⟩ := rested
  have read : (listProcesses plan.runId).eval db = (.ok (listed db plan.runId), db) :=
    listProcesses_ok.mpr ⟨known, rfl, rfl⟩
  have computes : (reconciliation digest plan).round (listed db plan.runId) =
      .ok ⟨[], waitDiagnostic (advanceCorrelationStates literals held)⟩ := by
    show Advance.round digest plan (listed db plan.runId) = _
    refine Schema.bind_ok.mpr ⟨held, track, ?_⟩
    simp only [advanceCorrelationStates, none_]
    rfl
  have marks : (persistWaitDiagnostic plan.runId (waitDiagnostic (advanceCorrelationStates literals held))).eval db =
      (.ok (), db) := by
    refine bind_ok.mpr ⟨_, _, read, transact_ok.mpr ?_⟩
    rw [markRows_still still]
    exact pure_ok.mpr ⟨rfl, rfl⟩
  refine Session.bind_ok.mpr ⟨_, _, read, Session.bind_ok.mpr ⟨_, _, Session.of_ok.mpr ⟨computes, rfl⟩, ?_⟩⟩
  refine Session.bind_ok.mpr ⟨([], false), _, Session.pure_ok.mpr ⟨rfl, rfl⟩, ?_⟩
  refine Session.bind_ok.mpr ⟨(), db, ?_, Session.bind_ok.mpr ⟨(), db, marks, Session.pure_ok.mpr ⟨rfl, rfl⟩⟩⟩
  exact Session.program_ok.mpr (pure_ok.mpr ⟨rfl, rfl⟩)

end Round

end Advance
end Fala.Correlation
