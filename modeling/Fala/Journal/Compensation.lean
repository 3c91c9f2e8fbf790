import Fala.Durable.Focus
import Fala.Durable.Evaluation
import Fala.Journal.EffectProtocol
import Fala.Journal.Recording

/-! What successive reconciliations of one compensation decide. -/

namespace Fala.Journal
open Durable Program

/-- The commands of two journals are the same but for those under some keys, which are also their ids. -/
structure Beside (keys : List String) (db db' : Database) : Prop where
  runs : db.runs = db'.runs
  found : ∀ runId key, key ∉ keys → db.commandByKey runId key = db'.commandByKey runId key
  taken : ∀ runId id, id ∉ keys →
    ((runId, id) ∈ db.commands.rows.map CommandRow.key ↔ (runId, id) ∈ db'.commands.rows.map CommandRow.key)

namespace Beside

variable {keys : List String} {db db' db'' : Database}

theorem refl (keys : List String) (db : Database) : Beside keys db db := ⟨rfl, fun _ _ _ => rfl, fun _ _ _ => .rfl⟩

theorem trans (first : Beside keys db db') (rest : Beside keys db' db'') : Beside keys db db'' where
  runs := first.runs.trans rest.runs
  found runId key other := (first.found runId key other).trans (rest.found runId key other)
  taken runId id other := (first.taken runId id other).trans (rest.taken runId id other)

theorem commandByKey_append {commands : Ledger CommandRow.key CommandRow.unique} {row : CommandRow}
    (rows : commands.rows = db.commands.rows ++ [row]) (runId key : String) :
    (db.setCommands commands).commandByKey runId key =
      (db.commandByKey runId key).or (if row.unique = (runId, key) then some row else none) := by
  have appended : (db.setCommands commands).commandByKey runId key =
      (db.commands.rows ++ [row]).find? fun r => r.unique = (runId, key) := by
    rw [← rows]
    rfl
  rw [appended, List.find?_append]
  by_cases same : row.unique = (runId, key)
  · simp [same, Database.commandByKey, Ledger.find?]
  · simp [same, Database.commandByKey, Ledger.find?]

theorem appended {commands : Ledger CommandRow.key CommandRow.unique} {row : CommandRow}
    (rows : commands.rows = db.commands.rows ++ [row]) (id : row.id ∈ keys) (key : row.idempotencyKey ∈ keys) :
    Beside keys db (db.setCommands commands) where
  runs := rfl
  found runId k other := by
    have apart : row.unique ≠ (runId, k) := by
      intro same
      have sameKey : row.idempotencyKey = k := congrArg Prod.snd same
      exact other (sameKey ▸ key)
    rw [commandByKey_append rows, if_neg apart, Option.or_none]
  taken runId k other := by
    have apart : row.key ≠ (runId, k) := by
      intro same
      have sameId : row.id = k := congrArg Prod.snd same
      exact other (sameId ▸ id)
    change _ ↔ (runId, k) ∈ commands.rows.map CommandRow.key
    rw [rows]
    simp [Ne.symm apart]

theorem both {commands commands' : Ledger CommandRow.key CommandRow.unique} {row : CommandRow}
    (beside : Beside keys db db') (rows : commands.rows = db.commands.rows ++ [row])
    (rows' : commands'.rows = db'.commands.rows ++ [row]) :
    Beside keys (db.setCommands commands) (db'.setCommands commands') where
  runs := beside.runs
  found runId key other := by
    rw [commandByKey_append rows, commandByKey_append rows', beside.found runId key other]
  taken runId id other := by
    change (_ ∈ commands.rows.map CommandRow.key) ↔ _ ∈ commands'.rows.map CommandRow.key
    rw [rows, rows', List.map_append, List.map_append, List.mem_append, List.mem_append,
      beside.taken runId id other]

end Beside

section
variable {keys : List String}

theorem requireRun_indifferent (runId : String) : Indifferent (Beside keys) (requireRun runId) :=
  .bind (.require _ _) fun _ => .bind (.fetch fun _ _ beside => by rw [beside.runs]) fun _ => .require _ _

theorem commandByKey_indifferent {runId key : String} (other : key ∉ keys) :
    Indifferent (Beside keys) (commandByKey runId key) :=
  .fetch fun _ _ beside => beside.found runId key other

theorem insertCommand_indifferent {row : CommandRow} (id : row.id ∉ keys) (key : row.idempotencyKey ∉ keys) :
    Indifferent (Beside keys) (insertCommand row) := by
  intro db db' beside
  have taken := beside.taken row.runId row.id id
  have unique : row.unique ∈ db.commands.rows.map CommandRow.unique ↔
      row.unique ∈ db'.commands.rows.map CommandRow.unique := by
    have same := beside.found row.runId row.idempotencyKey key
    rw [← not_iff_not, ← Ledger.find?_none, ← Ledger.find?_none]
    exact iff_of_eq (congrArg (· = none) same)
  simp only [insertCommand, execute, eval_statement]
  by_cases fresh : row.key ∉ db.commands.rows.map CommandRow.key ∧ row.unique ∉ db.commands.rows.map CommandRow.unique
  · have fresh' : row.key ∉ db'.commands.rows.map CommandRow.key ∧
        row.unique ∉ db'.commands.rows.map CommandRow.unique :=
      ⟨fun member => fresh.1 (taken.mpr member), fun member => fresh.2 (unique.mpr member)⟩
    obtain ⟨commands, appended, rows⟩ := Ledger.append?_of_fresh fresh.1 fresh.2
    obtain ⟨commands', appended', rows'⟩ := Ledger.append?_of_fresh fresh'.1 fresh'.2
    rw [appended, appended']
    exact ⟨rfl, beside.both rows rows'⟩
  · have refused : db.commands.append? row = none := by rw [Ledger.append?, dif_neg fresh]
    have refused' : db'.commands.append? row = none := by
      rw [Ledger.append?, dif_neg]
      intro fresh'
      exact fresh ⟨fun member => fresh'.1 (taken.mp member), fun member => fresh'.2 (unique.mp member)⟩
    rw [refused, refused']
    exact ⟨rfl, beside⟩

theorem appendCommand_indifferent {c : CommandAppend} (id : c.commandId ∉ keys) (key : c.idempotencyKey ∉ keys) :
    Indifferent (Beside keys) (appendCommand c) := by
  refine .bind (requireRun_indifferent _) fun _ => .bind (.require _ _) fun _ => .transact ?_ _
  refine .bind (commandByKey_indifferent key) fun found => ?_
  cases found with
  | some stored => exact .bind (.require _ _) fun _ => .pure _
  | none => exact .bind (insertCommand_indifferent id key) fun _ => .pure _

theorem recordEffect_indifferent {runId commandType key : String} {payload : Json} {conflict at_ : String}
    (other : key ∉ keys) : Indifferent (Beside keys) (recordEffect runId commandType key payload conflict at_) := by
  refine .bind (commandByKey_indifferent other) fun found => ?_
  cases found with
  | some existing => exact .bind (.require _ _) fun _ => .pure _
  | none => exact .bind (appendCommand_indifferent other other) fun _ => .pure _

theorem reconcileEffect_indifferent {runId : String} {intent : EffectIntent} {observation : EffectObservation}
    {at_ : String} (intended : intent.intentKey ∉ keys) (confirmed : intent.confirmKey ∉ keys) :
    Indifferent (Beside keys) (reconcileEffect runId intent observation at_) := by
  refine .bind (recordEffect_indifferent intended) fun _ => ?_
  cases observation.state with
  | conflicting =>
    intro db db' beside
    rw [eval_raise, eval_raise]
    exact ⟨rfl, beside⟩
  | absent => exact .pure _
  | matching =>
    exact .bind (.require _ _) fun _ => .bind (.require _ _) fun _ =>
      .bind (recordEffect_indifferent confirmed) fun _ => .pure _

theorem appendCommand_beside {c : CommandAppend} (id : c.commandId ∈ keys) (key : c.idempotencyKey ∈ keys)
    (db : Database) : (appendCommand c).Leaves db (Beside keys db) := by
  refine .ofSettles (.afterRead (requireRun_reads _) fun _ _ => .require fun _ => .transact fun _ db' h => ?_) (.refl _ _)
  simp only [bind_ok, commandByKey_ok] at h
  obtain ⟨_, _, ⟨rfl, rfl⟩, h⟩ := h
  cases found : db.commandByKey c.runId c.idempotencyKey with
  | some stored =>
    simp only [found, bind_ok, require_ok, pure_ok] at h
    obtain ⟨_, _, ⟨-, rfl⟩, -, rfl⟩ := h
    exact .refl _ _
  | none =>
    simp only [found, bind_ok, pure_ok] at h
    obtain ⟨_, _, command, -, rfl⟩ := h
    obtain ⟨commands, rows, rfl⟩ := insertCommand_rows command
    exact .appended rows id key

theorem recordEffect_beside {runId commandType key : String} {payload : Json} {conflict at_ : String}
    (own : key ∈ keys) (db : Database) :
    (recordEffect runId commandType key payload conflict at_).Leaves db (Beside keys db) := by
  refine .afterRead (commandByKey_reads _ _) (.refl _ _) fun found _ => ?_
  cases found with
  | some existing => exact .ofReadOnly (.bind (.require _ _) fun _ => .pure _) (.refl _ _)
  | none => exact Leaves.next (appendCommand_beside own own db) fun _ _ left => .ofReadOnly (.pure _) left

theorem reconcileEffect_beside {runId : String} {intent : EffectIntent} {observation : EffectObservation}
    {at_ : String} (intended : intent.intentKey ∈ keys) (confirmed : intent.confirmKey ∈ keys) (db : Database) :
    (reconcileEffect runId intent observation at_).Leaves db (Beside keys db) := by
  refine Leaves.next (recordEffect_beside intended db) fun _ s left => ?_
  cases observation.state with
  | conflicting => exact .ofReadOnly (.raise _) left
  | absent => exact .ofReadOnly (.pure _) left
  | matching =>
    refine .afterRead (.require _ _) left fun _ _ => .afterRead (.require _ _) left fun _ _ => ?_
    refine Leaves.next (fun faults => left.trans (recordEffect_beside confirmed s faults)) fun _ _ kept => ?_
    exact .ofReadOnly (.pure _) kept

end

namespace Compensation

/-- The observation and the time of one call. -/
abbrev Call := EffectObservation × String

def decision (c : Compensation) (call : Call) (journal : Connection Database) : Except String CompensationDecision :=
  ((reconcileCompensation c call.1 call.2).run journal).1

/-- The effect is observed, with the identity of its receipt and with evidence. -/
structure Confirmable (c : Compensation) (identity : Json) (call : Call) : Prop where
  object : identity.isObject = true
  observed : call.1.state = .matching
  identity : call.1.identity = identity.canonical
  evidence : call.1.evidenceRef ≠ ""

/-- What successive calls with one key, each on its own state of the journal, have to decide. -/
structure Reverses (c : Compensation) (calls : List Call) (journals : Nat → Connection Database) : Prop where
  compensated : ∀ i call d, calls[i]? = some call → c.decision call (journals i) = .ok d → d.terminal = "compensated" →
    call.1.state ≠ .matching ∧ ∃ j < i, ∃ earlier d', calls[j]? = some earlier ∧
      c.decision earlier (journals j) = .ok d' ∧ d'.action = "act"
  acts : ∀ i call d, calls[i]? = some call → call.1.state = .matching → c.decision call (journals i) = .ok d →
    d.action = "act"
  alreadyAbsent : ∀ i call d, calls[i]? = some call → c.decision call (journals i) = .ok d →
    d.terminal = "already_absent" → ∀ j < i, ∀ earlier, calls[j]? = some earlier → earlier.1.state ≠ .matching
  others : ∀ i call, calls[i]? = some call → ∀ (runId : String) (intent : EffectIntent) (seen : EffectObservation)
    (at_ : String), intent.idempotencyKey ≠ "compensation:" ++ c.idempotencyKey →
      ((reconcileEffect runId intent seen at_).eval
          ((reconcileCompensation c call.1 call.2).run (journals i)).2.store).1 =
        ((reconcileEffect runId intent seen at_).eval (journals i).store).1

/-- No call confirms the effect that it observes, and none finds it absent after one has observed it. -/
def Spared (c : Compensation) (calls : List Call) : Prop :=
  ∀ identity input, c.input = .ok (identity, input) →
    (∀ call ∈ calls, ¬ c.Confirmable identity call) ∧
      calls.Pairwise fun earlier later => earlier.1.state = .matching → later.1.state ≠ .absent

theorem key_ne (first last : String) : "effect.intent:" ++ first ≠ "effect.confirm:" ++ last := by
  intro same
  have letters := congrArg (fun text => text.toList.take 8) same
  simp [String.toList_append] at letters

/-- The keys of the commands that a compensation records. -/
def keys (c : Compensation) : List String :=
  ["effect.intent:" ++ ("compensation:" ++ c.idempotencyKey), "effect.confirm:" ++ ("compensation:" ++ c.idempotencyKey)]

theorem make_ok {key capability : String} {identity : Json} {intent : EffectIntent} :
    EffectIntent.make key (.printed identity.canonical) capability = .ok intent ↔
      identity.isObject = true ∧ intent.idempotencyKey = key ∧ intent.desiredIdentity = identity.canonical ∧
        intent.capability = capability ∧ key ≠ "" ∧ capability ≠ "" := by
  unfold EffectIntent.make
  by_cases keyed : key ≠ "" ∧ capability ≠ ""
  · rw [dif_pos keyed]
    cases identity with
    | obj members =>
      have printed : (Text.printed (Json.obj members).canonical).parse = some (Json.obj members).canonical := rfl
      have again := Json.canonical_canonical (.obj members)
      simp only [Json.canonical] at printed again ⊢
      rw [printed]
      simp only [again, Json.isObject, true_and]
      constructor
      · intro same
        cases same
        exact ⟨rfl, rfl, rfl, keyed⟩
      · rintro ⟨sameKey, sameIdentity, sameCapability, -⟩
        cases intent
        cases sameKey
        cases sameIdentity
        cases sameCapability
        rfl
    | null | bool _ | int _ | uint _ | float _ | str _ | arr _ => simp [Text.parse, Json.canonical, Json.isObject]
  · rw [dif_neg keyed]
    simp only [reduceCtorEq, false_iff]
    rintro ⟨-, -, -, -, given⟩
    exact keyed given

theorem reconcileCompensation_beside (c : Compensation) (call : Call) (db : Database) :
    (reconcileCompensation c call.1 call.2).Leaves db (Beside c.keys db) := by
  refine .afterRead (.ofExcept _) (.refl _ _) fun given _ => ?_
  obtain ⟨identity, input⟩ := given
  cases call.1.state with
  | absent => exact .ofReadOnly (.pure _) (.refl _ _)
  | conflicting => exact .ofReadOnly (.pure _) (.refl _ _)
  | matching =>
    refine .afterRead (.ofExcept _) (.refl _ _) fun intent made => ?_
    obtain ⟨-, key, -⟩ := make_ok.mp (ofExcept_ok.mp made).1
    have intended : intent.intentKey ∈ c.keys := by simp [keys, EffectIntent.intentKey, key]
    have confirmed : intent.confirmKey ∈ c.keys := by simp [keys, EffectIntent.confirmKey, key]
    refine Leaves.next (reconcileEffect_beside intended confirmed db) fun _ _ left => ?_
    split
    · exact .ofReadOnly (.pure _) left
    · exact .ofReadOnly (.pure _) left

theorem decision_ok {c : Compensation} {call : Call} {journal : Connection Database} {d : CompensationDecision}
    (decided : c.decision call journal = .ok d) :
    ∃ identity input, c.input = .ok (identity, input) ∧
      match call.1.state with
      | .absent => d = ⟨"already_absent", "confirm", input⟩
      | .conflicting => d = ⟨"compensation_failed", "fail", input⟩
      | .matching => d = ⟨"compensated", "confirm", input⟩ ∧ c.Confirmable identity call := by
  have returned : (reconcileCompensation c call.1 call.2).run journal =
      (.ok d, ((reconcileCompensation c call.1 call.2).run journal).2) := Prod.ext decided rfl
  have evaluated := eval_of_run returned
  generalize ((reconcileCompensation c call.1 call.2).run journal).2.store = left at evaluated
  simp only [reconcileCompensation, bind_ok, ofExcept_ok] at evaluated
  obtain ⟨⟨identity, input⟩, _, ⟨given, rfl⟩, evaluated⟩ := evaluated
  refine ⟨identity, input, given, ?_⟩
  cases seen : call.1.state with
  | absent =>
    simp only [seen, pure_ok] at evaluated
    exact evaluated.1.symm
  | conflicting =>
    simp only [seen, pure_ok] at evaluated
    exact evaluated.1.symm
  | matching =>
    simp only [seen, bind_ok, ofExcept_ok] at evaluated
    obtain ⟨intent, _, ⟨made, rfl⟩, decision, _, reconciled, evaluated⟩ := evaluated
    obtain ⟨object, -, desired, -⟩ := make_ok.mp made
    simp only [reconcileEffect, seen, bind_ok, require_ok, decide_eq_true_eq, pure_ok] at reconciled
    obtain ⟨_, _, recorded, _, _, ⟨same, rfl⟩, _, _, ⟨evidence, rfl⟩, _, _, -, rfl, -⟩ := reconciled
    have confirmed : ¬ "confirm" = "act" := by decide
    rw [if_neg confirmed, pure_ok] at evaluated
    exact ⟨evaluated.1.symm, object, seen, same.trans desired, evidence⟩

theorem decision_absent {c : Compensation} {identity input : Json} (given : c.input = .ok (identity, input))
    {call : Call} (absent : call.1.state = .absent) (journal : Connection Database) :
    c.decision call journal = .ok ⟨"already_absent", "confirm", input⟩ := by
  simp only [decision, reconcileCompensation, given, absent]
  rfl

/-- The effect that is observed for a second time: both commands are there. -/
def recorded (c : Compensation) (intent : EffectIntent) (seen : EffectObservation) : Database :=
  { Database.empty with
    commands :=
      ⟨[⟨c.runId, intent.intentKey, "effect.intent", intent.intentKey, "effect-protocol", "", "",
          .printed intent.toJson, "t0"⟩,
        ⟨c.runId, intent.confirmKey, "effect.confirm", intent.confirmKey, "effect-protocol", "", "",
          .printed (intent.confirmation seen), "t0"⟩],
        by simp [CommandRow.key, EffectIntent.intentKey, EffectIntent.confirmKey],
        by simp [CommandRow.unique, EffectIntent.intentKey, EffectIntent.confirmKey]⟩ }

theorem input_named {c : Compensation} {given : Json × Json} (read : c.input = .ok given) :
    c.compensationCapability ≠ "" ∧ c.idempotencyKey ≠ "" := by
  unfold input at read
  split at read
  · cases read
  · split at read
    · split at read
      · cases read
      · rename_i named
        exact ⟨fun empty => named (.inr (.inl empty)), fun empty => named (.inr (.inr empty))⟩
    · cases read

theorem recordEffect_found {runId commandType key conflict at_ : String} {payload : Json} {db : Database}
    {existing : CommandRow} (found : db.commandByKey runId key = some existing)
    (same : existing.commandType = commandType ∧ existing.payload = .printed payload) :
    (recordEffect runId commandType key payload conflict at_).eval db = (.ok true, db) := by
  simp only [recordEffect, bind_ok, commandByKey_ok]
  refine ⟨_, db, ⟨found, rfl⟩, ?_⟩
  simp only [bind_ok, require_ok, pure_ok]
  exact ⟨(), db, ⟨decide_eq_true same, rfl⟩, trivial, rfl⟩

theorem decision_confirmable {c : Compensation} {identity input : Json} (given : c.input = .ok (identity, input))
    {call : Call} (confirmable : c.Confirmable identity call) :
    ∃ journal, c.decision call journal = .ok ⟨"compensated", "confirm", input⟩ := by
  have keyed : "compensation:" ++ c.idempotencyKey ≠ "" ∧ c.compensationCapability ≠ "" := by
    refine ⟨fun empty => ?_, (input_named given).1⟩
    have letters := congrArg String.toList empty
    simp [String.toList_append] at letters
  let intent : EffectIntent := ⟨"compensation:" ++ c.idempotencyKey, identity.canonical, c.compensationCapability, keyed⟩
  have made : EffectIntent.make ("compensation:" ++ c.idempotencyKey) (.printed identity.canonical)
      c.compensationCapability = .ok intent := make_ok.mpr ⟨confirmable.object, rfl, rfl, rfl, keyed⟩
  have intended : (recordEffectIntent c.runId intent call.2).eval (c.recorded intent call.1) =
      (.ok true, c.recorded intent call.1) :=
    recordEffect_found (Ledger.find?_some.mpr ⟨List.mem_cons_self, rfl⟩) ⟨rfl, rfl⟩
  have confirmed : (recordEffect c.runId "effect.confirm" intent.confirmKey (intent.confirmation call.1)
      "effect.confirm: idempotency conflict" call.2).eval (c.recorded intent call.1) =
        (.ok true, c.recorded intent call.1) :=
    recordEffect_found (Ledger.find?_some.mpr ⟨List.mem_cons_of_mem _ List.mem_cons_self, rfl⟩) ⟨rfl, rfl⟩
  have reconciled : (reconcileEffect c.runId intent call.1 call.2).eval (c.recorded intent call.1) =
      (.ok ⟨"confirm", true, some (intent.confirmation call.1)⟩, c.recorded intent call.1) := by
    simp only [reconcileEffect, bind_ok, confirmable.observed, require_ok, pure_ok, decide_eq_true_eq]
    exact ⟨true, _, intended, (), _, ⟨confirmable.identity, rfl⟩, (), _, ⟨confirmable.evidence, rfl⟩, true, _, confirmed,
      trivial, rfl⟩
  have evaluated : (reconcileCompensation c call.1 call.2).eval (c.recorded intent call.1) =
      (.ok ⟨"compensated", "confirm", input⟩, c.recorded intent call.1) := by
    simp only [reconcileCompensation, bind_ok, ofExcept_ok]
    refine ⟨(identity, input), _, ⟨given, rfl⟩, ?_⟩
    simp only [confirmable.observed, bind_ok, ofExcept_ok]
    refine ⟨intent, _, ⟨made, rfl⟩, _, _, reconciled, ?_⟩
    have confirms : ¬ "confirm" = "act" := by decide
    rw [if_neg confirms, pure_ok]
    exact ⟨rfl, rfl⟩
  exact ⟨⟨c.recorded intent call.1, none⟩, congrArg Prod.fst evaluated⟩

theorem others_unaffected (c : Compensation) (call : Call) (journal : Connection Database) (runId : String)
    (intent : EffectIntent) (seen : EffectObservation) (at_ : String)
    (other : intent.idempotencyKey ≠ "compensation:" ++ c.idempotencyKey) :
    ((reconcileEffect runId intent seen at_).eval ((reconcileCompensation c call.1 call.2).run journal).2.store).1 =
      ((reconcileEffect runId intent seen at_).eval journal.store).1 := by
  have intended : intent.intentKey ∉ c.keys := by
    simp only [keys, EffectIntent.intentKey, List.mem_cons, List.not_mem_nil, or_false, not_or]
    exact ⟨fun same => other (String.append_right_inj _ |>.mp same), key_ne _ _⟩
  have confirmed : intent.confirmKey ∉ c.keys := by
    simp only [keys, EffectIntent.confirmKey, List.mem_cons, List.not_mem_nil, or_false, not_or]
    exact ⟨(key_ne _ _).symm, fun same => other (String.append_right_inj _ |>.mp same)⟩
  have beside : Beside c.keys journal.store ((reconcileCompensation c call.1 call.2).run journal).2.store :=
    reconcileCompensation_beside c call journal.store journal.faults
  exact (reconcileEffect_indifferent intended confirmed _ _ beside).1.symm

theorem reverses_of_spared {c : Compensation} {calls : List Call} (spared : c.Spared calls)
    (journals : Nat → Connection Database) : c.Reverses calls journals where
  compensated i call d here decided terminal := by
    obtain ⟨identity, input, given, decision⟩ := decision_ok decided
    cases seen : call.1.state with
    | absent =>
      simp only [seen] at decision
      subst decision
      simp at terminal
    | conflicting =>
      simp only [seen] at decision
      subst decision
      simp at terminal
    | matching =>
      simp only [seen] at decision
      exact absurd decision.2 ((spared _ _ given).1 call (List.mem_of_getElem? here))
  acts i call d here seen decided := by
    obtain ⟨identity, input, given, decision⟩ := decision_ok decided
    simp only [seen] at decision
    exact absurd decision.2 ((spared _ _ given).1 call (List.mem_of_getElem? here))
  alreadyAbsent i call d here decided terminal j before earlier there := by
    obtain ⟨identity, input, given, decision⟩ := decision_ok decided
    intro observed
    have absent : call.1.state = .absent := by
      cases seen : call.1.state with
      | absent => rfl
      | conflicting =>
        simp only [seen] at decision
        subst decision
        simp at terminal
      | matching =>
        simp only [seen] at decision
        rw [decision.1] at terminal
        simp at terminal
    have ordered := List.pairwise_iff_getElem.mp (spared _ _ given).2
    obtain ⟨inside, atI⟩ := List.getElem?_eq_some_iff.mp here
    obtain ⟨inside', atJ⟩ := List.getElem?_eq_some_iff.mp there
    have later := ordered j i inside' inside before
    rw [atI, atJ] at later
    exact later observed absent
  others _ call _ := others_unaffected c call _

/-- Over every state of the journal, a compensation reverses exactly the effects that are present when no call can
    confirm one and none finds it absent after it was observed. -/
theorem reverses_iff (c : Compensation) (calls : List Call) :
    (∀ journals, c.Reverses calls journals) ↔ c.Spared calls := by
  constructor
  · intro reverses identity input given
    constructor
    · intro call member confirmable
      obtain ⟨i, here⟩ := List.getElem?_of_mem member
      obtain ⟨journal, decided⟩ := decision_confirmable given confirmable
      have acts := (reverses fun _ => journal).acts i call _ here confirmable.observed decided
      simp at acts
    · apply List.pairwise_iff_getElem.mpr
      intro j i insideJ insideI before observed absent
      have decided := decision_absent given absent ⟨.empty, none⟩
      exact (reverses fun _ => ⟨.empty, none⟩).alreadyAbsent i _ _ (List.getElem?_eq_getElem insideI) decided rfl j before
        _ (List.getElem?_eq_getElem insideJ) observed
  · exact reverses_of_spared

/-- The draft of one receipt, to be removed. -/
def undoDraft : Compensation where
  runId := "r"
  effectConfirmationJson := .printed (.obj [("authoritative_identity", .obj [("id", .str "draft-1")]),
    ("evidence_ref", .str "evidence:create")])
  compensationPathId := "undo"
  compensationCapability := "remove"
  idempotencyKey := "undo-draft-1"

def draftPresent : Call := (⟨.matching, .obj [("id", .str "draft-1")], "evidence:present"⟩, "t1")

def oneRun : Database :=
  ((createRun { runId := "r", status := "active", metadata := "\x7b\x7d", createdAt := "t" }).eval .empty).2

/-- The effect is observed present in a journal with a run, and is at once taken to be compensated. -/
theorem reverses_nothing :
    ¬ ∀ (c : Compensation) (calls : List Call) (journals : Nat → Connection Database), c.Reverses calls journals := by
  intro reverses
  have decided : undoDraft.decision draftPresent ⟨oneRun, none⟩ =
      .ok ⟨"compensated", "confirm", undoDraft.input.toOption.get!.2⟩ := by decide +kernel
  have acts := (reverses undoDraft [draftPresent] fun _ => ⟨oneRun, none⟩).acts 0 draftPresent _ rfl rfl decided
  simp at acts

end Compensation

end Fala.Journal
