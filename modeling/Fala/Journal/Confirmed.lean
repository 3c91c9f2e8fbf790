import Fala.Journal.Compensation

/-! At most one confirmation of an effect, and only of the identity that was intended. -/

namespace Fala.Journal
open Durable Program

/-- The arguments of one `reconcile_effect`, with how many of its statements succeed. -/
structure EffectCall where
  runId : String
  intent : EffectIntent
  observation : EffectObservation
  at_ : String
  faults : Option Nat

namespace EffectCall

def program (call : EffectCall) : Sql EffectDecision :=
  reconcileEffect call.runId call.intent call.observation call.at_

def result (call : EffectCall) (db : Database) : Except String EffectDecision :=
  (call.program.run ⟨db, call.faults⟩).1

def left (call : EffectCall) (db : Database) : Database := (call.program.run ⟨db, call.faults⟩).2.store

def confirmation (call : EffectCall) : Json := call.intent.confirmation call.observation

end EffectCall

/-- The commands of one type whose payload names an idempotency key. -/
def effectCommands (db : Database) (commandType runId key : String) : List CommandRow :=
  db.commands.rows.filter fun row =>
    row.commandType = commandType ∧ row.runId = runId ∧
      row.payload.parse.bind (·.member "idempotency_key") = some (.str key)

/-- A journal after calls of `reconcile_effect`, each with what it decided. Between the calls others may write, though
    no command of the two types. -/
inductive Reconciled : List (EffectCall × Except String EffectDecision) → Database → Prop where
  | opened : Reconciled [] .empty
  | called {calls : List (EffectCall × Except String EffectDecision)} {db : Database} (history : Reconciled calls db)
      (call : EffectCall) : Reconciled (calls ++ [(call, call.result db)]) (call.left db)
  | written {calls : List (EffectCall × Except String EffectDecision)} {db after : Database} {more : List CommandRow}
      (history : Reconciled calls db) (appended : after.commands.rows = db.commands.rows ++ more)
      (others : ∀ row ∈ more, row.commandType ≠ "effect.intent" ∧ row.commandType ≠ "effect.confirm") :
      Reconciled calls after

/-- What the calls of one journal have to agree on. -/
structure ConfirmsOnce (calls : List (EffectCall × Except String EffectDecision)) (db : Database) : Prop where
  intendedOnce : ∀ runId key, (effectCommands db "effect.intent" runId key).length ≤ 1
  confirmedOnce : ∀ runId key, (effectCommands db "effect.confirm" runId key).length ≤ 1
  acts : ∀ call d, (call, .ok d) ∈ calls → d.action = "act" →
    ∃ row ∈ effectCommands db "effect.intent" call.runId call.intent.idempotencyKey,
      row.payload = .printed call.intent.toJson
  intended : ∀ row ∈ db.commands.rows, row.commandType = "effect.confirm" → ∃ call d, (call, .ok d) ∈ calls ∧
    row ∈ effectCommands db "effect.confirm" call.runId call.intent.idempotencyKey ∧
    row.payload = .printed call.confirmation ∧ call.observation.evidenceRef ≠ "" ∧
    ∃ intent ∈ effectCommands db "effect.intent" call.runId call.intent.idempotencyKey,
      intent.payload.parse.bind (·.member "desired_identity") = some call.observation.identity
  same : ∀ first second d d', (first, .ok d) ∈ calls → (second, .ok d') ∈ calls → first.runId = second.runId →
    first.intent.idempotencyKey = second.intent.idempotencyKey → d.action = "confirm" → d'.action = "confirm" →
      d.confirmation = d'.confirmation
  raises : ∀ (call : EffectCall) message, call.result db = .error message → ∀ runId key,
    effectCommands (call.left db) "effect.confirm" runId key = effectCommands db "effect.confirm" runId key

/-- The row is the command of one type that a payload was recorded in. -/
structure EffectRow (runId commandType key : String) (payload : Json) (row : CommandRow) : Prop where
  runId : row.runId = runId
  commandType : row.commandType = commandType
  key : row.idempotencyKey = key
  payload : row.payload = .printed payload

/-- The commands of a journal with some more at their end. -/
def MoreCommands (db after : Database) (fresh : CommandRow → Prop) : Prop :=
  ∃ more, after.commands.rows = db.commands.rows ++ more ∧ ∀ row ∈ more, fresh row

namespace MoreCommands

variable {db middle after : Database} {fresh other : CommandRow → Prop}

theorem refl (db : Database) : MoreCommands db db fresh := ⟨[], (List.append_nil _).symm, by simp⟩

theorem trans (first : MoreCommands db middle fresh) (rest : MoreCommands middle after fresh) : MoreCommands db after fresh := by
  obtain ⟨more, appended, all⟩ := first
  obtain ⟨more', appended', all'⟩ := rest
  refine ⟨more ++ more', by rw [appended', appended, List.append_assoc], fun row member => ?_⟩
  rcases List.mem_append.mp member with member | member
  · exact all row member
  · exact all' row member

theorem imp (grown : MoreCommands db after fresh) (weaker : ∀ row, fresh row → other row) : MoreCommands db after other := by
  obtain ⟨more, appended, all⟩ := grown
  exact ⟨more, appended, fun row member => weaker row (all row member)⟩

theorem kept (grown : MoreCommands db after fresh) {row : CommandRow} (member : row ∈ db.commands.rows) :
    row ∈ after.commands.rows := by
  obtain ⟨more, appended, -⟩ := grown
  rw [appended]
  exact List.mem_append_left _ member

theorem mem (grown : MoreCommands db after fresh) {row : CommandRow} (member : row ∈ after.commands.rows) :
    row ∈ db.commands.rows ∨ fresh row := by
  obtain ⟨more, appended, all⟩ := grown
  rw [appended] at member
  exact (List.mem_append.mp member).imp_right (all row)

theorem filter_eq (grown : MoreCommands db after fresh) {p : CommandRow → Bool} (apart : ∀ row, fresh row → p row = false) :
    after.commands.rows.filter p = db.commands.rows.filter p := by
  obtain ⟨more, appended, all⟩ := grown
  have none_more : more.filter p = [] := by
    apply List.filter_eq_nil_iff.mpr
    intro row member
    rw [apart row (all row member)]
    exact Bool.false_ne_true
  rw [appended, List.filter_append, none_more, List.append_nil]

end MoreCommands

section
variable {runId commandType key conflict at_ : String} {payload : Json}

theorem appendCommand_rollsBack (c : CommandAppend) (db : Database) : (appendCommand c).RollsBack db :=
  .afterRead (requireRun_reads _) fun _ => .require (.transact _ _)

theorem recordEffect_rollsBack (db : Database) :
    (recordEffect runId commandType key payload conflict at_).RollsBack db := by
  refine .afterRead (commandByKey_reads _ _) fun found => ?_
  cases found with
  | some existing => exact .ofReadOnly (.bind (.require _ _) fun _ => .pure _)
  | none => exact .thenReturn (appendCommand_rollsBack _ db)

theorem recordEffect_ok {known : Bool} {db after : Database}
    (recorded : (recordEffect runId commandType key payload conflict at_).eval db = (.ok known, after)) :
    MoreCommands db after (EffectRow runId commandType key payload) ∧
      ∃ row ∈ after.commands.rows, EffectRow runId commandType key payload row := by
  simp only [recordEffect, bind_ok, commandByKey_ok] at recorded
  obtain ⟨found, _, ⟨here, rfl⟩, recorded⟩ := recorded
  cases found with
  | some existing =>
    simp only [bind_ok, require_ok, pure_ok, decide_eq_true_eq] at recorded
    obtain ⟨_, _, ⟨same, rfl⟩, -, rfl⟩ := recorded
    obtain ⟨stored, unique⟩ := Ledger.find?_some.mp here
    have keys := Prod.ext_iff.mp unique
    exact ⟨.refl _, existing, stored, keys.1, same.1, keys.2, same.2⟩
  | none =>
    simp only [appendCommand, bind_ok, require_ok, transact_ok, commandByKey_ok, pure_ok] at recorded
    obtain ⟨_, _, ⟨_, _, read, _, _, ⟨-, rfl⟩, _, _, ⟨again, rfl⟩, recorded⟩, -, rfl⟩ := recorded
    have same := (requireRun_reads runId).eval db
    rw [read] at same
    obtain rfl : _ = db := same
    rw [← again, here] at recorded
    simp only [bind_ok, pure_ok] at recorded
    obtain ⟨_, _, command, -, rfl⟩ := recorded
    obtain ⟨commands, rows, rfl⟩ := insertCommand_rows command
    have fresh : EffectRow runId commandType key payload
        (CommandAppend.row ⟨runId, key, commandType, key, .printed payload, at_, "effect-protocol", "", ""⟩) :=
      ⟨rfl, rfl, rfl, rfl⟩
    refine ⟨⟨_, rows, by simpa using fresh⟩, _, ?_, fresh⟩
    change _ ∈ commands.rows
    rw [rows]
    simp
end

namespace EffectCall

variable {call : EffectCall} {db : Database}

def IntentRow (call : EffectCall) : CommandRow → Prop :=
  EffectRow call.runId "effect.intent" call.intent.intentKey call.intent.toJson

def ConfirmRow (call : EffectCall) : CommandRow → Prop :=
  EffectRow call.runId "effect.confirm" call.intent.confirmKey call.confirmation

/-- The call observed the desired identity, with evidence. -/
structure Matches (call : EffectCall) : Prop where
  observed : call.observation.state = .matching
  identity : call.observation.identity = call.intent.desiredIdentity
  evidence : call.observation.evidenceRef ≠ ""

/-- What a call that returns has decided and recorded. -/
structure Settled (call : EffectCall) (db after : Database) (d : EffectDecision) : Prop where
  intent : ∃ row ∈ after.commands.rows, call.IntentRow row
  grown : MoreCommands db after fun row => call.IntentRow row ∨ call.Matches ∧ call.ConfirmRow row ∧ d.action = "confirm"
  decided : d.action = "act" ∨
    d = ⟨"confirm", true, some call.confirmation⟩ ∧ ∃ row ∈ after.commands.rows, call.ConfirmRow row

theorem settled {d : EffectDecision} (returned : call.result db = .ok d) : call.Settled db (call.left db) d := by
  have ran : call.program.run ⟨db, call.faults⟩ = (.ok d, (call.program.run ⟨db, call.faults⟩).2) :=
    Prod.ext returned rfl
  have evaluated := eval_of_run ran
  change call.program.eval db = (.ok d, call.left db) at evaluated
  generalize call.left db = after at evaluated ⊢
  simp only [program, reconcileEffect, recordEffectIntent, bind_ok] at evaluated
  obtain ⟨known, middle, recorded, evaluated⟩ := evaluated
  obtain ⟨grown, row, stored, intended⟩ := recordEffect_ok recorded
  cases seen : call.observation.state with
  | conflicting =>
    simp only [seen] at evaluated
    exact absurd evaluated raise_ok
  | absent =>
    simp only [seen, pure_ok] at evaluated
    obtain ⟨rfl, rfl⟩ := evaluated
    exact ⟨⟨row, stored, intended⟩, grown.imp fun _ => .inl, .inl rfl⟩
  | matching =>
    simp only [seen, bind_ok, require_ok, decide_eq_true_eq, pure_ok] at evaluated
    obtain ⟨_, _, ⟨identity, rfl⟩, _, _, ⟨evidence, rfl⟩, again, last, confirmed, rfl, rfl⟩ := evaluated
    obtain ⟨grown', row', stored', confirms⟩ := recordEffect_ok confirmed
    refine ⟨⟨row, grown'.kept stored, intended⟩, ?_, .inr ⟨rfl, row', stored', confirms⟩⟩
    apply MoreCommands.trans (grown.imp fun _ => .inl)
    exact grown'.imp fun _ fresh => .inr ⟨⟨seen, identity, evidence⟩, fresh, rfl⟩

theorem raised {message : String} (raised : call.result db = .error message) :
    MoreCommands db (call.left db) call.IntentRow := by
  have ran : call.program.run ⟨db, call.faults⟩ = (.error message, (call.program.run ⟨db, call.faults⟩).2) :=
    Prod.ext raised rfl
  change MoreCommands db (call.program.run ⟨db, call.faults⟩).2.store call.IntentRow
  generalize (call.program.run ⟨db, call.faults⟩).2 = after at ran ⊢
  simp only [program, reconcileEffect, recordEffectIntent, run_bind] at ran
  split at ran
  · rename_i known middle recorded
    obtain ⟨grown, -⟩ := recordEffect_ok (eval_of_run recorded)
    -- the intent is there; nothing after it both writes and raises
    have kept : after.store = middle.store := by
      obtain ⟨store, faults⟩ := middle
      cases seen : call.observation.state with
      | conflicting =>
        simp only [seen] at ran
        exact RollsBack.raise _ faults message after ran
      | absent =>
        simp only [seen] at ran
        exact RollsBack.ofReadOnly (.pure _) faults message after ran
      | matching =>
        simp only [seen] at ran
        exact RollsBack.require (.require (.thenReturn (recordEffect_rollsBack store))) faults message after ran
    rw [kept]
    exact grown
  · rename_i failed middle recorded
    obtain ⟨-, rfl⟩ := Prod.mk.inj ran
    rw [recordEffect_rollsBack db call.faults _ _ recorded]
    exact .refl db

end EffectCall

/-- Every command of the two types is one that a call recorded, and every decision has its commands. -/
structure EffectLedger (calls : List (EffectCall × Except String EffectDecision)) (db : Database) : Prop where
  intents : ∀ row ∈ db.commands.rows, row.commandType = "effect.intent" → ∃ intent : EffectIntent,
    row.idempotencyKey = intent.intentKey ∧ row.payload = .printed intent.toJson
  confirms : ∀ row ∈ db.commands.rows, row.commandType = "effect.confirm" → ∃ call d, (call, .ok d) ∈ calls ∧
    EffectCall.Matches call ∧ call.ConfirmRow row
  decided : ∀ call d, (call, .ok d) ∈ calls → (∃ row ∈ db.commands.rows, EffectCall.IntentRow call row) ∧
    (d.action = "act" ∨
      d = ⟨"confirm", true, some call.confirmation⟩ ∧ ∃ row ∈ db.commands.rows, call.ConfirmRow row)

namespace EffectLedger

variable {calls : List (EffectCall × Except String EffectDecision)} {db after : Database}

theorem opened : EffectLedger [] .empty where
  intents _ member := nomatch member
  confirms _ member := nomatch member
  decided _ _ member := nomatch member

theorem written {fresh : CommandRow → Prop} (ledger : EffectLedger calls db) (grown : MoreCommands db after fresh)
    (others : ∀ row, fresh row → row.commandType ≠ "effect.intent" ∧ row.commandType ≠ "effect.confirm") :
    EffectLedger calls after where
  intents row member type := by
    rcases grown.mem member with member | new
    · exact ledger.intents row member type
    · exact absurd type (others row new).1
  confirms row member type := by
    rcases grown.mem member with member | new
    · exact ledger.confirms row member type
    · exact absurd type (others row new).2
  decided call d member := by
    obtain ⟨⟨row, stored, intended⟩, decided⟩ := ledger.decided call d member
    refine ⟨⟨row, grown.kept stored, intended⟩, decided.imp_right ?_⟩
    exact And.imp_right fun ⟨row, stored, confirmed⟩ => ⟨row, grown.kept stored, confirmed⟩

theorem raised (ledger : EffectLedger calls db) {call : EffectCall} {message : String}
    (raised : call.result db = .error message) : EffectLedger (calls ++ [(call, .error message)]) (call.left db) := by
  have grown := EffectCall.raised raised
  constructor
  · intro row member type
    rcases grown.mem member with member | new
    · exact ledger.intents row member type
    · exact ⟨call.intent, new.key, new.payload⟩
  · intro row member type
    rcases grown.mem member with member | new
    · obtain ⟨earlier, d, recorded, confirmed⟩ := ledger.confirms row member type
      exact ⟨earlier, d, List.mem_append_left _ recorded, confirmed⟩
    · rw [new.commandType] at type
      simp at type
  · intro earlier d member
    have recorded : (earlier, .ok d) ∈ calls := by simpa using member
    obtain ⟨⟨row, stored, intended⟩, decided⟩ := ledger.decided earlier d recorded
    refine ⟨⟨row, grown.kept stored, intended⟩, decided.imp_right ?_⟩
    exact And.imp_right fun ⟨row, stored, confirmed⟩ => ⟨row, grown.kept stored, confirmed⟩

theorem returned (ledger : EffectLedger calls db) {call : EffectCall} {d : EffectDecision}
    (returned : call.result db = .ok d) : EffectLedger (calls ++ [(call, .ok d)]) (call.left db) := by
  obtain ⟨intent, grown, decision⟩ := EffectCall.settled returned
  constructor
  · intro row member type
    rcases grown.mem member with member | new | ⟨-, new, -⟩
    · exact ledger.intents row member type
    · exact ⟨call.intent, new.key, new.payload⟩
    · rw [new.commandType] at type
      simp at type
  · intro row member type
    rcases grown.mem member with member | new | ⟨matched, new, -⟩
    · obtain ⟨earlier, d', recorded, confirmed⟩ := ledger.confirms row member type
      exact ⟨earlier, d', List.mem_append_left _ recorded, confirmed⟩
    · rw [new.commandType] at type
      simp at type
    · exact ⟨call, d, List.mem_append_right _ (List.mem_singleton_self _), matched, new⟩
  · intro earlier d' member
    rcases List.mem_append.mp member with recorded | own
    · obtain ⟨⟨row, stored, intended⟩, decided⟩ := ledger.decided earlier d' recorded
      refine ⟨⟨row, grown.kept stored, intended⟩, decided.imp_right ?_⟩
      exact And.imp_right fun ⟨row, stored, confirmed⟩ => ⟨row, grown.kept stored, confirmed⟩
    · obtain ⟨rfl, same⟩ := Prod.mk.inj (List.mem_singleton.mp own)
      obtain rfl := Except.ok.inj same
      exact ⟨intent, decision⟩

theorem ofReconciled (history : Reconciled calls db) : EffectLedger calls db := by
  induction history with
  | opened => exact opened
  | @called calls db _ call ledger =>
    cases result : call.result db with
    | ok d => exact ledger.returned result
    | error message => exact ledger.raised result
  | written _ appended others ledger => exact ledger.written ⟨_, appended, fun _ => id⟩ others

end EffectLedger

theorem EffectIntent.member_key (intent : EffectIntent) :
    intent.toJson.member "idempotency_key" = some (.str intent.idempotencyKey) := by
  simp [toJson, Json.member, Json.lookup]

theorem EffectIntent.member_desired (intent : EffectIntent) :
    intent.toJson.member "desired_identity" = some intent.desiredIdentity := by
  simp [toJson, Json.member, Json.lookup]

theorem EffectCall.member_key (call : EffectCall) :
    call.confirmation.member "idempotency_key" = some (.str call.intent.idempotencyKey) := by
  rw [confirmation, EffectIntent.confirmation, Json.member_canonical]
  simp [Json.member, Json.lookup, Json.canonical]

theorem mem_effectCommands {db : Database} {commandType runId key : String} {row : CommandRow} {payload : Json}
    (stored : row ∈ db.commands.rows) (type : row.commandType = commandType) (run : row.runId = runId)
    (told : row.payload = .printed payload) (named : payload.member "idempotency_key" = some (.str key)) :
    row ∈ effectCommands db commandType runId key := by
  simp [effectCommands, stored, type, run, told, named]

/-- However often and in whatever order effects are reconciled, an effect is confirmed once, and only as the identity
    that was intended. -/
theorem reconcileEffect_confirms_once {calls : List (EffectCall × Except String EffectDecision)} {db : Database}
    (history : Reconciled calls db) : ConfirmsOnce calls db := by
  have ledger := EffectLedger.ofReconciled history
  have confirmRow : ∀ {call : EffectCall} {row : CommandRow}, row ∈ db.commands.rows → call.ConfirmRow row →
      row ∈ effectCommands db "effect.confirm" call.runId call.intent.idempotencyKey := fun stored row =>
    mem_effectCommands stored row.commandType row.runId row.payload (EffectCall.member_key _)
  have intentRow : ∀ {call : EffectCall} {row : CommandRow}, row ∈ db.commands.rows → call.IntentRow row →
      row ∈ effectCommands db "effect.intent" call.runId call.intent.idempotencyKey := fun stored row =>
    mem_effectCommands stored row.commandType row.runId row.payload (EffectIntent.member_key _)
  constructor
  · intro runId key
    apply Ledger.filter_length_le (k := (runId, "effect.intent:" ++ key))
    intro row stored selected
    obtain ⟨type, run, named⟩ := of_decide_eq_true selected
    obtain ⟨intent, own, told⟩ := ledger.intents row stored type
    rw [told, Text.parse_printed, Option.bind_some, intent.member_key] at named
    have same : intent.idempotencyKey = key := Json.str.inj (Option.some.inj named)
    exact Prod.ext run (own.trans (congrArg _ same))
  · intro runId key
    apply Ledger.filter_length_le (k := (runId, "effect.confirm:" ++ key))
    intro row stored selected
    obtain ⟨type, run, named⟩ := of_decide_eq_true selected
    obtain ⟨call, d, -, -, confirmed⟩ := ledger.confirms row stored type
    rw [confirmed.payload, Text.parse_printed, Option.bind_some, call.member_key] at named
    have same : call.intent.idempotencyKey = key := Json.str.inj (Option.some.inj named)
    exact Prod.ext run (confirmed.key.trans (congrArg _ same))
  · intro call d member _
    obtain ⟨⟨row, stored, intended⟩, -⟩ := ledger.decided call d member
    exact ⟨row, intentRow stored intended, intended.payload⟩
  · intro row stored type
    obtain ⟨call, d, member, matched, confirmed⟩ := ledger.confirms row stored type
    obtain ⟨⟨intent, there, intended⟩, -⟩ := ledger.decided call d member
    refine ⟨call, d, member, confirmRow stored confirmed, confirmed.payload, matched.evidence, intent,
      intentRow there intended, ?_⟩
    rw [intended.payload, Text.parse_printed, Option.bind_some, call.intent.member_desired, matched.identity]
  · intro first second d d' member member' run key confirms confirms'
    have stored : ∀ call e, (call, .ok e) ∈ calls → e.action = "confirm" →
        e.confirmation = some call.confirmation ∧ ∃ row ∈ db.commands.rows, EffectCall.ConfirmRow call row := by
      intro call e recorded confirm
      rcases (ledger.decided call e recorded).2 with act | ⟨rfl, there⟩
      · rw [confirm] at act
        simp at act
      · exact ⟨rfl, there⟩
    obtain ⟨told, row, there, confirmed⟩ := stored first d member confirms
    obtain ⟨told', row', there', confirmed'⟩ := stored second d' member' confirms'
    -- both rows are under the one key of the ledger
    have under : row.unique = row'.unique := by
      apply Prod.ext
      · exact confirmed.runId.trans (run.trans confirmed'.runId.symm)
      · refine confirmed.key.trans (Eq.trans ?_ confirmed'.key.symm)
        exact congrArg ("effect.confirm:" ++ ·) key
    have found := Ledger.find?_some.mpr ⟨there, under⟩
    have found' := Ledger.find?_some.mpr ⟨there', rfl⟩
    obtain rfl : row = row' := Option.some.inj (found.symm.trans found')
    have same : Text.printed first.confirmation = .printed second.confirmation :=
      confirmed.payload.symm.trans confirmed'.payload
    rw [told, told', Text.printed.inj same]
  · intro call message raised runId key
    apply (EffectCall.raised raised).filter_eq
    intro row new
    simp [new.commandType]

namespace EffectCall

/-- A draft is to be created; it is seen absent, and then present. -/
def createDraft (observation : EffectObservation) : EffectCall where
  runId := "r"
  intent := ⟨"draft-1", .obj [("id", .str "draft-1")], "create", by decide⟩
  observation := observation
  at_ := "t1"
  faults := none

def draftAbsent : EffectCall := createDraft { state := .absent }

def draftPresent : EffectCall := createDraft ⟨.matching, .obj [("id", .str "draft-1")], "evidence:present"⟩

end EffectCall

open EffectCall in
theorem reconcileEffect_confirms_draft_once :
    ∃ db : Database, db.commands.rows ≠ [] ∧
      ConfirmsOnce [(draftAbsent, .ok ⟨"act", false, none⟩),
        (draftPresent, .ok ⟨"confirm", true, some draftPresent.confirmation⟩)] db := by
  have start : Reconciled [] Compensation.oneRun := .written .opened rfl (by decide +kernel)
  have acts : draftAbsent.result Compensation.oneRun = .ok ⟨"act", false, none⟩ := by decide +kernel
  have confirms : draftPresent.result (draftAbsent.left Compensation.oneRun) =
      .ok ⟨"confirm", true, some draftPresent.confirmation⟩ := by decide +kernel
  have history := (start.called draftAbsent).called draftPresent
  rw [acts, confirms] at history
  exact ⟨_, by decide +kernel, reconcileEffect_confirms_once history⟩

end Fala.Journal
