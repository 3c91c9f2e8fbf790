import Fala.Bridge.Attempts
import Fala.Bridge.Repeat

/-! Retries and deliveries of one delivery by several connections, in every order of their
    stages. -/

namespace Fala.Bridge
open Durable Journal Domain Program

/-- Where a delivery is stored. -/
structure DeliveryPlace where
  table : BridgeTable
  runId : String
  deliveryId : String
  deriving DecidableEq

def DeliveryCall.place (c : DeliveryCall) : DeliveryPlace := ⟨c.table, c.runId, c.deliveryId⟩

def DeliveryPlace.row (p : DeliveryPlace) (db : Database) : Option BridgeDelivery :=
  (p.table.table.read db).find? (p.runId, p.deliveryId)

/-- What the transaction of a call makes of the row. -/
def AttemptCall.written (current : BridgeDelivery) (budget : RuntimeBudget) (d : BridgeDelivery) :
    AttemptCall → BridgeDelivery
  | retry c => { d with attempts := d.attempts + 1, updatedAt := c.updatedAt }
  | deliver c =>
    { d with
      budget, status := "delivered", attempts := current.attempts + 1, updatedAt := c.updatedAt }

theorem consumeDelivery_attempts {b b' : RuntimeBudget} (consumed : b.consumeDelivery = some b') :
    b'.attempts = b.attempts := by
  unfold RuntimeBudget.consumeDelivery at consumed
  split at consumed
  · cases consumed
    rfl
  · cases consumed

theorem validateBridgeBudget_attempts {row : BridgeDelivery} {u : Unit}
    (valid : validateBridgeBudget row true = .ok u) :
    row.budget.attempts.all (row.attempts + 1 ≤ ·) = true := by
  unfold validateBridgeBudget at valid
  split at valid
  · cases valid
  · split at valid
    · cases valid
    · split at valid
      · cases valid
      · rename_i within
        cases limit : row.budget.attempts with
        | none => rfl
        | some n =>
          have kept : ¬ n < row.attempts + 1 := by simpa [limit] using within
          have bounded : row.attempts + 1 ≤ n := by omega
          simpa using bounded

/-- What a call holds of the row and its run while the limit of attempts is `limit`. -/
def Phase.Fits (limit : Option Int) (runId : String) (db : Database) : Phase → Prop
  | .read current => RunKnown db runId ∧ current.budget.attempts = limit
  | .checked current budget =>
    RunKnown db runId ∧ budget.attempts = limit ∧ limit.all (current.attempts + 1 ≤ ·) = true
  | .committed => RunKnown db runId
  | _ => True

theorem Phase.Fits.runs {limit : Option Int} {runId : String} {db db' : Database} {phase : Phase}
    (fits : phase.Fits limit runId db) (same : db'.runs = db.runs) : phase.Fits limit runId db' := by
  have known : RunKnown db runId → RunKnown db' runId := fun known => ⟨known.1, same ▸ known.2⟩
  cases phase with
  | read current => exact ⟨known fits.1, fits.2⟩
  | checked current budget => exact ⟨known fits.1, fits.2⟩
  | committed => exact known fits
  | _ => trivial

namespace AttemptCall

theorem budget_ok {a : AttemptCall} {current : BridgeDelivery} {budget : RuntimeBudget}
    (h : a.budget current = .ok budget) :
    budget.attempts = current.budget.attempts ∧
      current.budget.attempts.all (current.attempts + 1 ≤ ·) = true := by
  cases valid : validateBridgeBudget current true with
  | error detail => cases a <;> simp [AttemptCall.budget, valid, Except.map] at h
  | ok u =>
    have within := validateBridgeBudget_attempts valid
    cases a with
    | retry c =>
      simp only [AttemptCall.budget, valid, Except.map, Except.ok.injEq] at h
      exact ⟨congrArg RuntimeBudget.attempts h.symm, within⟩
    | deliver c =>
      cases consumed : current.budget.consumeDelivery with
      | none => simp [AttemptCall.budget, valid, consumed] at h
      | some left =>
        simp only [AttemptCall.budget, valid, consumed, Except.ok.injEq] at h
        exact ⟨h ▸ consumeDelivery_attempts consumed, within⟩

theorem body_ok {a : AttemptCall} {current : BridgeDelivery} {budget : RuntimeBudget} {u : Unit}
    {db db' : Database} (h : (a.body current budget).eval db = (.ok u, db')) :
    db'.runs = db.runs ∧ ∃ row, a.call.place.row db = some row ∧ row.status = "pending" ∧
      a.call.place.row db' = some (a.written current budget row) := by
  cases a with
  | retry c =>
    simp only [body, retryBody, bind_ok, require_ok, decide_eq_true_eq] at h
    obtain ⟨_, _, update, _, _, ⟨one, rfl⟩, recorded⟩ := h
    obtain ⟨row, found, pending, rfl⟩ := SideTable.update_one update one
    obtain ⟨commands, events, rfl⟩ := (recordKeyed_ok recorded).1.log
    refine ⟨c.table.table.write_runs _ _, row, found, of_decide_eq_true pending, ?_⟩
    rw [DeliveryPlace.row, call, DeliveryCall.place, c.table.table.read_setEvents,
      c.table.table.read_setCommands, c.table.table.read_write]
    exact Table.find?_modified found _ _
  | deliver c =>
    simp only [body, deliverBody, bind_ok, require_ok, decide_eq_true_eq] at h
    obtain ⟨_, _, update, _, _, ⟨one, rfl⟩, recorded⟩ := h
    obtain ⟨row, found, pending, rfl⟩ := SideTable.update_one update one
    obtain ⟨commands, events, rfl⟩ := (recordKeyed_ok recorded).1.log
    refine ⟨c.table.table.write_runs _ _, row, found, of_decide_eq_true pending, ?_⟩
    rw [DeliveryPlace.row, call, DeliveryCall.place, c.table.table.read_setEvents,
      c.table.table.read_setCommands, c.table.table.read_write]
    exact Table.find?_modified found _ _

/-- What one stage of a call does while the row is stored: it leaves the database alone, or it is
    the transaction of the call and the row was pending. -/
inductive Advances (a : AttemptCall) (limit : Option Int) (db : Database) (row : BridgeDelivery) :
    Phase → Phase → Database → Prop
  | idle {phase next : Phase} (same : next.counted = phase.counted)
      (fits : next.Fits limit a.call.runId db) : Advances a limit db row phase next db
  | commits {current : BridgeDelivery} {budget : RuntimeBudget} {db' : Database}
      (pending : row.status = "pending") (runs : db'.runs = db.runs)
      (stored : a.call.place.row db' = some (a.written current budget row)) :
      Advances a limit db row (.checked current budget) .committed db'

theorem Advances.reading {α : Type} {a : AttemptCall} {limit : Option Int} {db : Database}
    {row : BridgeDelivery} {phase : Phase} {next : α → Phase} {p : Sql α} (reads : ReadOnly p)
    (uncounted : phase.counted = false)
    (goes : ∀ r, p.eval db = (.ok r, db) →
      (next r).counted = false ∧ (next r).Fits limit a.call.runId db) :
    Advances a limit db row phase (Phase.after next (p.eval db)).1
      (Phase.after next (p.eval db)).2 := by
  have same := reads.eval db
  cases h : p.eval db with
  | mk result db' =>
    rw [h] at same
    subst same
    cases result with
    | error message => exact .idle uncounted.symm trivial
    | ok r =>
      obtain ⟨counted, fits⟩ := goes r h
      exact .idle (counted.trans uncounted.symm) fits

theorem readCurrent_reads (a : AttemptCall) : ReadOnly a.readCurrent :=
  .bind (.require _ _) fun _ => .bind (getBridge_reads _ _ _) fun _ =>
    .bind (.require _ _) fun _ => .pure _

theorem answered_reads (a : AttemptCall) (current : BridgeDelivery) :
    ReadOnly (a.answered current) := by
  cases a with
  | retry c => exact replayedDelivery_reads _ _ _
  | deliver c => exact .bind (replayedDelivery_reads _ _ _) fun _ => .pure _

theorem readCurrent_ok {a : AttemptCall} {current : BridgeDelivery} {db db' : Database}
    (h : a.readCurrent.eval db = (.ok current, db')) :
    RunKnown db a.call.runId ∧ a.call.place.row db = some current := by
  simp only [readCurrent, bind_ok, require_ok, pure_ok] at h
  obtain ⟨_, _, ⟨-, rfl⟩, row, _, read, _, _, -, rfl, -⟩ := h
  obtain ⟨-, found⟩ := getBridge_known read
  simp only [getBridge, getRow, bind_ok] at read
  obtain ⟨_, _, required, -⟩ := read
  exact ⟨(requireStoreRun_runKnown required).1, found⟩

theorem advance_spec {a : AttemptCall} {phase : Phase} {db : Database} {row : BridgeDelivery}
    (stored : a.call.place.row db = some row)
    (fits : phase.Fits row.budget.attempts a.call.runId db) :
    Advances a row.budget.attempts db row phase (a.advance phase db).1 (a.advance phase db).2 := by
  cases phase with
  | called =>
    refine .reading a.readCurrent_reads rfl fun current read => ⟨rfl, ?_⟩
    obtain ⟨known, found⟩ := readCurrent_ok read
    cases stored.symm.trans found
    exact ⟨known, rfl⟩
  | read current =>
    refine .reading (a.answered_reads current) rfl fun answered _ => ?_
    cases answered with
    | true => exact ⟨rfl, trivial⟩
    | false =>
      simp only [check, Bool.false_eq_true, if_false]
      cases checked : a.budget current with
      | error message => exact ⟨rfl, trivial⟩
      | ok budget =>
        obtain ⟨limit, within⟩ := budget_ok checked
        have read : current.budget.attempts = row.budget.attempts := fits.2
        exact ⟨rfl, fits.1, limit.trans read, read ▸ within⟩
  | checked current budget =>
    simp only [advance, eval_transact]
    cases h : (a.body current budget).eval db with
    | mk result db' =>
      cases result with
      | ok u =>
        obtain ⟨runs, old, found, pending, written⟩ := body_ok h
        cases stored.symm.trans found
        exact .commits pending runs written
      | error message => exact .idle rfl trivial
  | committed =>
    have read : a.readBack.eval db = (.ok row, db) := (DeliveryCall.getBridge_iff fits).mpr stored
    simp only [advance, read]
    exact .idle rfl trivial
  | returned last counted => exact .idle rfl trivial
  | raised message => exact .idle rfl trivial

end AttemptCall

namespace Connections

def counted (s : Connections) : ℕ := s.calls.countP fun entry => entry.2.counted

/-- The retries that returned. -/
def retried (s : Connections) : ℕ :=
  s.calls.countP fun entry => entry.1.isRetry && entry.2.outcome.any Except.isOk

/-- The next stage is not a transaction of such a call over attempts that it did not read. -/
def fresh (place : DeliveryPlace) (of : AttemptCall → Bool) (s : Connections) (who : ℕ) : Bool :=
  match s.calls[who]? with
  | some (a, .checked current _) =>
    ! of a || (place.row s.store).all fun row => row.attempts = current.attempts
  | _ => true

/-- The delivery is stored with its limit of attempts, and every call is about it. -/
structure Serve (place : DeliveryPlace) (limit : Option Int) (s : Connections) : Prop where
  stored : ∃ row, place.row s.store = some row ∧ row.budget.attempts = limit
  served : ∀ entry ∈ s.calls, entry.1.call.place = place ∧ entry.2.Fits limit place.runId s.store

theorem Serve.opened {place : DeliveryPlace} {calls : List AttemptCall} {db : Database}
    {row : BridgeDelivery} (stored : place.row db = some row)
    (served : ∀ a ∈ calls, a.call.place = place) :
    (opened db calls).Serve place row.budget.attempts where
  stored := ⟨row, stored, rfl⟩
  served := by
    intro entry member
    obtain ⟨a, listed, rfl⟩ := List.mem_map.mp member
    exact ⟨served a listed, trivial⟩

theorem counted_set {calls : List (AttemptCall × Phase)} {who : ℕ} {a : AttemptCall}
    {phase : Phase} (next : Phase) (named : calls[who]? = some (a, phase)) :
    (calls.set who (a, next)).countP (fun entry => entry.2.counted) +
        (if phase.counted then 1 else 0) =
      calls.countP (fun entry => entry.2.counted) + if next.counted then 1 else 0 := by
  obtain ⟨within, here⟩ := List.getElem?_eq_some_iff.mp named
  have listed : 0 < calls.countP (fun entry => entry.2.counted) ∨ phase.counted = false := by
    cases h : phase.counted with
    | false => exact .inr rfl
    | true =>
      refine .inl (List.countP_pos_iff.mpr ⟨calls[who], List.getElem_mem within, ?_⟩)
      rw [here]
      exact h
  rw [List.countP_set within, here]
  rcases listed with some | none
  · split <;> split <;> omega
  · simp [none]

/-- What a turn does to the row and to the number of transactions. -/
inductive Turns (place : DeliveryPlace) (limit : Option Int) (s : Connections) (who : ℕ)
    (row : BridgeDelivery) : Connections → Prop
  | idle {s' : Connections} (stored : place.row s'.store = some row) (count : s'.counted = s.counted) :
      Turns place limit s who row s'
  | commits {s' : Connections} (a : AttemptCall) (current : BridgeDelivery) (budget : RuntimeBudget)
      (named : s.calls[who]? = some (a, .checked current budget)) (pending : row.status = "pending")
      (within : limit.all (current.attempts + 1 ≤ ·) = true)
      (stored : place.row s'.store = some (a.written current budget row))
      (limited : budget.attempts = limit) (count : s'.counted = s.counted + 1) :
      Turns place limit s who row s'

theorem Serve.turns {place : DeliveryPlace} {limit : Option Int} {s : Connections}
    {row : BridgeDelivery} (serve : s.Serve place limit) (stored : place.row s.store = some row)
    (who : ℕ) :
    Turns place limit s who row (s.turn who) ∧ (s.turn who).Serve place limit := by
  have limited : row.budget.attempts = limit := by
    obtain ⟨held, found, limited⟩ := serve.stored
    cases stored.symm.trans found
    exact limited
  cases named : s.calls[who]? with
  | none =>
    have same : s.turn who = s := by simp only [turn, named]
    rw [same]
    exact ⟨.idle stored rfl, serve⟩
  | some entry =>
    obtain ⟨a, phase⟩ := entry
    obtain ⟨rfl, fits⟩ := serve.served _ (List.mem_of_getElem? named)
    subst limited
    have advances := AttemptCall.advance_spec stored fits
    rw [turn_some named]
    generalize (a.advance phase s.store).1 = next at advances
    generalize (a.advance phase s.store).2 = store at advances
    have others (runs : store.runs = s.store.runs)
        (own : next.Fits row.budget.attempts a.call.runId store) :
        ∀ entry ∈ s.calls.set who (a, next), entry.1.call.place = a.call.place ∧
          entry.2.Fits row.budget.attempts a.call.runId store := by
      intro entry member
      rcases List.mem_or_eq_of_mem_set member with old | rfl
      · obtain ⟨there, fits⟩ := serve.served entry old
        exact ⟨there, fits.runs runs⟩
      · exact ⟨rfl, own⟩
    have count := counted_set next named
    cases advances with
    | idle same own =>
      rw [same] at count
      exact ⟨.idle stored (by simpa [counted] using count), ⟨row, stored, rfl⟩, others rfl own⟩
    | @commits current budget _ pending runs written =>
      obtain ⟨known, kept, within⟩ := fits
      refine ⟨.commits a current budget named pending within written kept ?_, ⟨_, written, ?_⟩,
        others runs ⟨known.1, runs ▸ known.2⟩⟩
      · simpa [counted, Phase.counted] using count
      · cases a with
        | retry c => rfl
        | deliver c => exact kept

theorem Serve.delivered {place : DeliveryPlace} {limit : Option Int} {s : Connections}
    {row : BridgeDelivery} (serve : s.Serve place limit) (stored : place.row s.store = some row)
    (delivered : row.status = "delivered") (schedule : List ℕ) :
    place.row (Durable.execute turn s schedule).store = some row := by
  have kept := Durable.execute_induction
    (I := fun s : Connections => s.Serve place limit ∧ place.row s.store = some row) ⟨serve, stored⟩
    (fun s who held => by
      obtain ⟨turns, serve⟩ := held.1.turns held.2 who
      cases turns with
      | idle stored => exact ⟨serve, stored⟩
      | commits _ _ _ _ pending => exact absurd (delivered.symm.trans pending) (by decide)) schedule
  exact kept.2

theorem written_attempts {a : AttemptCall} {current row : BridgeDelivery} {budget : RuntimeBudget}
    (fresh : a.isRetry = true ∨ row.attempts = current.attempts) :
    (a.written current budget row).attempts = row.attempts + 1 := by
  cases a with
  | retry c => rfl
  | deliver c =>
    have same : row.attempts = current.attempts := fresh.resolve_left Bool.false_ne_true
    rw [same]
    rfl

theorem fresh_checked {place : DeliveryPlace} {of : AttemptCall → Bool} {s : Connections} {who : ℕ}
    {a : AttemptCall} {current row : BridgeDelivery} {budget : RuntimeBudget}
    (fresh : s.fresh place of who = true) (named : s.calls[who]? = some (a, .checked current budget))
    (stored : place.row s.store = some row) : of a = false ∨ row.attempts = current.attempts := by
  simpa [Connections.fresh, named, stored] using fresh

theorem Serve.counts {place : DeliveryPlace} {limit : Option Int} {s : Connections} {start : Int}
    {row : BridgeDelivery} (serve : s.Serve place limit) (stored : place.row s.store = some row)
    (counted : row.attempts = start + s.counted) {schedule : List ℕ}
    (fresh : Along turn (fun s who => s.fresh place (! ·.isRetry) who = true) s schedule) :
    ∃ last, place.row (Durable.execute turn s schedule).store = some last ∧
      last.attempts = start + (Durable.execute turn s schedule).counted := by
  have kept := Durable.execute_along
    (I := fun s => s.Serve place limit ∧ ∃ row, place.row s.store = some row ∧
      row.attempts = start + s.counted) ⟨serve, row, stored, counted⟩
    (fun s who held fresh => by
      obtain ⟨serve, row, stored, counted⟩ := held
      obtain ⟨turns, serve⟩ := serve.turns stored who
      refine ⟨serve, ?_⟩
      cases turns with
      | idle stored count => exact ⟨row, stored, by rw [count]; exact counted⟩
      | commits a current budget named _ _ written _ count =>
        refine ⟨_, written, ?_⟩
        have read := fresh_checked fresh named stored
        rw [written_attempts (read.imp_left fun retries => by simpa using retries), count, counted]
        omega) fresh
  exact kept.2

theorem Serve.limits {place : DeliveryPlace} {limit : Option Int} {s : Connections}
    {row : BridgeDelivery} (serve : s.Serve place limit) (stored : place.row s.store = some row)
    (within : limit.all (row.attempts ≤ ·) = true) {schedule : List ℕ}
    (fresh : Along turn (fun s who => s.fresh place (fun _ => true) who = true) s schedule) :
    ∃ last, place.row (Durable.execute turn s schedule).store = some last ∧
      last.budget.attempts = limit ∧ limit.all (last.attempts ≤ ·) = true := by
  have kept := Durable.execute_along
    (I := fun s => s.Serve place limit ∧ ∃ row, place.row s.store = some row ∧
      limit.all (row.attempts ≤ ·) = true) ⟨serve, row, stored, within⟩
    (fun s who held fresh => by
      obtain ⟨serve, row, stored, within⟩ := held
      obtain ⟨turns, serve⟩ := serve.turns stored who
      refine ⟨serve, ?_⟩
      cases turns with
      | idle stored => exact ⟨row, stored, within⟩
      | commits a current budget named _ bounded written =>
        refine ⟨_, written, ?_⟩
        have read : row.attempts = current.attempts :=
          (fresh_checked fresh named stored).resolve_left (Ne.symm Bool.false_ne_true)
        rw [written_attempts (.inr read), read]
        exact bounded) fresh
  obtain ⟨serve, last, stored, within⟩ := kept
  obtain ⟨held, found, limited⟩ := serve.stored
  cases stored.symm.trans found
  exact ⟨last, stored, limited, within⟩

/-- In every order of the stages, a delivered row stays as it is. As long as no delivery is written
    over attempts that it did not read, the attempts count the transactions; as long as no call is,
    they stay within the limit. -/
theorem attempts_counted {place : DeliveryPlace} {calls : List AttemptCall} {db : Database}
    {row : BridgeDelivery} (stored : place.row db = some row)
    (served : ∀ a ∈ calls, a.call.place = place) (schedule : List ℕ) :
    (∀ delivered later,
      place.row (Durable.execute turn (opened db calls) schedule).store = some delivered →
      delivered.status = "delivered" →
      place.row (Durable.execute turn (opened db calls) (schedule ++ later)).store = some delivered) ∧
    (Along turn (fun s who => s.fresh place (! ·.isRetry) who = true) (opened db calls) schedule →
      ∃ last, place.row (Durable.execute turn (opened db calls) schedule).store = some last ∧
        last.attempts =
          row.attempts + (Durable.execute turn (opened db calls) schedule).counted) ∧
    (Along turn (fun s who => s.fresh place (fun _ => true) who = true) (opened db calls) schedule →
      row.budget.attempts.all (row.attempts ≤ ·) = true →
      ∃ last, place.row (Durable.execute turn (opened db calls) schedule).store = some last ∧
        last.budget.attempts.all (last.attempts ≤ ·) = true) := by
  have serve := Serve.opened stored served
  have uncounted : (opened db calls).counted = 0 := by
    simp [counted, opened, List.countP_map, Phase.counted]
  refine ⟨fun delivered later found status => ?_, fun fresh => ?_, fun fresh within => ?_⟩
  · have reached := Durable.execute_induction
      (I := fun s : Connections => s.Serve place row.budget.attempts) serve
      (fun s who serve => by
        obtain ⟨held, found, -⟩ := serve.stored
        exact (serve.turns found who).2) schedule
    rw [Durable.execute_append]
    exact reached.delivered found status later
  · exact serve.counts stored (by rw [uncounted]; simp) fresh
  · obtain ⟨last, found, limited, bounded⟩ := serve.limits stored within fresh
    exact ⟨last, found, limited ▸ bounded⟩

def pendingPlace : DeliveryPlace := ⟨.outbox, "r", "d"⟩

/-- A retry and a delivery, the second after the first. -/
theorem attempts_counted_twice :
    ∃ last, pendingPlace.row (Durable.execute turn
        (opened oneDelivery [.retry ⟨.outbox, "r", "d", "1", ""⟩, .deliver ⟨.outbox, "r", "d", "2", ""⟩])
        [0, 0, 0, 0, 1, 1, 1, 1]).store = some last ∧
      last.budget.attempts.all (last.attempts ≤ ·) = true :=
  have stored : pendingPlace.row oneDelivery = some pendingDelivery := by decide
  (attempts_counted stored (by decide) _).2.2 (by decide +kernel) (by decide)

/-- A delivery is an attempt of its own. -/
theorem delivery_attempts :
    let s := Durable.execute turn
      (opened oneDelivery [.deliver ⟨.outbox, "r", "d", "1", ""⟩]) [0, 0, 0, 0]
    s.retried = 0 ∧ (pendingPlace.row oneDelivery).map BridgeDelivery.attempts = some 0 ∧
      (pendingPlace.row s.store).map BridgeDelivery.attempts = some 1 := by
  decide +kernel

end Connections
end Fala.Bridge
