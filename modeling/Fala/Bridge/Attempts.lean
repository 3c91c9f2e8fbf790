import Fala.Bridge.Effects
import Fala.Durable.History

/-! Calls that retry or deliver one stored delivery, cut where another connection may act: each
    reads the row, looks its key up, writes in one transaction and reads the row back. -/

namespace Durable.Program
variable {σ α β γ : Type}

theorem ext_run {p q : Program σ α} (same : ∀ c, p.run c = q.run c) : p = q := by
  cases p
  cases q
  cases funext same
  rfl

/-- Where a program is cut does not matter to its runs. -/
theorem bind_bind (p : Program σ α) (f : α → Program σ β) (g : β → Program σ γ) :
    (p >>= f) >>= g = p >>= fun a => f a >>= g := by
  refine ext_run fun c => ?_
  change bindRun (p >>= f) g c = bindRun p (fun a => f a >>= g) c
  unfold bindRun
  rw [show (p >>= f).run c = bindRun p f c from rfl, bindRun]
  rcases p.run c with ⟨_ | _, _⟩ <;> rfl

end Durable.Program

namespace Fala.Bridge
open Durable Journal Domain Program

inductive AttemptCall where
  | retry (c : DeliveryCall)
  | deliver (c : DeliveryCall)
  deriving DecidableEq

namespace AttemptCall

def call : AttemptCall → DeliveryCall
  | retry c | deliver c => c

def isRetry : AttemptCall → Bool
  | retry _ => true
  | deliver _ => false

def program : AttemptCall → Sql BridgeDelivery
  | retry c => retryBridgeDelivery c
  | deliver c => deliverBridgeDelivery c

/-- The status of the row that was read lets the call go on. -/
def admits : AttemptCall → String → Bool
  | retry _, status => status = "pending"
  | deliver _, status => status = "pending" ∨ status = "delivered"

def readCurrent (a : AttemptCall) : Sql BridgeDelivery := do
  .require (a.call.updatedAt ≠ "") updatedAtEmpty
  let current ← getBridge a.call.table a.call.runId a.call.deliveryId
  .require (a.admits current.status) invalidTransition
  return current

/-- Whether the call is answered with the row that it read. -/
def answered : AttemptCall → BridgeDelivery → Sql Bool
  | retry c, current =>
    replayedDelivery c ("bridge." ++ c.table.name ++ ".retry")
      (operationPayload c.deliveryId "pending" current.attempts)
  | deliver c, current => do
    let attempts := if current.status = "pending" then current.attempts + 1 else current.attempts
    let replayed ← replayedDelivery c ("bridge." ++ c.table.name ++ ".delivered")
      (operationPayload c.deliveryId "delivered" attempts)
    return replayed ∨ current.status = "delivered"

/-- The budget of the row that was read, as the call is to leave it. -/
def budget : AttemptCall → BridgeDelivery → Except String RuntimeBudget
  | retry _, current => (validateBridgeBudget current true).map fun _ => current.budget
  | deliver _, current =>
    match validateBridgeBudget current true, current.budget.consumeDelivery with
    | .error detail, _ => .error detail
    | .ok _, none => .error "domain store: bridge budget exhausted"
    | .ok _, some budget => .ok budget

/-- The transaction, with the row as it was read before. -/
def body : AttemptCall → BridgeDelivery → RuntimeBudget → Sql Unit
  | retry c, current, _ => retryBody c current
  | deliver c, current, budget => deliverBody c current budget

def readBack (a : AttemptCall) : Sql BridgeDelivery :=
  getBridge a.call.table a.call.runId a.call.deliveryId

end AttemptCall

/-- How far a call has come. -/
inductive Phase where
  | called
  | read (current : BridgeDelivery)
  | checked (current : BridgeDelivery) (budget : RuntimeBudget)
  | committed
  | returned (row : BridgeDelivery) (counted : Bool)
  | raised (message : String)
  deriving DecidableEq

namespace Phase

/-- The transaction of the call took place. -/
def counted : Phase → Bool
  | committed => true
  | returned _ counted => counted
  | _ => false

def outcome : Phase → Option (Except String BridgeDelivery)
  | returned row _ => some (.ok row)
  | raised message => some (.error message)
  | _ => none

def stagesLeft : Phase → ℕ
  | called => 4
  | read _ => 3
  | checked _ _ => 2
  | committed => 1
  | returned _ _ | raised _ => 0

/-- The phase after a stage: the next one, unless the stage raised. -/
def after {α : Type} (next : α → Phase) : Except String α × Database → Phase × Database
  | (.ok a, db) => (next a, db)
  | (.error message, db) => (raised message, db)

end Phase

namespace AttemptCall

/-- The budget check that follows the reads in the same stage. -/
def check (a : AttemptCall) (current : BridgeDelivery) (answered : Bool) : Phase :=
  if answered then .returned current false
  else
    match a.budget current with
    | .ok budget => .checked current budget
    | .error message => .raised message

/-- The next stage of a call. -/
def advance (a : AttemptCall) : Phase → Database → Phase × Database
  | .called, db => Phase.after .read (a.readCurrent.eval db)
  | .read current, db => Phase.after (a.check current) ((a.answered current).eval db)
  | .checked current budget, db =>
    Phase.after (fun _ => .committed) ((transact id (a.body current budget)).eval db)
  | .committed, db => Phase.after (.returned · true) (a.readBack.eval db)
  | finished, db => (finished, db)

def writeRow (a : AttemptCall) (current : BridgeDelivery) (budget : RuntimeBudget) :
    Sql BridgeDelivery := do
  .transact id (a.body current budget)
  a.readBack

def answerOrWrite (a : AttemptCall) (current : BridgeDelivery) : Sql BridgeDelivery := do
  if ← a.answered current then return current
  else do
    let budget ← .ofExcept (a.budget current)
    a.writeRow current budget

/-- What is left of a call. -/
def rest (a : AttemptCall) : Phase → Sql BridgeDelivery
  | .called => do
    let current ← a.readCurrent
    a.answerOrWrite current
  | .read current => a.answerOrWrite current
  | .checked current budget => a.writeRow current budget
  | .committed => a.readBack
  | .returned row _ => return row
  | .raised message => .raise message

/-- The stages together are the operation, whichever of its statements fails. -/
theorem rest_called (a : AttemptCall) : a.rest .called = a.program := by
  cases a with
  | retry c =>
    simp only [rest, answerOrWrite, writeRow, readBack, program, readCurrent, retryBridgeDelivery, answered, budget, bind_bind,
      Program.pure_bind, body, call, admits]
    refine bind_congr fun _ => bind_congr fun current => bind_congr fun _ => bind_congr fun replayed => ?_
    cases replayed with
    | true => rfl
    | false => cases validateBridgeBudget current true <;> rfl
  | deliver c =>
    simp only [rest, answerOrWrite, writeRow, readBack, program, readCurrent, deliverBridgeDelivery, answered, budget, bind_bind,
      Program.pure_bind, body, call, admits]
    refine bind_congr fun _ => bind_congr fun current => bind_congr fun _ => bind_congr fun replayed => ?_
    by_cases done : replayed = true ∨ current.status = "delivered"
    · rw [if_pos (decide_eq_true done), if_pos done]
    · rw [if_neg (by simpa using done), if_neg done]
      cases validateBridgeBudget current true with
      | error detail => rfl
      | ok u => cases current.budget.consumeDelivery <;> rfl

/-- A stage that runs a program leaves what comes after it. -/
theorem rest_after {α : Type} (a : AttemptCall) {next : α → Phase} {p : Sql α}
    {f : α → Sql BridgeDelivery} (left : ∀ r db, (a.rest (next r)).eval db = (f r).eval db)
    (db : Database) :
    (a.rest (Phase.after next (p.eval db)).1).eval (Phase.after next (p.eval db)).2 =
      (p >>= f).eval db := by
  rw [eval_bind]
  rcases p.eval db with ⟨_ | r, db'⟩
  · rfl
  · exact left r db'

theorem rest_check (a : AttemptCall) (current : BridgeDelivery) (answered : Bool) (db : Database) :
    (a.rest (a.check current answered)).eval db = (if answered = true then pure current else do
      let budget ← Program.ofExcept (a.budget current)
      a.writeRow current budget : Sql BridgeDelivery).eval db := by
  cases answered with
  | true => rfl
  | false =>
    simp only [check, Bool.false_eq_true, if_false]
    cases a.budget current <;> rfl

theorem rest_advance (a : AttemptCall) (phase : Phase) (db : Database) :
    (a.rest (a.advance phase db).1).eval (a.advance phase db).2 = (a.rest phase).eval db := by
  cases phase with
  | called => exact a.rest_after (fun _ _ => rfl) db
  | read current => exact a.rest_after (a.rest_check current) db
  | checked current budget => exact a.rest_after (fun _ _ => rfl) db
  | committed =>
    refine (a.rest_after (f := pure) (fun _ _ => rfl) db).trans ?_
    rw [eval_bind]
    change _ = a.readBack.eval db
    rcases a.readBack.eval db with ⟨_ | row, db'⟩ <;> rfl
  | returned row counted => rfl
  | raised message => rfl

theorem stagesLeft_after {α : Type} {next : α → Phase} {n : ℕ} (left : ∀ r, (next r).stagesLeft ≤ n)
    (result : Except String α × Database) : (Phase.after next result).1.stagesLeft ≤ n := by
  rcases result with ⟨_ | r, db⟩
  · exact Nat.zero_le n
  · exact left r

theorem stagesLeft_advance (a : AttemptCall) (phase : Phase) (db : Database) :
    (a.advance phase db).1.stagesLeft ≤ phase.stagesLeft - 1 := by
  cases phase with
  | called => exact stagesLeft_after (fun _ => le_refl 3) _
  | read current =>
    refine stagesLeft_after (fun answered => ?_) _
    unfold check
    split
    · exact Nat.zero_le _
    · split
      · exact le_refl 2
      · exact Nat.zero_le _
  | checked current budget => exact stagesLeft_after (fun _ => le_refl 1) _
  | committed => exact stagesLeft_after (fun _ => le_refl 0) _
  | returned row counted => exact le_refl 0
  | raised message => exact le_refl 0

theorem rest_finished (a : AttemptCall) {phase : Phase} (finished : phase.stagesLeft = 0)
    (db : Database) : phase.outcome = some ((a.rest phase).eval db).1 ∧ ((a.rest phase).eval db).2 = db := by
  cases phase with
  | returned row counted => exact ⟨rfl, rfl⟩
  | raised message => exact ⟨rfl, rfl⟩
  | _ => cases finished

end AttemptCall

/-- Connections to one database, each at some stage of its call. -/
structure Connections where
  store : Database
  calls : List (AttemptCall × Phase)
  deriving DecidableEq

namespace Connections

/-- Every call is issued and none has read anything. -/
def opened (db : Database) (calls : List AttemptCall) : Connections :=
  ⟨db, calls.map (·, .called)⟩

/-- The next stage of one of the calls. -/
def turn (s : Connections) (who : ℕ) : Connections :=
  match s.calls[who]? with
  | some (a, phase) =>
    let (next, store) := a.advance phase s.store
    ⟨store, s.calls.set who (a, next)⟩
  | none => s

theorem turn_some {s : Connections} {who : ℕ} {a : AttemptCall} {phase : Phase}
    (named : s.calls[who]? = some (a, phase)) :
    s.turn who = ⟨(a.advance phase s.store).2, s.calls.set who (a, (a.advance phase s.store).1)⟩ := by
  simp only [turn, named]

theorem turn_lone (a : AttemptCall) (phase : Phase) (db : Database) :
    turn ⟨db, [(a, phase)]⟩ 0 = ⟨(a.advance phase db).2, [(a, (a.advance phase db).1)]⟩ := rfl

/-- A call that no other one interrupts is the operation. -/
theorem lone_call (a : AttemptCall) (db : Database) :
    ∃ phase, Durable.execute turn (opened db [a]) [0, 0, 0, 0] =
        ⟨(a.program.eval db).2, [(a, phase)]⟩ ∧
      phase.outcome = some (a.program.eval db).1 := by
  have lone : ∀ (n : ℕ) (phase : Phase) (db : Database), phase.stagesLeft ≤ n →
      ∃ last, Durable.execute turn ⟨db, [(a, phase)]⟩ (List.replicate n 0) =
          ⟨((a.rest phase).eval db).2, [(a, last)]⟩ ∧
        last.outcome = some ((a.rest phase).eval db).1 := by
    intro n
    induction n with
    | zero =>
      intro phase db finished
      obtain ⟨outcome, same⟩ := a.rest_finished (Nat.le_zero.mp finished) db
      exact ⟨phase, by rw [same]; rfl, outcome⟩
    | succ n ih =>
      intro phase db left
      have fewer := a.stagesLeft_advance phase db
      obtain ⟨last, reached, outcome⟩ :=
        ih (a.advance phase db).1 (a.advance phase db).2 (by omega)
      rw [a.rest_advance] at reached outcome
      exact ⟨last, reached, outcome⟩
  obtain ⟨last, reached, outcome⟩ := lone 4 .called db (le_refl 4)
  rw [a.rest_called] at reached outcome
  exact ⟨last, reached, outcome⟩

end Connections
end Fala.Bridge
