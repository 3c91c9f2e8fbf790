import Fala.Driver.Queues
import Fala.Driver.Results

/-! What becomes of an attempt whose result reports its usage. -/

namespace Fala

/-! Parts of texts. -/

theorem occurs_of_append {part left right : List Char}
    (apart : ∀ rest ∈ left.tails, rest = [] ∨ ¬ (rest <+: part ∨ part <+: rest))
    (found : occurs part (left ++ right) = true) : occurs part right = true := by
  induction left with
  | nil => exact found
  | cons c rest ih =>
    have later := ih fun tail member => apart tail (by rw [List.tails_cons]; exact List.mem_cons_of_mem _ member)
    rcases (Bool.or_eq_true _ _).mp found with here | there
    · have starts : part <+: c :: (rest ++ right) := List.isPrefixOf_iff_prefix.mp here
      have whole := apart (c :: rest) (by rw [List.tails_cons]; exact List.mem_cons_self)
      have either := List.prefix_or_prefix_of_prefix (List.prefix_append (c :: rest) right) starts
      exact absurd either (whole.resolve_left (List.cons_ne_nil _ _))
    · exact later there

end Fala

namespace Durable.Program

theorem Unraised.transactAppend {σ α : Type} {message label : String} {body : Program σ α}
    (inner : ∀ detail, label ++ detail = message → Unraised body detail) :
    Unraised (Program.transact (label ++ ·) body) message := by
  intro s s' raised
  rw [eval_transact] at raised
  cases h : body.eval s with
  | mk result after =>
    rw [h] at raised
    cases result with
    | ok a => cases raised
    | error detail =>
      have same : label ++ detail = message := Except.error.inj (congrArg Prod.fst raised)
      exact inner detail same s after h

theorem Unraised.statement {σ α : Type} {message : String} {f : σ → Except String (α × σ)}
    (silent : ∀ s, f s ≠ .error message) : Unraised (Program.statement f) message := by
  intro s s' raised
  rw [eval_statement] at raised
  cases h : f s with
  | ok pair =>
    rw [h] at raised
    cases raised
  | error other =>
    rw [h] at raised
    have same : other = message := Except.error.inj (congrArg Prod.fst raised)
    exact silent s (same ▸ h)

end Durable.Program

namespace Fala.Journal
open Durable Program

/-- What the refusal of an output says, and no other error of the journal does. -/
def outputMismatch : String := "output does not match output_schema_json"

section
variable {message : String}

theorem ne_of_mentions {other : String} (told : mentions message outputMismatch = true)
    (silent : mentions other outputMismatch = false) : other ≠ message := by
  rintro rfl
  rw [told] at silent
  cases silent

theorem insertCommand_unraised (row : CommandRow) (taken : uniqueFailed "runtime_commands" ≠ message) :
    Unraised (insertCommand row) message := by
  unfold insertCommand execute
  apply Unraised.statement
  intro db
  cases appended : db.commands.append? row with
  | none => simpa only [appended, Except.map, ne_eq, Except.error.injEq] using taken
  | some commands => simp [appended, Except.map]

theorem insertEvent_unraised (row : EventRow) (taken : uniqueFailed "runtime_events" ≠ message)
    (dangling : foreignKeyFailed ≠ message) : Unraised (insertEvent row) message := by
  unfold insertEvent execute
  apply Unraised.statement
  intro db
  cases appended : db.events.append? row with
  | none => simpa only [appended, Except.map, ne_eq, Except.error.injEq] using taken
  | some events =>
    simp only [appended]
    by_cases known : row.commandId = "" ∨ (row.runId, row.commandId) ∈ db.commands.rows.map CommandRow.key
    · simp only [known, if_true, Except.map, ne_eq, reduceCtorEq, not_false_eq_true]
    · simpa only [known, if_false, Except.map, ne_eq, Except.error.injEq] using dangling

theorem updateWhere_unraised (found : Database → Bool) (write : Database → Database) :
    Unraised (updateWhere found write) message := by
  apply Unraised.statement
  intro db
  split
  · simp
  · simp

theorem transitionBody_unraised (t : ProcessTransition) (output error : Text) (current : ProcessRow)
    (told : mentions message outputMismatch = true) : Unraised (transitionBody t output error current) message := by
  have other : ∀ text, mentions text outputMismatch = false → text ≠ message := fun text => ne_of_mentions told
  have appends : ∀ (commandId : String) (event : EventInput), Unraised (appendEventInTx t.runId commandId event) message := by
    intro commandId event
    refine .bind (.require (other _ (by decide))) fun _ => .bind (.require (other _ (by decide))) fun _ =>
      .bind (.fetch _) fun found => ?_
    cases found with
    | some existing => exact .bind (.require (other _ (by decide))) fun _ => .pure _
    | none =>
      refine .bind (.fetch _) fun sequence => .bind (insertEvent_unraised _ (other _ (by decide)) (other _ (by decide)))
        fun _ => .query fun db => ?_
      cases db.eventById t.runId event.id with
      | some row => simp
      | none => simpa using other _ (by decide)
  exact .bind (getProcess_unraised _ _ (other _ (by decide)) (other _ (by decide)) (other _ (by decide))) fun _ =>
    .bind (.require (other _ (by decide))) fun _ => .bind (updateWhere_unraised _ _) fun _ =>
      .bind (.require (other _ (by decide))) fun _ => .bind (insertCommand_unraised _ (other _ (by decide))) fun _ =>
        .bind (appends _ _) fun _ => .pure _

theorem illegalTransition_silent (current target : ProcessStatus) :
    mentions (illegalTransition current target) outputMismatch = false := by
  -- One status ends as the text begins, so the arrow is taken with it.
  have apart : ∀ status : ProcessStatus, ∀ rest ∈ (status.value ++ " -> ").toList.tails,
      rest = [] ∨ ¬ (rest <+: outputMismatch.toList ∨ outputMismatch.toList <+: rest) := by
    intro status
    cases status <;> decide
  have silent : ∀ status : ProcessStatus, occurs outputMismatch.toList status.value.toList = false := by
    intro status
    cases status <;> decide
  apply Bool.eq_false_iff.mpr
  intro found
  have spelled : (illegalTransition current target).toList =
      "journal: illegal process transition ".toList ++ ((current.value ++ " -> ").toList ++ target.value.toList) := by
    show ("journal: illegal process transition " ++ current.value ++ " -> " ++ target.value).toList = _
    rw [String.toList_append, String.toList_append, String.toList_append, String.toList_append, List.append_assoc,
      List.append_assoc, List.append_assoc]
  unfold mentions at found
  rw [spelled] at found
  have arrow := occurs_of_append (by decide) found
  have last := occurs_of_append (apart current) arrow
  rw [silent target] at last
  cases last

theorem transitionProcess_unraised (t : ProcessTransition) (told : mentions message outputMismatch = true) :
    Unraised (transitionProcess t) message := by
  have other : ∀ text, mentions text outputMismatch = false → text ≠ message := fun text => ne_of_mentions told
  have reads : ∀ processId : String, Unraised (getProcess t.runId processId) message := fun processId =>
    getProcess_unraised _ _ (other _ (by decide)) (other _ (by decide)) (other _ (by decide))
  refine .bind (.require (other _ (by decide))) fun _ => .bind (.require (other _ (by decide))) fun _ =>
    .bind (requireRun_unraised _ (other _ (by decide)) (other _ (by decide))) fun _ => .bind (reads _) fun current =>
    .bind (.require (other _ (by decide))) fun _ =>
    .bind (.ofExcept (canonicalJsonField_unraised _ _ (other _ (by decide)))) fun output =>
    .bind (.ofExcept (canonicalJsonField_unraised _ _ (other _ (by decide)))) fun error =>
    .bind (.fetch _) fun prior => ?_
  cases prior with
  | some prior =>
    exact .bind (.ofExcept (canonicalJsonField_unraised _ _ (other _ (by decide)))) fun _ =>
      .bind (.require (other _ (by decide))) fun _ => reads _
  | none =>
    refine .bind (.require (other _ (by decide))) fun _ =>
      .bind (.require (other _ (illegalTransition_silent _ _))) fun _ => .bind (.require (other _ (by decide))) fun _ =>
      .bind (.require (other _ (by decide))) fun _ => .bind (.transactAppend fun detail same => ?_) fun _ => reads _
    apply transitionBody_unraised
    apply @occurs_of_append _ "journal: process transition failed: ".toList
    · decide
    · rw [← String.toList_append, same]
      exact told

end

end Fala.Journal

namespace Fala.Driver
open Durable Program Journal
open Protocol (domainPayload)

/-! What ends an attempt. -/

section
variable {digest : Json → String} {outside : Outside} {worker : Worker} {claimed : ProcessRow} {adapter : AdapterSpec}
  {db db' : Database}

/-- The transition of a cancellation that an operator asks for. -/
def CancelRequest.transition (request : CancelRequest) (claimed : ProcessRow) : ProcessTransition where
  runId := claimed.runId
  processId := claimed.id
  toStatus := .cancelRequested
  actor := request.actor
  at_ := request.at_
  errorJson := request.errorJson
  idempotencyKey := request.idempotencyKey

theorem transitionProcess_unmoved {t : ProcessTransition} {row : ProcessRow} {result : Except String Unit}
    (found : db'.processes.find? (t.runId, t.processId) = some row) (unmoved : row.status ≠ t.toStatus)
    (h : (transitionProcess t).void.eval db = (result, db')) : db' = db := by
  rcases (transitionProcess_settles t db).void.evaluated h with same | same | ⟨w, ⟨output, error, -, -, rfl⟩, written⟩
  · exact same
  · exact same
  · cases written with
    | act _ _ processes _ =>
      have stored := processes (t.runId, t.processId)
      rw [if_pos rfl] at stored
      have moved := Option.some.inj (found.symm.trans stored)
      exact absurd (congrArg ProcessRow.status moved) unmoved

theorem waitDurableSubprocess_false {request : CancelRequest}
    (h : waitDurableSubprocess worker claimed request db = (.ok false, db')) : db' = db := by
  obtain ⟨_, middle, asked, h⟩ := Session.bind_ok.mp h
  obtain ⟨polled, _, read, h⟩ := Session.bind_ok.mp h
  obtain ⟨-, found, rfl⟩ := getProcess_ok.mp (Session.program_ok.mp read)
  split at h
  · rename_i unseen
    obtain ⟨-, rfl⟩ := Session.pure_ok.mp h
    unfold Session.handle at asked
    cases evaluated : Session.program (transitionProcess (request.transition claimed)).void db with
    | mk result after =>
      have same : after = middle := by
        have answered : Session.program (requestCancelProcess claimed.runId claimed.id request.actor request.at_
          request.errorJson request.idempotencyKey).void db = (result, after) := evaluated
        rw [answered] at asked
        cases result with
        | ok => exact congrArg Prod.snd asked
        | error => exact congrArg Prod.snd asked
      subst same
      exact transitionProcess_unmoved found unseen evaluated
  · -- Everything that follows a request the driver sees ends in a cancellation.
    have seen : ∀ {x : Session Database Bool}, x.Returns (· = true) → x middle ≠ (.ok false, db') := by
      intro x returns answered
      cases returns _ _ _ answered
    refine absurd h (seen ?_)
    refine .bind fun _ => ?_
    have polls : ∀ x : Session Database Bool, x.Returns (· = true) →
        (Session.program (getProcess claimed.runId claimed.id) >>= fun current =>
          if current.status = .cancelled then pure true else x).Returns (· = true) := by
      intro x returns
      exact .bind fun current => .ite (.pure rfl) returns
    apply Session.Returns.ite
    · exact .bind fun _ => polls _ (.bind fun _ => .pure rfl)
    · exact polls _ (.bind fun _ => .pure rfl)

/-- An execution that was not cancelled settles what the adapter answered, in the state that the claim left. -/
theorem executeClaimed_settles {one : DriverResult} (uncancelled : one.cancelled = false)
    (h : executeClaimed digest outside worker claimed adapter db = (.ok one, db')) :
    settleResult digest outside worker claimed adapter (outside.execute claimed adapter) db = (.ok one, db') := by
  unfold executeClaimed at h
  by_cases subprocess : adapter.kind ≠ .subprocess
  · rwa [if_pos subprocess] at h
  · rw [if_neg subprocess] at h
    cases asked : outside.cancels claimed adapter with
    | none => rwa [asked] at h
    | some request =>
      rw [asked] at h
      obtain ⟨cancelled, middle, waited, settled⟩ := Session.bind_ok.mp h
      cases cancelled with
      | true =>
        obtain ⟨rfl, -⟩ := Session.pure_ok.mp settled
        cases uncancelled
      | false =>
        obtain rfl := waitDurableSubprocess_false waited
        exact settled

theorem commandByKey_of_rows {row : CommandRow} {runId key : String} (rows : db'.commands.rows = db.commands.rows ++ [row])
    (other : row.idempotencyKey ≠ key) : db'.commandByKey runId key = db.commandByKey runId key := by
  have apart : row.unique ≠ (runId, key) := fun same => other (congrArg Prod.snd same)
  unfold Database.commandByKey Ledger.find?
  rw [rows, List.find?_append]
  simp [apart]

theorem recordContractViolation_leaves {process : ProcessRow} {error : AdapterError} {blame : Blame} {u : Unit}
    (h : (recordContractViolation process worker.id worker.now error blame).eval db = (.ok u, db')) :
    db'.processes = db.processes ∧ ∀ (runId : String) (row : ProcessRow) (now : String),
      db'.commandByKey runId (lapseKey row now) = db.commandByKey runId (lapseKey row now) := by
  unfold recordContractViolation at h
  split at h
  · obtain ⟨submission, submitted⟩ := void_ok.mp h
    obtain ⟨_, _, filled, submitted⟩ := bind_ok.mp submitted
    obtain ⟨-, rfl⟩ := require_ok.mp filled
    rcases (submitCommand_settles _ _ _).evaluated submitted with rfl | rfl | ⟨w, rfl, written⟩
    · exact ⟨rfl, fun _ _ _ => rfl⟩
    · exact ⟨rfl, fun _ _ _ => rfl⟩
    · cases written with
      | record rows logged =>
        refine ⟨rows, fun runId row now => commandByKey_of_rows logged.stored ?_⟩
        unfold lapseKey
        rw [String.append_assoc, String.append_assoc, String.append_assoc, String.append_assoc]
        show "violation.record:" ++ process.id ++ ":" ++ toString process.attempt ≠ _
        rw [String.append_assoc, String.append_assoc]
        exact append_ne_append _ _ (by decide)
  · obtain ⟨-, rfl⟩ := pure_ok.mp h
    exact ⟨rfl, fun _ _ _ => rfl⟩

variable {one : DriverResult}

theorem failViolating_status {error : AdapterError} (found : db.processes.find? claimed.key = some claimed)
    (h : failViolating worker claimed error db = (.ok one, db')) :
    ∃ row, db'.processes.find? claimed.key = some row ∧
      if db.commandByKey claimed.runId (lapseKey claimed worker.now) = none then row.status = .failed
      else row = claimed := by
  obtain ⟨_, middle, recorded, rest⟩ := Session.bind_ok.mp h
  obtain ⟨rows, keys⟩ := recordContractViolation_leaves (Session.program_ok.mp recorded)
  rw [← rows] at found
  rw [← keys]
  obtain ⟨row, last, failed, same⟩ := bind_ok.mp (Session.program_ok.mp rest)
  obtain rfl : last = db' := (pure_ok.mp same).2
  have stored := transitionProcess_stored failed
  refine ⟨row, stored, ?_⟩
  split
  · rename_i unused
    obtain ⟨current, output, error, -, -, moved⟩ := ProcessTransition.of_ok (by exact unused) failed
    rw [Option.some.inj (stored.symm.trans moved)]
    rfl
  · rename_i recorded
    exact transitionProcess_replayed found (by exact recorded) failed

theorem completeProcess_checked {row : ProcessRow} (found : db.processes.find? claimed.key = some claimed)
    {at_ : String} {output error : Text}
    (h : (completeProcess digest claimed.runId claimed.id worker.id at_ output error).eval db = (.ok row, db')) :
    checkOutput digest claimed.outputSchemaJson output = .ok () ∧
      (transitionProcess
        { runId := claimed.runId, processId := claimed.id, toStatus := .succeeded, actor := worker.id, at_ := at_,
          outputJson := output, errorJson := error }).eval db = (.ok row, db') := by
  simp only [completeProcess, bind_ok, requireRun_ok, getProcess_ok, ofExcept_ok] at h
  obtain ⟨_, _, ⟨-, rfl⟩, current, _, ⟨-, here, rfl⟩, _, _, ⟨checked, rfl⟩, h⟩ := h
  obtain rfl : claimed = current := Option.some.inj (found.symm.trans here)
  exact ⟨checked, h⟩

theorem completeProcess_mismatch {message : String} (found : db.processes.find? claimed.key = some claimed)
    {at_ : String} {output error : Text} (told : mentions message outputMismatch = true)
    (h : (completeProcess digest claimed.runId claimed.id worker.id at_ output error).eval db = (.error message, db')) :
    checkOutput digest claimed.outputSchemaJson output ≠ .ok () ∧ db' = db := by
  have other : ∀ text, mentions text outputMismatch = false → text ≠ message := fun text => ne_of_mentions told
  unfold completeProcess at h
  obtain ⟨_, _, known, h⟩ := (requireRun_unraised _ (other _ (by decide)) (other _ (by decide))).rest h
  obtain ⟨-, rfl⟩ := requireRun_ok.mp known
  obtain ⟨current, _, read, h⟩ :=
    (getProcess_unraised _ _ (other _ (by decide)) (other _ (by decide)) (other _ (by decide))).rest h
  obtain ⟨-, here, rfl⟩ := getProcess_ok.mp read
  obtain rfl : claimed = current := Option.some.inj (found.symm.trans here)
  cases checked : checkOutput digest claimed.outputSchemaJson output with
  | error detail =>
    rw [checked] at h
    exact ⟨nofun, (congrArg Prod.snd h).symm⟩
  | ok =>
    rw [checked] at h
    exact absurd h (transitionProcess_unraised _ told _ _)

end

/-- The usage that the effector has written into its value. -/
def EffectorResult.usage (digest : Json → String) (result : EffectorResult) : Option Json :=
  match domainPayload digest result.outputJson with
  | .ok payload => payload.member "usage"
  | .error _ => none

/-- An execution of a process whose adapter hands back a result that is accepted: nobody cancels it meanwhile, and the
    journal takes what the driver records. -/
structure Attempt where
  digest : Json → String
  outside : Outside
  worker : Worker
  process : ProcessRow
  adapter : AdapterSpec
  claimed : ProcessRow
  one : DriverResult
  before : Database
  middle : Database
  after : Database
  preflight : (adapter.preflight outside.processHost).isOk = true
  claim : (claimProcess process.runId process.id
    { workerId := worker.id, now := worker.now, leaseExpiresAt := worker.leaseExpiresAt }).eval before =
      (.ok claimed, middle)
  produced : Produced digest (outside.execute claimed adapter)
  accepted : (outside.execute claimed adapter).success = true
  ran : driveOnce digest outside worker process adapter before = (.ok one, after)
  uncancelled : one.cancelled = false

namespace Attempt

variable (a : Attempt)

def result : EffectorResult := a.outside.execute a.claimed a.adapter

/-- The usage is there, and is not valid. -/
def Malformed : Prop := ∃ usage, a.result.usage a.digest = some usage ∧ validateUsage usage ≠ .ok ()

/-- Malformed usage fails the attempt, and no other usage does. -/
structure FailsClosed : Prop where
  failed : a.Malformed → ∃ row, a.after.processes.find? a.claimed.key = some row ∧ row.status = .failed
  otherwise : ¬ a.Malformed → validateResultUsage a.result = .ok ()

/-- The output does not meet the schema of the process, and nothing is recorded yet under the key of its failure. -/
def Refused : Prop :=
  checkOutput a.digest a.claimed.outputSchemaJson (successOutputJson a.result) ≠ .ok () ∧
    a.middle.commandByKey a.claimed.runId (lapseKey a.claimed a.worker.now) = none

variable {a}

theorem stored : a.middle.processes.find? a.claimed.key = some a.claimed ∧ a.claimed.status = .running := by
  obtain ⟨old, found, -, updated, stored⟩ := claimProcess_row rfl a.claim
  have key : old.key = (a.process.runId, a.process.id) := Table.find?_key found
  have same : a.claimed.key = old.key := by
    rw [updated]
    rfl
  rw [same, key]
  refine ⟨stored, ?_⟩
  rw [updated]
  rfl

theorem unchecked : validateResultUsage a.result = .ok () := by
  obtain ⟨wire, -, -⟩ := a.produced.delivers a.accepted
  obtain ⟨output, parsed, absent⟩ := wire.root (by decide : "usage" ∉ Protocol.resultFields)
  have parsed : a.result.outputJson.parse = some output := parsed
  unfold validateResultUsage
  rw [parsed]
  dsimp only
  rw [absent]

theorem settles : completeClaimed a.digest a.worker a.claimed a.result a.middle = (.ok a.one, a.after) := by
  obtain ⟨-, waiting, sound⟩ := a.produced.delivers a.accepted
  obtain ⟨_, start, named, ran⟩ := Session.bind_ok.mp a.ran
  obtain ⟨-, rfl⟩ := Session.require_ok.mp named
  obtain ⟨claimed, middle, claim, ran⟩ := Session.bind_ok.mp ran
  have both := (Session.program_ok.mp claim).symm.trans a.claim
  obtain rfl : claimed = a.claimed := Except.ok.inj (congrArg Prod.fst both)
  obtain rfl : middle = a.middle := congrArg Prod.snd both
  have launched : ¬ ¬ (a.adapter.preflight a.outside.processHost).isOk = true := not_not.mpr a.preflight
  rw [if_neg launched] at ran
  have settled := executeClaimed_settles a.uncancelled ran
  unfold settleResult at settled
  rw [waiting, if_neg Bool.false_ne_true, if_pos ⟨a.accepted, sound⟩] at settled
  exact settled

theorem ends : (checkOutput a.digest a.claimed.outputSchemaJson (successOutputJson a.result) = .ok () ∧
      ∃ row, a.after.processes.find? a.claimed.key = some row ∧ (row = a.claimed ∨ row.status = .succeeded)) ∨
    (checkOutput a.digest a.claimed.outputSchemaJson (successOutputJson a.result) ≠ .ok () ∧
      ∃ row, a.after.processes.find? a.claimed.key = some row ∧
        if a.middle.commandByKey a.claimed.runId (lapseKey a.claimed a.worker.now) = none then row.status = .failed
        else row = a.claimed) := by
  have ran := a.settles
  have found := a.stored.1
  unfold completeClaimed at ran
  rw [unchecked] at ran
  dsimp only at ran
  unfold Session.handle at ran
  cases completed : (completeProcess a.digest a.claimed.runId a.claimed.id a.worker.id a.worker.now
      (successOutputJson a.result) .braces).eval a.middle with
  | mk answer after =>
    cases answer with
    | ok row =>
      have returned : (Session.program (completeProcess a.digest a.claimed.runId a.claimed.id a.worker.id a.worker.now
          (successOutputJson a.result) .braces)) a.middle = (.ok row, after) := completed
      rw [Session.bind_returned returned] at ran
      obtain rfl : after = a.after := congrArg Prod.snd ran
      obtain ⟨checked, moved⟩ := completeProcess_checked found completed
      exact .inl ⟨checked, row, transitionProcess_stored moved, transitionProcess_status found moved⟩
    | error detail =>
      have raised : (Session.program (completeProcess a.digest a.claimed.runId a.claimed.id a.worker.id a.worker.now
          (successOutputJson a.result) .braces)) a.middle = (.error detail, after) := completed
      rw [Session.bind_raised raised] at ran
      dsimp only at ran
      split at ran
      · rename_i told
        obtain ⟨refused, rfl⟩ := completeProcess_mismatch found told completed
        exact .inr ⟨refused, failViolating_status found ran⟩
      · cases (Session.of_ok.mp ran).1

/-- Malformed usage fails the attempt if and only if the schema of the process refuses the output anyway. -/
theorem usage_fails_closed_iff (a : Attempt) : a.FailsClosed ↔ ¬ a.Malformed ∨ a.Refused := by
  constructor
  · intro closed
    by_cases malformed : a.Malformed
    · right
      obtain ⟨row, found, failed⟩ := closed.failed malformed
      have unfailed : a.claimed.status ≠ .failed := by
        rw [a.stored.2]
        decide
      rcases a.ends with ⟨-, other, there, completed⟩ | ⟨refused, other, there, status⟩
      · obtain rfl : row = other := Option.some.inj (found.symm.trans there)
        rcases completed with rfl | succeeded
        · exact absurd failed unfailed
        · rw [succeeded] at failed
          cases failed
      · obtain rfl : row = other := Option.some.inj (found.symm.trans there)
        refine ⟨refused, ?_⟩
        by_contra recorded
        rw [if_neg recorded] at status
        rw [status] at failed
        exact unfailed failed
    · exact .inl malformed
  · intro either
    refine ⟨fun malformed => ?_, fun _ => unchecked⟩
    obtain ⟨refused, unused⟩ := either.resolve_left (not_not.mpr malformed)
    rcases a.ends with ⟨checked, -⟩ | ⟨-, row, found, status⟩
    · exact absurd checked refused
    · rw [if_pos unused] at status
      exact ⟨row, found, status⟩

end Attempt

/-- The schedule of a process without a schema. -/
def boilSchedule : ProcessSchedule :=
  { runId := "run", processId := "boil", processType := "kettle", createdAt := "t0" }

def boiling : Database :=
  afterDriving (fun _ => "digest")
    [(.process (.createRun { runId := "run", status := "active", metadata := "\x7b\x7d", createdAt := "t0" }), none),
      (.process (.scheduleProcess boilSchedule), none)]

def kettle : AdapterSpec := { kind := .nativeFunction, ref := "kettle" }

def boilRequest : EffectorRequest where
  processId := "boil"
  adapter := kettle
  impulseId := ""
  inputJson := .braces
  configJson := .braces
  attempt := 1
  maxAttempts := 1
  contextJson := .empty
  outputSchemaJson := .braces

/-- A native function whose value reports a usage that is no object. -/
def overcounting : EffectorResult :=
  executeNativeFunction (fun _ => "digest") boilRequest
    { registered := true, outputJson := .printed (.obj [("usage", .int 3)]) }

def kitchen : Outside where
  processHost := false
  execute _ _ := overcounting
  cancels _ _ := none
  backoffDue _ _ := .error ""

def cook : Worker := ⟨"cook", "t1", "t2"⟩

def boilRow : ProcessRow := boilSchedule.row .braces .braces .braces

/-- The driver completes a process whose usage is malformed. -/
theorem usage_fails_open : ¬ ∀ a : Attempt, a.FailsClosed := by
  intro closed
  have made : Produced (fun _ => "digest") overcounting := .native boilRequest _
  have accepted : overcounting.success = true := by decide +kernel
  have counted : overcounting.usage (fun _ => "digest") = some (.int 3) := by decide +kernel
  have malformed : ∃ usage, overcounting.usage (fun _ => "digest") = some usage ∧ validateUsage usage ≠ .ok () :=
    ⟨.int 3, counted, nofun⟩
  cases claim : (claimProcess "run" "boil" { workerId := "cook", now := "t1", leaseExpiresAt := "t2" }).eval boiling with
  | mk claims middle =>
    cases ran : driveOnce (fun _ => "digest") kitchen cook boilRow kettle boiling with
    | mk drives after =>
      have claimed : claims.toOption.map ProcessRow.key = some ("run", "boil") := by
        rw [← show _ = claims from congrArg Prod.fst claim]
        decide +kernel
      have driven : drives.toOption.map DriverResult.cancelled = some false := by
        rw [← show _ = drives from congrArg Prod.fst ran]
        decide +kernel
      have succeeded : (after.processes.find? ("run", "boil")).map ProcessRow.status = some .succeeded := by
        rw [← show _ = after from congrArg Prod.snd ran]
        decide +kernel
      cases claims with
      | error => cases claimed
      | ok row =>
        cases drives with
        | error => cases driven
        | ok one =>
          have key : row.key = ("run", "boil") := Option.some.inj claimed
          obtain ⟨left, found, failed⟩ := (closed {
            digest := fun _ => "digest"
            outside := kitchen
            worker := cook
            process := boilRow
            adapter := kettle
            claimed := row
            one, middle, after
            before := boiling
            preflight := by decide +kernel
            claim
            produced := made
            accepted
            ran
            uncancelled := Option.some.inj driven }).failed malformed
          have found : after.processes.find? row.key = some left := found
          rw [key] at found
          rw [found, Option.map_some, failed] at succeeded
          cases succeeded

end Fala.Driver
