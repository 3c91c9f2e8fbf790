import Fala.Driver.Execution
import Fala.Json.Messages
import Fala.Correlation.Persistence
import Fala.Driver.Loops
import Fala.Driver.Turns

/-! The results that adapters hand to the driver: messages of the wire protocol. -/

namespace Fala.Protocol
open Json Schema

section

-- The content address that the printer's bytes of a value have.
variable (digest : Json → String)

/-- `validate_message` on a text; what it returns is the canonical message. -/
def validatedText (text : Text) (kind : String) : Except String Json :=
  match text.parse with
  | none => .error "invalid JSON"
  | some message => do
    validateMessage digest message kind
    return message.canonical

/-- `assert_same_contract` -/
def assertSameContract (requestText resultText : Text) : Except String Unit := do
  let request ← validatedText digest requestText "request"
  let result ← validatedText digest resultText "result"
  let id ← requiredString request "contract_id" ""
  let id' ← requiredString result "contract_id" ""
  let version ← requiredString request "contract_version" ""
  let version' ← requiredString result "contract_version" ""
  ensure (id = id' ∧ version = version') "fep.contract_mismatch at /contract_id"

/-- `assert_answers` -/
def assertAnswers (requestText resultText : Text) : Except String Unit := do
  let request ← validatedText digest requestText "request"
  let result ← validatedText digest resultText "result"
  let ref ← requiredString result "ref" ""
  let id ← requiredString request "id" ""
  ensure (ref = id) "fep.ref_mismatch at /ref"
  let job ← requiredString result "job" ""
  let asked ← requiredString request "job" ""
  ensure (job = asked) "fep.job_mismatch at /job"
  let sender ← requiredString result "from" ""
  let addressee ← requiredString request "to" ""
  ensure (sender = addressee) "fep.direction_mismatch at /from"
  let recipient ← requiredString result "to" ""
  let asker ← requiredString request "from" ""
  ensure (recipient = asker) "fep.direction_mismatch at /to"
  assertSameContract digest requestText resultText

end
end Fala.Protocol

namespace Fala.Driver
open Durable Journal Protocol
open Bridge (setMember)
open Schema (ensure bind_ok)

namespace AdapterError

def subprocessTimeout : AdapterError := ⟨"adapter_timeout", "subprocess adapter timed out"⟩

def operatorCancelled : AdapterError := ⟨"operator_cancelled", "durable subprocess cancelled by journal request"⟩

def subprocessFailed (message : String) : AdapterError :=
  ⟨"adapter_failed", "subprocess adapter failed" ++ if message ≠ "" then ": " ++ message else ""⟩

def subprocessMissingOutput : AdapterError :=
  ⟨"adapter_missing_output", "subprocess adapter did not write output/result.json"⟩

def subprocessInvalidResult (message : String) : AdapterError :=
  ⟨"adapter_invalid_result", "subprocess adapter result is invalid: " ++ message⟩

def nativeFunctionFailed (ref detail : String) : AdapterError :=
  ⟨"native_function_failed",
    "native_function callable failed: " ++ ref ++ if detail ≠ "" then ": " ++ detail else ""⟩

def nativeFunctionNotRegistered (ref : String) : AdapterError :=
  ⟨"native_function_not_registered", "native_function ref is not registered: " ++ ref⟩

end AdapterError

/-- `EffectorResult.failure` -/
def EffectorResult.failure (error : AdapterError) : EffectorResult := { success := false, error }

/-- What the parent finds of a child process that has ended, and what it reads of the child's files: the streams,
    `result.json` if there is one, and the manifest if the environment names it. -/
structure EndedChild where
  timedOut : Bool
  cancelled : Bool
  waitStatus : Int
  exitCode : Int
  signal : Int
  pid : Int
  stdout : String
  stderr : String
  output : Option Text
  manifest : Option (Except String Text)

section
variable (digest : Json → String)

/-- The message that a child has written, checked against the request. -/
def EndedChild.result (child : EndedChild) (output : Text) : Except String Json := do
  let message ← validatedText digest output "result"
  match child.manifest with
  | none => return message
  | some manifest =>
    assertSameContract digest (← manifest) (.printed message)
    return message

/-- `collect_subprocess`; `redact` is `redact_environment` for the environment of the session. -/
def collectSubprocess (redact : String → String) (child : EndedChild) : EffectorResult :=
  let stdout := redact child.stdout
  let stderr := redact child.stderr
  let failed (returncode : Int) (error : AdapterError) : EffectorResult :=
    { success := false, stdout, stderr, returncode, error }
  if child.timedOut ∨ child.waitStatus = 3 then failed (-1) .subprocessTimeout
  else if child.cancelled ∨ child.waitStatus = 4 then failed child.exitCode .operatorCancelled
  else if child.waitStatus ≠ 0 ∨ child.signal ≠ 0 ∨ child.exitCode ≠ 0 then
    failed child.exitCode
      (.subprocessFailed (redact (if stderr = "" then "exit " ++ toString child.exitCode else stderr)))
  else
    match child.output with
    | none => failed child.exitCode .subprocessMissingOutput
    | some output =>
      if output = .empty then
        failed child.exitCode (.subprocessInvalidResult "result.json is empty or unreadable")
      else
        match child.result digest output with
        | .error detail => failed child.exitCode (.subprocessInvalidResult detail)
        | .ok message =>
          { success := true, outputJson := .printed message, stdout, stderr, returncode := child.exitCode,
            metadataJson := .printed (.obj [("pid", .int child.pid), ("signal", .int child.signal)]) }

structure EffectorRequest where
  processId : String
  adapter : AdapterSpec
  impulseId : String
  inputJson : Text
  configJson : Text
  attempt : Int
  maxAttempts : Int
  contextJson : Text
  outputSchemaJson : Text
  deriving DecidableEq

/-- `_validate_json_text` -/
def validateJsonText (value : Text) (field : String) : AdapterError :=
  match value.parse with
  | some (.obj _) => {}
  | some _ => .invalid (field ++ " must be a JSON object")
  | none => .invalid (field ++ " must contain valid JSON")

namespace EffectorRequest

/-- The first failing check of the adapter and of the request's own texts. -/
def check (r : EffectorRequest) : AdapterError :=
  if ¬ r.adapter.validate.isOk then r.adapter.validate
  else if ¬ (validateJsonText r.inputJson "request.input_json").isOk then
    validateJsonText r.inputJson "request.input_json"
  else validateJsonText r.configJson "request.config_json"

def nullText : Text := .printed .null

/-- The configuration that goes out with a request. -/
def config (r : EffectorRequest) (members : List (String × Json)) : Except String (List (String × Json)) := do
  let merged := setMember "max_attempts" (.int r.maxAttempts) (setMember "attempt" (.int r.attempt) members)
  let merged := if r.impulseId ≠ "" then setMember "impulse_id" (.str r.impulseId) merged else merged
  let merged ←
    if r.contextJson ≠ .empty ∧ r.contextJson ≠ nullText then
      match r.contextJson.parse with
      | some context => .ok (setMember "context" context merged)
      | none => .error "invalid JSON"
    else .ok merged
  match r.adapter.members with
  | some adapter => return setMember "adapter" (.obj adapter) merged
  | none => .error "invalid JSON"

/-- `adapter_manifest_json` -/
def manifest (r : EffectorRequest) : Except String Json := do
  ensure r.check.isOk r.check.message
  ensure (r.processId ≠ "") "request.process_id must not be empty"
  ensure (1 ≤ r.attempt) "request.attempt must be at least one"
  ensure (r.attempt ≤ r.maxAttempts) "request.max_attempts must be at least attempt"
  match r.configJson.parse, r.outputSchemaJson.parse with
  | some (.obj members), some schema =>
    let config ← r.config members
    requestMessage digest "parent" r.processId r.processId r.inputJson (.printed (.obj config))
      ("schema:sha256:" ++ digest schema.canonical) "1"
  | _, _ => .error "invalid JSON"

end EffectorRequest

structure NativeFunctionInvocation where
  registered : Bool := false
  outputJson : Text := .empty
  errorMessage : String := ""
  deriving DecidableEq

/-- What a function that speaks the wire protocol itself hands back. -/
def speaksWire (payload : Json) : Bool :=
  (payload.member "protocol").isSome ∧ payload.member "kind" = some (.str "result")

/-- The value of a native function that goes into the envelope. -/
def nativePayload (request value : Json) : Except String Json :=
  if speaksWire value then do
    assertSameContract digest (.printed request) (.printed value)
    domainPayload digest (.printed value)
  else .ok value

/-- The envelope that the parent puts around the value of a native function. -/
def nativeEnvelope (r : EffectorRequest) (outputJson : Text) : Except String Json := do
  let value ← canonicalText outputJson
  let request ← r.manifest digest
  let payload ← nativePayload digest request value
  let id ← requiredString request "id" ""
  let contractId ← requiredString request "contract_id" ""
  let contractVersion ← requiredString request "contract_version" ""
  let output ← resultMessage digest r.processId "parent" r.processId id (.printed payload) "ok" contractId
    contractVersion
  assertAnswers digest (.printed request) (.printed output)
  return output

/-- `execute_native_function`; what the registry answers is given. -/
def executeNativeFunction (r : EffectorRequest) (invocation : NativeFunctionInvocation) : EffectorResult :=
  if ¬ r.check.isOk then .failure r.check
  else if r.adapter.kind ≠ .nativeFunction then
    .failure (.invalid "execute_native_function requires native_function adapter")
  else if ¬ invocation.registered then
    if invocation.errorMessage ≠ "" then .failure (.invalid invocation.errorMessage)
    else .failure (.nativeFunctionNotRegistered r.adapter.ref)
  else if invocation.errorMessage ≠ "" then
    .failure (.nativeFunctionFailed r.adapter.ref invocation.errorMessage)
  else if ¬ (validateJsonText invocation.outputJson "native_function output_json").isOk then
    .failure (validateJsonText invocation.outputJson "native_function output_json")
  else
    match nativeEnvelope digest r invocation.outputJson with
    | .error detail => .failure (.subprocessInvalidResult detail)
    | .ok output =>
      { success := true, outputJson := .printed output, returncode := 0,
        metadataJson := .printed (.obj [("registry_ref", .str r.adapter.ref)]) }

/-- A result of an effector: of a child process, or of a native function. -/
inductive Produced : EffectorResult → Prop
  | subprocess (redact : String → String) (child : EndedChild) : Produced (collectSubprocess digest redact child)
  | native (r : EffectorRequest) (invocation : NativeFunctionInvocation) :
      Produced (executeNativeFunction digest r invocation)

end

/-- A validated result message, as the adapters print it. -/
def Wire (digest : Json → String) (text : Text) : Prop :=
  ∃ message, validateMessage digest message "result" = .ok () ∧ text = .printed message.canonical

section
variable {digest : Json → String} {text : Text}

theorem validatedText_ok {kind : String} {message : Json} (h : validatedText digest text kind = .ok message) :
    ∃ value, text.parse = some value ∧ validateMessage digest value kind = .ok () ∧ message = value.canonical := by
  unfold validatedText at h
  split at h
  · cases h
  · rename_i value parsed
    obtain ⟨_, checked, h⟩ := bind_ok.mp h
    cases h
    exact ⟨value, parsed, checked, rfl⟩

theorem EndedChild.result_wire {child : EndedChild} {message : Json}
    (h : child.result digest text = .ok message) : Wire digest (.printed message) := by
  obtain ⟨found, checked, h⟩ := bind_ok.mp h
  have same : found = message := by
    split at h
    · cases h
      rfl
    · obtain ⟨_, -, h⟩ := bind_ok.mp h
      obtain ⟨_, -, h⟩ := bind_ok.mp h
      cases h
      rfl
  subst same
  obtain ⟨value, -, valid, rfl⟩ := validatedText_ok checked
  exact ⟨value, valid, rfl⟩

theorem nativeEnvelope_wire {r : EffectorRequest} {output : Json}
    (h : nativeEnvelope digest r text = .ok output) : Wire digest (.printed output) := by
  simp only [nativeEnvelope, bind_ok] at h
  obtain ⟨value, -, request, -, payload, -, id, -, contractId, -, contractVersion, -, made, signed_, _, answers, same⟩ := h
  obtain rfl : made = output := Except.ok.inj same
  unfold assertAnswers at answers
  obtain ⟨_, -, answers⟩ := bind_ok.mp answers
  obtain ⟨_, checked, -⟩ := bind_ok.mp answers
  obtain ⟨value, parsed, valid, -⟩ := validatedText_ok checked
  obtain rfl : made = value := Option.some.inj parsed
  refine ⟨made, valid, ?_⟩
  simp only [resultMessage, bind_ok] at signed_
  obtain ⟨_, -, _, -, _, -, same⟩ := signed_
  rw [← Except.ok.inj same, signed, Json.canonical_canonical]

/-- A result that succeeded is a message, and asks for nothing else. -/
def Delivers (digest : Json → String) (result : EffectorResult) : Prop :=
  result.success = true → Wire digest result.outputJson ∧ result.waiting = false ∧ result.error.isOk = true

theorem Delivers.failed {result : EffectorResult} (unsuccessful : result.success = false) : Delivers digest result := by
  intro success
  rw [unsuccessful] at success
  cases success

theorem collectSubprocess_delivers (redact : String → String) (child : EndedChild) :
    Delivers digest (collectSubprocess digest redact child) := by
  unfold collectSubprocess
  dsimp only
  split
  · exact .failed rfl
  · split
    · exact .failed rfl
    · split
      · exact .failed rfl
      · cases child.output with
        | none => exact .failed rfl
        | some output =>
          dsimp only
          split
          · exact .failed rfl
          · cases found : child.result digest output with
            | error detail => exact .failed rfl
            | ok message => exact fun _ => ⟨EndedChild.result_wire found, rfl, rfl⟩

theorem executeNativeFunction_delivers (r : EffectorRequest) (invocation : NativeFunctionInvocation) :
    Delivers digest (executeNativeFunction digest r invocation) := by
  unfold executeNativeFunction
  split
  · exact .failed rfl
  · split
    · exact .failed rfl
    · split
      · split
        · exact .failed rfl
        · exact .failed rfl
      · split
        · exact .failed rfl
        · split
          · exact .failed rfl
          · cases enveloped : nativeEnvelope digest r invocation.outputJson with
            | error detail => exact .failed rfl
            | ok output => exact fun _ => ⟨nativeEnvelope_wire enveloped, rfl, rfl⟩

theorem Produced.delivers {result : EffectorResult} (produced : Produced digest result) : Delivers digest result := by
  cases produced with
  | subprocess redact child => exact collectSubprocess_delivers redact child
  | native r invocation => exact executeNativeFunction_delivers r invocation

theorem Wire.root {key : String} (wire : Wire digest text) (other : key ∉ resultFields) :
    ∃ output, text.parse = some output ∧ output.member key = none := by
  obtain ⟨message, valid, rfl⟩ := wire
  refine ⟨message.canonical, rfl, ?_⟩
  rw [Json.member_canonical]
  cases message with
  | obj members =>
    obtain ⟨kind, expected, sound⟩ := validateMessage_ok.mp valid
    obtain rfl : kind = "result" := expected.resolve_left (by decide)
    have absent : Json.lookup key members = none := sound.absent other
    rw [Json.member, absent]
    rfl
  | _ => rfl

end

end Fala.Driver

/-! Runs with nothing left to claim: what they keep through the writes of the driver. -/

namespace Fala.Driver
open Durable Program Journal

/-- A row that is not claimed any more: its attempts are used up, or its status takes no claim. -/
def Spent (row : ProcessRow) : Prop :=
  row.maxAttempts ≤ row.attempt ∨
    (row.status ≠ .pending ∧ row.status ≠ .ready ∧ row.status ≠ .retryWait ∧ row.status ≠ .running)

def Quiescent (runId : String) (db : Database) : Prop :=
  ∀ k row, db.processes.find? k = some row → k.1 = runId → Spent row

/-- A quiescent run stays quiescent, and no claim of it is recorded. -/
def Dormant (runId : String) (db db' : Database) : Prop :=
  Consistent db → Consistent db' ∧
    (Quiescent runId db → Quiescent runId db' ∧ ∀ id, claimsOf db' (runId, id) = claimsOf db (runId, id))

instance (runId : String) : Std.Refl (Dormant runId) where
  refl _ consistent := ⟨consistent, fun quiet => ⟨quiet, fun _ => rfl⟩⟩

instance (runId : String) : IsTrans Database (Dormant runId) where
  trans db middle db' first later consistent := by
    obtain ⟨between, sleeps⟩ := first consistent
    obtain ⟨after, stays⟩ := later between
    refine ⟨after, fun quiet => ?_⟩
    obtain ⟨quiet, unclaimed⟩ := sleeps quiet
    obtain ⟨quiet, still⟩ := stays quiet
    exact ⟨quiet, fun id => (still id).trans (unclaimed id)⟩

/-- An action that does not put a spent row up for a claim. -/
def Harmless : RowAction → Prop
  | .transition t _ _ => t.toStatus ≠ .retryWait
  | .command .. => False
  | _ => True

/-- A write that adds no row to a run, and only acts harmlessly on its rows. -/
def Beside (runId : String) : Write → Prop
  | .record .. => True
  | .schedule row _ _ => row.runId ≠ runId
  | .act run _ action => run ≠ runId ∨ Harmless action

section
variable {runId : String} {db db' : Database}

theorem Spent.unclaimable {row : ProcessRow} (spent : Spent row) (now : String) : claimable row now = false := by
  refine Bool.eq_false_iff.mpr fun claims => ?_
  obtain ⟨left, status⟩ := of_decide_eq_true claims
  rcases spent with used | ⟨-, ready, retry, running⟩
  · omega
  · rcases status with held | ⟨held, -⟩ | ⟨held, -⟩
    · exact ready held
    · exact retry held
    · exact running held

theorem Spent.apply {row : ProcessRow} {action : RowAction} (spent : Spent row) (enabled : action.Enabled row)
    (ordinary : action.Ordinary) (harmless : Harmless action) : Spent (action.apply row) := by
  cases action with
  | claim c =>
    have open_ : claimable row c.now = true := enabled.1
    rw [spent.unclaimable] at open_
    cases open_
  | expire worker now => refine .inr ⟨?_, ?_, ?_, ?_⟩ <;> rintro ⟨⟩
  | transition t output error => exact .inr ⟨ordinary.1, ordinary.2.1, harmless, ordinary.2.2⟩
  | command t output error => exact harmless.elim
  | park p => refine .inr ⟨?_, ?_, ?_, ?_⟩ <;> rintro ⟨⟩
  | resolve t output error =>
    obtain ⟨-, -, -, -, target⟩ := enabled
    right
    rcases target with same | same | same <;> simp [RowAction.apply, HomeostatTransition.update, same]
  | reopen r => refine .inr ⟨?_, ?_, ?_, ?_⟩ <;> rintro ⟨⟩
  | promote c child =>
    left
    exact spent.resolve_right fun status => status.1 enabled

theorem Dormant.written {w : Write} (written : Written db w db') (ordinary : w.Ordinary) (beside : Beside runId w) :
    Dormant runId db db' := by
  refine fun consistent => ⟨written.consistent consistent, fun quiet => ?_⟩
  cases written with
  | record processes logged =>
    refine ⟨fun k row found => quiet k row (processes ▸ found), fun id => ?_⟩
    rw [claimsOf, claimsOf, logged.told.claims ordinary]
  | schedule inserted logged =>
    refine ⟨fun k row found here => ?_, fun id => ?_⟩
    · rw [Table.find?_insert inserted] at found
      split at found
      · rename_i same
        cases found
        rw [← same] at here
        exact absurd here beside
      · exact quiet k row found here
    · rw [claimsOf, claimsOf, logged.told.claims ordinary.2.2]
  | @act run process action old _ current enabled processes logged =>
    refine ⟨fun k row found here => ?_, fun id => ?_⟩
    · rw [processes] at found
      split at found
      · rename_i same
        subst same
        cases found
        exact (quiet _ old current here).apply enabled ordinary (beside.resolve_left fun other => other here)
      · exact quiet k row found here
    · by_cases claims : ∃ c, action = .claim c
      · obtain ⟨c, rfl⟩ := claims
        have apart : (runId, id) ≠ (run, process) := by
          intro same
          have open_ : claimable old c.now = true := enabled.1
          rw [(quiet _ old current (congrArg Prod.fst same).symm).unclaimable] at open_
          cases open_
        rw [claim_counted consistent (Table.find?_key current) logged, if_neg apart, Nat.add_zero]
      · rw [claimsOf, claimsOf,
          logged.told.claims (RowAction.unclaimed enabled ordinary fun c same => claims ⟨c, same⟩)]

theorem Dormant.does {P : Write → Prop} (does : Does P db db') (ordinary : ∀ w, P w → w.Ordinary)
    (beside : ∀ w, P w → Beside runId w) : Dormant runId db db' := by
  obtain ⟨writes, allowed, done⟩ := does
  induction done with
  | nil => exact refl_of (Dormant runId) _
  | cons written _ ih =>
    obtain ⟨here, later⟩ := List.forall_mem_cons.mp allowed
    exact trans_of (Dormant runId) (.written written (ordinary _ here) (beside _ here)) (ih later)

theorem Moves.beside {run : String} {w : Write} (moves : Moves run w) (other : run ≠ runId) : Beside runId w := by
  cases w with
  | record => trivial
  | schedule => cases moves
  | act _ process action =>
    cases action with
    | transition t => exact .inl (moves.1 ▸ other)
    | park => exact .inr trivial
    | _ => cases moves

theorem Dormant.moves {run : String} (does : Does (Moves run) db db') (other : run ≠ runId) : Dormant runId db db' :=
  .does does (fun _ => Moves.ordinary) fun _ moves => moves.beside other

theorem Dormant.modified {k : String × String} {f : ProcessRow → ProcessRow} (keeps : ∀ r, (f r).key = r.key)
    (same : ∀ r, (f r).status = r.status ∧ (f r).attempt = r.attempt ∧ (f r).maxAttempts = r.maxAttempts) :
    Dormant runId db (db.setProcesses (db.processes.modify k f keeps)) := by
  intro consistent
  refine ⟨⟨consistent.numbered, consistent.housed, ?_, consistent.referenced⟩, fun quiet => ⟨?_, fun _ => rfl⟩⟩
  · intro k' row found
    have found : (db.processes.modify k f keeps).find? k' = some row := found
    rw [Table.find?_modify] at found
    split at found
    · rename_i same
      obtain ⟨old, held, -⟩ := Option.map_eq_some_iff.mp found
      exact same ▸ consistent.manned k old held
    · exact consistent.manned k' row found
  · intro k' row found here
    have found : (db.processes.modify k f keeps).find? k' = some row := found
    rw [Table.find?_modify] at found
    split at found
    · rename_i place
      obtain ⟨old, held, rfl⟩ := Option.map_eq_some_iff.mp found
      obtain ⟨status, attempt, most⟩ := same old
      have spent := quiet k old held (place ▸ here)
      unfold Spent at spent ⊢
      rwa [status, attempt, most]
    · exact quiet k' row found here

theorem maintainProcess_dormant (process : ProcessRow) (m : Maintenance) :
    (maintainProcess process m).Settles db (Dormant runId db) := by
  refine .require fun _ => .afterRead (getProcess_reads _ _) fun current read => .require fun _ => ?_
  obtain ⟨-, found, -⟩ := getProcess_ok.mp read
  have key : current.key = (process.runId, process.id) := Table.find?_key found
  have run : current.runId = process.runId := congrArg Prod.fst key
  have fails (t : ProcessTransition) (target : t.toStatus = .failed) :
      (transitionProcess t).Settles db (Dormant runId db) :=
    (transitionProcess_settles t db).imp fun db' commits => by
      refine .does (does_of_commits commits fun w makes => makes) ?_ ?_
      · rintro w ⟨output, error, -, -, rfl⟩
        exact ⟨target ▸ nofun, target ▸ nofun, target ▸ nofun⟩
      · rintro w ⟨output, error, -, -, rfl⟩
        right
        show t.toStatus ≠ .retryWait
        rw [target]
        exact nofun
  split
  · exact .ofReadOnly (.pure _)
  · rename_i running
    have running : current.status = .running := not_not.mp running
    unfold resolveExpired
    split
    · exact fails _ rfl
    · rename_i automatic
      refine .require fun _ => (transitionProcess_settles _ db).imp fun db' commits => ?_
      rcases commits with rfl | ⟨w, ⟨output, error, -, -, rfl⟩, written⟩
      · exact refl_of (Dormant runId) _
      · -- A spent row that is running has no attempts left, so it is not retried.
        have ordinary : Write.Ordinary (.act current.runId current.id
            (.transition (TransitionCall.transition (.retryProcess current.runId current.id m.workerId m.now m.due
              m.failure)) output error)) := ⟨nofun, nofun, nofun⟩
        by_cases here : current.runId = runId
        · refine fun consistent => ⟨written.consistent consistent, fun quiet => absurd ?_ automatic⟩
          have spent := quiet _ current found (run.symm.trans here)
          exact .inl (spent.resolve_right fun status => status.2.2.2 running)
        · exact .written written ordinary (.inl here)

theorem claimNextReady_dormant (run : String) (allRuns : Bool) (c : ClaimRequest) :
    Dormant runId db ((claimNextReady run allRuns c).eval db).2 := by
  intro consistent
  have settles := claimNextReady_settles run allRuns c consistent.manned' none
  change ((claimNextReady run allRuns c).eval db).2 = db ∨ _ ∧ _ at settles
  rcases settles with same | ⟨-, does⟩
  · rw [same]
    exact refl_of (Dormant runId) db consistent
  · refine Dormant.does does ?_ ?_ consistent
    · rintro w (⟨_, _, -, rfl⟩ | ⟨-, _, -, rfl⟩) <;> trivial
    · rintro w (⟨_, _, -, rfl⟩ | ⟨-, _, -, rfl⟩) <;> exact .inr trivial

end

end Fala.Driver
