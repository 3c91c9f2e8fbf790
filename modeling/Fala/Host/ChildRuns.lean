import Mathlib.Data.List.Basic
import Fala.Correlation.Projection
import Fala.Durable.Atomic
import Fala.Durable.Dict
import Fala.Durable.History

/-! The subprocess of a process whose adapter is `child_path`. -/

namespace Fala.Host
open Durable Program
open Correlation (setMember)

/-- `FALA_CHILD_PATH_SPEC`, as the loader of the package writes it. -/
structure ChildSpec where
  packageRef : String
  pathId : String
  journalRoot : String
  inputMapping : List (String × String)
  terminalMapping : List (String × String)
  retention : String

/-- The process that is executed, as its environment and its manifest name it; no text of an environment holds a
    NUL. -/
structure ParentProcess where
  db : String
  runId : String
  processId : String
  payload : Json
  plain : '\x00' ∉ runId.toList ∧ '\x00' ∉ processId.toList

/-- The arguments of `host_run_package`. -/
structure HostRequest where
  dbPath : String
  packagePath : String
  pathId : String
  runId : String
  inputs : List (String × Json)
  deriving DecidableEq

/-- The journals of child runs with their contents, the effectors of child paths that were executed, and the payloads
    that attempts have written as their results. -/
structure World (J E : Type) where
  files : Dict String J
  executed : List E
  written : List (List (String × Json))
  deriving DecidableEq

variable {J E : Type}

/-- `_value_at` -/
def valueAt (value : Json) (path : String) : Except String Json :=
  match Json.valueAt (Json.segments path) value with
  | some found => .ok found
  | none => .error ("child_path input mapping path is missing: " ++ path)

/-- The inputs of the child, taken from those of its parent. -/
def mappedInputs (parent : Json) : List (String × String) → Except String (List (String × Json))
  | [] => .ok []
  | (target, source) :: rest => do
    let value ← valueAt parent source
    let inputs ← mappedInputs parent rest
    return (target, value) :: inputs

/-- The truth value of a JSON value. -/
def truthy : Json → Bool
  | .null => false
  | .bool value => value
  | .int value => value ≠ 0
  | .uint value => value ≠ 0
  | .float value => value ≠ 0
  | .str value => value ≠ ""
  | .arr items => items ≠ []
  | .obj members => members ≠ []

/-- The evidence of a path result joins the payload. -/
def withEvidence (evidence : Option Json) (payload : List (String × Json)) : Except String (List (String × Json)) :=
  match evidence with
  | none => .ok payload
  | some evidence =>
    if truthy evidence then
      match evidence with
      | .arr items => .ok (setMember "evidence" (.arr items) payload)
      | _ => .error "child_path path_result.evidence must be a list"
    else .ok payload

section
variable (resolve digest : String → String) (spec : ChildSpec) (parent : ParentProcess)

/-- `digest` is the hexadecimal SHA-256 of a text, cut after 24 digits. -/
def identity : String := digest (parent.runId ++ "\x00" ++ parent.processId)

def childRun : String := "child-" ++ identity digest parent

/-- `root / name`, under a root that is resolved. -/
def joinPath (root name : String) : String := if root.endsWith "/" then root ++ name else root ++ "/" ++ name

def childDb : String := joinPath (resolve spec.journalRoot) (identity digest parent ++ ".sqlite")

def childRequest (inputs : List (String × Json)) : HostRequest where
  dbPath := childDb resolve digest spec parent
  packagePath := spec.packageRef
  pathId := spec.pathId
  runId := childRun digest parent
  inputs := inputs

def childRef (pathDigest : Json) (terminal : String) : Json :=
  .obj [("journal", .str (childDb resolve digest spec parent)), ("run_id", .str (childRun digest parent)),
    ("path_digest", pathDigest), ("terminal", .str terminal)]

/-- The payload made of what `host_run_package` returned. -/
def childPayload (result : Json) : Except String (List (String × Json)) :=
  match result.member "path_result" with
  | some (.obj members) =>
    match Json.lookup "terminal" members with
    | some (.str terminal) =>
      match spec.terminalMapping.lookup terminal with
      | none => .error ("child_path returned unmapped terminal: " ++ terminal)
      | some mapped =>
        match Json.lookup "values" members with
        | some (.obj values) =>
          let ref := childRef resolve digest spec parent ((Json.lookup "path_digest" members).getD .null) terminal
          withEvidence (Json.lookup "evidence" members)
            (setMember "terminal" (.str mapped) (setMember "child_ref" ref values))
        | _ => .error "child_path path_result.values must be an object"
    | _ => .error "child_path returned unmapped terminal"
  | _ => .error "child_path did not return a typed path terminal"

/-- `mkdir` with `exist_ok`; no journal changes. -/
def makeRoot : Program (World J E) Unit := .fetch fun _ => ()

def writeResult (payload : List (String × Json)) : Program (World J E) Unit :=
  .statement fun w => .ok ((), { w with written := w.written ++ [payload] })

/-- `unlink` with `missing_ok`. -/
def unlink (path : String) : Program (World J E) Unit :=
  .statement fun w => .ok ((), { w with files := w.files.erase path })

/-- The journal goes with its two companions. -/
def discard (path : String) : Program (World J E) Unit := do
  unlink path
  unlink (path ++ "-wal")
  unlink (path ++ "-shm")

/-- What follows the call of the host. -/
def answer (result : Json) : Program (World J E) Unit := do
  let payload ← .ofExcept (childPayload resolve digest spec parent result)
  writeResult payload
  if spec.retention = "delete_on_success" then discard (childDb resolve digest spec parent)

/-- `main`; what is raised ends the process with status 1. -/
def runChildPath (host : HostRequest → Program (World J E) Json) : Program (World J E) Unit := do
  makeRoot
  .require (childDb resolve digest spec parent ≠ parent.db) "child_path journal must differ from parent journal"
  let inputs ← .ofExcept (mappedInputs parent.payload spec.inputMapping)
  let result ← host (childRequest resolve digest spec parent inputs)
  answer resolve digest spec parent result

end

/-- A host that replays a terminal run: where the journal holds one, nothing is executed and nothing is written for
    the parent, however the call ends; the journal holds the run still, and a call that is not cut off returns its
    result. -/
structure Replays (terminal : HostRequest → J → Option Json) (host : HostRequest → Program (World J E) Json) : Prop where
  quiet : ∀ request w j result faults, w.files.get request.dbPath = some j → terminal request j = some result →
    ((host request).run ⟨w, faults⟩).2.store.executed = w.executed ∧
      ((host request).run ⟨w, faults⟩).2.store.written = w.written ∧
        ∃ later, ((host request).run ⟨w, faults⟩).2.store.files.get request.dbPath = some later ∧
          terminal request later = some result
  returns : ∀ request w j result, w.files.get request.dbPath = some j → terminal request j = some result →
    ((host request).eval w).1 = .ok result

/-- An attempt: how the host behaves during it, and after how many of its statements it is cut off. -/
structure ChildAttempt (J E : Type) (terminal : HostRequest → J → Option Json) where
  host : HostRequest → Program (World J E) Json
  replays : Replays terminal host
  faults : Option Nat

section
variable (resolve digest : String → String) (spec : ChildSpec) (parent : ParentProcess)
  {terminal : HostRequest → J → Option Json}

def attemptStep (w : World J E) (a : ChildAttempt J E terminal) : World J E :=
  ((runChildPath resolve digest spec parent a.host).run ⟨w, a.faults⟩).2.store

def afterAttempts (w : World J E) (attempts : List (ChildAttempt J E terminal)) : World J E :=
  execute (attemptStep resolve digest spec parent) w attempts

end
end Fala.Host

/-! How often the attempts of one process run its child path. -/

namespace Fala.Host
open Durable Program

variable {J E : Type} {resolve digest : String → String} {spec : ChildSpec} {parent : ParentProcess}
  {terminal : HostRequest → J → Option Json}

section Journals

theorem identity_text {p q : ParentProcess}
    (same : p.runId ++ "\x00" ++ p.processId = q.runId ++ "\x00" ++ q.processId) :
    p.runId = q.runId ∧ p.processId = q.processId := by
  have texts := congrArg String.toList same
  simp only [String.toList_append] at texts
  have texts : p.runId.toList ++ '\x00' :: p.processId.toList = q.runId.toList ++ '\x00' :: q.processId.toList := by
    simpa using texts
  obtain ⟨run, -, process⟩ := (List.append_cons_inj_of_notMem p.plain.1 p.plain.2).mp texts
  exact ⟨String.ext run, String.ext process⟩

theorem append_inj {root left right : String} (same : root ++ left = root ++ right) : left = right := by
  have texts := congrArg String.toList same
  rw [String.toList_append, String.toList_append] at texts
  exact String.ext (List.append_cancel_left texts)

theorem joinPath_injective {root left right : String} (same : joinPath root left = joinPath root right) :
    left = right := by
  unfold joinPath at same
  split at same
  · exact append_inj same
  · rw [String.append_assoc, String.append_assoc] at same
    exact append_inj (append_inj same)

theorem childDb_ne {p q : ParentProcess} (different : (p.runId, p.processId) ≠ (q.runId, q.processId))
    (free : digest (p.runId ++ "\x00" ++ p.processId) = digest (q.runId ++ "\x00" ++ q.processId) →
      p.runId ++ "\x00" ++ p.processId = q.runId ++ "\x00" ++ q.processId) :
    childDb resolve digest spec p ≠ childDb resolve digest spec q := by
  intro same
  have named := joinPath_injective same
  have digests : identity digest p = identity digest q := by
    have texts := congrArg String.toList named
    rw [String.toList_append, String.toList_append] at texts
    exact String.ext (List.append_cancel_right texts)
  obtain ⟨run, process⟩ := identity_text (free digests)
  exact different (Prod.ext run process)

end Journals

variable (resolve digest spec parent terminal)

/-- The journal of the child is there. -/
def Present (w : World J E) : Prop := (w.files.get (childDb resolve digest spec parent)).isSome = true

/-- The child run of these attempts has come to a mapped terminal, of which a payload is made. -/
structure Reached (payload : List (String × Json)) (w : World J E) : Prop where
  apart : childDb resolve digest spec parent ≠ parent.db
  arrived : ∃ inputs j result, mappedInputs parent.payload spec.inputMapping = .ok inputs ∧
    w.files.get (childDb resolve digest spec parent) = some j ∧
      terminal (childRequest resolve digest spec parent inputs) j = some result ∧
        childPayload resolve digest spec parent result = .ok payload

/-- Since an earlier state nothing was executed and only the one payload was written, and the journal, while it is
    there, holds the run as before. -/
structure Repeats (payload : List (String × Json)) (start w : World J E) : Prop where
  executed : w.executed = start.executed
  written : ∃ n, w.written = start.written ++ List.replicate n payload
  reached : Present resolve digest spec parent w → Reached resolve digest spec parent terminal payload w

variable {resolve digest spec parent terminal} {payload : List (String × Json)} {start w : World J E}

theorem Reached.present (reached : Reached resolve digest spec parent terminal payload w) :
    Present resolve digest spec parent w := by
  obtain ⟨inputs, j, result, -, found, -⟩ := reached.arrived
  exact Option.isSome_of_eq_some found

theorem Reached.repeats (reached : Reached resolve digest spec parent terminal payload w) :
    Repeats resolve digest spec parent terminal payload w w :=
  ⟨rfl, ⟨0, (List.append_nil _).symm⟩, fun _ => reached⟩

theorem Reached.of_files {w' : World J E} (reached : Reached resolve digest spec parent terminal payload w)
    (same : w'.files.get (childDb resolve digest spec parent) = w.files.get (childDb resolve digest spec parent)) :
    Reached resolve digest spec parent terminal payload w' := by
  obtain ⟨apart, inputs, j, result, mapped, found, ended, paid⟩ := reached
  exact ⟨apart, inputs, j, result, mapped, same.trans found, ended, paid⟩

theorem writeResult_repeats : (writeResult payload : Program (World J E) Unit).Keeps
    (Repeats resolve digest spec parent terminal payload start) := by
  refine .statement fun w a w' h held => ?_
  cases h
  obtain ⟨executed, ⟨n, written⟩, reached⟩ := held
  refine ⟨executed, ⟨n + 1, ?_⟩, fun present => (reached present).of_files rfl⟩
  show w.written ++ [payload] = _
  rw [written, List.append_assoc, List.replicate_succ']

theorem unlink_repeats (path : String) : (unlink path : Program (World J E) Unit).Keeps
    (Repeats resolve digest spec parent terminal payload start) := by
  refine .statement fun w a w' h held => ?_
  cases h
  refine ⟨held.executed, held.written, fun present => ?_⟩
  have files : (w.files.erase path).get (childDb resolve digest spec parent) =
      if path = childDb resolve digest spec parent then none else w.files.get (childDb resolve digest spec parent) :=
    Dict.get_erase w.files path _
  by_cases here : path = childDb resolve digest spec parent
  · rw [if_pos here] at files
    have present : ((w.files.erase path).get (childDb resolve digest spec parent)).isSome = true := present
    rw [files] at present
    cases present
  · rw [if_neg here] at files
    have before : Present resolve digest spec parent w := by
      unfold Present
      rw [← files]
      exact present
    exact (held.reached before).of_files files

theorem discard_repeats (path : String) : (discard path : Program (World J E) Unit).Keeps
    (Repeats resolve digest spec parent terminal payload start) :=
  .bind (unlink_repeats _) fun _ => .bind (unlink_repeats _) fun _ => unlink_repeats _

theorem answer_repeats {result : Json} (paid : childPayload resolve digest spec parent result = .ok payload) :
    (answer resolve digest spec parent result : Program (World J E) Unit).Keeps
      (Repeats resolve digest spec parent terminal payload start) := by
  unfold answer
  rw [paid]
  show (writeResult payload >>= fun _ => _).Keeps _
  exact .bind writeResult_repeats fun _ => .ite (discard_repeats _) (.pure _)

theorem answer_present {result : Json} (keep : spec.retention ≠ "delete_on_success") :
    (answer resolve digest spec parent result : Program (World J E) Unit).Keeps (Present resolve digest spec parent) := by
  unfold answer
  rw [if_neg keep]
  exact .bind (.ofExcept _) fun _ => .bind (.statement fun w a w' h held => by cases h; exact held) fun _ => .pure _

theorem run_read {α β : Type} {p : Program (World J E) α} {f : α → Program (World J E) β} {K : World J E → Prop}
    (reads : ReadOnly p) (here : K w) (rest : ∀ a faults, p.eval w = (.ok a, w) → K ((f a).run ⟨w, faults⟩).2.store)
    (faults : Option Nat) : K ((p >>= f).run ⟨w, faults⟩).2.store := by
  have same := reads ⟨w, faults⟩
  rw [run_bind]
  cases first : p.run ⟨w, faults⟩ with
  | mk result middle =>
    obtain ⟨store, left⟩ := middle
    rw [first] at same
    obtain rfl : store = w := same
    cases result with
    | ok a => exact rest a left (eval_of_run first)
    | error message => exact here

theorem runChildPath_replays {K : World J E → Prop} {host : HostRequest → Program (World J E) Json}
    (replays : Replays terminal host) (faults : Option Nat)
    (reached : Reached resolve digest spec parent terminal payload w)
    (quiet : ∀ w' : World J E, w'.executed = w.executed → w'.written = w.written →
      Reached resolve digest spec parent terminal payload w' → K w')
    (answered : ∀ result, childPayload resolve digest spec parent result = .ok payload →
      (answer resolve digest spec parent result : Program (World J E) Unit).Keeps K) :
    K ((runChildPath resolve digest spec parent host).run ⟨w, faults⟩).2.store := by
  have here : K w := quiet w rfl rfl reached
  obtain ⟨apart, inputs, j, result, mapped, found, ended, paid⟩ := reached
  unfold runChildPath
  refine run_read (.fetch _) here (fun _ faults _ => run_read (.require _ _) here (fun _ faults _ =>
    run_read (.ofExcept _) here (fun taken faults took => ?_) faults) faults) faults
  obtain ⟨took, -⟩ := ofExcept_ok.mp took
  obtain rfl : inputs = taken := Except.ok.inj (mapped.symm.trans took)
  obtain ⟨executed, written, later, found', ended'⟩ :=
    replays.quiet (childRequest resolve digest spec parent inputs) w j result faults found ended
  have returned := replays.returns (childRequest resolve digest spec parent inputs) w j result found ended
  rw [run_bind]
  cases called : (host (childRequest resolve digest spec parent inputs)).run ⟨w, faults⟩ with
  | mk outcome middle =>
    rw [called] at executed written found'
    have kept : K middle.store :=
      quiet middle.store executed written ⟨apart, inputs, later, result, mapped, found', ended', paid⟩
    cases outcome with
    | error message => exact kept
    | ok told =>
      have evaluated := eval_of_run called
      rw [evaluated] at returned
      obtain rfl : told = result := Except.ok.inj returned
      exact answered told paid middle kept

theorem attemptStep_repeats (repeats : Repeats resolve digest spec parent terminal payload start w)
    (present : Present resolve digest spec parent w) (a : ChildAttempt J E terminal) :
    Repeats resolve digest spec parent terminal payload start (attemptStep resolve digest spec parent w a) := by
  refine runChildPath_replays a.replays a.faults (repeats.reached present) (fun w' executed written reached => ?_)
    fun result paid => answer_repeats paid
  obtain ⟨n, before⟩ := repeats.written
  exact ⟨executed.trans repeats.executed, ⟨n, written.trans before⟩, fun _ => reached⟩

theorem attemptStep_present (keep : spec.retention ≠ "delete_on_success")
    (reached : Reached resolve digest spec parent terminal payload w) (a : ChildAttempt J E terminal) :
    Present resolve digest spec parent (attemptStep resolve digest spec parent w a) :=
  runChildPath_replays a.replays a.faults reached (fun _ _ _ later => later.present) fun _ _ => answer_present keep

variable (attempts : List (ChildAttempt J E terminal))

/-- Every attempt finds the journal of the child. -/
def Found (resolve digest : String → String) (spec : ChildSpec) (parent : ParentProcess) (w : World J E)
    (attempts : List (ChildAttempt J E terminal)) : Prop :=
  Along (attemptStep resolve digest spec parent) (fun w _ => Present resolve digest spec parent w) w attempts

theorem afterAttempts_repeats (repeats : Repeats resolve digest spec parent terminal payload start w)
    (found : Found resolve digest spec parent w attempts) :
    Repeats resolve digest spec parent terminal payload start (afterAttempts resolve digest spec parent w attempts) := by
  induction attempts generalizing w with
  | nil => exact repeats
  | cons a rest ih => exact ih (attemptStep_repeats repeats found.1 a) found.2

theorem found_of_keep (keep : spec.retention ≠ "delete_on_success")
    (reached : Reached resolve digest spec parent terminal payload w) : Found resolve digest spec parent w attempts := by
  induction attempts generalizing w with
  | nil => trivial
  | cons a rest ih =>
    have present := attemptStep_present keep reached a
    exact ⟨reached.present, ih ((attemptStep_repeats reached.repeats reached.present a).reached present)⟩

theorem runChildPath_answers (reached : Reached resolve digest spec parent terminal payload w)
    (a : ChildAttempt J E terminal) :
    ((runChildPath resolve digest spec parent a.host).eval w).1 = .ok () ∧
      ((runChildPath resolve digest spec parent a.host).eval w).2.written = w.written ++ [payload] := by
  obtain ⟨apart, inputs, j, result, mapped, found, ended, paid⟩ := reached
  obtain ⟨-, written, -⟩ :=
    a.replays.quiet (childRequest resolve digest spec parent inputs) w j result none found ended
  have returned := a.replays.returns (childRequest resolve digest spec parent inputs) w j result found ended
  have made : (makeRoot : Program (World J E) Unit).eval w = (.ok (), w) := rfl
  unfold runChildPath
  rw [ok_bind made, ok_bind (require_met (decide_eq_true apart)),
    ok_bind (ofExcept_ok.mpr ⟨mapped, rfl⟩)]
  cases called : (a.host (childRequest resolve digest spec parent inputs)).eval w with
  | mk outcome middle =>
    rw [called] at returned
    obtain rfl : outcome = .ok result := returned
    have written : middle.written = w.written := by
      rw [← written]
      exact (congrArg (fun r => r.2.written) called).symm
    rw [ok_bind called]
    unfold answer
    rw [ok_bind (ofExcept_ok.mpr ⟨paid, rfl⟩)]
    have wrote : (writeResult payload : Program (World J E) Unit).eval middle =
        (.ok (), { middle with written := middle.written ++ [payload] }) := rfl
    rw [ok_bind wrote]
    split
    · exact ⟨rfl, congrArg (· ++ [payload]) written⟩
    · exact ⟨rfl, congrArg (· ++ [payload]) written⟩

/-- Nothing is executed between two states, what is written is one payload again and again, and an attempt that finds
    the journal after them, and that nothing cuts off, writes it too. -/
structure RunsOnce (resolve digest : String → String) (spec : ChildSpec) (parent : ParentProcess)
    (terminal : HostRequest → J → Option Json) (payload : List (String × Json)) (w w' : World J E) : Prop where
  executed : w'.executed = w.executed
  written : ∃ n, w'.written = w.written ++ List.replicate n payload
  answers : Present resolve digest spec parent w' → ∀ a : ChildAttempt J E terminal,
    ((runChildPath resolve digest spec parent a.host).eval w').1 = .ok () ∧
      ((runChildPath resolve digest spec parent a.host).eval w').2.written = w'.written ++ [payload]

variable (resolve digest spec terminal)

/-- Once the child run has come to a mapped terminal, no attempt executes anything of it any more and each attempt
    writes the same payload, however the attempts are cut off, as long as each of them finds the journal of the child,
    which they do where it is kept; and the children of different processes have different journals. -/
theorem child_path_once :
    (∀ parent payload (w : World J E) (attempts : List (ChildAttempt J E terminal)),
      Reached resolve digest spec parent terminal payload w →
        (spec.retention = "delete_on_success" → Found resolve digest spec parent w attempts) →
          RunsOnce resolve digest spec parent terminal payload w (afterAttempts resolve digest spec parent w attempts)) ∧
    ∀ p q : ParentProcess, (p.runId, p.processId) ≠ (q.runId, q.processId) →
      (digest (p.runId ++ "\x00" ++ p.processId) = digest (q.runId ++ "\x00" ++ q.processId) →
        p.runId ++ "\x00" ++ p.processId = q.runId ++ "\x00" ++ q.processId) →
          childDb resolve digest spec p ≠ childDb resolve digest spec q := by
  refine ⟨fun parent payload w attempts reached finds => ?_, fun p q different free => childDb_ne different free⟩
  have found : Found resolve digest spec parent w attempts := by
    by_cases deletes : spec.retention = "delete_on_success"
    · exact finds deletes
    · exact found_of_keep attempts deletes reached
  have repeats := afterAttempts_repeats attempts reached.repeats found
  exact ⟨repeats.executed, repeats.written, fun present a => runChildPath_answers (repeats.reached present) a⟩

/-! A child of one effector, and a host that executes it unless the journal holds its result. -/

def done : Json := .obj [("path_result", .obj [("terminal", .str "done"), ("values", .obj [("received", .int 210)]),
  ("evidence", .arr []), ("path_digest", .str "digest")])]

def singleStep (request : HostRequest) : Program (World Json String) Json := .statement fun w =>
  match w.files.get request.dbPath with
  | some result => .ok (result, w)
  | none => .ok (done, { w with files := w.files.set request.dbPath done, executed := w.executed ++ ["step"] })

theorem singleStep_replays : Replays (fun _ result => some result) singleStep := by
  have replayed {request : HostRequest} {w : World Json String} {result : Json}
      (found : w.files.get request.dbPath = some result) (faults : Option Nat) :
      ((singleStep request).run ⟨w, faults⟩).2.store = w := by
    unfold singleStep
    rcases faults with _ | _ | n <;> simp [Program.statement, Connection.tick, found]
  constructor
  · intro request w j result faults found ended
    rw [replayed found faults]
    exact ⟨rfl, rfl, j, found, ended⟩
  · intro request w j result found ended
    cases ended
    unfold singleStep
    rw [eval_statement, found]

def sampleAttempt : ChildAttempt Json String fun _ result => some result := ⟨singleStep, singleStep_replays, none⟩

def sampleSpec (retention : String) : ChildSpec where
  packageRef := "child.json"
  pathId := "work"
  journalRoot := "children"
  inputMapping := [("ticket", "ticket")]
  terminalMapping := [("done", "complete")]
  retention := retention

def samplePayload : Json := .obj [("ticket", .int 210)]

def sampleParent (process : String) (plain : '\x00' ∉ process.toList) : ParentProcess where
  db := "/work/parent.sqlite"
  runId := "run"
  processId := process
  payload := samplePayload
  plain := ⟨by decide, plain⟩

def sampleResolve (path : String) : String := "/work/" ++ path

/-- The digests of the two processes. -/
def sampleDigest (text : String) : String :=
  if text = "run\x00call" then "1afdf9f5f3256cdb91364e06" else "832f9500d220afadbd09f00d"

def caller : ParentProcess := sampleParent "call" (by decide)

/-- The child run is over, and nothing was told to the parent yet. -/
def arrived (retention : String) : World Json String where
  files := Dict.set .empty (childDb sampleResolve sampleDigest (sampleSpec retention) caller) done
  executed := ["step"]
  written := []

def toldPayload (retention : String) : List (String × Json) :=
  [("received", .int 210),
    ("child_ref", childRef sampleResolve sampleDigest (sampleSpec retention) caller (.str "digest") "done"),
    ("terminal", .str "complete")]

theorem arrived_reached (retention : String) : Reached sampleResolve sampleDigest (sampleSpec retention) caller
    (fun _ result => some result) (toldPayload retention) (arrived retention) := by
  have apart : childDb sampleResolve sampleDigest (sampleSpec "keep") caller ≠ caller.db := by decide +kernel
  have mapped : mappedInputs caller.payload (sampleSpec "keep").inputMapping = .ok [("ticket", .int 210)] := by
    decide +kernel
  refine ⟨apart, [("ticket", .int 210)], done, done, mapped, ?_, rfl, rfl⟩
  unfold arrived
  rw [Dict.get_set, if_pos rfl]

theorem child_path_once_kept :
    RunsOnce sampleResolve sampleDigest (sampleSpec "keep") caller (fun _ result => some result) (toldPayload "keep")
      (arrived "keep") (afterAttempts sampleResolve sampleDigest (sampleSpec "keep") caller (arrived "keep")
        [sampleAttempt, sampleAttempt]) ∧
    childDb sampleResolve sampleDigest (sampleSpec "keep") caller ≠
      childDb sampleResolve sampleDigest (sampleSpec "keep") (sampleParent "other" (by decide)) := by
  have once := child_path_once sampleResolve sampleDigest (sampleSpec "keep")
    (fun (_ : HostRequest) (result : Json) => some result) (E := String)
  refine ⟨once.1 caller (toldPayload "keep") (arrived "keep") [sampleAttempt, sampleAttempt] (arrived_reached "keep")
    fun deletes => absurd deletes (by decide), once.2 caller (sampleParent "other" (by decide)) (by decide) fun same => ?_⟩
  exact absurd same (by decide +kernel)

/-- The first attempt deletes the journal, and the second one executes the child path again. -/
theorem child_path_runs_again : ¬ ∀ attempts : List (ChildAttempt Json String fun _ result => some result),
    RunsOnce sampleResolve sampleDigest (sampleSpec "delete_on_success") caller (fun _ result => some result)
      (toldPayload "delete_on_success") (arrived "delete_on_success")
      (afterAttempts sampleResolve sampleDigest (sampleSpec "delete_on_success") caller (arrived "delete_on_success")
        attempts) := by
  intro once
  have again : (afterAttempts sampleResolve sampleDigest (sampleSpec "delete_on_success") caller
      (arrived "delete_on_success") [sampleAttempt, sampleAttempt]).executed = ["step", "step"] := by decide +kernel
  rw [(once [sampleAttempt, sampleAttempt]).executed] at again
  cases again

end Fala.Host
