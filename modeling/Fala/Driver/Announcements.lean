import Fala.Driver.Afterwards

/-! Which histories leave every status change in the log. -/

namespace Fala.Driver
open Durable Program Journal
open Correlation (Persistence)

/-- What is consistent stays so, the statuses are announced, and they stay recomputable. -/
def Announces (db db' : Database) : Prop :=
  Consistent db → Consistent db' ∧ Announced db db' ∧ (Recounted db → Recounted db')

instance : Std.Refl Announces where
  refl db consistent := ⟨consistent, refl_of Announced db, id⟩

instance : IsTrans Database Announces where
  trans _ _ _ first later consistent := by
    obtain ⟨between, announced, recounts⟩ := first consistent
    obtain ⟨after, announced', recounts'⟩ := later between
    exact ⟨after, trans_of Announced announced announced', recounts' ∘ recounts⟩

variable {digest : Json → String} {db db' : Database}

theorem Announces.written {w : Write} (written : Written db w db') (tells : w.Tells) : Announces db db' :=
  fun consistent => ⟨written.consistent consistent, written.tells tells consistent⟩

theorem Announces.does {P : Write → Prop} (does : Does P db db') (tells : ∀ w, P w → w.Tells) : Announces db db' := by
  obtain ⟨writes, allowed, done⟩ := does
  induction done with
  | nil => exact refl_of Announces _
  | cons written _ ih =>
    obtain ⟨here, later⟩ := List.forall_mem_cons.mp allowed
    exact trans_of Announces (.written written (tells _ here)) (ih later)

theorem Announces.commits {P : Write → Prop} (commits : Commits P db db') (tells : ∀ w, P w → w.Tells) :
    Announces db db' := .does commits.does tells

theorem Announces.modified {k : String × String} {f : ProcessRow → ProcessRow} (keeps : ∀ r, (f r).key = r.key)
    (same : ∀ r, (f r).status = r.status) :
    Announces db (db.setProcesses (db.processes.modify k f keeps)) := by
  have status {k' : String × String} {row : ProcessRow}
      (found : (db.processes.modify k f keeps).find? k' = some row) :
      ∃ old, db.processes.find? k' = some old ∧ row.status = old.status := by
    rw [Table.find?_modify] at found
    split at found
    · rename_i place
      obtain ⟨old, held, rfl⟩ := Option.map_eq_some_iff.mp found
      exact ⟨old, place ▸ held, same old⟩
    · exact ⟨row, found, rfl⟩
  refine fun consistent => ⟨Sound.modified keeps consistent, ⟨List.prefix_rfl, List.prefix_rfl, ?_⟩, fun recounted => ?_⟩
  · intro k' row found changed
    obtain ⟨old, held, unmoved⟩ := status found
    exact absurd (by rw [held, unmoved]; rfl) changed
  · intro k' row found
    obtain ⟨old, held, unmoved⟩ := status found
    exact unmoved ▸ recounted k' old held

section Operations

theorem driveOnce_announces (outside : Outside) (worker : Worker) (process : ProcessRow) (adapter : AdapterSpec) :
    (driveOnce digest outside worker process adapter).Within Announces :=
  .bind (.require _ _) fun _ => .bind (.program fun db => (claimProcess_settles _ _ _ db).imp fun _ commits =>
    .commits commits (by rintro w ⟨-, rfl⟩; trivial)) fun claimed =>
      (afterClaim_moves claimed).imp fun _ _ does => .does does fun _ => Moves.tells

theorem maintainProcess_announces (process : ProcessRow) (m : Maintenance) :
    (maintainProcess process m).Settles db (Announces db) :=
  (Soft.maintain process m db).imp fun _ does => .does does fun _ => Moves.tells

theorem claimNextReady_announces (run : String) (allRuns : Bool) (c : ClaimRequest) :
    Announces db ((claimNextReady run allRuns c).eval db).2 := by
  intro consistent
  have settles := claimNextReady_settles run allRuns c consistent.manned' none
  change ((claimNextReady run allRuns c).eval db).2 = db ∨ _ ∧ _ at settles
  rcases settles with same | ⟨-, does⟩
  · rw [same]
    exact refl_of Announces db consistent
  · refine Announces.does does ?_ consistent
    rintro w (⟨_, _, -, rfl⟩ | ⟨-, _, -, rfl⟩) <;> trivial

theorem kept_announces (digest : Json → String) : Kept digest Announces where
  once := driveOnce_announces
  maintain process m _ := maintainProcess_announces process m
  claim run allRuns c _ := claimNextReady_announces run allRuns c
  skip _ _ _ _ _ db := (transitionProcess_settles _ db).imp fun _ commits => .commits commits (by
    rintro w ⟨output, error, -, -, rfl⟩
    exact ⟨rfl, nofun, nofun⟩)
  promote _ children db := (applyCorrelationChildren_settles _ children db).imp fun _ does => .does does (by
    rintro w ⟨child, -, rfl⟩
    rfl)
  mark _ _ _ := .modified _ fun _ => rfl
  reopen r db := (reopenHomeostatProcess_settles r db).imp fun _ commits => by
    rcases commits with rfl | ⟨w, ⟨homeostat, rfl⟩, written, -⟩
    · exact refl_of Announces _
    · exact .written written rfl

end Operations

/-- No row is readied: none of the candidates is pending. -/
def NoneReadied (p : Persistence) (db : Database) : Prop :=
  ∀ rows candidates, (listProcesses p.runId).eval db = (.ok rows, db) → p.candidates rows = .ok candidates →
    ∀ candidate ∈ candidates, ∀ row, db.processes.find? (p.runId, candidate.1) = some row → row.status ≠ .pending

/-- No row that is created for the plan has a direct upstream, and none is readied after it. -/
def Independent (p : Persistence) (createdAt : String) (db : Database) : Prop :=
  ∀ rows created, (listProcesses p.runId).eval db = (.ok rows, db) →
    Persistence.created rows p.processes = .ok created →
      (created = [] → NoneReadied p db) ∧ (created ≠ [] → (∀ item ∈ created, item.dependent = false) ∧
        ∀ db', Correlation.persistNewRows p.runId createdAt created db = (.ok (), db') → NoneReadied p db')

section Plans

variable {p : Persistence}

theorem readyCandidates_same {runId : String} {candidates : List (String × Text)} {u : Unit}
    (unready : ∀ candidate ∈ candidates, ∀ row, db.processes.find? (runId, candidate.1) = some row → row.status ≠ .pending)
    (h : (Correlation.readyCandidates runId candidates).eval db = (.ok u, db')) : db' = db := by
  induction candidates generalizing db with
  | nil =>
    obtain ⟨-, rfl⟩ := pure_ok.mp h
    rfl
  | cons candidate rest ih =>
    obtain ⟨here, later⟩ := List.forall_mem_cons.mp unready
    obtain ⟨_, middle, marked, next⟩ := bind_ok.mp h
    obtain ⟨n, after, updated, same⟩ := bind_ok.mp marked
    obtain ⟨-, rfl⟩ := pure_ok.mp same
    have unchanged : n ≠ 1 := by
      intro changed
      obtain ⟨row, found, pending, -⟩ := updateProcess_one updated changed
      exact here row found (of_decide_eq_true pending)
    have still : after = db := updateWhere_none updated unchanged
    rw [still] at next
    exact ih later next

theorem refreshCorrelationReadiness_announces (unready : NoneReadied p db) :
    (Correlation.refreshCorrelationReadiness p).Leaves db (Announces db) := by
  have same : Announces db db := refl_of Announces db
  refine .afterOf same fun _ _ => .afterRead (listProcesses_reads _) same fun rows listed =>
    .afterOf same fun candidates due => ?_
  refine .bind (fun message db' raised => ?_) fun _ db' returned => ?_
  · have kept : db' = db := Restores.transact _ _ message db' raised
    exact kept ▸ same
  · obtain rfl := readyCandidates_same (unready rows candidates listed due) (transact_ok.mp returned)
    exact .afterRead (listProcesses_reads _) same fun _ _ => .afterOf same fun _ _ => same

theorem initializeDependents_same {runId : String} {items : List Correlation.PlannedProcess} {u : Unit}
    (independent : ∀ item ∈ items, item.dependent = false)
    (h : (Correlation.initializeDependents runId items).eval db = (.ok u, db')) : db' = db := by
  induction items with
  | nil =>
    obtain ⟨-, rfl⟩ := pure_ok.mp h
    rfl
  | cons item rest ih =>
    obtain ⟨here, later⟩ := List.forall_mem_cons.mp independent
    unfold Correlation.initializeDependents at h
    rw [here] at h
    exact ih later h

theorem scheduleProcess_announces (s : ProcessSchedule) : (scheduleProcess s).Settles db (Announces db) :=
  (scheduleProcess_settles s db).imp fun _ commits => .commits commits (by
    rintro w ⟨-, input, metadata, schema, -, rfl⟩
    exact .one rfl s.key_ne rfl rfl)

theorem persistNewRows_announces (runId createdAt : String) {created : List Correlation.PlannedProcess}
    (independent : ∀ item ∈ created, item.dependent = false) :
    (Correlation.persistNewRows runId createdAt created).Within Announces := by
  have schedules (items : List Correlation.PlannedProcess) :
      (Correlation.scheduleCreated runId createdAt items).Within Announces := by
    induction items with
    | nil => exact .pure _
    | cons item rest ih =>
      exact .bind (.of _) fun row => .bind (.program fun _ => (scheduleProcess_announces _).void) fun _ => ih
  refine .bind (schedules created) fun _ => .program fun db => .transact fun _ db' h => ?_
  rw [initializeDependents_same independent h]
  exact refl_of Announces db

theorem persistCorrelationPlan_announces {createdAt : String} (independent : Independent p createdAt db) :
    (Correlation.persistCorrelationPlan p createdAt).Leaves db (Announces db) := by
  have same : Announces db db := refl_of Announces db
  refine .afterOf same fun _ _ => .afterRead (listProcesses_reads _) same fun rows listed =>
    .afterOf same fun created due => ?_
  obtain ⟨all, some_⟩ := independent rows created listed due
  by_cases any : created = []
  · have unready := all any
    subst any
    exact refreshCorrelationReadiness_announces unready
  · obtain ⟨undemoted, unready⟩ := some_ any
    have schedules := persistNewRows_announces p.runId createdAt undemoted
    rw [if_pos any]
    refine .bind (fun message db' raised => schedules.left raised) fun _ db' returned => ?_
    exact trans_of Announces (schedules.left returned) (refreshCorrelationReadiness_announces (unready db' returned))

end Plans

section Calls

theorem transitionCall_tells (t : TransitionCall) : ∀ w, t.transition.Makes w → w.Tells := by
  rintro w ⟨output, error, -, -, rfl⟩
  have target : t.transition.toStatus ≠ .pending ∧ t.transition.toStatus ≠ .running := by
    cases t <;> exact ⟨nofun, nofun⟩
  exact ⟨rfl, target⟩

theorem processCall_tells {call : ProcessCall}
    (told : ∀ runId processId inputJson, call ≠ .advanceCorrelationReady runId processId inputJson) :
    ∀ w, call.Makes w → w.Tells := by
  cases call with
  | createRun r =>
    rintro w rfl entry member
    obtain rfl := List.mem_singleton.mp member
    exact (rfl : statusTold "run.created" = none)
  | scheduleProcess s =>
    rintro w ⟨-, input, metadata, schema, -, rfl⟩
    exact .one rfl s.key_ne rfl rfl
  | claimProcess runId processId c =>
    rintro w rfl
    trivial
  | claimNextReady runId allRuns c => rintro w (⟨_, _, -, rfl⟩ | ⟨_, _, -, rfl⟩) <;> trivial
  | transitionProcess t => exact transitionCall_tells t
  | advanceCorrelationReady runId processId inputJson => exact absurd rfl (told runId processId inputJson)
  | applyCorrelationChildren c children =>
    rintro w ⟨child, -, rfl⟩
    rfl
  | parkHomeostatProcess p =>
    rintro w ⟨output, metadata, rfl⟩
    rfl
  | transitionHomeostatProcess t =>
    rintro w ⟨output, error, -, rfl⟩
    rfl
  | reopenHomeostatProcess r =>
    rintro w ⟨homeostat, rfl⟩
    rfl

theorem advanceCorrelationReady_same {runId processId : String} {inputJson : Text}
    (unready : ∀ row, db.processes.find? (runId, processId) = some row → row.status ≠ .pending) :
    (advanceCorrelationReady runId processId inputJson).Settles db (Announces db) :=
  (advanceCorrelationReady_settles runId processId inputJson db).imp fun db' commits => by
    rcases commits with rfl | ⟨w, ⟨createdAt, output, error, -, -, rfl⟩, written⟩
    · exact refl_of Announces _
    · cases written with
      | act found enabled =>
        have pending := (CommandTransition.guard_ok enabled.2.2).2.1 rfl
        exact absurd pending (unready _ found)

theorem moveRun_announces (f : RunFinalization) (status : String) (outcome : String × String) :
    (moveRun f status outcome).Settles db (Announces db) := by
  unfold moveRun
  split
  · exact .ofReadOnly (.pure _)
  · refine (transitionRunStatus_settles _ db).void.imp fun db' commits => ?_
    rcases commits with rfl | ⟨w, rfl, written, -⟩
    · exact refl_of Announces _
    · refine .written written fun entry member => ?_
      obtain rfl := List.mem_singleton.mp member
      exact statusTold_other (by simp [RunTransition.event])

theorem finalizeRun_announces (f : RunFinalization) : (finalizeRun f).Settles db (Announces db) := by
  refine .require fun _ => .require fun _ => .require fun _ => .afterRead (.query _) fun run _ =>
    .afterRead (listProcesses_reads _) fun rows _ => ?_
  unfold concludeRun
  split
  · exact .ofReadOnly (.pure _)
  · exact (moveRun_announces f run.status _).thenRead fun _ => .pure _

end Calls

/-- The call changes no status silently: it neither sets a row back to pending nor makes a pending one ready outside the
    pattern of command and event, and the events that its caller supplies tell what is written. -/
def EngineCall.Tells (db : Database) : EngineCall → Prop
  | .run (.call (.process (.advanceCorrelationReady runId processId _))) _ =>
    ∀ row, db.processes.find? (runId, processId) = some row → row.status ≠ .pending
  | .run (.call (.process _)) _ => True
  | .run (.call c) _ => ∀ w, c.Makes w → w.Tells
  | .persistCorrelationPlan p createdAt => Independent p createdAt db
  | .refreshCorrelationReadiness p => NoneReadied p db
  | _ => True

theorem runStep_announces {call : RunCall} {faults : Option Nat} (tells : EngineCall.Tells db (.run call faults)) :
    Announces db (runStep digest db (call, faults)) := by
  have does {c : Call} (tells : ∀ w, c.Makes w → w.Tells) : Announces db (runStep digest db (.call c, faults)) :=
    fun consistent => Announces.does (step_does digest consistent (c, faults)) tells consistent
  cases call with
  | finalizeRun f => exact Settles.final (c := ⟨db, faults⟩) (finalizeRun_announces f).void (refl_of Announces db)
  | call c =>
    cases c with
    | process call =>
      by_cases promotes : ∃ runId processId inputJson, call = .advanceCorrelationReady runId processId inputJson
      · obtain ⟨runId, processId, inputJson, rfl⟩ := promotes
        exact Settles.final (c := ⟨db, faults⟩) (advanceCorrelationReady_same tells).void (refl_of Announces db)
      · exact does (processCall_tells fun runId processId inputJson same => promotes ⟨runId, processId, inputJson, same⟩)
    | record c => exact does tells
    | lifecycle c => exact does tells
    | store c => exact does tells
    | bridge c => exact does tells

theorem engineStep_announces {call : EngineCall} (tells : call.Tells db) : Announces db (engineStep digest db call) := by
  cases call with
  | run call faults => exact runStep_announces tells
  | drive call => exact (kept_announces digest).driveStep call
  | maintainProcess process m =>
    exact Settles.final (c := ⟨db, none⟩) (maintainProcess_announces process m) (refl_of Announces db)
  | recoverIncompleteProcesses workerId now due =>
    exact (kept_announces digest).recoverIncompleteProcesses_within workerId now due db
  | persistCorrelationPlan p createdAt => exact persistCorrelationPlan_announces tells
  | refreshCorrelationReadiness p => exact refreshCorrelationReadiness_announces tells

/-- In a history without silent changes every call announces what it changes, and the events alone give the
    status of every process. -/
theorem statuses_announced (digest : Json → String) (calls : List EngineCall)
    (told : Along (engineStep digest) EngineCall.Tells .empty calls) :
    Along (engineStep digest) (fun db call => Announced db (engineStep digest db call)) .empty calls ∧
      Recounted (afterEngine digest calls) := by
  have kept (db : Database) (call : EngineCall) (invariant : Consistent db ∧ Recounted db) (tells : call.Tells db) :
      Consistent (engineStep digest db call) ∧ Recounted (engineStep digest db call) := by
    obtain ⟨consistent, -, recounts⟩ := engineStep_announces tells invariant.1
    exact ⟨consistent, recounts invariant.2⟩
  have empty : Consistent .empty ∧ Recounted .empty := ⟨.empty, fun _ _ found => nomatch found⟩
  constructor
  · exact told.under empty kept fun db call invariant tells => (engineStep_announces tells invariant.1).2.1
  · exact (execute_along (I := fun db => Consistent db ∧ Recounted db) empty kept told).2

/-- A plan of two processes, of which the second waits for the first. -/
def chain : Persistence where
  runId := "run"
  processes :=
    [{ id := "first", dependent := false, initial := .ok ⟨.braces, .braces, .braces⟩, sameRow := fun _ => .ok true },
      { id := "second", dependent := true, initial := .ok ⟨.braces, .braces, .braces⟩, sameRow := fun _ => .ok true }]
  validate := .ok ()
  candidates _ := .ok []
  readiness _ := .ok ()

def oneActiveRun : EngineCall :=
  .run (.call (.process (.createRun { runId := "run", status := "active", metadata := "\x7b\x7d", createdAt := "t0" }))) none

theorem scheduledWork_announced : Recounted (afterEngine (fun _ => "") scheduledWork) :=
  (statuses_announced (fun _ => "") scheduledWork ⟨trivial, trivial, trivial⟩).2

/-- The second process is set back to pending, but its last event tells that it is ready. -/
theorem statuses_silent :
    ¬ ∀ calls : List EngineCall,
      Along (engineStep fun _ => "") (fun db call => Announced db (engineStep (fun _ => "") db call)) .empty calls ∧
        Recounted (afterEngine (fun _ => "") calls) := by
  intro announced
  have silent : ((afterEngine (fun _ => "") [oneActiveRun, .persistCorrelationPlan chain "t1"]).processes.find?
        ("run", "second")).any (fun row => row.status = .pending) = true ∧
      recount (afterEngine (fun _ => "") [oneActiveRun, .persistCorrelationPlan chain "t1"]).events.rows
        ("run", "second") = some .ready := by decide +kernel
  obtain ⟨row, found, pending⟩ := (Option.any_eq_true _ _).mp silent.1
  have told := (announced _).2 _ row found
  rw [silent.2, of_decide_eq_true pending] at told
  cases told

end Fala.Driver
