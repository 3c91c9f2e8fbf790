import Fala.Engine.Actions
import Fala.Engine.Invariants

/-! Parked processes and their homeostats over every history. -/

namespace Fala
open Durable Program Journal Domain

section
variable {k : String × String} {homeostat : Homeostat}

/-- The homeostat stored under a key. -/
def HomeostatStored (k : String × String) (homeostat : Homeostat) (db : Database) : Prop :=
  db.homeostats.find? k = some homeostat

theorem homeostatStored_aside : Aside (HomeostatStored k homeostat) :=
  homeostats_aside fun t => t.find? k = some homeostat

theorem homeostatStored_insert (row : Homeostat) :
    (homeostats.insert row).Keeps (HomeostatStored k homeostat) := SideTable.insert_stored row

theorem closeStatements_keeps (row : Homeostat) (createdAt : String) (other : k ≠ (row.runId, row.id)) :
    (closeStatements row createdAt).Keeps (HomeostatStored k homeostat) :=
  .bind (getRow_keeps _ _ _ _) fun _ => .bind (.require _ _) fun _ =>
    .bind (SideTable.update_stored _ _ _ other) fun _ => .require _ _

theorem StoreCall.keeps_homeostat (call : StoreCall)
    (other : ∀ row c, call = .transitionHomeostat row c → k ≠ (row.runId, row.id)) :
    call.program.Keeps (HomeostatStored k homeostat) := by
  have unread : Unread (HomeostatStored k homeostat) :=
    ⟨fun _ _ => id, fun _ _ => id, fun _ _ => id, fun _ _ => id, fun _ _ => id, fun _ _ => id⟩
  refine call.program_keeps homeostatStored_aside.alongside unread homeostatStored_insert ?_
  intro row c createdAt same
  exact closeStatements_keeps row createdAt (other row c same)

end

/-- The calls that move a homeostat together with a process. -/
def PairCall : Call → Prop
  | .process (.parkHomeostatProcess _) | .process (.transitionHomeostatProcess _)
  | .process (.reopenHomeostatProcess _) => True
  | _ => False

/-- The calls that may move one row of a pair without the other. -/
def Separates (runId homeostatId processId : String) : Call → Prop
  | .process (.transitionProcess t) =>
    t.transition.runId = runId ∧ t.transition.processId = processId ∧
      canTransitionProcess .waiting t.transition.toStatus = true
  | .record (.transitionProcessWithCommand t) =>
    t.runId = runId ∧ t.processId = processId ∧ canTransitionProcess .waiting t.target = true
  | .store (.transitionHomeostat row _) => row.runId = runId ∧ row.id = homeostatId
  | .process (.transitionHomeostatProcess t) =>
    t.runId = runId ∧ ¬ (t.homeostatId = homeostatId ↔ t.processId = processId)
  | .process (.reopenHomeostatProcess r) =>
    r.runId = runId ∧ ¬ (r.homeostatId = homeostatId ↔ r.processId = processId)
  | _ => False

/-- The statuses of a parked process, and of one whose homeostat has closed. -/
def Settled (row : ProcessRow) : Prop :=
  row.status = .waiting ∨ row.status = .succeeded ∨ row.status = .cancelled ∨ row.status = .timedOut

theorem Settled.unclaimed {row : ProcessRow} (settled : Settled row) :
    row.status ≠ .pending ∧ row.status ≠ .ready ∧ row.status ≠ .running ∧
      row.status ≠ .retryWait ∧ row.status ≠ .failed := by
  rcases settled with same | same | same | same <;> simp [same]

theorem Settled.legal {row : ProcessRow} (settled : Settled row) {target : ProcessStatus}
    (legal : canTransitionProcess row.status target = true) :
    canTransitionProcess .waiting target = true := by
  have open' := canTransitionProcess_terminal legal
  rcases settled with same | same | same | same
  · rwa [same] at legal
  all_goals simp [same, ProcessStatus.isTerminal] at open'

theorem Settled.transition {row : ProcessRow} (settled : Settled row) {t : ProcessTransition}
    (legal : t.legal row = true) : canTransitionProcess .waiting t.toStatus = true := by
  unfold ProcessTransition.legal at legal
  split at legal
  · rename_i retry
    exact absurd retry.2 settled.unclaimed.2.2.2.2
  · exact settled.legal legal

theorem Settled.command {row : ProcessRow} (settled : Settled row) {t : CommandTransition}
    {type : String} (expected : expectedCommandType t.target = some type)
    (guarded : t.guard row = .ok ()) : canTransitionProcess .waiting t.target = true := by
  obtain ⟨pending, ready, running, retryWait, failed⟩ := settled.unclaimed
  unfold CommandTransition.guard at guarded
  cases target : t.target <;>
    simp only [target, Schema.ensure_ok, Schema.ensure_bind_ok, decide_eq_true_eq] at guarded
  case pending | running => simp [target, expectedCommandType] at expected
  case ready => exact absurd guarded pending
  case waiting => exact absurd guarded.1 running
  case retryWait => exact absurd guarded.1 (by simp [running, failed])
  case succeeded | failed => rfl
  all_goals exact settled.legal guarded.1

theorem Call.moves_settled {call : Call} {runId processId : String} {action : RowAction}
    {row : ProcessRow} (makes : call.Makes (.act runId processId action))
    (enabled : action.Enabled row) (settled : Settled row) (homeostatId : String) :
    Separates runId homeostatId processId call ∨ PairCall call := by
  obtain ⟨pending, ready, running, retryWait, failed⟩ := settled.unclaimed
  have unclaimed (c : ClaimRequest) : claimable row c.now = false := by
    simp [claimable, ready, running, retryWait]
  cases call with
  | process c =>
    cases c with
    | createRun r => cases makes
    | scheduleProcess s => obtain ⟨-, _, _, _, -, same⟩ := makes; cases same
    | claimProcess runId processId c =>
      cases makes
      exact absurd enabled.1 (by simp [unclaimed])
    | claimNextReady runId allRuns c =>
      obtain ⟨_, _, -, same⟩ | ⟨_, _, -, same⟩ := makes <;> cases same
      · exact absurd (exhausted_running enabled.1) running
      · exact absurd enabled.1 (by simp [unclaimed])
    | transitionProcess t =>
      obtain ⟨_, _, -, -, same⟩ := makes
      cases same
      exact .inl ⟨rfl, rfl, settled.transition enabled.2.1⟩
    | advanceCorrelationReady runId processId inputJson =>
      obtain ⟨_, _, _, -, -, same⟩ := makes
      cases same
      have legal := settled.command enabled.2.1 enabled.2.2
      exact absurd legal (by simp only; decide)
    | applyCorrelationChildren c children =>
      obtain ⟨_, -, same⟩ := makes
      cases same
      exact absurd enabled pending
    | parkHomeostatProcess | transitionHomeostatProcess | reopenHomeostatProcess =>
      exact .inr trivial
  | record c =>
    cases c with
    | transitionProcessWithCommand t =>
      obtain ⟨_, _, -, -, same⟩ := makes
      cases same
      exact .inl ⟨rfl, rfl, settled.command enabled.2.1 enabled.2.2⟩
    | scheduleProcessWithCommand process command events =>
      obtain ⟨-, -, _, _, _, same⟩ := makes
      cases same
    | _ => cases makes
  | lifecycle c => cases c <;> cases makes
  | store c => obtain ⟨_, _, _, same⟩ := c.makes_record makes; cases same
  | bridge c => obtain ⟨_, _, _, same⟩ := c.makes_record makes; cases same

section
variable {runId homeostatId processId : String}

theorem Call.keeps_homeostat (digest : Json → String) {call : Call} {homeostat : Homeostat}
    (alone : ¬ PairCall call) (together : ¬ Separates runId homeostatId processId call) :
    (call.program digest).Keeps (HomeostatStored (runId, homeostatId) homeostat) := by
  have aside : Aside (HomeostatStored (runId, homeostatId) homeostat) := homeostatStored_aside
  have beside := aside.alongside
  cases call with
  | process c =>
    cases c with
    | createRun r => exact (createRun_keeps beside r fun _ => aside.insertRun _).void
    | scheduleProcess s => exact (scheduleProcess_keeps beside s).void
    | claimProcess runId processId c => exact (claimProcess_keeps beside runId processId c).void
    | claimNextReady runId allRuns c => exact (claimNextReady_keeps beside runId allRuns c).void
    | transitionProcess t => exact (t.program_keeps beside digest).void
    | advanceCorrelationReady runId processId inputJson =>
      exact (advanceCorrelationReady_keeps beside runId processId inputJson).void
    | applyCorrelationChildren c children =>
      exact (applyCorrelationChildren_keeps beside c children).void
    | parkHomeostatProcess | transitionHomeostatProcess | reopenHomeostatProcess =>
      exact absurd trivial alone
  | record c => exact c.program_keeps beside fun _ _ _ _ => aside.updateRun _ _ _ _
  | lifecycle c =>
    exact c.program_keeps beside (fun _ _ _ => aside.insertRun _) fun _ _ _ => aside.updateRun _ _ _ _
  | store c =>
    refine c.keeps_homeostat fun row c' same named => together ?_
    subst same
    obtain ⟨here, named⟩ := Prod.mk.inj named
    exact ⟨here.symm, named.symm⟩
  | bridge c => exact c.program_keeps beside (fun _ _ => id) (fun _ _ => id) (fun _ _ => id)

/-- The statuses of a homeostat and its process go together. -/
def Together (homeostat : Homeostat) (process : ProcessRow) : Prop :=
  (homeostat.status = "open" ∧ process.status = .waiting) ∨
    Closes homeostat.status process.status

theorem Together.settled {homeostat : Homeostat} {process : ProcessRow}
    (together : Together homeostat process) : Settled process := by
  rcases together with ⟨-, same⟩ | ⟨-, same⟩ | ⟨-, same⟩ | ⟨-, same⟩
  · exact .inl same
  · exact .inr (.inl same)
  · exact .inr (.inr (.inl same))
  · exact .inr (.inr (.inr same))

theorem Together.open_iff {homeostat : Homeostat} {process : ProcessRow}
    (together : Together homeostat process) :
    homeostat.status = "open" ↔ process.status = .waiting := by
  rcases together with ⟨stood, same⟩ | ⟨stood, same⟩ | ⟨stood, same⟩ | ⟨stood, same⟩ <;>
    simp [stood, same]

/-- A homeostat and a process are stored, and their statuses go together. -/
def Paired (runId homeostatId processId : String) (db : Database) : Prop :=
  ∃ homeostat process, HomeostatStored (runId, homeostatId) homeostat db ∧
    db.processes.find? (runId, processId) = some process ∧ Together homeostat process

variable {db db' : Database}

theorem Journal.PairWritten.paired {otherHomeostat otherProcess : String} {homeostat : Homeostat}
    {process : ProcessRow}
    (written : PairWritten db runId otherHomeostat otherProcess homeostat process db')
    (same : otherHomeostat = homeostatId ↔ otherProcess = processId)
    (own : otherHomeostat = homeostatId → Together homeostat process)
    (paired : Paired runId homeostatId processId db) : Paired runId homeostatId processId db' := by
  by_cases named : otherHomeostat = homeostatId
  · have named' := same.mp named
    subst named named'
    refine ⟨homeostat, process, ?_, ?_, own rfl⟩
    · rw [HomeostatStored, written.homeostats, if_pos rfl]
    · rw [written.processes, if_pos rfl]
  · have named' := mt same.mpr named
    obtain ⟨stored, row, found, found', together⟩ := paired
    refine ⟨stored, row, ?_, ?_, together⟩
    · rw [HomeostatStored, written.homeostats, if_neg (by simp [Ne.symm named])]
      exact found
    · rw [written.processes, if_neg (by simp [Ne.symm named'])]
      exact found'

theorem Journal.PairWritten.elsewhere {otherRun otherHomeostat otherProcess : String} {homeostat : Homeostat}
    {process : ProcessRow}
    (written : PairWritten db otherRun otherHomeostat otherProcess homeostat process db')
    (other : otherRun ≠ runId) (paired : Paired runId homeostatId processId db) :
    Paired runId homeostatId processId db' := by
  obtain ⟨stored, row, found, found', together⟩ := paired
  refine ⟨stored, row, ?_, ?_, together⟩
  · rw [HomeostatStored, written.homeostats, if_neg (by simp [Ne.symm other])]
    exact found
  · rw [written.processes, if_neg (by simp [Ne.symm other])]
    exact found'

theorem Paired.parked {p : HomeostatPark} {homeostat : Homeostat} {process row : ProcessRow}
    (paired : Paired runId homeostatId processId db)
    (written : PairWritten db p.runId p.homeostatId p.processId homeostat row db')
    (found : db.processes.find? (p.runId, p.processId) = some process)
    (running : process.status = .running)
    (free : db.homeostats.find? (p.runId, p.homeostatId) = none) :
    Paired runId homeostatId processId db' := by
  by_cases here : p.runId = runId
  · subst here
    obtain ⟨stored, old, here, here', together⟩ := id paired
    have apart : p.homeostatId ≠ homeostatId := by
      rintro rfl
      rw [HomeostatStored, free] at here
      cases here
    have apart' : p.processId ≠ processId := by
      rintro rfl
      obtain rfl := Option.some.inj (found.symm.trans here')
      exact absurd running together.settled.unclaimed.2.2.1
    exact written.paired (by simp [apart, apart']) (fun named => absurd named apart) paired
  · exact written.elsewhere here paired

theorem step_paired (digest : Json → String) (consistent : Consistent db) (call : Call × Option Nat)
    (together : ¬ Separates runId homeostatId processId call.1)
    (paired : Paired runId homeostatId processId db) :
    Paired runId homeostatId processId (step digest db call) := by
  by_cases pair : PairCall call.1
  · obtain ⟨call, faults⟩ := call
    rcases call with (_ | _ | _ | _ | _ | _ | _ | p | t | r) | _ | _ | _ | _
    case process.parkHomeostatProcess =>
      have parked := (parkHomeostatProcess_parks p db).void.final (c := ⟨db, faults⟩) (.inl rfl)
      rcases parked with same | ⟨output, metadata, -, process, found, running, free, written⟩
      · exact (congrArg (Paired _ _ _) same).mpr paired
      · exact paired.parked written found running.1 free
    case process.transitionHomeostatProcess =>
      have resolved := (transitionHomeostatProcess_resolves t db).void.final (c := ⟨db, faults⟩)
        (.inl rfl)
      rcases resolved with same | ⟨closes, output, error, -, -, homeostat, process, -, -, -, -, written⟩
      · exact (congrArg (Paired _ _ _) same).mpr paired
      · by_cases here : t.runId = runId
        · subst here
          exact written.paired (by_contra fun apart => together ⟨rfl, apart⟩)
            (fun _ => .inr closes) paired
        · exact written.elsewhere here paired
    case process.reopenHomeostatProcess =>
      have reopened := (reopenHomeostatProcess_reopens r db).void.final (c := ⟨db, faults⟩) (.inl rfl)
      rcases reopened with same | ⟨homeostat, process, -, -, -, -, -, written⟩
      · exact (congrArg (Paired _ _ _) same).mpr paired
      · by_cases here : r.runId = runId
        · subst here
          exact written.paired (by_contra fun apart => together ⟨rfl, apart⟩)
            (fun _ => .inl ⟨rfl, rfl⟩) paired
        · exact written.elsewhere here paired
    all_goals exact pair.elim
  · obtain ⟨homeostat, process, found, found', paired⟩ := paired
    refine ⟨homeostat, process, Call.keeps_homeostat digest pair together _ found, ?_, paired⟩
    obtain ⟨row, stored, rfl⟩ := (step_does digest consistent call).row (Q := (· = process)) found'
      rfl fun row action makes enabled same => by
        subst same
        rcases Call.moves_settled makes enabled paired.settled homeostatId with separates | moves
        · exact absurd separates together
        · exact absurd moves pair
    exact stored

end

/-- A park whose call opens its homeostat. -/
def Opens (digest : Json → String) (calls : List (Call × Option Nat)) (p : HomeostatPark)
    (faults : Option Nat) : Prop :=
  (after digest calls).homeostats.find? (p.runId, p.homeostatId) = none ∧
    ((after digest (calls ++ [(.process (.parkHomeostatProcess p), faults)])).homeostats.find?
      (p.runId, p.homeostatId)).isSome = true

theorem Opens.paired {digest : Json → String} {calls : List (Call × Option Nat)}
    {p : HomeostatPark} {faults : Option Nat} (opens : Opens digest calls p faults) :
    Paired p.runId p.homeostatId p.processId
      (after digest (calls ++ [(.process (.parkHomeostatProcess p), faults)])) := by
  obtain ⟨free, stored⟩ := opens
  rw [after_append] at stored ⊢
  have parked := (parkHomeostatProcess_parks p (after digest calls)).void.final
    (c := ⟨_, faults⟩) (.inl rfl)
  rcases parked with same | ⟨output, metadata, -, process, -, -, -, written⟩
  · have same : step digest (after digest calls) (.process (.parkHomeostatProcess p), faults) =
      after digest calls := same
    rw [same, free] at stored
    cases stored
  · refine ⟨p.homeostat output metadata process, p.update output process, ?_, ?_, .inl ⟨rfl, rfl⟩⟩
    · exact (written.homeostats _).trans (if_pos rfl)
    · exact (written.processes _).trans (if_pos rfl)

theorem after_paired (digest : Json → String) {runId homeostatId processId : String}
    {calls : List (Call × Option Nat)}
    (paired : Paired runId homeostatId processId (after digest calls))
    (later : List (Call × Option Nat))
    (together : ∀ call ∈ later, ¬ Separates runId homeostatId processId call.1) :
    Paired runId homeostatId processId (after digest (calls ++ later)) := by
  induction later generalizing calls with
  | nil => simpa using paired
  | cons call later ih =>
    obtain ⟨here, rest⟩ := List.forall_mem_cons.mp together
    have moved := step_paired digest (after_consistent digest calls) call here paired
    rw [← after_append] at moved
    simpa using ih moved rest

/-- The process leaves waiting only as the homeostat closes. -/
def LeaveTogether (runId homeostatId processId : String) (db db' : Database) : Prop :=
  ∀ process process', db.processes.find? (runId, processId) = some process →
    db'.processes.find? (runId, processId) = some process' → process.status = .waiting →
    process'.status ≠ .waiting → ∃ homeostat homeostat',
      HomeostatStored (runId, homeostatId) homeostat db ∧ homeostat.status = "open" ∧
      HomeostatStored (runId, homeostatId) homeostat' db' ∧
      Closes homeostat'.status process'.status

theorem Paired.leaveTogether {runId homeostatId processId : String} {db db' : Database}
    (before : Paired runId homeostatId processId db)
    (later : Paired runId homeostatId processId db') :
    LeaveTogether runId homeostatId processId db db' := by
  intro process process' found found' waiting left
  obtain ⟨homeostat, row, stored, here, together⟩ := before
  obtain ⟨homeostat', row', stored', here', together'⟩ := later
  obtain rfl := Option.some.inj (here.symm.trans found)
  obtain rfl := Option.some.inj (here'.symm.trans found')
  refine ⟨homeostat, homeostat', stored, together.open_iff.mpr waiting, stored', ?_⟩
  exact together'.resolve_left fun still => left still.2

/-- A parked process and its homeostat move together as long as no call moves one of the two
    alone. The operations on pairs take the pair that the caller names, whoever parked it. -/
theorem pairs_move_together (digest : Json → String) :
    (∀ earlier p faults later call, Opens digest earlier p faults →
      (∀ c ∈ later ++ [call], ¬ Separates p.runId p.homeostatId p.processId c.1) →
      let parked := earlier ++ [(.process (.parkHomeostatProcess p), faults)] ++ later
      Paired p.runId p.homeostatId p.processId (after digest parked) ∧
        LeaveTogether p.runId p.homeostatId p.processId (after digest parked)
          (after digest (parked ++ [call]))) ∧
    (∀ calls t faults,
      let db := after digest calls
      let db' := after digest (calls ++ [(.process (.transitionHomeostatProcess t), faults)])
      db' = db ∨ Closes t.homeostatStatus t.processStatus ∧
        ∃ output error, t.Resolves output error db db') ∧
    ∀ calls r faults,
      let db := after digest calls
      let db' := after digest (calls ++ [(.process (.reopenHomeostatProcess r), faults)])
      db' = db ∨ ∃ homeostat process, r.Reopens homeostat process db db' := by
  refine ⟨fun earlier p faults later call opens together => ?_, fun calls t faults => ?_,
    fun calls r faults => ?_⟩
  · obtain ⟨rest, last⟩ := List.forall_mem_append.mp together
    have parked := after_paired digest opens.paired later rest
    exact ⟨parked, parked.leaveTogether (after_paired digest parked [call] last)⟩
  · have resolved := (transitionHomeostatProcess_resolves t (after digest calls)).void.final
      (c := ⟨_, faults⟩) (.inl rfl)
    rw [after_append]
    rcases resolved with same | ⟨closes, output, error, -, -, resolves⟩
    · exact .inl same
    · exact .inr ⟨closes, output, error, resolves⟩
  · have reopened := (reopenHomeostatProcess_reopens r (after digest calls)).void.final
      (c := ⟨_, faults⟩) (.inl rfl)
    rw [after_append]
    rcases reopened with same | ⟨homeostat, process, -, reopens⟩
    · exact .inl same
    · exact .inr ⟨homeostat, process, reopens⟩

/-- A process that its worker has claimed. -/
def claimCalls (processId : String) : List (Call × Option Nat) :=
  [(.process (.scheduleProcess
      { runId := "run", processId, processType := "manual", createdAt := "t0" }), none),
    (.process (.claimProcess "run" processId ⟨"worker", "t1", "t9", ""⟩), none)]

def parkCall (homeostatId processId : String) : HomeostatPark :=
  { runId := "run", homeostatId, processId, actor := "worker", at_ := "t2" }

/-- Two processes claimed in one run. -/
def gated : List (Call × Option Nat) :=
  (.process (.createRun
    { runId := "run", status := "active", metadata := "\x7b\x7d", createdAt := "t0" }), none) ::
    (claimCalls "work" ++ claimCalls "other")

def resolveCall (homeostatId processId : String) : HomeostatTransition :=
  { runId := "run", homeostatId, processId, homeostatStatus := "completed",
    processStatus := .succeeded, actor := "user", at_ := "t3" }

theorem pairs_move_together_resolved :
    Paired "run" "gate" "work" (after (fun _ => "")
      (gated ++ [(.process (.parkHomeostatProcess (parkCall "gate" "work")), none)] ++
        [(.process (.parkHomeostatProcess (parkCall "fence" "other")), none)])) ∧
    LeaveTogether "run" "gate" "work" (after (fun _ => "")
      (gated ++ [(.process (.parkHomeostatProcess (parkCall "gate" "work")), none)] ++
        [(.process (.parkHomeostatProcess (parkCall "fence" "other")), none)]))
      (after (fun _ => "")
        (gated ++ [(.process (.parkHomeostatProcess (parkCall "gate" "work")), none)] ++
          [(.process (.parkHomeostatProcess (parkCall "fence" "other")), none)] ++
          [(.process (.transitionHomeostatProcess (resolveCall "gate" "work")), none)])) := by
  refine (pairs_move_together (fun _ => "")).1 gated (parkCall "gate" "work") none
    [(.process (.parkHomeostatProcess (parkCall "fence" "other")), none)]
    (.process (.transitionHomeostatProcess (resolveCall "gate" "work")), none)
    ⟨by decide +kernel, by decide +kernel⟩ fun call member => ?_
  simp only [List.mem_append, List.mem_singleton] at member
  rcases member with rfl | rfl
  · exact id
  · exact fun apart => apart.2 (iff_of_true rfl rfl)

/-- Both processes parked. -/
def bothParked : List (Call × Option Nat) :=
  gated ++ [(.process (.parkHomeostatProcess (parkCall "gate" "work")), none)] ++
    [(.process (.parkHomeostatProcess (parkCall "fence" "other")), none)]

/-- A cancellation of the process leaves its homeostat open, and a caller may name the homeostat
    of one park with the process of another. -/
theorem pairs_come_apart :
    (¬ ∀ earlier p later, Opens (fun _ => "") earlier p none →
      ∀ homeostat process, homeostat.status = "open" →
        HomeostatStored (p.runId, p.homeostatId) homeostat (after (fun _ => "")
          (earlier ++ [(.process (.parkHomeostatProcess p), none)] ++ later)) →
        (after (fun _ => "") (earlier ++ [(.process (.parkHomeostatProcess p), none)] ++
          later)).processes.find? (p.runId, p.processId) = some process →
        process.status = .waiting) ∧
    ((transitionHomeostatProcess (resolveCall "gate" "other")).eval
      (after (fun _ => "") bothParked)).1.isOk = true ∧
    ((after (fun _ => "") (bothParked ++
      [(.process (.transitionHomeostatProcess (resolveCall "gate" "other")), none)])).processes.find?
        ("run", "work")).any (fun r => r.status = .waiting) = true := by
  refine ⟨fun stay => ?_, by decide +kernel, by decide +kernel⟩
  let calls := gated ++ [(Call.process (.parkHomeostatProcess (parkCall "gate" "work")), none)] ++
    [(.process (.transitionProcess (.cancelProcess "run" "work" "user" "t3" .braces)), none)]
  have stood : ((after (fun _ => "") calls).homeostats.find? ("run", "gate")).any
      (fun h => h.status = "open") = true := by decide +kernel
  have left : ((after (fun _ => "") calls).processes.find? ("run", "work")).any
      (fun r => r.status = .cancelled) = true := by decide +kernel
  obtain ⟨homeostat, stored, open'⟩ := (Option.any_eq_true _ _).mp stood
  obtain ⟨process, found, cancelled⟩ := (Option.any_eq_true _ _).mp left
  have waiting := stay gated (parkCall "gate" "work") _ ⟨by decide +kernel, by decide +kernel⟩ homeostat
    process (of_decide_eq_true open') stored found
  rw [of_decide_eq_true cancelled] at waiting
  cases waiting

end Fala
