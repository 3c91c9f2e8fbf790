import Fala.Engine.Pairing
import Fala.Journal.Rearming

/-! Closing a homeostat and arming it again. -/

namespace Fala.Driver
open Durable Program Journal

/-- `resume_homeostat` -/
def resumeHomeostat (runId homeostatId processId actor at_ : String)
    (outputJson : Text := .braces) : Sql ProcessRow :=
  transitionHomeostatProcess
    { runId, homeostatId, processId, homeostatStatus := "completed", processStatus := .succeeded,
      actor, at_, outputJson, idempotencyKey := "homeostat.complete:" ++ homeostatId }

/-- `cancel_homeostat` -/
def cancelHomeostat (runId homeostatId processId actor at_ : String)
    (errorJson : Text := .braces) : Sql ProcessRow :=
  transitionHomeostatProcess
    { runId, homeostatId, processId, homeostatStatus := "cancelled", processStatus := .cancelled,
      actor, at_, errorJson, idempotencyKey := "homeostat.cancel:" ++ homeostatId }

/-- `expire_homeostat` -/
def expireHomeostat (runId homeostatId processId actor at_ : String)
    (errorJson : Text := .braces) : Sql ProcessRow :=
  transitionHomeostatProcess
    { runId, homeostatId, processId, homeostatStatus := "expired", processStatus := .timedOut,
      actor, at_, errorJson, idempotencyKey := "homeostat.expire:" ++ homeostatId }

/-- `rearm_homeostat` -/
def rearmHomeostat (runId homeostatId processId actor at_ : String)
    (idempotencyKey : String := "") : Sql ProcessRow :=
  reopenHomeostatProcess
    { runId, homeostatId, processId, actor, at_, idempotencyKey, requireWaitingRun := true }

inductive Closing where
  | resume | cancel | expire
  deriving DecidableEq

/-- The pair that a sequence of calls names. -/
structure PairName where
  runId : String
  homeostatId : String
  processId : String
  named : runId ≠ "" ∧ homeostatId ≠ "" ∧ processId ≠ ""

/-- A closing and the re-arming after it, with arguments that the operations accept. -/
structure Cycle where
  closing : Closing
  actor : String
  closedAt : String
  json : Text
  rearmedBy : String
  rearmedAt : String
  named : actor ≠ "" ∧ closedAt ≠ "" ∧ rearmedBy ≠ "" ∧ rearmedAt ≠ ""
  parses : json.canonical.isSome = true

namespace Closing

def homeostatStatus : Closing → String
  | .resume => "completed"
  | .cancel => "cancelled"
  | .expire => "expired"

def processStatus : Closing → ProcessStatus
  | .resume => .succeeded
  | .cancel => .cancelled
  | .expire => .timedOut

/-- What the key of a closing begins with. -/
def verb : Closing → String
  | .resume => "homeostat.complete:"
  | .cancel => "homeostat.cancel:"
  | .expire => "homeostat.expire:"

def key (closing : Closing) (homeostatId : String) : String := closing.verb ++ homeostatId

theorem closes (closing : Closing) : Closes closing.homeostatStatus closing.processStatus := by
  cases closing with
  | resume => exact .inl ⟨rfl, rfl⟩
  | cancel => exact .inr (.inl ⟨rfl, rfl⟩)
  | expire => exact .inr (.inr ⟨rfl, rfl⟩)

theorem homeostatStatus_ne (closing : Closing) : closing.homeostatStatus ≠ "open" := by
  cases closing <;> decide

theorem key_ne (closing : Closing) (homeostatId : String) : closing.key homeostatId ≠ "" :=
  append_ne _ (by cases closing <;> decide)

theorem key_inj {closing other : Closing} {homeostatId : String} :
    closing.key homeostatId = other.key homeostatId ↔ closing = other := by
  refine ⟨fun same => ?_, congrArg (key · homeostatId)⟩
  by_contra apart
  refine append_ne_append _ _ ?_ same
  cases closing <;> cases other <;> first | exact absurd rfl apart | decide

end Closing

/-- The key under which a homeostat is armed for an attempt. -/
def rearmKey (homeostatId : String) (attempt : Int) : String :=
  "homeostat.reopen:" ++ homeostatId ++ ":" ++ toString attempt

theorem rearmKey_eq (homeostatId : String) (attempt : Int) :
    rearmKey homeostatId attempt = "homeostat.reopen:" ++ (homeostatId ++ (":" ++ toString attempt)) :=
  String.append_assoc.trans String.append_assoc

theorem Closing.key_ne_rearmKey (closing : Closing) (homeostatId : String) (attempt : Int) :
    closing.key homeostatId ≠ rearmKey homeostatId attempt := fun same =>
  append_ne_append _ _ (by cases closing <;> decide) (same.trans (rearmKey_eq homeostatId attempt))

theorem rearmKey_ne (homeostatId : String) (attempt : Int) : rearmKey homeostatId attempt ≠ "" :=
  fun same => append_ne _ (by decide) ((rearmKey_eq homeostatId attempt).symm.trans same)

theorem rearmKey_inj {homeostatId : String} {attempt other : Int} :
    rearmKey homeostatId attempt = rearmKey homeostatId other ↔ attempt = other := by
  refine ⟨fun same => ?_, congrArg (rearmKey homeostatId)⟩
  exact toString_injective (String.append_right_inj _ |>.mp same)

section
variable (pair : PairName)

def close (c : Cycle) : Sql ProcessRow :=
  match c.closing with
  | .resume =>
    resumeHomeostat pair.runId pair.homeostatId pair.processId c.actor c.closedAt c.json
  | .cancel =>
    cancelHomeostat pair.runId pair.homeostatId pair.processId c.actor c.closedAt c.json
  | .expire =>
    expireHomeostat pair.runId pair.homeostatId pair.processId c.actor c.closedAt c.json

def rearm (c : Cycle) : Sql ProcessRow :=
  rearmHomeostat pair.runId pair.homeostatId pair.processId c.rearmedBy c.rearmedAt

/-- What a closing hands to the journal. -/
def Cycle.transition (c : Cycle) : HomeostatTransition where
  runId := pair.runId
  homeostatId := pair.homeostatId
  processId := pair.processId
  homeostatStatus := c.closing.homeostatStatus
  processStatus := c.closing.processStatus
  actor := c.actor
  at_ := c.closedAt
  outputJson := if c.closing = .resume then c.json else .braces
  errorJson := if c.closing = .resume then .braces else c.json
  idempotencyKey := c.closing.key pair.homeostatId

def Cycle.reopening (c : Cycle) : HomeostatReopen where
  runId := pair.runId
  homeostatId := pair.homeostatId
  processId := pair.processId
  actor := c.rearmedBy
  at_ := c.rearmedAt
  requireWaitingRun := true

theorem close_eq (c : Cycle) : close pair c = transitionHomeostatProcess (c.transition pair) := by
  unfold close Cycle.transition
  cases c.closing <;> rfl

theorem Cycle.transition_key (c : Cycle) :
    (c.transition pair).key = c.closing.key pair.homeostatId :=
  if_pos (c.closing.key_ne pair.homeostatId)

/-- The statuses, the attempt and the budget of a pair whose process has no lease. -/
structure Stands (homeostatStatus : String) (processStatus : ProcessStatus) (attempt max : Int)
    (db : Database) : Prop where
  homeostat : ∃ h, db.homeostats.find? (pair.runId, pair.homeostatId) = some h ∧
    h.status = homeostatStatus ∧ h.attempt = attempt ∧ h.maxAttempts = max
  process : ∃ p, db.processes.find? (pair.runId, pair.processId) = some p ∧
    (p.status = processStatus ∧ p.leaseOwner = "" ∧ p.leaseExpiresAt = "") ∧
    p.attempt ≤ attempt ∧ p.maxAttempts = max

/-- The run that a re-arming requires. -/
def RunWaits (runId : String) (db : Database) : Prop :=
  ∃ run, db.runs.find? runId = some run ∧ run.status = "waiting"

end

section
variable {pair : PairName} {db db' : Database} {attempt max : Int} {row : ProcessRow}

theorem Stands.known {homeostatStatus : String} {processStatus : ProcessStatus}
    (stands : Stands pair homeostatStatus processStatus attempt max db)
    (consistent : Consistent db) : (requireRun pair.runId).eval db = (.ok (), db) := by
  obtain ⟨p, found, -⟩ := stands.process
  obtain ⟨member, here⟩ := Table.find?_some.mp found
  have manned := consistent.manned' p member
  rw [show p.runId = pair.runId from congrArg Prod.fst here] at manned
  exact requireRun_ok.mpr ⟨⟨pair.named.1, manned⟩, rfl⟩

theorem close_ok {c : Cycle} (consistent : Consistent db)
    (stands : Stands pair "open" .waiting attempt max db)
    (returned : (close pair c).eval db = (.ok row, db')) :
    db' = db ∨ (Stands pair c.closing.homeostatStatus c.closing.processStatus attempt max db' ∧
      PairLogged db pair.runId (c.closing.key pair.homeostatId) db' ∧ db'.runs = db.runs ∧
      Consistent db') := by
  obtain ⟨h, here, -, counted, budget⟩ := stands.homeostat
  obtain ⟨p, here', -, within, budget'⟩ := stands.process
  rw [close_eq] at returned
  have settled := (transitionHomeostatProcess_resolves (c.transition pair) db).final
    (c := ⟨db, none⟩) (.inl rfl)
  rw [show ((transitionHomeostatProcess (c.transition pair)).run ⟨db, none⟩).2.store = db' from
    congrArg Prod.snd returned] at settled
  rcases settled with same | ⟨-, output, error, -, written, homeostat, process, found, -, found',
    unleased, moved⟩
  · exact .inl same
  · obtain rfl := Option.some.inj (found.symm.trans here)
    obtain rfl := Option.some.inj (found'.symm.trans here')
    have key := c.transition_key pair
    have logged := HomeostatTransition.logged written consistent
      (key ▸ c.closing.key_ne pair.homeostatId)
    rw [key] at logged
    exact .inr ⟨⟨⟨_, (moved.homeostats _).trans (if_pos rfl), rfl, counted, budget⟩,
      ⟨_, (moved.processes _).trans (if_pos rfl), ⟨rfl, unleased.2⟩, within, budget'⟩⟩, logged,
      moved.runs, written.consistent consistent⟩

theorem close_returns {c : Cycle} (consistent : Consistent db)
    (stands : Stands pair "open" .waiting attempt max db)
    (unused : Unused db pair.runId (c.closing.key pair.homeostatId)) :
    ∃ row db', (close pair c).eval db = (.ok row, db') ∧ db' ≠ db := by
  obtain ⟨h, here, opened, -⟩ := stands.homeostat
  obtain ⟨p, here', waiting, -⟩ := stands.process
  obtain ⟨json, parsed⟩ := Option.isSome_iff_exists.mp c.parses
  obtain ⟨output, printed⟩ : ∃ output, (c.transition pair).outputJson.canonical = some output := by
    unfold Cycle.transition
    by_cases resumes : c.closing = .resume
    · exact ⟨json, by simpa only [if_pos resumes] using parsed⟩
    · exact ⟨.braces, by simp only [if_neg resumes]; rfl⟩
  obtain ⟨error, printed'⟩ : ∃ error, (c.transition pair).errorJson.canonical = some error := by
    unfold Cycle.transition
    by_cases resumes : c.closing = .resume
    · exact ⟨.braces, by simp only [if_pos resumes]; rfl⟩
    · exact ⟨json, by simpa only [if_neg resumes] using parsed⟩
  rw [← c.transition_key pair] at unused
  rw [close_eq]
  exact transitionHomeostatProcess_fresh (stands.known consistent) c.closing.closes
    ⟨pair.named.2.1, pair.named.2.2, c.named.1, c.named.2.1⟩ printed printed' unused here opened
    here' waiting

theorem requireRunWaiting_ok {c : Cycle} {u : Unit} :
    (requireRunWaiting (c.reopening pair)).eval db = (.ok u, db') ↔
      RunWaits pair.runId db ∧ db = db' := by
  unfold requireRunWaiting Cycle.reopening RunWaits
  simp only [if_true, bind_ok, fetch_ok]
  constructor
  · rintro ⟨found, _, ⟨rfl, rfl⟩, h⟩
    cases stored : db.runs.find? pair.runId with
    | none => simp [stored, raise_ok] at h
    | some run =>
      simp only [stored, require_ok, decide_eq_true_eq] at h
      exact ⟨⟨run, rfl, h.1⟩, h.2⟩
  · rintro ⟨⟨run, stored, waits⟩, rfl⟩
    exact ⟨some run, db, ⟨stored, rfl⟩, require_met (decide_eq_true waits)⟩

theorem Cycle.reopening_key (c : Cycle) (pair : PairName) {h : Homeostat} (closed : h.status ≠ "open")
    (counted : h.attempt = attempt) :
    (c.reopening pair).key h = rearmKey pair.homeostatId (attempt + 1) := by
  subst counted
  unfold HomeostatReopen.key Cycle.reopening rearmKey
  simp [closed]

theorem rearm_ok {c : Cycle} {closing : Closing} (consistent : Consistent db)
    (stands : Stands pair closing.homeostatStatus closing.processStatus attempt max db)
    (returned : (rearm pair c).eval db = (.ok row, db')) :
    db' = db ∨ (attempt < max ∧ Stands pair "open" .waiting (attempt + 1) max db' ∧
      PairLogged db pair.runId (rearmKey pair.homeostatId (attempt + 1)) db' ∧ db'.runs = db.runs ∧
      Consistent db') := by
  obtain ⟨h, here, closed, counted, budget⟩ := stands.homeostat
  obtain ⟨p, here', unleased, within, budget'⟩ := stands.process
  have settled := (reopenHomeostatProcess_reopens (c.reopening pair) db).final (c := ⟨db, none⟩)
    (.inl rfl)
  rw [show ((reopenHomeostatProcess (c.reopening pair)).run ⟨db, none⟩).2.store = db' from
    congrArg Prod.snd returned] at settled
  rcases settled with same | ⟨homeostat, process, written, found, armed, found', left, moved⟩
  · exact .inl same
  · obtain rfl := Option.some.inj (found.symm.trans here)
    obtain rfl := Option.some.inj (found'.symm.trans here')
    have key := c.reopening_key pair (closed.trans_ne closing.homeostatStatus_ne) counted
    have logged := HomeostatReopen.logged written consistent (key ▸ rearmKey_ne _ _)
    rw [key] at logged
    have bound : attempt < max := by
      have := armed.2
      omega
    exact .inr ⟨bound, ⟨⟨_, (moved.homeostats _).trans (if_pos rfl), rfl, by
      simp [HomeostatReopen.updateHomeostat, counted], budget⟩,
      ⟨_, (moved.processes _).trans (if_pos rfl), ⟨rfl, rfl, rfl⟩, by
        simp only [HomeostatReopen.update]; omega, budget'⟩⟩, logged, moved.runs,
      written.consistent consistent⟩

theorem rearm_waits {c : Cycle} (returned : (rearm pair c).eval db = (.ok row, db')) :
    RunWaits pair.runId db := by
  have returned : (reopenHomeostatProcess (c.reopening pair)).eval db = (.ok row, db') := returned
  simp only [reopenHomeostatProcess, bind_ok, transact_ok] at returned
  obtain ⟨_, _, here, _, _, args, _, _, body, -⟩ := returned
  obtain ⟨-, rfl⟩ := requireRun_ok.mp here
  obtain ⟨-, rfl⟩ := require_ok.mp args
  obtain ⟨_, _, waiting, -⟩ := bind_ok.mp body
  exact (requireRunWaiting_ok.mp waiting).1

theorem rearm_returns {c : Cycle} {closing : Closing} (consistent : Consistent db)
    (stands : Stands pair closing.homeostatStatus closing.processStatus attempt max db)
    (left : attempt < max) (waits : RunWaits pair.runId db)
    (unused : Unused db pair.runId (rearmKey pair.homeostatId (attempt + 1))) :
    ∃ row db', (rearm pair c).eval db = (.ok row, db') ∧ db' ≠ db := by
  obtain ⟨h, here, closed, counted, budget⟩ := stands.homeostat
  obtain ⟨p, here', ⟨terminal, -⟩, within, budget'⟩ := stands.process
  rw [← c.reopening_key pair (closed.trans_ne closing.homeostatStatus_ne) counted] at unused
  refine reopenHomeostatProcess_fresh (r := c.reopening pair) (stands.known consistent)
    ⟨pair.named.2.1, pair.named.2.2, c.named.2.2⟩ unused (requireRunWaiting_ok.mpr ⟨waits, rfl⟩) here
    ?_ ?_ here' ?_ ?_
  · rw [closed]
    exact closing.closes.imp And.left (Or.imp And.left And.left)
  · omega
  · rw [terminal]
    exact closing.closes.imp And.right (Or.imp And.right And.right)
  · omega

end

/-- The rows of a pair carry these statuses. -/
def Shows (pair : PairName) (homeostatStatus : String) (processStatus : ProcessStatus)
    (db : Database) : Prop :=
  (∃ h, db.homeostats.find? (pair.runId, pair.homeostatId) = some h ∧ h.status = homeostatStatus) ∧
    ∃ p, db.processes.find? (pair.runId, pair.processId) = some p ∧ p.status = processStatus

/-- Every call of a sequence does its part, until the budget of re-armings is spent: the one
    after that is rejected and changes nothing. -/
def Works (pair : PairName) : Nat → Database → List Cycle → Prop
  | _, _, [] => True
  | budget, db, c :: rest =>
    let closed := (close pair c).eval db
    let rearmed := (rearm pair c).eval closed.2
    (closed.1.isOk = true ∧ Shows pair c.closing.homeostatStatus c.closing.processStatus closed.2) ∧
      match budget with
      | 0 => rearmed.1.isOk = false ∧ rearmed.2 = closed.2
      | budget + 1 =>
        (rearmed.1.isOk = true ∧ Shows pair "open" .waiting rearmed.2) ∧
          Works pair budget rearmed.2 rest

/-- The journal holds a re-arming for the attempt, made with the arguments of this one. -/
def Rearmed (pair : PairName) (c : Cycle) (attempt : Int) (db : Database) : Prop :=
  ∃ prior, db.commandByKey pair.runId (rearmKey pair.homeostatId attempt) = some prior ∧
    prior.commandType = "homeostat.reopen" ∧ prior.payload = (c.reopening pair).payload ∧
    prior.createdAt = c.rearmedAt

/-- No closing is made twice, the run waits, and the journal holds nothing under the keys of the
    sequence. -/
def Clear (pair : PairName) (db : Database) : Nat → Int → List Cycle → Prop
  | _, _, [] => True
  | 0, attempt, c :: _ =>
    Unused db pair.runId (c.closing.key pair.homeostatId) ∧
      ¬ (RunWaits pair.runId db ∧ Rearmed pair c (attempt + 1) db)
  | budget + 1, attempt, c :: rest =>
    Unused db pair.runId (c.closing.key pair.homeostatId) ∧
      (RunWaits pair.runId db ∧ Unused db pair.runId (rearmKey pair.homeostatId (attempt + 1))) ∧
      (∀ other ∈ rest.take (budget + 1), other.closing ≠ c.closing) ∧
      Clear pair db budget (attempt + 1) rest

section
variable {pair : PairName} {db db' : Database} {attempt max : Int}

theorem Stands.shows {homeostatStatus : String} {processStatus : ProcessStatus}
    (stands : Stands pair homeostatStatus processStatus attempt max db) :
    Shows pair homeostatStatus processStatus db := by
  obtain ⟨⟨h, here, status, -⟩, p, here', ⟨status', -⟩, -⟩ := stands
  exact ⟨⟨h, here, status⟩, p, here', status'⟩

theorem Stands.status_eq {homeostatStatus shown : String} {processStatus other : ProcessStatus}
    (stands : Stands pair homeostatStatus processStatus attempt max db)
    (shows : Shows pair shown other db) : shown = homeostatStatus := by
  obtain ⟨h, here, status, -⟩ := stands.homeostat
  obtain ⟨h', found, status'⟩ := shows.1
  obtain rfl := Option.some.inj (found.symm.trans here)
  exact status'.symm.trans status

/-- The journal after a cycle: it has recorded the two keys of it, and nothing else. -/
structure Follows (pair : PairName) (closing : Closing) (attempt : Int) (db db' : Database) :
    Prop where
  unused : ∀ key, Unused db' pair.runId key ↔ Unused db pair.runId key ∧
    key ≠ closing.key pair.homeostatId ∧ key ≠ rearmKey pair.homeostatId attempt
  commandByKey : ∀ key, key ≠ closing.key pair.homeostatId → key ≠ rearmKey pair.homeostatId attempt →
    db'.commandByKey pair.runId key = db.commandByKey pair.runId key
  runs : db'.runs = db.runs

variable {closing : Closing}

theorem Follows.waits (follows : Follows pair closing attempt db db') :
    RunWaits pair.runId db' ↔ RunWaits pair.runId db := by
  rw [RunWaits, follows.runs, RunWaits]

theorem Follows.closed (follows : Follows pair closing attempt db db') (other : Closing) :
    Unused db' pair.runId (other.key pair.homeostatId) ↔
      Unused db pair.runId (other.key pair.homeostatId) ∧ other ≠ closing := by
  rw [follows.unused, ne_eq, Closing.key_inj]
  simp [Closing.key_ne_rearmKey]

theorem Follows.rearmed (follows : Follows pair closing attempt db db') {later : Int}
    (after : attempt < later) : Unused db' pair.runId (rearmKey pair.homeostatId later) ↔
      Unused db pair.runId (rearmKey pair.homeostatId later) := by
  have apart : rearmKey pair.homeostatId later ≠ rearmKey pair.homeostatId attempt := fun same => by
    have := rearmKey_inj.mp same
    omega
  rw [follows.unused]
  exact and_iff_left ⟨(closing.key_ne_rearmKey _ _).symm, apart⟩

theorem Follows.replayed (follows : Follows pair closing attempt db db') {later : Int}
    (after : attempt < later) (c : Cycle) : Rearmed pair c later db' ↔ Rearmed pair c later db := by
  have apart : rearmKey pair.homeostatId later ≠ rearmKey pair.homeostatId attempt := fun same => by
    have := rearmKey_inj.mp same
    omega
  rw [Rearmed, follows.commandByKey _ (closing.key_ne_rearmKey _ _).symm apart, Rearmed]

theorem Follows.clear_iff (follows : Follows pair closing attempt db db') {rest : List Cycle}
    {budget : Nat} {later : Int} (after : attempt ≤ later) :
    Clear pair db' budget later rest ↔
      (∀ other ∈ rest.take (budget + 1), other.closing ≠ closing) ∧ Clear pair db budget later rest := by
  induction rest generalizing budget later with
  | nil => simp [Clear]
  | cons c rest ih =>
    cases budget with
    | zero =>
      simp only [Clear, follows.closed, follows.waits, follows.replayed (Int.lt_add_one_of_le after)]
      simp only [List.take_succ_cons, List.take_zero, List.mem_singleton, forall_eq]
      tauto
    | succ budget =>
      have rest_iff : Clear pair db' budget (later + 1) rest ↔
          (∀ other ∈ rest.take (budget + 1), other.closing ≠ closing) ∧
            Clear pair db budget (later + 1) rest := ih (by omega)
      simp only [Clear, follows.closed, follows.waits, follows.rearmed (Int.lt_add_one_of_le after),
        rest_iff]
      simp only [List.take_succ_cons, List.forall_mem_cons]
      tauto

theorem Follows.cycle {middle : Database}
    (closed : PairLogged db pair.runId (closing.key pair.homeostatId) middle)
    (runs : middle.runs = db.runs)
    (rearmed : PairLogged middle pair.runId (rearmKey pair.homeostatId attempt) db')
    (runs' : db'.runs = middle.runs) : Follows pair closing attempt db db' where
  unused key := by rw [rearmed.unused_iff, closed.unused_iff, and_assoc]
  commandByKey key apart apart' :=
    (rearmed.commandByKey apart').trans (closed.commandByKey apart)
  runs := runs'.trans runs

theorem close_iff {c : Cycle} (consistent : Consistent db)
    (stands : Stands pair "open" .waiting attempt max db) :
    (((close pair c).eval db).1.isOk = true ∧ Shows pair c.closing.homeostatStatus
      c.closing.processStatus ((close pair c).eval db).2) ↔
      Unused db pair.runId (c.closing.key pair.homeostatId) := by
  constructor
  · rintro ⟨ok, shows⟩
    obtain ⟨row, db', returned⟩ := returns_iff.mpr ok
    rw [returned] at shows
    rcases close_ok consistent stands returned with rfl | ⟨-, logged, -⟩
    · exact absurd (stands.status_eq shows) c.closing.homeostatStatus_ne
    · exact logged.unused
  · intro unused
    obtain ⟨row, db', returned, apart⟩ := close_returns consistent stands unused
    obtain ⟨closed, -⟩ := (close_ok consistent stands returned).resolve_left apart
    rw [returned]
    exact ⟨rfl, closed.shows⟩

theorem rearm_iff {c : Cycle} {closing : Closing} (consistent : Consistent db)
    (stands : Stands pair closing.homeostatStatus closing.processStatus attempt max db)
    (left : attempt < max) :
    (((rearm pair c).eval db).1.isOk = true ∧ Shows pair "open" .waiting ((rearm pair c).eval db).2) ↔
      RunWaits pair.runId db ∧ Unused db pair.runId (rearmKey pair.homeostatId (attempt + 1)) := by
  constructor
  · rintro ⟨ok, shows⟩
    obtain ⟨row, db', returned⟩ := returns_iff.mpr ok
    rw [returned] at shows
    refine ⟨rearm_waits returned, ?_⟩
    rcases rearm_ok consistent stands returned with rfl | ⟨-, -, logged, -⟩
    · exact absurd (stands.status_eq shows).symm closing.homeostatStatus_ne
    · exact logged.unused
  · rintro ⟨waits, unused⟩
    obtain ⟨row, db', returned, apart⟩ := rearm_returns (c := c) consistent stands left waits unused
    obtain ⟨-, opened, -⟩ := (rearm_ok consistent stands returned).resolve_left apart
    rw [returned]
    exact ⟨rfl, opened.shows⟩

theorem rearm_spent {c : Cycle} {closing : Closing} (consistent : Consistent db)
    (stands : Stands pair closing.homeostatStatus closing.processStatus attempt max db)
    (spent : max ≤ attempt) :
    (((rearm pair c).eval db).1.isOk = false ∧ ((rearm pair c).eval db).2 = db) ↔
      ¬ (RunWaits pair.runId db ∧ Rearmed pair c (attempt + 1) db) := by
  obtain ⟨h, here, closed, counted, budget⟩ := stands.homeostat
  obtain ⟨p, here', -⟩ := stands.process
  have key := c.reopening_key pair (closed.trans_ne closing.homeostatStatus_ne) counted
  have replays := reopenHomeostatProcess_spent (r := c.reopening pair) (stands.known consistent)
    ⟨pair.named.2.1, pair.named.2.2, c.named.2.2⟩ here (by omega) here'
  have restores := reopenHomeostatProcess_restores (r := c.reopening pair) here'
  have waits : (requireRunWaiting (c.reopening pair)).eval db = (.ok (), db) ↔
      RunWaits pair.runId db := requireRunWaiting_ok.trans (and_iff_left rfl)
  rw [waits, HomeostatReopen.Replays, key] at replays
  have returns : ((rearm pair c).eval db).1.isOk = true ↔
      RunWaits pair.runId db ∧ Rearmed pair c (attempt + 1) db := replays
  rw [← returns, Bool.not_eq_true]
  refine ⟨And.left, fun raised => ⟨raised, ?_⟩⟩
  cases outcome : (rearm pair c).eval db with
  | mk result db' =>
    cases result with
    | ok row =>
      rw [outcome] at raised
      cases raised
    | error message => exact restores message db' outcome

/-- From an open pair with `budget` re-armings left a sequence of closings and re-armings works
    exactly when no closing comes twice in it, its run waits, and the keys are unused. -/
theorem works_iff {budget : Nat} {cycles : List Cycle} (consistent : Consistent db)
    (stands : Stands pair "open" .waiting attempt max db) (left : attempt + budget = max) :
    Works pair budget db cycles ↔ Clear pair db budget attempt cycles := by
  induction cycles generalizing budget db attempt with
  | nil => simp [Works, Clear]
  | cons c rest ih =>
    have closes := close_iff (c := c) consistent stands
    by_cases unused : Unused db pair.runId (c.closing.key pair.homeostatId)
    case neg =>
      have fails := mt closes.mp unused
      cases budget with
      | zero => exact ⟨fun works => absurd works.1 fails, fun clear => absurd clear.1 unused⟩
      | succ budget => exact ⟨fun works => absurd works.1 fails, fun clear => absurd clear.1 unused⟩
    obtain ⟨row, middle, returned, apart⟩ := close_returns consistent stands unused
    obtain ⟨closed, logged, runs, consistent'⟩ :=
      (close_ok consistent stands returned).resolve_left apart
    have waits : RunWaits pair.runId middle ↔ RunWaits pair.runId db := by
      rw [RunWaits, runs, RunWaits]
    have arms (later : Int) : Unused middle pair.runId (rearmKey pair.homeostatId later) ↔
        Unused db pair.runId (rearmKey pair.homeostatId later) := by
      rw [logged.unused_iff]
      exact and_iff_left (c.closing.key_ne_rearmKey _ _).symm
    have met := closes.mpr unused
    cases budget with
    | zero =>
      have spent := rearm_spent (c := c) consistent' closed (by omega)
      have recorded : Rearmed pair c (attempt + 1) middle ↔ Rearmed pair c (attempt + 1) db := by
        rw [Rearmed, logged.commandByKey (c.closing.key_ne_rearmKey _ _).symm, Rearmed]
      rw [waits, recorded] at spent
      rw [returned] at met
      simp only [Works, Clear, returned]
      rw [and_iff_right met, and_iff_right unused, spent]
    | succ budget =>
      have rearms := rearm_iff (c := c) consistent' closed (by omega)
      rw [waits, arms] at rearms
      rw [returned] at met
      simp only [Works, Clear, returned]
      rw [and_iff_right met, and_iff_right unused, rearms]
      refine and_congr_right fun armed => ?_
      obtain ⟨row', db', returned', apart'⟩ := rearm_returns (c := c) consistent' closed (by omega)
        (waits.mpr armed.1) ((arms _).mpr armed.2)
      obtain ⟨-, opened, logged', runs', consistent''⟩ :=
        (rearm_ok consistent' closed returned').resolve_left apart'
      have follows := Follows.cycle logged runs logged' runs'
      rw [returned', ih consistent'' opened (by omega), follows.clear_iff le_rfl]

end

theorem opens_stands {digest : Json → String} {calls : List (Call × Option Nat)} {pair : PairName}
    {p : HomeostatPark} {faults : Option Nat} (opens : Opens digest calls p faults)
    (run : p.runId = pair.runId) (homeostat : p.homeostatId = pair.homeostatId)
    (process : p.processId = pair.processId) :
    ∃ attempt max, Stands pair "open" .waiting attempt max
      (after digest (calls ++ [(.process (.parkHomeostatProcess p), faults)])) := by
  obtain ⟨free, stored⟩ := opens
  rw [after_append] at stored ⊢
  have parked := (parkHomeostatProcess_parks p (after digest calls)).void.final
    (c := ⟨_, faults⟩) (.inl rfl)
  rcases parked with same | ⟨output, metadata, -, row, -, -, -, written⟩
  · have same : step digest (after digest calls) (.process (.parkHomeostatProcess p), faults) =
      after digest calls := same
    rw [same, free] at stored
    cases stored
  · have here := (written.homeostats _).trans (if_pos rfl)
    have here' := (written.processes _).trans (if_pos rfl)
    rw [run, homeostat] at here
    rw [run, process] at here'
    exact ⟨row.attempt, row.maxAttempts, ⟨_, here, rfl, rfl, rfl⟩, _, here', ⟨rfl, rfl, rfl⟩, le_rfl,
      rfl⟩

/-- A parked pair is open, and a sequence of closings and re-armings of an open pair works through
    its whole budget exactly when no closing comes twice in it, the run waits, and the journal
    holds nothing under the keys of the sequence. -/
theorem rearm_cycles_work_iff (digest : Json → String) (pair : PairName) :
    (∀ calls p faults, Opens digest calls p faults → p.runId = pair.runId →
      p.homeostatId = pair.homeostatId → p.processId = pair.processId →
      ∃ attempt max, Stands pair "open" .waiting attempt max
        (after digest (calls ++ [(.process (.parkHomeostatProcess p), faults)]))) ∧
    ∀ calls attempt max (budget : Nat) cycles,
      Stands pair "open" .waiting attempt max (after digest calls) → attempt + budget = max →
      (Works pair budget (after digest calls) cycles ↔
        Clear pair (after digest calls) budget attempt cycles) :=
  ⟨fun _ _ _ opens run homeostat process => opens_stands opens run homeostat process,
    fun calls _ _ _ _ stands left => works_iff (after_consistent digest calls) stands left⟩

/-- A pair parked on the first of three attempts, in a run that waits. -/
def parkedGate : List (Call × Option Nat) :=
  [(.process (.createRun
      { runId := "run", status := "waiting", metadata := "\x7b\x7d", createdAt := "t0" }), none),
    (.process (.scheduleProcess
      { runId := "run", processId := "work", processType := "manual", createdAt := "t0",
        maxAttempts := 3 }), none),
    (.process (.claimProcess "run" "work" ⟨"worker", "t1", "t9", ""⟩), none),
    (.process (.parkHomeostatProcess
      { runId := "run", homeostatId := "gate", processId := "work", actor := "worker",
        at_ := "t2" }), none)]

def gate : PairName := ⟨"run", "gate", "work", by decide⟩

def cycleAt (closing : Closing) (closedAt rearmedAt : String)
    (timed : closedAt ≠ "" ∧ rearmedAt ≠ "") : Cycle :=
  { closing, actor := "user", closedAt, json := .braces, rearmedBy := "user", rearmedAt,
    named := ⟨by decide, timed.1, by decide, timed.2⟩, parses := rfl }

theorem parkedGate_stands : Stands gate "open" .waiting 1 3 (after (fun _ => "") parkedGate) := by
  have homeostat : ((after (fun _ => "") parkedGate).homeostats.find? ("run", "gate")).any
      (fun h => h.status = "open" ∧ h.attempt = 1 ∧ h.maxAttempts = 3) = true := by decide +kernel
  have process : ((after (fun _ => "") parkedGate).processes.find? ("run", "work")).any
      (fun p => (p.status = .waiting ∧ p.leaseOwner = "" ∧ p.leaseExpiresAt = "") ∧
        p.attempt ≤ 1 ∧ p.maxAttempts = 3) = true := by decide +kernel
  obtain ⟨h, here, stands⟩ := (Option.any_eq_true _ _).mp homeostat
  obtain ⟨p, here', stands'⟩ := (Option.any_eq_true _ _).mp process
  exact ⟨⟨h, here, of_decide_eq_true stands⟩, p, here', of_decide_eq_true stands'⟩

/-- Resumed, re-armed, cancelled, re-armed and expired: the budget is spent. -/
theorem rearm_cycles_work_iff_thrice :
    Works gate 2 (after (fun _ => "") parkedGate)
      [cycleAt .resume "t3" "t4" (by decide), cycleAt .cancel "t5" "t6" (by decide),
        cycleAt .expire "t7" "t8" (by decide)] := by
  refine ((rearm_cycles_work_iff (fun _ => "") gate).2 parkedGate 1 3 2 _ parkedGate_stands
    (by decide)).mpr ?_
  have unused (key : String) (free : key ∈ ["homeostat.complete:gate", "homeostat.cancel:gate",
      "homeostat.expire:gate", "homeostat.reopen:gate:2", "homeostat.reopen:gate:3"]) :
      Unused (after (fun _ => "") parkedGate) "run" key := by
    simp only [List.mem_cons, List.not_mem_nil, or_false] at free
    rcases free with rfl | rfl | rfl | rfl | rfl <;>
      exact ⟨by decide +kernel, by decide +kernel, by decide +kernel, by decide +kernel⟩
  have waiting : ((after (fun _ => "") parkedGate).runs.find? "run").any
      (fun run => run.status = "waiting") = true := by decide +kernel
  have waits : RunWaits "run" (after (fun _ => "") parkedGate) := by
    obtain ⟨run, found, status⟩ := (Option.any_eq_true _ _).mp waiting
    exact ⟨run, found, of_decide_eq_true status⟩
  refine ⟨unused _ (by decide +kernel), ⟨waits, unused _ (by decide +kernel)⟩, by decide,
    unused _ (by decide +kernel), ⟨waits, unused _ (by decide +kernel)⟩, by decide,
    unused _ (by decide +kernel), ?_⟩
  rintro ⟨-, prior, recorded, -⟩
  have free : (after (fun _ => "") parkedGate).commandByKey gate.runId
      (rearmKey gate.homeostatId (1 + 1 + 1 + 1)) = none := by decide +kernel
  rw [free] at recorded
  cases recorded

/-- A second resumption finds the command of the first one under its key. -/
theorem second_resumption_refused :
    Stands gate "open" .waiting 1 3 (after (fun _ => "") parkedGate) ∧
      ¬ Works gate 2 (after (fun _ => "") parkedGate)
        [cycleAt .resume "t3" "t4" (by decide), cycleAt .resume "t5" "t6" (by decide)] := by
  refine ⟨parkedGate_stands, fun works => ?_⟩
  obtain ⟨-, -, ⟨returned, -⟩, -⟩ := works
  have refused : ((close gate (cycleAt .resume "t5" "t6" (by decide))).eval
      ((rearm gate (cycleAt .resume "t3" "t4" (by decide))).eval
        ((close gate (cycleAt .resume "t3" "t4" (by decide))).eval
          (after (fun _ => "") parkedGate)).2).2).1.isOk = false := by decide +kernel
  rw [refused] at returned
  cases returned

end Fala.Driver
