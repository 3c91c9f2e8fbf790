import Fala.Driver.Selection
import Fala.Driver.Turns

/-! What the ticks of a drive over supplied rows do to the process rows. -/

namespace Fala.Driver
open Durable Program Journal

/-- Only rows under some keys change, and no row is claimed past its attempts. -/
structure Confined (K : String × String → Prop) (db db' : Database) : Prop where
  others : ∀ k, ¬ K k → db'.processes.find? k = db.processes.find? k
  bounded : ∀ k row', db'.processes.find? k = some row' → ∃ row, db.processes.find? k = some row ∧
    row'.maxAttempts = row.maxAttempts ∧ (row'.attempt = row.attempt ∨ row'.attempt ≤ row'.maxAttempts)

section
variable {K : String × String → Prop} {k : String × String} {db db' : Database}

instance : Std.Refl (Confined K) where
  refl _ := ⟨fun _ _ => rfl, fun _ row' found => ⟨row', found, rfl, .inl rfl⟩⟩

instance : IsTrans Database (Confined K) where
  trans db middle db' first later := by
    refine ⟨fun k apart => (later.others k apart).trans (first.others k apart), ?_⟩
    intro k row'' found
    obtain ⟨row', found, most', moved'⟩ := later.bounded k row'' found
    obtain ⟨row, found, most, moved⟩ := first.bounded k row' found
    refine ⟨row, found, most'.trans most, ?_⟩
    rcases moved' with same' | within'
    · rw [same', most']
      exact moved
    · exact .inr within'

theorem Confined.imp {L : String × String → Prop} (confined : Confined K db db') (wider : ∀ k, K k → L k) : Confined L db db' :=
  ⟨fun k apart => confined.others k fun there => apart (wider k there), confined.bounded⟩

theorem Confined.same (processes : db'.processes = db.processes) : Confined K db db' := by
  refine ⟨fun k _ => by rw [processes], ?_⟩
  intro k row' found
  rw [processes] at found
  exact ⟨row', found, rfl, .inl rfl⟩

theorem Confined.act {runId processId : String} {action : RowAction}
    (written : Written db (.act runId processId action) db') (here : K (runId, processId))
    (most : ∀ row, (action.apply row).maxAttempts = row.maxAttempts)
    (bounded : ∀ row, action.Enabled row → (action.apply row).attempt = row.attempt ∨
      (action.apply row).attempt ≤ row.maxAttempts) : Confined K db db' := by
  cases written with
  | act found enabled processes logged =>
    constructor
    · intro k apart
      rw [processes, if_neg]
      rintro rfl
      exact apart here
    · intro k row' stored
      rw [processes] at stored
      split at stored
      · rename_i same
        obtain rfl := Option.some.inj stored
        rw [same]
        refine ⟨_, found, most _, ?_⟩
        rw [most]
        exact bounded _ enabled
      · exact ⟨row', stored, rfl, .inl rfl⟩

theorem Confined.moves (does : Does (MovesRow k) db db') : Confined (· = k) db db' := by
  refine does.induct (refl_of (Confined (· = k)) db) ?_
  intro before after w moves written confined
  refine trans_of (Confined (· = k)) confined ?_
  cases w with
  | record =>
    cases written with
    | record processes logged => exact .same processes
  | schedule => cases moves.1
  | act run process action =>
    have here : (run, process) = k := moves.2 run process action rfl
    cases action with
    | transition t output error => exact .act written here (fun _ => rfl) fun _ _ => .inl rfl
    | park p output metadata => exact .act written here (fun _ => rfl) fun _ _ => .inl rfl
    | _ => cases moves.1

theorem Confined.claimed {runId processId : String} {c : ClaimRequest}
    (written : Written db (.act runId processId (.claim c)) db') : Confined (· = (runId, processId)) db db' := by
  apply Confined.act (K := (· = (runId, processId))) written rfl (fun _ => rfl)
  intro row enabled
  have remaining : row.attempt < row.maxAttempts := (of_decide_eq_true enabled.1).1
  exact .inr remaining

theorem maintainProcess_confined (process : ProcessRow) (m : Maintenance) :
    (Session.program (maintainProcess process m)).Within (Confined (· = process.key)) :=
  (Mild.maintain process m).within.imp fun _ _ => Confined.moves

end

section Ticks

variable {digest : Json → String} {outside : Outside} {worker : Worker}

theorem ticks_once {α : Type} (p : Sql α) (report : α → DriverResult) (once : ∀ a, (report a).ticks = 1) :
    (Session.program (p >>= fun a => pure (report a))).Returns fun one => one.ticks = 1 := by
  apply Session.Returns.program
  intro s one s' h
  obtain ⟨a, middle, -, h⟩ := bind_ok.mp h
  obtain ⟨rfl, -⟩ := pure_ok.mp h
  exact once a

theorem failClaimed_ticks (claimed : ProcessRow) (error : AdapterError) :
    (Session.program (failClaimed worker claimed error)).Returns fun one => one.ticks = 1 :=
  ticks_once _ _ fun _ => rfl

theorem failViolating_ticks (claimed : ProcessRow) (error : AdapterError) :
    (failViolating worker claimed error).Returns fun one => one.ticks = 1 :=
  .bind fun _ => failClaimed_ticks claimed error

theorem completeClaimed_ticks (claimed : ProcessRow) (result : EffectorResult) :
    (completeClaimed digest worker claimed result).Returns fun one => one.ticks = 1 := by
  unfold completeClaimed
  split
  · exact failViolating_ticks claimed _
  · apply Session.Returns.handle
    · exact .bind fun _ => .pure rfl
    · intro detail
      exact .ite (failViolating_ticks claimed _) (.raise detail)

theorem settleResult_ticks (claimed : ProcessRow) (adapter : AdapterSpec) (result : EffectorResult) :
    (settleResult digest outside worker claimed adapter result).Returns fun one => one.ticks = 1 := by
  have settled : (settleFailure outside worker claimed adapter result).Returns fun one => one.ticks = 1 :=
    .bind fun _ => .bind fun due => .bind fun stored => .pure rfl
  apply Session.Returns.ite
  · exact ticks_once _ _ fun _ => rfl
  · exact .ite (completeClaimed_ticks claimed result) settled

end Ticks

namespace Timed

section
variable {digest : Json → String} {outside : Outside} {worker : Worker} {t : Readings} {process : ProcessRow}
  {adapter : AdapterSpec} {db db' : Database}

theorem driveOnce_confined :
    (driveOnce digest outside worker t process adapter).Within (Confined (· = process.key)) := by
  intro db
  have same : Confined (· = process.key) db db := refl_of _ db
  refine .require same fun _ => .bind (fun message db' h => ?_) fun claimed db' h => ?_
  · rcases (claimProcess_settles process.runId process.id _ db).evaluated h with rfl | rfl | done
    · exact same
    · exact same
    · obtain ⟨w, ⟨-, rfl⟩, claim⟩ := done
      exact .claimed claim
  · have taken : Confined (· = process.key) db db' := .claimed (claimProcess_claims rfl h)
    have here : claimed.key = process.key := by
      obtain ⟨old, found, -, rfl, -⟩ := claimProcess_row rfl h
      have key : old.key = process.key := Table.find?_key found
      exact key
    have later := settleClaimed_rows digest outside worker t claimed adapter db'
    rw [here] at later
    exact trans_of _ taken (.moves later)

theorem driveOnce_attempts {one : DriverResult}
    (h : driveOnce digest outside worker t process adapter db = (.ok one, db')) :
    ∃ row, db.processes.find? process.key = some row ∧ claimable row t.claimed = true ∧
      attempts db' process.key = some (row.attempt + 1) := by
  simp only [driveOnce, Session.bind_ok, Session.require_ok, Session.program_ok] at h
  obtain ⟨_, _, ⟨-, rfl⟩, claimed, middle, claim, h⟩ := h
  obtain ⟨row, found, claimable, rfl, stored⟩ := claimProcess_row rfl claim
  have does := (settleClaimed_rows digest outside worker t _ adapter).left h
  have calm : Calm middle db' := .does does fun _ moves => moves.1.quiet
  refine ⟨row, found, claimable, ?_⟩
  rw [calm.attempts, attempts]
  exact congrArg (Option.map ProcessRow.attempt) stored

theorem driveOnce_ticks : (driveOnce digest outside worker t process adapter).Returns fun one => one.ticks = 1 := by
  have executes (claimed : ProcessRow) :
      (executeClaimed digest outside worker t claimed adapter).Returns fun one => one.ticks = 1 := by
    have finish : (settleResult digest outside (worker.reading t.settled) claimed adapter
        (outside.execute claimed adapter)).Returns fun one => one.ticks = 1 := settleResult_ticks claimed adapter _
    apply Session.Returns.ite finish
    split
    · exact finish
    · exact .bind fun cancelled => .ite (.pure rfl) finish
  exact .bind fun _ => .bind fun claimed => .ite (failClaimed_ticks claimed _) (executes claimed)

end

/-- A row that a drive was given. -/
def Supplied (s : Supply) (k : String × String) : Prop := k.1 = s.runId ∧ (s.adapter? k.2).isSome = true

/-- The rows of the supplied run; a run has a name. -/
def rowsOf (s : Supply) (db : Database) : List ProcessRow :=
  if s.runId = "" then [] else db.processes.rows.filter fun row => row.runId = s.runId

/-- The supplied row that comes first among the claimable ones. -/
def Least (s : Supply) (now : String) (db : Database) (row : ProcessRow) : Prop :=
  Queue.Least rowBefore (reading s now).eligible (rowsOf s db) row

/-- No supplied row is claimable. -/
def Idle (s : Supply) (now : String) (db : Database) : Prop :=
  ∀ row ∈ rowsOf s db, (reading s now).eligible row = false

/-- One tick took a row on: it failed the row, or it claimed it once, and did nothing to another row. -/
structure Tick (s : Supply) (now : String) (db db' : Database) (row : ProcessRow) : Prop where
  least : Least s now db row
  alone : Confined (· = row.key) db db'
  taken : (∃ row', db'.processes.find? row.key = some row' ∧ row'.status = .failed) ∨
    attempts db' row.key = some (row.attempt + 1)

section
variable {digest : Json → String} {outside : Outside} {s : Supply} {t : Readings} {aggregate : DriverResult}
  {db db' : Database}

theorem durable_rows {rows : List ProcessRow} (h : s.durable db = (.ok rows, db')) :
    db' = db ∧ ∀ row, row ∈ rows ↔ row ∈ rowsOf s db := by
  unfold Supply.durable at h
  unfold rowsOf
  by_cases run : s.runId = ""
  · rw [if_pos run] at h ⊢
    obtain ⟨rfl, rfl⟩ := Session.pure_ok.mp h
    exact ⟨rfl, fun row => Iff.rfl⟩
  · rw [if_neg run] at h ⊢
    obtain ⟨-, rfl, rfl⟩ := listProcesses_ok.mp (Session.program_ok.mp h)
    exact ⟨rfl, fun row => (queueOrder_perm _).mem_iff⟩

theorem best_least {rows : List ProcessRow} {now : String} (members : ∀ row, row ∈ rows ↔ row ∈ rowsOf s db) :
    ((reading s now).best rows none = none ∧ Idle s now db) ∨
      ∃ row adapter, (reading s now).best rows none = some (row, adapter) ∧ Least s now db row := by
  have picks := ((reading s now).picks_best rows).1
  cases selected : (reading s now).best rows none with
  | none =>
    rw [selected] at picks
    exact .inl ⟨rfl, fun row member => picks row ((members row).mpr member)⟩
  | some pair =>
    rw [selected] at picks
    have least := Queue.Picks.congr picks (fun row => (members row).symm) (fun _ _ => rfl)
    exact .inr ⟨pair.1, pair.2, rfl, least⟩

theorem Least.stored {now : String} {row : ProcessRow} (least : Least s now db row) :
    db.processes.find? row.key = some row ∧ Supplied s row.key := by
  have member := least.member
  unfold rowsOf at member
  split at member
  · cases member
  · obtain ⟨member, run⟩ := List.mem_filter.mp member
    have supplied := (Bool.and_eq_true _ _ |>.mp least.counted).1
    exact ⟨Table.find?_some.mpr ⟨member, rfl⟩, of_decide_eq_true run, supplied⟩

theorem executeCandidate_claims {candidate : ProcessRow} {adapter : AdapterSpec} {pass : Pass}
    (h : executeCandidate digest outside s t candidate adapter aggregate db = (.ok pass, db')) :
    ∃ one, driveOnce digest outside s.worker t candidate adapter db = (.ok one, db') ∧ one.ticks = 1 ∧
      pass = .claimed (aggregateOnce aggregate one) := by
  obtain ⟨one, middle, driven, h⟩ := Session.bind_ok.mp h
  have once := driveOnce_ticks db one middle driven
  have unraised : ¬ (one.ticks = 0 ∧ ¬ one.error.isOk = true) := by
    rw [once]
    exact fun raised => absurd raised.1 Nat.one_ne_zero
  rw [if_neg unraised] at h
  obtain ⟨rfl, rfl⟩ := Session.pure_ok.mp h
  exact ⟨one, driven, once, rfl⟩

theorem executeCandidate_took {candidate : ProcessRow} {adapter : AdapterSpec} {pass : Pass} {row : ProcessRow}
    (found : db.processes.find? candidate.key = some row)
    (h : executeCandidate digest outside s t candidate adapter aggregate db = (.ok pass, db')) :
    ∃ aggregate', pass = .claimed aggregate' ∧ aggregate'.ticks = aggregate.ticks + 1 ∧
      attempts db' candidate.key = some (row.attempt + 1) := by
  obtain ⟨one, driven, once, rfl⟩ := executeCandidate_claims h
  obtain ⟨old, here, -, counted⟩ := driveOnce_attempts driven
  obtain rfl := Option.some.inj (found.symm.trans here)
  refine ⟨_, rfl, ?_, counted⟩
  show aggregate.ticks + one.ticks = aggregate.ticks + 1
  rw [once]

theorem resolveCandidate_took {candidate : ProcessRow} {adapter : AdapterSpec} {pass : Pass}
    (found : db.processes.find? candidate.key = some candidate)
    (h : resolveCandidate digest outside s t candidate adapter aggregate db = (.ok pass, db')) :
    ∃ aggregate', pass = .claimed aggregate' ∧ aggregate'.ticks = aggregate.ticks + 1 ∧
      ((∃ row', db'.processes.find? candidate.key = some row' ∧ row'.status = .failed) ∨
        attempts db' candidate.key = some (candidate.attempt + 1)) := by
  obtain ⟨maintained, middle, resolved, h⟩ := Session.bind_ok.mp h
  have calm : Calm db middle :=
    .does ((Mild.maintain candidate _).within.left resolved) fun _ moves => moves.1.quiet
  obtain ⟨-, -, -, stored⟩ := maintainProcess_stored (Session.program_ok.mp resolved)
  split at h
  · rename_i failed
    obtain ⟨rfl, rfl⟩ := Session.pure_ok.mp h
    exact ⟨_, rfl, rfl, .inl ⟨maintained, stored, failed⟩⟩
  · obtain ⟨current, _, read, h⟩ := Session.bind_ok.mp h
    obtain ⟨-, here, rfl⟩ := getProcess_ok.mp (Session.program_ok.mp read)
    have here : middle.processes.find? candidate.key = some current := here
    have attempt : current.attempt = candidate.attempt := (calm.row candidate.key candidate current found here).attempt
    have key : current.key = candidate.key := Table.find?_key here
    rw [← key] at here
    obtain ⟨aggregate', rfl, ticks, counted⟩ := executeCandidate_took here h
    rw [key, attempt] at counted
    exact ⟨aggregate', rfl, ticks, .inr counted⟩

theorem executeCandidate_confined (candidate : ProcessRow) (adapter : AdapterSpec) :
    (executeCandidate digest outside s t candidate adapter aggregate).Within (Confined (· = candidate.key)) :=
  .bind driveOnce_confined fun _ => .ite (.pure _) (.pure _)

theorem resolveCandidate_confined (candidate : ProcessRow) (adapter : AdapterSpec) :
    (resolveCandidate digest outside s t candidate adapter aggregate).Within (Confined (· = candidate.key)) := by
  intro db
  have maintains := maintainProcess_confined candidate
    { workerId := candidate.leaseOwner, now := t.tick, retryAvailableAt := t.tick,
      errorJson := leaseError "process lease expired" }
  apply Session.Leaves.bind
  · intro message db' h
    exact maintains.left h
  · intro maintained middle h
    have resolved := maintains.left h
    unfold Session.Leaves
    split
    · exact resolved
    · apply Session.Leaves.afterRead (getProcess_reads _ _) resolved
      intro current read
      obtain ⟨-, here, -⟩ := getProcess_ok.mp read
      have key : current.key = candidate.key := Table.find?_key here
      have executes := @executeCandidate_confined digest outside s t aggregate current adapter middle
      rw [key] at executes
      exact trans_of _ resolved executes

theorem drivePass_ticks {pass : Pass} (h : drivePass digest outside s t aggregate db = (.ok pass, db')) :
    (pass = .idle ∧ db' = db ∧ Idle s t.tick db) ∨
      ∃ aggregate' row, pass = .claimed aggregate' ∧ aggregate'.ticks = aggregate.ticks + 1 ∧ Tick s t.tick db db' row := by
  obtain ⟨rows, _, read, ran⟩ := Session.bind_ok.mp h
  obtain ⟨rfl, members⟩ := durable_rows read
  rcases @best_least s _ rows t.tick members with ⟨none_, idle⟩ | ⟨row, adapter, best, least⟩
  · rw [none_] at ran
    obtain ⟨rfl, rfl⟩ := Session.pure_ok.mp ran
    exact .inl ⟨rfl, rfl, idle⟩
  · rw [best] at ran
    dsimp only at ran
    obtain ⟨found, -⟩ := least.stored
    split at ran
    · obtain ⟨aggregate', rfl, ticks, taken⟩ := resolveCandidate_took found ran
      exact .inr ⟨aggregate', row, rfl, ticks, least, (resolveCandidate_confined row adapter).left ran, taken⟩
    · obtain ⟨aggregate', rfl, ticks, counted⟩ := executeCandidate_took found ran
      exact .inr ⟨aggregate', row, rfl, ticks, least, (executeCandidate_confined row adapter).left ran, .inr counted⟩

theorem drivePass_touches :
    (drivePass digest outside s t aggregate).Leaves db fun db' =>
      db' = db ∨ ∃ row, Least s t.tick db row ∧ Confined (· = row.key) db db' := by
  have reads : s.durable.Within (fun db db' => db' = db) := by
    intro db
    unfold Supply.durable
    split
    · exact rfl
    · exact (listProcesses_reads s.runId).eval db
  apply Session.Leaves.bind
  · intro message db' h
    exact .inl (reads.left h)
  · intro rows db' h
    obtain ⟨rfl, members⟩ := durable_rows h
    rcases @best_least s _ rows t.tick members with ⟨none_, idle⟩ | ⟨row, adapter, best, least⟩
    · rw [none_]
      exact .inl rfl
    · rw [best]
      dsimp only [Session.Leaves]
      split
      · exact .inr ⟨row, least, resolveCandidate_confined row adapter db'⟩
      · exact .inr ⟨row, least, executeCandidate_confined row adapter db'⟩

theorem drivePass_confined : (drivePass digest outside s t aggregate).Within (Confined (Supplied s)) := by
  intro db
  rcases (drivePass_touches : (drivePass digest outside s t aggregate).Leaves db _) with same | ⟨row, least, confined⟩
  · exact .same (congrArg Database.processes same)
  · apply confined.imp
    rintro k rfl
    exact least.stored.2

end

section
variable (digest : Json → String) (outside : Outside) (s : Supply) (clock : Nat → Readings)

/-- A pass about to begin: its number, what its round has claimed, the aggregate, and the store. -/
inductive Reached (db : Database) : Nat → Int → DriverResult → Database → Prop
  | start : Reached db 0 0 { idle := true } db
  | rested {pass : Nat} {claimed : Int} {aggregate : DriverResult} {middle db' : Database}
      (before : Reached db pass claimed aggregate middle) (unspent : aggregate.ticks < s.maxTicks)
      (ran : drivePass digest outside s (clock pass) aggregate middle = (.ok .idle, db')) (some : claimed ≠ 0) :
      Reached db (pass + 1) 0 aggregate db'
  | ticked {pass : Nat} {claimed : Int} {aggregate aggregate' : DriverResult} {middle db' : Database}
      (before : Reached db pass claimed aggregate middle) (unspent : aggregate.ticks < s.maxTicks)
      (ran : drivePass digest outside s (clock pass) aggregate middle = (.ok (.claimed aggregate'), db')) :
      Reached db (pass + 1) (if claimed + 1 < s.claimsPerRound then claimed + 1 else 0) aggregate' db'

/-- The loops are over: the ticks are spent, or a pass that began a round found nothing. -/
inductive Ended (db : Database) (aggregate : DriverResult) (after : Database) : Prop
  | spent {pass : Nat} {claimed : Int} (reached : Reached digest outside s clock db pass claimed aggregate after)
      (spent : s.maxTicks ≤ aggregate.ticks)
  | idle {pass : Nat} {middle : Database} (reached : Reached digest outside s clock db pass 0 aggregate middle)
      (ran : drivePass digest outside s (clock pass) aggregate middle = (.ok .idle, after))
      (idle : Idle s (clock pass).tick after)

variable {digest outside s clock} {db : Database}

theorem Reached.bounded {pass : Nat} {claimed : Int} {aggregate : DriverResult} {middle : Database}
    (reached : Reached digest outside s clock db pass claimed aggregate middle) : aggregate.ticks ≤ s.maxTicks.toNat := by
  induction reached with
  | start => exact Nat.zero_le _
  | rested _ _ _ _ ih => exact ih
  | ticked _ unspent ran _ =>
    rcases drivePass_ticks ran with ⟨same, -, -⟩ | ⟨_, _, same, ticks, -⟩
    · cases same
    · cases same
      omega

/-- How many more passes the loops may make. -/
def budget (s : Supply) (claimed : Int) (aggregate : DriverResult) : Nat :=
  2 * (s.maxTicks - aggregate.ticks).toNat + if claimed = 0 then 1 else 2

theorem budget_bounds (s : Supply) (claimed : Int) (aggregate : DriverResult) :
    2 * (s.maxTicks - aggregate.ticks).toNat + 1 ≤ budget s claimed aggregate ∧
      budget s claimed aggregate ≤ 2 * (s.maxTicks - aggregate.ticks).toNat + 2 := by
  unfold budget
  split <;> omega

theorem drivePasses_ended {fuel pass : Nat} {claimed : Int} {aggregate : DriverResult} {middle after : Database}
    {result : Option DriverResult} (reached : Reached digest outside s clock db pass claimed aggregate middle)
    (h : drivePasses digest outside s clock fuel pass claimed aggregate middle = (.ok result, after)) :
    match result with
    | none => fuel < budget s claimed aggregate
    | some aggregate' => Ended digest outside s clock db aggregate' after := by
  induction fuel generalizing pass claimed aggregate middle with
  | zero =>
    obtain ⟨rfl, -⟩ := Session.pure_ok.mp h
    show 0 < budget s claimed aggregate
    have least := budget_bounds s claimed aggregate
    omega
  | succ fuel ih =>
    unfold drivePasses at h
    by_cases spent : s.maxTicks ≤ aggregate.ticks
    · rw [if_pos spent] at h
      obtain ⟨rfl, rfl⟩ := Session.pure_ok.mp h
      exact .spent reached spent
    · rw [if_neg spent] at h
      have unspent : aggregate.ticks < s.maxTicks := Int.not_le.mp spent
      obtain ⟨ended, next, ran, h⟩ := Session.bind_ok.mp h
      rcases drivePass_ticks ran with ⟨rfl, same, idle⟩ | ⟨aggregate', row, rfl, ticks, -⟩
      · by_cases fresh : claimed = 0
        · simp only [fresh, if_true] at h
          obtain ⟨rfl, rfl⟩ := Session.pure_ok.mp h
          subst same fresh
          exact .idle reached ran idle
        · simp only [fresh, if_false] at h
          have later := ih (reached.rested unspent ran fresh) h
          cases result with
          | some aggregate' => exact later
          | none =>
            have later : fuel < budget s 0 aggregate := later
            show fuel + 1 < budget s claimed aggregate
            simp only [budget, fresh, if_true, if_false] at later ⊢
            omega
      · have later := ih (reached.ticked unspent ran) h
        cases result with
        | some aggregate' => exact later
        | none =>
          have later : fuel < budget s (if claimed + 1 < s.claimsPerRound then claimed + 1 else 0) aggregate' := later
          show fuel + 1 < budget s claimed aggregate
          have most := budget_bounds s (if claimed + 1 < s.claimsPerRound then claimed + 1 else 0) aggregate'
          have least := budget_bounds s claimed aggregate
          omega

theorem drivePasses_confined (fuel pass : Nat) (claimed : Int) (aggregate : DriverResult) :
    (drivePasses digest outside s clock fuel pass claimed aggregate).Within (Confined (Supplied s)) := by
  induction fuel generalizing pass claimed aggregate with
  | zero => exact .pure _
  | succ fuel ih =>
    unfold drivePasses
    refine .ite (.pure _) (.bind drivePass_confined fun ended => ?_)
    cases ended with
    | idle => exact .ite (.pure _) (ih (pass + 1) 0 aggregate)
    | claimed aggregate' => exact ih (pass + 1) _ aggregate'
    | raised aggregate' => exact .pure _

theorem driveUntilIdle_confined (fuel : Nat) :
    (driveUntilIdle digest outside s clock fuel).Within (Confined (Supplied s)) :=
  .bind (.require _ _) fun _ => .bind (.require _ _) fun _ => .bind (.of _) fun _ =>
    .bind (drivePasses_confined fuel 0 0 _) fun _ => .pure _

/-- What a drive over supplied rows keeps to. -/
structure Bounded (digest : Json → String) (outside : Outside) (s : Supply) (clock : Nat → Readings) (db : Database) :
    Prop where
  terminates : ∀ fuel, 2 * s.maxTicks.toNat + 1 ≤ fuel → (driveUntilIdle digest outside s clock fuel db).1 ≠ .ok none
  bounded : ∀ pass claimed aggregate middle, Reached digest outside s clock db pass claimed aggregate middle →
    aggregate.ticks ≤ s.maxTicks.toNat
  ticks : ∀ pass claimed aggregate middle, Reached digest outside s clock db pass claimed aggregate middle →
    ∀ ended db', drivePass digest outside s (clock pass) aggregate middle = (.ok ended, db') →
      (ended = .idle ∧ db' = middle ∧ Idle s (clock pass).tick middle) ∨
        ∃ aggregate' row, ended = .claimed aggregate' ∧ aggregate'.ticks = aggregate.ticks + 1 ∧
          Tick s (clock pass).tick middle db' row
  touches : ∀ pass claimed aggregate middle, Reached digest outside s clock db pass claimed aggregate middle →
    (drivePass digest outside s (clock pass) aggregate).Leaves middle fun db' =>
      db' = middle ∨ ∃ row, Least s (clock pass).tick middle row ∧ Confined (· = row.key) middle db'
  untouched : ∀ fuel k, ¬ Supplied s k →
    (driveUntilIdle digest outside s clock fuel db).2.processes.find? k = db.processes.find? k
  attempts : ∀ fuel k row', (driveUntilIdle digest outside s clock fuel db).2.processes.find? k = some row' →
    ∃ row, db.processes.find? k = some row ∧ row'.maxAttempts = row.maxAttempts ∧
      (row'.attempt = row.attempt ∨ row'.attempt ≤ row'.maxAttempts)
  within : ∀ fuel result after, driveUntilIdle digest outside s clock fuel db = (.ok (some result), after) →
    result.ticks ≤ s.maxTicks
  /-- The pass that is the last one found nothing to claim, if ticks are left. -/
  idle : ∀ fuel result after, driveUntilIdle digest outside s clock fuel db = (.ok (some result), after) →
    result.ticks < s.maxTicks → ∃ pass aggregate middle, Reached digest outside s clock db pass 0 aggregate middle ∧
      drivePass digest outside s (clock pass) aggregate middle = (.ok .idle, after) ∧ Idle s (clock pass).tick after

theorem driveUntilIdle_ended {fuel : Nat} {result : Option DriverResult} {after : Database}
    (h : driveUntilIdle digest outside s clock fuel db = (.ok result, after)) :
    1 ≤ s.maxTicks ∧ (result = none → fuel < 2 * s.maxTicks.toNat + 1) ∧
      ∀ r, result = some r → ∃ aggregate, r.ticks = aggregate.ticks ∧ Ended digest outside s clock db aggregate after := by
  unfold driveUntilIdle at h
  simp only [Session.bind_ok, Session.require_ok, Session.of_ok, Session.pure_ok] at h
  obtain ⟨_, _, ⟨most, rfl⟩, _, _, ⟨-, rfl⟩, _, _, ⟨-, rfl⟩, aggregate, _, ran, rfl, rfl⟩ := h
  have ended := drivePasses_ended (.start) ran
  refine ⟨of_decide_eq_true most, ?_, ?_⟩
  · intro none_
    obtain rfl := Option.map_eq_none_iff.mp none_
    have few : fuel < budget s 0 { idle := true } := ended
    unfold budget at few
    simp only [if_true] at few
    omega
  · intro r same
    obtain ⟨aggregate', rfl, rfl⟩ := Option.map_eq_some_iff.mp same
    refine ⟨aggregate', ?_, ended⟩
    unfold concludePasses
    split <;> rfl

theorem driveUntilIdle_within {fuel : Nat} {result : DriverResult} {after : Database}
    (h : driveUntilIdle digest outside s clock fuel db = (.ok (some result), after)) : result.ticks ≤ s.maxTicks := by
  obtain ⟨positive, -, ended⟩ := driveUntilIdle_ended h
  obtain ⟨aggregate, ticks, ended⟩ := ended result rfl
  have bounded : aggregate.ticks ≤ s.maxTicks.toNat := by
    cases ended with
    | spent reached => exact reached.bounded
    | idle reached => exact reached.bounded
  rw [ticks]
  omega

end

/-- Whatever the journal, the supplied rows, the adapters and the readings of the time. -/
theorem driveUntilIdle_bounded (digest : Json → String) (outside : Outside) (s : Supply) (clock : Nat → Readings)
    (db : Database) : Bounded digest outside s clock db where
  terminates fuel enough := by
    intro ended
    cases ran : driveUntilIdle digest outside s clock fuel db with
    | mk result after =>
      rw [ran] at ended
      subst ended
      have few := (driveUntilIdle_ended ran).2.1 rfl
      omega
  bounded _ _ _ _ reached := reached.bounded
  ticks _ _ _ _ _ _ _ ran := drivePass_ticks ran
  touches _ _ _ _ _ := drivePass_touches
  untouched fuel k apart := (driveUntilIdle_confined fuel db).others k apart
  attempts fuel k row' found := (driveUntilIdle_confined fuel db).bounded k row' found
  within _ _ _ ran := driveUntilIdle_within ran
  idle fuel result after ran unspent := by
    obtain ⟨-, -, ended⟩ := driveUntilIdle_ended ran
    obtain ⟨aggregate, ticks, ended⟩ := ended result rfl
    cases ended with
    | spent reached spent =>
      rw [ticks] at unspent
      exact absurd spent (Int.not_le.mpr unspent)
    | idle reached ran idle => exact ⟨_, aggregate, _, reached, ran, idle⟩

end Timed
end Fala.Driver
