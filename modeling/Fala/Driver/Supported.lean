import Fala.Driver.Selection

/-! A drive over all runs, turn after turn: what it claims, and that it ends. -/

namespace Fala.Driver
open Durable Program Journal

/-- The driver can execute the adapter that the process is bound to. -/
def Drive.Supported (outside : Outside) (d : Drive) (k : String × String) : Prop :=
  ∃ binding, d.binding? k = some binding ∧ (binding.adapter.preflight outside.processHost).isOk = true

/-- The rows from which a turn selects: those it leaves when it has closed the expired leases. -/
def Drive.swept (d : Drive) (report : AllRunDriverResult) (db : Database) : Database :=
  (closeRuns d d.runs ⟨report, false⟩ db).2

/-- The turn claimed nothing, or the least candidate it found. -/
inductive Drive.Claims (d : Drive) (swept db : Database) : Database → Prop
  | nothing {db' : Database} (calm : Calm db db') : Claims d swept db db'
  | row {row : ProcessRow} {c : ClaimRequest} {middle db' : Database} (closings : Calm db swept)
      (least : d.Least swept row) (claim : Written swept (.act row.runId row.id (.claim c)) middle)
      (calm : Calm middle db') : Claims d swept db db'

section Turn

variable {digest : Json → String} {outside : Outside} {d : Drive} {report : AllRunDriverResult}
  {db db' : Database}

theorem driveBest_leaves {s : Scan}
    (chosen : ∀ binding k, s.best = some (binding, k) → ∃ row, row.key = k ∧ d.Least db row) :
    (driveBest digest outside d s).Leaves db fun db' =>
      Calm db db' ∨ ∃ row, d.Least db row ∧ Executes row.key db db' := by
  have calm : Calm db db := refl_of Calm db
  unfold driveBest
  split
  · exact .inl calm
  · rename_i binding runId processId held
    obtain ⟨row, key, least⟩ := chosen binding _ held
    refine .bind (fun message db' h => .inl ?_) fun selected db' h => ?_
    · have kept := (getProcess_reads runId processId).eval db
      rw [show (getProcess runId processId).eval db = _ from h] at kept
      obtain rfl : db' = db := kept
      exact calm
    · obtain ⟨-, found, rfl⟩ := getProcess_ok.mp h
      have here : selected.key = row.key := (Table.find?_key found).trans key.symm
      have executes : (driveOnce digest outside d.worker selected binding.adapter).Leaves db
          (Executes selected.key db) := driveOnce_executes
      rw [here] at executes
      refine .bind (fun message db' raised => ?_) fun one db' returned => ?_
      · have left : Executes row.key db (_ : Except String DriverResult × Database).2 := executes
        rw [raised] at left
        exact .inr ⟨row, least, left⟩
      · have left : Executes row.key db (_ : Except String DriverResult × Database).2 := executes
        rw [returned] at left
        split <;> exact .inr ⟨row, least, left⟩

theorem driveTurn_claims :
    (driveTurn digest outside d report).Leaves db (d.Claims (d.swept report db) db) := by
  have same : Calm db db := refl_of Calm db
  have closings : Calm db (d.swept report db) := closeRuns_calm d.runs _ db
  unfold driveTurn
  split
  · exact .nothing same
  · split
    · exact .nothing same
    · refine .bind (fun message db' raised => ?_) fun sweep middle closed => ?_
      · rw [show db' = d.swept report db from (congrArg Prod.snd raised).symm]
        exact .nothing closings
      · obtain rfl : d.swept report db = middle := congrArg Prod.snd closed
        split
        · exact .nothing closings
        · split
          · exact .nothing closings
          · refine .bind (fun message db' raised => ?_) fun scan db' found => ?_
            · obtain rfl : d.swept report db = db' := (scanRuns_reads d.runs _).left raised
              exact .nothing closings
            · obtain ⟨rfl, -, chosen⟩ := scanRuns_least found
              have outcome : (driveBest digest outside d scan).Leaves _ _ :=
                driveBest_leaves fun binding k held => (chosen binding k held).2
              rcases outcome with calm | ⟨row, least, executes⟩
              · exact .nothing (trans_of Calm closings calm)
              · cases executes with
                | refused calm => exact .nothing (trans_of Calm closings calm)
                | claimed claim calm => exact .row closings least claim calm

theorem driveTurn_load {report' : AllRunDriverResult}
    (h : driveTurn digest outside d report db = (.ok (.again report'), db')) : load db' < load db := by
  unfold driveTurn at h
  split at h
  · cases (Session.pure_ok.mp h).1
  · split at h
    · cases (Session.pure_ok.mp h).1
    · obtain ⟨sweep, middle, closed, h⟩ := Session.bind_ok.mp h
      have closings := (closeRuns_calm d.runs ⟨report, false⟩).left closed
      split at h
      · cases (Session.pure_ok.mp h).1
      · split at h
        · rename_i ended
          obtain ⟨-, rfl⟩ := Session.pure_ok.mp h
          exact closeRuns_load rfl closed ended
        · obtain ⟨scan, _, found, last⟩ := Session.bind_ok.mp h
          obtain ⟨rfl, -⟩ := scanRuns_least found
          cases best : scan.best with
          | none =>
            simp only [driveBest, best] at last
            cases (Session.pure_ok.mp last).1
          | some entry =>
            simp only [driveBest, best, Session.bind_ok, Session.program_ok, getProcess_ok] at last
            obtain ⟨selected, _, ⟨-, -, rfl⟩, one, _, once, last⟩ := last
            split at last
            · cases (Session.pure_ok.mp last).1
            · obtain ⟨-, rfl⟩ := Session.pure_ok.mp last
              exact (driveOnce_load once).trans_le closings.load

theorem Drive.Claims.attempts {swept : Database} (claims : d.Claims swept db db') (k : String × String) :
    attempts db' k = attempts db k ∨
      ∃ row, row.key = k ∧ d.Least swept row ∧ attempts db k = some row.attempt ∧
        attempts db' k = some (row.attempt + 1) := by
  cases claims with
  | nothing calm => exact .inl (calm.attempts k)
  | @row row c middle _ closings least claim calm =>
    obtain ⟨others, claimed, found, counted⟩ := attempts_claimed claim
    obtain rfl : row = claimed := Option.some.inj (least.stored.symm.trans found)
    by_cases here : k = row.key
    · refine .inr ⟨row, here.symm, least, ?_, ?_⟩
      · rw [← closings.attempts, here]
        unfold Driver.attempts
        rw [least.stored]
        rfl
      · rw [calm.attempts, here]
        exact counted
    · refine .inl ?_
      rw [calm.attempts, others k here, closings.attempts]

end Turn

section Run

variable (digest : Json → String) (outside : Outside) (d : Drive)

/-- The states from which the turns of a drive start. -/
inductive Drive.Reached (db : Database) : AllRunDriverResult → Database → Prop
  | start : Reached db d.opening db
  | turn {report report' : AllRunDriverResult} {middle db' : Database} (before : Reached db report middle)
      (again : driveTurn digest outside d report middle = (.ok (.again report'), db')) :
      Reached db report' db'

/-- A turn that left the rows `swept` by its closings, from `db` to `db'`: it claims only what is
    supported, and then the least candidate that it found. -/
structure Drive.Careful (swept db db' : Database) : Prop where
  kept : ∀ k, ¬ d.Supported outside k → attempts db' k = attempts db k
  least : ∀ k, attempts db' k ≠ attempts db k →
    ∃ row, row.key = k ∧ d.Least swept row ∧ attempts db' k = some (row.attempt + 1)

/-- No candidate that is bound to an unsupported adapter is the least one. -/
def Drive.Meets (swept : Database) : Prop :=
  ∀ row, d.Least swept row → d.Supported outside row.key

variable {digest outside d} {db : Database}

theorem Drive.Claims.careful {swept db db' : Database} (claims : d.Claims swept db db')
    (meets : d.Meets outside swept) : d.Careful outside swept db db' where
  kept k unsupported := by
    rcases claims.attempts k with same | ⟨row, rfl, least, -⟩
    · exact same
    · exact absurd (meets row least) unsupported
  least k moved := by
    rcases claims.attempts k with same | ⟨row, here, least, -, counted⟩
    · exact absurd same moved
    · exact ⟨row, here, least, counted⟩

theorem driveTurns_kept {k : String × String}
    (meets : ∀ report db', d.Reached digest outside db report db' → d.Meets outside (d.swept report db'))
    (unsupported : ¬ d.Supported outside k) {report : AllRunDriverResult} {middle : Database}
    (reached : d.Reached digest outside db report middle) (fuel : Nat) :
    attempts (driveTurns digest outside d fuel report middle).2 k = attempts middle k := by
  induction fuel generalizing report middle with
  | zero => rfl
  | succ fuel ih =>
    have claims : d.Claims _ middle (driveTurn digest outside d report middle).2 := driveTurn_claims
    have kept := (claims.careful (meets report middle reached)).kept k unsupported
    change (driveTurns digest outside d (fuel + 1) report).Leaves middle
      fun left => attempts left k = attempts middle k
    refine .bind (fun message db' raised => ?_) fun turn db' returned => ?_
    · rw [raised] at kept
      exact kept
    · rw [returned] at kept
      cases turn with
      | done report => exact kept
      | again report' => exact (ih (reached.turn returned)).trans kept

theorem driveTurns_ends (fuel : Nat) {report : AllRunDriverResult} {middle : Database}
    (enough : load middle < fuel) :
    (driveTurns digest outside d fuel report middle).1 ≠ .ok none := by
  induction fuel generalizing report middle with
  | zero => exact absurd enough (Nat.not_lt_zero _)
  | succ fuel ih =>
    intro ended
    have out : driveTurns digest outside d (fuel + 1) report middle =
        (.ok none, (driveTurns digest outside d (fuel + 1) report middle).2) := Prod.ext ended rfl
    obtain ⟨turn, after, returned, last⟩ := Session.bind_ok.mp out
    cases turn with
    | done report => cases (Session.pure_ok.mp last).1
    | again report' =>
      have less := driveTurn_load returned
      exact ih (by omega) (congrArg Prod.fst last)

/-- A drive whose turns never find an unsupported candidate to be the least one claims nothing but
    supported rows, each time the least candidate of all runs, and it ends whatever its bound. -/
theorem drives_supported (digest : Json → String) (outside : Outside) (d : Drive) (db : Database)
    (meets : ∀ report db', d.Reached digest outside db report db' →
      d.Meets outside (d.swept report db')) :
    (∀ report db', d.Reached digest outside db report db' →
      d.Careful outside (d.swept report db') db' (driveTurn digest outside d report db').2) ∧
    (∀ fuel k, ¬ d.Supported outside k →
      attempts (driveAllRuns digest outside d fuel db).2 k = attempts db k) ∧
    ∀ fuel, load db < fuel → (driveAllRuns digest outside d fuel db).1 ≠ .ok none := by
  refine ⟨fun report db' reached => ?_, fun fuel k unsupported => ?_, fun fuel enough ended => ?_⟩
  · have claims : d.Claims _ db' (driveTurn digest outside d report db').2 := driveTurn_claims
    exact claims.careful (meets report db' reached)
  · change (driveAllRuns digest outside d fuel).Leaves db fun left => attempts left k = attempts db k
    refine .bind (fun message db' raised => ?_) fun _ db' checked => ?_
    · obtain rfl : db = db' := congrArg Prod.snd raised
      rfl
    · obtain ⟨-, rfl⟩ := Session.of_ok.mp checked
      split
      · rfl
      · refine .bind (fun message db' raised => ?_) fun _ db' checked => ?_
        · obtain rfl : db = db' := congrArg Prod.snd raised
          rfl
        · obtain ⟨-, rfl⟩ := Session.of_ok.mp checked
          have kept := driveTurns_kept meets unsupported .start fuel
          refine .bind (fun message db' raised => ?_) fun report db' returned => ?_
          · rw [raised] at kept
            exact kept
          · rw [returned] at kept
            exact kept
  · have out : driveAllRuns digest outside d fuel db =
        (.ok none, (driveAllRuns digest outside d fuel db).2) := Prod.ext ended rfl
    obtain ⟨_, _, checked, out⟩ := Session.bind_ok.mp out
    obtain ⟨-, rfl⟩ := Session.of_ok.mp checked
    split at out
    · cases (Session.pure_ok.mp out).1
    · obtain ⟨_, _, checked, last⟩ := Session.bind_ok.mp out
      obtain ⟨-, rfl⟩ := Session.of_ok.mp checked
      obtain ⟨report, after, returned, last⟩ := Session.bind_ok.mp last
      have none_ : report = none := Option.map_eq_none_iff.mp (Session.pure_ok.mp last).1
      exact driveTurns_ends fuel enough (none_ ▸ congrArg Prod.fst returned)

theorem Drive.meets_of_bindings {swept : Database}
    (executable : ∀ b ∈ d.bindings, (b.adapter.preflight outside.processHost).isOk = true) :
    d.Meets outside swept := by
  intro row least
  obtain ⟨binding, bound⟩ := Option.isSome_iff_exists.mp least.candidate.1
  exact ⟨binding, bound, executable binding (List.mem_of_find?_eq_some bound)⟩

end Run

/-- Two runs with one process each that is ready for its first attempt. -/
def twoRuns : Database :=
  afterProcesses (fun _ => "")
    [(.createRun
        { runId := "first", status := "active", metadata := "\x7b\x7d", createdAt := "t0" }, none),
      (.scheduleProcess
        { runId := "first", processId := "work", processType := "native", createdAt := "t0" }, none),
      (.createRun
        { runId := "second", status := "active", metadata := "\x7b\x7d", createdAt := "t0" }, none),
      (.scheduleProcess
        { runId := "second", processId := "work", processType := "native", createdAt := "t0" }, none)]

/-- Every adapter answers with an output. -/
def answering : Outside where
  processHost := false
  execute _ _ := { success := true, outputJson := .printed (.obj [("ok", .bool true)]) }
  cancels _ _ := none
  backoffDue _ now := .ok now

def echo : AdapterSpec := { kind := .nativeFunction, ref := "native.echo" }

/-- Both processes are bound, the one of the first run to the given adapter. -/
def bothBound (adapter : AdapterSpec) : Drive where
  bindings := [⟨"work", adapter, "first"⟩, ⟨"work", echo, "second"⟩]
  worker := ⟨"driver", "t1", "t9"⟩

theorem drives_supported_echo :
    attempts (driveAllRuns (fun _ => "") answering (bothBound echo) 5 twoRuns).2 ("first", "work") = some 1 ∧
      attempts (driveAllRuns (fun _ => "") answering (bothBound echo) 5 twoRuns).2 ("first", "other") =
        attempts twoRuns ("first", "other") ∧
      (driveAllRuns (fun _ => "") answering (bothBound echo) 5 twoRuns).1 ≠ .ok none := by
  have executable : ∀ b ∈ (bothBound echo).bindings,
      (b.adapter.preflight answering.processHost).isOk = true := by decide +kernel
  obtain ⟨-, kept, ends⟩ := drives_supported (fun _ => "") answering (bothBound echo) twoRuns
    fun _ _ _ => Drive.meets_of_bindings executable
  refine ⟨by decide +kernel, kept 5 _ ?_, ends 5 (by decide +kernel)⟩
  rintro ⟨binding, bound, -⟩
  have unbound : (bothBound echo).binding? ("first", "other") = none := by decide +kernel
  rw [unbound] at bound
  cases bound

/-- A native function cannot be given a timeout, and its process is claimed all the same. -/
theorem drives_unsupported :
    ¬ ∀ (outside : Outside) (d : Drive) (db : Database) (fuel : Nat) (k : String × String),
      ¬ d.Supported outside k →
        attempts (driveAllRuns (fun _ => "") outside d fuel db).2 k = attempts db k := by
  intro kept
  let timed : AdapterSpec := { echo with timeoutSeconds := .finite 1 }
  have claimed : attempts (driveAllRuns (fun _ => "") answering (bothBound timed) 5 twoRuns).2
      ("first", "work") ≠ attempts twoRuns ("first", "work") := by decide +kernel
  refine claimed (kept answering (bothBound timed) twoRuns 5 ("first", "work") ?_)
  rintro ⟨binding, bound, supported⟩
  have first : (bothBound timed).binding? ("first", "work") = some ⟨"work", timed, "first"⟩ := by
    decide +kernel
  rw [first] at bound
  cases bound
  revert supported
  decide +kernel

end Fala.Driver
