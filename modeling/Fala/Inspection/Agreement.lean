import Fala.Inspection.Reachable
import Fala.Inspection.Stamps

/-! The lease inspection beside the claims of the journal. -/

namespace Fala.Inspection
open Durable Journal Driver

/-! What the loop gathers. -/

namespace Verdict

def issue? : Verdict → Option Issue
  | .uncertain issue => some issue
  | _ => none

def current? : Verdict → Option Lease
  | .current lease => some lease
  | _ => none

def expired? : Verdict → Option Lease
  | .expired lease => some lease
  | _ => none

def key : Verdict → Option (String × String)
  | .omitted => none
  | .uncertain issue => issue.process
  | .current lease => some lease.key
  | .expired lease => some lease.key

end Verdict

/-- The processes that a report lists. -/
def Report.keys (report : Report) : List (String × String) :=
  report.current.map Lease.key ++ report.expired.map Lease.key ++ report.uncertainty.filterMap Issue.process

theorem filterMap_cons_toList {α β : Type} (f : α → Option β) (a : α) (rest : List α) :
    (a :: rest).filterMap f = (f a).toList ++ rest.filterMap f := by
  cases found : f a <;> simp [found]

theorem add_lists (report : Report) (verdict : Verdict) :
    (report.add verdict).current = report.current ++ verdict.current?.toList ∧
      (report.add verdict).expired = report.expired ++ verdict.expired?.toList ∧
      (report.add verdict).uncertainty = report.uncertainty ++ verdict.issue?.toList ∧
      (report.add verdict).errors = report.errors := by
  cases verdict <;> simp [Report.add, Verdict.current?, Verdict.expired?, Verdict.issue?]

theorem inspect_gathers (observed : Int) (rows : List LeaseRow) (report : Report) :
    (rows.foldl (inspectRow observed) report).current =
        report.current ++ (rows.map (judge observed)).filterMap Verdict.current? ∧
      (rows.foldl (inspectRow observed) report).expired =
        report.expired ++ (rows.map (judge observed)).filterMap Verdict.expired? ∧
      (rows.foldl (inspectRow observed) report).uncertainty =
        report.uncertainty ++ (rows.map (judge observed)).filterMap Verdict.issue? ∧
      (rows.foldl (inspectRow observed) report).errors = report.errors := by
  induction rows generalizing report with
  | nil => simp
  | cons row rest ih =>
    have gathered := ih (inspectRow observed report row)
    obtain ⟨current, expired, uncertainty, errors⟩ := add_lists report (judge observed row)
    rw [inspectRow, current, expired, uncertainty, errors] at gathered
    rw [List.foldl_cons, List.map_cons, inspectRow, filterMap_cons_toList, filterMap_cons_toList, filterMap_cons_toList,
      ← List.append_assoc, ← List.append_assoc, ← List.append_assoc]
    exact gathered

theorem verdicts_keys (verdicts : List Verdict) :
    ((verdicts.filterMap Verdict.current?).map Lease.key ++ (verdicts.filterMap Verdict.expired?).map Lease.key ++
      (verdicts.filterMap Verdict.issue?).filterMap Issue.process).Perm (verdicts.filterMap Verdict.key) := by
  induction verdicts with
  | nil => exact .nil
  | cons verdict rest ih =>
    rw [filterMap_cons_toList, filterMap_cons_toList, filterMap_cons_toList, filterMap_cons_toList]
    cases verdict with
    | omitted => exact ih
    | uncertain issue =>
      simp only [Verdict.current?, Verdict.expired?, Verdict.issue?, Verdict.key, Option.toList_none, List.nil_append,
        Option.toList_some, List.singleton_append]
      rw [filterMap_cons_toList]
      exact List.perm_append_comm_assoc .. |>.trans (ih.append_left _)
    | current lease => exact ih.cons _
    | expired lease =>
      have moved : ((rest.filterMap Verdict.current?).map Lease.key ++
          lease.key :: (rest.filterMap Verdict.expired?).map Lease.key ++
            (rest.filterMap Verdict.issue?).filterMap Issue.process).Perm
          (lease.key :: ((rest.filterMap Verdict.current?).map Lease.key ++
            (rest.filterMap Verdict.expired?).map Lease.key ++
              (rest.filterMap Verdict.issue?).filterMap Issue.process)) := by
        rw [List.append_assoc, List.append_assoc, List.cons_append]
        exact List.perm_middle
      exact moved.trans (ih.cons _)

/-! The verdict on a row of a journal that the operations keep. -/

theorem column_some {text : String} (given : text ≠ "") : column text = some text := if_neg given

theorem column_none {text : String} (empty : text = "") : column text = none := if_pos empty

theorem column_nonempty (text : String) : column text ≠ some "" := by
  rw [column]
  split
  · simp
  · rename_i given
    simpa using given

theorem runStatuses_known {status : String} (known : (RunStatus.ofValue status).isKnown = true) :
    status ∈ runStatuses := by
  unfold RunStatus.ofValue at known
  split_ifs at known <;> simp_all [runStatuses, RunStatus.isKnown]

theorem processStatuses_value (status : ProcessStatus) : status.value ∈ processStatuses := by
  cases status <;> decide

theorem running_value {status : ProcessStatus} : status.value = "running" ↔ status = .running := by
  cases status <;> decide

section
variable {db : Database} {row : ProcessRow}

theorem Inspectable.run (fit : Inspectable db) (member : row ∈ db.processes.rows) :
    ∃ run, db.runs.find? row.runId = some run ∧ run.id = row.runId ∧ RunFit run := by
  have known := fit.consistent.manned' row member
  obtain ⟨run, found⟩ := Option.isSome_iff_exists.mp known
  obtain ⟨stored, named⟩ := Table.find?_some.mp found
  exact ⟨run, found, named, fit.runs run stored⟩

theorem Inspectable.rowFit (fit : Inspectable db) (member : row ∈ db.processes.rows) : LeaseFit row :=
  fit.rows row.key row (Table.find?_some.mpr ⟨member, rfl⟩)

theorem wellFormed (fit : Inspectable db) (member : row ∈ db.processes.rows) : malformed (leaseRow db row) = [] := by
  obtain ⟨run, found, named, runFit⟩ := fit.run member
  have rowFit := fit.rowFit member
  have status := processStatuses_value row.status
  have runStatus := runStatuses_known runFit.2
  have runId : row.runId ≠ "" := named ▸ runFit.1
  have owner := column_nonempty row.leaseOwner
  have expires := column_nonempty row.leaseExpiresAt
  have bounded := rowFit.bounded
  simp [malformed, checks, leaseRow, found, runId, rowFit.named, status, runStatus, owner, expires, bounded.1,
    bounded.2, rowFit.tried]

theorem judge_idle (fit : Inspectable db) (member : row ∈ db.processes.rows) (idle : row.status ≠ .running)
    (observed : Int) : judge observed (leaseRow db row) = .omitted := by
  have rowFit := fit.rowFit member
  have owner : row.leaseOwner = "" := by simpa using mt rowFit.owned.mpr idle
  have expires : row.leaseExpiresAt = "" := by simpa using mt rowFit.expiring.mpr idle
  have status : (leaseRow db row).status ≠ "running" := mt running_value.mp idle
  have free : ¬ ((leaseRow db row).owner ≠ none ∨ (leaseRow db row).expires ≠ none) := by
    simp [leaseRow, column_none owner, column_none expires]
  rw [judge, if_neg (by simp [wellFormed fit member]), if_pos status, if_neg free]

theorem judge_running (fit : Inspectable db) (member : row ∈ db.processes.rows) (running : row.status = .running)
    (observed : Int) :
    judge observed (leaseRow db row) = judgeLease observed (leaseRow db row) row.leaseOwner row.leaseExpiresAt := by
  have rowFit := fit.rowFit member
  have owner : (leaseRow db row).owner = some row.leaseOwner := column_some (rowFit.owned.mp running)
  have expires : (leaseRow db row).expires = some row.leaseExpiresAt := column_some (rowFit.expiring.mp running)
  have status : (leaseRow db row).status = "running" := running_value.mpr running
  rw [judge, if_neg (by simp [wellFormed fit member]), if_neg (not_not_intro status), owner, expires]

/-- The run of the process is active. -/
def RunActive (db : Database) (row : ProcessRow) : Prop :=
  (db.runs.find? row.runId).map RunRecord.status = some "active"

/-- The expiry of the lease is a timestamp. -/
def Readable (row : ProcessRow) : Prop := (utcOfText row.leaseExpiresAt).isSome = true

theorem judgeLease_uncertain {observed : Int} {issue : Issue}
    (uncertain : judgeLease observed (leaseRow db row) row.leaseOwner row.leaseExpiresAt = .uncertain issue) :
    (issue = outsideActiveRun (leaseRow db row) ∧ ¬ RunActive db row) ∨
      (issue = invalidExpiry (leaseRow db row) ∧ RunActive db row ∧ ¬ Readable row) := by
  rw [judgeLease] at uncertain
  split at uncertain
  · rename_i inactive
    cases uncertain
    exact .inl ⟨rfl, inactive⟩
  · rename_i active
    have active : RunActive db row := not_not.mp active
    cases read : utc (.text row.leaseExpiresAt) with
    | none =>
      rw [read] at uncertain
      cases uncertain
      exact .inr ⟨rfl, active, by simp [Readable, show utcOfText row.leaseExpiresAt = none from read]⟩
    | some expiry =>
      rw [read] at uncertain
      dsimp only at uncertain
      split at uncertain <;> cases uncertain

theorem judgeLease_sure {observed : Int}
    (sure : ∀ issue, judgeLease observed (leaseRow db row) row.leaseOwner row.leaseExpiresAt ≠ .uncertain issue) :
    RunActive db row ∧ Readable row := by
  have active : RunActive db row := by
    by_contra inactive
    have inactive : (leaseRow db row).runStatus ≠ some "active" := inactive
    exact sure _ (by rw [judgeLease, if_pos inactive])
  refine ⟨active, ?_⟩
  rw [Readable, Option.isSome_iff_ne_none]
  intro unread
  have active : ¬ (leaseRow db row).runStatus ≠ some "active" := not_not_intro active
  have unread : utc (.text row.leaseExpiresAt) = none := unread
  exact sure _ (by rw [judgeLease, if_neg active, unread])

theorem judgeLease_listed {expiry : Int} (active : RunActive db row) (read : utcOfText row.leaseExpiresAt = some expiry)
    (observed : Int) :
    ∃ lease : Lease, lease.key = row.key ∧
      judgeLease observed (leaseRow db row) row.leaseOwner row.leaseExpiresAt =
        if expiry ≤ observed then .expired lease else .current lease := by
  have active : ¬ (leaseRow db row).runStatus ≠ some "active" := not_not_intro active
  have read : utc (.text row.leaseExpiresAt) = some expiry := read
  rw [judgeLease, if_neg active, read]
  exact ⟨_, rfl, rfl⟩

theorem judgeLease_key (observed : Int) :
    (judgeLease observed (leaseRow db row) row.leaseOwner row.leaseExpiresAt).key = some row.key := by
  by_cases active : RunActive db row
  · cases read : utcOfText row.leaseExpiresAt with
    | none =>
      have active : ¬ (leaseRow db row).runStatus ≠ some "active" := not_not_intro active
      have read : utc (.text row.leaseExpiresAt) = none := read
      rw [judgeLease, if_neg active, read]
      rfl
    | some expiry =>
      obtain ⟨lease, key, judged⟩ := judgeLease_listed active read observed
      rw [judged]
      split
      · exact congrArg some key
      · exact congrArg some key
  · have inactive : (leaseRow db row).runStatus ≠ some "active" := active
    rw [judgeLease, if_pos inactive]
    rfl

theorem judge_key (fit : Inspectable db) (member : row ∈ db.processes.rows) (observed : Int) :
    (judge observed (leaseRow db row)).key = if row.status = .running then some row.key else none := by
  by_cases running : row.status = .running
  · rw [judge_running fit member running, judgeLease_key, if_pos running]
  · rw [judge_idle fit member running, if_neg running]
    rfl

end

theorem listed_of_running (db : Database) {row : ProcessRow} (running : row.status = .running) (observed : Int) :
    (judge observed (leaseRow db row)).key = some row.key := by
  have status : (leaseRow db row).status = "running" := running_value.mpr running
  by_cases wrong : malformed (leaseRow db row) ≠ []
  · rw [judge, if_pos wrong]
    rfl
  · rw [judge, if_neg wrong, if_neg (not_not_intro status)]
    have owner : (leaseRow db row).owner = column row.leaseOwner := rfl
    have expires : (leaseRow db row).expires = column row.leaseExpiresAt := rfl
    rw [owner, expires]
    by_cases held : row.leaseOwner = ""
    · rw [column_none held]
      rfl
    · by_cases expiring : row.leaseExpiresAt = ""
      · rw [column_some held, column_none expiring]
        rfl
      · rw [column_some held, column_some expiring]
        exact judgeLease_key observed

theorem listed_self (db : Database) (row : ProcessRow) (observed : Int) :
    (judge observed (leaseRow db row)).key = none ∨ (judge observed (leaseRow db row)).key = some row.key := by
  by_cases running : row.status = .running
  · exact .inr (listed_of_running db running observed)
  · have status : (leaseRow db row).status ≠ "running" := mt running_value.mp running
    by_cases wrong : malformed (leaseRow db row) ≠ []
    · rw [judge, if_pos wrong]
      exact .inr rfl
    · rw [judge, if_neg wrong, if_pos status]
      split
      · exact .inr rfl
      · exact .inl rfl

theorem filterMap_sublist_map {α β : Type} {f : α → Option β} {g : α → β} (self : ∀ a, f a = none ∨ f a = some (g a)) :
    ∀ list : List α, (list.filterMap f).Sublist (list.map g)
  | [] => .slnil
  | a :: rest => by
    have tail := filterMap_sublist_map self rest
    rcases self a with none_ | some_
    · rw [List.filterMap_cons_none none_, List.map_cons]
      exact tail.cons _
    · rw [List.filterMap_cons_some some_, List.map_cons]
      exact tail.cons_cons _

/-! The report. -/

/-- The keys of the running processes. -/
def runningKeys (db : Database) : List (String × String) :=
  (db.processes.rows.filter fun row => row.status = .running).map ProcessRow.key

def verdicts (db : Database) (observed : Int) : List Verdict := (leaseQuery db).map (judge observed)

theorem verdicts_perm (db : Database) (observed : Int) :
    (verdicts db observed).Perm (db.processes.rows.map fun row => judge observed (leaseRow db row)) := by
  rw [verdicts, leaseQuery, List.map_map]
  exact (List.perm_insertionSort _ _).map _

theorem mem_verdicts {db : Database} {observed : Int} {verdict : Verdict} :
    verdict ∈ verdicts db observed ↔ ∃ row ∈ db.processes.rows, judge observed (leaseRow db row) = verdict := by
  rw [(verdicts_perm db observed).mem_iff, List.mem_map]

section
variable {db : Database} {now : Now} {observed maxRows : Int}

/-- The limits within which a report covers the whole journal. -/
structure Covers (db : Database) (now : Now) (observed maxRows : Int) : Prop where
  read : utc now = some observed
  positive : 1 ≤ maxRows
  room : db.processes.rows.length ≤ maxRows

theorem Covers.lists (covers : Covers db now observed maxRows) :
    (inspectLeases db now maxRows).current = (verdicts db observed).filterMap Verdict.current? ∧
      (inspectLeases db now maxRows).expired = (verdicts db observed).filterMap Verdict.expired? ∧
      (inspectLeases db now maxRows).uncertainty = (verdicts db observed).filterMap Verdict.issue? ∧
      (inspectLeases db now maxRows).errors = [] ∧
      ((inspectLeases db now maxRows).complete = true ↔ (inspectLeases db now maxRows).uncertainty = []) := by
  have length : (leaseQuery db).length = db.processes.rows.length := by
    rw [leaseQuery, List.length_map, List.length_insertionSort]
  have positive := covers.positive
  have room := covers.room
  have within : ¬ maxRows.toNat < (leaseQuery db).length := by omega
  have all : (leaseQuery db).take maxRows.toNat = leaseQuery db := List.take_of_length_le (by omega)
  obtain ⟨current, expired, uncertainty, errors⟩ :=
    inspect_gathers observed (leaseQuery db) { observedAt := some observed }
  rw [inspectLeases, covers.read]
  dsimp only
  rw [if_neg (by omega), all, if_neg within]
  refine ⟨current, expired, uncertainty, errors, ?_⟩
  rw [Bool.and_eq_true, errors, List.isEmpty_iff, List.isEmpty_iff]
  exact and_iff_right rfl

theorem Covers.keys (covers : Covers db now observed maxRows) :
    (inspectLeases db now maxRows).keys.Perm
      (db.processes.rows.filterMap fun row => (judge observed (leaseRow db row)).key) := by
  obtain ⟨current, expired, uncertainty, -⟩ := covers.lists
  rw [Report.keys, current, expired, uncertainty]
  have listed := (verdicts_perm db observed).filterMap Verdict.key
  rw [List.filterMap_map] at listed
  exact (verdicts_keys _).trans listed

theorem Covers.nodup (covers : Covers db now observed maxRows) : (inspectLeases db now maxRows).keys.Nodup := by
  have sub := filterMap_sublist_map (fun row => listed_self db row observed) db.processes.rows
  exact covers.keys.nodup_iff.mpr (sub.nodup db.processes.distinct)

theorem Covers.once (covers : Covers db now observed maxRows) {row : ProcessRow} (member : row ∈ db.processes.rows)
    (running : row.status = .running) : (inspectLeases db now maxRows).keys.count row.key = 1 := by
  apply List.count_eq_one_of_mem covers.nodup
  rw [covers.keys.mem_iff]
  exact List.mem_filterMap.mpr ⟨row, member, listed_of_running db running observed⟩

theorem Covers.running (covers : Covers db now observed maxRows) (fit : Inspectable db) :
    (inspectLeases db now maxRows).keys.Perm (runningKeys db) := by
  have keys : (db.processes.rows.filterMap fun row => (judge observed (leaseRow db row)).key) = runningKeys db := by
    rw [runningKeys, ← List.filterMap_eq_map, List.filterMap_filter]
    apply List.filterMap_congr
    intro row member
    rw [judge_key fit member]
    simp
  exact keys ▸ covers.keys

theorem uncertain_of_mem (covers : Covers db now observed maxRows) {issue : Issue} :
    issue ∈ (inspectLeases db now maxRows).uncertainty ↔
      ∃ row ∈ db.processes.rows, judge observed (leaseRow db row) = .uncertain issue := by
  rw [covers.lists.2.2.1, List.mem_filterMap]
  constructor
  · rintro ⟨verdict, member, given⟩
    cases verdict <;> cases given
    exact mem_verdicts.mp member
  · intro judged
    exact ⟨_, mem_verdicts.mpr judged, rfl⟩

theorem expired_of_mem (covers : Covers db now observed maxRows) {lease : Lease} :
    lease ∈ (inspectLeases db now maxRows).expired ↔
      ∃ row ∈ db.processes.rows, judge observed (leaseRow db row) = .expired lease := by
  rw [covers.lists.2.1, List.mem_filterMap]
  constructor
  · rintro ⟨verdict, member, given⟩
    cases verdict <;> cases given
    exact mem_verdicts.mp member
  · intro judged
    exact ⟨_, mem_verdicts.mpr judged, rfl⟩

theorem current_of_mem (covers : Covers db now observed maxRows) {lease : Lease} :
    lease ∈ (inspectLeases db now maxRows).current ↔
      ∃ row ∈ db.processes.rows, judge observed (leaseRow db row) = .current lease := by
  rw [covers.lists.1, List.mem_filterMap]
  constructor
  · rintro ⟨verdict, member, given⟩
    cases verdict <;> cases given
    exact mem_verdicts.mp member
  · intro judged
    exact ⟨_, mem_verdicts.mpr judged, rfl⟩

/-! The verdict on one process, found in the report. -/

theorem key_of_judged {row : ProcessRow} {key : String × String}
    (listed : (judge observed (leaseRow db row)).key = some key) : row.key = key := by
  rcases listed_self db row observed with none_ | some_
  · rw [none_] at listed
    cases listed
  · rw [some_] at listed
    exact Option.some.inj listed

theorem row_of_key {row other : ProcessRow} (member : row ∈ db.processes.rows) (member' : other ∈ db.processes.rows)
    (same : other.key = row.key) : other = row :=
  List.inj_on_of_nodup_map db.processes.distinct member' member same

theorem Covers.expired_iff (covers : Covers db now observed maxRows) {row : ProcessRow}
    (member : row ∈ db.processes.rows) :
    row.key ∈ (inspectLeases db now maxRows).expired.map Lease.key ↔
      ∃ lease, judge observed (leaseRow db row) = .expired lease := by
  rw [List.mem_map]
  constructor
  · rintro ⟨lease, listed, key⟩
    obtain ⟨other, member', judged⟩ := (expired_of_mem covers).mp listed
    have same : other.key = lease.key := key_of_judged (by rw [judged]; rfl)
    have self := row_of_key member member' (same.trans key)
    exact ⟨lease, self ▸ judged⟩
  · rintro ⟨lease, judged⟩
    have same : row.key = lease.key := key_of_judged (by rw [judged]; rfl)
    exact ⟨lease, (expired_of_mem covers).mpr ⟨row, member, judged⟩, same.symm⟩

theorem Covers.current_iff (covers : Covers db now observed maxRows) {row : ProcessRow}
    (member : row ∈ db.processes.rows) :
    row.key ∈ (inspectLeases db now maxRows).current.map Lease.key ↔
      ∃ lease, judge observed (leaseRow db row) = .current lease := by
  rw [List.mem_map]
  constructor
  · rintro ⟨lease, listed, key⟩
    obtain ⟨other, member', judged⟩ := (current_of_mem covers).mp listed
    have same : other.key = lease.key := key_of_judged (by rw [judged]; rfl)
    have self := row_of_key member member' (same.trans key)
    exact ⟨lease, self ▸ judged⟩
  · rintro ⟨lease, judged⟩
    have same : row.key = lease.key := key_of_judged (by rw [judged]; rfl)
    exact ⟨lease, (current_of_mem covers).mpr ⟨row, member, judged⟩, same.symm⟩

theorem Covers.uncertain (covers : Covers db now observed maxRows) (fit : Inspectable db) {issue : Issue}
    (listed : issue ∈ (inspectLeases db now maxRows).uncertainty) :
    ∃ row ∈ db.processes.rows, row.status = .running ∧
      ((issue = outsideActiveRun (leaseRow db row) ∧ ¬ RunActive db row) ∨
        (issue = invalidExpiry (leaseRow db row) ∧ RunActive db row ∧ ¬ Readable row)) := by
  obtain ⟨row, member, judged⟩ := (uncertain_of_mem covers).mp listed
  by_cases running : row.status = .running
  · rw [judge_running fit member running] at judged
    exact ⟨row, member, running, judgeLease_uncertain judged⟩
  · rw [judge_idle fit member running] at judged
    cases judged

variable {row : ProcessRow}

theorem Covers.expired_of_active (covers : Covers db now observed maxRows) (fit : Inspectable db)
    (member : row ∈ db.processes.rows) (running : row.status = .running) (active : RunActive db row) {expiry : Int}
    (read : utcOfText row.leaseExpiresAt = some expiry) :
    row.key ∈ (inspectLeases db now maxRows).expired.map Lease.key ↔ expiry ≤ observed := by
  obtain ⟨lease, -, judged⟩ := judgeLease_listed active read observed
  rw [covers.expired_iff member, judge_running fit member running, judged]
  by_cases due : expiry ≤ observed
  · simp [due]
  · simp [due]

theorem Covers.current_of_active (covers : Covers db now observed maxRows) (fit : Inspectable db)
    (member : row ∈ db.processes.rows) (running : row.status = .running) (active : RunActive db row) {expiry : Int}
    (read : utcOfText row.leaseExpiresAt = some expiry) :
    row.key ∈ (inspectLeases db now maxRows).current.map Lease.key ↔ ¬ expiry ≤ observed := by
  obtain ⟨lease, -, judged⟩ := judgeLease_listed active read observed
  rw [covers.current_iff member, judge_running fit member running, judged]
  by_cases due : expiry ≤ observed
  · simp [due]
  · simp [due]

theorem Covers.uncertain_iff (covers : Covers db now observed maxRows) (fit : Inspectable db)
    (member : row ∈ db.processes.rows) (running : row.status = .running) :
    row.key ∈ (inspectLeases db now maxRows).uncertainty.filterMap Issue.process ↔
      ¬ (RunActive db row ∧ Readable row) := by
  have judged := judge_running fit member running observed
  rw [List.mem_filterMap]
  constructor
  · rintro ⟨issue, listed, process⟩
    obtain ⟨other, member', judged'⟩ := (uncertain_of_mem covers).mp listed
    have same : other.key = row.key := key_of_judged (by rw [judged']; exact process)
    rw [row_of_key member member' same, judged] at judged'
    rcases judgeLease_uncertain judged' with ⟨-, inactive⟩ | ⟨-, -, unread⟩
    · exact fun both => inactive both.1
    · exact fun both => unread both.2
  · intro unsure
    have key : (judgeLease observed (leaseRow db row) row.leaseOwner row.leaseExpiresAt).key = some row.key :=
      judgeLease_key observed
    cases verdict : judgeLease observed (leaseRow db row) row.leaseOwner row.leaseExpiresAt with
    | uncertain issue =>
      rw [verdict] at judged key
      exact ⟨issue, (uncertain_of_mem covers).mpr ⟨row, member, judged⟩, key⟩
    | omitted =>
      rw [verdict] at key
      cases key
    | current lease => exact absurd (judgeLease_sure (by rw [verdict]; simp)) unsure
    | expired lease => exact absurd (judgeLease_sure (by rw [verdict]; simp)) unsure

end

/-- Every running process is listed once, and nothing else: under the uncertainties when its run is not active or its
    expiry is no timestamp, and otherwise as the claims of the journal take its lease. -/
theorem inspection_agrees (digest : Json → String) (calls : List (Call × Option Nat)) (now : Now)
    (observed maxRows : Int) (covers : Covers (after digest calls) now observed maxRows) :
    (inspectLeases (after digest calls) now maxRows).errors = [] ∧
      (∀ row ∈ (after digest calls).processes.rows, row.status = .running →
        (inspectLeases (after digest calls) now maxRows).keys.count row.key = 1) ∧
      ((∀ call ∈ calls, call.1.Plain) →
        (inspectLeases (after digest calls) now maxRows).keys.Perm (runningKeys (after digest calls)) ∧
        (∀ issue ∈ (inspectLeases (after digest calls) now maxRows).uncertainty,
          ∃ row ∈ (after digest calls).processes.rows, row.status = .running ∧
            ((issue = outsideActiveRun (leaseRow (after digest calls) row) ∧ ¬ RunActive (after digest calls) row) ∨
              (issue = invalidExpiry (leaseRow (after digest calls) row) ∧ RunActive (after digest calls) row ∧
                ¬ Readable row))) ∧
        ∀ row ∈ (after digest calls).processes.rows, row.status = .running →
          (row.key ∈ (inspectLeases (after digest calls) now maxRows).uncertainty.filterMap Issue.process ↔
            ¬ (RunActive (after digest calls) row ∧ Readable row)) ∧
          (∀ expiry : Int, RunActive (after digest calls) row → utcOfText row.leaseExpiresAt = some expiry →
            (row.key ∈ (inspectLeases (after digest calls) now maxRows).expired.map Lease.key ↔ expiry ≤ observed) ∧
            (row.key ∈ (inspectLeases (after digest calls) now maxRows).current.map Lease.key ↔ ¬ expiry ≤ observed)) ∧
          ∀ lease at_ : Stamp, RunActive (after digest calls) row → row.leaseExpiresAt = lease.text →
            lease.layout.clock ≠ .none → lease.layout.digits ≤ 6 → at_.layout.digits ≤ 6 → observed = micros at_ →
            lease.Chronological at_ →
            (row.key ∈ (inspectLeases (after digest calls) now maxRows).expired.map Lease.key ↔
              leaseExpired row at_.text = true) ∧
            (row.key ∈ (inspectLeases (after digest calls) now maxRows).current.map Lease.key ↔
              leaseExpired row at_.text = false)) := by
  refine ⟨covers.lists.2.2.2.1, fun row member running => covers.once member running, fun plain => ?_⟩
  have fit := after_inspectable digest plain
  refine ⟨covers.running fit, fun issue listed => covers.uncertain fit listed, fun row member running => ?_⟩
  refine ⟨covers.uncertain_iff fit member running, fun expiry active read => ?_, ?_⟩
  · exact ⟨covers.expired_of_active fit member running active read,
      covers.current_of_active fit member running active read⟩
  intro lease at_ active spelled timed short short' seen ordered
  have read : utcOfText row.leaseExpiresAt = some (micros lease : Int) := by
    rw [spelled, utcOfText_written timed short]
  have due : (micros lease : Int) ≤ observed ↔ leaseExpired row at_.text = true := by
    rw [leaseExpired_iff_instant ordered spelled, seen, Int.ofNat_le, micros_le short short']
  constructor
  · rw [covers.expired_of_active fit member running active read, due]
  · rw [covers.current_of_active fit member running active read, due, Bool.not_eq_true]

/-- A process claimed until midnight. -/
def claimedUntil (lease : String) : List (Call × Option Nat) :=
  [(.process (.createRun
      { runId := "run", status := "active", metadata := "\x7b\x7d", createdAt := "0" }), none),
    (.process (.scheduleProcess
      { runId := "run", processId := "work", processType := "manual", createdAt := "0" }), none),
    (.process (.claimProcess "run" "work" ⟨"worker", "1", lease, ""⟩), none)]

def atMidnight : List (Call × Option Nat) := claimedUntil (nativeClock afterMidnight).text

/-- Its run goes to wait while the process is running. -/
def waitingRun : List (Call × Option Nat) :=
  atMidnight ++
    [(.record (.transitionRunStatus { runId := "run", target := "waiting", at_ := "2", idempotencyKey := "wait" }),
      none)]

theorem read_native :
    utc (.text (nativeClock afterMidnight).text) = some (micros (nativeClock afterMidnight) : Int) := by
  have timed : (nativeClock afterMidnight).layout.clock ≠ .none := by simp [nativeClock]
  have short : (nativeClock afterMidnight).layout.digits ≤ 6 := by decide
  rw [utc, utcOfText_written timed short]

theorem read_python :
    utc (.text (pythonClock afterMidnight).text) = some (micros (pythonClock afterMidnight) : Int) := by
  have timed : (pythonClock afterMidnight).layout.clock ≠ .none := by simp [pythonClock]
  have short : (pythonClock afterMidnight).layout.digits ≤ 6 := by decide
  rw [utc, utcOfText_written timed short]

theorem covers_atMidnight :
    Covers (after (fun _ => "") atMidnight) (.text (nativeClock afterMidnight).text)
      (micros (nativeClock afterMidnight)) 10 where
  read := read_native
  positive := by decide
  room := by decide +kernel

theorem inspection_agrees_claimed :
    (inspectLeases (after (fun _ => "") atMidnight) (.text (nativeClock afterMidnight).text) 10).keys.Perm
        (runningKeys (after (fun _ => "") atMidnight)) ∧
      ∃ row ∈ (after (fun _ => "") atMidnight).processes.rows, row.status = .running ∧
        (row.key ∈ (inspectLeases (after (fun _ => "") atMidnight) (.text (nativeClock afterMidnight).text) 10).expired.map
            Lease.key ↔
          leaseExpired row (nativeClock afterMidnight).text = true) := by
  have plain : ∀ call ∈ atMidnight, call.1.Plain := by
    intro call member
    simp only [atMidnight, claimedUntil, List.mem_cons, List.not_mem_nil, or_false] at member
    rcases member with rfl | rfl | rfl
    · exact rfl
    · trivial
    · trivial
  have running : ∃ row ∈ (after (fun _ => "") atMidnight).processes.rows, row.status = .running ∧
      row.leaseExpiresAt = (nativeClock afterMidnight).text ∧ RunActive (after (fun _ => "") atMidnight) row := by
    unfold RunActive
    decide +kernel
  obtain ⟨row, member, running, lease, active⟩ := running
  have agrees := (inspection_agrees (fun _ => "") atMidnight (.text (nativeClock afterMidnight).text)
    (micros (nativeClock afterMidnight)) 10 covers_atMidnight).2.2 plain
  refine ⟨agrees.1, row, member, running, ?_⟩
  exact ((agrees.2.2 row member running).2.2 (nativeClock afterMidnight) (nativeClock afterMidnight) active lease
    (by simp [nativeClock]) (by decide) (by decide) rfl ⟨by simp, by simp⟩).1

/-- A process that runs on in a waiting run is an uncertainty, and a lease until midnight is not due for the journal
    half a second later, when that is written with its fraction. -/
theorem inspection_disagrees :
    (¬ ∀ (calls : List (Call × Option Nat)) (now : Now) (observed maxRows : Int),
      Covers (after (fun _ => "") calls) now observed maxRows →
        (inspectLeases (after (fun _ => "") calls) now maxRows).uncertainty = []) ∧
    ¬ ∀ (calls : List (Call × Option Nat)) (now : String) (observed maxRows : Int),
      Covers (after (fun _ => "") calls) (.text now) observed maxRows →
        ∀ row ∈ (after (fun _ => "") calls).processes.rows, row.status = .running →
          (row.key ∈ (inspectLeases (after (fun _ => "") calls) (.text now) maxRows).expired.map Lease.key ↔
            leaseExpired row now = true) := by
  constructor
  · intro certain
    have covers : Covers (after (fun _ => "") waitingRun) (.datetime (some 0)) 0 10 :=
      ⟨rfl, by decide, by decide +kernel⟩
    have none_ := certain waitingRun (.datetime (some 0)) 0 10 covers
    have some_ : (inspectLeases (after (fun _ => "") waitingRun) (.datetime (some 0)) 10).uncertainty.isEmpty = false := by
      decide +kernel
    rw [none_] at some_
    cases some_
  · intro agree
    have covers : Covers (after (fun _ => "") atMidnight) (.text (pythonClock afterMidnight).text)
        (micros (pythonClock afterMidnight)) 10 :=
      ⟨read_python, by decide, by decide +kernel⟩
    have running : ∃ row ∈ (after (fun _ => "") atMidnight).processes.rows, row.status = .running ∧
        row.key ∈ (inspectLeases (after (fun _ => "") atMidnight) (.text (pythonClock afterMidnight).text)
          10).expired.map Lease.key ∧
        leaseExpired row (pythonClock afterMidnight).text = false := by decide +kernel
    obtain ⟨row, member, running, listed, due⟩ := running
    have expired := (agree atMidnight _ _ 10 covers row member running).mp listed
    rw [due] at expired
    cases expired

end Fala.Inspection
