import Mathlib.Data.String.Basic
import Fala.Driver.Turns
import Fala.Driver.Loops
import Fala.Durable.Queue

/-! Which row a turn selects. -/

namespace Fala.Driver
open Durable Program Journal

theorem rowBefore_irrefl (row : ProcessRow) : rowBefore row row = false := by
  simp [rowBefore]

theorem rowBefore_iff (a b : ProcessRow) :
    rowBefore a b = true ↔ b.priority < a.priority ∨ (a.priority = b.priority ∧
      (a.availableAt < b.availableAt ∨ (a.availableAt = b.availableAt ∧
        (a.createdAt < b.createdAt ∨ (a.createdAt = b.createdAt ∧ a.id < b.id))))) := by
  unfold rowBefore
  by_cases priority : a.priority = b.priority
  · by_cases available : a.availableAt = b.availableAt
    · by_cases created : a.createdAt = b.createdAt
      · simp [priority, available, created]
      · simp [priority, available, created]
    · simp [priority, available]
  · simp [priority]

theorem rowBefore_trans {a b c : ProcessRow} (first : rowBefore a b = true)
    (later : rowBefore b c = true) : rowBefore a c = true := by
  rw [rowBefore_iff] at *
  rcases first with first | ⟨priority, first⟩
  · rcases later with later | ⟨same, -⟩
    · exact .inl (later.trans first)
    · exact .inl (same ▸ first)
  · rcases later with later | ⟨same, later⟩
    · exact .inl (priority ▸ later)
    · refine .inr ⟨priority.trans same, ?_⟩
      rcases first with first | ⟨available, first⟩
      · rcases later with later | ⟨same, -⟩
        · exact .inl (first.trans later)
        · exact .inl (same ▸ first)
      · rcases later with later | ⟨same, later⟩
        · exact .inl (available ▸ later)
        · refine .inr ⟨available.trans same, ?_⟩
          rcases first with first | ⟨created, first⟩
          · rcases later with later | ⟨same, -⟩
            · exact .inl (first.trans later)
            · exact .inl (same ▸ first)
          · rcases later with later | ⟨same, later⟩
            · exact .inl (created ▸ later)
            · exact .inr ⟨created.trans same, first.trans later⟩

/-- A row that a drive may select: it is bound, and claimable at the time of the drive. -/
def Drive.Candidate (d : Drive) (row : ProcessRow) : Prop :=
  (d.binding? row.key).isSome = true ∧ rowClaimable row d.worker.now = true

/-- A candidate that no other candidate of any run comes before. -/
structure Drive.Least (d : Drive) (db : Database) (row : ProcessRow) : Prop where
  stored : db.processes.find? row.key = some row
  candidate : d.Candidate row
  first : ∀ other ∈ db.processes.rows, d.Candidate other → rowBefore other row = false

/-- The search has met the rows `Seen`, and holds the best of them. -/
structure Scan.Chosen (d : Drive) (db : Database) (Seen : ProcessRow → Prop) (s : Scan) : Prop where
  idle : s.best = none → ∀ row, Seen row → ¬ d.Candidate row
  best : ∀ binding k, s.best = some (binding, k) → d.binding? k = some binding ∧
    ∃ row, db.processes.find? k = some row ∧ d.Candidate row ∧
      ∀ other, Seen other → d.Candidate other → rowBefore other row = false

section Search

variable {outside : Outside} {d : Drive} {db db' : Database} {Seen : ProcessRow → Prop}

theorem Scan.Chosen.imp {s : Scan} {Met : ProcessRow → Prop} (chosen : s.Chosen d db Seen)
    (same : ∀ row, Met row → d.Candidate row → Seen row) : s.Chosen d db Met where
  idle none_ row met candidate := chosen.idle none_ row (same row met candidate) candidate
  best binding k held := by
    obtain ⟨bound, row, found, candidate, first⟩ := chosen.best binding k held
    exact ⟨bound, row, found, candidate, fun other met candidate =>
      first other (same other met candidate) candidate⟩

theorem Scan.Chosen.report {s s' : Scan} (chosen : s.Chosen d db Seen) (same : s'.best = s.best) :
    s'.Chosen d db Seen where
  idle none_ := chosen.idle (same ▸ none_)
  best binding k held := chosen.best binding k (same ▸ held)

theorem program_reads {α : Type} {p : Sql α} (reads : ReadOnly p) : (Session.program p).Within Eq :=
  fun db => (reads.eval db).symm

theorem rankRow_reads (candidate : ProcessRow) (binding : AdapterBinding) (s : Scan) :
    (rankRow outside candidate binding s).Within Eq := by
  unfold rankRow
  cases s.best with
  | none => exact .pure _
  | some entry => exact .bind (program_reads (getProcess_reads _ _)) fun _ => .pure _

theorem considerRow_reads (candidate : ProcessRow) (s : Scan) :
    (considerRow outside d candidate s).Within Eq := by
  unfold considerRow
  split
  · exact .pure _
  · exact .ite (rankRow_reads candidate _ s) (.pure _)

theorem scanRows_reads (rows : List ProcessRow) (s : Scan) : (scanRows outside d rows s).Within Eq := by
  induction rows generalizing s with
  | nil => exact .pure _
  | cons candidate rest ih => exact .bind (considerRow_reads candidate s) ih

theorem scanRuns_reads (runs : List String) (s : Scan) : (scanRuns outside d runs s).Within Eq := by
  induction runs generalizing s with
  | nil => exact .pure _
  | cons run rest ih =>
    refine .bind (program_reads ?_) fun rows => .bind (scanRows_reads rows s) ih
    exact .bind (requireRun_reads _) fun _ => .fetch _

theorem rankRow_chosen {candidate : ProcessRow} {binding : AdapterBinding} {s s' : Scan}
    (stored : db.processes.find? candidate.key = some candidate)
    (bound : d.binding? candidate.key = some binding) (here : d.Candidate candidate)
    (chosen : s.Chosen d db Seen) (h : rankRow outside candidate binding s db = (.ok s', db')) :
    db' = db ∧ s'.Chosen d db fun row => row = candidate ∨ Seen row := by
  have lone : rowBefore candidate candidate = false := rowBefore_irrefl candidate
  unfold rankRow at h
  cases held : s.best with
  | none =>
    simp only [held] at h
    obtain ⟨rfl, rfl⟩ := Session.pure_ok.mp h
    refine ⟨rfl, ⟨fun none_ => (by cases none_), fun binding' k same => ?_⟩⟩
    cases same
    refine ⟨bound, candidate, stored, here, fun other met candidate' => ?_⟩
    rcases met with rfl | seen
    · exact lone
    · exact absurd candidate' (chosen.idle held other seen)
  | some entry =>
    obtain ⟨binding', k⟩ := entry
    simp only [held, Session.bind_ok, Session.program_ok, getProcess_ok, Session.pure_ok] at h
    obtain ⟨currentBest, _, ⟨-, read, rfl⟩, rfl, rfl⟩ := h
    obtain ⟨bound', best, found, candidate', first⟩ := chosen.best binding' k held
    obtain rfl : best = currentBest := Option.some.inj (found.symm.trans read)
    refine ⟨rfl, ⟨fun none_ => (by cases none_), fun binding'' k' same => ?_⟩⟩
    by_cases before : rowBefore candidate best = true
    · simp only [before, if_true, Option.some.injEq, Prod.mk.injEq] at same
      obtain ⟨rfl, rfl⟩ := same
      refine ⟨bound, candidate, stored, here, fun other met candidate'' => ?_⟩
      rcases met with rfl | seen
      · exact lone
      · by_contra earlier
        have past := rowBefore_trans (Bool.not_eq_false _ ▸ earlier) before
        rw [first other seen candidate''] at past
        cases past
    · simp only [before, Bool.false_eq_true, if_false, Option.some.injEq, Prod.mk.injEq] at same
      obtain ⟨rfl, rfl⟩ := same
      refine ⟨bound', best, found, candidate', fun other met candidate'' => ?_⟩
      rcases met with rfl | seen
      · exact Bool.not_eq_true _ ▸ before
      · exact first other seen candidate''

theorem considerRow_chosen {candidate : ProcessRow} {s s' : Scan}
    (stored : db.processes.find? candidate.key = some candidate) (chosen : s.Chosen d db Seen)
    (h : considerRow outside d candidate s db = (.ok s', db')) :
    db' = db ∧ s'.Chosen d db fun row => row = candidate ∨ Seen row := by
  have skipped (no : ¬ d.Candidate candidate) (same : s'.best = s.best) :
      s'.Chosen d db fun row => row = candidate ∨ Seen row := by
    refine (chosen.report same).imp fun row met candidate' => met.resolve_left fun here => ?_
    exact no (here ▸ candidate')
  cases bound : d.binding? candidate.key with
  | none =>
    simp only [considerRow, bound] at h
    obtain ⟨rfl, rfl⟩ := Session.pure_ok.mp h
    exact ⟨rfl, skipped (fun here => by simp [Drive.Candidate, bound] at here) rfl⟩
  | some binding =>
    simp only [considerRow, bound] at h
    by_cases claims : rowClaimable candidate d.worker.now = true
    · rw [if_pos claims] at h
      exact rankRow_chosen stored bound ⟨by rw [bound]; rfl, claims⟩ chosen h
    · rw [if_neg claims] at h
      obtain ⟨rfl, rfl⟩ := Session.pure_ok.mp h
      exact ⟨rfl, skipped (fun here => claims here.2) rfl⟩

theorem scanRows_chosen {rows : List ProcessRow} {s s' : Scan}
    (stored : ∀ row ∈ rows, db.processes.find? row.key = some row) (chosen : s.Chosen d db Seen)
    (h : scanRows outside d rows s db = (.ok s', db')) :
    db' = db ∧ s'.Chosen d db fun row => row ∈ rows ∨ Seen row := by
  induction rows generalizing s Seen with
  | nil =>
    obtain ⟨rfl, rfl⟩ := Session.pure_ok.mp h
    exact ⟨rfl, by simpa using chosen⟩
  | cons candidate rest ih =>
    obtain ⟨here, later⟩ := List.forall_mem_cons.mp stored
    obtain ⟨middle, _, first, last⟩ := Session.bind_ok.mp h
    obtain ⟨rfl, chosen⟩ := considerRow_chosen here chosen first
    obtain ⟨rfl, chosen⟩ := ih later chosen last
    refine ⟨rfl, chosen.imp fun row met _ => ?_⟩
    simpa [or_assoc, or_left_comm] using met

theorem scanRuns_chosen {runs : List String} {s s' : Scan} (chosen : s.Chosen d db Seen)
    (h : scanRuns outside d runs s db = (.ok s', db')) :
    db' = db ∧ s'.Chosen d db fun row => (row ∈ db.processes.rows ∧ row.runId ∈ runs) ∨ Seen row := by
  induction runs generalizing s Seen with
  | nil =>
    obtain ⟨rfl, rfl⟩ := Session.pure_ok.mp h
    exact ⟨rfl, by simpa using chosen⟩
  | cons run rest ih =>
    simp only [scanRuns, Session.bind_ok, Session.program_ok, listProcesses_ok] at h
    obtain ⟨rows, _, ⟨-, rfl, rfl⟩, middle, _, first, h⟩ := h
    have listed (row : ProcessRow) :
        row ∈ queueOrder (db.processes.rows.filter fun r => r.runId = run) ↔
          row ∈ db.processes.rows ∧ row.runId = run := by
      rw [(queueOrder_perm _).mem_iff, List.mem_filter, decide_eq_true_eq]
    have stored (row : ProcessRow)
        (member : row ∈ queueOrder (db.processes.rows.filter fun r => r.runId = run)) :
        db.processes.find? row.key = some row :=
      Table.find?_some.mpr ⟨((listed row).mp member).1, rfl⟩
    obtain ⟨rfl, chosen⟩ := scanRows_chosen stored chosen first
    obtain ⟨rfl, chosen⟩ := ih chosen h
    refine ⟨rfl, chosen.imp fun row met _ => ?_⟩
    rw [listed]
    rcases met with ⟨held, run'⟩ | seen
    · rcases List.mem_cons.mp run' with same | later
      · exact .inr (.inl ⟨held, same⟩)
      · exact .inl ⟨held, later⟩
    · exact .inr (.inr seen)

theorem Drive.Candidate.run {row : ProcessRow} (candidate : d.Candidate row) : row.runId ∈ d.runs := by
  obtain ⟨binding, bound⟩ := Option.isSome_iff_exists.mp candidate.1
  unfold Drive.binding? at bound
  have here : binding.key = row.key := by simpa using List.find?_some bound
  refine List.mem_eraseDups.mpr (List.mem_map.mpr ⟨binding, List.mem_of_find?_eq_some bound, ?_⟩)
  exact congrArg Prod.fst here

theorem scanRuns_least {report : AllRunDriverResult} {s : Scan}
    (h : scanRuns outside d d.runs ⟨report, none⟩ db = (.ok s, db')) :
    db' = db ∧ (s.best = none → ∀ row ∈ db.processes.rows, ¬ d.Candidate row) ∧
      ∀ binding k, s.best = some (binding, k) → d.binding? k = some binding ∧
        ∃ row, row.key = k ∧ d.Least db row := by
  have opening : Scan.Chosen d db (fun _ => False) ⟨report, none⟩ :=
    ⟨fun _ _ seen => seen.elim, fun _ _ held => by cases held⟩
  obtain ⟨rfl, chosen⟩ := scanRuns_chosen opening h
  refine ⟨rfl, fun idle row held candidate => ?_, fun binding k held => ?_⟩
  · exact chosen.idle idle row (.inl ⟨held, candidate.run⟩) candidate
  · obtain ⟨bound, row, found, candidate, first⟩ := chosen.best binding k held
    have key : row.key = k := Table.find?_key found
    refine ⟨bound, row, key, key ▸ found, candidate, fun other held candidate' => ?_⟩
    exact first other (.inl ⟨held, candidate'.run⟩) candidate'

end Search
end Fala.Driver

/-! The supplied row that a pass selects. -/

namespace Fala.Driver
open Durable Program Journal

theorem rowBefore_strict : Queue.Strict rowBefore where
  irrefl := rowBefore_irrefl
  trans := rowBefore_trans

theorem columns_eq_of_rowBefore {a b : ProcessRow} (first : rowBefore a b = false) (second : rowBefore b a = false) :
    a.priority = b.priority ∧ a.availableAt = b.availableAt ∧ a.createdAt = b.createdAt ∧ a.id = b.id := by
  have unordered := Bool.eq_false_iff.mp first
  have reversed := Bool.eq_false_iff.mp second
  rw [Ne, rowBefore_iff, not_or, not_and, not_or, not_and, not_or, not_and] at unordered reversed
  have priority : a.priority = b.priority := le_antisymm (not_lt.mp unordered.1) (not_lt.mp reversed.1)
  have left := unordered.2 priority
  have right := reversed.2 priority.symm
  have available : a.availableAt = b.availableAt := le_antisymm (not_lt.mp right.1) (not_lt.mp left.1)
  have left := left.2 available
  have right := right.2 available.symm
  have created : a.createdAt = b.createdAt := le_antisymm (not_lt.mp right.1) (not_lt.mp left.1)
  have id : a.id = b.id := le_antisymm (not_lt.mp (right.2 created.symm)) (not_lt.mp (left.2 created))
  exact ⟨priority, available, created, id⟩

theorem rowBefore_connex (db : Database) (runId : String) :
    Queue.Connex rowBefore (db.processes.rows.filter fun row => row.runId = runId) := by
  intro a here b there first second
  obtain ⟨here, run⟩ := List.mem_filter.mp here
  obtain ⟨there, same⟩ := List.mem_filter.mp there
  have key : a.key = b.key :=
    Prod.ext ((of_decide_eq_true run).trans (of_decide_eq_true same).symm)
      (columns_eq_of_rowBefore first second).2.2.2
  exact List.inj_on_of_nodup_map db.processes.distinct here there key

namespace Supply

variable (s : Supply)

/-- A row that a pass may select: it is supplied, and claimable at the time of the pass. -/
def eligible (row : ProcessRow) : Bool := (s.adapter? row.id).isSome && rowClaimable row s.worker.now

/-- The selected row comes with its own adapter. -/
def Matched : Option (ProcessRow × AdapterSpec) → Prop
  | none => True
  | some (row, adapter) => s.adapter? row.id = some adapter

variable {s}

theorem best_picks {rows seen : List ProcessRow} {held : Option (ProcessRow × AdapterSpec)}
    (picks : Queue.Picks rowBefore s.eligible seen (held.map Prod.fst)) (matched : s.Matched held) :
    Queue.Picks rowBefore s.eligible (seen ++ rows) ((s.best rows held).map Prod.fst) ∧ s.Matched (s.best rows held) := by
  induction rows generalizing seen held with
  | nil =>
    rw [List.append_nil]
    exact ⟨picks, matched⟩
  | cons row rest ih =>
    have shift : seen ++ row :: rest = seen ++ [row] ++ rest := by simp
    rw [shift]
    unfold best
    cases supplied : s.adapter? row.id with
    | none =>
      have ineligible : s.eligible row = false := by simp [eligible, supplied]
      exact ih (picks.skip ineligible) matched
    | some adapter =>
      by_cases claimable : rowClaimable row s.worker.now = true
      · have counted : s.eligible row = true := by simp [eligible, supplied, claimable]
        simp only [if_pos claimable]
        cases held with
        | none => exact ih (Queue.Picks.begin rowBefore_strict picks counted) supplied
        | some pair =>
          have stepped := Queue.Picks.step rowBefore_strict picks counted
          by_cases earlier : rowBefore row pair.1 = true
          · rw [if_pos earlier] at stepped
            simp only [if_pos earlier]
            exact ih stepped supplied
          · rw [if_neg earlier] at stepped
            simp only [if_neg earlier]
            exact ih stepped matched
      · have ineligible : s.eligible row = false := by simp [eligible, claimable]
        simp only [if_neg claimable]
        exact ih (picks.skip ineligible) matched

theorem picks_best (s : Supply) (rows : List ProcessRow) :
    Queue.Picks rowBefore s.eligible rows ((s.best rows none).map Prod.fst) ∧ s.Matched (s.best rows none) :=
  @best_picks s rows [] none Queue.Picks.start True.intro

end Supply

end Fala.Driver
