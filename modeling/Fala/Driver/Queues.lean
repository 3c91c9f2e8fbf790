import Fala.Driver.Selection
import Fala.Driver.Recovery
import Fala.Driver.Ticks
import Fala.Memory.Claim

/-! The three selections of the next process: of the in-memory journal, of the native journal, and of a drive. -/

namespace Fala.Driver
open Durable Program Journal
open Memory (ProcessRecord InMemoryJournal isBefore bestOf selectionOrder readyProcesses processIsClaimable)

/-! The order of the native journal. -/

theorem queueBefore_eq (left right : ProcessRow) : queueBefore left right = !rowBefore right left := by
  unfold queueBefore rowBefore
  by_cases priority : left.priority = right.priority
  · by_cases available : left.availableAt = right.availableAt
    · by_cases created : left.createdAt = right.createdAt
      · simp [priority, available, created, ← not_lt]
      · have ordered : left.createdAt < right.createdAt ↔ ¬ right.createdAt < left.createdAt :=
          ⟨fun less => less.asymm, fun less => lt_of_le_of_ne (not_lt.mp less) created⟩
        simp only [priority, available, ne_eq, not_true_eq_false, if_false, created, Ne.symm created, not_false_eq_true,
          if_true]
        rw [← decide_not, decide_eq_decide]
        exact ordered
    · have ordered : left.availableAt < right.availableAt ↔ ¬ right.availableAt < left.availableAt :=
        ⟨fun less => less.asymm, fun less => lt_of_le_of_ne (not_lt.mp less) available⟩
      simp only [priority, ne_eq, not_true_eq_false, if_false, available, Ne.symm available, not_false_eq_true, if_true]
      rw [← decide_not, decide_eq_decide]
      exact ordered
  · have ordered : right.priority < left.priority ↔ ¬ left.priority < right.priority :=
      ⟨fun less => less.asymm, fun less => lt_of_le_of_ne (not_lt.mp less) (Ne.symm priority)⟩
    simp only [ne_eq, priority, Ne.symm priority, not_false_eq_true, if_true]
    rw [← decide_not, decide_eq_decide]
    exact ordered

theorem queueBefore_total (left right : ProcessRow) : queueBefore left right = true ∨ queueBefore right left = true := by
  rw [queueBefore_eq, queueBefore_eq]
  by_cases earlier : rowBefore left right = true
  · exact .inl (by rw [rowBefore_strict.asymm earlier]; rfl)
  · exact .inr (by rw [Bool.eq_false_iff.mpr earlier]; rfl)

theorem queueBefore_trans {left middle right : ProcessRow} (first : queueBefore left middle = true)
    (later : queueBefore middle right = true) : queueBefore left right = true := by
  rw [queueBefore_eq, Bool.not_eq_true'] at first later ⊢
  apply Bool.eq_false_iff.mpr
  intro back
  by_cases ahead : rowBefore middle right = true
  · have around := rowBefore_trans ahead back
    rw [first] at around
    cases around
  · obtain ⟨priority, available, created, id⟩ := columns_eq_of_rowBefore later (Bool.eq_false_iff.mpr ahead)
    have same : rowBefore middle left = rowBefore right left := by
      unfold rowBefore
      rw [priority, available, created, id]
    rw [← same, first] at back
    cases back

theorem queueOrder_picks (rows : List ProcessRow) :
    Queue.Picks rowBefore (fun _ => true) rows (queueOrder rows).head? := by
  have total : Std.Total fun left right => queueBefore left right = true := ⟨queueBefore_total⟩
  have trans : IsTrans ProcessRow fun left right => queueBefore left right = true := ⟨fun _ _ _ => queueBefore_trans⟩
  have sorted : (queueOrder rows).Pairwise fun left right => queueBefore left right = true :=
    List.pairwise_insertionSort (fun left right => queueBefore left right = true) rows
  have picks : Queue.Picks rowBefore (fun _ => true) (queueOrder rows) (queueOrder rows).head? := by
    cases ordered : queueOrder rows with
    | nil => exact Queue.Picks.start
    | cons head rest =>
      rw [ordered] at sorted
      refine ⟨List.mem_cons_self, rfl, ?_⟩
      intro other member _
      rcases List.mem_cons.mp member with rfl | member
      · exact rowBefore_irrefl other
      · have ordered := (List.pairwise_cons.mp sorted).1 other member
        rwa [queueBefore_eq, Bool.not_eq_true'] at ordered
  exact picks.congr (fun row => (queueOrder_perm rows).mem_iff.symm) fun _ _ => rfl

/-! The order of the in-memory journal, whose times are numbers. -/

section
variable {τ : Type} [Memory.Seconds τ]

/-- The row as the in-memory journal holds it. -/
def record (time : String → τ) (row : ProcessRow) : ProcessRecord τ where
  id := row.id
  runId := row.runId
  status := row.status
  priority := row.priority
  attempt := row.attempt
  maxAttempts := row.maxAttempts
  availableAt := time row.availableAt
  createdAt := time row.createdAt
  leaseOwner := row.leaseOwner
  leaseExpiresAt := time row.leaseExpiresAt

/-- The timestamps that the selections compare. -/
def stamps (now : String) (rows : List ProcessRow) : List String :=
  now :: rows.flatMap fun row => [row.availableAt, row.createdAt, row.leaseExpiresAt]

/-- Numbers compare as the texts that they stand for. -/
structure OrderPreserving (time : String → τ) (texts : List String) : Prop where
  lt : ∀ a ∈ texts, ∀ b ∈ texts, Memory.Seconds.lt (time a) (time b) = decide (a < b)
  le : ∀ a ∈ texts, ∀ b ∈ texts, Memory.Seconds.le (time a) (time b) = decide (a ≤ b)
  eq : ∀ a ∈ texts, ∀ b ∈ texts, (time a == time b) = decide (a = b)

variable {time : String → τ} {now : String} {rows listed : List ProcessRow}

theorem stamps_row {row : ProcessRow} (member : row ∈ rows) :
    row.availableAt ∈ stamps now rows ∧ row.createdAt ∈ stamps now rows ∧ row.leaseExpiresAt ∈ stamps now rows := by
  have here : ∀ text ∈ [row.availableAt, row.createdAt, row.leaseExpiresAt], text ∈ stamps now rows := by
    intro text listed
    exact List.mem_cons_of_mem _ (List.mem_flatMap.mpr ⟨row, member, listed⟩)
  exact ⟨here _ (by simp), here _ (by simp), here _ (by simp)⟩

theorem isBefore_record (order : OrderPreserving time (stamps now rows)) {a b : ProcessRow} (here : a ∈ rows)
    (there : b ∈ rows) : isBefore (record time a) (record time b) = rowBefore a b := by
  obtain ⟨available, created, -⟩ := @stamps_row now _ _ here
  obtain ⟨available', created', -⟩ := @stamps_row now _ _ there
  have due := order.eq _ available _ available'
  have made := order.eq _ created _ created'
  unfold isBefore rowBefore
  simp only [record, order.lt _ available _ available', order.lt _ created _ created', bne, due, made]
  by_cases priority : a.priority = b.priority
  · by_cases available : a.availableAt = b.availableAt
    · by_cases created : a.createdAt = b.createdAt
      · simp [priority, available, created]
      · simp [priority, available, created]
    · simp [priority, available]
  · rw [if_pos priority, if_pos priority]
    exact decide_eq_decide.mpr Iff.rfl

/-- A row that the in-memory journal takes for claimable. -/
def memoryClaimable (now : String) (row : ProcessRow) : Bool :=
  row.attempt < row.maxAttempts ∧ (row.status = .ready ∨ (row.status = .retryWait ∧ row.availableAt ≤ now) ∨
    (row.status = .running ∧ row.leaseOwner ≠ "" ∧ row.leaseExpiresAt ≤ now))

theorem processIsClaimable_record (order : OrderPreserving time (stamps now rows)) {row : ProcessRow} (member : row ∈ rows) :
    processIsClaimable (record time row) (time now) = memoryClaimable now row := by
  obtain ⟨available, -, lease⟩ := @stamps_row now _ _ member
  have instant : now ∈ stamps now rows := List.mem_cons_self
  have due := order.le _ available _ instant
  have lapsed := order.le _ lease _ instant
  unfold memoryClaimable processIsClaimable
  simp only [ProcessRecord.attemptsRemaining, ProcessRecord.leaseIsExpired, ProcessRecord.hasLease, record, due, lapsed]
  by_cases left : row.attempt < row.maxAttempts
  · by_cases owned : row.leaseOwner = ""
    · cases row.status <;> simp [left, owned]
    · cases row.status <;> simp [left, owned]
  · simp [left]

/-- One step of the scan for the best record. -/
def better (best : Option (ProcessRecord τ × Nat)) (entry : ProcessRecord τ × Nat) : Option (ProcessRecord τ × Nat) :=
  match best with
  | none => some entry
  | some held => if isBefore entry.1 held.1 then some entry else best

/-- What the scan holds is the record of a first one of the rows seen. -/
def Scanned (time : String → τ) (rows seen : List ProcessRow) (best : Option (ProcessRecord τ × Nat)) : Prop :=
  (∀ row ∈ seen, row ∈ rows) ∧ ∃ held : Option ProcessRow, best.map Prod.fst = held.map (record time) ∧
    Queue.Picks rowBefore (fun _ => true) seen held

theorem Scanned.step {seen : List ProcessRow} {best : Option (ProcessRecord τ × Nat)} {row : ProcessRow} {index : Nat}
    (order : OrderPreserving time (stamps now rows)) (member : row ∈ rows) (scanned : Scanned time rows seen best) :
    Scanned time rows (seen ++ [row]) (better best (record time row, index)) := by
  obtain ⟨before, held, same, picks⟩ := scanned
  constructor
  · intro other there
    rcases List.mem_append.mp there with there | there
    · exact before other there
    · rw [List.mem_singleton.mp there]
      exact member
  · cases held with
    | none =>
      obtain rfl : best = none := Option.map_eq_none_iff.mp same
      exact ⟨some row, rfl, picks.begin rowBefore_strict rfl⟩
    | some first =>
      obtain ⟨pair, rfl, taken⟩ := Option.map_eq_some_iff.mp same
      have compared : isBefore (record time row) pair.1 = rowBefore row first := by
        rw [taken]
        exact isBefore_record order member (before first picks.member)
      refine ⟨_, ?_, Queue.Picks.step rowBefore_strict picks rfl⟩
      show (if isBefore (record time row) pair.1 then some (record time row, index) else some pair).map Prod.fst = _
      rw [compared]
      by_cases earlier : rowBefore row first = true
      · rw [if_pos earlier, if_pos earlier]
        rfl
      · rw [if_neg earlier, if_neg earlier]
        exact same

theorem foldl_scanned (order : OrderPreserving time (stamps now rows)) {rest seen : List ProcessRow}
    {best : Option (ProcessRecord τ × Nat)} {index : Nat} (inside : ∀ row ∈ rest, row ∈ rows)
    (scanned : Scanned time rows seen best) :
    Scanned time rows (seen ++ rest) (((rest.map (record time)).zipIdx index).foldl better best) := by
  induction rest generalizing seen best index with
  | nil =>
    rw [List.append_nil]
    exact scanned
  | cons row rest ih =>
    have shift : seen ++ row :: rest = seen ++ [row] ++ rest := by simp
    rw [shift]
    apply ih fun other member => inside other (List.mem_cons_of_mem _ member)
    exact scanned.step order (inside row List.mem_cons_self)

theorem head?_selectionOrder (records : List (ProcessRecord τ)) :
    (selectionOrder records.length records).head? = (bestOf records).map Prod.fst := by
  cases records with
  | nil => rfl
  | cons first rest =>
    obtain ⟨best, found, -⟩ := Memory.bestOf_cons first rest
    simp only [List.length_cons, selectionOrder, found]
    rfl

theorem readyProcesses_picks (order : OrderPreserving time (stamps now rows)) (inside : ∀ row ∈ listed, row ∈ rows) :
    ∃ held : Option ProcessRow, (readyProcesses (listed.map (record time)) (time now)).head? = held.map (record time) ∧
      Queue.Picks rowBefore (memoryClaimable now) listed held := by
  have claimable : (listed.map (record time)).filter (fun p => processIsClaimable p (time now)) =
      (listed.filter (memoryClaimable now)).map (record time) := by
    rw [List.filter_map]
    congr 1
    apply List.filter_congr
    intro row member
    exact processIsClaimable_record order (inside row member)
  have scanned : Scanned time rows (listed.filter (memoryClaimable now))
      (bestOf ((listed.filter (memoryClaimable now)).map (record time))) := by
    have begun : Scanned time rows [] none :=
      ⟨fun _ member => absurd member List.not_mem_nil, none, rfl, Queue.Picks.start⟩
    exact foldl_scanned order (fun row member => inside row (List.mem_of_mem_filter member)) begun
  obtain ⟨-, held, same, picks⟩ := scanned
  refine ⟨held, ?_, picks.filtered⟩
  unfold readyProcesses
  rw [claimable]
  exact (head?_selectionOrder _).trans same

end

/-! The order of a drive, which fails what it cannot retry before it claims. -/

/-- A running row whose lease has expired and that maintenance does not put back into the queue. -/
def lapses (now : String) (row : ProcessRow) : Bool := rowClaimable row now ∧ row.status = .running ∧ ¬ requeues row

def failed (row : ProcessRow) : ProcessRow := { row with status := .failed }

/-- The rows after maintenance failed one of them. -/
def failRow (candidate : ProcessRow) (rows : List ProcessRow) : List ProcessRow :=
  rows.map fun row => if row = candidate then failed row else row

/-- The row that a drive claims first, for as many passes as the fuel allows. -/
def Supply.first (s : Supply) : Nat → List ProcessRow → Option ProcessRow
  | 0, _ => none
  | fuel + 1, rows =>
    match s.best rows none with
    | none => none
    | some (candidate, _) =>
      if candidate.status = .running ∧ ¬ requeues candidate then s.first fuel (failRow candidate rows)
      else some candidate

/-- A row that a drive claims once it comes to it. -/
def driveClaimable (now : String) (row : ProcessRow) : Bool := rowClaimable row now && !lapses now row

section
variable {s : Supply} {rows : List ProcessRow} {candidate : ProcessRow}

theorem rowClaimable_failed (row : ProcessRow) (now : String) : rowClaimable (failed row) now = false := by
  simp [rowClaimable, failed]

theorem countP_failRow (member : candidate ∈ rows) (lapsed : lapses s.worker.now candidate = true) :
    (failRow candidate rows).countP (lapses s.worker.now) < rows.countP (lapses s.worker.now) := by
  have gone : ∀ row, lapses s.worker.now (failed row) = false := by
    intro row
    simp [lapses, rowClaimable_failed]
  have less : ∀ rows : List ProcessRow,
      (failRow candidate rows).countP (lapses s.worker.now) ≤ rows.countP (lapses s.worker.now) := by
    intro rows
    unfold failRow
    rw [List.countP_map]
    apply List.countP_mono_left
    intro row _ counted
    by_cases same : row = candidate
    · simp [same, gone] at counted
    · simpa [same] using counted
  induction rows with
  | nil => cases member
  | cons row rest ih =>
    show (List.countP _ ((if row = candidate then failed row else row) :: failRow candidate rest)) < _
    by_cases same : row = candidate
    · subst same
      rw [if_pos rfl, List.countP_cons, List.countP_cons, gone, lapsed]
      have least := less rest
      simp only [Bool.false_eq_true, if_false, if_true]
      omega
    · have later := ih ((List.mem_cons.mp member).resolve_left (Ne.symm same))
      rw [if_neg same, List.countP_cons, List.countP_cons]
      omega

theorem picks_failRow {held : Option ProcessRow} (lapsed : lapses s.worker.now candidate = true)
    (picks : Queue.Picks rowBefore (driveClaimable s.worker.now) (failRow candidate rows) held) :
    Queue.Picks rowBefore (driveClaimable s.worker.now) rows held := by
  apply picks.among
  intro row counted
  have other : row ≠ candidate := by
    rintro rfl
    simp [driveClaimable, lapsed] at counted
  constructor
  · intro member
    exact List.mem_map.mpr ⟨row, member, if_neg other⟩
  · intro member
    obtain ⟨old, there, moved⟩ := List.mem_map.mp member
    by_cases here : old = candidate
    · rw [if_pos here] at moved
      rw [← moved] at counted
      simp [driveClaimable, rowClaimable_failed] at counted
    · rw [if_neg here] at moved
      rw [← moved]
      exact there

theorem first_picks {fuel : Nat} (supplied : ∀ row ∈ rows, (s.adapter? row.id).isSome = true)
    (enough : rows.countP (lapses s.worker.now) < fuel) :
    Queue.Picks rowBefore (driveClaimable s.worker.now) rows (s.first fuel rows) := by
  induction fuel generalizing rows with
  | zero => exact absurd enough (Nat.not_lt_zero _)
  | succ fuel ih =>
    have eligible : ∀ row ∈ rows, s.eligible row = rowClaimable row s.worker.now := by
      intro row member
      simp [Supply.eligible, supplied row member]
    have picks := ((s.picks_best rows).1).congr (fun _ => Iff.rfl) fun row member => (eligible row member).symm
    unfold Supply.first
    cases best : s.best rows none with
    | none =>
      rw [best] at picks
      intro row member
      have none := picks row member
      simp [driveClaimable, none]
    | some pair =>
      rw [best] at picks
      have least : Queue.Least rowBefore (rowClaimable · s.worker.now) rows pair.1 := picks
      dsimp only
      split
      · rename_i spent
        have lapsed : lapses s.worker.now pair.1 = true := decide_eq_true ⟨least.counted, spent⟩
        apply picks_failRow lapsed
        apply ih
        · intro row member
          obtain ⟨old, there, rfl⟩ := List.mem_map.mp member
          split
          · exact supplied old there
          · exact supplied old there
        · have fewer := countP_failRow least.member lapsed
          omega
      · rename_i left
        have counted : driveClaimable s.worker.now pair.1 = true := by
          have unspent : lapses s.worker.now pair.1 = false := decide_eq_false fun lapsed => left lapsed.2
          simp [driveClaimable, least.counted, unspent]
        refine ⟨least.member, counted, ?_⟩
        intro other member drives
        exact least.first other member (Bool.and_eq_true _ _ |>.mp drives).1

end

/-- The key under which maintenance fails a row. -/
def lapseKey (row : ProcessRow) (now : String) : String :=
  "process." ++ row.id ++ ":" ++ ProcessStatus.failed.value ++ ":" ++ now

theorem maintainProcess_lapsed {row left : ProcessRow} {m : Maintenance} {db db' : Database}
    (found : db.processes.find? row.key = some row) (running : row.status = .running) (spent : ¬ requeues row = true)
    (unused : db.commandByKey row.runId (lapseKey row m.now) = none)
    (h : (maintainProcess row m).eval db = (.ok left, db')) : left.status = .failed := by
  simp only [maintainProcess, bind_ok, require_ok, getProcess_ok] at h
  obtain ⟨_, _, ⟨-, rfl⟩, current, _, ⟨-, here, rfl⟩, _, _, ⟨-, rfl⟩, h⟩ := h
  obtain rfl : row = current := Option.some.inj (found.symm.trans here)
  have lapsed : row.maxAttempts ≤ row.attempt ∨ ¬ automaticRetryAllowed row.metadata = true := by
    rw [← Int.not_lt, ← not_and_or]
    intro left
    exact spent (decide_eq_true left)
  unfold resolveExpired at h
  rw [if_neg (not_not.mpr running), if_pos lapsed] at h
  have stored := transitionProcess_stored h
  obtain ⟨current, output, error, admits, permits, moved⟩ := ProcessTransition.of_ok (by exact unused) h
  have same := Option.some.inj (stored.symm.trans moved)
  rw [same]
  rfl

theorem transitionProcess_replayed {t : ProcessTransition} {current row : ProcessRow} {db db' : Database}
    (found : db.processes.find? (t.runId, t.processId) = some current)
    (recorded : db.commandByKey t.runId t.effectiveKey ≠ none)
    (h : (transitionProcess t).eval db = (.ok row, db')) : row = current := by
  have stored := transitionProcess_stored h
  obtain ⟨old, output, error, admits⟩ := ProcessTransition.admits_of_ok h
  rw [admits.eval] at h
  cases prior : db.commandByKey t.runId t.effectiveKey with
  | none => exact absurd prior recorded
  | some prior' =>
    rw [prior] at h
    simp only [ProcessTransition.settle, bind_ok, ofExcept_ok, require_ok, getProcess_ok] at h
    obtain ⟨_, _, ⟨-, rfl⟩, _, _, ⟨-, rfl⟩, -, -, rfl⟩ := h
    exact Option.some.inj (stored.symm.trans found)

theorem transitionProcess_status {t : ProcessTransition} {current row : ProcessRow} {db db' : Database}
    (found : db.processes.find? (t.runId, t.processId) = some current)
    (h : (transitionProcess t).eval db = (.ok row, db')) : row = current ∨ row.status = t.toStatus := by
  by_cases unused : db.commandByKey t.runId t.effectiveKey = none
  · have stored := transitionProcess_stored h
    obtain ⟨old, output, error, admits⟩ := ProcessTransition.admits_of_ok h
    rw [admits.eval, unused] at h
    obtain ⟨new, there, status⟩ := ProcessTransition.settle_fresh admits h
    rw [Option.some.inj (stored.symm.trans there)]
    exact .inr status
  · exact .inl (transitionProcess_replayed found unused h)

/-- A row with attempts left that waits for its turn no longer. -/
def InTurn (now : String) (row : ProcessRow) : Prop :=
  row.status = .ready ∨ (row.status = .retryWait ∧ row.availableAt ≤ now)

theorem memoryClaimable_iff {now : String} {row : ProcessRow} :
    memoryClaimable now row = true ↔ row.attempt < row.maxAttempts ∧
      (InTurn now row ∨ (row.status = .running ∧ row.leaseOwner ≠ "" ∧ row.leaseExpiresAt ≤ now)) := by
  unfold memoryClaimable InTurn
  rw [decide_eq_true_iff, or_assoc]

theorem claimable_iff {now : String} {row : ProcessRow} :
    claimable row now = true ↔ row.attempt < row.maxAttempts ∧
      (InTurn now row ∨ (row.status = .running ∧ row.leaseExpiresAt ≠ "" ∧ row.leaseExpiresAt ≤ now)) := by
  unfold claimable InTurn leaseExpired
  simp only [decide_eq_true_eq, or_assoc]

theorem driveClaimable_iff {now : String} {row : ProcessRow} :
    driveClaimable now row = true ↔ row.attempt < row.maxAttempts ∧ (InTurn now row ∨ (row.status = .running ∧
      row.leaseOwner ≠ "" ∧ row.leaseExpiresAt ≠ "" ∧ row.leaseExpiresAt ≤ now ∧
        automaticRetryAllowed row.metadata = true)) := by
  unfold driveClaimable lapses rowClaimable leaseExpired requeues InTurn
  by_cases running : row.status = .running
  · rw [if_pos running]
    simp only [running, Bool.and_eq_true, Bool.not_eq_true', decide_eq_true_eq, decide_eq_false_iff_not, true_and,
      reduceCtorEq, false_and, false_or]
    tauto
  · rw [if_neg running]
    simp [running]

/-! What a claim does to the rows whose attempts are spent. -/

section
variable {workerId now : String} {rows : List ProcessRow} {db db' : Database}

/-- The row as a claim leaves it when its last lease has expired. -/
def expiredRow (now : String) (row : ProcessRow) : ProcessRow := expireUpdate now (expiredError row.leaseOwner) row

theorem expireRow_leaves {row : ProcessRow} {u : Unit} (known : (db.runs.find? row.runId).isSome = true)
    (current : db.processes.find? row.key = some row) (spent : exhausted row now = true) (timed : now ≠ "")
    (h : (expireRow workerId now row).eval db = (.ok u, db')) :
    (∀ run, (db.runs.find? run).isSome = true → (db'.runs.find? run).isSome = true) ∧
      ∀ k, db'.processes.find? k = if k = row.key then some (expiredRow now row) else db.processes.find? k := by
  obtain ⟨written, -⟩ := expireRow_written known current spent timed h
  cases written with
  | act found enabled processes logged =>
    obtain rfl := Option.some.inj (current.symm.trans found)
    exact ⟨fun run known => logged.kept run known, processes⟩

theorem expireRows_leaves {u : Unit} (known : ∀ row ∈ rows, (db.runs.find? row.runId).isSome = true)
    (current : Current db rows) (spent : ∀ row ∈ rows, exhausted row now = true) (timed : now ≠ "")
    (h : (expireRows workerId now rows).eval db = (.ok u, db')) :
    (∀ row ∈ rows, db'.processes.find? row.key = some (expiredRow now row)) ∧
      ∀ k, (∀ row ∈ rows, row.key ≠ k) → db'.processes.find? k = db.processes.find? k := by
  induction rows generalizing db with
  | nil =>
    obtain ⟨-, rfl⟩ := pure_ok.mp h
    exact ⟨fun row member => absurd member List.not_mem_nil, fun _ _ => rfl⟩
  | cons row rest ih =>
    simp only [expireRows, bind_ok] at h
    obtain ⟨_, middle, first, later⟩ := h
    obtain ⟨distinct, stored⟩ := current
    obtain ⟨apart, distinct⟩ := List.nodup_cons.mp distinct
    obtain ⟨runs, processes⟩ := expireRow_leaves (known _ List.mem_cons_self) (stored _ List.mem_cons_self)
      (spent _ List.mem_cons_self) timed first
    have other : ∀ left ∈ rest, left.key ≠ row.key := by
      intro left member same
      exact apart (List.mem_map.mpr ⟨left, member, same⟩)
    have current : Current middle rest := by
      refine ⟨distinct, ?_⟩
      intro left member
      rw [processes, if_neg (other left member)]
      exact stored left (.tail _ member)
    obtain ⟨written, kept⟩ := ih (fun left member => runs _ (known left (.tail _ member))) current
      (fun left member => spent left (.tail _ member)) later
    constructor
    · intro left member
      rcases List.mem_cons.mp member with rfl | member
      · rw [kept _ other, processes, if_pos rfl]
      · exact written left member
    · intro k elsewhere
      rw [kept k fun left member => elsewhere left (.tail _ member), processes,
        if_neg (elsewhere row List.mem_cons_self).symm]

theorem claimRow_id {runId processId : String} {c : ClaimRequest} {row : ProcessRow}
    (h : (claimRow runId processId c).eval db = (.ok row, db')) : row.id = processId := by
  simp only [claimRow, bind_ok, require_ok, getProcess_ok, pure_ok] at h
  obtain ⟨_, _, update, _, _, ⟨changed, rfl⟩, _, _, ⟨-, found, rfl⟩, _, _, command, _, _, event, rfl, rfl⟩ := h
  exact congrArg Prod.snd (Table.find?_key found)

theorem claimNextReady_takes {runId : String} {allRuns : Bool} {c : ClaimRequest} {claimed : Option ProcessRow}
    (named : runId ≠ "") (plain : c.idempotencyKey = "")
    (h : (claimNextReady runId allRuns c).eval db = (.ok claimed, db')) :
    claimed.map (·.id) = (queueHead db runId c.now).map (·.id) ∧
      ∀ row ∈ db.processes.rows, row.runId = runId → exhausted row c.now = true →
        db'.processes.find? row.key = some (expiredRow c.now row) := by
  simp only [claimNextReady, requireNamedRun, named, ne_eq, not_false_eq_true, if_true, bind_ok, require_ok, transact_ok,
    requireRun_ok, priorClaim_ok, plain, not_true_eq_false, if_false] at h
  obtain ⟨_, _, ⟨-, rfl⟩, _, _, ⟨⟨-, known⟩, rfl⟩, _, _, ⟨lease, rfl⟩, _, _, ⟨-, rfl⟩, _, _, ⟨rfl, rfl⟩, h⟩ := h
  obtain ⟨worker, timed, ends, -⟩ := of_decide_eq_true lease
  simp only [bind_ok, fetch_ok] at h
  obtain ⟨_, _, ⟨rfl, rfl⟩, _, middle, expires, next, _, ⟨head, rfl⟩, h⟩ := h
  have stored : ∀ row, row ∈ queueOrder (db.processes.rows.filter fun r => exhausted r c.now ∧ inRun runId r) ↔
      row ∈ db.processes.rows ∧ exhausted row c.now = true ∧ row.runId = runId := by
    intro row
    rw [(queueOrder_perm _).mem_iff]
    simp [inRun, named]
  have housed : ∀ row ∈ queueOrder (db.processes.rows.filter fun r => exhausted r c.now ∧ inRun runId r),
      (db.runs.find? row.runId).isSome = true := by
    intro row member
    rw [((stored row).mp member).2.2]
    exact known
  have spent : ∀ row ∈ queueOrder (db.processes.rows.filter fun r => exhausted r c.now ∧ inRun runId r),
      exhausted row c.now = true := by
    intro row member
    exact ((stored row).mp member).2.1
  obtain ⟨written, -⟩ := expireRows_leaves housed (current_queue db _) spent timed expires
  have same : queueHead middle runId c.now = queueHead db runId c.now := by
    refine (expireRows_does runId c housed ?_ (current_queue db _) spent timed ⟨rfl, rfl⟩ expires).2 runId
    intro row member
    exact .inr ((stored row).mp member).2.2
  rw [same] at head
  cases next with
  | none =>
    obtain ⟨rfl, rfl⟩ := pure_ok.mp h
    rw [head]
    exact ⟨rfl, fun row member run expired => written row ((stored row).mpr ⟨member, expired, run⟩)⟩
  | some selected =>
    simp only [bind_ok, pure_ok] at h
    obtain ⟨row, _, claim, rfl, rfl⟩ := h
    rw [head]
    refine ⟨congrArg some (claimRow_id claim), ?_⟩
    intro left member run expired
    have here := written left ((stored left).mpr ⟨member, expired, run⟩)
    cases claimRow_written ⟨worker, ends⟩ claim with
    | act found enabled processes logged =>
      have other : left.key ≠ (selected.runId, selected.id) := by
        intro same
        obtain ⟨there, claims, -⟩ := queueHead_some head
        obtain rfl : left = selected := List.inj_on_of_nodup_map db.processes.distinct member there same
        rw [exhausted_not_claimable expired] at claims
        cases claims
      rw [processes, if_neg other]
      exact here

end

/-! The three selections on the same rows. -/

inductive Selector where
  | memory
  | durable
  | drive
  deriving DecidableEq

/-- One set of rows of a run, as the three selections find it at one instant. -/
structure Selection (τ : Type) [Memory.Seconds τ] where
  db : Database
  runId : String
  named : runId ≠ ""
  now : String
  /-- The rows of the run, in the order in which the in-memory journal holds them. -/
  listed : List ProcessRow
  perm : listed.Perm (db.processes.rows.filter fun row => row.runId = runId)
  time : String → τ
  order : OrderPreserving time (stamps now listed)
  journal : InMemoryJournal τ
  request : Memory.ClaimRequest τ
  held : journal.processes.rows.filter request.serves = listed.map (record time)
  instant : request.now = time now
  supply : Supply
  supplied : ∀ row ∈ listed, (supply.adapter? row.id).isSome = true
  supplies : supply.runId = runId ∧ supply.worker.now = now

namespace Selection

variable {τ : Type} [Memory.Seconds τ] (t : Selection τ)

/-- The id of the process that each of them selects. -/
def selected : Selector → Option String
  | .memory => (((t.journal.reaped t.request).queue t.request).head?).map (·.id)
  | .durable => (queueHead t.db t.runId t.now).map (·.id)
  | .drive => (t.supply.first (t.listed.length + 1) t.listed).map (·.id)

/-- An expired running row without attempts left. -/
def Spent (row : ProcessRow) : Prop :=
  row ∈ t.listed ∧ row.status = .running ∧ row.leaseOwner ≠ "" ∧ leaseExpired row t.now = true ∧ row.maxAttempts ≤ row.attempt

/-- The selections are one, and rows whose attempts are spent are failed, not selected. -/
structure Agree : Prop where
  same : ∀ i j, t.selected i = t.selected j
  unclaimed : ∀ row, t.Spent row → ∀ i, t.selected i ≠ some row.id
  reaped : ∀ row, t.Spent row → t.request.refusal = none →
    (t.journal.claimNext t.request).2.processes.find? row.id = some (record t.time row).reap
  expired : ∀ row, t.Spent row → ∀ (c : ClaimRequest) (allRuns : Bool) (claimed : Option ProcessRow) (db' : Database),
    c.now = t.now → c.idempotencyKey = "" → (claimNextReady t.runId allRuns c).eval t.db = (.ok claimed, db') →
      db'.processes.find? row.key = some (expiredRow t.now row)
  failed : ∀ row, t.Spent row → ∀ (m : Maintenance) (left : ProcessRow) (db' : Database), m.now = t.now →
    t.db.commandByKey row.runId (lapseKey row t.now) = none →
      (maintainProcess row m).eval t.db = (.ok left, db') → left.status = .failed

/-- A row with attempts left whose turn has come, or whose lease is not one that holds. -/
def due (row : ProcessRow) : Bool :=
  row.attempt < row.maxAttempts ∧ (row.status = .ready ∨ (row.status = .retryWait ∧ row.availableAt ≤ t.now) ∨
    (row.status = .running ∧ (row.leaseOwner ≠ "" ∨ row.leaseExpiresAt ≠ "") ∧ row.leaseExpiresAt ≤ t.now))

/-- The first of the rows that are due is no running row, or one with a lease that may be retried of itself. -/
def Retryable : Prop :=
  ∀ row, Queue.Least rowBefore t.due t.listed row → row.status = .running →
    row.leaseOwner ≠ "" ∧ row.leaseExpiresAt ≠ "" ∧ automaticRetryAllowed row.metadata = true

/-- A row that the selection takes for claimable. -/
def counts : Selector → ProcessRow → Bool
  | .memory => memoryClaimable t.now
  | .durable => (claimable · t.now)
  | .drive => driveClaimable t.now

theorem mem_listed {row : ProcessRow} : row ∈ t.listed ↔ row ∈ t.db.processes.rows ∧ row.runId = t.runId := by
  rw [t.perm.mem_iff, List.mem_filter, decide_eq_true_eq]

theorem connex : Queue.Connex rowBefore t.listed := by
  intro a here b there first second
  exact rowBefore_connex t.db t.runId a (t.perm.mem_iff.mp here) b (t.perm.mem_iff.mp there) first second

theorem eq_of_id {a b : ProcessRow} (here : a ∈ t.listed) (there : b ∈ t.listed) (id : a.id = b.id) : a = b := by
  obtain ⟨here, run⟩ := t.mem_listed.mp here
  obtain ⟨there, run'⟩ := t.mem_listed.mp there
  exact List.inj_on_of_nodup_map t.db.processes.distinct here there (Prod.ext (run.trans run'.symm) id)

theorem memory_picks : ∃ held : Option ProcessRow, t.selected .memory = held.map (·.id) ∧
    Queue.Picks rowBefore (memoryClaimable t.now) t.listed held := by
  obtain ⟨held, head, picks⟩ := readyProcesses_picks t.order fun row member => member
  refine ⟨held, ?_, picks⟩
  show (((t.journal.reaped t.request).queue t.request).head?).map (·.id) = _
  rw [Memory.InMemoryJournal.queue_reaped]
  unfold Memory.InMemoryJournal.queue
  rw [t.held, t.instant, head, Option.map_map]
  rfl

theorem durable_picks : ∃ held : Option ProcessRow, t.selected .durable = held.map (·.id) ∧
    Queue.Picks rowBefore (claimable · t.now) t.listed held := by
  refine ⟨queueHead t.db t.runId t.now, rfl, ?_⟩
  have whole : t.db.processes.rows.filter (fun row => claimable row t.now ∧ inRun t.runId row) =
      (t.db.processes.rows.filter fun row => row.runId = t.runId).filter (claimable · t.now) := by
    rw [List.filter_filter]
    apply List.filter_congr
    intro row _
    simp [inRun, t.named]
  have picks := queueOrder_picks (t.db.processes.rows.filter fun row => claimable row t.now ∧ inRun t.runId row)
  rw [whole] at picks
  unfold queueHead
  rw [whole]
  exact picks.filtered.congr (fun row => t.perm.mem_iff) fun _ _ => rfl

theorem drive_picks : ∃ held : Option ProcessRow, t.selected .drive = held.map (·.id) ∧
    Queue.Picks rowBefore (driveClaimable t.now) t.listed held := by
  refine ⟨t.supply.first (t.listed.length + 1) t.listed, rfl, ?_⟩
  rw [← t.supplies.2]
  exact first_picks t.supplied (Nat.lt_succ_of_le List.countP_le_length)

theorem picks (i : Selector) : ∃ held : Option ProcessRow, t.selected i = held.map (·.id) ∧
    Queue.Picks rowBefore (t.counts i) t.listed held := by
  cases i with
  | memory => exact t.memory_picks
  | durable => exact t.durable_picks
  | drive => exact t.drive_picks

theorem due_iff (row : ProcessRow) : t.due row = true ↔ ∃ i, t.counts i row = true := by
  have selectors : (∃ i, t.counts i row = true) ↔
      memoryClaimable t.now row = true ∨ claimable row t.now = true ∨ driveClaimable t.now row = true := by
    constructor
    · rintro ⟨i, counted⟩
      cases i with
      | memory => exact .inl counted
      | durable => exact .inr (.inl counted)
      | drive => exact .inr (.inr counted)
    · rintro (counted | counted | counted)
      · exact ⟨.memory, counted⟩
      · exact ⟨.durable, counted⟩
      · exact ⟨.drive, counted⟩
  rw [selectors, memoryClaimable_iff, claimable_iff, driveClaimable_iff]
  unfold due
  rw [decide_eq_true_iff]
  grind [InTurn]

theorem counts_all {row : ProcessRow} (due : t.due row = true) :
    (∀ i, t.counts i row = true) ↔ (row.status = .running →
      row.leaseOwner ≠ "" ∧ row.leaseExpiresAt ≠ "" ∧ automaticRetryAllowed row.metadata = true) := by
  have selectors : (∀ i, t.counts i row = true) ↔
      memoryClaimable t.now row = true ∧ claimable row t.now = true ∧ driveClaimable t.now row = true := by
    constructor
    · intro counted
      exact ⟨counted .memory, counted .durable, counted .drive⟩
    · rintro ⟨memory, durable, drive⟩ i
      cases i with
      | memory => exact memory
      | durable => exact durable
      | drive => exact drive
  rw [selectors, memoryClaimable_iff, claimable_iff, driveClaimable_iff]
  unfold Selection.due at due
  rw [decide_eq_true_iff] at due
  grind [InTurn]

theorem same_iff : (∀ i j, t.selected i = t.selected j) ↔ t.Retryable := by
  choose held selected picks using t.picks
  have rows : (∀ i j, t.selected i = t.selected j) ↔ ∀ i j, held i = held j := by
    have inside : ∀ i row, held i = some row → row ∈ t.listed := by
      intro i row same
      have picks := picks i
      rw [same] at picks
      exact picks.member
    constructor
    · intro same i j
      have ids : (held i).map (·.id) = (held j).map (·.id) := by
        rw [← selected i, ← selected j]
        exact same i j
      cases first : held i with
      | none =>
        rw [first] at ids
        exact (Option.map_eq_none_iff.mp ids.symm).symm
      | some row =>
        rw [first] at ids
        obtain ⟨other, second, id⟩ := Option.map_eq_some_iff.mp ids.symm
        rw [second, t.eq_of_id (inside i row first) (inside j other second) id.symm]
    · intro same i j
      rw [selected i, selected j, same i j]
  rw [rows, Queue.picked_eq_iff rowBefore_strict t.connex picks fun row _ => t.due_iff row]
  constructor
  · intro all row least
    exact (t.counts_all least.counted).mp (all row least)
  · intro retryable row least
    exact (t.counts_all least.counted).mpr (retryable row least)

theorem selected_ne_spent {row : ProcessRow} (spent : t.Spent row) (i : Selector) : t.selected i ≠ some row.id := by
  intro same
  obtain ⟨held, selected, picks⟩ := t.picks i
  rw [selected] at same
  obtain ⟨other, rfl, id⟩ := Option.map_eq_some_iff.mp same
  obtain ⟨member, -, -, -, last⟩ := spent
  obtain rfl := t.eq_of_id picks.member member id
  have due := (t.due_iff other).mpr ⟨i, picks.counted⟩
  have left := (of_decide_eq_true due).1
  omega

theorem reaps_spent {row : ProcessRow} (spent : t.Spent row) : record t.time row ∈ t.journal.expired t.request := by
  obtain ⟨member, running, owned, expired, last⟩ := spent
  have held : record t.time row ∈ t.journal.processes.rows.filter t.request.serves := by
    rw [t.held]
    exact List.mem_map_of_mem member
  obtain ⟨stored, serves⟩ := List.mem_filter.mp held
  have lapsed := t.order.le _ (stamps_row member).2.2 _ List.mem_cons_self
  have early := (of_decide_eq_true expired).2
  apply List.mem_filter.mpr
  refine ⟨stored, ?_⟩
  unfold Memory.ClaimRequest.reaps Memory.ProcessRecord.leaseIsExpired Memory.ProcessRecord.hasLease
    Memory.ProcessRecord.attemptsRemaining
  rw [t.instant, serves]
  simp [record, running, owned, lapsed, early, Int.not_lt.mpr last]

theorem claimNext_reaps {row : ProcessRow} (spent : t.Spent row) (accepted : t.request.refusal = none) :
    (t.journal.claimNext t.request).2.processes.find? row.id = some (record t.time row).reap := by
  have reaped := t.reaps_spent spent
  have claimed := t.journal.claimNext_claimed t.request
  generalize t.journal.claimNext t.request = outcome at claimed
  cases claimed with
  | refused refusal =>
    rw [accepted] at refusal
    cases refusal
  | nameless => exact Memory.InMemoryJournal.find?_reaped reaped
  | idle => exact Memory.InMemoryJournal.find?_reaped reaped
  | @settles last claimedId claimedRun moved _ _ _ _ reaps =>
    have kept : (moved.settle last.command.runId (t.journal.claimUnits t.request) claimedId claimedRun).2.processes =
        moved.processes := by
      unfold Memory.InMemoryJournal.settle
      split
      · rfl
      · rfl
    rw [kept]
    exact reaps _ reaped

theorem expires_spent {row : ProcessRow} (spent : t.Spent row) {c : ClaimRequest} {allRuns : Bool}
    {claimed : Option ProcessRow} {db' : Database} (instant : c.now = t.now) (plain : c.idempotencyKey = "")
    (h : (claimNextReady t.runId allRuns c).eval t.db = (.ok claimed, db')) :
    db'.processes.find? row.key = some (expiredRow t.now row) := by
  obtain ⟨member, running, -, expired, last⟩ := spent
  obtain ⟨stored, run⟩ := t.mem_listed.mp member
  rw [← instant] at expired ⊢
  exact (claimNextReady_takes t.named plain h).2 row stored run (decide_eq_true ⟨running, expired, last⟩)

theorem fails_spent {row left : ProcessRow} (spent : t.Spent row) {m : Maintenance} {db' : Database}
    (instant : m.now = t.now) (unused : t.db.commandByKey row.runId (lapseKey row t.now) = none)
    (h : (maintainProcess row m).eval t.db = (.ok left, db')) : left.status = .failed := by
  obtain ⟨member, running, -, -, last⟩ := spent
  have found := Table.find?_some.mpr ⟨(t.mem_listed.mp member).1, rfl⟩
  apply maintainProcess_lapsed found running _ (by rw [instant]; exact unused) h
  intro left
  have fewer := (of_decide_eq_true left).1
  omega

end Selection

/-- The lease of the first worker has expired. -/
def lapsedRows : List ProcessRow := (afterDriving (fun _ => "") unretried).processes.rows

/-- The in-memory journal of the same rows. -/
def lapsedJournal (time : String → Int) : InMemoryJournal Int :=
  (lapsedRows.map (record time)).foldl Memory.InMemoryJournal.seedProcess (Memory.InMemoryJournal.init "stream")

def unretriedSelection : Selection Int where
  db := afterDriving (fun _ => "") unretried
  runId := "run"
  named := by decide
  now := "t3"
  listed := lapsedRows
  perm := by
    have all : lapsedRows.filter (fun row => row.runId = "run") = lapsedRows := by decide +kernel
    show lapsedRows.Perm (lapsedRows.filter _)
    rw [all]
  time text := if text = "t3" then 3 else if text = "t2" then 2 else 0
  order := ⟨by decide +kernel, by decide +kernel, by decide +kernel⟩
  journal := lapsedJournal fun text => if text = "t3" then 3 else if text = "t2" then 2 else 0
  request := { workerId := "second", runId := "run", leaseSeconds := 6, allRuns := false, now := 3 }
  held := by decide +kernel
  instant := by decide +kernel
  supply :=
    { processes := lapsedRows, adapters := [{ kind := .subprocess, command := ["work"] }], maxTicks := 1
      worker := { id := "second", now := "t3", leaseExpiresAt := "t9" } }
  supplied := by decide +kernel
  supplies := by decide +kernel

end Fala.Driver
