import Fala.Correlation.Merging
import Fala.Driver.Turns
import Fala.Driver.Usage
import Fala.Journal.Recording

/-! What the parts of a round of `advance_correlation` write: the skips of its loop, its promotions, its wait marker. -/

namespace Fala.Correlation
open Durable Program Journal
open Driver (listProcesses listProcesses_ok listProcesses_reads commandByKey_of_rows)

variable {runId : String} {db db' db'' : Database}

/-- Only rows and keys of the given processes are touched. -/
structure Moved (runId : String) (ids : List String) (db db' : Database) : Prop where
  rows (k : String × String) (other : ¬ (k.1 = runId ∧ k.2 ∈ ids)) :
    db'.processes.find? k = db.processes.find? k
  commands (key : String) (other : ∀ id ∈ ids, key ≠ "process.ready:" ++ id ∧ key ≠ "process.skip:" ++ id) :
    db'.commandByKey runId key = db.commandByKey runId key

namespace Moved

variable {ids others : List String}

theorem refl (runId : String) (ids : List String) (db : Database) : Moved runId ids db db :=
  ⟨fun _ _ => rfl, fun _ _ => rfl⟩

theorem trans (first : Moved runId ids db db') (later : Moved runId others db' db'') :
    Moved runId (ids ++ others) db db'' where
  rows k other := by
    have apart : ¬ (k.1 = runId ∧ k.2 ∈ ids) ∧ ¬ (k.1 = runId ∧ k.2 ∈ others) := by
      constructor
      · exact fun here => other ⟨here.1, List.mem_append_left _ here.2⟩
      · exact fun here => other ⟨here.1, List.mem_append_right _ here.2⟩
    exact (later.rows k apart.2).trans (first.rows k apart.1)
  commands key other := by
    have left : ∀ id ∈ ids, key ≠ "process.ready:" ++ id ∧ key ≠ "process.skip:" ++ id :=
      fun id member => other id (List.mem_append_left _ member)
    have right : ∀ id ∈ others, key ≠ "process.ready:" ++ id ∧ key ≠ "process.skip:" ++ id :=
      fun id member => other id (List.mem_append_right _ member)
    exact (later.commands key right).trans (first.commands key left)

theorem row (moved : Moved runId ids db db') {id : String} (other : id ∉ ids) :
    db'.processes.find? (runId, id) = db.processes.find? (runId, id) :=
  moved.rows (runId, id) fun here => other here.2

theorem keys_ne {id other : String} (apart : id ≠ other) :
    ("process.ready:" ++ id ≠ "process.ready:" ++ other ∧ "process.ready:" ++ id ≠ "process.skip:" ++ other) ∧
      "process.skip:" ++ id ≠ "process.ready:" ++ other ∧ "process.skip:" ++ id ≠ "process.skip:" ++ other := by
  have fronts (a b : String) : "process.ready:" ++ a ≠ "process.skip:" ++ b := by
    intro same
    have front := congrArg (fun text => (text.toList.drop 8).head?) same
    simp [String.toList_append] at front
  refine ⟨⟨?_, fronts _ _⟩, (fronts _ _).symm, ?_⟩
  · exact fun same => apart ((String.append_right_inj _).mp same)
  · exact fun same => apart ((String.append_right_inj _).mp same)

theorem unrecorded (moved : Moved runId ids db db') {id : String} (other : id ∉ ids) :
    db'.commandByKey runId ("process.ready:" ++ id) = db.commandByKey runId ("process.ready:" ++ id) ∧
      db'.commandByKey runId ("process.skip:" ++ id) = db.commandByKey runId ("process.skip:" ++ id) := by
  have apart : ∀ held ∈ ids, id ≠ held := fun held member same => other (same ▸ member)
  constructor
  · exact moved.commands _ fun held member => (keys_ne (apart held member)).1
  · exact moved.commands _ fun held member => (keys_ne (apart held member)).2

theorem of_written {id : String} {action : RowAction} {old : ProcessRow} {row : CommandRow}
    (found : db.processes.find? (runId, id) = some old) (written : Written db (.act runId id action) db')
    (command : action.commands old = [row])
    (key : row.idempotencyKey = "process.ready:" ++ id ∨ row.idempotencyKey = "process.skip:" ++ id) :
    Moved runId [id] db db' ∧ db'.processes.find? (runId, id) = some (action.apply old) := by
  cases written with
  | act held enabled processes logged =>
    obtain rfl := Option.some.inj (held.symm.trans found)
    have stored := logged.stored
    rw [command] at stored
    constructor
    · constructor
      · intro k other
        have apart : k ≠ (runId, id) := by
          rintro rfl
          exact other ⟨rfl, List.mem_singleton_self _⟩
        rw [processes, if_neg apart]
      · intro wanted other
        have apart := other id (List.mem_singleton_self _)
        apply commandByKey_of_rows stored
        rcases key with same | same
        · rw [same]
          exact apart.1.symm
        · rw [same]
          exact apart.2.symm
    · rw [processes, if_pos rfl]

end Moved

/-! The moves of a round. -/

/-- The row that a missed condition leaves. -/
def skippedRow (output : Text) (old : ProcessRow) : ProcessRow :=
  { old with
    status := .skipped, outputJson := output, leaseOwner := "", leaseExpiresAt := ""
    finishedAt := old.createdAt, updatedAt := old.createdAt }

/-- The row that a promotion leaves. -/
def promotedRow (inputJson : Text) (old : ProcessRow) : ProcessRow :=
  { old with status := .ready, inputJson, updatedAt := old.createdAt }

theorem skipProcess_moves {id at_ : String} {outputJson : Text} {u : Unit}
    (fresh : db.commandByKey runId ("process.skip:" ++ id) = none)
    (h : (skipProcess runId id "correlation" at_ outputJson ("process.skip:" ++ id)).void.eval db = (.ok u, db')) :
    Moved runId [id] db db' ∧ ∃ old output, db.processes.find? (runId, id) = some old ∧
      outputJson.canonical = some output ∧ db'.processes.find? (runId, id) =
        some { old with
          status := .skipped, outputJson := output, leaseOwner := "", leaseExpiresAt := ""
          finishedAt := at_, updatedAt := at_ } := by
  let t : ProcessTransition :=
    { runId, processId := id, toStatus := .skipped, actor := "correlation", at_, outputJson
      idempotencyKey := "process.skip:" ++ id }
  have named : "process.skip:" ++ id ≠ "" := by
    intro same
    have front := congrArg (fun text => text.toList.length) same
    simp [String.toList_append] at front
  have key : t.effectiveKey = "process.skip:" ++ id := if_neg named
  obtain ⟨row, made⟩ := void_ok.mp h
  have made : (transitionProcess t).eval db = (.ok row, db') := made
  obtain ⟨current, output, error, admits⟩ := ProcessTransition.admits_of_ok made
  rw [admits.eval, key, fresh] at made
  have written := (ProcessTransition.settle_written admits made).2
  have moves := Moved.of_written admits.found written rfl (.inr key)
  refine ⟨moves.1, current, output, admits.found, admits.output, ?_⟩
  exact moves.2

theorem applyChild_moves {child : CorrelationChildTransition} {row : ProcessRow}
    (fresh : db.commandByKey runId ("process.ready:" ++ child.processId) = none)
    (filled : child.inputJson ≠ .empty) (h : (applyChild { runId } child).eval db = (.ok row, db')) :
    Moved runId [child.processId] db db' ∧ ∃ old, db.processes.find? (runId, child.processId) = some old ∧
      old.status = .pending ∧
      db'.processes.find? (runId, child.processId) = some (promotedRow child.inputJson old) := by
  simp only [applyChild, bind_ok, require_ok, getProcess_ok, commandByKey_ok] at h
  obtain ⟨_, _, ⟨-, rfl⟩, _, _, ⟨-, rfl⟩, old, _, ⟨⟨-, known⟩, here, rfl⟩, _, _, ⟨rfl, rfl⟩, h⟩ := h
  have key : db.commandByKey runId (ChildrenCall.key child) = none := fresh
  simp only [key, bind_ok, require_ok, getProcess_ok, decide_eq_true_eq] at h
  obtain ⟨_, _, ⟨pending, rfl⟩, _, _, update, _, _, ⟨changed, rfl⟩, _, _, command, _, _, event, -, -, rfl⟩ := h
  obtain ⟨row, current, -, rfl⟩ := updateProcess_one update changed
  obtain rfl := Option.some.inj (current.symm.trans here)
  obtain ⟨commands, stored, rfl⟩ := insertCommand_rows command
  obtain ⟨after, told, rfl⟩ := appendEventInTx_rows event
  let call : ChildrenCall := { runId }
  have written : Written db (.act runId child.processId (.promote call child))
      (((db.setProcesses _).setCommands commands).setEvents after) :=
    .act here pending (find?_updated (f := call.update child row) (fun _ => rfl) here)
      (.intro rfl known stored (.one told))
  have moves := Moved.of_written here written rfl (.inl rfl)
  refine ⟨moves.1, row, here, pending, moves.2.trans ?_⟩
  simp only [RowAction.apply, ChildrenCall.update, if_pos filled]
  rfl

theorem applyChildren_moves {children : List CorrelationChildTransition} {rows : List ProcessRow}
    (distinct : (children.map (·.processId)).Nodup)
    (fresh : ∀ child ∈ children, db.commandByKey runId ("process.ready:" ++ child.processId) = none)
    (filled : ∀ child ∈ children, child.inputJson ≠ .empty)
    (h : (applyChildren { runId } children).eval db = (.ok rows, db')) :
    Moved runId (children.map (·.processId)) db db' ∧ ∀ child ∈ children, ∃ old,
      db.processes.find? (runId, child.processId) = some old ∧ old.status = .pending ∧
      db'.processes.find? (runId, child.processId) = some (promotedRow child.inputJson old) := by
  induction children generalizing db rows with
  | nil =>
    obtain ⟨-, rfl⟩ := pure_ok.mp h
    exact ⟨.refl _ _ _, fun child member => nomatch member⟩
  | cons head rest ih =>
    simp only [applyChildren, bind_ok, pure_ok] at h
    obtain ⟨_, middle, first, _, _, later, -, rfl⟩ := h
    obtain ⟨apart, distinct⟩ := List.nodup_cons.mp distinct
    obtain ⟨moved, old, found, pending, left⟩ :=
      applyChild_moves (fresh head List.mem_cons_self) (filled head List.mem_cons_self) first
    have other : ∀ child ∈ rest, child.processId ∉ [head.processId] := by
      intro child member same
      rw [List.mem_singleton] at same
      exact apart (List.mem_map.mpr ⟨child, member, same⟩)
    obtain ⟨moved', each⟩ := ih distinct
      (fun child member => (moved.unrecorded (other child member)).1.trans (fresh child (.tail _ member)))
      (fun child member => filled child (.tail _ member)) later
    refine ⟨moved.trans moved', fun child member => ?_⟩
    rcases List.mem_cons.mp member with rfl | member
    · exact ⟨old, found, pending, (moved'.row apart).trans left⟩
    · obtain ⟨old, found, pending, left⟩ := each child member
      exact ⟨old, (moved.row (other child member)).symm.trans found, pending, left⟩

/-- The process that a decision is about. -/
def Decision.target : Decision → String
  | .promote child => child.processId
  | .skip processId _ _ => processId

def Decision.child? : Decision → Option CorrelationChildTransition
  | .promote child => some child
  | .skip .. => none

/-- What the loop over the readied processes leaves of one of them. -/
def Applied (runId : String) (db db' : Database) (id : String) : Option Decision → Prop
  | some (.skip _ at_ outputJson) => ∃ old output, db.processes.find? (runId, id) = some old ∧
      outputJson.canonical = some output ∧ db'.processes.find? (runId, id) =
        some { old with
          status := .skipped, outputJson := output, leaseOwner := "", leaseExpiresAt := ""
          finishedAt := at_, updatedAt := at_ }
  | _ => db'.processes.find? (runId, id) = db.processes.find? (runId, id)

section Loop

variable {ids : List String} {decide : String → Except String (Option Decision)}

/-- The promotions among the decisions. -/
def promotions (decide : String → Except String (Option Decision)) (ids : List String) :
    List CorrelationChildTransition :=
  ids.filterMap fun id =>
    match decide id with
    | .ok (some made) => made.child?
    | _ => none

def isSkip : Except String (Option Decision) → Bool
  | .ok (some (.skip ..)) => true
  | _ => false

/-- The processes that are skipped by the decisions. -/
def skips (decide : String → Except String (Option Decision)) (ids : List String) : List String :=
  ids.filter fun id => isSkip (decide id)

theorem mem_promotions {child : CorrelationChildTransition} :
    child ∈ promotions decide ids ↔ ∃ id ∈ ids, decide id = .ok (some (.promote child)) := by
  rw [promotions, List.mem_filterMap]
  constructor
  · rintro ⟨id, member, made⟩
    refine ⟨id, member, ?_⟩
    split at made
    · rename_i decision decided
      cases decision with
      | promote other =>
        cases made
        exact decided
      | skip => cases made
    · cases made
  · rintro ⟨id, member, decided⟩
    refine ⟨id, member, ?_⟩
    rw [decided]
    rfl

theorem promotions_sublist (aimed : ∀ id made, decide id = .ok (some made) → made.target = id) (ids : List String) :
    ((promotions decide ids).map (·.processId)).Sublist ids := by
  induction ids with
  | nil => exact .slnil
  | cons id rest ih =>
    rw [promotions, List.filterMap_cons]
    split
    · exact ih.cons id
    · rename_i child made
      split at made
      · rename_i decision decided
        cases decision with
        | promote other =>
          cases made
          have here : child.processId = id := aimed id _ decided
          rw [List.map_cons, here]
          exact ih.cons_cons id
        | skip => cases made
      · cases made

theorem applyDecisions_moves (aimed : ∀ id made, decide id = .ok (some made) → made.target = id) (distinct : ids.Nodup)
    (fresh : ∀ id ∈ ids, db.commandByKey runId ("process.skip:" ++ id) = none)
    {children left : List CorrelationChildTransition} {changed moved : Bool}
    (h : applyDecisions runId (ids.map decide) children changed db = (.ok (left, moved), db')) :
    Moved runId (skips decide ids) db db' ∧ left = children ++ promotions decide ids ∧
      (∀ id ∈ ids, ∃ made, decide id = .ok made ∧ Applied runId db db' id made) ∧
      (moved = true ↔ changed = true ∨ skips decide ids ≠ []) := by
  induction ids generalizing children changed db with
  | nil =>
    obtain ⟨same, rfl⟩ := Session.pure_ok.mp h
    cases same
    exact ⟨.refl _ _ _, (List.append_nil _).symm, List.forall_mem_nil _, by simp [skips]⟩
  | cons id rest ih =>
    obtain ⟨apart, distinct⟩ := List.nodup_cons.mp distinct
    simp only [List.map_cons, applyDecisions] at h
    obtain ⟨made, middle, first, next⟩ := Session.bind_ok.mp h
    obtain ⟨decided, same⟩ := Session.of_ok.mp first
    subst same
    clear h first
    have unskipped : id ∉ skips decide rest := fun skipped => apart (List.mem_of_mem_filter skipped)
    -- what the loop leaves of the others, and of the first process, once it is past it
    have later : ∀ {start : Database} {children : List CorrelationChildTransition} {changed : Bool},
        Moved runId [id] db start →
        applyDecisions runId (rest.map decide) children changed start = (.ok (left, moved), db') →
        Moved runId (skips decide rest) start db' ∧ left = children ++ promotions decide rest ∧
          (∀ other ∈ rest, ∃ made, decide other = .ok made ∧ Applied runId db db' other made) ∧
          db'.processes.find? (runId, id) = start.processes.find? (runId, id) ∧
          (moved = true ↔ changed = true ∨ skips decide rest ≠ []) := by
      intro start children changed first h
      have others : ∀ other ∈ rest, other ∉ [id] := by
        intro other member same
        rw [List.mem_singleton] at same
        exact apart (same ▸ member)
      obtain ⟨moves, promoted, each, flag⟩ := ih distinct
        (fun other member => (first.unrecorded (others other member)).2.trans (fresh other (.tail _ member))) h
      refine ⟨moves, promoted, fun other member => ?_, moves.row unskipped, flag⟩
      obtain ⟨made, decided, applied⟩ := each other member
      refine ⟨made, decided, ?_⟩
      unfold Applied at applied ⊢
      rw [first.row (others other member)] at applied
      exact applied
    match made, decided, next with
    | none, decided, next =>
      obtain ⟨moves, promoted, each, same, flag⟩ := later (.refl _ _ _) next
      have skipped : skips decide (id :: rest) = skips decide rest := by simp [skips, decided, isSkip]
      rw [skipped]
      refine ⟨moves, ?_, fun other member => ?_, flag⟩
      · simpa [promotions, decided] using promoted
      · rcases List.mem_cons.mp member with rfl | member
        · exact ⟨none, decided, same⟩
        · exact each other member
    | some (.promote child), decided, next =>
      obtain ⟨moves, promoted, each, same, flag⟩ := later (.refl _ _ _) next
      have skipped : skips decide (id :: rest) = skips decide rest := by simp [skips, decided, isSkip]
      rw [skipped]
      refine ⟨moves, ?_, fun other member => ?_, flag⟩
      · simpa [promotions, decided, Decision.child?] using promoted
      · rcases List.mem_cons.mp member with rfl | member
        · exact ⟨_, decided, same⟩
        · exact each other member
    | some (.skip target at_ outputJson), decided, next =>
      obtain rfl : target = id := aimed id _ decided
      obtain ⟨_, start, skipped, next⟩ := Session.bind_ok.mp next
      obtain ⟨first, old, output, found, printed, written⟩ :=
        skipProcess_moves (fresh target List.mem_cons_self) (Session.program_ok.mp skipped)
      obtain ⟨moves, promoted, each, same, flag⟩ := later first next
      have here : skips decide (target :: rest) = target :: skips decide rest := by simp [skips, decided, isSkip]
      rw [here]
      refine ⟨first.trans moves, ?_, fun other member => ?_, ?_⟩
      · simpa [promotions, decided, Decision.child?] using promoted
      · rcases List.mem_cons.mp member with rfl | member
        · exact ⟨_, decided, old, output, found, printed, same.trans written⟩
        · exact each other member
      · rw [flag]
        exact ⟨fun _ => .inr (List.cons_ne_nil _ _), fun _ => .inl rfl⟩

theorem promoteChildren_moves {children : List CorrelationChildTransition} {u : Unit}
    (distinct : (children.map (·.processId)).Nodup)
    (fresh : ∀ child ∈ children, db.commandByKey runId ("process.ready:" ++ child.processId) = none)
    (filled : ∀ child ∈ children, child.inputJson ≠ .empty)
    (h : (promoteChildren runId children).eval db = (.ok u, db')) :
    Moved runId (children.map (·.processId)) db db' ∧ ∀ child ∈ children, ∃ old,
      db.processes.find? (runId, child.processId) = some old ∧ old.status = .pending ∧
      db'.processes.find? (runId, child.processId) = some (promotedRow child.inputJson old) := by
  unfold promoteChildren at h
  by_cases none_ : children = []
  · rw [if_pos none_] at h
    obtain ⟨-, rfl⟩ := pure_ok.mp h
    subst none_
    exact ⟨.refl _ _ _, List.forall_mem_nil _⟩
  · rw [if_neg none_] at h
    obtain ⟨rows, made⟩ := void_ok.mp h
    simp only [applyCorrelationChildren, bind_ok, requireRun_ok, require_ok, transact_ok] at made
    obtain ⟨_, _, ⟨-, rfl⟩, _, _, ⟨-, rfl⟩, applied⟩ := made
    exact applyChildren_moves distinct fresh filled applied

end Loop

/-! The wait marker. -/

/-- The same row, but for what the wait marker touches. -/
def Marked (old new : ProcessRow) : Prop := new = { old with metadata := new.metadata, updatedAt := new.updatedAt }

theorem Marked.refl (row : ProcessRow) : Marked row row := rfl

theorem Marked.status {old new : ProcessRow} (marked : Marked old new) : new.status = old.status := by rw [marked]

theorem Marked.trans {old middle new : ProcessRow} (first : Marked old middle) (later : Marked middle new) :
    Marked old new := by
  unfold Marked at *
  rw [later, first]

/-- Marking the row once more writes nothing. -/
def Still (d : CorrelationWaitDiagnostic) (row : ProcessRow) : Prop := ∀ runId, markRow runId d row = pure ()

theorem rewriteMetadata_row {id : String} {members : List (String × Json)} {u : Unit} {old : ProcessRow}
    (found : db.processes.find? (runId, id) = some old)
    (h : (rewriteMetadata runId id members).eval db = (.ok u, db')) :
    db'.commands = db.commands ∧ ∀ k, db'.processes.find? k =
      if k = (runId, id) then
        some { old with metadata := .printed (Json.obj members).canonical, updatedAt := "correlation.advance" }
      else db.processes.find? k := by
  simp only [rewriteMetadata, bind_ok] at h
  obtain ⟨n, middle, updated, same⟩ := h
  obtain ⟨-, rfl⟩ := pure_ok.mp same
  let rewrite (r : ProcessRow) : ProcessRow :=
    { r with metadata := .printed (Json.obj members).canonical, updatedAt := "correlation.advance" }
  cases (updateProcess_met (fun _ => true) rewrite (fun _ => rfl) found rfl).symm.trans updated
  exact ⟨rfl, find?_updated (f := rewrite) (fun _ => rfl) found⟩

/-- One row is marked for good. -/
structure RowMarked (runId : String) (d : CorrelationWaitDiagnostic) (row : ProcessRow) (db db' : Database) : Prop where
  commands : db'.commands = db.commands
  row : ∃ new, Marked row new ∧ Still d new ∧
    ∀ k, db'.processes.find? k = if k = (runId, row.id) then some new else db.processes.find? k

theorem markRow_row {d : CorrelationWaitDiagnostic} {row : ProcessRow} {u : Unit}
    (found : db.processes.find? (runId, row.id) = some row) (h : (markRow runId d row).eval db = (.ok u, db')) :
    RowMarked runId d row db db' := by
  have kept (still : Still d row) (h : (pure () : Sql Unit).eval db = (.ok u, db')) :
      RowMarked runId d row db db' := by
    obtain ⟨-, rfl⟩ := pure_ok.mp h
    refine ⟨rfl, row, .refl row, still, fun k => ?_⟩
    by_cases here : k = (runId, row.id)
    · rw [if_pos here, here, found]
    · rw [if_neg here]
  have rewritten {members : List (String × Json)}
      (still : Still d { row with metadata := .printed (Json.obj members).canonical, updatedAt := "correlation.advance" })
      (h : (rewriteMetadata runId row.id members).eval db = (.ok u, db')) :
      RowMarked runId d row db db' := by
    have ⟨commands, rows⟩ := rewriteMetadata_row found h
    refine ⟨commands, _, ?_, still, rows⟩
    rfl
  unfold markRow at h
  split at h
  · rename_i members parsed
    split at h
    · rename_i holder
      split at h
      · rename_i same
        refine kept (fun other => ?_) h
        unfold markRow
        simp only [parsed]
        rw [if_pos holder, if_pos same]
      · refine rewritten (fun other => ?_) h
        have marked : (Json.lookup markerName (Json.sortMembers (Json.canonicalMembers
            (Bridge.setMember markerName (waitMarkerJson d) members)))).map Json.canonical =
              some (waitMarkerJson d).canonical := by
          rw [Json.lookup_sortMembers, Json.lookup_canonicalMembers, Driver.lookup_setMember, Option.map_some,
            Option.map_some, Json.canonical_canonical]
        unfold markRow
        simp only [Text.parse_printed, Json.canonical]
        rw [if_pos holder, if_pos marked]
    · rename_i holder
      split at h
      · refine rewritten (fun other => ?_) h
        have gone : (Json.lookup markerName (Json.sortMembers (Json.canonicalMembers
            (members.filter fun m => m.1 ≠ markerName)))).isSome = false := by
          rw [Json.lookup_sortMembers, Json.lookup_canonicalMembers, Json.lookup_filter_ne, if_pos rfl]
          rfl
        unfold markRow
        simp only [Text.parse_printed, Json.canonical]
        rw [if_neg holder, if_neg (by rw [gone]; decide)]
      · rename_i unmarked
        refine kept (fun other => ?_) h
        unfold markRow
        simp only [parsed]
        rw [if_neg holder, if_neg unmarked]
  · exact absurd h raise_ok

theorem markRows_rows {d : CorrelationWaitDiagnostic} {rows : List ProcessRow} {u : Unit}
    (within : ∀ row ∈ rows, row.runId = runId) (current : Current db rows)
    (h : (markRows runId d rows).eval db = (.ok u, db')) :
    db'.commands = db.commands ∧
      (∀ row ∈ rows, ∃ new, db'.processes.find? row.key = some new ∧ Marked row new ∧ Still d new) ∧
      ∀ k, (∀ row ∈ rows, k ≠ row.key) → db'.processes.find? k = db.processes.find? k := by
  induction rows generalizing db with
  | nil =>
    obtain ⟨-, rfl⟩ := pure_ok.mp h
    exact ⟨rfl, List.forall_mem_nil _, fun _ _ => rfl⟩
  | cons row rest ih =>
    obtain ⟨_, middle, first, later⟩ := bind_ok.mp h
    obtain ⟨distinct, stored⟩ := current
    obtain ⟨apart, distinct⟩ := List.nodup_cons.mp distinct
    have key : row.key = (runId, row.id) := Prod.ext (within row List.mem_cons_self) rfl
    have found := stored row List.mem_cons_self
    rw [key] at found
    obtain ⟨commands, new, marked, still, rows⟩ := markRow_row found first
    have other : ∀ r ∈ rest, r.key ≠ row.key := fun r member same => apart (List.mem_map.mpr ⟨r, member, same⟩)
    have kept : ∀ k, k ≠ row.key → middle.processes.find? k = db.processes.find? k := by
      intro k apart
      rw [rows, if_neg (key ▸ apart)]
    obtain ⟨commands', each, beside⟩ := ih (fun r member => within r (.tail _ member))
      ⟨distinct, fun r member => (kept _ (other r member)).trans (stored r (.tail _ member))⟩ later
    refine ⟨commands'.trans commands, fun r member => ?_, fun k apart => ?_⟩
    · rcases List.mem_cons.mp member with rfl | member
      · refine ⟨new, ?_, marked, still⟩
        rw [beside _ fun r member => (other r member).symm, rows, key, if_pos rfl]
      · exact each r member
    · rw [beside k fun r member => apart r (.tail _ member), kept k (apart row List.mem_cons_self)]

/-- The rows of a run, as `list_processes` orders them. -/
def listed (db : Database) (runId : String) : List ProcessRow :=
  queueOrder (db.processes.rows.filter fun r => r.runId = runId)

theorem mem_listed {row : ProcessRow} : row ∈ listed db runId ↔ row ∈ db.processes.rows ∧ row.runId = runId := by
  rw [listed, (queueOrder_perm _).mem_iff, List.mem_filter, decide_eq_true_eq]

theorem mem_listed_find {row : ProcessRow} :
    row ∈ listed db runId ↔ db.processes.find? (runId, row.id) = some row := by
  rw [mem_listed, Table.find?_some]
  constructor
  · rintro ⟨member, rfl⟩
    exact ⟨member, rfl⟩
  · rintro ⟨member, key⟩
    exact ⟨member, congrArg Prod.fst key⟩

theorem findRow_listed (id : String) : findRow (listed db runId) id = db.processes.find? (runId, id) := by
  cases found : db.processes.find? (runId, id) with
  | none =>
    rw [findRow, List.find?_eq_none]
    intro row member
    rw [decide_eq_true_eq]
    rintro rfl
    rw [mem_listed_find.mp member] at found
    cases found
  | some row =>
    have same : row.id = id := congrArg Prod.snd (Table.find?_key found)
    subst same
    have member := mem_listed_find.mpr found
    cases first : findRow (listed db runId) row.id with
    | none =>
      have absent := List.find?_eq_none.mp first row member
      simp at absent
    | some other =>
      unfold findRow at first
      have here : other.id = row.id := by simpa using List.find?_some first
      have stored := mem_listed_find.mp (List.mem_of_find?_eq_some first)
      rw [here, found] at stored
      exact stored.symm

theorem current_listed (db : Database) (runId : String) : Current db (listed db runId) :=
  current_queue db fun r => r.runId = runId

/-- The marking of a run. -/
structure RunMarked (runId : String) (d : CorrelationWaitDiagnostic) (db db' : Database) : Prop where
  commands : db'.commands = db.commands
  rows (k : String × String) : Option.Rel Marked (db.processes.find? k) (db'.processes.find? k)
  others (k : String × String) (other : k.1 ≠ runId) : db'.processes.find? k = db.processes.find? k
  still (row : ProcessRow) (stored : row ∈ listed db' runId) : Still d row

theorem RunMarked.row {runId : String} {d : CorrelationWaitDiagnostic} (marked : RunMarked runId d db db')
    {k : String × String} {row : ProcessRow} (found : db.processes.find? k = some row) :
    ∃ new, db'.processes.find? k = some new ∧ Marked row new := rel_left (marked.rows k) found

theorem persistWaitDiagnostic_marks {d : CorrelationWaitDiagnostic} {u : Unit}
    (h : (persistWaitDiagnostic runId d).eval db = (.ok u, db')) : RunMarked runId d db db' := by
  simp only [persistWaitDiagnostic, bind_ok, listProcesses_ok, transact_ok] at h
  obtain ⟨rows, _, ⟨-, same, rfl⟩, h⟩ := h
  have same : rows = listed db runId := same
  subst same
  obtain ⟨commands, each, beside⟩ := markRows_rows (fun row member => (mem_listed.mp member).2) (current_listed db runId) h
  have key {row : ProcessRow} (member : row ∈ listed db runId) : row.key = (runId, row.id) :=
    Prod.ext (mem_listed.mp member).2 rfl
  refine ⟨commands, fun k => ?_, fun k other => ?_, fun row stored => ?_⟩
  · by_cases here : ∃ row ∈ listed db runId, k = row.key
    · obtain ⟨row, member, rfl⟩ := here
      obtain ⟨new, found, marked, -⟩ := each row member
      rw [found, key member, mem_listed_find.mp member]
      exact .some marked
    · rw [beside k fun row member same => here ⟨row, member, same⟩]
      exact rel_refl Marked.refl _
  · refine beside k fun row member same => other ?_
    rw [same]
    exact (mem_listed.mp member).2
  · have found := mem_listed_find.mp stored
    by_cases here : ∃ old ∈ listed db runId, (runId, row.id) = old.key
    · obtain ⟨old, member, same⟩ := here
      obtain ⟨new, written, -, still⟩ := each old member
      rw [← same, found] at written
      cases written
      exact still
    · have absent := beside (runId, row.id) fun old member same => here ⟨old, member, same⟩
      rw [found] at absent
      have member := mem_listed_find.mpr absent.symm
      exact absurd ⟨row, member, (key member).symm⟩ here

end Fala.Correlation
