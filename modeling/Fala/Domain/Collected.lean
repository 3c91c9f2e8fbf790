import Fala.Domain.Collection
import Fala.Domain.Maintained
import Fala.Engine.Invariants

/-! No collection removes a blob that a reaction refers to, as long as collections and recordings of one digest stay
    apart. -/

namespace Fala.Domain
open Durable Journal Program

/-! What the transactions do to the reactions. -/

theorem reactionDigest_uri {digest found : String}
    (read : reactionDigest ("fala-reaction://sha256/" ++ digest) = some found) : found = digest := by
  unfold reactionDigest at read
  rw [String.toList_append] at read
  dsimp only at read
  rw [List.drop_left] at read
  split at read
  · rw [String.ofList_toList] at read
    exact (Option.some.inj read).symm
  · cases read

theorem digests_recorded {r : Recording} {metadata : Text} {digest : String}
    (refers : digest ∈ Reaction.digests { r.row with metadata }) : digest = r.digest := by
  have after : String.ofList (("sha256:" ++ r.digest).toList.drop 7) = r.digest := by
    rw [String.toList_append, show 7 = "sha256:".toList.length from rfl, List.drop_left, String.ofList_toList]
  rw [Reaction.digests, List.mem_append, Option.mem_toList, Option.mem_toList] at refers
  rcases refers with hashed | located
  · split at hashed
    · change reactionDigest ("fala-reaction://sha256/" ++ String.ofList (("sha256:" ++ r.digest).toList.drop 7)) = _ at hashed
      rw [after] at hashed
      exact reactionDigest_uri hashed
    · cases hashed
  · exact reactionDigest_uri located

theorem submitDomain_restores {c : CommandAppend} {events : List EventInput} {write replay : Sql Unit}
    {R : Database → Prop} (reads : ReadOnly replay)
    (beside : ∀ {before after : Database} {u : Unit}, write.eval before = (.ok u, after) → Beside before after ∧ R after)
    (kept : ∀ db events, R db → R (db.setEvents events)) (db : Database) :
    (submitDomain c events write replay).Restores db := by
  refine .afterRead (requireStoreRun_reads _) fun _ known => .require fun _ => ?_
  intro message db' raised
  rw [eval_bind] at raised
  cases ran : (transact id (submitBody c events write)).eval db with
  | mk result middle =>
    cases result with
    | error other =>
      rw [ran] at raised
      cases raised
      exact Restores.transact _ _ _ _ ran
    | ok submission =>
      rw [ran] at raised
      dsimp only at raised
      split at raised
      · rename_i replayed
        have same : db' = middle := by
          have left := (ReadOnly.bind reads fun _ => .pure submission).eval middle
          rwa [raised] at left
        rcases submitBody_ok beside kept (requireStoreRun_ok known).1 (transact_ok.mp ran) with
          ⟨-, -, unchanged⟩ | ⟨fresh, -⟩
        · exact same.trans unchanged
        · rw [fresh] at replayed
          cases replayed
      · cases raised

theorem recordReaction_restores (row : Reaction) (c : DomainCall) (db : Database) : (recordReaction row c).Restores db :=
  .require fun _ => .require fun _ => .afterRead (.ofExcept _) fun _ _ => .afterRead (.ofExcept _) fun _ _ =>
    submitDomain_restores replayRow_reads insertNew_beside (fun _ events holds => holds.setEvents events) db

theorem recordReaction_keeps (row : Reaction) (c : DomainCall) {P : Reaction → Prop}
    (fresh : ∀ metadata, P { row with metadata }) :
    (recordReaction row c).Keeps fun db => ∀ r ∈ db.reactions.rows, P r := by
  have beside : Alongside fun db : Database => ∀ r ∈ db.reactions.rows, P r :=
    ⟨fun _ _ => id, fun _ _ => id, fun _ _ => id⟩
  refine .bind (.require _ _) fun _ => .bind (.require _ _) fun _ => .bind (.ofExcept _) fun _ =>
    .bind (.ofExcept _) fun metadata => submitDomain_keeps beside _ _ (insertNew_keeps ?_ _ _ _) (replayRow_keeps _ _ _ _ _ _)
  refine execute_keeps fun db db' h held => ?_
  split at h
  · rename_i rows inserted
    split at h
    · cases h
      obtain ⟨-, same⟩ := Table.insert?_some.mp inserted
      intro r member
      change r ∈ rows.rows at member
      rw [same, List.mem_append, List.mem_singleton] at member
      rcases member with member | rfl
      · exact held r member
      · exact fresh metadata
    · cases h
  · cases h

theorem deleteRun_subset {runId : String} {a a' : Archive} {result : Except String RunDeleteCounts}
    (ran : (deleteRun runId false).eval a = (result, a')) : ∀ r ∈ a'.db.reactions.rows, r ∈ a.db.reactions.rows := by
  have settles : (deleteRun runId false).Settles a fun a' => ∀ r ∈ a'.db.reactions.rows, r ∈ a.db.reactions.rows := by
    refine .transact fun counts s' done r member => ?_
    exact (((deleteRunBody_ok done).rows .reactions r).mp member).1
  rcases settles.evaluated ran with same | subset
  · rw [same]
    exact fun _ member => member
  · exact subset

/-! What holds along every interleaving. -/

/-- Every blob that a reaction refers to is there. -/
def Referenced (w : Shared) : Prop :=
  ∀ r ∈ w.archive.db.reactions.rows, ∀ digest ∈ Reaction.digests r, digest ∈ w.blobs

/-- A collection at this stage is not going to remove a blob. -/
def CollectionStage.Spares (digest : String) : CollectionStage → Prop
  | .listing referenced _ => digest ∈ referenced
  | .deleting digests => digest ∉ digests
  | .verifying other rest | .removing other rest => digest ≠ other ∧ digest ∉ rest
  | _ => True

/-- A collection spares what is referred to, unless it was recorded since. -/
def Collector.Heeds (db : Database) (c : Collector) : Prop :=
  ∀ r ∈ db.reactions.rows, ∀ digest ∈ Reaction.digests r, digest ∈ c.since ∨ c.stage.Spares digest

theorem Collector.Heeds.subset {db db' : Database} {c : Collector} (heeds : c.Heeds db)
    (subset : ∀ r ∈ db'.reactions.rows, r ∈ db.reactions.rows) : c.Heeds db' :=
  fun r member => heeds r (subset r member)

theorem Collector.Heeds.next {db : Database} {c : Collector} (heeds : c.Heeds db) {stage : CollectionStage}
    (spares : ∀ digest, c.stage.Spares digest → stage.Spares digest) : Collector.Heeds db { c with stage } :=
  fun r member digest refers => (heeds r member digest refers).imp_right (spares digest)

section
variable (recordings : ℕ → Recording) (collections : ℕ → Collection)

structure Kept (w : Shared) : Prop where
  referenced : Referenced w
  stored : ∀ i, w.recorders i = .stored false → (recordings i).digest ∈ w.blobs
  heeds : ∀ i, (w.collectors i).Heeds w.archive.db

variable {recordings}

theorem Kept.setRecorder {w : Shared} (kept : Kept recordings w) (i : ℕ) {stage : RecordingStage}
    (holds : stage = .stored false → (recordings i).digest ∈ w.blobs) : Kept recordings (w.setRecorder i stage) := by
  refine ⟨kept.referenced, fun j here => ?_, kept.heeds⟩
  change Function.update w.recorders i stage j = _ at here
  by_cases same : j = i
  · subst same
    rw [Function.update_self] at here
    exact holds here
  · rw [Function.update_of_ne same] at here
    exact kept.stored j here

theorem Kept.setCollector {w : Shared} (kept : Kept recordings w) (i : ℕ) {stage : CollectionStage}
    (spares : ∀ digest, (w.collectors i).stage.Spares digest → stage.Spares digest) :
    Kept recordings (w.setCollector i stage) := by
  refine ⟨kept.referenced, kept.stored, fun j => ?_⟩
  change (Function.update w.collectors i { w.collectors i with stage } j).Heeds _
  by_cases same : j = i
  · subst same
    rw [Function.update_self]
    exact (kept.heeds j).next spares
  · rw [Function.update_of_ne same]
    exact kept.heeds j

theorem Kept.withRows {w : Shared} (kept : Kept recordings w) {archive : Archive}
    (subset : ∀ r ∈ archive.db.reactions.rows, r ∈ w.archive.db.reactions.rows) : Kept recordings { w with archive } :=
  ⟨fun r member => kept.referenced r (subset r member), kept.stored, fun i => (kept.heeds i).subset subset⟩

theorem commitRecording_kept {w : Shared} (kept : Kept recordings w) (i : ℕ) (held : (recordings i).digest ∈ w.blobs) :
    Kept recordings (commitRecording recordings w i) := by
  have done : Kept recordings (w.setRecorder i .finished) := kept.setRecorder i fun other => by cases other
  let Was (r : Reaction) : Prop := r ∈ w.archive.db.reactions.rows ∨ ∀ digest ∈ Reaction.digests r, digest = (recordings i).digest
  have rows : ∀ r ∈ ((recordReaction (recordings i).row (recordings i).call).eval w.archive.db).2.reactions.rows, Was r :=
    recordReaction_keeps (P := Was) _ _ (fun metadata => .inr fun digest refers => digests_recorded refers) ⟨w.archive.db, none⟩
      fun r member => .inl member
  unfold commitRecording
  cases ran : (recordReaction (recordings i).row (recordings i).call).eval w.archive.db with
  | mk result db =>
    rw [ran] at rows
    cases result with
    | ok submission =>
      refine ⟨fun r member digest refers => ?_, done.stored, fun j r member digest refers => ?_⟩
      · rcases rows r member with old | fresh
        · exact kept.referenced r old digest refers
        · rw [fresh digest refers]
          exact held
      · rcases rows r member with old | fresh
        · exact (kept.heeds j r old digest refers).imp_left (List.mem_cons_of_mem _)
        · rw [fresh digest refers]
          exact .inl List.mem_cons_self
    | error message =>
      have same := recordReaction_restores _ _ _ _ _ ran
      exact done.withRows fun r member => same ▸ member

theorem record_kept {w : Shared} (kept : Kept recordings w) (i : ℕ) (apart : w.recorders i ≠ .stored true) :
    Kept recordings (record recordings w i) := by
  unfold record
  cases here : w.recorders i with
  | called =>
    dsimp only
    split
    · exact kept.setRecorder i fun other => by cases other
    · exact kept.setRecorder i fun other => by cases other
  | looking =>
    refine kept.setRecorder i fun stored => ?_
    split at stored <;> cases stored
  | found =>
    refine kept.setRecorder i fun stored => ?_
    split at stored
    · assumption
    · cases stored
  | missing =>
    have put : Kept recordings { w with blobs := (recordings i).digest :: w.blobs } :=
      ⟨fun r member digest refers => List.mem_cons_of_mem _ (kept.referenced r member digest refers),
        fun j stored => List.mem_cons_of_mem _ (kept.stored j stored), kept.heeds⟩
    exact put.setRecorder i fun _ => List.mem_cons_self
  | stored removed =>
    cases removed with
    | true => exact absurd here apart
    | false => exact commitRecording_kept kept i (kept.stored i here)
  | finished => exact kept

theorem removeBlob_kept {w : Shared} (kept : Kept recordings w) {digest : String}
    (free : ∀ r ∈ w.archive.db.reactions.rows, digest ∉ Reaction.digests r) :
    Kept recordings (removeBlob recordings w digest) := by
  refine ⟨fun r member other refers => ?_, fun i stored => ?_, kept.heeds⟩
  · refine List.mem_filter.mpr ⟨kept.referenced r member other refers, decide_eq_true ?_⟩
    rintro rfl
    exact free r member refers
  · cases here : w.recorders i with
    | stored removed =>
      simp only [removeBlob, here, RecordingStage.stored.injEq, decide_eq_false_iff_not, not_or,
        Bool.not_eq_true] at stored
      obtain ⟨rfl, other⟩ := stored
      exact List.mem_filter.mpr ⟨kept.stored i here, decide_eq_true other⟩
    | called | looking | found | missing | finished =>
      simp only [removeBlob, here] at stored
      cases stored

theorem spares_garbage {digest : String} {referenced found : List String} (refers : digest ∈ referenced) :
    digest ∉ garbageOf referenced found := by
  intro listed
  rw [garbageOf, List.mem_insertionSort, List.mem_eraseDups, List.mem_filter, decide_eq_true_eq] at listed
  exact listed.2 (List.contains_iff_mem.mpr refers)

theorem listBlob_kept {w : Shared} (kept : Kept recordings w) (i : ℕ) (digest : String) :
    Kept recordings (listBlob w i digest) := by
  unfold listBlob
  split
  · rename_i referenced found here
    split
    · refine kept.setCollector i fun other spares => ?_
      rw [here] at spares
      exact spares
    · exact kept
  · exact kept

variable {collections}

theorem collect_kept {w : Shared} (kept : Kept recordings w) (i : ℕ)
    (current : (w.collectors i).Current) :
    Kept recordings (collect recordings collections w i) := by
  have free : ∀ stage : CollectionStage, (∀ digest, stage.Spares digest) → Kept recordings (w.setCollector i stage) :=
    fun stage spares => kept.setCollector i fun digest _ => spares digest
  have after : Kept recordings (w.setCollector i (afterRetention (collections i))) := by
    refine free _ fun digest => ?_
    unfold afterRetention
    split
    · split <;> trivial
    · trivial
  unfold collect
  cases here : (w.collectors i).stage with
  | called =>
    dsimp only
    split
    · split
      · exact free _ fun _ => trivial
      · exact free _ fun _ => trivial
    · exact free _ fun _ => trivial
  | kept ids =>
    dsimp only
    split
    · split
      · split
        · exact after
        · exact free (.retiring _) fun _ => trivial
      · exact free _ fun _ => trivial
    · exact free _ fun _ => trivial
  | retiring runs =>
    cases runs with
    | nil => exact after
    | cons run rest =>
      dsimp only
      split
      · rename_i ran
        exact (free (.retiring rest) fun _ => trivial).withRows (deleteRun_subset ran)
      · rename_i ran
        exact (free .finished fun _ => trivial).withRows (deleteRun_subset ran)
  | referencing =>
    refine ⟨kept.referenced, kept.stored, fun j => ?_⟩
    change (Function.update w.collectors i ⟨.listing (referencedReactionDigests w.archive.db) [], []⟩ j).Heeds _
    by_cases same : j = i
    · subst same
      rw [Function.update_self]
      exact fun r member digest refers => .inr (mem_referenced.mpr ⟨r, member, refers⟩)
    · rw [Function.update_of_ne same]
      exact kept.heeds j
  | listing referenced found =>
    refine kept.setCollector i fun digest spares => ?_
    rw [here] at spares
    split
    · trivial
    · exact spares_garbage spares
  | deleting digests =>
    cases digests with
    | nil => exact free _ fun _ => trivial
    | cons digest rest =>
      refine kept.setCollector i fun other spares => ?_
      rw [here] at spares
      have apart := not_or.mp fun member => spares (List.mem_cons.mpr member)
      split
      · exact apart
      · exact apart.2
  | verifying digest rest =>
    refine kept.setCollector i fun other spares => ?_
    rw [here] at spares
    split
    · exact spares
    · trivial
  | removing digest rest =>
    dsimp only
    split
    · have unreferenced : ∀ r ∈ w.archive.db.reactions.rows, digest ∉ Reaction.digests r := by
        intro r member refers
        rcases kept.heeds i r member digest refers with since | spares
        · rw [Collector.Current, here] at current
          exact current since
        · rw [here] at spares
          exact spares.1 rfl
      refine (removeBlob_kept kept unreferenced).setCollector i fun other spares => ?_
      change (w.collectors i).stage.Spares other at spares
      rw [here] at spares
      exact spares.2
    · exact free _ fun _ => trivial
  | finished => exact kept

theorem move_kept {w : Shared} (m : Move) (kept : Kept recordings w) (apart : Apart w m) :
    Kept recordings (move recordings collections w m) := by
  cases m with
  | record i => exact record_kept kept i apart
  | collect i => exact collect_kept kept i apart
  | list i digest => exact listBlob_kept kept i digest
  | stopRecording i => exact kept.setRecorder i fun other => by cases other
  | stopCollection i => exact kept.setCollector i fun _ _ => trivial

/-- Nobody has begun. -/
structure Fresh (w : Shared) : Prop where
  recorders : ∀ i, w.recorders i = .called
  collectors : ∀ i, w.collectors i = ⟨.called, []⟩

theorem Fresh.kept {w : Shared} (fresh : Fresh w) (referenced : Referenced w) : Kept recordings w := by
  refine ⟨referenced, fun i stored => ?_, fun i r member digest refers => .inr ?_⟩
  · rw [fresh.recorders i] at stored
    cases stored
  · rw [fresh.collectors i]
    trivial

variable (recordings collections)

theorem collections_keep_references (start : Shared) (moves : List Move) (fresh : Fresh start)
    (referenced : Referenced start) (apart : Along (move recordings collections) Apart start moves) :
    Referenced (Durable.execute (move recordings collections) start moves) :=
  (execute_along (fresh.kept referenced) (fun _ m kept here => move_kept m kept here) apart).referenced

end

/-! One file, recorded while its blob is collected. -/

def openRun : RunRecord := ⟨"run-1", "running", "", {}, 1, "", "2024-01-01", "2024-01-01", "2024-01-01", ""⟩

def openImpulse : Impulse := ⟨"impulse-1", "run-1", "signal", .printed (.obj []), .printed (.obj []), "2024-01-01", "2024-01-01"⟩

def emptyFile : Recording where
  digest := someDigest
  id := "reaction-1"
  runId := "run-1"
  impulseId := "impulse-1"
  kind := "artifact"
  mediaType := "text/plain"
  sizeBytes := 0
  metadata := .printed (.obj [])
  timestamp := "2024-01-01"

/-- A blob that no reaction refers to, and a run that may come to record it. -/
def orphaned : Shared where
  archive := ⟨{ Database.empty with runs := ⟨[openRun], by simp⟩, impulses := ⟨[openImpulse], by simp⟩ }, .empty⟩
  blobs := [someDigest]
  recorders _ := .called
  collectors _ := ⟨.called, []⟩

def collectGarbage : Collection := ⟨twoDates, none, false⟩

/-- Every recording is one of the empty file. -/
def stepped (moves : List Move) : Shared := Durable.execute (move (fun _ => emptyFile) fun _ => collectGarbage) orphaned moves

/-- The collection reads the references, the file is recorded, and its blob is removed. -/
def overlapping : List Move :=
  [.collect 0, .collect 0, .record 0, .record 0, .record 0, .record 0, .list 0 someDigest, .collect 0, .collect 0,
    .collect 0, .collect 0]

theorem stepped_overlapping :
    (stepped overlapping).archive.db.reactions.rows = [emptyFile.row] ∧ (stepped overlapping).blobs = [] := by
  decide +kernel

theorem orphaned_fresh : Fresh orphaned := ⟨fun _ => rfl, fun _ => rfl⟩

theorem orphaned_referenced : Referenced orphaned := fun _ member => absurd member List.not_mem_nil

/-- One after the other, the two do no harm. -/
theorem collections_keep_references_in_turn :
    Referenced (stepped [.record 0, .record 0, .record 0, .record 0, .collect 0, .collect 0, .list 0 someDigest, .collect 0]) :=
  collections_keep_references _ _ orphaned _ orphaned_fresh orphaned_referenced (by decide +kernel)

/-- The row was committed, and its blob is gone. -/
theorem overlapping_dangles : Fresh orphaned ∧ Referenced orphaned ∧ ¬ Referenced (stepped overlapping) := by
  refine ⟨orphaned_fresh, orphaned_referenced, fun referenced => ?_⟩
  obtain ⟨rows, blobs⟩ := stepped_overlapping
  have refers : someDigest ∈ Reaction.digests emptyFile.row := by decide +kernel
  have held := referenced emptyFile.row (by rw [rows]; exact List.mem_singleton_self _) someDigest refers
  rw [blobs] at held
  cases held

end Fala.Domain
