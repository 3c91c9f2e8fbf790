import Fala.Domain.Retained
import Mathlib.Algebra.Order.Ring.Unbundled.Rat
import Mathlib.Data.String.Basic

/-! A maintenance call and its dry run. -/

namespace Fala.Domain
open Durable

/-! The recent runs. -/

theorem dayBelow_trans {first second third : Option Rat} (one : dayBelow first second = true)
    (two : dayBelow second third = true) : dayBelow first third = true := by
  cases third with
  | none => cases second <;> simp [dayBelow] at two
  | some high =>
    cases first with
    | none => rfl
    | some low =>
      cases second with
      | none => simp [dayBelow] at one
      | some middle =>
        have lower : low < middle := of_decide_eq_true one
        have upper : middle < high := of_decide_eq_true two
        exact decide_eq_true (lower.trans upper)

theorem dayBelow_total (left right : Option Rat) :
    dayBelow left right = true ∨ left = right ∨ dayBelow right left = true := by
  cases left with
  | none => cases right <;> simp [dayBelow]
  | some day =>
    cases right with
    | none => simp [dayBelow]
    | some other =>
      rcases lt_trichotomy day other with below | same | above
      · exact .inl (decide_eq_true below)
      · exact .inr (.inl (congrArg some same))
      · exact .inr (.inr (decide_eq_true above))

section
variable (clock : Clock)

theorem recentFirst_iff {left right : RunRecord} : recentFirst clock left right = true ↔
    dayBelow (finishedDay clock right) (finishedDay clock left) = true ∨
      (finishedDay clock right = finishedDay clock left ∧ right.id ≤ left.id) := by
  rw [recentFirst, decide_eq_true_eq]

instance recentFirst_total : Std.Total fun left right => recentFirst clock left right = true where
  total left right := by
    rw [recentFirst_iff, recentFirst_iff]
    rcases dayBelow_total (finishedDay clock right) (finishedDay clock left) with below | same | above
    · exact .inl (.inl below)
    · rcases le_total right.id left.id with lower | higher
      · exact .inl (.inr ⟨same, lower⟩)
      · exact .inr (.inr ⟨same.symm, higher⟩)
    · exact .inr (.inl above)

instance recentFirst_trans : IsTrans RunRecord fun left right => recentFirst clock left right = true where
  trans first second third one two := by
    rw [recentFirst_iff] at one two ⊢
    rcases one with one | ⟨same, lower⟩
    · rcases two with two | ⟨same', -⟩
      · exact .inl (dayBelow_trans two one)
      · rw [← same'] at one
        exact .inl one
    · rcases two with two | ⟨same', lower'⟩
      · rw [same] at two
        exact .inl two
      · exact .inr ⟨same'.trans same, lower'.trans lower⟩

theorem keepEach_take (keepLast : Int) (runs : List RunRecord) (kept : List String) :
    keepEach keepLast runs kept =
      kept ++ ((runs.filter fun run => isTerminal run).map RunRecord.id).take (keepLast - kept.length).toNat := by
  induction runs generalizing kept with
  | nil => simp [keepEach]
  | cons run rest ih =>
    rw [keepEach]
    by_cases room : (kept.length : Int) < keepLast
    · rw [if_pos room]
      by_cases terminal : isTerminal run = true
      · have one : (keepLast - kept.length).toNat = (keepLast - (kept ++ [run.id]).length).toNat + 1 := by
          rw [List.length_append, List.length_singleton]
          omega
        rw [if_pos terminal, ih, one, List.filter_cons_of_pos terminal, List.map_cons, List.take_succ_cons,
          List.append_assoc, List.singleton_append]
      · rw [if_neg terminal, ih, List.filter_cons_of_neg terminal]
    · have none : (keepLast - kept.length).toNat = 0 := by omega
      rw [if_neg room, none, List.take_zero, List.append_nil]

/-- How many terminal runs finished more recently. -/
def rank (db : Database) (run : RunRecord) : Nat :=
  db.runs.rows.countP fun other => isTerminal other ∧ other.id ≠ run.id ∧ recentFirst clock other run

theorem rank_of_unkept {keepLast : Int} {db : Database} {run : RunRecord} (member : run ∈ db.runs.rows)
    (terminal : isTerminal run = true) (unkept : run.id ∉ keepRunIds clock keepLast db) :
    keepLast ≤ rank clock db run := by
  by_cases positive : 0 < keepLast
  swap
  · omega
  let recent := db.runs.rows.insertionSort fun left right => recentFirst clock left right
  let finished := recent.filter fun run => isTerminal run
  have permuted : recent.Perm db.runs.rows := List.perm_insertionSort _ _
  have sorted : finished.Pairwise fun left right => recentFirst clock left right = true :=
    (List.pairwise_insertionSort _ _).filter _
  have listed : run ∈ finished := List.mem_filter.mpr ⟨permuted.mem_iff.mpr member, terminal⟩
  have kept : keepRunIds clock keepLast db = (finished.take keepLast.toNat).map RunRecord.id := by
    rw [keepRunIds, if_pos positive, keepEach_take, List.nil_append, List.length_nil, Int.natCast_zero, Int.sub_zero,
      List.map_take]
  rw [kept] at unkept
  have later : run ∈ finished.drop keepLast.toNat := by
    rw [← List.take_append_drop keepLast.toNat finished, List.mem_append] at listed
    rcases listed with early | late
    · exact absurd (List.mem_map_of_mem early) unkept
    · exact late
  have full : (finished.take keepLast.toNat).length = keepLast.toNat := by
    rw [List.length_take]
    have some := List.length_pos_of_mem later
    rw [List.length_drop] at some
    omega
  have before : ∀ other ∈ finished.take keepLast.toNat, recentFirst clock other run = true := by
    rw [← List.take_append_drop keepLast.toNat finished, List.pairwise_append] at sorted
    exact fun other early => sorted.2.2 other early run later
  have once : (finished.take keepLast.toNat).Nodup := by
    have distinct : recent.Nodup := permuted.nodup_iff.mpr (List.Nodup.of_map _ db.runs.distinct)
    exact (distinct.filter _).sublist (List.take_sublist _ _)
  have within : finished.take keepLast.toNat ⊆ db.runs.rows.filter fun other =>
      isTerminal other ∧ other.id ≠ run.id ∧ recentFirst clock other run := by
    intro other early
    obtain ⟨held, done⟩ := List.mem_filter.mp (List.mem_of_mem_take early)
    rw [List.mem_filter, decide_eq_true_eq]
    refine ⟨permuted.mem_iff.mp held, done, ?_, before other early⟩
    intro same
    exact unkept (same ▸ List.mem_map_of_mem early)
  have counted := (List.subperm_of_subset once within).length_le
  rw [full, ← List.countP_eq_length_filter] at counted
  rw [rank]
  omega

end

/-! The candidates of a call. -/

section
variable (clock : Clock) (c : MaintenanceCall)

/-- The arguments are ones that a call goes on with. -/
def Admitted : Prop :=
  0 ≤ c.olderThanDays ∧ -1 ≤ c.keepLast ∧ clock.daysAgo c.olderThanDays ≠ "" ∧
    (clock.julianday (clock.daysAgo c.olderThanDays)).isSome

/-- The runs that a call deletes. -/
def expired (db : Database) (run : RunRecord) : Bool :=
  strictlyOlder clock run (clock.daysAgo c.olderThanDays) ∧ isTerminal run ∧
    ¬ (keepRunIds clock c.keepLast db).contains run.id

def expiredIds (db : Database) : List String := (db.runs.rows.filter fun run => expired clock c db run).map RunRecord.id

theorem retentionCandidates_ok (db : Database) (admitted : Admitted clock c) :
    ∃ runs, retentionCandidates clock (clock.daysAgo c.olderThanDays) [] (keepRunIds clock c.keepLast db) db = .ok runs ∧
      runs.Perm (db.runs.rows.filter fun run => expired clock c db run) := by
  obtain ⟨-, -, given, valid⟩ := admitted
  let old := (db.runs.rows.filter fun run => strictlyOlder clock run (clock.daysAgo c.olderThanDays)).insertionSort
    fun left right => left.createdAt < right.createdAt ∨ (left.createdAt = right.createdAt ∧ left.id ≤ right.id)
  refine ⟨old.filter fun run => defaultRetentionStatuses.contains run.status ∧
    ¬ (keepRunIds clock c.keepLast db).contains run.id, ?_, ?_⟩
  · have allowed : (defaultRetentionStatuses.all defaultRetentionStatuses.contains) = true := by decide
    simp only [retentionCandidates, Schema.ensure, List.isEmpty_nil, if_true, allowed, decide_eq_true given, valid]
    rfl
  · refine ((List.perm_insertionSort _ _).filter _).trans ?_
    rw [List.filter_filter]
    apply List.Perm.of_eq
    apply List.filter_congr
    intro run _
    rw [expired, isTerminal]
    simp only [Bool.decide_and, Bool.decide_eq_true]
    rw [Bool.and_comm]

theorem retentionCandidates_error (db : Database) (signed : 0 ≤ c.olderThanDays ∧ -1 ≤ c.keepLast)
    (refused : ¬ Admitted clock c) :
    ∃ message, retentionCandidates clock (clock.daysAgo c.olderThanDays) [] (keepRunIds clock c.keepLast db) db =
      .error message := by
  by_cases given : clock.daysAgo c.olderThanDays = ""
  · refine ⟨retentionBeforeEmpty, ?_⟩
    rw [retentionCandidates, Schema.ensure, if_neg (by simp [given])]
    rfl
  · have invalid : ¬ (clock.julianday (clock.daysAgo c.olderThanDays)).isSome = true :=
      fun valid => refused ⟨signed.1, signed.2, given, valid⟩
    refine ⟨retentionBeforeInvalid, ?_⟩
    rw [retentionCandidates, Schema.ensure, Schema.ensure, if_pos (decide_eq_true given), if_neg invalid]
    rfl

/-! The collection. -/

theorem readStore_goes {α β : Type} (f : JournalStore → α) (g : α → Session JournalStore β) (s : JournalStore) :
    (readStore (fun s => .ok (f s)) >>= g) s = g (f s) s := rfl

theorem mem_referenced {db : Database} {digest : String} :
    digest ∈ referencedReactionDigests db ↔ ∃ r ∈ db.reactions.rows, digest ∈ Reaction.digests r := by
  rw [referencedReactionDigests, List.mem_eraseDups, List.mem_flatMap]
  constructor
  · rintro ⟨r, member, refers⟩
    exact ⟨r, List.mem_insertionSort _ |>.mp member, refers⟩
  · rintro ⟨r, member, refers⟩
    exact ⟨r, List.mem_insertionSort _ |>.mpr member, refers⟩

/-- The store can be read through. -/
def Readable (s : JournalStore) : Prop := s.opens = true ∧ ∀ b ∈ s.blobs.rows, b.intact = true

/-- The blobs that nothing refers to, in their normal order. -/
def garbage (s : JournalStore) : List Blob :=
  (s.blobs.rows.insertionSort fun left right => left.digest ≤ right.digest).filter fun b =>
    ¬ (referencedReactionDigests s.archive.db).contains b.digest

theorem garbage_perm (s : JournalStore) :
    (garbage s).Perm (s.blobs.rows.filter fun b => b.digest ∉ referencedReactionDigests s.archive.db) := by
  have same : garbage s = (s.blobs.rows.insertionSort fun left right => left.digest ≤ right.digest).filter fun b =>
      b.digest ∉ referencedReactionDigests s.archive.db := by
    apply List.filter_congr
    intro b _
    simp
  rw [same]
  exact (List.perm_insertionSort _ _).filter _

theorem listBlobs_ok {s : JournalStore} (readable : Readable s) :
    listBlobs s = .ok (s.blobs.rows.insertionSort fun left right => left.digest ≤ right.digest) := by
  obtain ⟨opens, intact⟩ := readable
  have whole : (s.blobs.rows.all fun b => b.intact) = true := List.all_eq_true.mpr intact
  simp only [listBlobs, Schema.ensure, opens, whole, if_true]
  rfl

theorem listBlobs_error {s : JournalStore} (unreadable : ¬ Readable s) : ∃ message, listBlobs s = .error message := by
  by_cases opens : s.opens = true
  · have broken : ¬ (s.blobs.rows.all fun b => b.intact) = true :=
      fun whole => unreadable ⟨opens, List.all_eq_true.mp whole⟩
    refine ⟨blobMismatch, ?_⟩
    simp only [listBlobs, Schema.ensure, if_pos opens, if_neg broken]
    rfl
  · refine ⟨"reaction root cannot be opened", ?_⟩
    simp only [listBlobs, Schema.ensure, if_neg opens]
    rfl

/-- What a collection says that it deletes. -/
structure Lists (plan : ReactionGarbageCollectionPlan) (s : JournalStore) : Prop where
  candidates : plan.candidates = (garbage s).map Blob.digest
  bytes : plan.bytesReclaimable = totalSize (garbage s)

theorem collectBlobs_plans {s : JournalStore} (root : String) (readable : Readable s) :
    ∃ plan, collectBlobs root true s = (.ok plan, s) ∧ Lists plan s := by
  let blobs := s.blobs.rows.insertionSort fun left right => left.digest ≤ right.digest
  let referenced := referencedReactionDigests s.archive.db
  refine ⟨collectionPlan root true referenced blobs (garbage s) [], ?_, rfl, rfl⟩
  refine Session.bind_ok.mpr ⟨referenced, s, rfl, ?_⟩
  refine Session.bind_ok.mpr ⟨blobs, s, by rw [readStore, listBlobs_ok readable], ?_⟩
  exact Session.bind_ok.mpr ⟨[], s, rfl, rfl⟩

theorem collectBlobs_collects {s : JournalStore} (root : String) (readable : Readable s) :
    ∃ plan s', collectBlobs root false s = (.ok plan, s') ∧ s'.archive = s.archive ∧
      ∀ b, b ∈ s'.blobs.rows ↔ b ∈ s.blobs.rows ∧ b.digest ∈ referencedReactionDigests s.archive.db := by
  obtain ⟨deleted, left, ends, same, blobs⟩ := @deleteBlobs_returns ((garbage s).map Blob.digest) s readable.2
  let listed := s.blobs.rows.insertionSort fun left right => left.digest ≤ right.digest
  let referenced := referencedReactionDigests s.archive.db
  refine ⟨collectionPlan root false referenced listed (garbage s) deleted, left, ?_, same, fun b => ?_⟩
  · refine Session.bind_ok.mpr ⟨referenced, s, rfl, ?_⟩
    refine Session.bind_ok.mpr ⟨listed, s, by rw [readStore, listBlobs_ok readable], ?_⟩
    exact Session.bind_ok.mpr ⟨deleted, left, ends, rfl⟩
  · rw [blobs]
    apply and_congr_right
    intro member
    have listed : b.digest ∈ (garbage s).map Blob.digest ↔ b.digest ∉ referencedReactionDigests s.archive.db := by
      rw [List.mem_map]
      constructor
      · rintro ⟨other, held, same⟩
        have outside := of_decide_eq_true (List.mem_filter.mp ((garbage_perm s).mem_iff.mp held)).2
        rwa [same] at outside
      · intro outside
        exact ⟨b, (garbage_perm s).mem_iff.mpr (List.mem_filter.mpr ⟨member, decide_eq_true outside⟩), rfl⟩
    rw [listed, Decidable.not_not]

theorem collectBlobs_error {s : JournalStore} (root : String) (dryRun : Bool) (unreadable : ¬ Readable s) :
    ∃ message, collectBlobs root dryRun s = (.error message, s) := by
  obtain ⟨message, raised⟩ := listBlobs_error unreadable
  refine ⟨message, ?_⟩
  refine (readStore_goes _ _ _).trans ?_
  exact Session.bind_raised (by rw [readStore, raised])

/-! A call. -/

theorem runRetention_plans {s : JournalStore} (admitted : Admitted clock c) :
    ∃ plan, runRetention clock (clock.daysAgo c.olderThanDays) [] true (keepRunIds clock c.keepLast s.archive.db) s =
      (.ok plan, s) ∧ plan.runIds.Perm (expiredIds clock c s.archive.db) := by
  obtain ⟨runs, chosen, permuted⟩ := retentionCandidates_ok clock c s.archive.db admitted
  obtain ⟨items, ends, same⟩ := retireEach_plans runs s
  refine ⟨⟨true, clock.daysAgo c.olderThanDays, items⟩, ?_, ?_⟩
  · refine Session.bind_ok.mpr ⟨runs, s, by rw [readStore, chosen], ?_⟩
    exact Session.bind_ok.mpr ⟨items, s, ends, rfl⟩
  · have listed : items.map (fun item => item.run.id) = runs.map RunRecord.id := by
      rw [← same, List.map_map]
      rfl
    rw [RunRetentionPlan.runIds, listed]
    exact permuted.map _

theorem runRetention_retires {s : JournalStore} (admitted : Admitted clock c)
    (named : ∀ run ∈ s.archive.db.runs.rows, run.id ≠ "") :
    ∃ plan s', runRetention clock (clock.daysAgo c.olderThanDays) [] false (keepRunIds clock c.keepLast s.archive.db) s =
      (.ok plan, s') ∧ Retired (expiredIds clock c s.archive.db) s s' := by
  obtain ⟨runs, chosen, permuted⟩ := retentionCandidates_ok clock c s.archive.db admitted
  have known : ∀ run ∈ runs, run ∈ s.archive.db.runs.rows :=
    fun run member => List.mem_of_mem_filter (permuted.mem_iff.mp member)
  have distinct : (runs.map RunRecord.id).Nodup :=
    (permuted.map _).nodup_iff.mpr (s.archive.db.runs.distinct.sublist (List.filter_sublist.map _))
  obtain ⟨items, left, ends, -, retired⟩ := retireEach_retires distinct known fun run member => named run (known run member)
  refine ⟨⟨false, clock.daysAgo c.olderThanDays, items⟩, left, ?_, retired.blobs, retired.opens, fun t row => ?_⟩
  · refine Session.bind_ok.mpr ⟨runs, s, by rw [readStore, chosen], ?_⟩
    exact Session.bind_ok.mpr ⟨items, left, ends, rfl⟩
  · rw [retired.rows t row, expiredIds, (permuted.map RunRecord.id).mem_iff]

theorem runRetention_error {s : JournalStore} (dryRun : Bool) (signed : 0 ≤ c.olderThanDays ∧ -1 ≤ c.keepLast)
    (refused : ¬ Admitted clock c) :
    ∃ message, runRetention clock (clock.daysAgo c.olderThanDays) [] dryRun (keepRunIds clock c.keepLast s.archive.db) s =
      (.error message, s) := by
  obtain ⟨message, raised⟩ := retentionCandidates_error clock c s.archive.db signed refused
  exact ⟨message, Session.bind_raised (by rw [readStore, raised])⟩

theorem maintainJournal_refused {s : JournalStore} (dryRun : Bool) (refused : ¬ Admitted clock c) :
    ∃ message, maintainJournal clock c dryRun s = (.error message, s) := by
  by_cases old : 0 ≤ c.olderThanDays
  swap
  · refine ⟨"domain store: older_than_days must be non-negative", Session.bind_raised ?_⟩
    rw [Session.require, decide_eq_false old]
    rfl
  have first : (Session.require (0 ≤ c.olderThanDays) "domain store: older_than_days must be non-negative" :
      Session JournalStore Unit) s = (.ok (), s) := Session.require_ok.mpr ⟨decide_eq_true old, rfl⟩
  by_cases keep : -1 ≤ c.keepLast
  swap
  · refine ⟨"domain store: keep_last must be non-negative", (Session.bind_returned first).trans (Session.bind_raised ?_)⟩
    rw [Session.require, decide_eq_false keep]
    rfl
  have second : (Session.require (-1 ≤ c.keepLast) "domain store: keep_last must be non-negative" :
      Session JournalStore Unit) s = (.ok (), s) := Session.require_ok.mpr ⟨decide_eq_true keep, rfl⟩
  obtain ⟨message, raised⟩ := runRetention_error clock c (s := s) dryRun ⟨old, keep⟩ refused
  refine ⟨message, (Session.bind_returned first).trans ((Session.bind_returned second).trans ?_)⟩
  exact (readStore_goes _ _ _).trans (Session.bind_raised raised)

theorem maintainJournal_goes {s s' : JournalStore} {dryRun : Bool} {retention : RunRetentionPlan}
    (admitted : Admitted clock c)
    (returned : runRetention clock (clock.daysAgo c.olderThanDays) [] dryRun (keepRunIds clock c.keepLast s.archive.db) s =
      (.ok retention, s')) :
    maintainJournal clock c dryRun s =
      (maintainBlobs c.reactionRoot dryRun >>= fun reactionGc =>
        (pure ⟨dryRun, clock.daysAgo c.olderThanDays, retention, reactionGc, c.vacuum ∧ ¬ dryRun⟩ :
          Session JournalStore JournalMaintenancePlan)) s' := by
  have first : (Session.require (0 ≤ c.olderThanDays) "domain store: older_than_days must be non-negative" :
      Session JournalStore Unit) s = (.ok (), s) := Session.require_ok.mpr ⟨decide_eq_true admitted.1, rfl⟩
  have second : (Session.require (-1 ≤ c.keepLast) "domain store: keep_last must be non-negative" :
      Session JournalStore Unit) s = (.ok (), s) := Session.require_ok.mpr ⟨decide_eq_true admitted.2.1, rfl⟩
  refine (Session.bind_returned first).trans ((Session.bind_returned second).trans ?_)
  exact (readStore_goes _ _ _).trans (Session.bind_returned returned)

/-- The run of a reaction outlives the call. -/
def Outlives (db : Database) (r : Reaction) : Prop := r.runId ∉ expiredIds clock c db

theorem maintainBlobs_error {s : JournalStore} (dryRun : Bool) (rooted : c.reactionRoot ≠ "") (unreadable : ¬ Readable s) :
    ∃ message, maintainBlobs c.reactionRoot dryRun s = (.error message, s) := by
  obtain ⟨message, raised⟩ := collectBlobs_error c.reactionRoot dryRun unreadable
  refine ⟨collectionFailed message, ?_⟩
  rw [maintainBlobs, if_neg rooted, Session.handle, raised]
  rfl

theorem maintainJournal_plans {s : JournalStore} (admitted : Admitted clock c)
    (readable : c.reactionRoot ≠ "" → Readable s) :
    ∃ plan, maintainJournal clock c true s = (.ok plan, s) ∧
      plan.retention.runIds.Perm (expiredIds clock c s.archive.db) ∧
      (c.reactionRoot = "" → plan.reactionGc.candidates = [] ∧ plan.reactionGc.bytesReclaimable = 0) ∧
      (c.reactionRoot ≠ "" → Lists plan.reactionGc s) := by
  obtain ⟨retention, returned, listed⟩ := runRetention_plans clock c (s := s) admitted
  rw [maintainJournal_goes clock c admitted returned]
  by_cases rooted : c.reactionRoot = ""
  · refine ⟨⟨true, clock.daysAgo c.olderThanDays, retention, { dryRun := true, reactionRoot := "" }, c.vacuum ∧ ¬ true⟩, ?_, listed,
      fun _ => ⟨rfl, rfl⟩, fun other => absurd rooted other⟩
    exact Session.bind_ok.mpr ⟨_, s, by rw [maintainBlobs, if_pos rooted]; rfl, rfl⟩
  · obtain ⟨collection, ends, lists⟩ := collectBlobs_plans c.reactionRoot (readable rooted)
    refine ⟨⟨true, clock.daysAgo c.olderThanDays, retention, collection, c.vacuum ∧ ¬ true⟩, ?_, listed, fun other => absurd other rooted,
      fun _ => lists⟩
    exact Session.bind_ok.mpr ⟨collection, s, by rw [maintainBlobs, if_neg rooted, Session.handle, ends], rfl⟩

theorem maintainJournal_deletes {s : JournalStore} (admitted : Admitted clock c)
    (readable : c.reactionRoot ≠ "" → Readable s) (named : ∀ run ∈ s.archive.db.runs.rows, run.id ≠ "") :
    let after := (maintainJournal clock c false s).2
    (∀ t row, row ∈ after.archive.db.rowsOf t ↔
      row ∈ s.archive.db.rowsOf t ∧ t.runOf row ∉ expiredIds clock c s.archive.db) ∧
      ∀ b, b ∈ after.blobs.rows ↔
        b ∈ s.blobs.rows ∧ (c.reactionRoot = "" ∨ b.digest ∈ referencedReactionDigests after.archive.db) := by
  obtain ⟨retention, middle, returned, retired⟩ := runRetention_retires clock c admitted named
  dsimp only
  rw [maintainJournal_goes clock c admitted returned]
  by_cases rooted : c.reactionRoot = ""
  · have ends : maintainBlobs c.reactionRoot false middle = (.ok { dryRun := false, reactionRoot := "" }, middle) := by
      rw [maintainBlobs, if_pos rooted]
      rfl
    rw [Session.bind_returned ends]
    exact ⟨retired.rows, fun b => by
      change b ∈ middle.blobs.rows ↔ _
      rw [retired.blobs]
      exact ⟨fun held => ⟨held, .inl rooted⟩, fun held => held.1⟩⟩
  · have same : Readable middle := by
      obtain ⟨opens, intact⟩ := readable rooted
      exact ⟨retired.opens.trans opens, retired.blobs ▸ intact⟩
    obtain ⟨collection, left, ends, archive, blobs⟩ := collectBlobs_collects c.reactionRoot same
    have ends : maintainBlobs c.reactionRoot false middle = (.ok collection, left) := by
      rw [maintainBlobs, if_neg rooted, Session.handle, ends]
    rw [Session.bind_returned ends]
    refine ⟨fun t row => ?_, fun b => ?_⟩
    · change row ∈ left.archive.db.rowsOf t ↔ _
      rw [archive, retired.rows]
    · change b ∈ left.blobs.rows ↔ b ∈ s.blobs.rows ∧ (_ ∨ _ ∈ referencedReactionDigests left.archive.db)
      rw [blobs, archive, retired.blobs]
      simp only [rooted, false_or]

theorem maintainJournal_unreadable {s : JournalStore} (admitted : Admitted clock c) (rooted : c.reactionRoot ≠ "")
    (unreadable : ¬ Readable s) (named : ∀ run ∈ s.archive.db.runs.rows, run.id ≠ "") :
    (∃ message, maintainJournal clock c true s = (.error message, s)) ∧
      Retired (expiredIds clock c s.archive.db) s (maintainJournal clock c false s).2 := by
  constructor
  · obtain ⟨retention, returned, -⟩ := runRetention_plans clock c (s := s) admitted
    obtain ⟨message, raised⟩ := maintainBlobs_error c true rooted unreadable
    rw [maintainJournal_goes clock c admitted returned]
    exact ⟨message, Session.bind_raised raised⟩
  · obtain ⟨retention, middle, returned, retired⟩ := runRetention_retires clock c admitted named
    have still : ¬ Readable middle := by
      rintro ⟨opens, intact⟩
      exact unreadable ⟨retired.opens ▸ opens, retired.blobs ▸ intact⟩
    obtain ⟨message, raised⟩ := maintainBlobs_error c false rooted still
    rw [maintainJournal_goes clock c admitted returned, Session.bind_raised raised]
    exact retired

/-! A call and its dry run on the same state. -/

def lostIds (s after : JournalStore) : List String :=
  (s.archive.db.runs.rows.filter fun run => run ∉ after.archive.db.runs.rows).map RunRecord.id

def lostBlobs (s after : JournalStore) : List Blob := s.blobs.rows.filter fun b => b ∉ after.blobs.rows

/-- The call deletes what it may, and its dry run changes nothing and lists what the call deletes. -/
structure Planned (s : JournalStore) : Prop where
  old : ∀ run ∈ s.archive.db.runs.rows, run ∉ (maintainJournal clock c false s).2.archive.db.runs.rows →
    isTerminal run = true ∧ strictlyOlder clock run (clock.daysAgo c.olderThanDays) = true ∧
      c.keepLast ≤ rank clock s.archive.db run
  dry : (maintainJournal clock c true s).2 = s
  runs : ∀ plan, (maintainJournal clock c true s).1 = .ok plan →
    plan.retention.runIds.Perm (lostIds s (maintainJournal clock c false s).2)
  blobs : ∀ plan, (maintainJournal clock c true s).1 = .ok plan →
    plan.reactionGc.candidates.Perm ((lostBlobs s (maintainJournal clock c false s).2).map Blob.digest)
  bytes : ∀ plan, (maintainJournal clock c true s).1 = .ok plan →
    plan.reactionGc.bytesReclaimable = totalSize (lostBlobs s (maintainJournal clock c false s).2)
  nothing : ∀ message, (maintainJournal clock c true s).1 = .error message →
    lostIds s (maintainJournal clock c false s).2 = [] ∧ lostBlobs s (maintainJournal clock c false s).2 = []

/-- No blob loses its last reference to the retention, and where the store cannot be read through there is nothing
    to retire. -/
structure Separate (s : JournalStore) : Prop where
  references : Admitted clock c → c.reactionRoot ≠ "" → Readable s → ∀ b ∈ s.blobs.rows,
    ∀ r ∈ s.archive.db.reactions.rows, b.digest ∈ Reaction.digests r →
      ∃ r' ∈ s.archive.db.reactions.rows, b.digest ∈ Reaction.digests r' ∧ Outlives clock c s.archive.db r'
  readable : Admitted clock c → c.reactionRoot ≠ "" → ¬ Readable s → expiredIds clock c s.archive.db = []

variable {clock c}

theorem mem_expiredIds {db : Database} {run : RunRecord} (member : run ∈ db.runs.rows) :
    run.id ∈ expiredIds clock c db ↔ expired clock c db run = true := by
  rw [expiredIds, List.mem_map]
  constructor
  · rintro ⟨other, held, same⟩
    obtain ⟨listed, old⟩ := List.mem_filter.mp held
    have one := Table.find?_some.mpr ⟨listed, same⟩
    have two : db.runs.find? run.id = some run := Table.find?_some.mpr ⟨member, rfl⟩
    obtain rfl : other = run := Option.some.inj (one.symm.trans two)
    exact old
  · intro old
    exact ⟨run, List.mem_filter.mpr ⟨member, old⟩, rfl⟩

theorem lostIds_of_rows {s after : JournalStore} (rows : ∀ t row, row ∈ after.archive.db.rowsOf t ↔
    row ∈ s.archive.db.rowsOf t ∧ t.runOf row ∉ expiredIds clock c s.archive.db) :
    lostIds s after = expiredIds clock c s.archive.db := by
  rw [lostIds, expiredIds]
  apply congrArg
  apply List.filter_congr
  intro run member
  have same := rows .runs run
  have gone : run ∉ after.archive.db.runs.rows ↔ expired clock c s.archive.db run = true := by
    rw [← mem_expiredIds member]
    constructor
    · intro outside
      by_contra kept
      exact outside (same.mpr ⟨member, kept⟩)
    · intro old held
      exact (same.mp held).2 old
  apply Bool.eq_iff_iff.mpr
  rw [decide_eq_true_eq]
  exact gone

theorem mem_lostBlobs {s after : JournalStore} {b : Blob} :
    b ∈ lostBlobs s after ↔ b ∈ s.blobs.rows ∧ b ∉ after.blobs.rows := by
  rw [lostBlobs, List.mem_filter, decide_eq_true_eq]

theorem lostBlobs_none {s after : JournalStore} (kept : ∀ b ∈ s.blobs.rows, b ∈ after.blobs.rows) :
    lostBlobs s after = [] := by
  apply List.filter_eq_nil_iff.mpr
  intro b member lost
  exact of_decide_eq_true lost (kept b member)

theorem lostIds_same (s : JournalStore) : lostIds s s = [] := by
  rw [lostIds, List.map_eq_nil_iff, List.filter_eq_nil_iff]
  intro run member lost
  exact of_decide_eq_true lost member

theorem referenced_after {s after : JournalStore} (rows : ∀ t row, row ∈ after.archive.db.rowsOf t ↔
    row ∈ s.archive.db.rowsOf t ∧ t.runOf row ∉ expiredIds clock c s.archive.db) {digest : String} :
    digest ∈ referencedReactionDigests after.archive.db ↔
      ∃ r ∈ s.archive.db.reactions.rows, digest ∈ Reaction.digests r ∧ Outlives clock c s.archive.db r := by
  rw [mem_referenced]
  constructor
  · rintro ⟨r, held, refers⟩
    obtain ⟨member, outlives⟩ := (rows .reactions r).mp held
    exact ⟨r, member, refers, outlives⟩
  · rintro ⟨r, member, refers, outlives⟩
    exact ⟨r, (rows .reactions r).mpr ⟨member, outlives⟩, refers⟩

theorem old_of_rows {s after : JournalStore} (rows : ∀ t row, row ∈ after.archive.db.rowsOf t ↔
    row ∈ s.archive.db.rowsOf t ∧ t.runOf row ∉ expiredIds clock c s.archive.db) {run : RunRecord}
    (member : run ∈ s.archive.db.runs.rows) (lost : run ∉ after.archive.db.runs.rows) :
    isTerminal run = true ∧ strictlyOlder clock run (clock.daysAgo c.olderThanDays) = true ∧
      c.keepLast ≤ rank clock s.archive.db run := by
  have listed : run.id ∈ expiredIds clock c s.archive.db := by
    by_contra kept
    exact lost ((rows .runs run).mpr ⟨member, kept⟩)
  have old := (mem_expiredIds member).mp listed
  rw [expired, decide_eq_true_eq] at old
  obtain ⟨older, terminal, unkept⟩ := old
  refine ⟨terminal, older, rank_of_unkept clock member terminal ?_⟩
  intro kept
  exact unkept (List.contains_iff_mem.mpr kept)

theorem planned_of_refused {s : JournalStore} (refused : ¬ Admitted clock c) : Planned clock c s := by
  obtain ⟨message, dry⟩ := maintainJournal_refused clock c (s := s) true refused
  obtain ⟨message', real⟩ := maintainJournal_refused clock c (s := s) false refused
  have never : ∀ plan, (maintainJournal clock c true s).1 ≠ .ok plan := by
    rw [dry]
    exact fun plan returned => by cases returned
  refine ⟨?_, by rw [dry], fun plan returned => absurd returned (never plan), fun plan returned => absurd returned (never plan),
    fun plan returned => absurd returned (never plan), ?_⟩
  · rw [real]
    exact fun run member lost => absurd member lost
  · rw [real]
    exact fun _ _ => ⟨lostIds_same s, lostBlobs_none fun _ member => member⟩

theorem planned_of_unreadable {s : JournalStore} (admitted : Admitted clock c) (rooted : c.reactionRoot ≠ "")
    (unreadable : ¬ Readable s) (named : ∀ run ∈ s.archive.db.runs.rows, run.id ≠ "") :
    Planned clock c s ↔ expiredIds clock c s.archive.db = [] := by
  obtain ⟨⟨message, dry⟩, retired⟩ := maintainJournal_unreadable clock c admitted rooted unreadable named
  have lost := lostIds_of_rows retired.rows
  constructor
  · intro planned
    rw [← lost]
    exact (planned.nothing message (by rw [dry])).1
  · intro none
    have never : ∀ plan, (maintainJournal clock c true s).1 ≠ .ok plan := by
      rw [dry]
      exact fun plan returned => by cases returned
    refine ⟨fun run => old_of_rows retired.rows, by rw [dry], fun plan returned => absurd returned (never plan),
      fun plan returned => absurd returned (never plan), fun plan returned => absurd returned (never plan), ?_⟩
    intro _ _
    exact ⟨lost.trans none, lostBlobs_none fun b member => retired.blobs ▸ member⟩

theorem planned_of_readable {s : JournalStore} (admitted : Admitted clock c) (readable : c.reactionRoot ≠ "" → Readable s)
    (named : ∀ run ∈ s.archive.db.runs.rows, run.id ≠ "") :
    Planned clock c s ↔ (c.reactionRoot ≠ "" → ∀ b ∈ s.blobs.rows, ∀ r ∈ s.archive.db.reactions.rows,
      b.digest ∈ Reaction.digests r →
        ∃ r' ∈ s.archive.db.reactions.rows, b.digest ∈ Reaction.digests r' ∧ Outlives clock c s.archive.db r') := by
  obtain ⟨plan, dry, listed, unrooted, lists⟩ := maintainJournal_plans clock c admitted readable
  obtain ⟨rows, blobs⟩ := maintainJournal_deletes clock c admitted readable named
  have lost := lostIds_of_rows rows
  constructor
  · intro planned rooted b member r held refers
    have gone := planned.blobs plan (by rw [dry])
    rw [(lists rooted).candidates] at gone
    by_contra none
    rw [← referenced_after rows] at none
    have missing : b ∈ lostBlobs s (maintainJournal clock c false s).2 := by
      refine mem_lostBlobs.mpr ⟨member, fun kept => ?_⟩
      rcases ((blobs b).mp kept).2 with same | refers
      · exact rooted same
      · exact none refers
    obtain ⟨other, candidate, same⟩ := List.mem_map.mp (gone.mem_iff.mpr (List.mem_map_of_mem missing))
    have outside := of_decide_eq_true (List.mem_filter.mp ((garbage_perm s).mem_iff.mp candidate)).2
    rw [same] at outside
    exact outside (mem_referenced.mpr ⟨r, held, refers⟩)
  · intro separate
    have reclaimed : plan.reactionGc.candidates.Perm ((lostBlobs s (maintainJournal clock c false s).2).map Blob.digest) ∧
        plan.reactionGc.bytesReclaimable = totalSize (lostBlobs s (maintainJournal clock c false s).2) := by
      by_cases rooted : c.reactionRoot = ""
      · have none : lostBlobs s (maintainJournal clock c false s).2 = [] :=
          lostBlobs_none fun b member => (blobs b).mpr ⟨member, .inl rooted⟩
        obtain ⟨candidates, bytes⟩ := unrooted rooted
        rw [none, candidates, bytes]
        exact ⟨.refl _, rfl⟩
      · have same : (garbage s).Perm (lostBlobs s (maintainJournal clock c false s).2) := by
          refine (garbage_perm s).trans (.of_eq (List.filter_congr fun b member => ?_))
          have kept := blobs b
          rw [referenced_after rows] at kept
          apply Bool.eq_iff_iff.mpr
          rw [decide_eq_true_eq, decide_eq_true_eq, kept, mem_referenced]
          constructor
          · rintro unreferenced ⟨-, same | ⟨r, held, refers, -⟩⟩
            · exact rooted same
            · exact unreferenced ⟨r, held, refers⟩
          · rintro lost ⟨r, held, refers⟩
            exact lost ⟨member, .inr (separate rooted b member r held refers)⟩
        obtain ⟨candidates, bytes⟩ := lists rooted
        rw [candidates, bytes]
        exact ⟨same.map _, (same.map Blob.size).sum_nat⟩
    refine ⟨fun run => old_of_rows rows, by rw [dry], ?_, ?_, ?_, ?_⟩ <;> rw [dry]
    · rintro _ ⟨⟩
      rw [lost]
      exact listed
    · rintro _ ⟨⟩
      exact reclaimed.1
    · rintro _ ⟨⟩
      exact reclaimed.2
    · exact fun message raised => by cases raised

variable (clock c)

/-- The dry run tells what the call deletes exactly when the two parts of the call do not touch: no blob loses its
    last reference to the retention. -/
theorem maintain_journal_planned (s : JournalStore) (named : ∀ run ∈ s.archive.db.runs.rows, run.id ≠ "") :
    Planned clock c s ↔ Separate clock c s := by
  by_cases admitted : Admitted clock c
  · by_cases unreadable : c.reactionRoot ≠ "" ∧ ¬ Readable s
    · rw [planned_of_unreadable admitted unreadable.1 unreadable.2 named]
      constructor
      · intro none
        exact ⟨fun _ _ readable => absurd readable unreadable.2, fun _ _ _ => none⟩
      · intro separate
        exact separate.readable admitted unreadable.1 unreadable.2
    · have readable : c.reactionRoot ≠ "" → Readable s := by
        intro rooted
        by_contra still
        exact unreadable ⟨rooted, still⟩
      rw [planned_of_readable admitted readable named]
      constructor
      · intro separate
        exact ⟨fun _ rooted _ => separate rooted, fun _ rooted still => absurd (readable rooted) still⟩
      · intro separate rooted
        exact separate.references admitted rooted (readable rooted)
  · refine iff_of_true (planned_of_refused admitted) ?_
    exact ⟨fun other => absurd other admitted, fun other => absurd other admitted⟩

end

/-- Two dates, and a cutoff between them. -/
def twoDates : Clock where
  julianday text := if text = "2020-01-01" then some 1 else if text = "2024-01-01" then some 2 else none
  daysAgo _ := "2024-01-01"

def monthly : MaintenanceCall := { olderThanDays := 30, reactionRoot := "reactions" }

def someDigest : String := "e3b0c44298fc1c149afbf4c8996fb92427ae41e4649b934ca495991b7852b855"

def finishedRun : RunRecord := ⟨"run-1", "completed", "", {}, 1, "", "2020-01-01", "2020-01-01", "2020-01-01", "2020-01-01"⟩

def onlyReaction : Reaction :=
  ⟨"reaction-1", "run-1", "artifact", "fala-reaction://sha256/" ++ someDigest, "", "text/plain", 0, "sha256:" ++ someDigest,
    .empty, "2020-01-01"⟩

/-- The blob of the only reaction of an old run. -/
def oldJournal (reactions : Table Reaction.key) : JournalStore where
  archive := ⟨{ Database.empty with runs := ⟨[finishedRun], by simp⟩, reactions }, .empty⟩
  blobs := ⟨[⟨someDigest, 0, true⟩], by simp⟩
  opens := true

theorem oldJournal_referenced : someDigest ∈ Reaction.digests onlyReaction := by decide +kernel

theorem oldJournal_expired (reactions : Table Reaction.key) :
    expiredIds twoDates monthly (oldJournal reactions).archive.db = ["run-1"] := by
  have old : strictlyOlder twoDates finishedRun "2024-01-01" = true := by decide +kernel
  have terminal : isTerminal finishedRun = true := by decide
  have unkept : keepRunIds twoDates (-1) (oldJournal reactions).archive.db = [] := rfl
  have expires : expired twoDates monthly (oldJournal reactions).archive.db finishedRun = true := by
    rw [expired, decide_eq_true_eq]
    refine ⟨old, terminal, ?_⟩
    change ¬ (keepRunIds twoDates (-1) _).contains finishedRun.id = true
    rw [unkept]
    exact Bool.false_ne_true
  change ([finishedRun].filter fun run => expired twoDates monthly _ run).map RunRecord.id = _
  rw [List.filter_cons_of_pos expires]
  rfl

theorem monthly_admitted : Admitted twoDates monthly := ⟨by decide +kernel, by decide, by decide, rfl⟩

theorem oldJournal_readable (reactions : Table Reaction.key) : Readable (oldJournal reactions) :=
  ⟨rfl, fun b member => by
    obtain rfl := List.mem_singleton.mp member
    rfl⟩

/-- A journal whose blobs have no reaction has nothing to lose. -/
theorem maintain_journal_planned_unreferenced : Planned twoDates monthly (oldJournal .empty) :=
  (maintain_journal_planned twoDates monthly (oldJournal .empty) (by decide)).mpr
    ⟨fun _ _ _ _ _ _ member => absurd member List.not_mem_nil, fun _ _ unreadable => absurd (oldJournal_readable _) unreadable⟩

/-- The blob of an old run's reaction goes with the run, and the dry run keeps it. -/
theorem maintain_journal_unplanned : ¬ Planned twoDates monthly (oldJournal ⟨[onlyReaction], by simp⟩) := by
  rw [planned_of_readable monthly_admitted (fun _ => oldJournal_readable _) (by decide)]
  intro separate
  obtain ⟨r, held, -, outlives⟩ := separate (by decide) ⟨someDigest, 0, true⟩ (List.mem_singleton_self _) onlyReaction
    (List.mem_singleton_self _) oldJournal_referenced
  obtain rfl := List.mem_singleton.mp held
  rw [Outlives, oldJournal_expired] at outlives
  exact outlives (List.mem_singleton_self _)

end Fala.Domain
