import Fala.Engine.Invariants

/-! Every row lies in a stored run, and names what is stored there. -/

namespace Durable.Program

variable {σ α β : Type} {I J : σ → Prop}

theorem Keeps.learning {p : Program σ α} {f : α → Program σ β} (reads : ReadOnly p)
    (learns : ∀ s a, p.eval s = (.ok a, s) → I s → J s) (rest : ∀ a, (f a).Keeps J)
    (forgets : ∀ s, J s → I s) :
    (p >>= f).Keeps I := by
  intro c held
  have kept := reads c
  rw [run_bind]
  cases h : p.run c with
  | mk result middle =>
    rw [h] at kept
    cases result with
    | error message =>
      show I middle.store
      rw [show middle.store = c.store from kept]
      exact held
    | ok a =>
      have returned := eval_of_run h
      rw [show middle.store = c.store from kept] at returned
      have learned := learns c.store a returned held
      rw [← show middle.store = c.store from kept] at learned
      exact forgets _ (rest a middle learned)

theorem Keeps.excepted {r : Except String α} {f : α → Program σ β} (rest : ∀ a, r = .ok a → (f a).Keeps I) :
    (Program.ofExcept r >>= f).Keeps I := by
  cases r with
  | error message => exact fun _ held => held
  | ok a => exact rest a rfl

end Durable.Program

namespace Fala
open Durable Program Journal Domain Bridge

def ImpulseStored (db : Database) (runId id : String) : Prop := (db.impulses.find? (runId, id)).isSome = true

/-- The rows of every table beside the log and the processes lie in stored runs. Relations and reactions name stored
    impulses; a delivery lies in the run that it comes from or goes to. The marked impulses are stored. -/
structure Rooted (marked : String × String → Prop) (db : Database) : Prop where
  impulses : ∀ row ∈ db.impulses.rows, RunKnown db row.runId
  impulseTypes : ∀ row ∈ db.impulseTypes.rows, RunKnown db row.runId
  impulseRelations : ∀ row ∈ db.impulseRelations.rows, RunKnown db row.runId ∧
    ImpulseStored db row.runId row.sourceImpulseId ∧ ImpulseStored db row.runId row.targetImpulseId
  associations : ∀ row ∈ db.associations.rows, RunKnown db row.runId
  reactions : ∀ row ∈ db.reactions.rows, RunKnown db row.runId ∧
    (row.impulseId = "" ∨ ImpulseStored db row.runId row.impulseId)
  homeostats : ∀ row ∈ db.homeostats.rows, RunKnown db row.runId
  projections : ∀ row ∈ db.projections.rows, RunKnown db row.runId
  bridgeOutbox : ∀ row ∈ db.bridgeOutbox.rows, RunKnown db row.runId ∧
    row.source.runId = row.runId ∧ row.impulse.runId = row.runId
  bridgeInbox : ∀ row ∈ db.bridgeInbox.rows, RunKnown db row.runId ∧ row.target.runId = row.runId
  marked : ∀ k, marked k → ImpulseStored db k.1 k.2

theorem Rooted.empty : Rooted (fun _ => False) .empty where
  impulses := List.forall_mem_nil _
  impulseTypes := List.forall_mem_nil _
  impulseRelations := List.forall_mem_nil _
  associations := List.forall_mem_nil _
  reactions := List.forall_mem_nil _
  homeostats := List.forall_mem_nil _
  projections := List.forall_mem_nil _
  bridgeOutbox := List.forall_mem_nil _
  bridgeInbox := List.forall_mem_nil _
  marked := nofun

/-- The same with a run that is known to be stored. -/
structure InRun (marked : String × String → Prop) (runId : String) (db : Database) : Prop where
  rooted : Rooted marked db
  known : RunKnown db runId

variable {marked : String × String → Prop}

theorem rooted_alongside : Alongside (Rooted marked) where
  commands _ _ r := ⟨r.1, r.2, r.3, r.4, r.5, r.6, r.7, r.8, r.9, r.10⟩
  events _ _ r := ⟨r.1, r.2, r.3, r.4, r.5, r.6, r.7, r.8, r.9, r.10⟩
  processes _ _ r := ⟨r.1, r.2, r.3, r.4, r.5, r.6, r.7, r.8, r.9, r.10⟩

theorem inRun_alongside (runId : String) : Alongside (InRun marked runId) where
  commands _ _ r := ⟨rooted_alongside.commands _ _ r.1, r.2⟩
  events _ _ r := ⟨rooted_alongside.events _ _ r.1, r.2⟩
  processes _ _ r := ⟨rooted_alongside.processes _ _ r.1, r.2⟩

variable {ρ : Type} {key : ρ → String × String} {table : SideTable key} {home : Database → ρ → Prop}

/-- A table whose rows lie in stored runs, and are at home there in a way of their own. -/
structure Roots (marked : String × String → Prop) (table : SideTable key) (home : Database → ρ → Prop) :
    Prop where
  rows : ∀ {db}, Rooted marked db → ∀ row ∈ (table.read db).rows, RunKnown db (key row).1 ∧ home db row
  write : ∀ {db} (t : Table key), Rooted marked db →
    (∀ k, ((table.read db).find? k).isSome = true → (t.find? k).isSome = true) →
    (∀ row ∈ t.rows, RunKnown db (key row).1 ∧ home db row) → Rooted marked (table.write db t)

/-! Each table is such a one. -/

def inStoredRun (_ : Database) (_ : ρ) : Prop := True

theorem impulses_roots : Roots marked impulses inStoredRun where
  rows r row member := ⟨r.impulses row member, trivial⟩
  write _ r more rows := {
    impulses := fun row member => (rows row member).1
    impulseTypes := r.impulseTypes
    impulseRelations := fun row member =>
      have ⟨known, source, target⟩ := r.impulseRelations row member
      ⟨known, more _ source, more _ target⟩
    associations := r.associations
    reactions := fun row member => ⟨(r.reactions row member).1, (r.reactions row member).2.imp_right (more _)⟩
    homeostats := r.homeostats
    projections := r.projections
    bridgeOutbox := r.bridgeOutbox
    bridgeInbox := r.bridgeInbox
    marked := fun k held => more k (r.marked k held) }

theorem impulseTypes_roots : Roots marked impulseTypes inStoredRun where
  rows r row member := ⟨r.impulseTypes row member, trivial⟩
  write _ r _ rows := ⟨r.1, fun row member => (rows row member).1, r.3, r.4, r.5, r.6, r.7, r.8, r.9, r.10⟩

theorem impulseRelations_roots : Roots marked impulseRelations fun db row =>
    ImpulseStored db row.runId row.sourceImpulseId ∧ ImpulseStored db row.runId row.targetImpulseId where
  rows r row member := r.impulseRelations row member
  write _ r _ rows := ⟨r.1, r.2, fun row member => rows row member, r.4, r.5, r.6, r.7, r.8, r.9, r.10⟩

theorem associations_roots : Roots marked associations inStoredRun where
  rows r row member := ⟨r.associations row member, trivial⟩
  write _ r _ rows := ⟨r.1, r.2, r.3, fun row member => (rows row member).1, r.5, r.6, r.7, r.8, r.9, r.10⟩

theorem reactions_roots : Roots marked reactions fun db row =>
    row.impulseId = "" ∨ ImpulseStored db row.runId row.impulseId where
  rows r row member := r.reactions row member
  write _ r _ rows := ⟨r.1, r.2, r.3, r.4, fun row member => rows row member, r.6, r.7, r.8, r.9, r.10⟩

theorem homeostats_roots : Roots marked homeostats inStoredRun where
  rows r row member := ⟨r.homeostats row member, trivial⟩
  write _ r _ rows := ⟨r.1, r.2, r.3, r.4, r.5, fun row member => (rows row member).1, r.7, r.8, r.9, r.10⟩

theorem projections_roots : Roots marked projections inStoredRun where
  rows r row member := ⟨r.projections row member, trivial⟩
  write _ r _ rows := ⟨r.1, r.2, r.3, r.4, r.5, r.6, fun row member => (rows row member).1, r.8, r.9, r.10⟩

/-- Where a delivery of a table has to lie. -/
def Bridge.BridgeTable.Home : BridgeTable → Database → BridgeDelivery → Prop
  | .outbox, _, row => row.source.runId = row.runId ∧ row.impulse.runId = row.runId
  | .inbox, _, row => row.target.runId = row.runId

theorem bridge_roots (t : BridgeTable) : Roots marked t.table t.Home := by
  cases t with
  | outbox =>
    exact {
      rows := fun r row member => r.bridgeOutbox row member
      write := fun _ r _ rows => ⟨r.1, r.2, r.3, r.4, r.5, r.6, r.7, fun row member => rows row member, r.9, r.10⟩ }
  | inbox =>
    exact {
      rows := fun r row member => r.bridgeInbox row member
      write := fun _ r _ rows => ⟨r.1, r.2, r.3, r.4, r.5, r.6, r.7, r.8, fun row member => rows row member, r.10⟩ }

namespace Roots

variable (roots : Roots marked table home) {runId : String} {row : ρ}
include roots

theorem inRun {db : Database} (t : Table key) (r : InRun marked runId db)
    (more : ∀ k, ((table.read db).find? k).isSome = true → (t.find? k).isSome = true)
    (rows : ∀ row ∈ t.rows, RunKnown db (key row).1 ∧ home db row) : InRun marked runId (table.write db t) where
  rooted := roots.write t r.rooted more rows
  known := by
    unfold RunKnown
    rw [table.write_runs]
    exact r.known

theorem insert (run : (key row).1 = runId) (settled : ∀ db, table.references db row = true → home db row) :
    (table.insert row).Keeps (InRun marked runId) := by
  refine execute_keeps fun db db' h r => ?_
  cases inserted : (table.read db).insert? row with
  | none => simp [inserted] at h
  | some t =>
    simp only [inserted] at h
    have ⟨fresh, rows⟩ := Table.insert?_some.mp inserted
    by_cases referenced : table.references db row = true
    · rw [if_pos referenced] at h
      cases h
      refine roots.inRun t r (fun k stored => ?_) fun other member => ?_
      · rw [Table.find?_insert inserted]
        by_cases here : key row = k
        · rw [if_pos here]
          rfl
        · rw [if_neg here]
          exact stored
      · rw [rows, List.mem_append, List.mem_singleton] at member
        rcases member with member | rfl
        · exact roots.rows r.rooted other member
        · exact ⟨run ▸ r.known, settled db referenced⟩
    · rw [if_neg referenced] at h
      cases h

theorem upsert (run : (key row).1 = runId) (settled : ∀ db, table.references db row = true → home db row) :
    (table.upsert row).Keeps (InRun marked runId) := by
  refine execute_keeps fun db db' h r => ?_
  by_cases referenced : table.references db row = true
  · rw [if_pos referenced] at h
    cases h
    refine roots.inRun _ r (fun k stored => ?_) fun other member => ?_
    · rw [Table.find?_upsert]
      by_cases here : key row = k
      · rw [if_pos here]
        rfl
      · rw [if_neg here]
        exact stored
    · rcases Table.mem_upsert.mp member with rfl | ⟨member, _⟩
      · exact ⟨run ▸ r.known, settled db referenced⟩
      · exact roots.rows r.rooted other member
  · rw [if_neg referenced] at h
    cases h

theorem update (runId' id : String) (guard : ρ → Bool) (f : ρ → ρ) (keeps : ∀ r, key (f r) = key r)
    (stays : ∀ db row, home db row → home db (f row)) :
    (table.update runId' id guard f keeps).Keeps (InRun marked runId) := by
  refine updateWhere_keeps fun db _ r => ?_
  refine roots.inRun _ r (fun k stored => ?_) fun other member => ?_
  · rw [Table.isSome_modify]
    exact stored
  · rcases Table.mem_modify.mp member with ⟨old, held, _, rfl⟩ | ⟨held, _⟩
    · have ⟨known, settled⟩ := roots.rows r.rooted old held
      exact ⟨(keeps old).symm ▸ known, stays db old settled⟩
    · exact roots.rows r.rooted other held

end Roots

/-! The domain store. -/

theorem keeps_ofRead {α β : Type} {p : Sql α} {f : α → Sql β} {runId : String} (reads : ReadOnly p)
    (learns : ∀ db a, p.eval db = (.ok a, db) → RunKnown db runId)
    (rest : ∀ a, (f a).Keeps (InRun marked runId)) :
    (p >>= f).Keeps (Rooted marked) :=
  .learning reads (fun db a h r => ⟨r, learns db a h⟩) rest fun _ r => r.rooted

theorem keeps_required {β : Type} {f : Unit → Sql β} {runId : String} (rest : (f ()).Keeps (InRun marked runId)) :
    (requireStoreRun runId >>= f).Keeps (Rooted marked) :=
  keeps_ofRead (requireStoreRun_reads _) (fun _ _ h => (requireStoreRun_runKnown h).1) fun _ => rest

theorem keeps_got {β : Type} {missing runId id : String} {f : ρ → Sql β}
    (rest : ∀ row, (f row).Keeps (InRun marked runId)) :
    (getRow table missing runId id >>= f).Keeps (Rooted marked) := by
  refine keeps_ofRead (getRow_reads _ _ _ _) (fun db row h => ?_) rest
  simp only [getRow, bind_ok] at h
  obtain ⟨_, _, known, _⟩ := h
  exact (requireStoreRun_runKnown known).1

theorem submitDomain_rooted (c : CommandAppend) (events : List EventInput) {write replay : Sql Unit}
    (writes : write.Keeps (InRun marked c.runId)) (replays : replay.Keeps (InRun marked c.runId)) :
    (submitDomain c events write replay).Keeps (Rooted marked) := by
  have beside : Alongside (InRun marked c.runId) := inRun_alongside c.runId
  refine keeps_required (.bind (.require _ _) fun _ => .bind (.transact (.bind (.fetch _) fun found => ?_)) fun _ =>
    .ite (.bind replays fun _ => .pure _) (.pure _))
  cases found with
  | some prior => exact .bind (.require _ _) fun _ => .pure _
  | none =>
    exact .bind (.fetch _) fun _ => .bind (.require _ _) fun _ => .bind (beside.insertCommand _)
      fun _ => .bind writes fun _ => .bind (appendDomainEvents_keeps beside _ _) fun _ => .pure _

theorem putUpsert_rooted (roots : Roots marked table home) {runId : String} {row : ρ} (run : (key row).1 = runId)
    (settled : ∀ db, table.references db row = true → home db row) (valid : Bool) (invalid failed : String) :
    (putUpsert table valid invalid failed runId row).Keeps (Rooted marked) :=
  .bind (.require _ _) fun _ => keeps_required (.transact (roots.upsert run settled))

theorem acceptImpulse_rooted (a : ImpulseAcceptance) : (acceptImpulse a).Keeps (Rooted marked) := by
  have beside : Alongside (InRun marked a.impulse.runId) := inRun_alongside a.impulse.runId
  refine .bind (.require _ _) fun _ => keeps_required (.bind (.transact (.bind (.fetch _) fun found => ?_)) fun _ =>
    .ite (.pure _) (.bind (.fetch _) fun event => ?_))
  · cases found with
    | some stored =>
      refine .bind (.require _ _) fun _ => .bind (.fetch _) fun prior => ?_
      cases prior with
      | none => exact .raise _
      | some prior =>
        refine .bind (.require _ _) fun _ => .bind (.fetch _) fun event => ?_
        cases event with
        | none => exact .raise _
        | some event => exact .bind (.require _ _) fun _ => .pure _
    | none =>
      exact .bind (.fetch _) fun _ => .bind (.require _ _) fun _ => .bind (.fetch _) fun _ =>
        .bind (.require _ _) fun _ => .bind (beside.insertCommand _) fun _ =>
        .bind (impulses_roots.insert rfl fun _ _ => trivial) fun _ => .bind (.fetch _) fun _ =>
        .bind (beside.insertEvent _) fun _ => .pure _
  · cases event with
    | none => exact .raise _
    | some event => exact .pure _

theorem relation_settled (row : ImpulseRelation) (db : Database)
    (referenced : impulseRelations.references db row = true) :
    ImpulseStored db row.runId row.sourceImpulseId ∧ ImpulseStored db row.runId row.targetImpulseId := by
  simpa [impulseRelations, ImpulseStored] using referenced

theorem reaction_settled (row : Reaction) (db : Database) (referenced : reactions.references db row = true) :
    row.impulseId = "" ∨ ImpulseStored db row.runId row.impulseId := by
  simpa [reactions, ImpulseStored] using referenced

theorem closeStatements_inRun (row : Homeostat) (createdAt runId : String) :
    (closeStatements row createdAt).Keeps (InRun marked runId) :=
  .bind (getRow_keeps _ _ _ _) fun _ => .bind (.require _ _) fun _ =>
    .bind (homeostats_roots.update _ _ _ _ _ fun _ _ => id) fun _ => .require _ _

theorem StoreCall.rooted (call : StoreCall) : call.program.Keeps (Rooted marked) := by
  cases call with
  | registerImpulseType row c =>
    exact Keeps.void (.bind (.require _ _) fun _ => .bind (.require _ _) fun _ => submitDomain_rooted _ _
      (impulseTypes_roots.insert rfl fun _ _ => trivial) (replayRow_keeps _ _ _ _ _ _))
  | recordImpulseRelation row c =>
    exact Keeps.void (.bind (.require _ _) fun _ => .bind (.require _ _) fun _ => submitDomain_rooted _ _
      (insertNew_keeps (impulseRelations_roots.insert rfl (relation_settled row)) _ _ _) (replayRow_keeps _ _ _ _ _ _))
  | recordAssociation row c =>
    exact Keeps.void (.bind (.require _ _) fun _ => .bind (.require _ _) fun _ => submitDomain_rooted _ _
      (insertNew_keeps (associations_roots.insert rfl fun _ _ => trivial) _ _ _) (replayRow_keeps _ _ _ _ _ _))
  | recordReaction row c =>
    exact Keeps.void (.bind (.require _ _) fun _ => .bind (.require _ _) fun _ => .bind (.ofExcept _) fun _ =>
      .bind (.ofExcept _) fun metadata => submitDomain_rooted _ _
        (insertNew_keeps (reactions_roots.insert rfl (reaction_settled { row with metadata })) _ _ _)
        (replayRow_keeps _ _ _ _ _ _))
  | saveHomeostat row c =>
    exact Keeps.void (.bind (.require _ _) fun _ => .bind (.require _ _) fun _ => submitDomain_rooted _ _
      (insertNew_keeps (homeostats_roots.insert rfl fun _ _ => trivial) _ _ _) (replayRow_keeps _ _ _ _ _ _))
  | transitionHomeostat row c =>
    exact Keeps.void (.bind (.require _ _) fun _ => .bind (.require _ _) fun _ => .bind (.require _ _) fun _ =>
      .bind (submitDomain_rooted _ _ (closeStatements_inRun _ _ _) (.pure _)) fun _ =>
      .bind (getRow_keeps _ _ _ _) fun _ => .pure _)
  | saveProjection row stale c =>
    exact Keeps.void (.bind (.require _ _) fun _ => .bind (.require _ _) fun _ => submitDomain_rooted _ _
      (projections_roots.upsert rfl fun _ _ => trivial) (replayRow_keeps _ _ _ _ _ _))
  | acceptImpulse a => exact (acceptImpulse_rooted a).void
  | putImpulse row => exact putUpsert_rooted impulses_roots rfl (fun _ _ => trivial) _ _ _
  | putImpulseType row => exact putUpsert_rooted impulseTypes_roots rfl (fun _ _ => trivial) _ _ _
  | putImpulseRelation row => exact putUpsert_rooted impulseRelations_roots rfl (relation_settled row) _ _ _
  | putAssociation row => exact putUpsert_rooted associations_roots rfl (fun _ _ => trivial) _ _ _
  | putReaction row =>
    exact .bind (.require _ _) fun _ => .bind (.ofExcept _) fun _ => keeps_required (.bind (.ofExcept _) fun metadata =>
      putOnce_keeps (reactions_roots.insert rfl (reaction_settled { row with metadata })) _ _ _ _)
  | putHomeostat row =>
    exact .bind (.require _ _) fun _ => keeps_required
      (putOnce_keeps (homeostats_roots.insert rfl fun _ _ => trivial) _ _ _ _)
  | putProjection row => exact putUpsert_rooted projections_roots rfl (fun _ _ => trivial) _ _ _

/-! The bridge. -/

theorem Bridge.home_of_refs {row : BridgeDelivery} {t : BridgeTable} {u : Unit}
    (valid : validateBridgeRefs row t = .ok u) (db : Database) : t.Home db row := by
  cases t with
  | outbox =>
    unfold validateBridgeRefs at valid
    by_cases source : row.source.runId = row.runId
    · by_cases impulse : row.impulse.runId = row.runId
      · exact ⟨source, impulse⟩
      · simp [source, impulse] at valid
    · simp [source] at valid
  | inbox =>
    unfold validateBridgeRefs at valid
    by_cases target : row.target.runId = row.runId
    · exact target
    · simp [target] at valid

theorem Bridge.update_inRun (t : BridgeTable) {runId : String} (runId' id : String) (guard : BridgeDelivery → Bool)
    (f : BridgeDelivery → BridgeDelivery) (keeps : ∀ d, (f d).key = d.key) (source : ∀ d, (f d).source = d.source)
    (target : ∀ d, (f d).target = d.target) (impulse : ∀ d, (f d).impulse = d.impulse) :
    (t.table.update runId' id guard f keeps).Keeps (InRun marked runId) := by
  refine (bridge_roots t).update _ _ _ _ _ fun db d settled => ?_
  have run : (f d).runId = d.runId := congrArg Prod.fst (keeps d)
  cases t with
  | outbox =>
    have ⟨left, right⟩ : d.source.runId = d.runId ∧ d.impulse.runId = d.runId := settled
    refine ⟨?_, ?_⟩
    · rw [source, run, left]
    · rw [impulse, run, right]
  | inbox =>
    have here : d.target.runId = d.runId := settled
    show (f d).target.runId = (f d).runId
    rw [target, run, here]

theorem upsertBridgeRow_inRun (t : BridgeTable) (row : BridgeDelivery) :
    (upsertBridgeRow t row).Keeps (InRun marked row.runId) := by
  refine .excepted fun _ valid => .bind (.require _ _) fun _ =>
    .bind (.transact (.bind (.fetch _) fun found => ?_)) fun _ => getBridge_keeps _ _ _
  cases found with
  | some prior =>
    exact .bind (.require _ _) fun _ => .bind (.ofExcept _) fun _ => .bind (.require _ _) fun _ =>
      .bind (.ofExcept _) fun _ => .bind (.require _ _) fun _ => .bind (.require _ _) fun _ =>
      .ite (.bind (update_inRun t _ _ _ _ _ (fun _ => rfl) (fun _ => rfl) fun _ => rfl) fun _ => .pure _) (.pure _)
  | none => exact .bind ((bridge_roots t).insert rfl fun db _ => home_of_refs valid db) fun _ => .pure _

theorem insertMissing_inRun {runId : String} {impulse : Impulse} (run : impulse.runId = runId) (stored : Bool) :
    (insertMissing impulse stored).Keeps (InRun marked runId) :=
  .ite (.pure _) (impulses_roots.insert run fun _ _ => trivial)

theorem enqueueBridgeDelivery_rooted (e : BridgeEnqueue) : (enqueueBridgeDelivery e).Keeps (Rooted marked) := by
  have beside : Alongside (InRun marked e.delivery.runId) := inRun_alongside e.delivery.runId
  refine .bind (.require _ _) fun _ => .bind (.require _ _) fun _ => .excepted fun _ valid =>
    keeps_required (.bind (.require _ _) fun _ => .bind (.ofExcept _) fun _ => .bind (.ofExcept _) fun _ =>
      .bind (.ofExcept _) fun _ => .bind (.transact (.bind (.fetch _) fun found => ?_)) fun _ =>
      .bind (getBridge_keeps _ _ _) fun _ => .pure _)
  have settled (db : Database) : BridgeTable.outbox.Home db e.delivery := home_of_refs valid db
  cases found with
  | some stored =>
    exact .bind (.ofExcept _) fun _ => .bind (.require _ _) fun _ => .bind (.require _ _) fun _ =>
      .bind (getBridge_keeps _ _ _) fun _ => .pure _
  | none =>
    exact .bind (.fetch _) fun _ => .bind (.require _ _) fun _ => .bind (impulseStored_keeps _ _) fun _ =>
      .bind ((bridge_roots .outbox).insert rfl fun db _ => settled db) fun _ =>
      .bind (insertMissing_inRun (settled .empty).2 _) fun _ => .bind (beside.insertCommand _) fun _ =>
      .bind (appendDomainEvent_keeps beside _ _) fun _ => .pure _

theorem normalizeImportedImpulse_run {row : BridgeDelivery} {impulse : Impulse}
    (normalized : normalizeImportedImpulse row = .ok impulse) : impulse.runId = row.runId := by
  unfold normalizeImportedImpulse at normalized
  split at normalized
  · cases normalized
    rfl
  · cases normalized

theorem importWrites_inRun {row : BridgeDelivery} {impulse : Impulse} (run : impulse.runId = row.runId)
    (target : row.target.runId = row.runId) (existing : Option BridgeDelivery) :
    (importWrites row impulse existing).Keeps (InRun marked row.runId) := by
  refine .bind (.ofExcept _) fun _ => ?_
  cases row.budget.consumeDelivery with
  | none => exact .raise _
  | some budget =>
    refine .bind ?_ fun _ => .bind (.fetch _) fun _ => .bind (insertMissing_inRun run _) fun _ =>
      recordBridgeJournal_keeps (inRun_alongside _) _
    cases existing with
    | some prior =>
      exact .bind ((bridge_roots .inbox).update _ _ _ _ _ fun _ _ settled => settled) fun _ => .require _ _
    | none => exact (bridge_roots .inbox).insert rfl fun _ _ => target

theorem importInboxDelivery_rooted (row : BridgeDelivery) : (importInboxDelivery row).Keeps (Rooted marked) := by
  refine .bind (.require _ _) fun _ => .excepted fun _ valid => keeps_required (.excepted fun impulse normalized =>
    .bind (.transact (.bind (impulseStored_keeps _ _) fun _ => .bind (.fetch _) fun existing => ?_)) fun _ =>
    getBridge_keeps _ _ _)
  have run := normalizeImportedImpulse_run normalized
  have target : row.target.runId = row.runId := home_of_refs valid .empty
  cases existing with
  | none => exact importWrites_inRun run target _
  | some prior =>
    exact .bind (.ofExcept _) fun _ => .bind (.require _ _) fun _ =>
      .ite (.bind (.ofExcept _) fun _ => .require _ _) (.bind (.require _ _) fun _ => importWrites_inRun run target _)

theorem transitionBridgeDelivery_rooted (c : DeliveryCall) (toStatus : String) :
    (transitionBridgeDelivery c toStatus).Keeps (Rooted marked) :=
  .bind (.require _ _) fun _ => .bind (.require _ _) fun _ => keeps_got fun _ => .bind (.require _ _) fun _ =>
    .ite (.pure _) (.bind (.transact (.bind
      (.ite (.bind (update_inRun _ _ _ _ _ _ (fun _ => rfl) (fun _ => rfl) fun _ => rfl) fun _ => .require _ _)
        (.pure _)) fun _ => recordKeyed_keeps (inRun_alongside _) _)) fun _ => getBridge_keeps _ _ _)

theorem deliverBridgeDelivery_rooted (c : DeliveryCall) : (deliverBridgeDelivery c).Keeps (Rooted marked) := by
  refine .bind (.require _ _) fun _ => keeps_got fun current => .bind (.require _ _) fun _ =>
    .bind (replayedDelivery_keeps _ _ _) fun _ => .ite (.pure _) (.bind (.ofExcept _) fun _ => ?_)
  cases current.budget.consumeDelivery with
  | none => exact .raise _
  | some budget =>
    exact .bind (.transact (.bind (update_inRun _ _ _ _ _ _ (fun _ => rfl) (fun _ => rfl) fun _ => rfl) fun _ =>
      .bind (.require _ _) fun _ => recordKeyed_keeps (inRun_alongside _) _)) fun _ => getBridge_keeps _ _ _

theorem retryBridgeDelivery_rooted (c : DeliveryCall) : (retryBridgeDelivery c).Keeps (Rooted marked) :=
  .bind (.require _ _) fun _ => keeps_got fun _ => .bind (.require _ _) fun _ =>
    .bind (replayedDelivery_keeps _ _ _) fun _ => .ite (.pure _) (.bind (.ofExcept _) fun _ => .bind (.transact (.bind
      (update_inRun _ _ _ _ _ _ (fun _ => rfl) (fun _ => rfl) fun _ => rfl) fun _ => .bind (.require _ _) fun _ =>
        recordKeyed_keeps (inRun_alongside _) _)) fun _ => getBridge_keeps _ _ _)

theorem BridgeCall.rooted (call : BridgeCall) : call.program.Keeps (Rooted marked) := by
  cases call with
  | enqueueBridgeDelivery e => exact (enqueueBridgeDelivery_rooted e).void
  | importInboxDelivery row => exact (importInboxDelivery_rooted row).void
  | importBridgeDelivery row idempotencyKey =>
    exact Keeps.void (.bind (.require _ _) fun _ => .bind (.require _ _) fun _ => importInboxDelivery_rooted _)
  | transitionBridgeDelivery c toStatus => exact (transitionBridgeDelivery_rooted c toStatus).void
  | claimBridgeDelivery c => exact (transitionBridgeDelivery_rooted c "pending").void
  | deliverBridgeDelivery c => exact (deliverBridgeDelivery_rooted c).void
  | retryBridgeDelivery c => exact (retryBridgeDelivery_rooted c).void
  | putDelivery t row =>
    exact Keeps.void (.bind (.require _ _) fun _ => .bind (.ofExcept _) fun _ =>
      keeps_required (upsertBridgeRow_inRun t row))

/-! The journal. -/

theorem Rooted.setRuns {db : Database} {runs : Table RunRecord.id} (r : Rooted marked db)
    (more : ∀ id, (db.runs.find? id).isSome = true → (runs.find? id).isSome = true) :
    Rooted marked (db.setRuns runs) := by
  have known {runId : String} (known : RunKnown db runId) : RunKnown (db.setRuns runs) runId :=
    ⟨known.1, more _ known.2⟩
  exact {
    impulses := fun row member => known (r.impulses row member)
    impulseTypes := fun row member => known (r.impulseTypes row member)
    impulseRelations := fun row member => (r.impulseRelations row member).imp_left known
    associations := fun row member => known (r.associations row member)
    reactions := fun row member => (r.reactions row member).imp_left known
    homeostats := fun row member => known (r.homeostats row member)
    projections := fun row member => known (r.projections row member)
    bridgeOutbox := fun row member => (r.bridgeOutbox row member).imp_left known
    bridgeInbox := fun row member => (r.bridgeInbox row member).imp_left known
    marked := r.marked }

theorem insertRun_rooted (row : RunRecord) : (insertRun row).Keeps (Rooted marked) := by
  refine execute_keeps fun db db' h r => ?_
  cases inserted : db.runs.insert? row with
  | none => simp [inserted] at h
  | some runs =>
    simp only [inserted] at h
    cases h
    refine r.setRuns fun id stored => ?_
    rw [Table.find?_insert inserted]
    by_cases here : row.id = id
    · rw [if_pos here]
      rfl
    · rw [if_neg here]
      exact stored

theorem updateRun_rooted (id : String) (guard : RunRecord → Bool) (f : RunRecord → RunRecord)
    (keeps : ∀ r, (f r).id = r.id) : (updateRun id guard f keeps).Keeps (Rooted marked) := by
  refine updateWhere_keeps fun db _ r => r.setRuns fun other stored => ?_
  rw [Table.isSome_modify]
  exact stored

theorem requireRun_known {β : Type} {f : Unit → Sql β} {runId : String} (rest : (f ()).Keeps (InRun marked runId)) :
    (requireRun runId >>= f).Keeps (Rooted marked) :=
  keeps_ofRead (requireRun_reads _) (fun _ _ h => (requireRun_ok.mp h).1) fun _ => rest

theorem updateHomeostat_inRun {runId' : String} (runId id : String) (guard : Homeostat → Bool)
    (f : Homeostat → Homeostat) (keeps : ∀ h, (f h).key = h.key) :
    (updateHomeostat runId id guard f keeps).Keeps (InRun marked runId') :=
  homeostats_roots.update runId id guard f keeps fun _ _ held => held

theorem insertHomeostat_inRun {runId : String} {row : Homeostat} (run : row.runId = runId) :
    (insertHomeostat row).Keeps (InRun marked runId) := by
  have same : insertHomeostat row = homeostats.insert row := by
    unfold insertHomeostat SideTable.insert
    refine congrArg execute (funext fun db => ?_)
    rw [show homeostats.read db = db.homeostats from rfl]
    cases db.homeostats.insert? row <;> rfl
  rw [same]
  exact homeostats_roots.insert run fun _ _ => trivial

theorem parkHomeostatProcess_rooted (p : HomeostatPark) : (parkHomeostatProcess p).Keeps (Rooted marked) := by
  have beside : Alongside (InRun marked p.runId) := inRun_alongside p.runId
  refine requireRun_known (.bind (.require _ _) fun _ => .bind (.ofExcept _) fun _ => .bind (.ofExcept _) fun _ =>
    .bind (.transact (.bind (.fetch _) fun found => ?_)) fun _ => .ofReadOnly (getProcess_reads _ _))
  cases found with
  | some existing => exact .bind (.require _ _) fun _ => .bind (.ofReadOnly (getProcess_reads _ _)) fun _ => .pure _
  | none =>
    exact .bind (.query _) fun _ => .bind (.require _ _) fun _ => .bind (.fetch _) fun _ =>
      .bind (.require _ _) fun _ => .bind (insertHomeostat_inRun rfl) fun _ =>
      .bind (beside.updateProcess _ _ _ _ _) fun _ => .bind (.require _ _) fun _ => .bind (beside.insertCommand _) fun _ => .bind (appendEventInTx_keeps beside _ _ _) fun _ =>
      .bind (beside.insertCommand _) fun _ => .bind (appendEventInTx_keeps beside _ _ _) fun _ => .pure _

theorem transitionHomeostatProcess_rooted (t : HomeostatTransition) :
    (transitionHomeostatProcess t).Keeps (Rooted marked) := by
  have beside : Alongside (InRun marked t.runId) := inRun_alongside t.runId
  refine requireRun_known (.bind (.require _ _) fun _ => .bind (.require _ _) fun _ => .bind (.require _ _) fun _ =>
    .bind (.require _ _) fun _ => .bind (.ofExcept _) fun _ => .bind (.ofExcept _) fun _ =>
    .bind (.transact (.bind (.fetch _) fun found => ?_)) fun _ => .ofReadOnly (getProcess_reads _ _))
  cases found with
  | some existing => exact .bind (.require _ _) fun _ => .bind (.ofReadOnly (getProcess_reads _ _)) fun _ => .pure _
  | none =>
    refine .bind (.fetch _) fun stored => ?_
    cases stored with
    | none => exact .raise _
    | some homeostat =>
      exact .bind (.require _ _) fun _ => .bind (.query _) fun _ => .bind (.require _ _) fun _ =>
        .bind (updateHomeostat_inRun _ _ _ _ _) fun _ => .bind (.require _ _) fun _ =>
        .bind (beside.updateProcess _ _ _ _ _) fun _ => .bind (.require _ _) fun _ => .bind (beside.insertCommand _)
        fun _ => .bind (appendEventInTx_keeps beside _ _ _) fun _ => .bind (appendEventInTx_keeps beside _ _ _) fun _ =>
        .pure _

theorem reopenHomeostatProcess_rooted (r : HomeostatReopen) : (reopenHomeostatProcess r).Keeps (Rooted marked) := by
  have beside : Alongside (InRun marked r.runId) := inRun_alongside r.runId
  have waits : (requireRunWaiting r).Keeps (InRun marked r.runId) := by
    refine .ite (.bind (.fetch _) fun found => ?_) (.pure _)
    cases found with
    | none => exact .raise _
    | some run => exact .require _ _
  refine requireRun_known (.bind (.require _ _) fun _ => .bind (.transact (.bind waits fun _ =>
    .bind (.fetch _) fun stored => ?_)) fun _ => .ofReadOnly (getProcess_reads _ _))
  cases stored with
  | none => exact .raise _
  | some homeostat =>
    refine .bind (.fetch _) fun found => ?_
    cases found with
    | some existing => exact .bind (.require _ _) fun _ => .bind (.ofReadOnly (getProcess_reads _ _)) fun _ => .pure _
    | none =>
      exact .bind (.require _ _) fun _ => .bind (.require _ _) fun _ => .bind (.query _) fun _ => .bind (.require _ _)
        fun _ => .bind (.require _ _) fun _ => .bind (updateHomeostat_inRun _ _ _ _ _) fun _ => .bind (.require _ _)
        fun _ => .bind (beside.updateProcess _ _ _ _ _) fun _ => .bind (.require _ _) fun _ =>
        .bind (beside.insertCommand _) fun _ => .bind (appendEventInTx_keeps beside _ _ _) fun _ =>
        .bind (appendEventInTx_keeps beside _ _ _) fun _ => .pure _

theorem Call.rooted (digest : Json → String) (call : Call) : (call.program digest).Keeps (Rooted marked) := by
  have beside : Alongside (Rooted marked) := rooted_alongside
  cases call with
  | process c =>
    cases c with
    | createRun r => exact (createRun_keeps beside r fun _ => insertRun_rooted _).void
    | scheduleProcess s => exact (scheduleProcess_keeps beside s).void
    | claimProcess runId processId c => exact (claimProcess_keeps beside runId processId c).void
    | claimNextReady runId allRuns c => exact (claimNextReady_keeps beside runId allRuns c).void
    | transitionProcess t => exact (t.program_keeps beside digest).void
    | advanceCorrelationReady runId processId inputJson =>
      exact (advanceCorrelationReady_keeps beside runId processId inputJson).void
    | applyCorrelationChildren c children => exact (applyCorrelationChildren_keeps beside c children).void
    | parkHomeostatProcess p => exact (parkHomeostatProcess_rooted p).void
    | transitionHomeostatProcess t => exact (transitionHomeostatProcess_rooted t).void
    | reopenHomeostatProcess r => exact (reopenHomeostatProcess_rooted r).void
  | record c => exact c.program_keeps beside fun _ _ _ _ => updateRun_rooted _ _ _ _
  | lifecycle c =>
    exact c.program_keeps beside (fun _ _ _ => insertRun_rooted _) fun _ _ _ => updateRun_rooted _ _ _ _
  | store c => exact c.rooted
  | bridge c => exact c.rooted

end Fala
