import Mathlib.Data.String.Basic
import Fala.Durable.Assoc
import Fala.Driver.Finalization
import Fala.Durable.Each
import Fala.Graph.Sweep

namespace Fala.Driver
open Durable Journal Json

/-! The wait graph of a run. -/

def invalidWaitMetadata : String := "driver: invalid persisted wait metadata"

/-- The ids of one declaration: a text or the texts of a list. -/
def declaredIds : Json → List String
  | .str id => [id]
  | .arr items => items.filterMap fun item => match item with | .str id => some id | _ => none
  | _ => []

def declaredUnder (keys : List String) : Json → List String
  | .obj members => keys.flatMap fun key => ((lookup key members).map declaredIds).getD []
  | _ => []

def parsedWaits (text : Text) : Except String Json :=
  match text.parse with
  | some value => .ok value
  | none => .error invalidWaitMetadata

/-- `_wait_refs` -/
def waitRefs (process : ProcessRow) (keys : List String) : Except String (List String) := do
  let input ← parsedWaits process.inputJson
  let metadata ← parsedWaits process.metadata
  return (declaredUnder keys input ++ declaredUnder keys metadata).eraseDups

def processWaitKeys : List String := ["wait_for_processes", "wait_for_process_ids", "blocked_by_processes"]

def homeostatWaitKeys : List String := ["wait_for_homeostats", "wait_for_homeostat_ids", "blocked_by_homeostats"]

/-! The search for cycles. -/

structure WaitSearch where
  visited : List String := []
  cycles : List (List String) := []
  deriving DecidableEq

/-- A cycle is kept if none of the earlier ones has its members. -/
def addCycle (cycles : List (List String)) (cycle : List String) : List (List String) :=
  if cycles.any fun prior => prior.length = cycle.length && cycle.all prior.contains then cycles else cycles ++ [cycle]

/-- `_wait_cycle_visit`. Its `visiting` holds the index of each node of the path. -/
def waitCycleVisit (edges : List (String × List String)) : Nat → String → List String → WaitSearch → WaitSearch
  | 0, _, _, search => search
  | fuel + 1, node, path, search =>
    if node ∈ path then { search with cycles := addCycle search.cycles (path.drop (path.idxOf node)) }
    else if node ∈ search.visited then search
    else
      let dependencies := (Assoc.find node edges).getD []
      let search := dependencies.foldl (fun search dependency =>
        if (Assoc.find dependency edges).isSome then waitCycleVisit edges fuel dependency (path ++ [node]) search
        else search) search
      { search with visited := node :: search.visited }

/-- `_wait_cycles`; a path has no node twice, so it is no longer than the list of edges. -/
def waitCycles (edges : List (String × List String)) : List (List String) :=
  (((edges.map Prod.fst).insertionSort (· ≤ ·)).foldl
    (fun search node => waitCycleVisit edges (edges.length + 1) node [] search) {}).cycles

/-! The diagnosis. -/

structure WaitDiagnosticIssue where
  processId : String
  status : ProcessStatus
  reason : String
  blockedBy : List String
  dependencyStatuses : List (String × String)
  data : Text
  deriving DecidableEq

structure WaitGraphDiagnostic where
  runId : String
  impulseId : String
  deadlocked : Bool
  deadlocks : List (List String)
  waitEdges : List (String × List String)
  blocked : List WaitDiagnosticIssue
  openHomeostats : List String
  processIds : ProcessStatus → List String
  blockedProcessIds : List String
  reason : String
  code : String

section Diagnosis

variable (processStatuses : List (String × ProcessStatus)) (homeostatStatuses : List (String × String))

/-- The processes that a waiting one still waits for. -/
def openDependencies (dependencies : List String) : List String :=
  dependencies.filter fun id => Assoc.find id processStatuses ≠ some .succeeded

def openHomeostats (dependencies : List String) : List String :=
  dependencies.filter fun id => Assoc.find id homeostatStatuses ≠ some "completed"

def homeostatKey (id : String) : String := "homeostat:" ++ id

/-- The statuses that an issue shows, an unknown one as the empty text. -/
def dependencyStatuses (processes homeostats : List String) : List (String × String) :=
  let shown := processes.foldl (fun held id =>
    Assoc.put id (((Assoc.find id processStatuses).map ProcessStatus.value).getD "") held) []
  homeostats.foldl (fun held id => Assoc.put (homeostatKey id) ((Assoc.find id homeostatStatuses).getD "") held) shown

/-- What one row adds: its edges if it has any, and its issue. -/
def waitIssue (row : ProcessRow) : Except String (Option (String × List String) × Option WaitDiagnosticIssue) :=
  if row.status = .retryWait then
    let data := .template [("available_at", .quote row.availableAt)]
    .ok (none, some ⟨row.id, row.status, "retry_wait", [], [], data⟩)
  else if row.status ≠ .waiting then .ok (none, none)
  else do
    let processes ← waitRefs row processWaitKeys
    let homeostats ← waitRefs row homeostatWaitKeys
    let edges := openDependencies processStatuses processes
    let blockedBy := edges ++ (openHomeostats homeostatStatuses homeostats).map homeostatKey
    let issue := {
      processId := row.id
      status := row.status
      reason := if blockedBy = [] then "waiting_without_known_blocker" else "waiting"
      blockedBy
      dependencyStatuses := dependencyStatuses processStatuses homeostatStatuses processes homeostats
      data := .braces }
    return (if edges = [] then none else some (row.id, edges), some issue)

end Diagnosis

/-- `rows` in the order of their ids. -/
def sortedById (rows : List ProcessRow) : List ProcessRow := rows.insertionSort fun left right => left.id ≤ right.id

def statusesOf (rows : List ProcessRow) : List (String × ProcessStatus) :=
  rows.foldl (fun held row => Assoc.put row.id row.status held) []

/-- `diagnose_wait_graph` of the rows and the homeostats that it has read. -/
def diagnoseRows (runId impulseId : String) (rows : List ProcessRow) (homeostats : List (String × String)) :
    Except String WaitGraphDiagnostic := do
  let rows := sortedById rows
  let issues ← rows.mapM (waitIssue (statusesOf rows) homeostats)
  let waitEdges := (issues.filterMap Prod.fst).foldl (fun held edge => Assoc.put edge.1 edge.2 held) []
  let blocked := issues.filterMap Prod.snd
  let deadlocks := waitCycles waitEdges
  let reason :=
    if deadlocks ≠ [] then "feedback_cycle_wait"
    else if blocked.any fun issue => issue.reason = "waiting" then "waiting"
    else if blocked ≠ [] then "waiting_without_known_blocker" else ""
  return {
    runId
    impulseId
    deadlocked := deadlocks ≠ []
    deadlocks
    waitEdges
    blocked
    openHomeostats := ((homeostats.filter fun h => h.2 = "open").map Prod.fst).insertionSort (· ≤ ·)
    processIds := fun status => ((rows.filter fun row => row.status = status).map (·.id)).insertionSort (· ≤ ·)
    blockedProcessIds := blocked.map (·.processId)
    reason
    code := reason }

def listed (runId impulseId : String) (rows : List ProcessRow) : List ProcessRow :=
  rows.filter fun row => row.runId = runId ∧ (impulseId = "" ∨ row.impulseId = impulseId)

def listedHomeostats (runId impulseId : String) (rows : List Homeostat) : List (String × String) :=
  ((rows.filter fun h => h.runId = runId ∧ (impulseId = "" ∨ h.impulseId = impulseId)).map
    fun h => (h.id, h.status)).insertionSort fun left right => left.1 ≤ right.1

/-- `diagnose_wait_graph` -/
def diagnoseWaitGraph (runId impulseId : String) : Sql WaitGraphDiagnostic := do
  .require (runId ≠ "") "driver: run_id must not be empty"
  requireRun runId
  let rows ← .fetch fun db => queueOrder (listed runId impulseId db.processes.rows)
  let homeostats ← .fetch fun db => listedHomeostats runId impulseId db.homeostats.rows
  .query fun _ => diagnoseRows runId impulseId rows homeostats

end Fala.Driver

/-! The deadlocks that the diagnosis of a wait graph reports. -/

namespace Fala.Driver
open Durable Journal Json Fala.Graph Relation

section Search

variable {edges : List (String × List String)}

/-- An edge that the search follows: to a node that has edges of its own. -/
def WaitEdge (edges : List (String × List String)) (node dependency : String) : Prop :=
  ∃ dependencies, Assoc.find node edges = some dependencies ∧ dependency ∈ dependencies ∧
    (Assoc.find dependency edges).isSome = true

/-- The cycles found are rounds of the graph, no two of them with the same members. -/
structure Found (edges : List (String × List String)) (cycles : List (List String)) : Prop where
  rounds : ∀ cycle ∈ cycles, Round (WaitEdge edges) cycle
  apart : cycles.Pairwise fun cycle other => ¬ SameMembers cycle other

theorem Found.add {cycles : List (List String)} {cycle : List String} (found : Found edges cycles)
    (round : Round (WaitEdge edges) cycle) : Found edges (addCycle cycles cycle) := by
  unfold addCycle
  by_cases known : (cycles.any fun prior => prior.length = cycle.length && cycle.all prior.contains) = true
  · rw [if_pos known]
    exact found
  · rw [if_neg known]
    constructor
    · intro other listed
      rcases List.mem_append.mp listed with earlier | last
      · exact found.rounds other earlier
      · rw [List.mem_singleton.mp last]
        exact round
    · rw [List.pairwise_append]
      refine ⟨found.apart, List.pairwise_singleton _ _, ?_⟩
      intro prior earlier other last same
      rw [List.mem_singleton.mp last] at same
      have distinct := (found.rounds prior earlier).distinct
      have alike : (decide (prior.length = cycle.length) && cycle.all prior.contains) = true := by
        rw [Bool.and_eq_true, decide_eq_true_iff, List.all_eq_true]
        refine ⟨same.length distinct round.distinct, ?_⟩
        intro node listed
        exact List.contains_iff_mem.mpr ((same node).mpr listed)
      exact known (List.any_eq_true.mpr ⟨prior, earlier, alike⟩)

theorem addCycle_ne_nil (cycles : List (List String)) (cycle : List String) : addCycle cycles cycle ≠ [] := by
  unfold addCycle
  by_cases known : (cycles.any fun prior => prior.length = cycle.length && cycle.all prior.contains) = true
  · rw [if_pos known]
    have ⟨prior, earlier, _⟩ := List.any_eq_true.mp known
    exact List.ne_nil_of_mem earlier
  · rw [if_neg known]
    exact List.append_ne_nil_of_right_ne_nil _ (List.cons_ne_nil _ _)

theorem nodup_snoc {path : List String} {node : String} (distinct : path.Nodup) (new : node ∉ path) :
    (path ++ [node]).Nodup := by
  rw [List.nodup_append]
  refine ⟨distinct, List.nodup_singleton _, ?_⟩
  intro other earlier last here same
  rw [List.mem_singleton.mp here] at same
  exact new (same ▸ earlier)

theorem waitCycleVisit_found {fuel : Nat} {node : String} {path : List String} {search : WaitSearch}
    (distinct : path.Nodup) (chain : List.IsChain (WaitEdge edges) (path ++ [node]))
    (found : Found edges search.cycles) : Found edges (waitCycleVisit edges fuel node path search).cycles := by
  induction fuel generalizing node path search with
  | zero => exact found
  | succ fuel ih =>
    unfold waitCycleVisit
    by_cases met : node ∈ path
    · rw [if_pos met]
      exact found.add (round_of_return distinct chain met)
    · rw [if_neg met]
      by_cases done : node ∈ search.visited
      · rw [if_pos done]
        exact found
      · rw [if_neg done]
        have longer := nodup_snoc distinct met
        cases own : Assoc.find node edges with
        | none => exact found
        | some dependencies =>
          show Found edges (dependencies.foldl _ search).cycles
          refine List.foldlRecOn dependencies _ (motive := fun (search : WaitSearch) => Found edges search.cycles) found ?_
          intro search found dependency listed
          by_cases follows : (Assoc.find dependency edges).isSome = true
          · rw [if_pos follows]
            have edge : WaitEdge edges node dependency := ⟨dependencies, own, listed, follows⟩
            refine ih longer ?_ found
            rw [List.append_assoc, List.singleton_append, List.isChain_append_cons_cons]
            exact ⟨chain, edge, List.isChain_singleton _⟩
          · rw [if_neg follows]
            exact found

/-- The loop of `_wait_cycle_visit` over the dependencies of a node. -/
def visitEach (edges : List (String × List String)) (visit : String → WaitSearch → WaitSearch)
    (dependencies : List String) (search : WaitSearch) : WaitSearch :=
  dependencies.foldl
    (fun search dependency => if (Assoc.find dependency edges).isSome then visit dependency search else search) search

/-- The search of what a new node depends on. -/
def visitBelow (edges : List (String × List String)) (fuel : Nat) (node : String) (path : List String)
    (search : WaitSearch) : WaitSearch :=
  visitEach edges (fun dependency => waitCycleVisit edges fuel dependency (path ++ [node]))
    ((Assoc.find node edges).getD []) search

theorem waitCycleVisit_new {fuel : Nat} {node : String} {path : List String} {search : WaitSearch}
    (new : node ∉ path) (unseen : node ∉ search.visited) :
    waitCycleVisit edges (fuel + 1) node path search =
      { visitBelow edges fuel node path search with visited := node :: (visitBelow edges fuel node path search).visited } := by
  rw [waitCycleVisit, if_neg new, if_neg unseen]
  rfl

theorem visitEach_cons {visit : String → WaitSearch → WaitSearch} {dependency : String} {rest : List String}
    {search : WaitSearch} : visitEach edges visit (dependency :: rest) search =
      visitEach edges visit rest (if (Assoc.find dependency edges).isSome then visit dependency search else search) := rfl

theorem visitEach_cycles {visit : String → WaitSearch → WaitSearch} {dependencies : List String} {search : WaitSearch}
    (each : ∀ dependency search, (visit dependency search).cycles = [] → search.cycles = [])
    (clear : (visitEach edges visit dependencies search).cycles = []) : search.cycles = [] := by
  induction dependencies generalizing search with
  | nil => exact clear
  | cons dependency rest ih =>
    rw [visitEach_cons] at clear
    have next := ih clear
    by_cases follows : (Assoc.find dependency edges).isSome = true
    · rw [if_pos follows] at next
      exact each dependency search next
    · rw [if_neg follows] at next
      exact next

theorem waitCycleVisit_cycles {fuel : Nat} {node : String} {path : List String} {search : WaitSearch}
    (clear : (waitCycleVisit edges fuel node path search).cycles = []) : search.cycles = [] := by
  induction fuel generalizing node path search with
  | zero => exact clear
  | succ fuel ih =>
    by_cases met : node ∈ path
    · rw [waitCycleVisit, if_pos met] at clear
      exact absurd clear (addCycle_ne_nil _ _)
    · by_cases done : node ∈ search.visited
      · rw [waitCycleVisit, if_neg met, if_pos done] at clear
        exact clear
      · rw [waitCycleVisit_new met done] at clear
        exact visitEach_cycles (fun _ _ later => ih later) clear

/-- Every step from the node leads to an end. -/
def Ends (edges : List (String × List String)) (node : String) : Prop :=
  Acc (fun next node => WaitEdge edges node next) node

/-- What a search is done with after it has found nothing: what it was done with before, and only nodes that end. -/
structure Cleared (edges : List (String × List String)) (before after : WaitSearch) : Prop where
  kept : ∀ node ∈ before.visited, node ∈ after.visited
  ends : ∀ node ∈ after.visited, Ends edges node

theorem visitEach_cleared {visit : String → WaitSearch → WaitSearch} {dependencies : List String} {search : WaitSearch}
    (grows : ∀ dependency search, (visit dependency search).cycles = [] → search.cycles = [])
    (each : ∀ dependency search, (Assoc.find dependency edges).isSome = true → (∀ node ∈ search.visited, Ends edges node) →
      (visit dependency search).cycles = [] →
      Cleared edges search (visit dependency search) ∧ dependency ∈ (visit dependency search).visited)
    (ends : ∀ node ∈ search.visited, Ends edges node)
    (clear : (visitEach edges visit dependencies search).cycles = []) :
    Cleared edges search (visitEach edges visit dependencies search) ∧
      ∀ dependency ∈ dependencies, (Assoc.find dependency edges).isSome = true →
        dependency ∈ (visitEach edges visit dependencies search).visited := by
  induction dependencies generalizing search with
  | nil => exact ⟨⟨fun _ earlier => earlier, ends⟩, fun _ listed => absurd listed List.not_mem_nil⟩
  | cons dependency rest ih =>
    rw [visitEach_cons] at clear ⊢
    by_cases follows : (Assoc.find dependency edges).isSome = true
    · rw [if_pos follows] at clear ⊢
      have ⟨first, here⟩ := each dependency search follows ends (visitEach_cycles grows clear)
      have ⟨later, others⟩ := ih first.ends clear
      refine ⟨⟨fun node earlier => later.kept node (first.kept node earlier), later.ends⟩, ?_⟩
      intro other listed known
      rcases List.mem_cons.mp listed with rfl | listed
      · exact later.kept other here
      · exact others other listed known
    · rw [if_neg follows] at clear ⊢
      have ⟨later, others⟩ := ih ends clear
      refine ⟨later, ?_⟩
      intro other listed known
      rcases List.mem_cons.mp listed with rfl | listed
      · exact absurd known follows
      · exact others other listed known

theorem waitCycleVisit_cleared {fuel : Nat} {node : String} {path : List String} {search : WaitSearch}
    (distinct : path.Nodup) (known : ∀ id ∈ path, id ∈ edges.map Prod.fst)
    (listed : (Assoc.find node edges).isSome = true) (enough : edges.length + 1 ≤ path.length + fuel)
    (ends : ∀ node ∈ search.visited, Ends edges node)
    (clear : (waitCycleVisit edges fuel node path search).cycles = []) :
    Cleared edges search (waitCycleVisit edges fuel node path search) ∧
      node ∈ (waitCycleVisit edges fuel node path search).visited := by
  induction fuel generalizing node path search with
  | zero =>
    have short := (List.subperm_of_subset distinct known).length_le
    rw [List.length_map] at short
    omega
  | succ fuel ih =>
    by_cases met : node ∈ path
    · rw [waitCycleVisit, if_pos met] at clear
      exact absurd clear (addCycle_ne_nil _ _)
    · by_cases done : node ∈ search.visited
      · rw [waitCycleVisit, if_neg met, if_pos done]
        exact ⟨⟨fun _ earlier => earlier, ends⟩, done⟩
      · rw [waitCycleVisit_new met done] at clear ⊢
        have longer := nodup_snoc distinct met
        have inside : ∀ id ∈ path ++ [node], id ∈ edges.map Prod.fst := by
          intro id earlier
          rcases List.mem_append.mp earlier with earlier | last
          · exact known id earlier
          · rw [List.mem_singleton.mp last]
            exact Assoc.find_isSome.mp listed
        have bound : edges.length + 1 ≤ (path ++ [node]).length + fuel := by
          rw [List.length_append, List.length_singleton]
          omega
        have ⟨below, reached⟩ := visitEach_cleared (fun _ _ => waitCycleVisit_cycles)
          (fun _ _ follows ended later => ih longer inside follows bound ended later) ends clear
        have here : Ends edges node := by
          refine Acc.intro node ?_
          rintro next ⟨dependencies, own, among, follows⟩
          refine below.ends next (reached next ?_ follows)
          rw [own]
          exact among
        refine ⟨⟨fun id earlier => List.mem_cons_of_mem _ (below.kept id earlier), ?_⟩, List.mem_cons_self⟩
        exact List.forall_mem_cons.mpr ⟨here, below.ends⟩

/-! The whole search. -/

theorem waitCycles_found : Found edges (waitCycles edges) := by
  have none : Found edges ({} : WaitSearch).cycles := ⟨fun _ listed => absurd listed List.not_mem_nil, .nil⟩
  refine List.foldlRecOn _ _ (motive := fun (search : WaitSearch) => Found edges search.cycles) none ?_
  intro search found node _
  exact waitCycleVisit_found List.nodup_nil (List.isChain_singleton node) found

theorem waitCycles_clear (clear : waitCycles edges = []) {node : String}
    (listed : (Assoc.find node edges).isSome = true) : Ends edges node := by
  have every : ∀ (nodes : List String) (search : WaitSearch), (∀ id ∈ nodes, id ∈ edges.map Prod.fst) →
      (nodes.foldl (fun search node => waitCycleVisit edges (edges.length + 1) node [] search) search) =
        visitEach edges (fun node => waitCycleVisit edges (edges.length + 1) node []) nodes search := by
    intro nodes search known
    refine List.foldl_ext _ _ _ ?_
    intro search node member
    rw [if_pos (Assoc.find_isSome.mpr (known node member))]
  have known : ∀ id ∈ (edges.map Prod.fst).insertionSort (· ≤ ·), id ∈ edges.map Prod.fst :=
    fun _ member => (List.mem_insertionSort _).mp member
  rw [waitCycles, every _ _ known] at clear
  have ⟨cleared, reached⟩ := visitEach_cleared (fun _ _ => waitCycleVisit_cycles)
    (fun _ _ follows ended later => waitCycleVisit_cleared List.nodup_nil (fun _ earlier => absurd earlier List.not_mem_nil)
      follows (by simp) ended later)
    (fun _ earlier => absurd earlier List.not_mem_nil) clear
  exact cleared.ends node (reached node ((List.mem_insertionSort _).mpr (Assoc.find_isSome.mp listed)) listed)

theorem waitCycles_ne_nil : waitCycles edges ≠ [] ↔ ∃ node, OnCycle (WaitEdge edges) node := by
  constructor
  · intro some
    have ⟨cycle, listed⟩ := List.exists_mem_of_ne_nil _ some
    have ⟨node, _, onCycle⟩ := (waitCycles_found.rounds cycle listed).onCycle
    exact ⟨node, onCycle⟩
  · rintro ⟨node, cycle⟩ clear
    have ⟨_, dependencies, own, _⟩ := OnCycle.left cycle
    exact Graph.Acc.not_onCycle (waitCycles_clear clear (by rw [own]; rfl)) cycle

end Search

/-! The diagnosis of the rows. -/

/-- One waiting row waits for another: it declares it. -/
def WaitsOn (rows : List ProcessRow) (id dependency : String) : Prop :=
  ∃ row ∈ rows, ∃ other ∈ rows, (row.id = id ∧ row.status = .waiting) ∧ (other.id = dependency ∧ other.status = .waiting) ∧
    ∃ ids, waitRefs row processWaitKeys = .ok ids ∧ dependency ∈ ids

theorem WaitsOn.perm {rows others : List ProcessRow} (perm : rows.Perm others) {id dependency : String}
    (waits : WaitsOn rows id dependency) : WaitsOn others id dependency := by
  have ⟨row, listed, other, known, rest⟩ := waits
  exact ⟨row, perm.mem_iff.mp listed, other, perm.mem_iff.mp known, rest⟩

section Rows

variable {rows : List ProcessRow} {homeostats : List (String × String)}

theorem sortedById_perm : (sortedById rows).Perm rows := List.perm_insertionSort _ rows

theorem sortedById_eq {others : List ProcessRow} (distinct : (rows.map (·.id)).Nodup) (perm : rows.Perm others) :
    sortedById rows = sortedById others := by
  have sorted : ∀ rows : List ProcessRow, (sortedById rows).Pairwise fun left right => left.id ≤ right.id :=
    List.pairwise_insertionSort _
  refine List.Perm.eq_of_pairwise ?_ (sorted rows) (sorted others) ?_
  · intro left right here there before after
    have member := sortedById_perm.mem_iff.mp here
    have known := perm.mem_iff.mpr (sortedById_perm.mem_iff.mp there)
    exact List.inj_on_of_nodup_map distinct member known (String.le_antisymm before after)
  · exact sortedById_perm.trans (perm.trans sortedById_perm.symm)

theorem statusesOf_eq (distinct : (rows.map (·.id)).Nodup) :
    statusesOf rows = rows.map fun row => (row.id, row.status) := by
  have keys : (([] ++ rows.map fun row : ProcessRow => (row.id, row.status)).map Prod.fst).Nodup := by
    rw [List.nil_append, List.map_map]
    exact distinct
  have entries := Assoc.foldl_put_distinct keys
  rw [List.foldl_map] at entries
  exact entries

theorem find_statusesOf (distinct : (rows.map (·.id)).Nodup) {row : ProcessRow} (listed : row ∈ rows) :
    Assoc.find row.id (statusesOf rows) = some row.status := by
  rw [statusesOf_eq distinct]
  refine Assoc.find_of_mem ?_ (List.mem_map.mpr ⟨row, listed, rfl⟩)
  rw [List.map_map]
  exact distinct

theorem waitIssue_edges {statuses : List (String × ProcessStatus)} {row : ProcessRow}
    {issue : Option (String × List String) × Option WaitDiagnosticIssue} (h : waitIssue statuses homeostats row = .ok issue)
    (id : String) (dependencies : List String) : issue.1 = some (id, dependencies) ↔
      row.id = id ∧ row.status = .waiting ∧ dependencies ≠ [] ∧
        ∃ ids, waitRefs row processWaitKeys = .ok ids ∧ openDependencies statuses ids = dependencies := by
  unfold waitIssue at h
  by_cases retries : row.status = .retryWait
  · rw [if_pos retries] at h
    cases h
    simp [retries]
  · rw [if_neg retries] at h
    by_cases waits : row.status = .waiting
    · rw [if_neg (not_not.mpr waits)] at h
      simp only [Schema.bind_ok] at h
      obtain ⟨ids, declared, _, _, same⟩ := h
      cases same
      by_cases none : openDependencies statuses ids = []
      · simp only [none, if_true]
        constructor
        · intro impossible
          cases impossible
        · rintro ⟨_, _, some, others, same, rfl⟩
          cases declared.symm.trans same
          exact absurd none some
      · simp only [none, if_false, Option.some.injEq, Prod.mk.injEq]
        constructor
        · rintro ⟨rfl, rfl⟩
          exact ⟨rfl, waits, none, ids, declared, rfl⟩
        · rintro ⟨rfl, _, _, others, same, rfl⟩
          cases declared.symm.trans same
          exact ⟨rfl, rfl⟩
    · rw [if_pos waits] at h
      cases h
      simp [waits]

theorem issues_keys {statuses : List (String × ProcessStatus)}
    {issues : List (Option (String × List String) × Option WaitDiagnosticIssue)}
    (each : List.Forall₂ (fun row issue => waitIssue statuses homeostats row = .ok issue) rows issues) :
    ((issues.filterMap Prod.fst).map Prod.fst).Sublist (rows.map (·.id)) := by
  induction each with
  | nil => exact List.Sublist.slnil
  | @cons row issue rows issues given later ih =>
    cases edges : issue.1 with
    | none =>
      rw [List.filterMap_cons_none edges]
      exact ih.cons _
    | some edge =>
      have named := ((waitIssue_edges given edge.1 edge.2).mp edges).1
      rw [List.filterMap_cons_some edges, List.map_cons, List.map_cons, named]
      exact ih.cons_cons _

/-- What the edges of a diagnosis are. -/
structure Edges (rows : List ProcessRow) (edges : List (String × List String)) : Prop where
  distinct : (edges.map Prod.fst).Nodup
  listed : ∀ id dependencies, (id, dependencies) ∈ edges ↔ ∃ row ∈ rows, row.id = id ∧ row.status = .waiting ∧
    dependencies ≠ [] ∧ ∃ ids, waitRefs row processWaitKeys = .ok ids ∧
      openDependencies (statusesOf rows) ids = dependencies

theorem edges_of_issues (distinct : (rows.map (·.id)).Nodup)
    {issues : List (Option (String × List String) × Option WaitDiagnosticIssue)}
    (h : rows.mapM (waitIssue (statusesOf rows) homeostats) = .ok issues) :
    Edges rows ((issues.filterMap Prod.fst).foldl (fun held edge => Assoc.put edge.1 edge.2 held) []) := by
  have keys := (issues_keys (mapM_ok h)).nodup distinct
  rw [Assoc.foldl_put_distinct (by rw [List.nil_append]; exact keys), List.nil_append]
  refine ⟨keys, ?_⟩
  intro id dependencies
  rw [List.mem_filterMap]
  constructor
  · rintro ⟨issue, given, edge⟩
    have ⟨row, known, own⟩ := (mem_of_mapM h).mp given
    exact ⟨row, known, (waitIssue_edges own id dependencies).mp edge⟩
  · rintro ⟨row, known, waits⟩
    have ⟨issue, given, own⟩ := forall₂_left (mapM_ok h) known
    exact ⟨issue, given, (waitIssue_edges own id dependencies).mpr waits⟩

variable {edges : List (String × List String)}

theorem mem_openDependencies (distinct : (rows.map (·.id)).Nodup) {ids : List String} {other : ProcessRow}
    (known : other ∈ rows) (waits : other.status = .waiting) :
    other.id ∈ openDependencies (statusesOf rows) ids ↔ other.id ∈ ids := by
  have status := find_statusesOf distinct known
  simp [openDependencies, status, waits]

theorem Edges.waitsOn (built : Edges rows edges) {id dependency : String} (edge : WaitEdge edges id dependency) :
    WaitsOn rows id dependency := by
  have ⟨dependencies, own, among, follows⟩ := edge
  have ⟨others, next⟩ := Option.isSome_iff_exists.mp follows
  have ⟨row, known, named, waits, _, ids, declared, open_⟩ := (built.listed id dependencies).mp (Assoc.find_mem own)
  have ⟨other, known', named', waits', _⟩ := (built.listed dependency others).mp (Assoc.find_mem next)
  rw [← open_] at among
  exact ⟨row, known, other, known', ⟨named, waits⟩, ⟨named', waits'⟩, ids, declared, (List.mem_filter.mp among).1⟩

theorem Edges.found (built : Edges rows edges) (distinct : (rows.map (·.id)).Nodup) {id dependency : String}
    (waits : WaitsOn rows id dependency) :
    ∃ dependencies, Assoc.find id edges = some dependencies ∧ dependency ∈ dependencies := by
  have ⟨row, known, other, known', ⟨named, waiting⟩, ⟨named', waiting'⟩, ids, declared, among⟩ := waits
  rw [← named'] at among
  have still := (mem_openDependencies distinct known' waiting').mpr among
  have listed := (built.listed id _).mpr ⟨row, known, named, waiting, List.ne_nil_of_mem still, ids, declared, rfl⟩
  rw [named'] at still
  exact ⟨_, Assoc.find_of_mem built.distinct listed, still⟩

theorem Edges.onCycle (built : Edges rows edges) (distinct : (rows.map (·.id)).Nodup) {id : String} :
    OnCycle (WaitEdge edges) id ↔ OnCycle (WaitsOn rows) id := by
  constructor
  · intro cycle
    exact cycle.mono fun _ _ edge => built.waitsOn edge
  · intro cycle
    refine cycle.onward.mono ?_
    rintro a b ⟨waits, c, next⟩
    have ⟨dependencies, own, among⟩ := built.found distinct waits
    have ⟨others, follows, _⟩ := built.found distinct next
    exact ⟨dependencies, own, among, by rw [follows]; rfl⟩

end Rows

/-- A deadlock is reported exactly when waiting rows wait for each other in a cycle; each list reported is such a cycle,
no two of them have the same members. -/
structure Exact (rows : List ProcessRow) (diagnostic : WaitGraphDiagnostic) : Prop where
  deadlocked : diagnostic.deadlocked = true ↔ ∃ id, OnCycle (WaitsOn rows) id
  rounds : ∀ cycle ∈ diagnostic.deadlocks, Round (WaitsOn rows) cycle
  apart : diagnostic.deadlocks.Pairwise fun cycle other => ¬ SameMembers cycle other

theorem diagnoseRows_exact {runId impulseId : String} {rows : List ProcessRow} {homeostats : List (String × String)}
    {diagnostic : WaitGraphDiagnostic} (distinct : (rows.map (·.id)).Nodup)
    (h : diagnoseRows runId impulseId rows homeostats = .ok diagnostic) : Exact rows diagnostic := by
  have perm : (sortedById rows).Perm rows := sortedById_perm
  have sorted : ((sortedById rows).map (·.id)).Nodup := (perm.map _).nodup_iff.mpr distinct
  simp only [diagnoseRows, Schema.bind_ok] at h
  obtain ⟨issues, given, same⟩ := h
  have built := edges_of_issues sorted given
  cases same
  refine ⟨?_, ?_, ?_⟩
  · rw [decide_eq_true_iff, waitCycles_ne_nil]
    constructor
    · rintro ⟨id, cycle⟩
      exact ⟨id, ((built.onCycle sorted).mp cycle).mono fun _ _ waits => waits.perm perm⟩
    · rintro ⟨id, cycle⟩
      exact ⟨id, (built.onCycle sorted).mpr (cycle.mono fun _ _ waits => waits.perm perm.symm)⟩
  · intro cycle listed
    exact (waitCycles_found.rounds cycle listed).mono fun _ _ edge => (built.waitsOn edge).perm perm
  · exact waitCycles_found.apart

theorem listed_distinct (db : Database) (runId impulseId : String) :
    ((listed runId impulseId db.processes.rows).map (·.id)).Nodup := by
  have keys := db.processes.distinct
  refine List.Nodup.map_on ?_ ((List.Nodup.of_map _ keys).filter _)
  intro row here other there same
  have ⟨known, run, _⟩ := List.mem_filter.mp here |>.imp_right of_decide_eq_true
  have ⟨known', run', _⟩ := List.mem_filter.mp there |>.imp_right of_decide_eq_true
  refine List.inj_on_of_nodup_map keys known known' ?_
  exact Prod.ext (run.trans run'.symm) same

/-- The diagnosis of a run is exact, and the order of its rows does not matter. -/
theorem wait_graph_exact (db : Database) (runId impulseId : String) :
    (∀ rows homeostats, rows.Perm (listed runId impulseId db.processes.rows) →
      diagnoseRows runId impulseId rows homeostats =
        diagnoseRows runId impulseId (queueOrder (listed runId impulseId db.processes.rows)) homeostats) ∧
    ∀ diagnostic db', (diagnoseWaitGraph runId impulseId).eval db = (.ok diagnostic, db') →
      Exact (listed runId impulseId db.processes.rows) diagnostic := by
  have distinct := listed_distinct db runId impulseId
  have queue : (queueOrder (listed runId impulseId db.processes.rows)).Perm (listed runId impulseId db.processes.rows) :=
    List.perm_insertionSort _ _
  constructor
  · intro rows homeostats perm
    have sorted := sortedById_eq ((perm.map _).nodup_iff.mpr distinct) (perm.trans queue.symm)
    simp only [diagnoseRows, sorted]
  · intro diagnostic db' ran
    simp only [diagnoseWaitGraph, Program.bind_ok, Program.require_ok, Program.fetch_ok, Program.query_ok] at ran
    have ⟨_, _, ⟨_, rfl⟩, _, _, known, _, _, ⟨rfl, rfl⟩, _, _, ⟨rfl, rfl⟩, diagnosed, _⟩ := ran
    have ⟨_, same⟩ := requireRun_ok.mp known
    subst same
    have exact_ := diagnoseRows_exact ((queue.map _).nodup_iff.mpr distinct) diagnosed
    refine ⟨?_, ?_, exact_.apart⟩
    · rw [exact_.deadlocked]
      constructor
      · rintro ⟨id, cycle⟩
        exact ⟨id, cycle.mono fun _ _ waits => waits.perm queue⟩
      · rintro ⟨id, cycle⟩
        exact ⟨id, cycle.mono fun _ _ waits => waits.perm queue.symm⟩
    · intro cycle member
      exact (exact_.rounds cycle member).mono fun _ _ waits => waits.perm queue

example : waitCycles [("a", ["b", "a"]), ("b", ["c", "a"]), ("d", ["x"])] = [["a", "b"], ["a"]] := by decide +kernel

end Fala.Driver
