import Fala.Package.GraphTools

/-! The cycles that `graph_validate` reports. -/

namespace Fala.Package
open Relation Fala.Graph Correlation

/-- One effector of a path depends on another. -/
def Depends (effectors : List PackageEffector) (id reference : String) : Prop :=
  ∃ effector, findEffector effectors id = some effector ∧ reference ∈ effector.conduction

section Search

variable {effectors : List PackageEffector} {start : String}

theorem depends_of_found {effector : PackageEffector} {id : String}
    (found : findEffector effectors id = some effector) (reference : String) :
    Depends effectors id reference ↔ reference ∈ effector.conduction := by
  constructor
  · rintro ⟨other, same, listed⟩
    cases found.symm.trans same
    exact listed
  · intro listed
    exact ⟨effector, found, listed⟩

theorem returns_iff {roots : String → Prop} {pending seen : List String}
    (swept : Sweep (Depends effectors) roots pending seen) (new : start ∉ seen) :
    returns effectors start pending seen = true ↔ Reached (Depends effectors) roots start := by
  fun_induction returns effectors start pending seen with
  | case1 seen =>
    constructor
    · intro found
      cases found
    · intro reached
      exact absurd ((swept.finished start).mpr reached) new
  | case2 seen rest =>
    have reached := swept.reached start (.inl List.mem_cons_self)
    exact ⟨fun _ => reached, fun _ => rfl⟩
  | case3 seen id rest other old ih => exact ih (swept.skip old) new
  | case4 seen id rest other fresh missing ih =>
    have dead : ∀ reference, ¬ Depends effectors id reference := by
      rintro reference ⟨effector, found, _⟩
      cases missing.symm.trans found
    refine ih (swept.expand ?_ ?_ ?_) ?_
    · exact fun _ listed => listed
    · exact fun _ listed => .inl listed
    · exact fun reference taken => absurd taken (dead reference)
    · intro listed
      rcases List.mem_cons.mp listed with same | older
      · exact other same.symm
      · exact new older
  | case5 seen id rest other fresh dependency found ih =>
    have edge := depends_of_found found
    refine ih (swept.expand ?_ ?_ ?_) ?_
    · exact fun _ listed => List.mem_append_right _ listed
    · intro node listed
      rcases List.mem_append.mp listed with parent | older
      · exact .inr ((edge node).mpr (List.mem_reverse.mp parent))
      · exact .inl older
    · intro node taken
      exact .inl (List.mem_append_left _ (List.mem_reverse.mpr ((edge node).mp taken)))
    · intro listed
      rcases List.mem_cons.mp listed with same | older
      · exact other same.symm
      · exact new older

theorem Linked.found (linked : Linked effectors) {effector : PackageEffector} (listed : effector ∈ effectors) :
    findEffector effectors effector.id = some effector := by
  cases found : findEffector effectors effector.id with
  | none =>
    have unnamed := List.find?_eq_none.mp found effector listed
    exact absurd (decide_eq_true rfl) unnamed
  | some other =>
    have ⟨known, same⟩ := findEffector_listed found
    exact congrArg some (List.inj_on_of_nodup_map linked.distinct known listed same)

theorem Linked.returns_iff (linked : Linked effectors) {effector : PackageEffector} (listed : effector ∈ effectors) :
    returns effectors effector.id effector.conduction.reverse [] = true ↔
      OnCycle (Depends effectors) effector.id := by
  have edge := depends_of_found (linked.found listed)
  have swept : Sweep (Depends effectors) (Depends effectors effector.id) effector.conduction.reverse [] := by
    refine Sweep.start ?_
    intro node
    rw [List.mem_reverse]
    exact (edge node).symm
  rw [Package.returns_iff swept List.not_mem_nil, OnCycle, TransGen.head'_iff]
  rfl

end Search

namespace PackageCorrelationPath

/-- The conduction of a path has a directed cycle. -/
def Cyclic (path : PackageCorrelationPath) : Prop := ∃ id, OnCycle (Depends path.effectors) id

/-- A manual wait of a path has neither an effector nor a terminal after it. -/
def OpenWait (path : PackageCorrelationPath) : Prop :=
  ∃ effector ∈ path.effectors, effector.adapterKind = "manual_homeostat" ∧
    (∀ candidate ∈ path.effectors, effector.id ∉ candidate.conduction) ∧
    ∀ terminal ∈ path.terminals, terminal.sourceEffector ≠ effector.id

variable {path : PackageCorrelationPath}

theorem Cyclic.effector (cyclic : path.Cyclic) : ∃ effector ∈ path.effectors, OnCycle (Depends path.effectors) effector.id := by
  have ⟨id, cycle⟩ := cyclic
  have ⟨_, effector, found, _⟩ := OnCycle.left cycle
  have ⟨listed, named⟩ := findEffector_listed found
  rw [← named] at cycle
  exact ⟨effector, listed, cycle⟩

theorem cycleAt_some {index : Nat} (found : path.cycleAt = some index) :
    ∃ effector, path.effectors[index]? = some effector ∧ OnCycle (Depends path.effectors) effector.id := by
  have ⟨bounded, search, _⟩ := List.findIdx?_eq_some_iff_getElem.mp found
  have listed := List.getElem_mem bounded
  exact ⟨path.effectors[index], List.getElem?_eq_getElem bounded, (path.linked.returns_iff listed).mp search⟩

theorem cycleAt_isSome : path.cycleAt.isSome = true ↔ path.Cyclic := by
  rw [cycleAt, List.findIdx?_isSome, List.any_eq_true]
  constructor
  · rintro ⟨effector, listed, search⟩
    exact ⟨effector.id, (path.linked.returns_iff listed).mp search⟩
  · intro cyclic
    have ⟨effector, listed, cycle⟩ := cyclic.effector
    exact ⟨effector, listed, (path.linked.returns_iff listed).mpr cycle⟩

theorem openWaitAt_isSome : path.openWaitAt.isSome = true ↔ path.OpenWait := by
  simp [openWaitAt, List.findIdx?_isSome, List.any_eq_true, OpenWait, isClosed]

theorem finding_cycle : (∃ index, path.finding = some (.cycle index)) ↔ path.Cyclic := by
  rw [← cycleAt_isSome]
  cases cycle : path.cycleAt with
  | some index => simp [finding, cycle]
  | none =>
    cases wait : path.openWaitAt <;> simp [finding, cycle, wait]

theorem finding_none : path.finding = none ↔ ¬ path.Cyclic ∧ ¬ path.OpenWait := by
  rw [← cycleAt_isSome, ← openWaitAt_isSome]
  cases cycle : path.cycleAt <;> cases wait : path.openWaitAt <;> simp [finding, cycle, wait]

end PackageCorrelationPath

theorem firstFinding_cycle {paths : List PackageCorrelationPath} {start : Nat} :
    (∃ pathIndex index, firstFinding start paths = some (pathIndex, .cycle index)) ↔
      ∃ earlier path later, paths = earlier ++ path :: later ∧ path.Cyclic ∧ ∀ other ∈ earlier, ¬ other.OpenWait := by
  induction paths generalizing start with
  | nil => simp [firstFinding]
  | cons head rest ih =>
    cases found : head.finding with
    | none =>
      have ⟨acyclic, shut⟩ := PackageCorrelationPath.finding_none.mp found
      simp only [firstFinding, found, Option.map_none, Option.none_or, ih]
      constructor
      · rintro ⟨earlier, path, later, split, cyclic, closed⟩
        refine ⟨head :: earlier, path, later, by rw [split]; rfl, cyclic, ?_⟩
        exact List.forall_mem_cons.mpr ⟨shut, closed⟩
      · rintro ⟨earlier, path, later, split, cyclic, closed⟩
        cases earlier with
        | nil =>
          cases split
          exact absurd cyclic acyclic
        | cons first earlier =>
          cases split
          exact ⟨earlier, path, later, rfl, cyclic, (List.forall_mem_cons.mp closed).2⟩
    | some first =>
      cases first with
      | cycle index =>
        have cyclic := PackageCorrelationPath.finding_cycle.mp ⟨index, found⟩
        simp only [firstFinding, found, Option.map_some, Option.some_or]
        constructor
        · intro _
          exact ⟨[], head, rest, rfl, cyclic, fun _ listed => absurd listed List.not_mem_nil⟩
        · intro _
          exact ⟨start, index, rfl⟩
      | openWait index =>
        have acyclic : ¬ head.Cyclic := by
          intro cyclic
          have ⟨other, same⟩ := PackageCorrelationPath.finding_cycle.mpr cyclic
          cases found.symm.trans same
        have wait : head.OpenWait := by
          by_contra shut
          cases found.symm.trans (PackageCorrelationPath.finding_none.mpr ⟨acyclic, shut⟩)
        simp only [firstFinding, found, Option.map_some, Option.some_or]
        constructor
        · rintro ⟨_, _, same⟩
          cases same
        · rintro ⟨earlier, path, later, split, cyclic, closed⟩
          cases earlier with
          | nil =>
            cases split
            exact absurd cyclic acyclic
          | cons first earlier =>
            cases split
            exact absurd wait (closed _ List.mem_cons_self)

theorem firstFinding_names {paths : List PackageCorrelationPath} {start pathIndex index : Nat}
    (found : firstFinding start paths = some (pathIndex, .cycle index)) :
    ∃ path, start ≤ pathIndex ∧ paths[pathIndex - start]? = some path ∧ path.cycleAt = some index := by
  induction paths generalizing start with
  | nil => cases found
  | cons head rest ih =>
    cases own : head.finding with
    | none =>
      simp only [firstFinding, own, Option.map_none, Option.none_or] at found
      have ⟨path, bound, listed, cycle⟩ := ih found
      refine ⟨path, by omega, ?_, cycle⟩
      have next : pathIndex - start = (pathIndex - (start + 1)) + 1 := by omega
      rw [next, List.getElem?_cons_succ]
      exact listed
    | some first =>
      simp only [firstFinding, own, Option.map_some, Option.some_or, Option.some.injEq, Prod.mk.injEq] at found
      have ⟨here, same⟩ := found
      subst here same
      refine ⟨head, Nat.le_refl _, by rw [Nat.sub_self]; rfl, ?_⟩
      cases cycle : head.cycleAt with
      | some other =>
        simp only [PackageCorrelationPath.finding, cycle, Option.map_some, Option.some_or] at own
        cases own
        rfl
      | none =>
        cases wait : head.openWaitAt <;> simp [PackageCorrelationPath.finding, cycle, wait] at own

theorem graphValidate_finding {print : Printer} {manifest : PackageManifest} {pathIndex : Nat} {found : Finding} :
    graphValidate print (.ok manifest) = .finding pathIndex found ↔
      firstFinding 0 manifest.correlationPaths = some (pathIndex, found) := by
  cases first : firstFinding 0 manifest.correlationPaths with
  | some pair => simp [graphValidate, first, Prod.ext_iff]
  | none =>
    cases report : coverageReport print manifest with
    | error message => simp [graphValidate, first, report]
    | ok covering =>
      by_cases clean : covering.diagnostics = [] <;> simp [graphValidate, first, report, clean]

/-- A cycle is reported for exactly the packages of which a path has one and no path before it an open wait; the effector
that is named lies on a cycle of its path. -/
theorem graph_cycle_reported_iff (print : Printer) (manifest : PackageManifest) :
    ((∃ pathIndex index, graphValidate print (.ok manifest) = .finding pathIndex (.cycle index)) ↔
      ∃ earlier path later, manifest.correlationPaths = earlier ++ path :: later ∧ path.Cyclic ∧
        ∀ other ∈ earlier, ¬ other.OpenWait) ∧
    ∀ pathIndex index, graphValidate print (.ok manifest) = .finding pathIndex (.cycle index) →
      ∃ path effector, manifest.correlationPaths[pathIndex]? = some path ∧ path.effectors[index]? = some effector ∧
        OnCycle (Depends path.effectors) effector.id := by
  constructor
  · simp only [graphValidate_finding]
    exact firstFinding_cycle
  · intro pathIndex index reported
    have ⟨path, _, listed, cycle⟩ := firstFinding_names (graphValidate_finding.mp reported)
    have ⟨effector, here, onCycle⟩ := PackageCorrelationPath.cycleAt_some cycle
    exact ⟨path, effector, listed, here, onCycle⟩

/-- A manual wait that nothing closes, and in the next path two effectors that depend on each other. -/
def waitBeforeCycle : PackageManifest where
  correlationPaths :=
    [{ id := "open"
       effectors := [{ id := "review", adapterKind := "manual_homeostat" }]
       terminals := []
       linked := ⟨by decide, by decide⟩ },
     { id := "cycle"
       effectors := [{ id := "left", conduction := ["right"], adapterKind := "subprocess" },
         { id := "right", conduction := ["left"], adapterKind := "subprocess" }]
       terminals := []
       linked := ⟨by decide, by decide⟩ }]

/-- The cycle of the second path is not reported. -/
theorem graph_cycle_behind_open_wait :
    ¬ ((∃ pathIndex index, graphValidate Json.spell (.ok waitBeforeCycle) = .finding pathIndex (.cycle index)) ↔
      ∃ path ∈ waitBeforeCycle.correlationPaths, path.Cyclic) := by
  intro reported
  have first : firstFinding 0 waitBeforeCycle.correlationPaths = some (0, .openWait 0) := by decide +kernel
  have second : ∃ path ∈ waitBeforeCycle.correlationPaths, path.cycleAt.isSome = true := by decide +kernel
  have ⟨path, listed, cycle⟩ := second
  have ⟨_, _, found⟩ := reported.mpr ⟨path, listed, PackageCorrelationPath.cycleAt_isSome.mp cycle⟩
  cases first.symm.trans (graphValidate_finding.mp found)

end Fala.Package
