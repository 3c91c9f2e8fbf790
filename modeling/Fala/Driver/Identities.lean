import Fala.Durable.Each
import Fala.Host.ChildRuns
import Fala.Journal.Common

/-! The identities that are derived from ids: work directories, context keys and process ids. -/

namespace Fala.Driver
open Host (joinPath)
open Joined (parts join)

/-- What the work directory of an attempt is named after. -/
structure AttemptIdentity where
  runId : String
  processId : String
  impulseId : String
  attempt : Int
  deriving DecidableEq

namespace AttemptIdentity

/-- The ids that the journal accepts: a run and a process are named. -/
structure Accepted (id : AttemptIdentity) : Prop where
  run : id.runId ≠ ""
  process : id.processId ≠ ""
  started : 1 ≤ id.attempt

def text (id : AttemptIdentity) : String :=
  id.runId ++ ":" ++ id.processId ++ ":" ++ id.impulseId ++ ":" ++ toString id.attempt

def ids (id : AttemptIdentity) : List String := [id.runId, id.processId, id.impulseId]

end AttemptIdentity

/-- Where effectors are launched: the working directory and `FALA_EFFECTOR_ROOT`. -/
structure EffectorPlace where
  cwd : String
  effectorRoot : String

/-- The root of the boundary in `launch_subprocess`; `sha` is the hexadecimal SHA-256 of a text. -/
def boundaryRoot (sha : String → String) (place : EffectorPlace) (workDir : String) (id : AttemptIdentity) : String :=
  if workDir ≠ "" then
    if workDir.startsWith "/" then workDir else joinPath place.cwd workDir
  else
    let base := if place.effectorRoot ≠ "" then place.effectorRoot else place.cwd
    joinPath base (".fala-effector-" ++ sha id.text)

/-- `ResolvedContext` -/
structure ResolvedContext where
  policy : String
  key : String
  sourceProcessId : String
  invalidationDigest : String
  deriving DecidableEq

/-- The arguments of `resolve_context`. -/
structure ContextRequest where
  policy : String
  runId : String
  processId : String
  impulseId : String
  invalidationDigest : String := ""
  sourceProcessId : String := ""
  sourceStatus : String := ""
  sourceProvenance : String := ""
  deriving DecidableEq

namespace ContextRequest

/-- The identity of the one who asks. -/
def identity (r : ContextRequest) : String × String × String × String :=
  (r.runId, r.processId, r.impulseId, r.invalidationDigest)

/-- The parts of the key that follow the policy. -/
def keyed (r : ContextRequest) : List String :=
  if r.policy = "inherit" then [r.sourceProcessId, r.invalidationDigest]
  else [r.runId, r.processId, r.impulseId, r.invalidationDigest]

end ContextRequest

/-- What `resolve_context` raises for a policy that is given. -/
def ContextRequest.refusal (r : ContextRequest) : Option String :=
  if r.policy ≠ "fresh" ∧ r.policy ≠ "resume" ∧ r.policy ≠ "inherit" then
    some "context.invalid: policy must be fresh, resume, or inherit"
  else if r.runId = "" ∨ r.processId = "" then some "context.invalid: run and process identity are required"
  else if r.policy = "inherit" then
    if r.sourceProcessId = "" then some "context.invalid: inherit requires source_process"
    else if r.sourceStatus ≠ "succeeded" then some "context.source_not_terminal: inherit source must be succeeded"
    else if r.sourceProvenance = "" ∨ r.sourceProvenance = "\x7b\x7d" then
      some "context.source_provenance: inherit source provenance is required"
    else none
  else if r.sourceProcessId ≠ "" then some "context.invalid: source_process is valid only for inherit"
  else none

def ContextRequest.text (r : ContextRequest) : String :=
  if r.policy = "inherit" then r.policy ++ "\n" ++ r.sourceProcessId ++ "\n" ++ r.invalidationDigest
  else r.policy ++ "\n" ++ r.runId ++ "\n" ++ r.processId ++ "\n" ++ r.impulseId ++ "\n" ++ r.invalidationDigest

/-- `resolve_context`: the attempt is not part of the key. -/
def resolveContext (sha : String → String) (r : ContextRequest) : Except String ResolvedContext :=
  if r.policy = "" then .ok ⟨"", "", "", ""⟩
  else
    match r.refusal with
    | some message => .error message
    | none => .ok ⟨r.policy, "ctx:sha256:" ++ sha r.text, r.sourceProcessId, r.invalidationDigest⟩

/-- One effector of a path that `instantiate_correlation_path_plan` plans for a run. -/
structure PlannedEffector where
  specId : String
  correlationPathId : String
  effectorId : String
  deriving DecidableEq

namespace PlannedEffector

/-- `CorrelationPathSpec` and `CorrelationEffectorSpec` refuse empty ids only. -/
structure Accepted (e : PlannedEffector) : Prop where
  path : e.specId ≠ ""
  effector : e.effectorId ≠ ""

def pathId (runId : String) (e : PlannedEffector) : String :=
  if e.correlationPathId = "" then runId ++ ":" ++ e.specId else e.correlationPathId

def processId (runId : String) (e : PlannedEffector) : String := e.pathId runId ++ ":" ++ e.effectorId

end PlannedEffector

/-! No two derived identities are the same. -/

def DirectoriesDiffer (sha : String → String) : Prop :=
  ∀ (place : EffectorPlace) (first second : AttemptIdentity), first.Accepted → second.Accepted →
    first ≠ second → boundaryRoot sha place "" first ≠ boundaryRoot sha place "" second

def ContextsDiffer (sha : String → String) : Prop :=
  ∀ (first second : ContextRequest) known known', first.policy = second.policy →
    resolveContext sha first = .ok known → resolveContext sha second = .ok known' →
      first.identity ≠ second.identity → known.key ≠ known'.key

def ProcessesDiffer : Prop :=
  ∀ (runId : String) (first second : PlannedEffector), first.Accepted → second.Accepted →
    (first.pathId runId, first.effectorId) ≠ (second.pathId runId, second.effectorId) →
      first.processId runId ≠ second.processId runId

/-- What tells the derived identities apart: the pieces between the separators, in their order. -/
structure ToldApart (sha : String → String) : Prop where
  directories : ∀ (place : EffectorPlace) (first second : AttemptIdentity),
    boundaryRoot sha place "" first ≠ boundaryRoot sha place "" second ↔
      first.attempt ≠ second.attempt ∨ first.ids.flatMap (parts ':') ≠ second.ids.flatMap (parts ':')
  contexts : ∀ (first second : ContextRequest) known known', first.policy = second.policy →
    resolveContext sha first = .ok known → resolveContext sha second = .ok known' →
      (known.key ≠ known'.key ↔
        first.policy ≠ "" ∧ first.keyed.flatMap (parts '\n') ≠ second.keyed.flatMap (parts '\n'))
  processes : ∀ (runId : String) (first second : PlannedEffector),
    first.processId runId ≠ second.processId runId ↔
      parts ':' (first.pathId runId) ++ parts ':' first.effectorId ≠
        parts ':' (second.pathId runId) ++ parts ':' second.effectorId

theorem AttemptIdentity.text_eq_join (id : AttemptIdentity) :
    id.text = join ':' (id.ids ++ [toString id.attempt]) := by
  simp only [text, ids, join, List.cons_append, List.nil_append, String.append_assoc]
  rfl

theorem repr_plain (attempt : Int) : ':' ∉ (toString attempt).toList := by
  have digits : ∀ n : Nat, ':' ∉ n.repr.toList := by
    intro n member
    rw [Nat.toList_repr] at member
    exact absurd (Nat.isDigit_of_mem_toDigits (by decide) (by decide) member) (by decide)
  change ':' ∉ attempt.repr.toList
  cases attempt with
  | ofNat n => exact digits n
  | negSucc n =>
    change ':' ∉ ("-" ++ (n + 1).repr).toList
    rw [String.toList_append, List.mem_append, not_or]
    exact ⟨by decide, digits _⟩

theorem AttemptIdentity.text_eq_iff (first second : AttemptIdentity) :
    first.text = second.text ↔
      first.attempt = second.attempt ∧ first.ids.flatMap (parts ':') = second.ids.flatMap (parts ':') := by
  have pieces : ∀ id : AttemptIdentity, (id.ids ++ [toString id.attempt]).flatMap (parts ':') =
      id.ids.flatMap (parts ':') ++ [(toString id.attempt).toList] := by
    intro id
    rw [List.flatMap_append, List.flatMap_singleton, Joined.parts_absent (repr_plain _)]
  rw [text_eq_join, text_eq_join, Joined.join_eq_iff (by simp) (by simp), pieces, pieces]
  constructor
  · intro same
    obtain ⟨ids, last⟩ := List.append_inj' same rfl
    have attempt := String.toList_injective (List.singleton_inj.mp last)
    exact ⟨toString_injective attempt, ids⟩
  · rintro ⟨attempt, ids⟩
    rw [attempt, ids]

theorem joinPath_inj {root name name' : String} : joinPath root name = joinPath root name' ↔ name = name' := by
  unfold joinPath
  split
  · exact String.append_right_inj root
  · exact String.append_right_inj _

theorem ContextRequest.text_eq_join (r : ContextRequest) : r.text = join '\n' (r.policy :: r.keyed) := by
  unfold text keyed
  split
  · simp only [join, String.append_assoc]
    rfl
  · simp only [join, String.append_assoc]
    rfl

theorem ContextRequest.text_eq_iff {first second : ContextRequest} (same : first.policy = second.policy) :
    first.text = second.text ↔ first.keyed.flatMap (parts '\n') = second.keyed.flatMap (parts '\n') := by
  rw [text_eq_join, text_eq_join, Joined.join_eq_iff (by simp) (by simp), List.flatMap_cons, List.flatMap_cons, same]
  exact List.append_right_inj _

theorem resolveContext_key {sha : String → String} {r : ContextRequest} {known : ResolvedContext}
    (resolved : resolveContext sha r = .ok known) :
    known.key = if r.policy = "" then "" else "ctx:sha256:" ++ sha r.text := by
  unfold resolveContext at resolved
  split at resolved
  · rename_i none
    cases resolved
    rw [if_pos none]
  · rename_i given
    rw [if_neg given]
    split at resolved
    · cases resolved
    · cases resolved
      rfl

variable {sha : String → String}

theorem boundaryRoot_eq_iff (injective : Function.Injective sha) (place : EffectorPlace)
    (first second : AttemptIdentity) :
    boundaryRoot sha place "" first = boundaryRoot sha place "" second ↔ first.text = second.text := by
  simp only [boundaryRoot, ne_eq, not_true_eq_false, if_false, joinPath_inj]
  rw [String.append_right_inj]
  exact injective.eq_iff

theorem PlannedEffector.processId_eq_iff {runId : String} {first second : PlannedEffector} :
    first.processId runId = second.processId runId ↔
      parts ':' (first.pathId runId) ++ parts ':' first.effectorId =
        parts ':' (second.pathId runId) ++ parts ':' second.effectorId := by
  have pieces : ∀ e : PlannedEffector,
      parts ':' (e.processId runId) = parts ':' (e.pathId runId) ++ parts ':' e.effectorId :=
    fun e => Joined.parts_append _ _
  rw [← pieces, ← pieces]
  exact ⟨congrArg _, Joined.parts_injective⟩

/-- Derived identities are told apart exactly by the pieces of what they are derived from. -/
theorem derived_identities_apart_iff (injective : Function.Injective sha) : ToldApart sha where
  directories place first second := by
    rw [ne_eq, boundaryRoot_eq_iff injective, AttemptIdentity.text_eq_iff, not_and_or]
  contexts first second known known' same resolved resolved' := by
    rw [resolveContext_key resolved, resolveContext_key resolved', ← same]
    by_cases none : first.policy = ""
    · simp [none]
    · rw [if_neg none, if_neg none, ne_eq, String.append_right_inj, injective.eq_iff,
        ContextRequest.text_eq_iff same]
      simp [none]
  processes runId first second := not_congr PlannedEffector.processId_eq_iff

theorem derived_identities_apart_plain : ToldApart id := derived_identities_apart_iff Function.injective_id

/-- With a boundary moved from one colon to another, two attempts have one directory and two effectors one process;
    heirs of one source share their context, also in two runs. -/
theorem derived_identities_collide :
    (¬ ∀ sha : String → String, Function.Injective sha → DirectoriesDiffer sha) ∧
      (¬ ∀ sha : String → String, Function.Injective sha → ContextsDiffer sha) ∧ ¬ ProcessesDiffer := by
  refine ⟨fun differ => ?_, fun differ => ?_, fun differ => ?_⟩
  · have apart := differ id Function.injective_id ⟨"/", ""⟩ ⟨"a", "b:c", "", 1⟩ ⟨"a:b", "c", "", 1⟩
      ⟨by decide, by decide, by decide⟩ ⟨by decide, by decide, by decide⟩ (by decide)
    exact apart (by decide +kernel)
  · let heir (runId : String) : ContextRequest :=
      ⟨"inherit", runId, "review", "", "v1", "author", "succeeded", "\x7b\"package_digest\":\"graph\"\x7d"⟩
    have apart := differ id Function.injective_id (heir "r") (heir "s")
      ⟨"inherit", "ctx:sha256:inherit\nauthor\nv1", "author", "v1"⟩
      ⟨"inherit", "ctx:sha256:inherit\nauthor\nv1", "author", "v1"⟩ rfl (by decide +kernel) (by decide +kernel) (by decide)
    exact apart rfl
  · have apart := differ "r" ⟨"a", "", "b:c"⟩ ⟨"a:b", "", "c"⟩ ⟨by decide, by decide⟩ ⟨by decide, by decide⟩
      (by decide +kernel)
    exact apart (by decide +kernel)

end Fala.Driver
