import Mathlib.Algebra.Order.Field.Basic
import Mathlib.Algebra.Order.Archimedean.Basic
import Mathlib.Data.Rat.Floor
import Fala.Driver.Execution
import Fala.Memory.Claim

/-! The delay before a retry. -/

namespace Fala.Driver
open Memory (ProcessRecord)

section
variable {K : Type} [Field K] [LinearOrder K] [IsStrictOrderedRing K]

/-- The loop of `retry_backoff_seconds`. -/
def backoffDelay (attempt : Int) (maxSeconds : K) (step : Int) (delay : K) : K :=
  if _left : step < attempt then
    if maxSeconds / 2 ≤ delay then maxSeconds else backoffDelay attempt maxSeconds (step + 1) (delay * 2)
  else delay
termination_by (attempt - step).toNat

def retryBackoffSeconds (process : ProcessRecord K) (baseSeconds maxSeconds : K) : Except String K :=
  if baseSeconds < 0 then .error "base_seconds must not be negative"
  else if maxSeconds < baseSeconds then .error "max_seconds must be at least base_seconds"
  else
    let delay := backoffDelay process.attempt maxSeconds 1 baseSeconds
    .ok (if maxSeconds < delay then maxSeconds else delay)

variable {attempt step : Int} {baseSeconds maxSeconds delay : K}

/-- Once half of the maximum is reached, every later doubling reaches the maximum. -/
theorem saturated {rounds : Nat} (nonnegative : 0 ≤ delay) (half : maxSeconds / 2 ≤ delay) :
    maxSeconds ≤ delay * 2 ^ (rounds + 1) := by
  have whole : maxSeconds ≤ delay * 2 := (div_le_iff₀ two_pos).mp half
  have grown : delay * 2 ≤ delay * 2 ^ (rounds + 1) := by
    apply mul_le_mul_of_nonneg_left _ nonnegative
    rw [pow_succ]
    exact le_mul_of_one_le_left zero_le_two (one_le_pow₀ one_le_two)
  exact whole.trans grown

/-- The doublings that are left, capped: the invariant of the loop. -/
theorem backoffDelay_eq (nonnegative : 0 ≤ delay) (below : delay ≤ maxSeconds) :
    backoffDelay attempt maxSeconds step delay = min maxSeconds (delay * 2 ^ (attempt - step).toNat) := by
  fun_induction backoffDelay attempt maxSeconds step delay with
  | case1 step delay left half =>
    have rounds : (attempt - step).toNat = (attempt - step - 1).toNat + 1 := by omega
    rw [rounds, min_eq_left (saturated nonnegative half)]
  | case2 step delay left half ih =>
    have doubled : delay * 2 ≤ maxSeconds := ((lt_div_iff₀ two_pos).mp (not_le.mp half)).le
    have rounds : (attempt - step).toNat = (attempt - (step + 1)).toNat + 1 := by omega
    rw [ih (mul_nonneg nonnegative zero_le_two) doubled, rounds, pow_succ', mul_assoc]
  | case3 step delay left =>
    have rounds : (attempt - step).toNat = 0 := by omega
    rw [rounds, pow_zero, mul_one, min_eq_right below]

variable {process : ProcessRecord K}

theorem retryBackoffSeconds_eq (nonnegative : 0 ≤ baseSeconds) (ordered : baseSeconds ≤ maxSeconds) :
    retryBackoffSeconds process baseSeconds maxSeconds =
      .ok (min maxSeconds (baseSeconds * 2 ^ (process.attempt - 1).toNat)) := by
  rw [retryBackoffSeconds, if_neg (not_lt.mpr nonnegative), if_neg (not_lt.mpr ordered)]
  have capped : backoffDelay process.attempt maxSeconds 1 baseSeconds =
      min maxSeconds (baseSeconds * 2 ^ (process.attempt - 1).toNat) := backoffDelay_eq nonnegative ordered
  have within : ¬ maxSeconds < backoffDelay process.attempt maxSeconds 1 baseSeconds := by
    rw [capped]
    exact not_lt.mpr (min_le_left _ _)
  simp only [if_neg within]
  rw [capped]

theorem capped_ge {rounds : Nat} (nonnegative : 0 ≤ baseSeconds) (ordered : baseSeconds ≤ maxSeconds) :
    baseSeconds ≤ min maxSeconds (baseSeconds * 2 ^ rounds) := by
  apply le_min ordered
  exact le_mul_of_one_le_right nonnegative (one_le_pow₀ one_le_two)

theorem capped_mono {rounds later : Nat} (nonnegative : 0 ≤ baseSeconds) (more : rounds ≤ later) :
    min maxSeconds (baseSeconds * 2 ^ rounds) ≤ min maxSeconds (baseSeconds * 2 ^ later) := by
  apply min_le_min_left
  exact mul_le_mul_of_nonneg_left (pow_le_pow_right₀ one_le_two more) nonnegative

/-- A retry waits for the doubled delay up to the maximum, and no retry waits less than the one before it. -/
theorem retry_backoff_doubles (nonnegative : 0 ≤ baseSeconds) (ordered : baseSeconds ≤ maxSeconds) :
    ∃ delay, retryBackoffSeconds process baseSeconds maxSeconds = .ok delay ∧
      delay = min maxSeconds (baseSeconds * 2 ^ (process.attempt - 1).toNat) ∧ baseSeconds ≤ delay ∧ delay ≤ maxSeconds ∧
        ∀ later : ProcessRecord K, process.attempt ≤ later.attempt →
          ∃ next, retryBackoffSeconds later baseSeconds maxSeconds = .ok next ∧ delay ≤ next := by
  refine ⟨_, retryBackoffSeconds_eq nonnegative ordered, rfl, capped_ge nonnegative ordered, min_le_left _ _, ?_⟩
  intro later after
  refine ⟨_, retryBackoffSeconds_eq nonnegative ordered, ?_⟩
  have more : (process.attempt - 1).toNat ≤ (later.attempt - 1).toNat := by omega
  exact capped_mono nonnegative more

end

/-- The third attempt of a process. -/
def thirdAttempt : ProcessRecord Rat := ⟨"p", "run", .running, 0, 3, 8, 0, 0, "", 0⟩

theorem retry_backoff_third : ∃ delay, retryBackoffSeconds thirdAttempt 2 5 = .ok delay ∧
    delay = min 5 (2 * 2 ^ (thirdAttempt.attempt - 1).toNat) ∧ 2 ≤ delay ∧ delay ≤ 5 ∧
      ∀ later : ProcessRecord Rat, thirdAttempt.attempt ≤ later.attempt →
        ∃ next, retryBackoffSeconds later 2 5 = .ok next ∧ delay ≤ next :=
  retry_backoff_doubles (by norm_num) (by norm_num)

/-! What the driver makes of it. -/

/-- `_backoff_number` -/
def backoffNumber : Json → Except String Rat
  | .float value => .ok value
  | .int value => .ok (float64OfInt value)
  | .uint value => .ok (float64OfInt value)
  | _ => .error "retry backoff must be a number"

/-- A setting of the regulation, or what stands for it when it is absent. -/
def backoffSetting (regulation : Json) (key : String) (absent : Rat) : Except String Rat :=
  match regulation.member key with
  | some value => backoffNumber value
  | none => .ok absent

/-- The part of `_retry_due` after its look at the text; `addSeconds` is the clock of SQLite. -/
def backoffDue (addSeconds : String → Int → String) (process : ProcessRow) (now : String) :
    Except String String := do
  let metadata ← process.metadata.parse.elim (.error "invalid JSON") .ok
  let regulation := (metadata.member "regulation").getD .null
  let baseSeconds ← backoffSetting regulation "base_seconds" 0
  let maxSeconds ← backoffSetting regulation "max_seconds" 3600
  let record : ProcessRecord Rat := ⟨process.id, process.runId, .running, 0, process.attempt, 1, 0, 0, "", 0⟩
  let delay ← retryBackoffSeconds record baseSeconds maxSeconds
  if delay = 0 then return now
  else if addSeconds now ⌈delay⌉ = "" then .error "retry backoff: invalid due timestamp"
  else return addSeconds now ⌈delay⌉

/-- A process with a backoff is due again when whole seconds for its capped delay are over. -/
theorem backoffDue_eq {addSeconds : String → Int → String} {process : ProcessRow} {now : String} {metadata : Json}
    {baseSeconds maxSeconds delay : Rat} (parsed : process.metadata.parse = some metadata)
    (base : backoffSetting ((metadata.member "regulation").getD .null) "base_seconds" 0 = .ok baseSeconds)
    (max : backoffSetting ((metadata.member "regulation").getD .null) "max_seconds" 3600 = .ok maxSeconds)
    (nonnegative : 0 ≤ baseSeconds) (ordered : baseSeconds ≤ maxSeconds)
    (capped : delay = min maxSeconds (baseSeconds * 2 ^ (process.attempt - 1).toNat)) (positive : delay ≠ 0)
    (told : addSeconds now ⌈delay⌉ ≠ "") : backoffDue addSeconds process now = .ok (addSeconds now ⌈delay⌉) := by
  unfold backoffDue
  rw [parsed, Option.elim_some]
  simp only [bind, Except.bind, base, max, retryBackoffSeconds_eq nonnegative ordered]
  rw [← capped, if_neg positive, if_neg told]
  rfl

end Fala.Driver
