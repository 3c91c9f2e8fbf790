namespace Durable

variable {σ ι : Type} {step : σ → ι → σ}

/-- The state after a history of calls. -/
def execute (step : σ → ι → σ) (start : σ) (calls : List ι) : σ := calls.foldl step start

@[simp] theorem execute_nil (start : σ) : execute step start [] = start := rfl

@[simp] theorem execute_cons (start : σ) (call : ι) (calls : List ι) :
    execute step start (call :: calls) = execute step (step start call) calls := rfl

theorem execute_append (step : σ → ι → σ) (start : σ) (first rest : List ι) :
    execute step start (first ++ rest) = execute step (execute step start first) rest :=
  List.foldl_append

/-- A property of the state before each call holds all along a history. -/
def Along (step : σ → ι → σ) (C : σ → ι → Prop) : σ → List ι → Prop
  | _, [] => True
  | s, call :: calls => C s call ∧ Along step C (step s call) calls

instance Along.decidable {C : σ → ι → Prop} [∀ s call, Decidable (C s call)] :
    ∀ (start : σ) (calls : List ι), Decidable (Along step C start calls)
  | _, [] => .isTrue trivial
  | s, call :: calls =>
    have := Along.decidable (C := C) (step s call) calls
    inferInstanceAs (Decidable (C s call ∧ Along step C (step s call) calls))

theorem Along.always {C : σ → ι → Prop} (holds : ∀ s call, C s call) (start : σ) (calls : List ι) :
    Along step C start calls := by
  induction calls generalizing start with
  | nil => trivial
  | cons call calls ih => exact ⟨holds start call, ih (step start call)⟩

theorem Along.append_left {C : σ → ι → Prop} {start : σ} {first rest : List ι}
    (along : Along step C start (first ++ rest)) : Along step C start first := by
  induction first generalizing start with
  | nil => trivial
  | cons call calls ih => exact ⟨along.1, ih along.2⟩

theorem Along.each {C : σ → ι → Prop} {P : ι → Prop} {start : σ} {calls : List ι}
    (along : Along step C start calls) (each : ∀ call ∈ calls, P call) :
    Along step (fun s call => P call ∧ C s call) start calls := by
  induction calls generalizing start with
  | nil => trivial
  | cons call calls ih =>
    obtain ⟨here, later⟩ := List.forall_mem_cons.mp each
    exact ⟨⟨here, along.1⟩, ih along.2 later⟩

theorem Along.imp {C D : σ → ι → Prop} {start : σ} {calls : List ι}
    (along : Along step C start calls) (weaker : ∀ s call, C s call → D s call) :
    Along step D start calls := by
  induction calls generalizing start with
  | nil => trivial
  | cons call calls ih => exact ⟨weaker _ _ along.1, ih along.2⟩

theorem Along.under {I : σ → Prop} {C D : σ → ι → Prop} {start : σ} {calls : List ι}
    (along : Along step C start calls) (initial : I start)
    (preserved : ∀ s call, I s → C s call → I (step s call))
    (gives : ∀ s call, I s → C s call → D s call) : Along step D start calls := by
  induction calls generalizing start with
  | nil => trivial
  | cons call calls ih =>
    obtain ⟨here, later⟩ := along
    exact ⟨gives start call initial here, ih later (preserved start call initial here)⟩

theorem Along.iff {I : σ → Prop} {P C D : σ → ι → Prop} {start : σ} {calls : List ι}
    (along : Along step P start calls) (initial : I start)
    (agree : ∀ s call, I s → P s call → (C s call ↔ D s call))
    (preserved : ∀ s call, I s → C s call → I (step s call)) :
    Along step C start calls ↔ Along step D start calls := by
  induction calls generalizing start with
  | nil => rfl
  | cons call calls ih =>
    have here := agree start call initial along.1
    constructor
    · rintro ⟨first, later⟩
      exact ⟨here.mp first, (ih along.2 (preserved _ _ initial first)).mp later⟩
    · rintro ⟨first, later⟩
      have first := here.mpr first
      exact ⟨first, (ih along.2 (preserved _ _ initial first)).mpr later⟩

theorem execute_induction {I : σ → Prop} {start : σ} (initial : I start)
    (preserved : ∀ s call, I s → I (step s call)) (calls : List ι) :
    I (execute step start calls) := by
  induction calls generalizing start with
  | nil => exact initial
  | cons call calls ih => exact ih (preserved _ _ initial)

theorem execute_along {I : σ → Prop} {C : σ → ι → Prop} {start : σ} (initial : I start)
    (preserved : ∀ s call, I s → C s call → I (step s call)) {calls : List ι}
    (along : Along step C start calls) : I (execute step start calls) := by
  induction calls generalizing start with
  | nil => exact initial
  | cons call calls ih => exact ih (preserved _ _ initial along.1) along.2

/-- The calls of others do not show: when every call of one's own keeps two states related, and
    every other call does so on one side alone, a history is related to the part of it that is
    one's own. -/
theorem execute_unwound {R : σ → σ → Prop} {C : σ → ι → Prop} {mine : ι → Bool}
    (own : ∀ s t call, R s t → C s call → mine call = true → R (step s call) (step t call))
    (others : ∀ s t call, R s t → C s call → mine call = false → R (step s call) t)
    {s t : σ} (related : R s t) {calls : List ι} (along : Along step C s calls) :
    R (execute step s calls) (execute step t (calls.filter mine)) := by
  induction calls generalizing s t with
  | nil => exact related
  | cons call calls ih =>
    obtain ⟨here, later⟩ := along
    cases whose : mine call with
    | true =>
      rw [List.filter_cons_of_pos whose]
      exact ih (own s t call related here whose) later
    | false =>
      rw [List.filter_cons_of_neg (by rw [whose]; exact Bool.false_ne_true)]
      exact ih (others s t call related here whose) later

end Durable
