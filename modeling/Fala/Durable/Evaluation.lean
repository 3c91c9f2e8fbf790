

namespace Durable

/-- Results are compared with their errors. -/
instance decidableEqExcept {ε α : Type} [DecidableEq ε] [DecidableEq α] : DecidableEq (Except ε α)
  | .error e, .error e' => decidable_of_iff (e = e') ⟨congrArg _, Except.error.inj⟩
  | .ok a, .ok a' => decidable_of_iff (a = a') ⟨congrArg _, Except.ok.inj⟩
  | .error _, .ok _ => .isFalse (by intro same; cases same)
  | .ok _, .error _ => .isFalse (by intro same; cases same)

variable {σ α β : Type}

/-- An open connection: the rows it works on, and how many more statements
    succeed before one fails (`none` when all of them do). -/
structure Connection (σ : Type) where
  store : σ
  faults : Option Nat

/-- The connection after one more statement was sent, if that statement succeeds. -/
def Connection.tick (c : Connection σ) : Option (Connection σ) :=
  match c.faults with
  | none => some c
  | some 0 => none
  | some (n + 1) => some { c with faults := some n }

def statementFailed : String := "statement failed"

/-- A sequence of statements. A run in which no statement fails never meets a
    fault, and a run that returns in spite of a fault budget is that run. -/
structure Program (σ α : Type) where
  run : Connection σ → Except String α × Connection σ
  settled : ∀ s, (run ⟨s, none⟩).2.faults = none
  steady : ∀ c a c', run c = (.ok a, c') → run ⟨c.store, none⟩ = (.ok a, ⟨c'.store, none⟩)

namespace Program

/-- The run in which every statement succeeds. -/
def eval (p : Program σ α) (s : σ) : Except String α × σ :=
  ((p.run ⟨s, none⟩).1, (p.run ⟨s, none⟩).2.store)

theorem run_unfaulted (p : Program σ α) (s : σ) :
    p.run ⟨s, none⟩ = ((p.eval s).1, ⟨(p.eval s).2, none⟩) := by
  have settled := p.settled s
  generalize h : p.run ⟨s, none⟩ = r at settled
  obtain ⟨result, store, faults⟩ := r
  cases settled
  simp [eval, h]

theorem eval_of_run {p : Program σ α} {c c' : Connection σ} {a : α}
    (h : p.run c = (.ok a, c')) : p.eval c.store = (.ok a, c'.store) := by
  simp [eval, p.steady _ _ _ h]

protected def pure (a : α) : Program σ α where
  run c := (.ok a, c)
  settled _ := rfl
  steady _ _ _ h := by cases h; rfl

/-- Raise an error outside every transaction. -/
def raise (message : String) : Program σ α where
  run c := (.error message, c)
  settled _ := rfl
  steady _ _ _ h := by cases h

def bindRun (p : Program σ α) (f : α → Program σ β) (c : Connection σ) :
    Except String β × Connection σ :=
  match p.run c with
  | (.ok a, c') => (f a).run c'
  | (.error message, c') => (.error message, c')

protected def bind (p : Program σ α) (f : α → Program σ β) : Program σ β where
  run := bindRun p f
  settled s := by
    unfold bindRun
    rw [run_unfaulted]
    cases (p.eval s).1 with
    | ok a => exact (f a).settled _
    | error message => rfl
  steady c b c' h := by
    unfold bindRun at h ⊢
    cases first : p.run c with
    | mk result middle =>
      cases result with
      | ok a =>
        simp only [first] at h
        simp only [p.steady _ _ _ first]
        exact (f a).steady _ _ _ h
      | error message => simp [first] at h

instance : Monad (Program σ) where
  pure := Program.pure
  bind := Program.bind

protected theorem pure_bind (a : α) (f : α → Program σ β) : pure a >>= f = f a := rfl

/-- The program without its result. -/
def void (p : Program σ α) : Program σ Unit := p >>= fun _ => pure ()

/-- One statement: it reads and writes rows, or is refused. -/
def statement (f : σ → Except String (α × σ)) : Program σ α where
  run c :=
    match c.tick with
    | none => (.error statementFailed, { c with faults := none })
    | some c' =>
      match f c'.store with
      | .ok (a, s) => (.ok a, { c' with store := s })
      | .error message => (.error message, c')
  settled s := by
    simp only [Connection.tick]
    cases f s <;> rfl
  steady c a c' h := by
    obtain ⟨s, faults⟩ := c
    rcases faults with _ | _ | n <;> simp only [Connection.tick] at h ⊢ <;>
      first
      | (cases h; done)
      | (cases result : f s <;> simp only [result] at h <;> cases h; rfl)

/-- A statement that only reads. -/
def query (f : σ → Except String α) : Program σ α :=
  statement fun s => (f s).map (·, s)

def fetch (f : σ → α) : Program σ α := query fun s => .ok (f s)

def require (condition : Bool) (message : String) : Program σ Unit :=
  if condition then pure () else raise message

/-- A computation on values already read, which may raise. -/
def ofExcept : Except String α → Program σ α
  | .ok a => pure a
  | .error message => raise message

def commit : Program σ Unit := statement fun s => .ok ((), s)

/-- The statements of a transaction with the commit that ends it. -/
def committed (body : Program σ α) : Program σ α := do
  let a ← body
  commit
  return a

def transactRun (wrap : String → String) (body : Program σ α) (c : Connection σ) :
    Except String α × Connection σ :=
  match c.tick with
  | none => (.error statementFailed, { c with faults := none })
  | some opened =>
    match (committed body).run opened with
    | (.ok a, c') => (.ok a, c')
    | (.error message, c') => (.error (wrap message), ⟨c.store, c'.faults⟩)

/-- `BEGIN IMMEDIATE`, the body, `COMMIT`; an error of the body or of the commit
    rolls the store back and is reported as `wrap` says. -/
def transact (wrap : String → String) (body : Program σ α) : Program σ α where
  run := transactRun wrap body
  settled s := by
    simp only [transactRun, Connection.tick, run_unfaulted]
    cases ((committed body).eval s).1 <;> rfl
  steady c a c' h := by
    have steady := fun d => (committed body).steady d a c'
    unfold transactRun at h ⊢
    cases opened : c.tick with
    | none => simp [opened] at h
    | some d =>
      have same : d.store = c.store := by
        obtain ⟨s, faults⟩ := c
        rcases faults with _ | _ | n <;> simp only [Connection.tick] at opened <;> cases opened <;> rfl
      simp only [opened] at h
      split at h
      · cases h
        rename_i returned
        simp only [Connection.tick]
        rw [← same, steady d returned]
      · cases h

end Program
end Durable

namespace Durable.Program

variable {σ α β : Type}

theorem eval_pure (a : α) (s : σ) : (pure a : Program σ α).eval s = (.ok a, s) := rfl

theorem eval_raise (message : String) (s : σ) :
    (raise message : Program σ α).eval s = (.error message, s) := rfl

theorem eval_bind (p : Program σ α) (f : α → Program σ β) (s : σ) :
    (p >>= f).eval s =
      match p.eval s with
      | (.ok a, s') => (f a).eval s'
      | (.error message, s') => (.error message, s') := by
  change ((bindRun p f ⟨s, none⟩).1, (bindRun p f ⟨s, none⟩).2.store) = _
  simp only [bindRun, run_unfaulted]
  cases h : p.eval s with
  | mk result middle => cases result <;> rfl

theorem eval_statement (f : σ → Except String (α × σ)) (s : σ) :
    (statement f).eval s =
      match f s with
      | .ok (a, s') => (.ok a, s')
      | .error message => (.error message, s) := by
  simp only [eval, statement, Connection.tick]
  cases f s <;> rfl

theorem eval_query (f : σ → Except String α) (s : σ) : (query f).eval s = (f s, s) := by
  simp only [query, eval_statement]
  cases f s <;> rfl

theorem eval_fetch (f : σ → α) (s : σ) : (fetch f).eval s = (.ok (f s), s) := by
  simp [fetch, eval_query]

theorem eval_ofExcept (r : Except String α) (s : σ) :
    (ofExcept r : Program σ α).eval s = (r, s) := by
  cases r <;> rfl

theorem eval_require (condition : Bool) (message : String) (s : σ) :
    (require condition message : Program σ Unit).eval s =
      (if condition then .ok () else .error message, s) := by
  cases condition <;> rfl

theorem eval_committed (body : Program σ α) (s : σ) : (committed body).eval s = body.eval s := by
  simp only [committed, eval_bind, commit, eval_statement, eval_pure]
  cases h : body.eval s with
  | mk result after => cases result <;> rfl

theorem eval_transact (wrap : String → String) (body : Program σ α) (s : σ) :
    (transact wrap body).eval s =
      match body.eval s with
      | (.ok a, s') => (.ok a, s')
      | (.error message, _) => (.error (wrap message), s) := by
  change ((transactRun wrap body ⟨s, none⟩).1, (transactRun wrap body ⟨s, none⟩).2.store) = _
  simp only [transactRun, Connection.tick, run_unfaulted, eval_committed]
  cases h : body.eval s with
  | mk result after => cases result <;> rfl

/-! What a program did, given that it returned. -/

theorem pure_ok {a b : α} {s s' : σ} :
    (pure a : Program σ α).eval s = (.ok b, s') ↔ a = b ∧ s = s' := by
  simp [eval_pure]

theorem raise_ok {message : String} {a : α} {s s' : σ} :
    ¬ (raise message : Program σ α).eval s = (.ok a, s') := by
  simp [eval_raise]

theorem bind_ok {p : Program σ α} {f : α → Program σ β} {b : β} {s s' : σ} :
    (p >>= f).eval s = (.ok b, s') ↔
      ∃ a middle, p.eval s = (.ok a, middle) ∧ (f a).eval middle = (.ok b, s') := by
  rw [eval_bind]
  cases h : p.eval s with
  | mk result middle =>
    cases result with
    | ok a =>
      refine ⟨fun rest => ⟨a, middle, rfl, rest⟩, ?_⟩
      rintro ⟨_, _, same, rest⟩
      cases same
      exact rest
    | error message => simp

theorem ok_bind {p : Program σ α} {f : α → Program σ β} {a : α} {s s' : σ}
    (first : p.eval s = (.ok a, s')) : (p >>= f).eval s = (f a).eval s' := by
  rw [eval_bind, first]

theorem statement_ok {f : σ → Except String (α × σ)} {a : α} {s s' : σ} :
    (statement f).eval s = (.ok a, s') ↔ f s = .ok (a, s') := by
  rw [eval_statement]
  cases f s <;> simp [Prod.ext_iff]

theorem query_ok {f : σ → Except String α} {a : α} {s s' : σ} :
    (query f).eval s = (.ok a, s') ↔ f s = .ok a ∧ s = s' := by
  simp [eval_query]

theorem fetch_ok {f : σ → α} {a : α} {s s' : σ} :
    (fetch f).eval s = (.ok a, s') ↔ f s = a ∧ s = s' := by
  simp [eval_fetch]

theorem ofExcept_ok {r : Except String α} {a : α} {s s' : σ} :
    (ofExcept r : Program σ α).eval s = (.ok a, s') ↔ r = .ok a ∧ s = s' := by
  simp [eval_ofExcept]

theorem require_ok {condition : Bool} {message : String} {u : Unit} {s s' : σ} :
    (require condition message : Program σ Unit).eval s = (.ok u, s') ↔
      condition = true ∧ s = s' := by
  cases condition <;> simp [eval_require]

theorem require_met {condition : Bool} {message : String} {s : σ} (met : condition = true) :
    (require condition message : Program σ Unit).eval s = (.ok (), s) :=
  require_ok.mpr ⟨met, rfl⟩

theorem transact_ok {wrap : String → String} {body : Program σ α} {a : α} {s s' : σ} :
    (transact wrap body).eval s = (.ok a, s') ↔ body.eval s = (.ok a, s') := by
  rw [eval_transact]
  cases h : body.eval s with
  | mk result after => cases result <;> simp

theorem void_ok {p : Program σ α} {u : Unit} {s s' : σ} :
    p.void.eval s = (.ok u, s') ↔ ∃ a, p.eval s = (.ok a, s') := by
  simp [void, bind_ok, pure_ok]

theorem returns_iff {p : Program σ α} {s : σ} :
    (∃ a s', p.eval s = (.ok a, s')) ↔ (p.eval s).1.isOk = true := by
  cases h : p.eval s with
  | mk result after => cases result <;> simp [Except.isOk, Except.toBool]

/-- No run without faults raises this error. -/
def Unraised (p : Program σ α) (message : String) : Prop :=
  ∀ s s', p.eval s ≠ (.error message, s')

namespace Unraised

variable {message : String}

theorem pure (a : α) : Unraised (Pure.pure a : Program σ α) message := by
  simp [Unraised, eval_pure]

theorem require {condition : Bool} {other : String} (different : other ≠ message) :
    Unraised (Program.require condition other : Program σ Unit) message := by
  cases condition <;> simp [Unraised, eval_require, different]

theorem query {f : σ → Except String α} (silent : ∀ s, f s ≠ .error message) :
    Unraised (Program.query f) message := by
  simp [Unraised, eval_query, silent]

theorem fetch (f : σ → α) : Unraised (Program.fetch f) message := by
  simp [Unraised, eval_fetch]

theorem ofExcept {r : Except String α} (silent : r ≠ .error message) :
    Unraised (Program.ofExcept r : Program σ α) message := by
  simp [Unraised, eval_ofExcept, silent]

theorem transact {wrap : String → String} {body : Program σ α}
    (different : ∀ detail, wrap detail ≠ message) : Unraised (Program.transact wrap body) message := by
  intro s s'
  rw [eval_transact]
  cases h : body.eval s with
  | mk result after => cases result <;> simp [different]

theorem rest {p : Program σ α} {f : α → Program σ β} (first : Unraised p message) {s s' : σ}
    (raised : (p >>= f).eval s = (.error message, s')) :
    ∃ a middle, p.eval s = (.ok a, middle) ∧ (f a).eval middle = (.error message, s') := by
  rw [eval_bind] at raised
  cases h : p.eval s with
  | mk result middle =>
    cases result with
    | ok a => exact ⟨a, middle, rfl, by simpa only [h] using raised⟩
    | error other =>
      simp only [h, Prod.mk.injEq, Except.error.injEq] at raised
      obtain ⟨rfl, rfl⟩ := raised
      exact absurd h (first s middle)

theorem bind {p : Program σ α} {f : α → Program σ β} (first : Unraised p message)
    (second : ∀ a, Unraised (f a) message) : Unraised (p >>= f) message := by
  intro s s' raised
  obtain ⟨a, middle, -, raised⟩ := first.rest raised
  exact second a middle s' raised

end Unraised
end Durable.Program

namespace Durable.Program

variable {σ α β : Type} {R : σ → σ → Prop}

/-- From related stores a program returns the same and leaves related stores. -/
def Indifferent (R : σ → σ → Prop) (p : Program σ α) : Prop :=
  ∀ s t, R s t → (p.eval s).1 = (p.eval t).1 ∧ R (p.eval s).2 (p.eval t).2

namespace Indifferent

theorem pure (a : α) : Indifferent R (Pure.pure a : Program σ α) := fun _ _ related => ⟨rfl, related⟩

theorem require (condition : Bool) (message : String) : Indifferent R (Program.require condition message) := by
  intro s t related
  rw [eval_require, eval_require]
  exact ⟨rfl, related⟩

theorem fetch {f : σ → α} (same : ∀ s t, R s t → f s = f t) : Indifferent R (Program.fetch f) := by
  intro s t related
  rw [eval_fetch, eval_fetch, same s t related]
  exact ⟨rfl, related⟩

theorem bind {p : Program σ α} {f : α → Program σ β} (first : Indifferent R p)
    (rest : ∀ a, Indifferent R (f a)) : Indifferent R (p >>= f) := by
  intro s t related
  obtain ⟨same, left⟩ := first s t related
  rw [eval_bind, eval_bind]
  generalize p.eval s = one at same left
  generalize p.eval t = other at same left
  obtain ⟨result, s'⟩ := one
  obtain ⟨result', t'⟩ := other
  cases same
  cases result with
  | ok a => exact rest a s' t' left
  | error message => exact ⟨rfl, left⟩

theorem transact {body : Program σ α} (within : Indifferent R body) (wrap : String → String) :
    Indifferent R (Program.transact wrap body) := by
  intro s t related
  obtain ⟨same, left⟩ := within s t related
  rw [eval_transact, eval_transact]
  generalize body.eval s = one at same left
  generalize body.eval t = other at same left
  obtain ⟨result, s'⟩ := one
  obtain ⟨result', t'⟩ := other
  cases same
  cases result with
  | ok a => exact ⟨rfl, left⟩
  | error message => exact ⟨rfl, related⟩

end Indifferent
end Durable.Program
