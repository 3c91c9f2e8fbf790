import Fala.Durable.Evaluation

namespace Durable.Program

variable {σ α β : Type}

/-- No run of the program changes a row, whichever statement fails. -/
def ReadOnly (p : Program σ α) : Prop :=
  ∀ c, (p.run c).2.store = c.store

theorem run_bind (p : Program σ α) (f : α → Program σ β) (c : Connection σ) :
    (p >>= f).run c =
      match p.run c with
      | (.ok a, c') => (f a).run c'
      | (.error message, c') => (.error message, c') := rfl

namespace ReadOnly

theorem pure (a : α) : ReadOnly (Pure.pure a : Program σ α) := fun _ => rfl

theorem raise (message : String) : ReadOnly (Program.raise message : Program σ α) := fun _ => rfl

theorem require (condition : Bool) (message : String) :
    ReadOnly (Program.require condition message : Program σ Unit) := by
  cases condition
  · exact raise message
  · exact pure ()

theorem ofExcept (r : Except String α) : ReadOnly (Program.ofExcept r : Program σ α) := by
  cases r
  · exact raise _
  · exact pure _

theorem query (f : σ → Except String α) : ReadOnly (Program.query f) := by
  intro c
  obtain ⟨s, faults⟩ := c
  rcases faults with _ | _ | n <;> simp only [Program.query, statement, Connection.tick] <;>
    cases f s <;> rfl

theorem fetch (f : σ → α) : ReadOnly (Program.fetch f) := query _

theorem bind {p : Program σ α} {f : α → Program σ β} (first : ReadOnly p)
    (rest : ∀ a, ReadOnly (f a)) : ReadOnly (p >>= f) := by
  intro c
  have kept := first c
  rw [run_bind]
  cases h : p.run c with
  | mk result middle =>
    rw [h] at kept
    cases result with
    | ok a => exact (rest a middle).trans kept
    | error message => exact kept

theorem eval {p : Program σ α} (reads : ReadOnly p) (s : σ) : (p.eval s).2 = s := reads ⟨s, none⟩

end ReadOnly

/-- Whichever statement fails, a run from `s` changes nothing, or all that the run without
    faults changes; what it then leaves meets `Q`. -/
def Settles (p : Program σ α) (s : σ) (Q : σ → Prop) : Prop :=
  ∀ faults, (p.run ⟨s, faults⟩).2.store = s ∨
    (p.run ⟨s, faults⟩).2.store = (p.eval s).2 ∧ Q (p.run ⟨s, faults⟩).2.store

namespace Settles

theorem ofReadOnly {p : Program σ α} {s : σ} {Q : σ → Prop} (reads : ReadOnly p) :
    p.Settles s Q := fun _ => .inl (reads _)

theorem imp {p : Program σ α} {s : σ} {Q R : σ → Prop} (settles : p.Settles s Q)
    (weaker : ∀ s', Q s' → R s') : p.Settles s R := fun faults =>
  (settles faults).imp_right fun done => ⟨done.1, weaker _ done.2⟩

theorem final {p : Program σ α} {c : Connection σ} {Q : σ → Prop} (settles : p.Settles c.store Q)
    (opening : Q c.store) : Q (p.run c).2.store := by
  rcases settles c.faults with same | ⟨-, done⟩
  · exact same ▸ opening
  · exact done

theorem evaluated {p : Program σ α} {s s' : σ} {Q : σ → Prop} {result : Except String α}
    (settles : p.Settles s Q) (h : p.eval s = (result, s')) : s' = s ∨ Q s' := by
  have left : (p.run ⟨s, none⟩).2.store = s' := congrArg Prod.snd h
  have done := settles none
  rw [left] at done
  exact done.imp_right And.right

theorem transact {wrap : String → String} {body : Program σ α} {s : σ} {Q : σ → Prop}
    (done : ∀ a s', body.eval s = (.ok a, s') → Q s') :
    (Program.transact wrap body).Settles s Q := by
  intro faults
  cases h : (Program.transact wrap body).run ⟨s, faults⟩ with
  | mk result after =>
    cases result with
    | ok a =>
      have returned := eval_of_run h
      exact .inr ⟨by rw [returned], done a _ (transact_ok.mp returned)⟩
    | error message =>
      refine .inl ?_
      change transactRun wrap body ⟨s, faults⟩ = _ at h
      unfold transactRun at h
      split at h
      · cases h; rfl
      · split at h <;> cases h; rfl

theorem afterRead {p : Program σ α} {f : α → Program σ β} {s : σ} {Q : σ → Prop}
    (reads : ReadOnly p) (rest : ∀ a, p.eval s = (.ok a, s) → (f a).Settles s Q) :
    (p >>= f).Settles s Q := by
  intro faults
  have kept := reads ⟨s, faults⟩
  rw [run_bind, eval_bind]
  cases h : p.run ⟨s, faults⟩ with
  | mk result middle =>
    obtain ⟨store, faults'⟩ := middle
    rw [h] at kept
    simp only at kept
    subst kept
    cases result with
    | error message => exact .inl rfl
    | ok a =>
      have returned := eval_of_run h
      simp only at returned
      rw [returned]
      exact rest a returned faults'

theorem thenRead {p : Program σ α} {f : α → Program σ β} {s : σ} {Q : σ → Prop}
    (first : p.Settles s Q) (rest : ∀ a, ReadOnly (f a)) : (p >>= f).Settles s Q := by
  have final : ((p >>= f).eval s).2 = (p.eval s).2 := by
    rw [eval_bind]
    cases p.eval s with
    | mk result middle =>
      cases result with
      | ok a => exact (rest a).eval middle
      | error message => rfl
  intro faults
  have reached := first faults
  rw [final, run_bind]
  cases h : p.run ⟨s, faults⟩ with
  | mk result middle =>
    rw [h] at reached
    cases result with
    | ok a =>
      simp only [rest a middle]
      exact reached
    | error message => exact reached

theorem void {p : Program σ α} {s : σ} {Q : σ → Prop} (settles : p.Settles s Q) :
    p.void.Settles s Q := settles.thenRead fun _ => .pure ()

theorem require {condition : Bool} {message : String} {f : Unit → Program σ β} {s : σ}
    {Q : σ → Prop} (rest : condition = true → (f ()).Settles s Q) :
    (Program.require condition message >>= f).Settles s Q :=
  afterRead (.require _ _) fun _ h => rest (require_ok.mp h).1

end Settles

/-- A run from `s` that raises leaves the rows as they were. -/
def Restores (p : Program σ α) (s : σ) : Prop :=
  ∀ message s', p.eval s = (.error message, s') → s' = s

namespace Restores

variable {s : σ}

theorem ofReadOnly {p : Program σ α} (reads : ReadOnly p) : p.Restores s := by
  intro message s' raised
  have kept := reads.eval s
  rw [raised] at kept
  exact kept

theorem afterRead {p : Program σ α} {f : α → Program σ β} (reads : ReadOnly p)
    (rest : ∀ a, p.eval s = (.ok a, s) → (f a).Restores s) : (p >>= f).Restores s := by
  intro message s' raised
  have kept := reads.eval s
  rw [eval_bind] at raised
  cases h : p.eval s with
  | mk result middle =>
    rw [h] at raised kept
    obtain rfl : middle = s := kept
    cases result with
    | ok a => exact rest a h message s' raised
    | error other =>
      cases raised
      rfl

theorem require {condition : Bool} {message : String} {f : Unit → Program σ β}
    (rest : condition = true → (f ()).Restores s) :
    (Program.require condition message >>= f).Restores s :=
  afterRead (.require _ _) fun _ h => rest (require_ok.mp h).1

theorem transact (wrap : String → String) (body : Program σ α) :
    (Program.transact wrap body).Restores s := by
  intro message s' raised
  rw [eval_transact] at raised
  cases h : body.eval s with
  | mk result middle =>
    rw [h] at raised
    cases result with
    | ok a => cases raised
    | error other =>
      cases raised
      rfl

theorem followed {p : Program σ α} {f : α → Program σ β} (first : p.Restores s)
    (returns : ∀ a s', p.eval s = (.ok a, s') → ((f a).eval s').1.isOk = true) :
    (p >>= f).Restores s := by
  intro message s' raised
  rw [eval_bind] at raised
  cases h : p.eval s with
  | mk result middle =>
    rw [h] at raised
    cases result with
    | ok a =>
      have returned := returns a middle h
      rw [show (f a).eval middle = (.error message, s') from raised] at returned
      cases returned
    | error other =>
      cases raised
      exact first _ _ h

end Restores

/-- Whichever statement fails, a run keeps an invariant of the rows. -/
def Keeps (p : Program σ α) (I : σ → Prop) : Prop :=
  ∀ c, I c.store → I (p.run c).2.store

namespace Keeps

variable {I : σ → Prop}

theorem ofReadOnly {p : Program σ α} (reads : ReadOnly p) : p.Keeps I := fun c held => by
  rw [reads c]
  exact held

theorem ofSettles {p : Program σ α} (settles : ∀ s, I s → p.Settles s I) : p.Keeps I :=
  fun c held => (settles c.store held).final held

theorem bind {p : Program σ α} {f : α → Program σ β} (first : p.Keeps I)
    (rest : ∀ a, (f a).Keeps I) : (p >>= f).Keeps I := by
  intro c held
  have reached := first c held
  rw [run_bind]
  cases h : p.run c with
  | mk result middle =>
    rw [h] at reached
    cases result with
    | ok a => exact rest a middle reached
    | error message => exact reached

theorem pure (a : α) : (Pure.pure a : Program σ α).Keeps I := ofReadOnly (.pure a)

theorem raise (message : String) : (Program.raise message : Program σ α).Keeps I :=
  ofReadOnly (.raise message)

theorem require (condition : Bool) (message : String) :
    (Program.require condition message : Program σ Unit).Keeps I :=
  ofReadOnly (.require condition message)

theorem checked {condition : Bool} {message : String} {f : Unit → Program σ β}
    (rest : condition = true → (f ()).Keeps I) : (Program.require condition message >>= f).Keeps I := by
  cases condition
  · exact fun _ held => held
  · exact rest rfl

theorem ofExcept (r : Except String α) : (Program.ofExcept r : Program σ α).Keeps I :=
  ofReadOnly (.ofExcept r)

theorem query (f : σ → Except String α) : (Program.query f).Keeps I := ofReadOnly (.query f)

theorem fetch (f : σ → α) : (Program.fetch f).Keeps I := ofReadOnly (.fetch f)

theorem void {p : Program σ α} (keeps : p.Keeps I) : p.void.Keeps I := keeps.bind fun _ => .pure ()

theorem ite {condition : Prop} [Decidable condition] {p q : Program σ α} (first : p.Keeps I)
    (second : q.Keeps I) : (if condition then p else q).Keeps I := by
  split
  · exact first
  · exact second

theorem statement {f : σ → Except String (α × σ)}
    (kept : ∀ s a s', f s = .ok (a, s') → I s → I s') : (Program.statement f).Keeps I := by
  rintro ⟨s, faults⟩ held
  rcases faults with _ | _ | n <;> simp only [Program.statement, Connection.tick]
  case some.zero => exact held
  all_goals
    cases h : f s with
    | error message => exact held
    | ok result => exact kept s result.1 result.2 h held

theorem transact {wrap : String → String} {body : Program σ α} (keeps : body.Keeps I) :
    (Program.transact wrap body).Keeps I := by
  intro c held
  have commits : (committed body).Keeps I :=
    keeps.bind fun _ => .bind (.statement fun s _ s' h held => by cases h; exact held) fun _ => .pure _
  change I (transactRun wrap body c).2.store
  unfold transactRun
  cases opened : c.tick with
  | none => exact held
  | some d =>
    have same : d.store = c.store := by
      obtain ⟨s, faults⟩ := c
      rcases faults with _ | _ | n <;> simp only [Connection.tick] at opened <;> cases opened <;> rfl
    have kept := commits d (by rw [same]; exact held)
    cases h : (committed body).run d with
    | mk result after =>
      rw [h] at kept
      simp only [h]
      cases result with
      | ok a => exact kept
      | error message => exact held

end Keeps
end Durable.Program
