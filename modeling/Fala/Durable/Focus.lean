import Fala.Durable.Atomic

/-! Programs on one part of a store, and what a run may leave when any statement may fail. -/

namespace Durable.Program

variable {σ τ α β : Type}

/-- A program that works on one part of a larger store. -/
def focus (get : τ → σ) (set : τ → σ → τ) (p : Program σ α) : Program τ α where
  run c :=
    let (result, part) := p.run ⟨get c.store, c.faults⟩
    (result, ⟨set c.store part.store, part.faults⟩)
  settled s := p.settled (get s)
  steady c a c' h := by
    cases h' : p.run ⟨get c.store, c.faults⟩ with
    | mk result part =>
      simp only [h'] at h
      cases h
      simp only [p.steady _ _ _ h']

theorem eval_focus (get : τ → σ) (set : τ → σ → τ) (p : Program σ α) (s : τ) :
    (p.focus get set).eval s = ((p.eval (get s)).1, set s (p.eval (get s)).2) := rfl

theorem focus_ok {get : τ → σ} {set : τ → σ → τ} {p : Program σ α} {a : α} {s s' : τ} :
    (p.focus get set).eval s = (.ok a, s') ↔
      ∃ part, p.eval (get s) = (.ok a, part) ∧ s' = set s part := by
  rw [eval_focus]
  cases p.eval (get s) with
  | mk result part => simp [and_assoc, eq_comm (a := s')]

theorem ReadOnly.focus {get : τ → σ} {set : τ → σ → τ} (same : ∀ s, set s (get s) = s)
    {p : Program σ α} (reads : ReadOnly p) : ReadOnly (p.focus get set) := by
  intro c
  change set c.store (p.run ⟨get c.store, c.faults⟩).2.store = c.store
  rw [reads]
  exact same c.store

/-- Whichever statement fails, a run from `s` leaves rows that meet `Q`. -/
def Leaves (p : Program σ α) (s : σ) (Q : σ → Prop) : Prop :=
  ∀ faults, Q (p.run ⟨s, faults⟩).2.store

namespace Leaves

theorem ofReadOnly {p : Program σ α} {s : σ} {Q : σ → Prop} (reads : ReadOnly p) (holds : Q s) :
    p.Leaves s Q := fun _ => by
  rw [reads]
  exact holds

theorem ofSettles {p : Program σ α} {s : σ} {Q : σ → Prop} (settles : p.Settles s Q) (holds : Q s) :
    p.Leaves s Q := fun _ => settles.final holds

theorem focus {get : τ → σ} {set : τ → σ → τ} {p : Program σ α} {s : τ} {Q : τ → Prop}
    (part : p.Leaves (get s) fun part => Q (set s part)) : (p.focus get set).Leaves s Q :=
  fun faults => part faults

theorem bind {p : Program σ α} {f : α → Program σ β} {s : σ} {Q : σ → Prop} (first : p.Leaves s Q)
    (rest : ∀ a s', p.eval s = (.ok a, s') → (f a).Leaves s' Q) : (p >>= f).Leaves s Q := by
  intro faults
  have left := first faults
  rw [run_bind]
  cases h : p.run ⟨s, faults⟩ with
  | mk result middle =>
    rw [h] at left
    cases result with
    | ok a => exact rest a middle.store (eval_of_run h) middle.faults
    | error message => exact left

theorem next {p : Program σ α} {f : α → Program σ β} {s : σ} {Q : σ → Prop}
    (first : p.Leaves s Q) (rest : ∀ a s', Q s' → (f a).Leaves s' Q) : (p >>= f).Leaves s Q := by
  refine .bind first fun a s' returned => rest a s' ?_
  have left := first none
  rw [run_unfaulted, returned] at left
  exact left

theorem afterRead {p : Program σ α} {f : α → Program σ β} {s : σ} {Q : σ → Prop}
    (reads : ReadOnly p) (holds : Q s) (rest : ∀ a, p.eval s = (.ok a, s) → (f a).Leaves s Q) :
    (p >>= f).Leaves s Q :=
  .bind (.ofReadOnly reads holds) fun a s' h => by
    have same := reads.eval s
    rw [h] at same
    subst same
    exact rest a h

end Leaves

/-- Whichever statement fails, a run changes nothing or leaves rows that meet `Q`, and a run that
    returns meets `Q` in any case. -/
structure Completes (p : Program σ α) (s : σ) (Q : σ → Prop) : Prop where
  settles : p.Settles s Q
  returned : ∀ a s', p.eval s = (.ok a, s') → Q s'

namespace Completes

variable {s : σ} {Q R : σ → Prop}

theorem imp {p : Program σ α} (completes : p.Completes s Q) (weaker : ∀ s', Q s' → R s') :
    p.Completes s R where
  settles := completes.settles.imp weaker
  returned a s' h := weaker s' (completes.returned a s' h)

theorem raise (message : String) : (Program.raise message : Program σ α).Completes s Q where
  settles := .ofReadOnly (.raise message)
  returned _ _ h := absurd h raise_ok

theorem ofReadOnly {p : Program σ α} (reads : ReadOnly p)
    (holds : ∀ a, p.eval s = (.ok a, s) → Q s) : p.Completes s Q where
  settles := .ofReadOnly reads
  returned a s' h := by
    have same := reads.eval s
    rw [h] at same
    subst same
    exact holds a h

theorem transact {wrap : String → String} {body : Program σ α}
    (done : ∀ a s', body.eval s = (.ok a, s') → Q s') : (Program.transact wrap body).Completes s Q where
  settles := .transact done
  returned a s' h := done a s' (transact_ok.mp h)

theorem afterRead {p : Program σ α} {f : α → Program σ β} (reads : ReadOnly p)
    (rest : ∀ a, p.eval s = (.ok a, s) → (f a).Completes s Q) : (p >>= f).Completes s Q where
  settles := .afterRead reads fun a h => (rest a h).settles
  returned b s' h := by
    obtain ⟨a, middle, first, second⟩ := bind_ok.mp h
    have same := reads.eval s
    rw [first] at same
    subst same
    exact (rest a first).returned b s' second

theorem require {condition : Bool} {message : String} {f : Unit → Program σ β}
    (rest : condition = true → (f ()).Completes s Q) :
    (Program.require condition message >>= f).Completes s Q :=
  .afterRead (.require condition message) fun _ h => rest (require_ok.mp h).1

theorem thenRead {p : Program σ α} {f : α → Program σ β} (first : p.Completes s Q)
    (reads : ∀ a, ReadOnly (f a)) : (p >>= f).Completes s Q where
  settles := .thenRead first.settles reads
  returned b s' h := by
    obtain ⟨a, middle, done, last⟩ := bind_ok.mp h
    have same := (reads a).eval middle
    rw [last] at same
    subst same
    exact first.returned a _ done

theorem leaves {p : Program σ α} (completes : p.Completes s Q) :
    p.Leaves s fun s' => s' = s ∨ Q s' :=
  fun faults => (completes.settles faults).imp_right And.right

end Completes

/-- Whichever statement fails, a run from `s` that raises leaves the rows as they were. -/
def RollsBack (p : Program σ α) (s : σ) : Prop :=
  ∀ faults message c, p.run ⟨s, faults⟩ = (.error message, c) → c.store = s

namespace RollsBack

variable {s : σ}

theorem ofReadOnly {p : Program σ α} (reads : ReadOnly p) : p.RollsBack s := by
  intro faults message c raised
  have kept := reads ⟨s, faults⟩
  rw [raised] at kept
  exact kept

theorem raise (message : String) : (Program.raise message : Program σ α).RollsBack s :=
  ofReadOnly (.raise message)

theorem afterRead {p : Program σ α} {f : α → Program σ β} (reads : ReadOnly p)
    (rest : ∀ a, (f a).RollsBack s) : (p >>= f).RollsBack s := by
  intro faults message c raised
  have kept := reads ⟨s, faults⟩
  rw [run_bind] at raised
  cases h : p.run ⟨s, faults⟩ with
  | mk result middle =>
    rw [h] at raised kept
    obtain ⟨store, faults'⟩ := middle
    obtain rfl : store = s := kept
    cases result with
    | ok a => exact rest a faults' message c raised
    | error other =>
      cases raised
      rfl

theorem require {condition : Bool} {message : String} {f : Unit → Program σ β}
    (rest : (f ()).RollsBack s) : (Program.require condition message >>= f).RollsBack s :=
  .afterRead (.require condition message) fun _ => rest

theorem transact (wrap : String → String) (body : Program σ α) :
    (Program.transact wrap body).RollsBack s := by
  intro faults message c raised
  change transactRun wrap body ⟨s, faults⟩ = _ at raised
  unfold transactRun at raised
  split at raised
  · cases raised
    rfl
  · split at raised <;> cases raised
    rfl

theorem thenReturn {p : Program σ α} {f : α → β} (back : p.RollsBack s) :
    (p >>= fun a => Pure.pure (f a)).RollsBack s := by
  intro faults message c raised
  rw [run_bind] at raised
  cases h : p.run ⟨s, faults⟩ with
  | mk result middle =>
    rw [h] at raised
    cases result with
    | ok a => cases raised
    | error other =>
      cases raised
      exact back faults _ _ h

theorem void {p : Program σ α} (back : p.RollsBack s) : p.void.RollsBack s := back.thenReturn

end RollsBack
end Durable.Program
