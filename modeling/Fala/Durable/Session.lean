import Mathlib.Order.Defs.Unbundled
import Fala.Durable.Atomic

/-! Programs run one after another by a caller that may catch what they raise. -/

namespace Durable

variable {σ α β : Type}

/-- What the caller of several programs does with the store that they share. -/
def Session (σ α : Type) := σ → Except String α × σ

namespace Session

protected def pure (a : α) : Session σ α := fun s => (.ok a, s)

protected def bind (x : Session σ α) (f : α → Session σ β) : Session σ β := fun s =>
  match x s with
  | (.ok a, s') => f a s'
  | (.error message, s') => (.error message, s')

instance : Monad (Session σ) where
  pure := Session.pure
  bind := Session.bind

/-- What was written before the error stays written. -/
def handle (x : Session σ α) (handler : String → Session σ α) : Session σ α := fun s =>
  match x s with
  | (.ok a, s') => (.ok a, s')
  | (.error message, s') => handler message s'

def of (r : Except String α) : Session σ α := fun s => (r, s)

def raise (message : String) : Session σ α := of (.error message)

def require (condition : Bool) (message : String) : Session σ Unit :=
  if condition then pure () else raise message

/-- A program, run to its end. -/
def program (p : Program σ α) : Session σ α := fun s => p.eval s

theorem pure_ok {a b : α} {s s' : σ} :
    (pure a : Session σ α) s = (.ok b, s') ↔ a = b ∧ s = s' := by
  change (Except.ok a, s) = (Except.ok b, s') ↔ _
  simp

theorem of_ok {r : Except String α} {b : α} {s s' : σ} :
    (of r : Session σ α) s = (.ok b, s') ↔ r = .ok b ∧ s = s' := by
  simp [of]

theorem program_ok {p : Program σ α} {b : α} {s s' : σ} :
    program p s = (.ok b, s') ↔ p.eval s = (.ok b, s') := Iff.rfl

theorem bind_ok {x : Session σ α} {f : α → Session σ β} {b : β} {s s' : σ} :
    (x >>= f) s = (.ok b, s') ↔ ∃ a middle, x s = (.ok a, middle) ∧ f a middle = (.ok b, s') := by
  change Session.bind x f s = _ ↔ _
  unfold Session.bind
  cases x s with
  | mk result middle =>
    cases result with
    | ok a =>
      constructor
      · exact fun returned => ⟨a, middle, rfl, returned⟩
      · rintro ⟨_, _, same, returned⟩
        cases same
        exact returned
    | error message => simp

theorem require_ok {condition : Bool} {message : String} {u : Unit} {s s' : σ} :
    (require condition message : Session σ Unit) s = (.ok u, s') ↔ condition = true ∧ s = s' := by
  cases condition
  · exact iff_of_false (fun h => by cases h) fun h => by simp at h
  · exact pure_ok.trans (by simp)

theorem bind_returned {x : Session σ α} {f : α → Session σ β} {a : α} {s s' : σ} (returned : x s = (.ok a, s')) :
    (x >>= f) s = f a s' := by
  change Session.bind x f s = _
  unfold Session.bind
  rw [returned]

theorem bind_raised {x : Session σ α} {f : α → Session σ β} {message : String} {s s' : σ}
    (raised : x s = (.error message, s')) : (x >>= f) s = (.error message, s') := by
  change Session.bind x f s = _
  unfold Session.bind
  rw [raised]

theorem program_bind (p : Program σ α) (f : α → Program σ β) :
    Session.program (p >>= f) = Session.program p >>= fun a => Session.program (f a) := by
  funext s
  change (p >>= f).eval s = Session.bind (Session.program p) (fun a => Session.program (f a)) s
  rw [Program.eval_bind]
  unfold Session.bind Session.program
  cases p.eval s with
  | mk result middle => cases result <;> rfl

/-- However it ends, a session started on `s` leaves a store that meets `Q`. -/
def Leaves (x : Session σ α) (s : σ) (Q : σ → Prop) : Prop := Q (x s).2

namespace Leaves

variable {s : σ} {Q : σ → Prop}

theorem bind {x : Session σ α} {f : α → Session σ β}
    (raised : ∀ message s', x s = (.error message, s') → Q s')
    (rest : ∀ a s', x s = (.ok a, s') → (f a).Leaves s' Q) : (x >>= f).Leaves s Q := by
  change Q (Session.bind x f s).2
  unfold Session.bind
  cases h : x s with
  | mk result middle =>
    cases result with
    | ok a => exact rest a middle h
    | error message => exact raised message middle h

theorem require {condition : Bool} {message : String} {f : Unit → Session σ β} (holds : Q s)
    (rest : condition = true → (f ()).Leaves s Q) :
    (Session.require condition message >>= f).Leaves s Q := by
  cases condition
  · exact holds
  · exact rest rfl

theorem afterOf {r : Except String α} {f : α → Session σ β} (holds : Q s)
    (rest : ∀ a, r = .ok a → (f a).Leaves s Q) : (Session.of r >>= f).Leaves s Q := by
  cases r with
  | ok a => exact rest a rfl
  | error message => exact holds

theorem afterRead {p : Program σ α} {f : α → Session σ β} (reads : Program.ReadOnly p) (holds : Q s)
    (rest : ∀ a, p.eval s = (.ok a, s) → (f a).Leaves s Q) : (Session.program p >>= f).Leaves s Q := by
  have same := reads.eval s
  refine bind (fun message s' raised => ?_) fun a s' returned => ?_
  · have raised : p.eval s = (.error message, s') := raised
    rw [raised] at same
    obtain rfl : s' = s := same
    exact holds
  · have returned : p.eval s = (.ok a, s') := returned
    rw [returned] at same
    obtain rfl : s' = s := same
    exact rest a returned

theorem program {p : Program σ α} (settles : Program.Settles p s Q) (holds : Q s) : (Session.program p).Leaves s Q := by
  change Q (p.eval s).2
  rcases settles none with same | ⟨-, done⟩
  · rw [show (p.eval s).2 = s from same]
    exact holds
  · exact done

theorem andThen {x : Session σ α} {f : α → Session σ β} (first : x.Leaves s Q)
    (rest : ∀ a s', x s = (.ok a, s') → Q s' → (f a).Leaves s' Q) : (x >>= f).Leaves s Q := by
  have reached : Q (x s).2 := first
  refine bind (fun message s' raised => ?_) fun a s' returned => ?_
  · rw [raised] at reached
    exact reached
  · rw [returned] at reached
    exact rest a s' returned reached

end Leaves

/-- However it ends, and wherever it starts, a session stays within a relation. -/
def Within (R : σ → σ → Prop) (x : Session σ α) : Prop := ∀ s, x.Leaves s (R s)

namespace Within

variable {R : σ → σ → Prop}

theorem left {x : Session σ α} (within : x.Within R) {s s' : σ} {result : Except String α}
    (h : x s = (result, s')) : R s s' := by
  have reached : R s (x s).2 := within s
  rw [h] at reached
  exact reached

theorem imp {R' : σ → σ → Prop} {x : Session σ α} (within : x.Within R) (weaker : ∀ s s', R s s' → R' s s') :
    x.Within R' := fun s => weaker s _ (within s)

theorem of [Std.Refl R] (r : Except String α) : (Session.of r).Within R := fun s => refl_of R s

theorem program [Std.Refl R] {p : Program σ α} (settles : ∀ s, Program.Settles p s (R s)) : (Session.program p).Within R := by
  intro s
  change R s (p.eval s).2
  rcases settles s none with same | ⟨-, done⟩
  · rw [show (p.eval s).2 = s from same]
    exact refl_of R s
  · exact done

theorem pure [Std.Refl R] (a : α) : (Pure.pure a : Session σ α).Within R := fun s => refl_of R s

theorem require [Std.Refl R] (condition : Bool) (message : String) :
    (Session.require condition message).Within R := by
  cases condition
  · exact of _
  · exact pure ()

theorem bind [IsTrans σ R] {x : Session σ α} {f : α → Session σ β} (first : x.Within R)
    (rest : ∀ a, (f a).Within R) : (x >>= f).Within R := by
  intro s
  have reached : R s (x s).2 := first s
  refine Leaves.bind (fun message s' h => ?_) fun a s' h => ?_
  · rw [h] at reached
    exact reached
  · rw [h] at reached
    exact trans_of R reached (rest a s')

theorem handle [IsTrans σ R] {x : Session σ α} {handler : String → Session σ α}
    (first : x.Within R) (handled : ∀ message, (handler message).Within R) :
    (x.handle handler).Within R := by
  intro s
  have reached : R s (x s).2 := first s
  change R s (x.handle handler s).2
  unfold Session.handle
  cases h : x s with
  | mk result middle =>
    rw [h] at reached
    cases result with
    | ok a => exact reached
    | error message => exact trans_of R reached (handled message middle)

theorem ite {condition : Prop} [Decidable condition] {x y : Session σ α} (first : x.Within R)
    (second : y.Within R) : (if condition then x else y).Within R := by
  split
  · exact first
  · exact second

end Within

/-- Whatever a session returns has a property. -/
def Returns (P : α → Prop) (x : Session σ α) : Prop := ∀ s a s', x s = (.ok a, s') → P a

namespace Returns

variable {P : β → Prop}

theorem pure {b : β} (holds : P b) : (Pure.pure b : Session σ β).Returns P := by
  intro s a s' h
  exact (pure_ok.mp h).1 ▸ holds

theorem raise (message : String) : (Session.raise message : Session σ β).Returns P := by
  intro s a s' h
  cases (of_ok.mp h).1

theorem bind {x : Session σ α} {f : α → Session σ β} (rest : ∀ a, (f a).Returns P) : (x >>= f).Returns P := by
  intro s b s' h
  obtain ⟨a, middle, -, h⟩ := bind_ok.mp h
  exact rest a middle b s' h

theorem program {p : Program σ β} (returned : ∀ s b s', p.eval s = (.ok b, s') → P b) :
    (Session.program p).Returns P := returned

theorem handle {x : Session σ β} {handler : String → Session σ β} (first : x.Returns P)
    (handled : ∀ message, (handler message).Returns P) : (x.handle handler).Returns P := by
  intro s b s' h
  unfold Session.handle at h
  cases answered : x s with
  | mk result middle =>
    rw [answered] at h
    cases result with
    | ok a =>
      cases h
      exact first s b s' answered
    | error message => exact handled message middle b s' h

theorem ite {condition : Prop} [Decidable condition] {x y : Session σ β} (first : x.Returns P) (second : y.Returns P) :
    (if condition then x else y).Returns P := by
  split
  · exact first
  · exact second

end Returns
end Session
end Durable
