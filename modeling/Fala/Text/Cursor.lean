/-! Readers that move a cursor over a text, with a trace of what they read and of the rounds of their loops. -/

namespace Cursor

/-- A unit or a part of a text that is read, or a round of a loop, from a place and a rank to others. -/
inductive Event (σ : Type) where
  | unit (text : List σ) (place : Nat)
  | part (text : List σ) (start stop : Nat)
  | round (before after : Nat × Nat)

/-- Which units and parts of a text can be read: reading another one aborts. -/
structure Cuts (σ : Type) where
  unit : List σ → Nat → Bool
  part : List σ → Nat → Nat → Bool

namespace Event
variable {σ : Type}

/-- A read begins within its text (a part goes no further than the text), and a round moves on, or lowers its rank where
    it stands. -/
def Fine : Event σ → Prop
  | .unit text place => place < text.length
  | .part text start _ => start ≤ text.length
  | .round before after => before.1 < after.1 ∨ before.1 = after.1 ∧ after.2 < before.2

def whole (cuts : Cuts σ) : Event σ → Bool
  | .unit text place => cuts.unit text place
  | .part text start stop => cuts.part text start stop
  | .round _ _ => true

end Event

inductive Halt where
  | raised (message : String)
  | aborted

/-- What a reader did: nothing comes of it when a loop used up its rounds. -/
structure Outcome (σ α : Type) where
  events : List (Event σ)
  result : Option (Except Halt (α × Nat))

def Reader (σ α : Type) := Nat → Outcome σ α

/-- What a round of a loop comes to. -/
inductive Turn (τ α : Type) where
  | again (state : τ)
  | done (result : α)

namespace Reader
variable {σ : Type}

def bind {α β : Type} (first : Reader σ α) (later : α → Reader σ β) : Reader σ β := fun cursor =>
  match first cursor with
  | ⟨events, none⟩ => ⟨events, none⟩
  | ⟨events, some (.error halt)⟩ => ⟨events, some (.error halt)⟩
  | ⟨events, some (.ok (a, moved))⟩ => ⟨events ++ (later a moved).events, (later a moved).result⟩

instance : Monad (Reader σ) where
  pure a := fun cursor => ⟨[], some (.ok (a, cursor))⟩
  bind := bind

def fail {α : Type} (message : String) : Reader σ α := fun _ => ⟨[], some (.error (.raised message))⟩

def lift {α : Type} : Except String α → Reader σ α
  | .error message => fail message
  | .ok a => pure a

def position : Reader σ Nat := fun cursor => ⟨[], some (.ok (cursor, cursor))⟩

def advance (count : Nat) : Reader σ Unit := fun cursor => ⟨[], some (.ok ((), cursor + count))⟩

/-- The unit at a place. -/
def unitAt [Inhabited σ] (cuts : Cuts σ) (text : List σ) (place : Nat) : Reader σ σ := fun cursor =>
  ⟨[.unit text place],
    some (if cuts.unit text place then .ok (text.getD place default, cursor) else .error .aborted)⟩

/-- The units between two places, as far as the text goes. -/
def slice (cuts : Cuts σ) (text : List σ) (start stop : Nat) : Reader σ (List σ) := fun cursor =>
  ⟨[.part text start stop],
    some (if cuts.part text start stop then .ok ((text.take stop).drop start, cursor) else .error .aborted)⟩

/-- A loop of at most some rounds. -/
def loop {τ α : Type} (rank : τ → Nat) (body : τ → Reader σ (Turn τ α)) : Nat → τ → Reader σ α
  | 0, _ => fun _ => ⟨[], none⟩
  | rounds + 1, state => fun cursor =>
    match body state cursor with
    | ⟨events, none⟩ => ⟨events, none⟩
    | ⟨events, some (.error halt)⟩ => ⟨events, some (.error halt)⟩
    | ⟨events, some (.ok (.done a, moved))⟩ => ⟨events, some (.ok (a, moved))⟩
    | ⟨events, some (.ok (.again next, moved))⟩ =>
      let later := loop rank body rounds next moved
      ⟨events ++ .round (cursor, rank state) (moved, rank next) :: later.events, later.result⟩

end Reader

/-- What holds after a round: of the state for another one, or of the result. -/
def Turn.After {τ α : Type} (again : τ → Nat → Prop) (post : α → Nat → Prop) : Turn τ α → Nat → Prop
  | .again state, moved => again state moved
  | .done a, moved => post a moved

/-! Readers that come to an end and stay within a limit. -/

/-- From a place the reader gets to a place on from it and within the limit, with a result of a kind, or it raises, or it
    aborts at a read that cannot be made; under the plain condition it does not abort. -/
structure Sound {σ α : Type} (cuts : Cuts σ) (plain : Prop) (limit : Nat) (reader : Reader σ α) (cursor : Nat)
    (post : α → Nat → Prop) : Prop where
  fine : ∀ event ∈ (reader cursor).events, event.Fine
  ends : (reader cursor).result ≠ none
  aborts : (reader cursor).result = some (.error .aborted) ↔ ∃ event ∈ (reader cursor).events, event.whole cuts = false
  unbroken : plain → (reader cursor).result ≠ some (.error .aborted)
  reaches : ∀ a moved, (reader cursor).result = some (.ok (a, moved)) → cursor ≤ moved ∧ moved ≤ limit ∧ post a moved

section
variable {σ α β : Type} {cuts : Cuts σ} {plain : Prop} {limit cursor : Nat}

theorem Sound.weaken {reader : Reader σ α} {post weaker : α → Nat → Prop} (sound : Sound cuts plain limit reader cursor post)
    (implies : ∀ a moved, cursor ≤ moved → moved ≤ limit → post a moved → weaker a moved) :
    Sound cuts plain limit reader cursor weaker where
  fine := sound.fine
  ends := sound.ends
  aborts := sound.aborts
  unbroken := sound.unbroken
  reaches a moved is := by
    have within := sound.reaches a moved is
    exact ⟨within.1, within.2.1, implies a moved within.1 within.2.1 within.2.2⟩

theorem sound_quiet {reader : Reader σ α} {post : α → Nat → Prop} {result : Except Halt (α × Nat)}
    (is : reader cursor = ⟨[], some result⟩) (other : result ≠ .error .aborted)
    (reaches : ∀ a moved, result = .ok (a, moved) → cursor ≤ moved ∧ moved ≤ limit ∧ post a moved) :
    Sound cuts plain limit reader cursor post := by
  have quiet : (reader cursor).result ≠ some (.error .aborted) := by
    rw [is]
    exact fun same => other (Option.some.inj same)
  refine ⟨?_, ?_, ⟨fun same => absurd same quiet, ?_⟩, fun _ => quiet, ?_⟩
  · rw [is]
    exact fun _ none_ => nomatch none_
  · rw [is]
    exact Option.some_ne_none _
  · rw [is]
    rintro ⟨_, none_, _⟩
    exact nomatch none_
  · rw [is]
    exact fun a moved same => reaches a moved (Option.some.inj same)

theorem sound_pure {a : α} {post : α → Nat → Prop} (inside : cursor ≤ limit) (holds : post a cursor) :
    Sound cuts plain limit (pure a) cursor post := by
  have is : (pure a : Reader σ α) cursor = ⟨[], some (.ok (a, cursor))⟩ := rfl
  apply sound_quiet is nofun
  intro b moved ok
  cases ok
  exact ⟨Nat.le_refl _, inside, holds⟩

theorem sound_fail {message : String} {post : α → Nat → Prop} :
    Sound cuts plain limit (Reader.fail message : Reader σ α) cursor post :=
  sound_quiet rfl (fun same => nomatch same) fun _ _ ok => nomatch ok

theorem sound_lift {result : Except String α} {post : α → Nat → Prop} (inside : cursor ≤ limit)
    (holds : ∀ a, result = .ok a → post a cursor) : Sound cuts plain limit (Reader.lift result) cursor post := by
  cases result with
  | error message => exact sound_fail
  | ok a => exact sound_pure inside (holds a rfl)

theorem sound_position (inside : cursor ≤ limit) :
    Sound cuts plain limit Reader.position cursor fun place moved => cursor = place ∧ cursor = moved := by
  have is : (Reader.position : Reader σ Nat) cursor = ⟨[], some (.ok (cursor, cursor))⟩ := rfl
  apply sound_quiet is nofun
  intro place moved ok
  cases ok
  exact ⟨Nat.le_refl _, inside, rfl, rfl⟩

theorem sound_advance {count : Nat} (inside : cursor + count ≤ limit) :
    Sound cuts plain limit (Reader.advance count) cursor fun _ moved => cursor + count = moved := by
  have is : (Reader.advance count : Reader σ Unit) cursor = ⟨[], some (.ok ((), cursor + count))⟩ := rfl
  apply sound_quiet is nofun
  intro _ moved ok
  cases ok
  exact ⟨Nat.le_add_right _ _, inside, rfl⟩

theorem sound_read {reader : Reader σ α} {event : Event σ} {a : α} (inside : cursor ≤ limit)
    (is : reader cursor = ⟨[event], some (if event.whole cuts then .ok (a, cursor) else .error .aborted)⟩)
    (fine : event.Fine) (readable : plain → event.whole cuts = true) :
    Sound cuts plain limit reader cursor fun read moved => read = a ∧ cursor = moved := by
  by_cases whole : event.whole cuts = true
  · rw [if_pos whole] at is
    refine ⟨?_, ?_, ⟨?_, ?_⟩, ?_, ?_⟩
    · rw [is]
      intro other listed
      rw [List.mem_singleton.mp listed]
      exact fine
    · rw [is]
      exact Option.some_ne_none _
    · rw [is]
      exact fun same => nomatch same
    · rw [is]
      rintro ⟨other, listed, broken⟩
      rw [List.mem_singleton.mp listed, whole] at broken
      exact nomatch broken
    · rw [is]
      exact fun _ same => nomatch same
    · rw [is]
      intro b moved ok
      cases ok
      exact ⟨Nat.le_refl _, inside, rfl, rfl⟩
  · rw [if_neg whole] at is
    refine ⟨?_, ?_, ⟨?_, ?_⟩, ?_, ?_⟩
    · rw [is]
      intro other listed
      rw [List.mem_singleton.mp listed]
      exact fine
    · rw [is]
      exact Option.some_ne_none _
    · rw [is]
      exact fun _ => ⟨event, List.mem_singleton_self event, eq_false_of_ne_true whole⟩
    · rw [is]
      exact fun _ => rfl
    · exact fun ascii => absurd (readable ascii) whole
    · rw [is]
      exact fun _ _ ok => nomatch ok

theorem sound_unitAt [Inhabited σ] {text : List σ} {place : Nat} (inside : cursor ≤ limit) (read : place < text.length)
    (readable : plain → cuts.unit text place = true) : Sound cuts plain limit (Reader.unitAt cuts text place) cursor
      fun unit moved => unit = text.getD place default ∧ cursor = moved :=
  @sound_read _ _ _ _ _ _ _ (.unit text place) _ inside rfl read readable

theorem sound_slice {text : List σ} {start stop : Nat} (inside : cursor ≤ limit) (begins : start ≤ text.length)
    (readable : plain → cuts.part text start stop = true) : Sound cuts plain limit (Reader.slice cuts text start stop) cursor
      fun part moved => part = (text.take stop).drop start ∧ cursor = moved :=
  @sound_read _ _ _ _ _ _ _ (.part text start stop) _ inside rfl begins readable

theorem sound_bind {reader : Reader σ α} {later : α → Reader σ β} {middle : α → Nat → Prop} {post : β → Nat → Prop}
    (first : Sound cuts plain limit reader cursor middle)
    (second : ∀ a moved, cursor ≤ moved → moved ≤ limit → middle a moved → Sound cuts plain limit (later a) moved post) :
    Sound cuts plain limit (reader >>= later) cursor post := by
  show Sound cuts plain limit (Reader.bind reader later) cursor post
  cases ran : reader cursor with
  | mk events result =>
    have fine := first.fine
    have aborts := first.aborts
    have unbroken := first.unbroken
    rw [ran] at fine aborts unbroken
    match result with
    | none => exact absurd (congrArg Outcome.result ran) first.ends
    | some (.error halt) =>
      have is : Reader.bind reader later cursor = ⟨events, some (.error halt)⟩ := by
        rw [Reader.bind, ran]
      refine ⟨?_, ?_, ?_, ?_, ?_⟩
      · rw [is]
        exact fine
      · rw [is]
        exact Option.some_ne_none _
      · rw [is]
        refine ⟨fun same => aborts.mp ?_, fun broken => ?_⟩
        · rw [Except.error.inj (Option.some.inj same)]
        · rw [Except.error.inj (Option.some.inj (aborts.mpr broken))]
      · rw [is]
        intro ascii same
        apply unbroken ascii
        rw [Except.error.inj (Option.some.inj same)]
      · rw [is]
        exact fun _ _ ok => nomatch ok
    | some (.ok (a, moved)) =>
      have within := first.reaches a moved (congrArg Outcome.result ran)
      have next := second a moved within.1 within.2.1 within.2.2
      have is : Reader.bind reader later cursor =
          ⟨events ++ (later a moved).events, (later a moved).result⟩ := by
        rw [Reader.bind, ran]
      have unbroken_first : ¬∃ event ∈ events, event.whole cuts = false := fun broken => nomatch aborts.mpr broken
      refine ⟨?_, ?_, ?_, ?_, ?_⟩
      · rw [is]
        intro event listed
        exact (List.mem_append.mp listed).elim (fine event) (next.fine event)
      · rw [is]
        exact next.ends
      · rw [is]
        refine next.aborts.trans ⟨?_, ?_⟩
        · rintro ⟨event, listed, broken⟩
          exact ⟨event, List.mem_append_right _ listed, broken⟩
        · rintro ⟨event, listed, broken⟩
          rcases List.mem_append.mp listed with early | late
          · exact absurd ⟨event, early, broken⟩ unbroken_first
          · exact ⟨event, late, broken⟩
      · rw [is]
        exact next.unbroken
      · rw [is]
        intro b further ok
        have after := next.reaches b further ok
        exact ⟨Nat.le_trans within.1 after.1, after.2⟩

theorem sound_foldlM {τ ι : Type} {step : τ → ι → Reader σ τ} {items : List ι} {state : τ} {invariant : τ → Prop}
    (inside : cursor ≤ limit) (starts : invariant state)
    (each : ∀ item ∈ items, ∀ state, invariant state →
      Sound cuts plain limit (step state item) cursor fun next moved => invariant next ∧ cursor = moved) :
    Sound cuts plain limit (items.foldlM step state) cursor fun next moved => invariant next ∧ cursor = moved := by
  induction items generalizing state with
  | nil => exact sound_pure inside ⟨starts, rfl⟩
  | cons item rest ih =>
    rw [List.foldlM_cons]
    apply sound_bind (each item List.mem_cons_self state starts)
    rintro next moved _ _ ⟨kept, rfl⟩
    exact ih kept fun item listed => each item (List.mem_cons_of_mem _ listed)

theorem sound_loop {τ : Type} {rank : τ → Nat} {body : τ → Reader σ (Turn τ α)} {top rounds : Nat} {state : τ}
    {invariant : τ → Prop} {post : α → Nat → Prop} (ranked : ∀ state, rank state ≤ top)
    (turn : ∀ state cursor, cursor ≤ limit → invariant state → Sound cuts plain limit (body state) cursor
      (Turn.After (fun next moved => invariant next ∧ (cursor < moved ∨ cursor = moved ∧ rank next < rank state)) post))
    (enough : (limit - cursor) * (top + 1) + rank state < rounds) (inside : cursor ≤ limit) (starts : invariant state) :
    Sound cuts plain limit (Reader.loop rank body rounds state) cursor post := by
  induction rounds generalizing state cursor with
  | zero => exact absurd enough (Nat.not_lt_zero _)
  | succ rounds ih =>
    have first := turn state cursor inside starts
    have fine := first.fine
    have aborts := first.aborts
    have unbroken := first.unbroken
    cases ran : body state cursor with
    | mk events result =>
      rw [ran] at fine aborts unbroken
      match result with
      | none => exact absurd (congrArg Outcome.result ran) first.ends
      | some (.error halt) =>
        have is : Reader.loop rank body (rounds + 1) state cursor = ⟨events, some (.error halt)⟩ := by
          simp only [Reader.loop, ran]
        refine ⟨?_, ?_, ?_, ?_, ?_⟩
        · rw [is]
          exact fine
        · rw [is]
          exact Option.some_ne_none _
        · rw [is]
          refine ⟨fun same => aborts.mp ?_, fun broken => ?_⟩
          · rw [Except.error.inj (Option.some.inj same)]
          · rw [Except.error.inj (Option.some.inj (aborts.mpr broken))]
        · rw [is]
          intro ascii same
          apply unbroken ascii
          rw [Except.error.inj (Option.some.inj same)]
        · rw [is]
          exact fun _ _ ok => nomatch ok
      | some (.ok (.done a, moved)) =>
        have is : Reader.loop rank body (rounds + 1) state cursor = ⟨events, some (.ok (a, moved))⟩ := by
          simp only [Reader.loop, ran]
        have within := first.reaches (.done a) moved (congrArg Outcome.result ran)
        refine ⟨?_, ?_, ?_, ?_, ?_⟩
        · rw [is]
          exact fine
        · rw [is]
          exact Option.some_ne_none _
        · rw [is]
          exact ⟨fun same => (nomatch same), fun broken => (nomatch aborts.mpr broken)⟩
        · rw [is]
          exact fun _ same => nomatch same
        · rw [is]
          intro b further ok
          cases ok
          exact within
      | some (.ok (.again next, moved)) =>
        have is : Reader.loop rank body (rounds + 1) state cursor =
            ⟨events ++ .round (cursor, rank state) (moved, rank next) :: (Reader.loop rank body rounds next moved).events,
              (Reader.loop rank body rounds next moved).result⟩ := by
          simp only [Reader.loop, ran]
        have within := first.reaches (.again next) moved (congrArg Outcome.result ran)
        have forward : invariant next ∧ (cursor < moved ∨ cursor = moved ∧ rank next < rank state) := within.2.2
        have fewer : (limit - moved) * (top + 1) + rank next < rounds := by
          have bound := ranked next
          rcases forward.2 with on | ⟨still, lower⟩
          · have gap : limit - moved + 1 ≤ limit - cursor := by omega
            have grown := Nat.mul_le_mul_right (top + 1) gap
            rw [Nat.add_mul, Nat.one_mul] at grown
            omega
          · rw [← still]
            omega
        have later := ih fewer within.2.1 forward.1
        have unbroken_first : ¬∃ event ∈ events, event.whole cuts = false := fun broken => nomatch aborts.mpr broken
        refine ⟨?_, ?_, ?_, ?_, ?_⟩
        · rw [is]
          intro event listed
          rcases List.mem_append.mp listed with early | late
          · exact fine event early
          · rcases List.mem_cons.mp late with this | late
            · rw [this]
              exact forward.2
            · exact later.fine event late
        · rw [is]
          exact later.ends
        · rw [is]
          refine later.aborts.trans ⟨?_, ?_⟩
          · rintro ⟨event, listed, broken⟩
            exact ⟨event, List.mem_append_right _ (List.mem_cons_of_mem _ listed), broken⟩
          · rintro ⟨event, listed, broken⟩
            rcases List.mem_append.mp listed with early | late
            · exact absurd ⟨event, early, broken⟩ unbroken_first
            · rcases List.mem_cons.mp late with this | late
              · rw [this] at broken
                exact nomatch broken
              · exact ⟨event, late, broken⟩
        · rw [is]
          exact later.unbroken
        · rw [is]
          intro b further ok
          have after := later.reaches b further ok
          exact ⟨Nat.le_trans within.1 after.1, after.2⟩

end

end Cursor
