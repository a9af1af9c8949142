/-
# Base.Locked — calls on an object with a mutex of its own

The methods of an object as one thread runs them, over the fields of the object and its mutex.
The mutex is not recursive: a thread that locks it again waits for itself and does not return.
A method that follows a null pointer does not return either.

* `Returns`: a call comes to its end, and the mutex is as it was before.
* `returns_bind`, `returns_withMutex`: the rules for one call after the other and for a section
  under the mutex.
* `withMutex_of_error`: what does not return under the mutex does not return at all.
* `run_returns_iff`: the calls of a run, by what one call does.
-/
import QinDB.Base.Run

namespace QinDB.Base.Locked

set_option autoImplicit false

/-- Why a call does not return. -/
inductive Fault where
  | selfDeadlock
  | nullPointer
  deriving DecidableEq, Repr

/-- The fields of an object and whether its mutex is locked. -/
structure Guarded (σ : Type) where
  object : σ
  locked : Bool := false

/-- A call, or a part of one. -/
def Method (σ α : Type) : Type := Guarded σ → Except Fault (α × Guarded σ)

variable {σ α β : Type}

namespace Method

def bind (method : Method σ α) (next : α → Method σ β) : Method σ β := fun s =>
  match method s with
  | .error fault => .error fault
  | .ok (a, s') => next a s'

instance : Monad (Method σ) where
  pure a := fun s => .ok (a, s)
  bind := bind

end Method

/-- Code that calls no other method. -/
def update (change : σ → α × σ) : Method σ α := fun s =>
  .ok ((change s.object).1, { s with object := (change s.object).2 })

def object : Method σ σ := update fun fields => (fields, fields)

def dereference : Option α → Method σ α
  | none => fun _ => .error .nullPointer
  | some target => pure target

/-- `QMutexLocker`: the mutex is given back wherever the section ends. -/
def withMutex (section_ : Method σ α) : Method σ α := fun s =>
  if s.locked then .error .selfDeadlock
  else
    match section_ { s with locked := true } with
    | .error fault => .error fault
    | .ok (a, s') => .ok (a, { s' with locked := false })

/-- The call comes to its end, and the mutex is as before. -/
def Returns (method : Method σ α) (s : Guarded σ) : Prop :=
  ∃ a s', method s = .ok (a, s') ∧ s'.locked = s.locked

variable {method : Method σ α} {next : α → Method σ β} {s : Guarded σ}

theorem bind_of_error {fault : Fault} (stuck : method s = .error fault) :
    (method >>= next) s = .error fault := by
  show Method.bind method next s = .error fault
  rw [Method.bind, stuck]

theorem bind_of_ok {a : α} {s' : Guarded σ} (done : method s = .ok (a, s')) :
    (method >>= next) s = next a s' := by
  show Method.bind method next s = next a s'
  rw [Method.bind, done]

theorem not_returns_of_error {fault : Fault} (stuck : method s = .error fault) :
    ¬ Returns method s := by
  rintro ⟨a, s', done, -⟩
  cases stuck.symm.trans done

theorem returns_pure (a : α) : Returns (pure a : Method σ α) s := ⟨a, s, rfl, rfl⟩

theorem returns_update (change : σ → α × σ) : Returns (update change) s := ⟨_, _, rfl, rfl⟩

theorem returns_bind (first : Returns method s)
    (second : ∀ a s', s'.locked = s.locked → Returns (next a) s') : Returns (method >>= next) s := by
  obtain ⟨a, s₁, done, same₁⟩ := first
  obtain ⟨b, s₂, rest, same₂⟩ := second a s₁ same₁
  exact ⟨b, s₂, (bind_of_ok done).trans rest, same₂.trans same₁⟩

/-- The fields are at hand in what follows. -/
theorem object_bind (next : σ → Method σ β) : (object >>= next) s = next s.object s := rfl

theorem returns_withMutex (unlocked : s.locked = false)
    (inside : Returns method { s with locked := true }) : Returns (withMutex method) s := by
  obtain ⟨a, s', done, -⟩ := inside
  refine ⟨a, { s' with locked := false }, ?_, unlocked.symm⟩
  rw [withMutex, unlocked, done]
  rfl

theorem withMutex_of_locked (locked : s.locked = true) :
    withMutex method s = .error .selfDeadlock := by
  rw [withMutex, if_pos locked]

theorem withMutex_of_error {fault : Fault} (unlocked : s.locked = false)
    (stuck : method { s with locked := true } = .error fault) :
    withMutex method s = .error fault := by
  rw [withMutex, unlocked, stuck]
  rfl

/-- The answer of a call is left out. -/
theorem returns_discard_iff : Returns (do let _ ← method) s ↔ Returns method s := by
  constructor
  · intro returns
    cases done : method s with
    | error fault => exact absurd returns (not_returns_of_error (bind_of_error done))
    | ok answer =>
      obtain ⟨a, s', all, same⟩ := returns
      rw [bind_of_ok done] at all
      cases all
      exact ⟨_, _, done, same⟩
  · exact fun returns => returns_bind returns fun _ _ _ => returns_pure ()

/-! ## Runs -/

/-- A call of a thread; one that does not return has no state after it. -/
def attempt (perform : α → Method σ Unit) (s : Guarded σ) (call : α) :
    Option (Unit × Guarded σ) := (perform call s).toOption

/-- The call returns and leaves the mutex unlocked. -/
def ReturnsUnlocked (perform : α → Method σ Unit) (s : Guarded σ) (call : α) : Prop :=
  ∃ s', perform call s = .ok ((), s') ∧ s'.locked = false

/-- The calls of a run return exactly when none of them blocks in the state it is made in. -/
theorem run_returns_iff (perform : α → Method σ Unit) (Blocks : σ → α → Prop)
    (steps : ∀ (s : Guarded σ) (call : α), s.locked = false →
      (Returns (perform call) s ↔ ¬ Blocks s.object call)) (fields : σ) (calls : List α) :
    Run.Meets (attempt perform) (ReturnsUnlocked perform) { object := fields } calls ↔
      Run.Meets (attempt perform) (fun s call => ¬ Blocks s.object call) { object := fields }
        calls := by
  have same : ∀ (s : Guarded σ) (call : α), s.locked = false →
      (ReturnsUnlocked perform s call ↔ ¬ Blocks s.object call) := by
    intro s call unlocked
    rw [← steps s call unlocked]
    constructor
    · rintro ⟨s', done, after⟩
      exact ⟨(), s', done, after.trans unlocked.symm⟩
    · rintro ⟨a, s', done, after⟩
      exact ⟨s', done, after.trans unlocked⟩
  refine Run.meets_iff_of_invariant same (fun s call answer s' unlocked free taken => ?_)
    calls _ rfl
  obtain ⟨s₁, done, after⟩ := (same s call unlocked).mpr free
  rw [attempt, done] at taken
  cases taken
  exact after

end QinDB.Base.Locked
