/-
# Base.Loop — a loop that may not end

A loop body gives a result and the next state, or leaves the loop. `loop` runs it, cut
off after a number of iterations, so a loop that ends is one for which some number is
enough. `Iterates` is the relation of a state and the one after one iteration.

* `ends_iff_of_step`, `not_ends_of_fixed`: one iteration; a state that does not change.
* `forall_reach_iff_of_step`: what every iteration does.
* `loop_along`: a loop whose states are known.
-/
import Mathlib.Logic.Relation

namespace QinDB.Base.Loop

open Relation

set_option autoImplicit false

variable {σ β : Type} (body : σ → Option (β × σ))

/-- The results of the iterations and the state in which the loop is left. -/
def loop : Nat → σ → Option (List β × σ)
  | 0, _ => none
  | fuel + 1, s =>
      match body s with
      | none => some ([], s)
      | some (result, next) => (loop fuel next).map fun (results, last) => (result :: results, last)

def Ends (s : σ) : Prop := ∃ fuel results last, loop body fuel s = some (results, last)

def Iterates (s next : σ) : Prop := ∃ result, body s = some (result, next)

variable {body} {s next last : σ} {result : β} {results : List β} {fuel : Nat}

theorem loop_succ_of_none (left : body s = none) : loop body (fuel + 1) s = some ([], s) := by
  simp only [loop, left]

theorem loop_succ_of_some (taken : body s = some (result, next)) :
    loop body (fuel + 1) s =
      (loop body fuel next).map fun (results, last) => (result :: results, last) := by
  simp only [loop, taken]

theorem ends_of_none (left : body s = none) : Ends body s := ⟨1, [], s, loop_succ_of_none left⟩

theorem ends_iff_of_step (taken : body s = some (result, next)) :
    Ends body s ↔ Ends body next := by
  constructor
  · rintro ⟨fuel, results, last, done⟩
    cases fuel with
    | zero => cases done
    | succ fuel =>
      rw [loop_succ_of_some taken, Option.map_eq_some_iff] at done
      obtain ⟨⟨later, after⟩, rest, -⟩ := done
      exact ⟨fuel, later, after, rest⟩
  · rintro ⟨fuel, results, last, done⟩
    exact ⟨fuel + 1, result :: results, last, by rw [loop_succ_of_some taken, done]; rfl⟩

/-- A body that leaves a state as it is runs forever. -/
theorem not_ends_of_fixed (taken : body s = some (result, s)) : ¬ Ends body s := by
  rintro ⟨fuel, results, last, done⟩
  induction fuel generalizing results with
  | zero => cases done
  | succ fuel ih =>
    rw [loop_succ_of_some taken, Option.map_eq_some_iff] at done
    obtain ⟨⟨later, after⟩, rest, same⟩ := done
    cases same
    exact ih later rest

/-- What every iteration from a state on does, one iteration at a time. -/
theorem forall_reach_iff_of_step {P : σ → σ → Prop} (taken : body s = some (result, next)) :
    (∀ s₁, ReflTransGen (Iterates body) s s₁ → ∀ s₂, Iterates body s₁ s₂ → P s₁ s₂) ↔
      P s next ∧
        ∀ s₁, ReflTransGen (Iterates body) next s₁ → ∀ s₂, Iterates body s₁ s₂ → P s₁ s₂ := by
  have here : Iterates body s next := ⟨result, taken⟩
  constructor
  · intro all
    exact ⟨all s .refl next here, fun s₁ reached => all s₁ (.head here reached)⟩
  · rintro ⟨first, later⟩ s₁ reached s₂ step
    rcases ReflTransGen.cases_head reached with rfl | ⟨next', ⟨result', taken'⟩, reached'⟩
    · obtain ⟨result', taken'⟩ := step
      cases taken.symm.trans taken'
      exact first
    · cases taken.symm.trans taken'
      exact later s₁ reached' s₂ step

theorem forall_reach_of_none {P : σ → σ → Prop} (left : body s = none) :
    ∀ s₁, ReflTransGen (Iterates body) s s₁ → ∀ s₂, Iterates body s₁ s₂ → P s₁ s₂ := by
  intro s₁ reached s₂ step
  rcases ReflTransGen.cases_head reached with rfl | ⟨next, ⟨result, taken⟩, -⟩
  · obtain ⟨result, taken⟩ := step
    cases left.symm.trans taken
  · cases left.symm.trans taken

variable (body) in
/-- The first states of a loop are known. -/
theorem loop_along (states : Nat → σ) (seen : Nat → β) {steps : Nat}
    (taken : ∀ k < steps, body (states k) = some (seen k, states (k + 1))) (fuel : Nat) :
    loop body (fuel + steps) (states 0) = (loop body fuel (states steps)).map
      fun (results, last) => ((List.range steps).map seen ++ results, last) := by
  induction steps generalizing states seen with
  | zero => exact Option.map_id'.symm
  | succ steps ih =>
    -- the loop from the second state on is a loop of its own
    have later := ih (fun k => states (k + 1)) (fun k => seen (k + 1))
      fun k below => taken (k + 1) (by omega)
    rw [← Nat.add_assoc, loop_succ_of_some (taken 0 (by omega)), later, Option.map_map,
      List.range_succ_eq_map, List.map_cons, List.map_map]
    rfl

/-! ## Counting loops -/

/-- `for (i = start; i < start + n; i++)` -/
def count (body : Nat → σ → σ) : Nat → Nat → σ → σ
  | _, 0, s => s
  | start, n + 1, s => count body (start + 1) n (body start s)

theorem count_keeps {P : Nat → σ → Prop} {step : Nat → σ → σ} {start n : Nat}
    (kept : ∀ i s, start ≤ i → i < start + n → P i s → P (i + 1) (step i s)) {s : σ}
    (first : P start s) : P (start + n) (count step start n s) := by
  induction n generalizing start s with
  | zero => exact first
  | succ n ih =>
    have later := ih (fun i s from_ below => kept i s (by omega) (by omega))
      (kept start s (Nat.le_refl _) (by omega) first)
    rwa [Nat.add_assoc, Nat.add_comm 1 n] at later

end QinDB.Base.Loop
