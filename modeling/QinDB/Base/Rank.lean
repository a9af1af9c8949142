/-
# Base.Rank — positions in a filtered list

`l.filterMap f` keeps the elements of `l` that `f` maps to something, and closes up the
gaps. The element at index `i` of `l` that survives is found at position `rank f l i` of
the filtered list: the number of survivors before it.

* `mem_zipIdx_filterMap`: the positions of the filtered list are the ranks.
-/
import Mathlib.Data.List.Basic

namespace QinDB.Base.Rank

set_option autoImplicit false

variable {α β : Type} (f : α → Option β)

/-- The number of survivors before an index. -/
def rank (l : List α) (i : Nat) : Nat := (l.take i).countP fun a => (f a).isSome

@[simp] theorem rank_zero (l : List α) : rank f l 0 = 0 := rfl

theorem rank_cons_succ (a : α) (l : List α) (i : Nat) :
    rank f (a :: l) (i + 1) = rank f l i + if (f a).isSome then 1 else 0 := by
  rw [rank, List.take_succ_cons, List.countP_cons, rank]

theorem rank_le (l : List α) (i : Nat) : rank f l i ≤ i := by
  calc rank f l i ≤ (l.take i).length := List.countP_le_length
    _ ≤ i := List.length_take_le i l

theorem mem_zipIdx_filterMap (l : List α) (start : Nat) (b : β) (k : Nat) :
    (b, k) ∈ (l.filterMap f).zipIdx start ↔
      ∃ i a, l[i]? = some a ∧ f a = some b ∧ rank f l i + start = k := by
  induction l generalizing start with
  | nil => simp
  | cons a l ih =>
    cases image : f a with
    | none =>
      rw [List.filterMap_cons_none image, ih]
      constructor
      · rintro ⟨i, x, found, fx, same⟩
        refine ⟨i + 1, x, found, fx, ?_⟩
        rw [rank_cons_succ, image]
        exact same
      · rintro ⟨i, x, found, fx, same⟩
        cases i with
        | zero =>
          cases found
          rw [image] at fx
          cases fx
        | succ i =>
          refine ⟨i, x, found, fx, ?_⟩
          rw [rank_cons_succ, image] at same
          exact same
    | some c =>
      rw [List.filterMap_cons_some image, List.zipIdx_cons, List.mem_cons, ih]
      constructor
      · rintro (same | ⟨i, x, found, fx, same⟩)
        · cases same
          exact ⟨0, a, rfl, image, by rw [rank_zero, Nat.zero_add]⟩
        · refine ⟨i + 1, x, found, fx, ?_⟩
          rw [rank_cons_succ, image, Option.isSome_some, if_pos rfl]
          omega
      · rintro ⟨i, x, found, fx, same⟩
        cases i with
        | zero =>
          cases found
          rw [image] at fx
          cases fx
          rw [rank_zero, Nat.zero_add] at same
          exact .inl (by rw [same])
        | succ i =>
          refine .inr ⟨i, x, found, fx, ?_⟩
          rw [rank_cons_succ, image, Option.isSome_some, if_pos rfl] at same
          omega

end QinDB.Base.Rank
