/-
# Base.ThreeWay — comparisons that answer with a number

A comparison answers with a negative number, with zero or with a positive one. It is a total order on
the values it is used for if it compares their ranks in a linear order.

* `lexicographic_eq`: the comparison of lists item by item is that of their lexicographic order.
* `TotalOn.of_rank`: a comparison of ranks is a total order.
-/
import Mathlib.Data.List.Lex
import Mathlib.Order.Lattice

namespace QinDB.Base

set_option autoImplicit false

section Comparison

variable {ω : Type} [LinearOrder ω]

def threeWay (a b : ω) : Int := if a < b then -1 else if b < a then 1 else 0

def lexicographic : List ω → List ω → Int
  | [], [] => 0
  | [], _ :: _ => -1
  | _ :: _, [] => 1
  | a :: as, b :: bs => if a < b then -1 else if b < a then 1 else lexicographic as bs

theorem threeWay_lt_iff {a b : ω} : threeWay a b < 0 ↔ a < b := by
  rw [threeWay]
  split_ifs <;> simp_all

theorem threeWay_pos_iff {a b : ω} : 0 < threeWay a b ↔ b < a := by
  rw [threeWay]
  split_ifs with below above
  · exact iff_of_false (by decide) (not_lt_of_gt below)
  · exact iff_of_true (by decide) above
  · exact iff_of_false (by decide) above

theorem threeWay_eq_zero_iff {a b : ω} : threeWay a b = 0 ↔ a = b := by
  rw [threeWay]
  split_ifs with below above
  · exact iff_of_false (by decide) (ne_of_lt below)
  · exact iff_of_false (by decide) (ne_of_gt above)
  · exact iff_of_true rfl (le_antisymm (not_lt.mp above) (not_lt.mp below))

theorem threeWay_le_iff {a b : ω} : threeWay a b ≤ 0 ↔ a ≤ b := by
  rw [← Int.not_lt, threeWay_pos_iff, not_lt]

theorem lexicographic_eq (a b : List ω) : lexicographic a b = threeWay a b := by
  induction a generalizing b with
  | nil =>
    cases b with
    | nil => rw [lexicographic, threeWay_eq_zero_iff.mpr rfl]
    | cons y ys => rw [lexicographic, threeWay, if_pos (List.nil_lt_cons y ys)]
  | cons x xs ih =>
    cases b with
    | nil =>
      rw [lexicographic, threeWay, if_neg (List.not_lt_nil _), if_pos (List.nil_lt_cons x xs)]
    | cons y ys =>
      rw [lexicographic, ih]
      simp only [threeWay, List.cons_lt_cons_iff]
      split_ifs <;> grind

end Comparison

/-- The laws of a total order, for good values. -/
structure TotalOn {α : Type} (Good : α → Prop) (compare : α → α → Int) : Prop where
  antisymmetric : ∀ a b, Good a → Good b → (compare a b < 0 ↔ 0 < compare b a)
  transitive : ∀ a b c, Good a → Good b → Good c → compare a b ≤ 0 → compare b c ≤ 0 → compare a c ≤ 0
  total : ∀ a b, Good a → Good b → compare a b ≤ 0 ∨ compare b a ≤ 0

theorem TotalOn.of_rank {α ω : Type} [LinearOrder ω] {Good : α → Prop} {compare : α → α → Int}
    (rank : α → ω) (ranked : ∀ a b, Good a → Good b → compare a b = threeWay (rank a) (rank b)) :
    TotalOn Good compare where
  antisymmetric a b goodA goodB := by
    rw [ranked a b goodA goodB, ranked b a goodB goodA, threeWay_lt_iff, threeWay_pos_iff]
  transitive a b c goodA goodB goodC := by
    rw [ranked a b goodA goodB, ranked b c goodB goodC, ranked a c goodA goodC, threeWay_le_iff,
      threeWay_le_iff, threeWay_le_iff]
    exact le_trans
  total a b goodA goodB := by
    rw [ranked a b goodA goodB, ranked b a goodB goodA, threeWay_le_iff, threeWay_le_iff]
    exact le_total _ _

end QinDB.Base
