/-
# Base.Bag — lists as bags, one place at a time

What a list contributes as a bag, when one of its elements is exchanged or its last is
added, is a part that does not change and the part of that element.

* `filterMap_set`, `flatMap_update`: exchanging one element.
-/
import Mathlib.Data.List.Perm.Basic
import Mathlib.Logic.Function.Basic

namespace QinDB.Base.Bag

set_option autoImplicit false

variable {α β : Type}

/-- Exchanging the element at a place exchanges its contribution. -/
theorem filterMap_set (f : α → Option β) :
    ∀ {l : List α} {i : Nat} {a : α}, l[i]? = some a →
      ∃ rest, (l.filterMap f).Perm ((f a).toList ++ rest) ∧
        ∀ b, ((l.set i b).filterMap f).Perm ((f b).toList ++ rest)
  | [], i, a, found => by cases found
  | x :: l, 0, a, found => by
      cases found
      have shape : ∀ b, ((b :: l).filterMap f) = (f b).toList ++ l.filterMap f := by
        intro b
        cases image : f b with
        | none => rw [List.filterMap_cons_none image]; rfl
        | some c => rw [List.filterMap_cons_some image]; rfl
      refine ⟨l.filterMap f, ?_, fun b => ?_⟩
      · rw [shape]
      · rw [List.set_cons_zero, shape]
  | x :: l, i + 1, a, found => by
      have inTail : l[i]? = some a := found
      obtain ⟨rest, before, after⟩ := filterMap_set f inTail
      have shape : ∀ l', ((x :: l').filterMap f) = (f x).toList ++ l'.filterMap f := by
        intro l'
        cases image : f x with
        | none => rw [List.filterMap_cons_none image]; rfl
        | some c => rw [List.filterMap_cons_some image]; rfl
      have move : ∀ (l' : List α) (b : α), (l'.filterMap f).Perm ((f b).toList ++ rest) →
          ((x :: l').filterMap f).Perm ((f b).toList ++ ((f x).toList ++ rest)) := by
        intro l' b same
        rw [shape]
        exact (same.append_left _).trans (List.perm_append_comm_assoc ..)
      exact ⟨(f x).toList ++ rest, move l a before, fun b => move (l.set i b) b (after b)⟩

/-- A function that agrees with `f` on a list except at one of its elements. -/
theorem flatMap_update {l : List α} {p : α} (f : α → List β) (nodup : l.Nodup)
    (member : p ∈ l) :
    ∃ rest, ∀ g : α → List β, (∀ q ∈ l, q ≠ p → g q = f q) →
      (l.flatMap g).Perm (g p ++ rest) := by
  obtain ⟨front, back, rfl⟩ := List.append_of_mem member
  rw [List.nodup_append, List.nodup_cons] at nodup
  obtain ⟨-, ⟨notBack, -⟩, apart⟩ := nodup
  refine ⟨front.flatMap f ++ back.flatMap f, fun g agree => ?_⟩
  have inFront : front.flatMap g = front.flatMap f := by
    refine List.flatMap_congr fun q inside => agree q (List.mem_append_left _ inside) ?_
    exact apart q inside p List.mem_cons_self
  have inBack : back.flatMap g = back.flatMap f := by
    refine List.flatMap_congr fun q inside =>
      agree q (List.mem_append_right _ (List.mem_cons_of_mem p inside)) ?_
    exact fun same => notBack (same ▸ inside)
  rw [List.flatMap_append, List.flatMap_cons, inFront, inBack]
  exact List.perm_append_comm_assoc ..

end QinDB.Base.Bag
