/-
# Base.Span — the longest front of a list

A scanner takes items as long as they meet a condition. It stops at the end of what was meant for
it if the next item, where there is one, does not meet the condition.

* `takeWhile_exact`, `dropWhile_exact`: what is taken and what is left.
-/
import Mathlib.Data.List.TakeWhile

namespace QinDB.Base

set_option autoImplicit false

variable {α : Type} {p : α → Bool} {body rest : List α}

/-- The list ends here, or goes on with an item that does not meet the condition. -/
def Stops (p : α → Bool) (rest : List α) : Prop := ∀ item ∈ rest.head?, p item = false

theorem stops_nil : Stops p [] := nofun

theorem stops_cons {item : α} (stop : p item = false) : Stops p (item :: rest) := by
  intro other here
  cases here
  exact stop

theorem takeWhile_stops (stops : Stops p rest) : rest.takeWhile p = [] ∧ rest.dropWhile p = rest := by
  cases rest with
  | nil => exact ⟨rfl, rfl⟩
  | cons item rest =>
    have stop : ¬ p item = true := by simp [stops item rfl]
    exact ⟨List.takeWhile_cons_of_neg stop, List.dropWhile_cons_of_neg stop⟩

theorem takeWhile_exact (inside : ∀ item ∈ body, p item = true) (stops : Stops p rest) :
    (body ++ rest).takeWhile p = body := by
  rw [List.takeWhile_append_of_pos inside, (takeWhile_stops stops).1, List.append_nil]

theorem dropWhile_exact (inside : ∀ item ∈ body, p item = true) (stops : Stops p rest) :
    (body ++ rest).dropWhile p = rest := by
  rw [List.dropWhile_append_of_pos inside, (takeWhile_stops stops).2]

end QinDB.Base
