/-
# Base.Memory — ranges of a memory

A memory gives every address a value. `read` takes the values of a range, `write` puts
a list at an address.

* `read_write`: a range that was just written holds what was written.
* `read_write_apart`, `write_outside`, `read_fill_apart`: what is apart from it is as it was.
* `read_add`, `write_append`: two ranges, one after the other.
-/
import Mathlib.Data.List.GetD

namespace QinDB.Base.Memory

set_option autoImplicit false

variable {α : Type}

def read (memory : Nat → α) (start count : Nat) : List α :=
  (List.range count).map fun offset => memory (start + offset)

def write (memory : Nat → α) (start : Nat) (values : List α) : Nat → α := fun address =>
  if start ≤ address then values.getD (address - start) (memory address) else memory address

@[simp] theorem length_read (memory : Nat → α) (start count : Nat) :
    (read memory start count).length = count := by
  rw [read, List.length_map, List.length_range]

theorem read_write (memory : Nat → α) (start : Nat) (values : List α) :
    read (write memory start values) start values.length = values := by
  refine List.ext_getElem (length_read _ _ _) fun index _ inside => ?_
  simp only [read, List.getElem_map, List.getElem_range, write, Nat.le_add_right, if_true,
    Nat.add_sub_cancel_left, List.getD_eq_getElem values _ inside]

theorem read_write_apart (memory : Nat → α) {start other count : Nat} {values : List α}
    (apart : start + values.length ≤ other ∨ other + count ≤ start) :
    read (write memory start values) other count = read memory other count := by
  refine List.map_congr_left fun offset inside => ?_
  have bound := List.mem_range.mp inside
  rw [write]
  split
  · rename_i after
    exact List.getD_eq_default values _ (by omega)
  · rfl

theorem write_outside {memory : Nat → α} {start address : Nat} {values : List α}
    (outside : ¬ start ≤ address ∨ ¬ address < start + values.length) :
    write memory start values address = memory address := by
  rw [write]
  split
  · exact List.getD_eq_default values _ (by omega)
  · rfl

theorem read_add (memory : Nat → α) (start first second : Nat) :
    read memory start (first + second) =
      read memory start first ++ read memory (start + first) second := by
  simp only [read, List.range_add, List.map_append, List.map_map, Function.comp_def,
    Nat.add_assoc]

theorem write_append (memory : Nat → α) (start : Nat) (front back : List α) :
    write memory start (front ++ back) =
      write (write memory start front) (start + front.length) back := by
  funext address
  simp only [write]
  by_cases before : address < start + front.length
  · rw [if_neg (Nat.not_le.mpr before)]
    split
    · rw [List.getD_append _ _ _ _ (by omega)]
    · rfl
  · rw [if_pos (Nat.not_lt.mp before), if_pos (by omega), if_pos (by omega),
      List.getD_append_right _ _ _ _ (by omega), List.getD_eq_default front _ (by omega),
      Nat.sub_sub]

/-- `memset` -/
def fill (memory : Nat → α) (start count : Nat) (value : α) : Nat → α := fun address =>
  if start ≤ address ∧ address < start + count then value else memory address

theorem read_fill_apart (memory : Nat → α) {start count other many : Nat} {value : α}
    (apart : start + count ≤ other ∨ other + many ≤ start) :
    read (fill memory start count value) other many = read memory other many := by
  refine List.map_congr_left fun offset inside => ?_
  have bound := List.mem_range.mp inside
  exact if_neg (by omega)

theorem write_replicate (memory : Nat → α) (start count : Nat) (value : α) :
    write memory start (List.replicate count value) = fill memory start count value := by
  funext address
  rw [write, fill]
  by_cases after : start ≤ address
  · rw [if_pos after]
    by_cases before : address < start + count
    · rw [if_pos ⟨after, before⟩, List.getD_replicate _ (by omega)]
    · rw [if_neg (fun inside => before inside.2), List.getD_eq_default]
      rw [List.length_replicate]
      omega
  · rw [if_neg after, if_neg fun inside => after inside.1]

end QinDB.Base.Memory
