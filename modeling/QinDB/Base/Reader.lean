/-
# Base.Reader — values read off a stream one after the other

A reader takes one value from the front of a stream and leaves the rest, or
refuses. What it takes is never empty, so `scan`, which reads until the reader
refuses, comes to an end.

* `scan_written`: what a writer put on the stream is read back, followed by
  whatever the rest of the stream holds.
* `exists_read_of_mem_scan`: every value of a scan was read somewhere in the stream.
-/
import Mathlib.Data.List.Infix

namespace QinDB.Base

set_option autoImplicit false

structure Reader (σ α : Type) where
  read : List σ → Option (α × List σ)
  takes : ∀ {input : List σ} {value : α} {rest : List σ}, read input = some (value, rest) →
    ∃ used, used ≠ [] ∧ input = used ++ rest

namespace Reader

variable {σ α : Type} (reader : Reader σ α)

theorem length_rest {input rest : List σ} {value : α}
    (taken : reader.read input = some (value, rest)) : rest.length < input.length := by
  obtain ⟨used, nonempty, rfl⟩ := reader.takes taken
  have := List.length_pos_iff.mpr nonempty
  rw [List.length_append]
  omega

/-- Read until the reader refuses. -/
def scan (input : List σ) : List α :=
  match _taken : reader.read input with
  | none => []
  | some (value, rest) => value :: scan rest
termination_by input.length
decreasing_by exact reader.length_rest _taken

theorem scan_of_none {input : List σ} (refused : reader.read input = none) :
    reader.scan input = [] := by
  unfold scan
  split
  · rfl
  · rename_i value rest taken
    cases refused.symm.trans taken

theorem scan_of_some {input rest : List σ} {value : α}
    (taken : reader.read input = some (value, rest)) :
    reader.scan input = value :: reader.scan rest := by
  rw [scan]
  split
  · rename_i refused
    cases refused.symm.trans taken
  · rename_i value' rest' taken'
    cases taken.symm.trans taken'
    rfl

/-- Values whose written form is read back whatever follows are read back in order. -/
theorem scan_written (write : α → List σ) :
    ∀ {values : List α}, (∀ value ∈ values, ∀ rest,
      reader.read (write value ++ rest) = some (value, rest)) →
      ∀ rest, reader.scan (values.flatMap write ++ rest) = values ++ reader.scan rest
  | [], _, rest => by rw [List.flatMap_nil, List.nil_append, List.nil_append]
  | value :: values, back, rest => by
      rw [List.flatMap_cons, List.append_assoc,
        reader.scan_of_some (back value List.mem_cons_self _),
        scan_written write fun later member => back later (List.mem_cons_of_mem _ member)]
      rfl

/-- A value of a scan was read at some place of the stream. -/
theorem exists_read_of_mem_scan {value : α} (input : List σ) (member : value ∈ reader.scan input) :
    ∃ place rest, place <:+ input ∧ reader.read place = some (value, rest) := by
  cases taken : reader.read input with
  | none =>
    rw [reader.scan_of_none taken] at member
    cases member
  | some result =>
    obtain ⟨first, rest⟩ := result
    rw [reader.scan_of_some taken, List.mem_cons] at member
    rcases member with rfl | later
    · exact ⟨input, rest, List.suffix_refl input, taken⟩
    · have shorter := reader.length_rest taken
      obtain ⟨place, after, inside, here⟩ := exists_read_of_mem_scan rest later
      obtain ⟨used, _, rfl⟩ := reader.takes taken
      exact ⟨place, after, inside.trans (List.suffix_append used rest), here⟩
termination_by input.length

end Reader

end QinDB.Base
