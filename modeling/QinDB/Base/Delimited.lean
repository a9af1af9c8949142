/-
# Base.Delimited — values that mark their own end

A partial reader takes a value off the front of a stream, or refuses. What was written is
delimited for it if it is read back whatever follows, and refused as soon as its end is cut
off: then a record that was cut is never mistaken for a whole one.

* `Takes`: a reader takes a value off what was written, and off no proper part of it.
* `takes_items`: a given number of items.
-/
import Mathlib.Data.List.Basic

namespace QinDB.Base

set_option autoImplicit false

variable {σ α β : Type}

/-- Take one value and leave the rest of the stream, or refuse. -/
abbrev PartialReader (σ α : Type) := List σ → Option (α × List σ)

namespace PartialReader

def andThen (first : PartialReader σ α) (second : α → PartialReader σ β) : PartialReader σ β :=
  fun stream => (first stream).bind fun taken => second taken.1 taken.2

def map (f : α → β) (reader : PartialReader σ α) : PartialReader σ β :=
  fun stream => (reader stream).map fun taken => (f taken.1, taken.2)

/-- A given number of items. -/
def items (count : Nat) : PartialReader σ (List σ) := fun stream =>
  if stream.length < count then none else some (stream.take count, stream.drop count)

/-- The value that is taken off nothing. -/
def nothing (value : α) : PartialReader σ α := fun stream => some (value, stream)

def refuse : PartialReader σ α := fun _ => none

end PartialReader

open PartialReader

/-- The reader takes this value off what was written, whatever follows, and refuses what was
written if its end is cut off. -/
structure Takes (reader : PartialReader σ α) (written : List σ) (value : α) : Prop where
  whole : ∀ rest, reader (written ++ rest) = some (value, rest)
  cut : ∀ count < written.length, reader (written.take count) = none

theorem takes_items (written : List σ) : Takes (items written.length) written written where
  whole rest := by
    have enough : ¬ (written ++ rest).length < written.length := by
      rw [List.length_append]
      omega
    rw [items, if_neg enough, List.take_left, List.drop_left]
  cut count short := by
    have missing : (written.take count).length < written.length := by
      rw [List.length_take]
      omega
    rw [items, if_pos missing]

end QinDB.Base
