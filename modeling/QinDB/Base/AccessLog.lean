/-
# Base.AccessLog — the accesses to a memory

The log of a memory lists its accesses, oldest first.

* `inside_append`: accesses stay inside a memory one after the other.
-/
import Mathlib.Data.List.Basic

namespace QinDB.Base

set_option autoImplicit false

inductive Access where
  | read (address : Nat)
  | write (address : Nat)
  deriving DecidableEq, Repr

namespace Access

def address : Access → Nat
  | read address | write address => address

/-- Every access is to one of the first `size` addresses. -/
def Inside (size : Nat) (log : List Access) : Prop := ∀ access ∈ log, access.address < size

instance (size : Nat) (log : List Access) : Decidable (Inside size log) :=
  inferInstanceAs (Decidable (∀ access ∈ log, access.address < size))

variable {size : Nat} {log more : List Access}

theorem inside_append : Inside size (log ++ more) ↔ Inside size log ∧ Inside size more :=
  List.forall_mem_append

theorem inside_singleton {access : Access} : Inside size [access] ↔ access.address < size :=
  List.forall_mem_singleton

end Access

end QinDB.Base
