/-
# Base.MemoryProgram — programs over a memory

A program loads and stores ranges of a memory of bytes and goes on by what it loaded. Its
result, the memory it leaves and the log of its accesses are read off the same instructions.

* `run_bind`, `log_bind`: a program after another one.
* `run_frame`: an address that is never written keeps its value.
* `Within`: all accesses are of one kind, with a rule for each way to build a program.
-/
import QinDB.Base.AccessLog
import QinDB.Base.Memory

namespace QinDB.Base

set_option autoImplicit false

inductive MemoryProgram (α : Type) where
  | done (result : α)
  | load (start count : Nat) (next : List UInt8 → MemoryProgram α)
  | store (start : Nat) (bytes : List UInt8) (next : MemoryProgram α)

namespace MemoryProgram

variable {α β : Type}

def bind : MemoryProgram α → (α → MemoryProgram β) → MemoryProgram β
  | done result, next => next result
  | load start count more, next => load start count fun bytes => (more bytes).bind next
  | store start bytes more, next => store start bytes (more.bind next)

instance : Monad MemoryProgram where
  pure := done
  bind := bind

def read (start count : Nat) : MemoryProgram (List UInt8) := load start count done

def write (start : Nat) (bytes : List UInt8) : MemoryProgram Unit := store start bytes (done ())

/-- The result and the memory that is left. -/
def run : MemoryProgram α → (Nat → UInt8) → α × (Nat → UInt8)
  | done result, memory => (result, memory)
  | load start count next, memory => (next (Memory.read memory start count)).run memory
  | store start bytes next, memory => next.run (Memory.write memory start bytes)

/-- The accesses in their order. -/
def log : MemoryProgram α → (Nat → UInt8) → List Access
  | done _, _ => []
  | load start count next, memory =>
      (List.range count).map (fun offset => .read (start + offset)) ++
        (next (Memory.read memory start count)).log memory
  | store start bytes next, memory =>
      (List.range bytes.length).map (fun offset => .write (start + offset)) ++
        next.log (Memory.write memory start bytes)

variable {memory : Nat → UInt8}

@[simp] theorem run_pure (result : α) : (pure result : MemoryProgram α).run memory =
    (result, memory) := rfl

@[simp] theorem run_read (start count : Nat) :
    (read start count).run memory = (Memory.read memory start count, memory) := rfl

@[simp] theorem run_write (start : Nat) (bytes : List UInt8) :
    (write start bytes).run memory = ((), Memory.write memory start bytes) := rfl

@[simp] theorem run_bind (first : MemoryProgram α) (next : α → MemoryProgram β) :
    (first >>= next).run memory = (next (first.run memory).1).run (first.run memory).2 := by
  change (first.bind next).run memory = _
  induction first generalizing memory with
  | done result => rfl
  | load start count more ih => exact ih _
  | store start bytes more ih => exact ih

@[simp] theorem log_bind (first : MemoryProgram α) (next : α → MemoryProgram β) :
    (first >>= next).log memory =
      first.log memory ++ (next (first.run memory).1).log (first.run memory).2 := by
  change (first.bind next).log memory = _
  induction first generalizing memory with
  | done result => rfl
  | load start count more ih =>
    rw [bind, log, log, List.append_assoc, ih]
    rfl
  | store start bytes more ih =>
    rw [bind, log, log, List.append_assoc, ih]
    rfl

theorem run_ite {condition : Prop} [Decidable condition] (first second : MemoryProgram α) :
    (if condition then first else second).run memory =
      if condition then first.run memory else second.run memory :=
  apply_ite (·.run memory) condition first second

theorem forall_accesses {start count : Nat} {kind : Nat → Access} {allowed : Access → Prop} :
    (∀ access ∈ (List.range count).map (fun offset => kind (start + offset)), allowed access) ↔
      ∀ address, start ≤ address → address < start + count → allowed (kind address) := by
  rw [List.forall_mem_map]
  constructor
  · intro each address after before
    have found := each (address - start) (List.mem_range.mpr (by omega))
    rwa [Nat.add_sub_cancel' after] at found
  · intro each offset inside
    exact each _ (Nat.le_add_right _ _) (Nat.add_lt_add_left (List.mem_range.mp inside) _)

/-- What is not written stays as it was. -/
theorem run_frame {program : MemoryProgram α} {address : Nat}
    (unwritten : .write address ∉ program.log memory) :
    (program.run memory).2 address = memory address := by
  induction program generalizing memory with
  | done result => rfl
  | load start count next ih =>
    rw [log, List.mem_append, not_or] at unwritten
    exact ih _ unwritten.2
  | store start bytes next ih =>
    rw [log, List.mem_append, not_or] at unwritten
    rw [run, ih unwritten.2]
    refine Memory.write_outside (Decidable.not_and_iff_not_or_not.mp fun inside => ?_)
    have other : ∀ access ∈ (List.range bytes.length).map (fun offset => Access.write (start + offset)),
        access ≠ Access.write address := fun access member same => unwritten.1 (same ▸ member)
    exact forall_accesses.mp other address inside.1 inside.2 rfl

/-! ## Footprints -/

variable {allowed : Access → Prop}

/-- Every access of the program is of this kind. -/
def Within (allowed : Access → Prop) (program : MemoryProgram α) (memory : Nat → UInt8) : Prop :=
  ∀ access ∈ program.log memory, allowed access

theorem within_pure (result : α) : Within allowed (pure result) memory := List.forall_mem_nil _

theorem within_read {start count : Nat} :
    Within allowed (read start count) memory ↔
      ∀ address, start ≤ address → address < start + count → allowed (.read address) := by
  rw [Within, read, log, log, List.append_nil, forall_accesses]

theorem within_write {start : Nat} {bytes : List UInt8} :
    Within allowed (write start bytes) memory ↔
      ∀ address, start ≤ address → address < start + bytes.length → allowed (.write address) := by
  rw [Within, write, log, log, List.append_nil, forall_accesses]

theorem within_bind {first : MemoryProgram α} {next : α → MemoryProgram β} :
    Within allowed (first >>= next) memory ↔ Within allowed first memory ∧
      Within allowed (next (first.run memory).1) (first.run memory).2 := by
  rw [Within, log_bind]
  exact List.forall_mem_append

theorem Within.of_else {condition : Prop} [Decidable condition] {first second : MemoryProgram α}
    (within : Within allowed (if condition then first else second) memory)
    (otherwise : ¬ condition) : Within allowed second memory := by
  rwa [if_neg otherwise] at within

end MemoryProgram

end QinDB.Base
