/-
# Storage.RawPage — tuples of bytes in a page

The low-level interface of table pages, which the system tables of the log use
(`table_page.cpp`). A tuple is bytes without a record header. Deleting is the operation
of ordinary records: it takes bytes 16 to 23 of the tuple for a transaction number,
wherever they lie, and stores the number of the deleting transaction there if they are
zero.

* `Stores`: a page that holds a list of tuples.
* `Stores.insertTuple`: a page with room takes one more tuple and keeps the others.
-/
import Mathlib.Data.List.Forall2
import QinDB.Base.LittleEndian
import QinDB.Base.Memory
import QinDB.Storage.TablePage

namespace QinDB.Storage

open QinDB.Core QinDB.Base

set_option autoImplicit false

/-- A page by its header, its slots and the bytes at each offset. Offsets beyond the page are
whatever memory follows it. -/
structure RawPage where
  isTablePage : Bool
  /-- Offset and length of each tuple. -/
  slots : List (Nat × Nat)
  freeSpaceOffset : Nat
  bytes : Nat → UInt8

namespace RawPage

/-- The page after `TablePage::initialize`; its bytes are reset to zero. -/
def formatted (page : RawPage) : RawPage where
  isTablePage := true
  slots := []
  freeSpaceOffset := PAGE_SIZE
  bytes := fun offset => if offset < PAGE_SIZE then 0 else page.bytes offset

def insertTuple (page : RawPage) (data : Bytes) : Option RawPage :=
  let size := data.length % 2 ^ 16
  let requiredSpace := (size + SLOT_SIZE) % 2 ^ 16
  let slotsEnd := PAGE_HEADER_SIZE + (page.slots.length + 1) * SLOT_SIZE
  let recordOffset := (page.freeSpaceOffset + 2 ^ 16 - size) % 2 ^ 16
  if data = [] then none
  else if page.freeSpaceOffset > PAGE_SIZE then none
  else if page.slots.length > (PAGE_SIZE - PAGE_HEADER_SIZE) / SLOT_SIZE then none
  else if slotsEnd > PAGE_SIZE then none
  else if page.freeSpaceOffset < slotsEnd then none
  else if page.freeSpaceOffset - slotsEnd < requiredSpace then none
  else if recordOffset < slotsEnd ∨ recordOffset + size > PAGE_SIZE then none
  else some { page with
    slots := page.slots ++ [(recordOffset, size)]
    freeSpaceOffset := recordOffset
    bytes := Memory.write page.bytes recordOffset (data.take size) }

/-- The tuple that a slot shows; a slot of length zero is empty. -/
def tupleAt (page : RawPage) (slot : Nat × Nat) : Option Bytes :=
  if slot.2 = 0 then none else some (Memory.read page.bytes slot.1 slot.2)

/-- The tuples of the slots in order, as the loops over a page see them. -/
def tuples (page : RawPage) : List Bytes := page.slots.filterMap page.tupleAt

/-- Where the transaction number of a deletion is kept in a record. -/
def DELETE_TXN_OFFSET : Nat := 16

def deleteRecord (page : RawPage) (slotIndex : Nat) (txnId : TransactionId) : Option RawPage :=
  match page.slots[slotIndex]? with
  | none => none
  | some (offset, length) =>
      if length = 0 then none
      else if LittleEndian.decode (Memory.read page.bytes (offset + DELETE_TXN_OFFSET) 8) ≠
          INVALID_TXN_ID then none
      else some { page with
        bytes := Memory.write page.bytes (offset + DELETE_TXN_OFFSET)
          (LittleEndian.encode 8 txnId) }

/-! ## Pages that hold tuples -/

/-- The page holds these tuples, one in each slot, in the area above the free space. -/
structure Stores (page : RawPage) (contents : List Bytes) : Prop where
  bounded : page.freeSpaceOffset ≤ PAGE_SIZE
  apart : PAGE_HEADER_SIZE + page.slots.length * SLOT_SIZE ≤ page.freeSpaceOffset
  each : List.Forall₂ (fun slot data => page.freeSpaceOffset ≤ slot.1 ∧ slot.2 = data.length ∧
    data ≠ [] ∧ Memory.read page.bytes slot.1 slot.2 = data) page.slots contents

/-- The page has room for a tuple of this size and its slot. The slot is counted twice. -/
def HasRoom (page : RawPage) (size : Nat) : Prop :=
  PAGE_HEADER_SIZE + (page.slots.length + 1) * SLOT_SIZE + size + SLOT_SIZE ≤ page.freeSpaceOffset

instance (page : RawPage) (size : Nat) : Decidable (page.HasRoom size) :=
  inferInstanceAs (Decidable (_ ≤ _))

theorem Stores.formatted (page : RawPage) : Stores page.formatted [] where
  bounded := Nat.le_refl _
  apart := by
    change PAGE_HEADER_SIZE + 0 * SLOT_SIZE ≤ PAGE_SIZE
    decide
  each := .nil

theorem Stores.tuples {page : RawPage} {contents : List Bytes} (stores : Stores page contents) :
    page.tuples = contents := by
  have each := stores.each
  clear stores
  rw [RawPage.tuples]
  generalize page.slots = slots at each
  induction each with
  | nil => rfl
  | cons here _ ih =>
    obtain ⟨-, length, nonempty, bytes⟩ := here
    have occupied : page.tupleAt _ = some _ :=
      (if_neg (by rw [length]; exact fun empty => nonempty (List.length_eq_zero_iff.mp empty))).trans
        (congrArg some bytes)
    rw [List.filterMap_cons_some occupied, ih]

/-- A page with room takes a tuple behind the others. -/
theorem Stores.insertTuple {page : RawPage} {contents : List Bytes} {data : Bytes}
    (stores : Stores page contents) (nonempty : data ≠ []) (room : page.HasRoom data.length) :
    ∃ page', page.insertTuple data = some page' ∧ Stores page' (contents ++ [data]) ∧
      page'.isTablePage = page.isTablePage := by
  have bounded := stores.bounded
  have pageSize : PAGE_SIZE = 8192 := rfl
  have headerSize : PAGE_HEADER_SIZE = 32 := rfl
  have slotSize : SLOT_SIZE = 4 := rfl
  rw [HasRoom, headerSize, slotSize] at room
  rw [pageSize] at bounded
  have size : data.length % 2 ^ 16 = data.length := Nat.mod_eq_of_lt (by omega)
  have required : (data.length + 4) % 2 ^ 16 = data.length + 4 := Nat.mod_eq_of_lt (by omega)
  have offset : (page.freeSpaceOffset + 2 ^ 16 - data.length) % 2 ^ 16 =
      page.freeSpaceOffset - data.length := by omega
  have taken : data.take data.length = data := List.take_length
  refine ⟨{ page with
      slots := page.slots ++ [(page.freeSpaceOffset - data.length, data.length)]
      freeSpaceOffset := page.freeSpaceOffset - data.length
      bytes := Memory.write page.bytes (page.freeSpaceOffset - data.length) data },
    ?_, ⟨?_, ?_, ?_⟩, rfl⟩
  · simp only [RawPage.insertTuple, size, headerSize, slotSize, pageSize, required, offset, taken]
    rw [if_neg nonempty, if_neg (by omega), if_neg (by omega), if_neg (by omega),
      if_neg (by omega), if_neg (by omega), if_neg (by omega)]
  · change page.freeSpaceOffset - data.length ≤ PAGE_SIZE
    omega
  · simp only [List.length_append, List.length_singleton, headerSize, slotSize]
    omega
  · -- The new tuple lies below all the others.
    refine List.rel_append (stores.each.imp fun slot old here => ?_)
      (.cons ⟨Nat.le_refl _, rfl, nonempty, ?_⟩ .nil)
    · obtain ⟨above, length, filled, bytes⟩ := here
      refine ⟨by simp only; omega, length, filled, ?_⟩
      rw [← bytes]
      exact Memory.read_write_apart _ (.inl (by omega))
    · exact Memory.read_write _ _ _

end RawPage

end QinDB.Storage
