/-
# Storage.WalPayload — what the log records of INSERT, UPDATE and DELETE carry

The executor writes the table name, the page and the slot of the row it changed, and for
INSERT also the row id; replay reads them back (`executor.cpp`, `wal.cpp`). The slot index
of an inserted row is a `uint16_t` on both sides. UPDATE and DELETE take theirs from a
candidate, where it is an `int`, and so write four bytes where replay reads two.

* `payload_agreement_iff`: INSERT payloads are read as written; the others only for slot
  zero.
-/
import QinDB.Storage.DataStream

namespace QinDB.Storage

open QinDB.Core

set_option autoImplicit false

section Payload

variable {S : Type} (codec : TextCodec S)

/-! ## The executor's side -/

def insertPayload (tableName : S) (rowId : UInt64) (pageId : UInt32) (slotIndex : UInt16) : Bytes :=
  codec.write tableName ++ (streamWrite 8 rowId.toNat ++
    (streamWrite 4 pageId.toNat ++ streamWrite 2 slotIndex.toNat))

/-- Table name, page and slot of a candidate. -/
def candidatePayload (tableName : S) (pageId : UInt32) (slotIndex : Int32) : Bytes :=
  codec.write tableName ++ (streamWrite 4 pageId.toNat ++ streamWrite 4 slotIndex.toUInt32.toNat)

def updatePayload (tableName : S) (pageId : UInt32) (slotIndex : Int32) : Bytes :=
  candidatePayload codec tableName pageId slotIndex

def deletePayload (tableName : S) (pageId : UInt32) (slotIndex : Int32) : Bytes :=
  candidatePayload codec tableName pageId slotIndex

/-! ## The side of replay -/

/-- The row a replayed record is about. -/
structure Replayed (S : Type) where
  tableName : S
  pageId : UInt32
  slotIndex : UInt16
  deriving DecidableEq

/-- Page and slot at the end of a payload. -/
def decodePlace (tableName : S) (stream : Bytes) : Replayed S :=
  let page := streamRead 4 stream
  let slot := streamRead 2 page.2
  { tableName, pageId := .ofNat page.1, slotIndex := .ofNat slot.1 }

/-- The stream operators of `replayInsert`. -/
def decodeInsert (data : Bytes) : UInt64 × Replayed S :=
  let name := codec.readText data
  let row := streamRead 8 name.2
  (.ofNat row.1, decodePlace name.1 row.2)

/-- Those of `replayUpdate`. -/
def decodeUpdate (data : Bytes) : Replayed S :=
  let name := codec.readText data
  decodePlace name.1 name.2

/-- Those of `replayDelete`. -/
def decodeDelete (data : Bytes) : Replayed S :=
  let name := codec.readText data
  decodePlace name.1 name.2

/-! ## Agreement -/

/-- Replay addresses the row that the executor logged. -/
def Replayed.Addresses (replayed : Replayed S) (tableName : S) (pageId : UInt32)
    (slotIndex : Int) : Prop :=
  replayed.tableName = tableName ∧ replayed.pageId = pageId ∧
    (replayed.slotIndex.toNat : Int) = slotIndex

theorem decodeInsert_insertPayload (tableName : S) (rowId : UInt64) (pageId : UInt32)
    (slotIndex : UInt16) :
    decodeInsert codec (insertPayload codec tableName rowId pageId slotIndex) =
      (rowId, { tableName, pageId, slotIndex }) := by
  have row := streamRead_write (w := 8) rowId.toNat_lt
    (streamWrite 4 pageId.toNat ++ streamWrite 2 slotIndex.toNat)
  have page := streamRead_write (w := 4) pageId.toNat_lt (streamWrite 2 slotIndex.toNat)
  have slot := streamRead_write (w := 2) slotIndex.toNat_lt []
  rw [List.append_nil] at slot
  simp only [decodeInsert, insertPayload, TextCodec.readText_write, decodePlace, row, page, slot,
    UInt64.ofNat_toNat, UInt32.ofNat_toNat, UInt16.ofNat_toNat]

/-- Replay reads the high half of the slot index. -/
theorem decodeUpdate_candidatePayload (tableName : S) (pageId : UInt32) (slotIndex : Int32) :
    decodeUpdate codec (candidatePayload codec tableName pageId slotIndex) =
      { tableName, pageId, slotIndex := .ofNat (slotIndex.toUInt32.toNat / 256 ^ 2) } := by
  have page := streamRead_write (w := 4) pageId.toNat_lt (streamWrite 4 slotIndex.toUInt32.toNat)
  have slot := streamRead_wider (v := 2) (w := 2) slotIndex.toUInt32.toNat_lt []
  rw [List.append_nil] at slot
  simp only [decodeUpdate, candidatePayload, TextCodec.readText_write, decodePlace, page, slot,
    UInt32.ofNat_toNat]

theorem high_half_eq_iff (slotIndex : Int32) :
    ((UInt16.ofNat (slotIndex.toUInt32.toNat / 256 ^ 2)).toNat : Int) = slotIndex.toInt ↔
      slotIndex = 0 := by
  have value : slotIndex.toInt =
      if 2 * slotIndex.toUInt32.toNat < 2 ^ 32 then (slotIndex.toUInt32.toNat : Int)
      else (slotIndex.toUInt32.toNat : Int) - (2 ^ 32 : Nat) :=
    BitVec.toInt_eq_toNat_cond slotIndex.toBitVec
  have zero : slotIndex = 0 ↔ slotIndex.toInt = 0 := Int32.toInt_inj.symm
  have wide := slotIndex.toUInt32.toNat_lt
  have fits : slotIndex.toUInt32.toNat / 256 ^ 2 < 2 ^ 16 := by omega
  rw [zero, UInt16.toNat_ofNat', Nat.mod_eq_of_lt fits, value]
  -- A nonzero index is above its own high half, or negative.
  split <;> omega

theorem addresses_candidatePayload (tableName : S) (pageId : UInt32) (slotIndex : Int32) :
    (decodeUpdate codec (candidatePayload codec tableName pageId slotIndex)).Addresses tableName
      pageId slotIndex.toInt ↔ slotIndex = 0 := by
  rw [decodeUpdate_candidatePayload, Replayed.Addresses]
  simp only [true_and, high_half_eq_iff]

/-- Replay of an INSERT addresses the row the executor wrote; replay of an UPDATE or a DELETE
does so if and only if the row is in slot zero. -/
theorem payload_agreement_iff (tableName : S) (rowId : UInt64) (pageId : UInt32)
    (inserted : UInt16) (candidate : Int32) :
    (decodeInsert codec (insertPayload codec tableName rowId pageId inserted)).2.Addresses
        tableName pageId inserted.toNat ∧
      ((decodeUpdate codec (updatePayload codec tableName pageId candidate)).Addresses
        tableName pageId candidate.toInt ↔ candidate = 0) ∧
      ((decodeDelete codec (deletePayload codec tableName pageId candidate)).Addresses
        tableName pageId candidate.toInt ↔ candidate = 0) := by
  refine ⟨?_, addresses_candidatePayload codec tableName pageId candidate,
    addresses_candidatePayload codec tableName pageId candidate⟩
  rw [decodeInsert_insertPayload]
  exact ⟨rfl, rfl, rfl⟩

end Payload

/-- The table `t`. -/
def sampleName : QString := ⟨[116], by decide⟩

/-- An UPDATE of slot one is replayed on slot zero. -/
theorem update_slot_one_replayed_as_zero :
    (decodeUpdate QString.utf16 (updatePayload QString.utf16 sampleName 5 1)).slotIndex = 0 ∧
      ¬ (decodeUpdate QString.utf16 (updatePayload QString.utf16 sampleName 5 1)).Addresses
        sampleName 5 1 := by
  rw [updatePayload, decodeUpdate_candidatePayload]
  exact ⟨by decide, fun addressed => absurd addressed.2.2 (by decide)⟩

end QinDB.Storage
