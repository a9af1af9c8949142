/-
# Storage.TablePage — records in the slots of a table page

A table page is an array of slots and a record area that grows down towards it
(`table_page.cpp`). A slot is empty or shows a record: a header that names the
transactions that created and deleted it, and the bytes of the fields. Record
sizes are sixteen-bit, so a size is stored modulo `2 ^ 16` and only that many
bytes are copied.

The values (`QVariant`) and their encoding on a `QDataStream` belong to Qt; they
are the parameter `Variant`.

* `insertRecord_some`, `deleteRecord_some`, `updateRecord_some`: what each
  operation does to the slots when it succeeds.
-/
import Mathlib.Algebra.Group.Nat.Defs
import QinDB.Core.Types

namespace QinDB.Storage

open QinDB.Core

set_option autoImplicit false

abbrev TransactionId := Nat

def INVALID_TXN_ID : TransactionId := 0

/-- A name as the parser delivers it, in the letter case of the statement. -/
abbrev Identifier := List Char

/-- `QString::toLower`, for names whose capital letters are ASCII. -/
def Identifier.toLower (name : Identifier) : Identifier := name.map Char.toLower

/-! ## Columns and field encoding -/

structure ColumnDef where
  name : Identifier
  type : DataType
  length : Nat := 0
  notNull : Bool := false
  autoIncrement : Bool := false
  deriving DecidableEq, Repr

/-- `QVariant` and its stream operators. `write` is the conversion of a value to
the column's type followed by `<<`; `read` is `>>`, with the rest of the stream. -/
structure Variant (V : Type) where
  null : V
  isNull : V → Bool
  toBool : V → Bool
  ofRowId : RowId → V
  write : ColumnDef → V → Bytes
  read : ColumnDef → Bytes → Option (V × Bytes)

/-- The data types that table pages can hold; the others are refused. -/
def isStorable : DataType → Bool
  | .INT | .BIGINT | .FLOAT | .DOUBLE | .BOOLEAN | .CHAR | .VARCHAR | .TEXT
  | .DATE | .TIME | .DATETIME | .DECIMAL | .BLOB => true
  | _ => false

section Fields

variable {V : Type} (qt : Variant V)

def serializeField (column : ColumnDef) (value : V) : Option Bytes :=
  if qt.isNull value then some [1]
  else if isStorable column.type then some (0 :: qt.write column value)
  else none

def deserializeField (column : ColumnDef) : Bytes → Option (V × Bytes)
  | [] => none
  | flag :: stream =>
      if flag ≠ 0 then some (qt.null, stream)
      else if isStorable column.type then qt.read column stream
      else none

def serializeFields : List ColumnDef → List V → Option Bytes
  | column :: columns, value :: values =>
      match serializeField qt column value with
      | none => none
      | some field => (serializeFields columns values).map (field ++ ·)
  | _, _ => some []

def deserializeFields : List ColumnDef → Bytes → Option (List V)
  | [], _ => some []
  | column :: columns, stream =>
      match deserializeField qt column stream with
      | none => none
      | some (value, rest) => (deserializeFields columns rest).map (value :: ·)

end Fields

/-! ## Records, slots and pages -/

def RECORD_HEADER_SIZE : Nat := 26
def PAGE_HEADER_SIZE : Nat := 32
def SLOT_SIZE : Nat := 4

structure RecordHeader where
  rowId : RowId
  createTxnId : TransactionId
  deleteTxnId : TransactionId
  columnCount : Nat
  deriving DecidableEq, Repr

/-- A record as its slot shows it: the slot's length, the header, and the field
bytes that lie within that length. -/
structure Record where
  header : RecordHeader
  length : Nat
  data : Bytes
  deriving DecidableEq, Repr

/-- An empty slot has length zero. -/
abbrev Slot := Option Record

structure TablePage where
  slots : List Slot
  freeSpaceOffset : Nat
  deriving DecidableEq, Repr

namespace TablePage

def init : TablePage where
  slots := []
  freeSpaceOffset := PAGE_SIZE

/-- The slot at an index; beyond the slot array there is nothing. -/
def slot (page : TablePage) (index : Nat) : Slot := (page.slots[index]?).join

def setSlot (page : TablePage) (index : Nat) (content : Slot) : TablePage :=
  { page with slots := page.slots.set index content }

end TablePage

/-- The size of a record with these field bytes, as the sixteen-bit type holds it. -/
def recordSize (data : Bytes) : Nat := (RECORD_HEADER_SIZE + data.length) % 2 ^ 16

/-- The slot after `recordSize` bytes of the record were copied. -/
def slotOf (header : RecordHeader) (data : Bytes) : Slot :=
  if recordSize data = 0 then none
  else some { header, length := recordSize data, data := data.take (recordSize data - RECORD_HEADER_SIZE) }

section Operations

variable {V : Type} (qt : Variant V) (columns : List ColumnDef)

def serializeRecord (rowId : RowId) (values : List V) (txnId : TransactionId) :
    Option (RecordHeader × Bytes) :=
  if values.length ≠ columns.length then none
  else
    (serializeFields qt columns values).map fun data =>
      ({ rowId, createTxnId := txnId, deleteTxnId := INVALID_TXN_ID,
         columnCount := columns.length % 2 ^ 16 }, data)

def calculateRecordSize (values : List V) : Nat :=
  match serializeRecord qt columns 0 values INVALID_TXN_ID with
  | some (_, data) => recordSize data
  | none => 0

def getFreeSpace (page : TablePage) : Nat :=
  page.freeSpaceOffset - (PAGE_HEADER_SIZE + page.slots.length * SLOT_SIZE)

def hasEnoughSpace (page : TablePage) (size : Nat) : Bool :=
  decide (size + SLOT_SIZE ≤ getFreeSpace page)

/-- Append a record below the record area; `none` when the page refuses it. -/
def insertRecord (page : TablePage) (rowId : RowId) (values : List V) (txnId : TransactionId) :
    Option TablePage :=
  match serializeRecord qt columns rowId values txnId with
  | none => none
  | some (header, data) =>
      let size := recordSize data
      let requiredSpace := (size + SLOT_SIZE) % 2 ^ 16
      let slotsEnd := PAGE_HEADER_SIZE + (page.slots.length + 1) * SLOT_SIZE
      let recordOffset := (page.freeSpaceOffset + 2 ^ 16 - size) % 2 ^ 16
      if page.freeSpaceOffset > PAGE_SIZE then none
      else if page.slots.length > (PAGE_SIZE - PAGE_HEADER_SIZE) / SLOT_SIZE then none
      else if slotsEnd > PAGE_SIZE then none
      else if page.freeSpaceOffset < slotsEnd then none
      else if page.freeSpaceOffset - slotsEnd < requiredSpace then none
      else if recordOffset < slotsEnd ∨ recordOffset + size > PAGE_SIZE then none
      else some { slots := page.slots ++ [slotOf header data], freeSpaceOffset := recordOffset }

/-- The header and the row of a slot; `none` for what the scans skip: an empty slot,
a record shorter than its header, and one that does not decode. -/
def readSlot : Slot → Option (RecordHeader × List V)
  | none => none
  | some record =>
      if record.length < RECORD_HEADER_SIZE then none
      else (deserializeFields qt columns record.data).map (record.header, ·)

/-- The records of a page with their headers, deleted ones included. -/
def getAllRecords (page : TablePage) : List (RecordHeader × List V) :=
  page.slots.filterMap (readSlot qt columns)

/-- The rows of a page by `deserializeRecord`, which fails on a record that carries a
delete mark, whoever made it. -/
def getUndeletedRecords (page : TablePage) : List (List V) :=
  page.slots.filterMap fun content =>
    match readSlot qt columns content with
    | some (header, row) => if header.deleteTxnId ≠ INVALID_TXN_ID then none else some row
    | none => none

/-- Mark a record deleted; refused on an empty slot and on a record already marked. -/
def deleteRecord (page : TablePage) (index : Nat) (txnId : TransactionId) : Option TablePage :=
  match page.slot index with
  | none => none
  | some record =>
      if record.header.deleteTxnId ≠ INVALID_TXN_ID then none
      else some (page.setSlot index
        (some { record with header := { record.header with deleteTxnId := txnId } }))

/-- Whether the record of these values is no larger than the slot of an old record. -/
def fitsInPlace (record : Record) (newValues : List V) : Bool :=
  match serializeRecord qt columns record.header.rowId newValues record.header.createTxnId with
  | none => false
  | some (_, data) => decide (recordSize data ≤ record.length)

/-- Overwrite a record in place. The new record keeps the row id and the creating
transaction, and the slot's length becomes the new size; a larger record is refused. -/
def updateRecord (page : TablePage) (index : Nat) (newValues : List V) : Option TablePage :=
  match page.slot index with
  | none => none
  | some record =>
      if record.header.deleteTxnId ≠ INVALID_TXN_ID then none
      else
        match serializeRecord qt columns record.header.rowId newValues record.header.createTxnId with
        | none => none
        | some (header, data) =>
            if record.length < recordSize data then none
            else some (page.setSlot index (slotOf header data))

/-- Clear the delete mark of a record, as undoing a DELETE does through
`getRecordHeader`. -/
def restoreRecord (page : TablePage) (index : Nat) : Option TablePage :=
  match page.slot index with
  | none => none
  | some record =>
      some (page.setSlot index
        (some { record with header := { record.header with deleteTxnId := INVALID_TXN_ID } }))

end Operations

/-! ## Slots under the operations -/

namespace TablePage

@[simp] theorem slots_setSlot (page : TablePage) (index : Nat) (content : Slot) :
    (page.setSlot index content).slots = page.slots.set index content := rfl

theorem slot_lt {page : TablePage} {index : Nat} {record : Record}
    (found : page.slot index = some record) : index < page.slots.length := by
  by_contra beyond
  rw [slot, List.getElem?_eq_none (Nat.le_of_not_lt beyond)] at found
  cases found

theorem slot_setSlot (page : TablePage) (index other : Nat) (content : Slot) :
    (page.setSlot index content).slot other =
      if other = index ∧ index < page.slots.length then content else page.slot other := by
  rw [slot, slots_setSlot, List.getElem?_set]
  by_cases same : other = index
  · subst same
    by_cases inside : other < page.slots.length
    · rw [if_pos rfl, if_pos inside, if_pos ⟨rfl, inside⟩]
      rfl
    · rw [if_pos rfl, if_neg inside, if_neg (fun both => inside both.2), slot,
        List.getElem?_eq_none (Nat.le_of_not_lt inside)]
  · rw [if_neg (fun eq => same eq.symm), if_neg (fun both => same both.1), slot]

theorem slot_eq_none_of_length_le {page : TablePage} {index : Nat}
    (beyond : page.slots.length ≤ index) : page.slot index = none := by
  rw [slot, List.getElem?_eq_none beyond]
  rfl

end TablePage

section Specs

variable {V : Type} {qt : Variant V} {columns : List ColumnDef} {page page' : TablePage}
  {index : Nat} {rowId : RowId} {values : List V} {txnId : TransactionId}

theorem serializeRecord_some {header : RecordHeader} {data : Bytes}
    (done : serializeRecord qt columns rowId values txnId = some (header, data)) :
    header.rowId = rowId ∧ header.createTxnId = txnId ∧ header.deleteTxnId = INVALID_TXN_ID ∧
      values.length = columns.length ∧ serializeFields qt columns values = some data := by
  rw [serializeRecord] at done
  split at done
  · cases done
  · rename_i count
    obtain ⟨fields, encoded, same⟩ := Option.map_eq_some_iff.mp done
    cases same
    exact ⟨rfl, rfl, rfl, not_not.mp count, encoded⟩

/-- The field bytes do not depend on the row id and the transaction. -/
theorem serializeRecord_congr {header : RecordHeader} {data : Bytes}
    (done : serializeRecord qt columns rowId values txnId = some (header, data))
    (rowId' : RowId) (txnId' : TransactionId) :
    serializeRecord qt columns rowId' values txnId' =
      some ({ header with rowId := rowId', createTxnId := txnId' }, data) := by
  obtain ⟨-, -, unmarked, count, encoded⟩ := serializeRecord_some done
  rw [serializeRecord, if_neg (not_not.mpr count), encoded] at done ⊢
  cases done
  rfl

theorem calculateRecordSize_of_serialize {header : RecordHeader} {data : Bytes}
    (done : serializeRecord qt columns rowId values txnId = some (header, data)) :
    calculateRecordSize qt columns values = recordSize data := by
  rw [calculateRecordSize, serializeRecord_congr done]

theorem insertRecord_some
    (done : insertRecord qt columns page rowId values txnId = some page') :
    ∃ header data, serializeRecord qt columns rowId values txnId = some (header, data) ∧
      page'.slots = page.slots ++ [slotOf header data] ∧ page'.freeSpaceOffset ≤ PAGE_SIZE := by
  rw [insertRecord] at done
  cases encoded : serializeRecord qt columns rowId values txnId with
  | none =>
    rw [encoded] at done
    cases done
  | some pair =>
    obtain ⟨header, data⟩ := pair
    rw [encoded] at done
    refine ⟨header, data, rfl, ?_⟩
    simp only at done
    -- every refusal returns nothing; the last branch appends the slot
    split_ifs at done with _ _ _ _ _ outside
    cases done
    refine ⟨rfl, ?_⟩
    show (page.freeSpaceOffset + 2 ^ 16 - recordSize data) % 2 ^ 16 ≤ PAGE_SIZE
    omega

theorem deleteRecord_some (done : deleteRecord page index txnId = some page') :
    ∃ record, page.slot index = some record ∧ record.header.deleteTxnId = INVALID_TXN_ID ∧
      page' = page.setSlot index
        (some { record with header := { record.header with deleteTxnId := txnId } }) := by
  rw [deleteRecord] at done
  split at done
  · cases done
  · rename_i record found
    split at done
    · cases done
    · rename_i unmarked
      cases done
      exact ⟨record, found, not_not.mp unmarked, rfl⟩

theorem deleteRecord_of_unmarked {record : Record} (found : page.slot index = some record)
    (unmarked : record.header.deleteTxnId = INVALID_TXN_ID) :
    deleteRecord page index txnId = some (page.setSlot index
      (some { record with header := { record.header with deleteTxnId := txnId } })) := by
  simp only [deleteRecord, found, unmarked, ne_eq, not_true_eq_false, if_false]

theorem updateRecord_some (done : updateRecord qt columns page index values = some page') :
    ∃ record header data, page.slot index = some record ∧
      record.header.deleteTxnId = INVALID_TXN_ID ∧
      serializeRecord qt columns record.header.rowId values record.header.createTxnId =
        some (header, data) ∧
      recordSize data ≤ record.length ∧ page' = page.setSlot index (slotOf header data) := by
  rw [updateRecord] at done
  split at done
  · cases done
  · rename_i record found
    split at done
    · cases done
    · rename_i unmarked
      split at done
      · cases done
      · rename_i header data encoded
        split at done
        · cases done
        · rename_i fits
          cases done
          exact ⟨record, header, data, found, not_not.mp unmarked, encoded, Nat.le_of_not_lt fits,
            rfl⟩

theorem updateRecord_of_fits {record : Record} {header : RecordHeader} {data : Bytes}
    (found : page.slot index = some record)
    (unmarked : record.header.deleteTxnId = INVALID_TXN_ID)
    (encoded : serializeRecord qt columns record.header.rowId values record.header.createTxnId =
      some (header, data))
    (fits : recordSize data ≤ record.length) :
    updateRecord qt columns page index values =
      some (page.setSlot index (slotOf header data)) := by
  simp only [updateRecord, found, unmarked, ne_eq, not_true_eq_false, if_false, encoded,
    if_neg (Nat.not_lt.mpr fits)]

theorem restoreRecord_some (done : restoreRecord page index = some page') :
    ∃ record, page.slot index = some record ∧ page' = page.setSlot index
      (some { record with header := { record.header with deleteTxnId := INVALID_TXN_ID } }) := by
  rw [restoreRecord] at done
  split at done
  · cases done
  · rename_i record found
    cases done
    exact ⟨record, found, rfl⟩

/-- A slot is read when its record is as long as a header and its fields decode. -/
theorem readSlot_eq_some {content : Slot} {header : RecordHeader} {row : List V} :
    readSlot qt columns content = some (header, row) ↔ ∃ record, content = some record ∧
      record.header = header ∧ RECORD_HEADER_SIZE ≤ record.length ∧
      deserializeFields qt columns record.data = some row := by
  constructor
  · intro read
    cases content with
    | none => cases read
    | some record =>
      rw [readSlot] at read
      split at read
      · cases read
      · rename_i long
        obtain ⟨fields, decoded, same⟩ := Option.map_eq_some_iff.mp read
        cases same
        exact ⟨record, rfl, rfl, Nat.le_of_not_lt long, decoded⟩
  · rintro ⟨record, rfl, rfl, long, decoded⟩
    rw [readSlot, if_neg (Nat.not_lt.mpr long), decoded]
    rfl

/-- The values of a row survive being written and read: nothing is cut off by a column's
type, and the record's size is not reduced modulo `2 ^ 16`. -/
def ReadsBack (qt : Variant V) (columns : List ColumnDef) (row : List V) : Prop :=
  ∃ data, row.length = columns.length ∧ serializeFields qt columns row = some data ∧
    RECORD_HEADER_SIZE + data.length < 2 ^ 16 ∧ deserializeFields qt columns data = some row

/-- A record of less than `2 ^ 16` bytes has its full size and is read from its slot. -/
theorem readSlot_slotOf {header : RecordHeader} {data : Bytes} {row : List V}
    (small : RECORD_HEADER_SIZE + data.length < 2 ^ 16)
    (read : deserializeFields qt columns data = some row) :
    RECORD_HEADER_SIZE ≤ recordSize data ∧
      readSlot qt columns (slotOf header data) = some (header, row) := by
  have size : recordSize data = RECORD_HEADER_SIZE + data.length := Nat.mod_eq_of_lt small
  have headerSize : RECORD_HEADER_SIZE = 26 := rfl
  refine ⟨by omega, ?_⟩
  rw [slotOf, if_neg (by omega)]
  refine readSlot_eq_some.mpr ⟨_, rfl, rfl, by show _ ≤ recordSize data; omega, ?_⟩
  show deserializeFields qt columns (data.take (recordSize data - RECORD_HEADER_SIZE)) = some row
  rw [size, Nat.add_sub_cancel_left, List.take_length]
  exact read

/-- The record of such a row has its full size and is read back from its slot. -/
theorem ReadsBack.serializeRecord {row : List V} (back : ReadsBack qt columns row)
    (rowId : RowId) (txnId : TransactionId) :
    ∃ header data, Storage.serializeRecord qt columns rowId row txnId = some (header, data) ∧
      header.createTxnId = txnId ∧ header.deleteTxnId = INVALID_TXN_ID ∧
      calculateRecordSize qt columns row = recordSize data ∧
      RECORD_HEADER_SIZE ≤ recordSize data ∧
      readSlot qt columns (slotOf header data) = some (header, row) := by
  obtain ⟨data, count, encoded, small, read⟩ := back
  have done : Storage.serializeRecord qt columns rowId row txnId =
      some ({ rowId, createTxnId := txnId, deleteTxnId := INVALID_TXN_ID,
              columnCount := columns.length % 2 ^ 16 }, data) := by
    rw [Storage.serializeRecord, if_neg (not_not.mpr count), encoded]
    rfl
  obtain ⟨size, shown⟩ := readSlot_slotOf small read
  exact ⟨_, data, done, rfl, rfl, calculateRecordSize_of_serialize done, size, shown⟩

end Specs

end QinDB.Storage
