/-
# Storage.RecordBytes — records as bytes of a page

`insertRecord` and `getAllRecords` on the bytes of a page: the record header in 26 bytes, the
fields behind it, the 16-bit size that is written into the slot and that many bytes copied below
the records already there (`table_page.cpp`). The operations of `Storage.TablePage` on slots are
what these do to what the slots show.
-/
import QinDB.Storage.Cells
import QinDB.Storage.RawPage

namespace QinDB.Storage

open QinDB.Core QinDB.Base

set_option autoImplicit false

/-! ## Record headers -/

def writeRecordHeader (header : RecordHeader) : Bytes :=
  LittleEndian.encode 8 header.rowId ++ (LittleEndian.encode 8 header.createTxnId ++
    (LittleEndian.encode 8 header.deleteTxnId ++ LittleEndian.encode 2 header.columnCount))

def readRecordHeader (record : Bytes) : RecordHeader where
  rowId := LittleEndian.decode (record.take 8)
  createTxnId := LittleEndian.decode ((record.drop 8).take 8)
  deleteTxnId := LittleEndian.decode ((record.drop 16).take 8)
  columnCount := LittleEndian.decode ((record.drop 24).take 2)

theorem length_writeRecordHeader (header : RecordHeader) :
    (writeRecordHeader header).length = RECORD_HEADER_SIZE := by
  simp only [writeRecordHeader, List.length_append, LittleEndian.length_encode, RECORD_HEADER_SIZE]

/-! ## Pages -/

namespace RawPage

section Records

variable {V : Type} (qt : Variant V) (columns : List ColumnDef)

/-- The record is placed as a tuple is; it is never empty. -/
def insertRecord (page : RawPage) (rowId : RowId) (values : List V) (txnId : TransactionId) :
    Option RawPage :=
  match serializeRecord qt columns rowId values txnId with
  | none => none
  | some (header, data) => page.insertTuple (writeRecordHeader header ++ data)

/-- The record of a slot. Skipped are empty slots, slots that reach beyond the page, records
shorter than a header and records that do not decode. -/
def readRecord (page : RawPage) (slot : Nat × Nat) : Option (RecordHeader × List V) :=
  if slot.2 = 0 then none
  else if PAGE_SIZE ≤ slot.1 then none
  else if PAGE_SIZE < slot.1 + slot.2 then none
  else if slot.2 < RECORD_HEADER_SIZE then none
  else
    let record := Memory.read page.bytes slot.1 slot.2
    (deserializeFields qt columns (record.drop RECORD_HEADER_SIZE)).map (readRecordHeader record, ·)

def getAllRecords (page : RawPage) : List (RecordHeader × List V) :=
  page.slots.filterMap (page.readRecord qt columns)

end Records

namespace Literals

/-- Conversions that are never asked. -/
def conv : Conversions where
  toBool := fun _ => false
  toInt := fun _ => 0
  toLongLong := fun _ => 0
  toText := fun _ => ⟨[], by decide⟩
  toByteArray := fun _ => ⟨[], by decide⟩
  write := fun _ _ => []
  read := fun _ _ => none

def blank : RawPage := formatted ⟨true, [], 0, fun _ => 0⟩

def columns : List ColumnDef :=
  [{ name := "id".toList, type := .INT }, { name := "code".toList, type := .CHAR, length := 3 }]

/-- The text `ab`. -/
def code : Cell := .text ⟨[0x61, 0x62], by decide⟩

end Literals

end RawPage

end QinDB.Storage
