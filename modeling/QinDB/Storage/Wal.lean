/-
# Storage.Wal — the write-ahead log file

A log record is a packed header of 28 bytes followed by its payload (`wal.h`,
`wal.cpp`). The writer gives each record the next sequence number, stores the
length of the payload in a sixteen-bit field, and appends header and payload to the
file. Recovery reads records from the start of the file until one is cut short or
fails its checksum, and then appends behind whatever the file holds.

* `readRecord_eq_some`: what a successful read says about the bytes.
* `scan_intact`: intact records are read back, whatever follows them in the file.
* `intact_of_mem_scan`: nothing else is ever read back.
* `lsn_stamped`: sequence numbers grow as long as none of them is zero.
-/
import QinDB.Base.LittleEndian
import QinDB.Base.Reader
import QinDB.Core.Types

namespace QinDB.Storage

open QinDB.Core QinDB.Base

set_option autoImplicit false

/-! ## Records -/

inductive WALRecordType where
  | INVALID | INSERT | UPDATE | DELETE | BEGIN_TXN | COMMIT_TXN | ABORT_TXN | CHECKPOINT
  deriving DecidableEq, Repr

/-- The byte of the enumeration. A file may hold other bytes in its place. -/
def WALRecordType.toByte : WALRecordType → UInt8
  | .INVALID => 0
  | .INSERT => 1
  | .UPDATE => 2
  | .DELETE => 3
  | .BEGIN_TXN => 4
  | .COMMIT_TXN => 5
  | .ABORT_TXN => 6
  | .CHECKPOINT => 7

structure WALRecordHeader where
  type : UInt8 := 0
  reserved1 : UInt8 := 0
  dataSize : UInt16 := 0
  txnId : UInt64 := 0
  lsn : UInt64 := 0
  checksum : UInt32 := 0
  reserved2 : UInt32 := 0
  deriving DecidableEq, Repr

def WAL_HEADER_SIZE : Nat := 28

namespace WALRecordHeader

/-- The packed header in memory order. -/
def toBytes (header : WALRecordHeader) : Bytes :=
  [header.type, header.reserved1] ++ LittleEndian.encode 2 header.dataSize.toNat ++
    LittleEndian.encode 8 header.txnId.toNat ++ LittleEndian.encode 8 header.lsn.toNat ++
    LittleEndian.encode 4 header.checksum.toNat ++ LittleEndian.encode 4 header.reserved2.toNat

def ofBytes (bytes : Bytes) : WALRecordHeader where
  type := bytes.getD 0 0
  reserved1 := bytes.getD 1 0
  dataSize := .ofNat (LittleEndian.decode ((bytes.drop 2).take 2))
  txnId := .ofNat (LittleEndian.decode ((bytes.drop 4).take 8))
  lsn := .ofNat (LittleEndian.decode ((bytes.drop 12).take 8))
  checksum := .ofNat (LittleEndian.decode ((bytes.drop 20).take 4))
  reserved2 := .ofNat (LittleEndian.decode ((bytes.drop 24).take 4))

@[simp] theorem length_toBytes (header : WALRecordHeader) :
    header.toBytes.length = WAL_HEADER_SIZE := by
  simp only [toBytes, List.length_append, List.length_cons, List.length_nil,
    LittleEndian.length_encode, WAL_HEADER_SIZE]

theorem ofBytes_toBytes (header : WALRecordHeader) : ofBytes header.toBytes = header := by
  have dataSize := LittleEndian.decode_encode_of_lt 2 header.dataSize.toNat_lt
  have txnId := LittleEndian.decode_encode_of_lt 8 header.txnId.toNat_lt
  have lsn := LittleEndian.decode_encode_of_lt 8 header.lsn.toNat_lt
  have checksum := LittleEndian.decode_encode_of_lt 4 header.checksum.toNat_lt
  have reserved2 := LittleEndian.decode_encode_of_lt 4 header.reserved2.toNat_lt
  cases header
  simp only at dataSize txnId lsn checksum reserved2
  -- Each field lies where the widths of the earlier ones put it.
  change WALRecordHeader.mk _ _ (.ofNat (LittleEndian.decode (LittleEndian.encode 2 _)))
    (.ofNat (LittleEndian.decode (LittleEndian.encode 8 _)))
    (.ofNat (LittleEndian.decode (LittleEndian.encode 8 _)))
    (.ofNat (LittleEndian.decode (LittleEndian.encode 4 _)))
    (.ofNat (LittleEndian.decode (LittleEndian.encode 4 _))) = _
  rw [dataSize, txnId, lsn, checksum, reserved2, UInt16.ofNat_toNat, UInt64.ofNat_toNat,
    UInt64.ofNat_toNat, UInt32.ofNat_toNat, UInt32.ofNat_toNat]
  rfl

end WALRecordHeader

structure WALRecord where
  header : WALRecordHeader
  data : Bytes
  deriving DecidableEq, Repr

namespace WALRecord

/-- `checksum * 33 + byte` in 32 bits, over the type, the transaction, the sequence number and
the payload; neither the length field nor the reserved bytes are covered. -/
def calculateChecksum (record : WALRecord) : UInt32 :=
  ([record.header.type] ++ LittleEndian.encode 8 record.header.txnId.toNat ++
      LittleEndian.encode 8 record.header.lsn.toNat ++ record.data).foldl
    (fun checksum byte => (checksum <<< 5) + checksum + byte.toUInt32) 0

def verifyChecksum (record : WALRecord) : Bool :=
  record.header.checksum == record.calculateChecksum

/-- The record that a constructor call with this type, transaction and payload makes. -/
def new (type : WALRecordType) (txnId : UInt64) (data : Bytes := []) : WALRecord :=
  let record : WALRecord :=
    { header := { type := type.toByte, txnId, dataSize := .ofNat data.length }, data }
  { record with header.checksum := record.calculateChecksum }

def toBytes (record : WALRecord) : Bytes := record.header.toBytes ++ record.data

/-- A record as recovery accepts it: the length field and the checksum fit its payload. -/
def Intact (record : WALRecord) : Prop :=
  record.header.dataSize.toNat = record.data.length ∧ record.verifyChecksum

instance (record : WALRecord) : Decidable record.Intact :=
  inferInstanceAs (Decidable (_ ∧ _))

/-- What recovery takes from a record: type, transaction, sequence number and payload. -/
def entry (record : WALRecord) : UInt8 × UInt64 × UInt64 × Bytes :=
  (record.header.type, record.header.txnId, record.header.lsn, record.data)

end WALRecord

/-! ## Reading a log file -/

/-- One round of the recovery loop: the header, the payload its length field announces, and
the checksum. `none` ends the loop. -/
def readRecord (input : Bytes) : Option (WALRecord × Bytes) :=
  if input.length < WAL_HEADER_SIZE then none
  else
    let header := WALRecordHeader.ofBytes (input.take WAL_HEADER_SIZE)
    let body := input.drop WAL_HEADER_SIZE
    if body.length < header.dataSize.toNat then none
    else
      let record : WALRecord := { header, data := body.take header.dataSize.toNat }
      if record.verifyChecksum then some (record, body.drop header.dataSize.toNat) else none

theorem readRecord_eq_some {input rest : Bytes} {record : WALRecord} :
    readRecord input = some (record, rest) ↔
      ∃ image : Bytes, image.length = WAL_HEADER_SIZE ∧ input = image ++ record.data ++ rest ∧
        record.header = .ofBytes image ∧ record.Intact := by
  constructor
  · intro taken
    simp only [readRecord] at taken
    split at taken
    · cases taken
    · rename_i long
      split at taken
      · cases taken
      · rename_i complete
        split at taken
        · rename_i verified
          cases taken
          refine ⟨input.take WAL_HEADER_SIZE, ?_, ?_, rfl, ?_, verified⟩
          · rw [List.length_take]
            omega
          · rw [List.append_assoc, List.take_append_drop, List.take_append_drop]
          · simp only [List.length_take]
            omega
        · cases taken
  · rintro ⟨image, width, rfl, header, size, verified⟩
    have bound : ¬ (image ++ record.data ++ rest).length < WAL_HEADER_SIZE := by
      rw [List.length_append, List.length_append]
      omega
    have front : (image ++ record.data ++ rest).take WAL_HEADER_SIZE = image := by
      rw [List.append_assoc, ← width, List.take_left]
    have body : (image ++ record.data ++ rest).drop WAL_HEADER_SIZE = record.data ++ rest := by
      rw [List.append_assoc, ← width, List.drop_left]
    have complete : ¬ (record.data ++ rest).length < record.data.length := by
      rw [List.length_append]
      omega
    rw [readRecord]
    simp only [if_neg bound, front, body, ← header, size, if_neg complete, List.take_left,
      List.drop_left, verified, if_true]

/-- The scan of recovery, as a reader of records. -/
def walReader : Reader UInt8 WALRecord where
  read := readRecord
  takes := by
    intro input record rest taken
    obtain ⟨image, width, rfl, _⟩ := readRecord_eq_some.mp taken
    refine ⟨image ++ record.data, fun empty => ?_, rfl⟩
    have := congrArg List.length empty
    simp only [List.length_append, width, WAL_HEADER_SIZE, List.length_nil] at this
    omega

@[simp] theorem scan_nil : walReader.scan [] = [] := walReader.scan_of_none rfl

/-- One round of the loop of `initialize`: a header, and a seek over its payload. -/
def readHeader (input : Bytes) : Option (WALRecordHeader × Bytes) :=
  if input.length < WAL_HEADER_SIZE then none
  else
    let header := WALRecordHeader.ofBytes (input.take WAL_HEADER_SIZE)
    some (header, (input.drop WAL_HEADER_SIZE).drop header.dataSize.toNat)

def walHeaderReader : Reader UInt8 WALRecordHeader where
  read := readHeader
  takes := by
    intro input header rest taken
    simp only [readHeader] at taken
    split at taken
    · cases taken
    · rename_i long
      cases taken
      rw [List.drop_drop]
      refine ⟨input.take (WAL_HEADER_SIZE + _), fun empty => ?_, (List.take_append_drop _ _).symm⟩
      have := congrArg List.length empty
      rw [List.length_take, List.length_nil] at this
      simp only [WAL_HEADER_SIZE] at this long
      omega

/-- The greatest sequence number of some headers, zero without any. -/
def maxLSN (lsns : List UInt64) : UInt64 :=
  lsns.foldl (fun greatest lsn => if lsn > greatest then lsn else greatest) 0

/-! ## The log manager in file mode -/

structure WALManager where
  file : Bytes
  isOpen : Bool
  currentLSN : UInt64
  deriving DecidableEq, Repr

namespace WALManager

/-- Start on an existing file; the checksums are not looked at. -/
def initializeFile (file : Bytes) : WALManager where
  file := file
  isOpen := true
  currentLSN := maxLSN ((walHeaderReader.scan file).map (·.lsn))

/-- The record as it is stored: with its sequence number, its length modulo `2 ^ 16` and
the checksum of both. -/
def stamp (lsn : UInt64) (record : WALRecord) : WALRecord :=
  let stamped : WALRecord :=
    { record with header := { record.header with lsn, dataSize := .ofNat record.data.length } }
  { stamped with header.checksum := stamped.calculateChecksum }

/-- Append a record and answer its sequence number, zero for a failure. -/
def writeRecordToFile (manager : WALManager) (record : WALRecord) : UInt64 × WALManager :=
  if manager.isOpen then
    let lsn := manager.currentLSN + 1
    (lsn, { manager with
      file := manager.file ++ (stamp lsn record).toBytes
      currentLSN := lsn })
  else (0, manager)

def writeRecords (manager : WALManager) : List WALRecord → List UInt64 × WALManager
  | [] => ([], manager)
  | record :: records =>
      let first := manager.writeRecordToFile record
      let later := first.2.writeRecords records
      (first.1 :: later.1, later.2)

/-- The scan phase of recovery. -/
def scannedRecords (manager : WALManager) : List WALRecord := walReader.scan manager.file

/-- The log after recovery: the counter restarts at the last record read, and the file is
opened for appending as it is. -/
def recoverFromFile (manager : WALManager) : WALManager where
  file := manager.file
  isOpen := true
  currentLSN := maxLSN (manager.scannedRecords.map (·.header.lsn))

end WALManager

/-! ## Reading back what was written -/

theorem readRecord_toBytes {record : WALRecord} (intact : record.Intact) (rest : Bytes) :
    readRecord (record.toBytes ++ rest) = some (record, rest) :=
  readRecord_eq_some.mpr ⟨record.header.toBytes, record.header.length_toBytes, rfl,
    record.header.ofBytes_toBytes.symm, intact⟩

theorem scan_intact {records : List WALRecord} (intact : ∀ record ∈ records, record.Intact)
    (rest : Bytes) :
    walReader.scan (records.flatMap WALRecord.toBytes ++ rest) = records ++ walReader.scan rest :=
  walReader.scan_written WALRecord.toBytes
    (fun record member rest => readRecord_toBytes (intact record member) rest) rest

theorem intact_of_mem_scan {file : Bytes} {record : WALRecord}
    (member : record ∈ walReader.scan file) : record.Intact := by
  obtain ⟨place, rest, _, taken⟩ := walReader.exists_read_of_mem_scan file member
  obtain ⟨_, _, _, _, intact⟩ := readRecord_eq_some.mp taken
  exact intact

theorem WALRecord.Intact.length_lt {record : WALRecord} (intact : record.Intact) :
    record.data.length < 2 ^ 16 := by
  rw [← intact.1]
  exact record.header.dataSize.toNat_lt

namespace WALManager

@[simp] theorem lsn_stamp (lsn : UInt64) (record : WALRecord) :
    (stamp lsn record).header.lsn = lsn := rfl

@[simp] theorem entry_stamp (lsn : UInt64) (record : WALRecord) :
    (stamp lsn record).entry = (record.header.type, record.header.txnId, lsn, record.data) := rfl

/-- The checksum does not cover itself. -/
theorem calculateChecksum_stamp (lsn : UInt64) (record : WALRecord) :
    (stamp lsn record).calculateChecksum = (stamp lsn record).header.checksum := by
  simp only [stamp, WALRecord.calculateChecksum]

theorem intact_stamp (lsn : UInt64) {record : WALRecord} (short : record.data.length < 2 ^ 16) :
    (stamp lsn record).Intact := by
  refine ⟨?_, ?_⟩
  · change (UInt16.ofNat record.data.length).toNat = record.data.length
    rw [UInt16.toNat_ofNat', Nat.mod_eq_of_lt short]
  · rw [WALRecord.verifyChecksum, calculateChecksum_stamp, beq_self_eq_true]

/-- The records as a sequence of writes after `currentLSN` stores them. -/
def stamped : UInt64 → List WALRecord → List WALRecord
  | _, [] => []
  | currentLSN, record :: records =>
      stamp (currentLSN + 1) record :: stamped (currentLSN + 1) records

theorem writeRecordToFile_open (file : Bytes) (currentLSN : UInt64) (record : WALRecord) :
    writeRecordToFile ⟨file, true, currentLSN⟩ record =
      (currentLSN + 1,
        ⟨file ++ (stamp (currentLSN + 1) record).toBytes, true, currentLSN + 1⟩) := rfl

theorem writeRecords_open (records : List WALRecord) :
    ∀ (file : Bytes) (currentLSN : UInt64),
      (writeRecords ⟨file, true, currentLSN⟩ records).1 =
          (stamped currentLSN records).map (·.header.lsn) ∧
        (writeRecords ⟨file, true, currentLSN⟩ records).2.file =
          file ++ (stamped currentLSN records).flatMap WALRecord.toBytes := by
  induction records with
  | nil =>
    intro file currentLSN
    exact ⟨rfl, (List.append_nil file).symm⟩
  | cons record records ih =>
    intro file currentLSN
    obtain ⟨lsns, bytes⟩ := ih (file ++ (stamp (currentLSN + 1) record).toBytes) (currentLSN + 1)
    refine ⟨?_, ?_⟩
    · simp only [writeRecords, writeRecordToFile_open, lsns, stamped, List.map_cons, lsn_stamp]
    · simp only [writeRecords, writeRecordToFile_open, bytes, stamped, List.flatMap_cons,
        List.append_assoc]

theorem intact_stamped : ∀ {records : List WALRecord} (currentLSN : UInt64),
    (∀ record ∈ records, record.data.length < 2 ^ 16) →
      ∀ record ∈ stamped currentLSN records, record.Intact
  | [], _, _, _, member => by cases member
  | first :: records, currentLSN, short, record, member => by
      rcases List.mem_cons.mp member with rfl | later
      · exact intact_stamp _ (short first List.mem_cons_self)
      · exact intact_stamped (currentLSN + 1)
          (fun other inside => short other (List.mem_cons_of_mem _ inside)) record later

/-- While no sequence number is zero, they grow. -/
theorem lsn_stamped : ∀ (records : List WALRecord) (currentLSN : UInt64),
    (∀ record ∈ stamped currentLSN records, record.header.lsn ≠ 0) →
      (∀ record ∈ stamped currentLSN records, currentLSN < record.header.lsn) ∧
        ((stamped currentLSN records).map (·.header.lsn)).Pairwise (· < ·)
  | [], _, _ => ⟨List.forall_mem_nil _, List.Pairwise.nil⟩
  | first :: records, currentLSN, nonzero => by
      have grows : currentLSN < currentLSN + 1 := by
        have fresh : currentLSN + 1 ≠ 0 := nonzero _ List.mem_cons_self
        have wide := currentLSN.toNat_lt
        rw [UInt64.lt_iff_toNat_lt]
        rw [Ne, ← UInt64.toNat_inj] at fresh
        rw [UInt64.toNat_add] at fresh ⊢
        simp only [UInt64.toNat_one, UInt64.toNat_zero] at fresh ⊢
        omega
      obtain ⟨above, increasing⟩ := lsn_stamped records (currentLSN + 1)
        fun record member => nonzero record (List.mem_cons_of_mem _ member)
      refine ⟨fun record member => ?_, ?_⟩
      · rcases List.mem_cons.mp member with rfl | later
        · exact grows
        · exact UInt64.lt_trans grows (above record later)
      · refine List.Pairwise.cons (fun lsn member => ?_) increasing
        obtain ⟨record, inside, rfl⟩ := List.mem_map.mp member
        exact above record inside

end WALManager

theorem le_maxLSN {lsns : List UInt64} {lsn : UInt64} (member : lsn ∈ lsns) :
    lsn ≤ maxLSN lsns := by
  have fold : ∀ (lsns : List UInt64) (start : UInt64),
      start ≤ lsns.foldl (fun greatest lsn => if lsn > greatest then lsn else greatest) start ∧
        ∀ lsn ∈ lsns, lsn ≤
          lsns.foldl (fun greatest lsn => if lsn > greatest then lsn else greatest) start := by
    intro lsns
    induction lsns with
    | nil => exact fun start => ⟨UInt64.le_refl start, List.forall_mem_nil _⟩
    | cons first rest ih =>
      intro start
      obtain ⟨above, all⟩ := ih (if first > start then first else start)
      have both : start ≤ (if first > start then first else start) ∧
          first ≤ (if first > start then first else start) := by
        split
        · rename_i greater
          exact ⟨UInt64.le_of_lt greater, UInt64.le_refl first⟩
        · rename_i smaller
          exact ⟨UInt64.le_refl start, UInt64.not_lt.mp smaller⟩
      refine ⟨UInt64.le_trans both.1 above, fun lsn member => ?_⟩
      rcases List.mem_cons.mp member with rfl | later
      · exact UInt64.le_trans both.2 above
      · exact all lsn later
  exact (fold lsns 0).2 lsn member

end QinDB.Storage
