/-
# Storage.WalFile — what recovery reads back from the log file

Results about the log as a whole.

* `writeRecords_readBack_iff`: a sequence of writes is read back, in order and with
  growing sequence numbers, exactly when every payload is shorter than `2 ^ 16` bytes.
* `recovered_log_readBack_iff`: after a recovery, what is written later is read back by
  the next one exactly when the file had no damaged tail; recovery leaves the tail in
  place, and the next scan stops there.
* `recovered_up_to_torn`: a log that ends inside a record is recovered up to that record.
-/
import QinDB.Storage.Wal

namespace QinDB.Storage

open QinDB.Core

set_option autoImplicit false

namespace WALManager

/-- The manager of a new log file, at any value of the counter. -/
def empty (currentLSN : UInt64) : WALManager := ⟨[], true, currentLSN⟩

/-- What a caller knows of its writes: what it passed and the sequence numbers it got. -/
def entries (records : List WALRecord) (lsns : List UInt64) :
    List (UInt8 × UInt64 × UInt64 × Bytes) :=
  List.zipWith (fun record lsn => (record.header.type, record.header.txnId, lsn, record.data))
    records lsns

theorem entries_stamped : ∀ (records : List WALRecord) (currentLSN : UInt64),
    entries records ((stamped currentLSN records).map (·.header.lsn)) =
      (stamped currentLSN records).map WALRecord.entry
  | [], _ => rfl
  | record :: records, currentLSN => by
      have later := entries_stamped records (currentLSN + 1)
      simp only [entries] at later
      simp only [entries, stamped, List.map_cons, List.zipWith_cons_cons, lsn_stamp, entry_stamp,
        later]

theorem data_stamped : ∀ (records : List WALRecord) (currentLSN : UInt64),
    (stamped currentLSN records).map (·.data) = records.map (·.data)
  | [], _ => rfl
  | record :: records, currentLSN => by
      rw [stamped, List.map_cons, List.map_cons, data_stamped records (currentLSN + 1)]
      rfl

/-- Only payloads whose length fits the length field come back from a scan. -/
theorem short_of_entries_mem {file : Bytes} {records : List WALRecord} (currentLSN : UInt64)
    (back : ∀ written ∈ (stamped currentLSN records).map WALRecord.entry,
      written ∈ (walReader.scan file).map WALRecord.entry) :
    ∀ record ∈ records, record.data.length < 2 ^ 16 := by
  intro record member
  have payload : record.data ∈ (stamped currentLSN records).map (·.data) := by
    rw [data_stamped]
    exact List.mem_map_of_mem member
  obtain ⟨stored, inside, same⟩ := List.mem_map.mp payload
  obtain ⟨read, scanned, equal⟩ := List.mem_map.mp (back _ (List.mem_map_of_mem inside))
  have data : read.data = record.data := by
    rw [← same]
    exact congrArg (fun entry => entry.2.2.2) equal
  rw [← data]
  exact (intact_of_mem_scan scanned).length_lt

end WALManager

open WALManager

/-- Success of a list of writes, by running down the list. -/
theorem nonzero_of_all {lsns : List UInt64} (all : lsns.all (· != 0)) : ∀ lsn ∈ lsns, lsn ≠ 0 :=
  fun lsn member => bne_iff_ne.mp (List.all_eq_true.mp all lsn member)

/-- For writes that all report success: the scan gives back the same types, transactions,
sequence numbers and payloads, with growing sequence numbers, if and only if every payload
fits the length field. -/
theorem writeRecords_readBack_iff (currentLSN : UInt64) (records : List WALRecord)
    (accepted : ∀ lsn ∈ ((empty currentLSN).writeRecords records).1, lsn ≠ 0) :
    (((empty currentLSN).writeRecords records).2.scannedRecords.map WALRecord.entry =
          entries records ((empty currentLSN).writeRecords records).1 ∧
        ((empty currentLSN).writeRecords records).1.Pairwise (· < ·)) ↔
      ∀ record ∈ records, record.data.length < 2 ^ 16 := by
  obtain ⟨lsns, file⟩ := writeRecords_open records [] currentLSN
  rw [← empty] at lsns file
  rw [scannedRecords, lsns, file, List.nil_append, entries_stamped]
  constructor
  · rintro ⟨back, _⟩
    exact short_of_entries_mem currentLSN fun written member => back ▸ member
  · intro short
    have read := scan_intact (intact_stamped currentLSN short) []
    rw [List.append_nil, scan_nil, List.append_nil] at read
    refine ⟨by rw [read], (lsn_stamped records currentLSN fun record member => ?_).2⟩
    exact accepted _ (lsns ▸ List.mem_map_of_mem member)

/-- Two short records come back with the numbers one and two. -/
theorem writeRecords_readBack_two :
    ((empty 0).writeRecords [.new .BEGIN_TXN 7, .new .INSERT 7 [1, 2, 3]]).2.scannedRecords.map
          WALRecord.entry = [(4, 7, 1, []), (1, 7, 2, [1, 2, 3])] :=
  ((writeRecords_readBack_iff 0 [.new .BEGIN_TXN 7, .new .INSERT 7 [1, 2, 3]]
    (nonzero_of_all (by decide))).mpr (by decide)).1

/-- A payload of `2 ^ 16` bytes is accepted, and lost. -/
theorem writeRecords_loses_long_payload :
    ((empty 0).writeRecords [.new .INSERT 1 (List.replicate (2 ^ 16) 0)]).1 = [1] ∧
      ((empty 0).writeRecords [.new .INSERT 1 (List.replicate (2 ^ 16) 0)]).2.scannedRecords.map
        WALRecord.entry ≠
          entries [.new .INSERT 1 (List.replicate (2 ^ 16) 0)] [1] := by
  obtain ⟨lsns, _⟩ := writeRecords_open [.new .INSERT 1 (List.replicate (2 ^ 16) 0)] [] 0
  refine ⟨lsns, fun back => ?_⟩
  have stored := entries_stamped [.new .INSERT 1 (List.replicate (2 ^ 16) 0)] 0
  have short := short_of_entries_mem 0
    (fun written member => back ▸ stored ▸ member) _ List.mem_cons_self
  simp only [WALRecord.new, List.length_replicate, lt_self_iff_false] at short

/-! ## Damaged tails -/

/-- A record that is complete only with the bytes behind a damaged tail reaches into them. -/
theorem readRecord_past_tail {tail more rest : Bytes} {record : WALRecord}
    (damaged : readRecord tail = none)
    (taken : readRecord (tail ++ more) = some (record, rest)) : rest.length < more.length := by
  obtain ⟨image, width, split, header, intact⟩ := readRecord_eq_some.mp taken
  by_contra beyond
  -- Otherwise the whole record lies in the tail, which has none.
  have lengths := congrArg List.length split
  simp only [List.length_append] at lengths
  obtain ⟨rest', rfl⟩ : ∃ rest', tail = image ++ record.data ++ rest' := by
    rcases List.append_eq_append_iff.mp split with ⟨excess, inside, after⟩ | ⟨rest', whole, _⟩
    · have := congrArg List.length after
      have empty : excess = [] := by
        rw [List.length_append] at this
        exact List.length_eq_zero_iff.mp (by omega)
      exact ⟨[], by rw [inside, empty]; simp⟩
    · exact ⟨rest', whole⟩
  have found := readRecord_eq_some.mpr
    (⟨image, width, rfl, header, intact⟩ : ∃ found : Bytes, found.length = WAL_HEADER_SIZE ∧
      image ++ record.data ++ rest' = found ++ record.data ++ rest' ∧
        record.header = .ofBytes found ∧ record.Intact)
  cases damaged.symm.trans found

/-- The type of a record that is read is the first byte of the stream. -/
theorem type_of_readRecord {first : UInt8} {input rest : Bytes} {record : WALRecord}
    (taken : readRecord (first :: input) = some (record, rest)) : record.header.type = first := by
  obtain ⟨image, width, split, header, _⟩ := readRecord_eq_some.mp taken
  cases image with
  | nil => cases width
  | cons byte bytes =>
    rw [header]
    exact (List.cons.inj split).1.symm

/-- A type other than the one a damaged tail shows. -/
def otherType (first : UInt8) : WALRecordType :=
  if first = WALRecordType.INSERT.toByte then .UPDATE else .INSERT

theorem otherType_ne (first : UInt8) : (otherType first).toByte ≠ first := by
  unfold otherType
  split
  · rename_i same
    rw [same]
    decide
  · rename_i other
    exact fun same => other same.symm

/-- A log file: intact records and what follows them. -/
def logFile (kept : List WALRecord) (tail : Bytes) : Bytes :=
  kept.flatMap WALRecord.toBytes ++ tail

/-- The log manager after a start on this file: `initialize`, then `recover`. -/
def restarted (file : Bytes) : WALManager := (initializeFile file).recoverFromFile

/-- Every one of these writes reports success. -/
def Accepted (manager : WALManager) (later : List WALRecord) : Prop :=
  ∀ lsn ∈ (manager.writeRecords later).1, lsn ≠ 0

/-- Every one of these writes is read by the scan of the next recovery. -/
def ReadBack (manager : WALManager) (later : List WALRecord) : Prop :=
  ∀ written ∈ entries later (manager.writeRecords later).1,
    written ∈ (initializeFile (manager.writeRecords later).2.file).scannedRecords.map
      WALRecord.entry

section DamagedTail

variable {kept : List WALRecord} {tail : Bytes}

theorem restarted_logFile (intact : ∀ record ∈ kept, record.Intact)
    (damaged : readRecord tail = none) :
    restarted (logFile kept tail) =
      ⟨logFile kept tail, true, maxLSN (kept.map (·.header.lsn))⟩ := by
  have scanned : walReader.scan (logFile kept tail) = kept := by
    rw [logFile, scan_intact intact, walReader.scan_of_none damaged, List.append_nil]
  change (⟨logFile kept tail, true, maxLSN ((walReader.scan (logFile kept tail)).map
    (·.header.lsn))⟩ : WALManager) = _
  rw [scanned]

/-- The sequence numbers of accepted writes exceed those of the intact records. -/
theorem lsn_fresh (intact : ∀ record ∈ kept, record.Intact) (damaged : readRecord tail = none)
    {later : List WALRecord} (accepted : Accepted (restarted (logFile kept tail)) later) :
    ∀ lsn ∈ ((restarted (logFile kept tail)).writeRecords later).1,
      ∀ record ∈ kept, record.header.lsn < lsn := by
  intro lsn member record inside
  rw [Accepted, restarted_logFile intact damaged, (writeRecords_open later _ _).1] at accepted
  rw [restarted_logFile intact damaged, (writeRecords_open later _ _).1] at member
  obtain ⟨stored, written, rfl⟩ := List.mem_map.mp member
  have above := (lsn_stamped later _ fun other here =>
    accepted _ (List.mem_map_of_mem here)).1 stored written
  exact UInt64.lt_of_le_of_lt (le_maxLSN (List.mem_map.mpr ⟨record, inside, rfl⟩)) above

theorem readBack_restarted (intact : ∀ record ∈ kept, record.Intact)
    (damaged : readRecord tail = none) (later : List WALRecord) :
    ReadBack (restarted (logFile kept tail)) later ↔
      ∀ written ∈ (stamped (maxLSN (kept.map (·.header.lsn))) later).map WALRecord.entry,
        written ∈ (kept ++ walReader.scan (tail ++
          (stamped (maxLSN (kept.map (·.header.lsn))) later).flatMap WALRecord.toBytes)).map
            WALRecord.entry := by
  obtain ⟨lsns, file⟩ := writeRecords_open later (logFile kept tail)
    (maxLSN (kept.map (·.header.lsn)))
  rw [ReadBack, restarted_logFile intact damaged, lsns, entries_stamped, scannedRecords,
    initializeFile, file, logFile, List.append_assoc, scan_intact intact]

/-- Whatever the tail is, one more record can be lost behind it. -/
theorem not_readBack_behind_tail (intact : ∀ record ∈ kept, record.Intact) {first : UInt8}
    {torn : Bytes} (damaged : readRecord (first :: torn) = none)
    (accepted : Accepted (restarted (logFile kept (first :: torn))) [.new (otherType first) 0]) :
    ¬ ReadBack (restarted (logFile kept (first :: torn))) [.new (otherType first) 0] := by
  intro back
  have fresh := lsn_fresh intact damaged accepted
  rw [restarted_logFile intact damaged, (writeRecords_open _ _ _).1] at fresh
  obtain ⟨read, scanned, equal⟩ := List.mem_map.mp
    ((readBack_restarted intact damaged _).mp back _ List.mem_cons_self)
  rcases List.mem_append.mp scanned with old | new
  · have number : read.header.lsn = maxLSN (kept.map (·.header.lsn)) + 1 :=
      congrArg (fun entry => entry.2.2.1) equal
    have below := fresh _ List.mem_cons_self read old
    rw [number] at below
    exact UInt64.lt_irrefl _ below
  · -- The scan reads at most one record here, and its type is the first byte of the tail.
    have type : read.header.type = (otherType first).toByte := congrArg (fun entry => entry.1) equal
    cases taken : readRecord ((first :: torn) ++ (stamped (maxLSN (kept.map (·.header.lsn)))
        [.new (otherType first) 0]).flatMap WALRecord.toBytes) with
    | none =>
      rw [walReader.scan_of_none taken] at new
      cases new
    | some result =>
      obtain ⟨record, rest⟩ := result
      have short := readRecord_past_tail damaged taken
      have width : ((stamped (maxLSN (kept.map (·.header.lsn)))
          [.new (otherType first) 0]).flatMap WALRecord.toBytes).length = WAL_HEADER_SIZE := by
        rfl
      have stop : readRecord rest = none := by
        rw [readRecord, if_pos (by omega)]
      rw [walReader.scan_of_some taken, walReader.scan_of_none stop, List.mem_singleton] at new
      rw [new, type_of_readRecord taken] at type
      exact otherType_ne first type.symm

end DamagedTail

/-- For every log file and what follows its intact records: later writes of payloads that fit
the length field are all read back by the next recovery, if and only if nothing follows (or the
counter is exhausted, and no later write succeeds). The numbers of later writes are new in any
case, and a longer payload never comes back. -/
theorem recovered_log_readBack_iff (kept : List WALRecord) (tail : Bytes)
    (intact : ∀ record ∈ kept, record.Intact) (damaged : readRecord tail = none) :
    ((∀ later, Accepted (restarted (logFile kept tail)) later →
          (∀ record ∈ later, record.data.length < 2 ^ 16) →
          ReadBack (restarted (logFile kept tail)) later) ↔
        tail = [] ∨ maxLSN (kept.map (·.header.lsn)) + 1 = 0) ∧
      ∀ later, Accepted (restarted (logFile kept tail)) later →
        (∀ lsn ∈ ((restarted (logFile kept tail)).writeRecords later).1,
            lsn ∉ kept.map (·.header.lsn)) ∧
          (ReadBack (restarted (logFile kept tail)) later →
            ∀ record ∈ later, record.data.length < 2 ^ 16) := by
  refine ⟨⟨fun survives => ?_, fun harmless later accepted short => ?_⟩, fun later accepted => ?_⟩
  · by_contra both
    obtain ⟨nonempty, room⟩ := not_or.mp both
    cases tail with
    | nil => exact nonempty rfl
    | cons first torn =>
      have accepted : Accepted (restarted (logFile kept (first :: torn)))
          [.new (otherType first) 0] := by
        rw [Accepted, restarted_logFile intact damaged, (writeRecords_open _ _ _).1]
        intro lsn member
        rw [List.mem_singleton.mp member]
        exact room
      exact not_readBack_behind_tail intact damaged accepted
        (survives _ accepted fun record member => by
          rw [List.mem_singleton.mp member]
          exact Nat.two_pow_pos 16)
  · rw [readBack_restarted intact damaged]
    rcases harmless with rfl | exhausted
    · intro written member
      have read := scan_intact (intact_stamped (maxLSN (kept.map (·.header.lsn))) short) []
      rw [List.append_nil, scan_nil, List.append_nil] at read
      rw [List.nil_append, read, List.map_append]
      exact List.mem_append_right _ member
    · -- The first write would get the number zero.
      cases later with
      | nil => exact List.forall_mem_nil _
      | cons record records =>
        rw [Accepted, restarted_logFile intact damaged, (writeRecords_open _ _ _).1] at accepted
        exact absurd exhausted (accepted _ List.mem_cons_self)
  · refine ⟨fun lsn member inside => ?_, fun back => ?_⟩
    · obtain ⟨record, old, rfl⟩ := List.mem_map.mp inside
      exact UInt64.lt_irrefl _ (lsn_fresh intact damaged accepted _ member record old)
    · rw [ReadBack, restarted_logFile intact damaged, (writeRecords_open later _ _).1,
        entries_stamped] at back
      exact short_of_entries_mem _ back

/-- A file of one record and nothing else: what is written later comes back. -/
theorem recovered_log_readBack_clean :
    ReadBack (restarted (logFile [stamp 1 (.new .BEGIN_TXN 1)] [])) [.new .COMMIT_TXN 1] :=
  (recovered_log_readBack_iff [stamp 1 (.new .BEGIN_TXN 1)] [] (by decide) (by decide)).1.mpr
    (.inl rfl) [.new .COMMIT_TXN 1]
    (by rw [Accepted, restarted_logFile (by decide) (by decide)]; exact nonzero_of_all (by decide))
    (by decide)

/-- One byte of a torn record behind an intact one: the next record is accepted and lost. -/
theorem recovered_log_loses_record :
    Accepted (restarted (logFile [stamp 1 (.new .BEGIN_TXN 1)] [5])) [.new .INSERT 0] ∧
      ¬ ReadBack (restarted (logFile [stamp 1 (.new .BEGIN_TXN 1)] [5])) [.new .INSERT 0] := by
  have intact : ∀ record ∈ [stamp 1 (.new .BEGIN_TXN 1)], record.Intact := by decide
  have damaged : readRecord [5] = none := by decide
  have accepted : Accepted (restarted (logFile [stamp 1 (.new .BEGIN_TXN 1)] [5]))
      [.new .INSERT 0] := by
    rw [Accepted, restarted_logFile intact damaged]
    exact nonzero_of_all (by decide)
  exact ⟨accepted, not_readBack_behind_tail intact damaged accepted⟩

/-! ## A log that ends inside a record -/

/-- A log whose last record was written only in part is recovered up to that record. -/
theorem recovered_up_to_torn {kept : List WALRecord} {record : WALRecord} {part missing : Bytes}
    (earlier : ∀ record ∈ kept, record.Intact) (intact : record.Intact)
    (cut : part ++ missing = record.toBytes) (incomplete : missing ≠ []) :
    (restarted (logFile kept part)).scannedRecords = kept ∧
      (restarted (logFile kept part)).currentLSN = maxLSN (kept.map (·.header.lsn)) := by
  have refused : readRecord part = none := by
    by_contra accepted
    obtain ⟨⟨value, rest⟩, taken⟩ := Option.ne_none_iff_exists'.mp accepted
    obtain ⟨image, width, rfl, header, complete⟩ := readRecord_eq_some.mp taken
    -- then the whole record is read with its missing end left over
    have whole := readRecord_toBytes intact []
    rw [List.append_nil, readRecord_eq_some.mpr ⟨image, width, by rw [← cut, List.append_assoc],
      header, complete⟩] at whole
    have left := congrArg Prod.snd (Option.some.inj whole)
    exact incomplete (List.append_eq_nil_iff.mp left).2
  rw [restarted_logFile earlier refused, scannedRecords, logFile, scan_intact earlier,
    walReader.scan_of_none refused, List.append_nil]
  exact ⟨rfl, rfl⟩

theorem recovered_up_to_torn_commit :
    (restarted (logFile [stamp 1 (.new .BEGIN_TXN 1)]
      ((stamp 2 (.new .COMMIT_TXN 1)).toBytes.take 9))).scannedRecords =
        [stamp 1 (.new .BEGIN_TXN 1)] :=
  (recovered_up_to_torn (by decide) (by decide)
    (List.take_append_drop 9 (stamp 2 (.new .COMMIT_TXN 1)).toBytes) (by decide)).1

end QinDB.Storage
