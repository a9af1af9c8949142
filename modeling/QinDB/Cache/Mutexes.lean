/-
# Cache.Mutexes — which calls return

`WALManager` and `TableCache` guard their fields with a mutex that is not recursive. A thread
that calls their public methods one after the other gets through all of them but two:
`WALManager::checkpoint` writes its record and `TableCache::setEnabled(false)` clears the cache
while they hold the mutex, and both callees lock it again. Recovery from a log file that was
never opened follows a null pointer.

What the file system and the backend answer is an argument of each call; what the records are
made of and where they go is in `Storage.Wal`.

* `wal_returns_iff`, `cache_returns_iff`: which calls return.
* `calls_return_iff`: which runs of calls do.
-/
import QinDB.Base.Locked
import QinDB.Cache.TableCache
import QinDB.Storage.Wal

namespace QinDB.Cache

open QinDB.Base QinDB.Base.Locked QinDB.Core QinDB.Storage QinDB.Executor

set_option autoImplicit false

/-! ## The log -/

/-- The fields of a `WALManager`; a file object is open or not. -/
structure WalObject where
  useDatabase : Bool
  walFile : Option Bool := none
  hasBackend : Bool := false
  currentLSN : UInt64 := 0

/-- What the file system and the backend answer during a call. -/
structure WalAnswers where
  fileExists : Bool
  readable : Bool
  appendable : Bool
  contents : Bytes
  writesHeader : Bool
  writesData : Bool
  flushes : Bool
  backendStarts : Bool
  backendWrites : Bool
  backendFlushes : Bool
  backendLSN : UInt64
  backendRecords : Option (List WALRecord)

namespace WalObject

variable (io : WalAnswers)

def setDatabaseBackend (given : Bool) : Method WalObject Unit :=
  withMutex (update fun wal =>
    ((), if given then { wal with hasBackend := io.backendStarts } else wal))

def initializeLog : Method WalObject Bool :=
  withMutex (update fun wal =>
    if wal.useDatabase then
      (wal.hasBackend, if wal.hasBackend then { wal with currentLSN := io.backendLSN } else wal)
    else
      (io.appendable, { wal with
        walFile := some io.appendable
        currentLSN :=
          if io.fileExists && io.readable then
            maxLSN ((walHeaderReader.scan io.contents).map (·.lsn))
          else wal.currentLSN }))

/-- A number is used up even when the record is not written. -/
def writeRecordToFile (record : WALRecord) : Method WalObject UInt64 :=
  withMutex (update fun wal =>
    if wal.walFile = some true then
      (if io.writesHeader && (record.data.isEmpty || io.writesData) then wal.currentLSN + 1 else 0,
        { wal with currentLSN := wal.currentLSN + 1 })
    else (0, wal))

def writeRecordToDatabase (_record : WALRecord) : Method WalObject UInt64 :=
  withMutex (update fun wal =>
    if wal.hasBackend then
      (if io.backendWrites then wal.currentLSN + 1 else 0,
        { wal with currentLSN := wal.currentLSN + 1 })
    else (0, wal))

def writeRecord (record : WALRecord) : Method WalObject UInt64 := do
  if (← object).useDatabase then writeRecordToDatabase io record else writeRecordToFile io record

def flush : Method WalObject Bool :=
  withMutex (update fun wal =>
    (if wal.useDatabase then wal.hasBackend && io.backendFlushes
      else decide (wal.walFile = some true) && io.flushes, wal))

/-- The record is written and the log is flushed while the mutex is held. -/
def checkpoint : Method WalObject Bool :=
  withMutex do
    let lsn ← writeRecord io (WALRecord.new .CHECKPOINT 0)
    if lsn = 0 then pure false else flush io

/-- The file object is used without a look at whether there is one. -/
def recoverFromFile : Method WalObject Bool := do
  let _ ← dereference (← object).walFile
  update fun wal =>
    if io.readable then
      (io.appendable, { wal with
        walFile := some io.appendable
        currentLSN := maxLSN ((walReader.scan io.contents).map (·.header.lsn)) })
    else (false, { wal with walFile := some false })

def recoverFromDatabase : Method WalObject Bool :=
  update fun wal =>
    match wal.hasBackend, io.backendRecords with
    | true, some records => (true, { wal with
        currentLSN := maxLSN ((records.takeWhile WALRecord.verifyChecksum).map (·.header.lsn)) })
    | _, _ => (false, wal)

/-- Recovery with or without a catalog and a buffer pool. -/
def recover (given : Bool) : Method WalObject Bool := do
  if !given then pure false
  else if (← object).useDatabase then recoverFromDatabase io
  else recoverFromFile io

def getCurrentLSN : Method WalObject UInt64 := do return (← object).currentLSN

/-- `beginTransaction` and `abortTransaction`, by the type of the record. -/
def recordTransaction (type : WALRecordType) (txnId : UInt64) : Method WalObject Bool := do
  let lsn ← writeRecord io (WALRecord.new type txnId)
  return decide (0 < lsn)

def commitTransaction (txnId : UInt64) : Method WalObject Bool := do
  let lsn ← writeRecord io (WALRecord.new .COMMIT_TXN txnId)
  if 0 < lsn then
    let _ ← flush io
    pure true
  else pure false

end WalObject

/-- A public call, with what the surroundings answer. -/
inductive WalCall where
  | setDatabaseBackend (given : Bool)
  | initializeLog
  | writeRecord (record : WALRecord)
  | flush
  | checkpoint
  | recover (given : Bool)
  | getCurrentLSN
  | beginTransaction (txnId : UInt64)
  | commitTransaction (txnId : UInt64)
  | abortTransaction (txnId : UInt64)

namespace WalCall

open WalObject

/-- A call without its answer. -/
def perform (call : WalCall) (io : WalAnswers) : Method WalObject Unit :=
  match call with
  | .setDatabaseBackend given => WalObject.setDatabaseBackend io given
  | .initializeLog => do let _ ← WalObject.initializeLog io
  | .writeRecord record => do let _ ← WalObject.writeRecord io record
  | .flush => do let _ ← WalObject.flush io
  | .checkpoint => do let _ ← WalObject.checkpoint io
  | .recover given => do let _ ← WalObject.recover io given
  | .getCurrentLSN => do let _ ← WalObject.getCurrentLSN
  | .beginTransaction txnId => do let _ ← recordTransaction io .BEGIN_TXN txnId
  | .commitTransaction txnId => do let _ ← WalObject.commitTransaction io txnId
  | .abortTransaction txnId => do let _ ← recordTransaction io .ABORT_TXN txnId

/-- A checkpoint, and a recovery in file mode before a log file was opened. -/
def Blocks (wal : WalObject) : WalCall → Prop
  | .checkpoint => True
  | .recover given => given = true ∧ wal.useDatabase = false ∧ wal.walFile = none
  | _ => False

end WalCall

section Wal

variable {io : WalAnswers} {s : Guarded WalObject}

theorem writeRecord_returns (unlocked : s.locked = false) (record : WALRecord) :
    Returns (WalObject.writeRecord io record) s := by
  rw [Returns, WalObject.writeRecord, object_bind]
  split
  · exact returns_withMutex unlocked (returns_update _)
  · exact returns_withMutex unlocked (returns_update _)

theorem flush_returns (unlocked : s.locked = false) : Returns (WalObject.flush io) s :=
  returns_withMutex unlocked (returns_update _)

theorem commitTransaction_returns (unlocked : s.locked = false) (txnId : UInt64) :
    Returns (WalObject.commitTransaction io txnId) s := by
  refine returns_bind (writeRecord_returns unlocked _) fun lsn s' same => ?_
  split
  · exact returns_bind (flush_returns (same.trans unlocked)) fun _ _ _ => returns_pure true
  · exact returns_pure false

/-- The record of a checkpoint is written under the mutex, and writing locks it again. -/
theorem checkpoint_deadlocks (unlocked : s.locked = false) :
    WalObject.checkpoint io s = .error .selfDeadlock := by
  refine withMutex_of_error unlocked (bind_of_error ?_)
  rw [WalObject.writeRecord, object_bind]
  split
  · exact withMutex_of_locked rfl
  · exact withMutex_of_locked rfl

theorem recoverFromFile_returns_iff :
    Returns (WalObject.recoverFromFile io) s ↔ s.object.walFile ≠ none := by
  rw [Returns, WalObject.recoverFromFile, object_bind]
  cases present : s.object.walFile with
  | none => exact iff_of_false (not_returns_of_error (bind_of_error rfl)) fun some_ => some_ rfl
  | some isOpen =>
    exact iff_of_true (returns_bind (returns_pure isOpen) fun _ _ _ => returns_update _)
      (Option.some_ne_none isOpen)

theorem recover_returns_iff (given : Bool) : Returns (WalObject.recover io given) s ↔
    ¬ WalCall.Blocks s.object (.recover given) := by
  cases given with
  | false => exact iff_of_true (returns_pure false) fun blocks => Bool.false_ne_true blocks.1
  | true =>
    rw [Returns, WalObject.recover]
    simp only [Bool.not_true, Bool.false_eq_true, if_false, object_bind]
    cases mode : s.object.useDatabase with
    | true =>
      rw [if_pos rfl]
      refine iff_of_true (returns_update _) fun blocks => ?_
      cases mode.symm.trans blocks.2.1
    | false =>
      rw [if_neg Bool.false_ne_true]
      refine recoverFromFile_returns_iff.trans (not_congr ?_)
      exact ⟨fun missing => ⟨rfl, mode, missing⟩, fun blocks => blocks.2.2⟩

theorem wal_returns_iff (unlocked : s.locked = false) (call : WalCall) :
    Returns (call.perform io) s ↔ ¬ call.Blocks s.object := by
  cases call with
  | checkpoint =>
    rw [WalCall.perform, returns_discard_iff]
    exact iff_of_false (not_returns_of_error (checkpoint_deadlocks unlocked)) fun go => go trivial
  | recover given =>
    rw [WalCall.perform, returns_discard_iff]
    exact recover_returns_iff given
  | setDatabaseBackend given =>
    rw [WalCall.perform]
    exact iff_of_true (returns_withMutex unlocked (returns_update _)) id
  | initializeLog =>
    exact iff_of_true (returns_discard_iff.mpr (returns_withMutex unlocked (returns_update _))) id
  | writeRecord record =>
    exact iff_of_true (returns_discard_iff.mpr (writeRecord_returns unlocked record)) id
  | flush => exact iff_of_true (returns_discard_iff.mpr (flush_returns unlocked)) id
  | getCurrentLSN =>
    exact iff_of_true (returns_discard_iff.mpr ⟨_, _, rfl, rfl⟩) id
  | beginTransaction txnId | abortTransaction txnId =>
    exact iff_of_true (returns_discard_iff.mpr
      (returns_bind (writeRecord_returns unlocked _) fun _ _ _ => returns_pure _)) id
  | commitTransaction txnId =>
    exact iff_of_true (returns_discard_iff.mpr (commitTransaction_returns unlocked txnId)) id

end Wal

/-! ## The table cache -/

/-- A public call; a table and a buffer pool may be missing. -/
inductive TableCacheMethod (V : Type) where
  | isTableCached (dbName tableName : Identifier)
  | getTableData (dbName tableName : Identifier)
  | loadTable (now : Nat) (dbName : Identifier) (table : Option TableDef) (db : Option (Database V))
  | invalidateTable (dbName tableName : Identifier)
  | invalidateDatabase (dbName : Identifier)
  | clear
  | setMaxTableSize (bytes : UInt64)
  | setMaxTotalMemory (bytes : UInt64)
  | getStatistics
  | setEnabled (enabled : Bool)
  | isEnabled

namespace TableCacheMethod

section Cache

variable {V : Type} (qt : Variant V) (estimateMemorySize : List (List V) → UInt64)

/-- A section under the mutex that calls no other method. -/
def changed (change : TableCache V → TableCache V) : Method (TableCache V) Unit :=
  withMutex (update fun cache => ((), change cache))

/-- A lookup looks at the switch before it locks the mutex. -/
def lookup (dbName tableName : Identifier) :
    Method (TableCache V) (Option (List (RecordHeader × List V))) := do
  if (← object).enabled then
    withMutex (update fun cache =>
      ((Entries.find (makeKey dbName tableName) cache.cache).map TableCacheEntry.records, cache))
  else pure none

/-- A table that is too large is turned away before the mutex is locked. -/
def load (now : Nat) (dbName : Identifier) (table : TableDef) (db : Database V) :
    Method (TableCache V) Bool := do
  let cache ← object
  if cache.enabled ∧ estimateTableSize table db ≤ cache.maxTableSizeBytes then
    withMutex (update (TableCache.loadTable qt estimateMemorySize now dbName table db))
  else pure false

/-- The cache is cleared while the mutex is held. -/
def switch (enabled : Bool) : Method (TableCache V) Unit :=
  withMutex do
    update fun cache => ((), { cache with enabled })
    if enabled then pure () else changed TableCache.clear

/-- A call without its answer. -/
def perform : TableCacheMethod V → Method (TableCache V) Unit
  | .isTableCached dbName tableName | .getTableData dbName tableName => do
      let _ ← lookup dbName tableName
  | .loadTable now dbName (some table) (some db) => do
      let _ ← load qt estimateMemorySize now dbName table db
  | .loadTable _ _ _ _ => pure ()
  | .invalidateTable dbName tableName => changed (TableCache.invalidateTable dbName tableName)
  | .invalidateDatabase dbName => changed (TableCache.invalidateDatabase dbName)
  | .clear => changed TableCache.clear
  | .setMaxTableSize bytes => changed (TableCache.setMaxTableSize bytes)
  | .setMaxTotalMemory bytes => changed (TableCache.setMaxTotalMemory bytes)
  | .getStatistics => do
      let _ ← withMutex (update fun cache : TableCache V =>
        ((cache.cache.length, cache.totalMemoryBytes), cache))
  | .setEnabled enabled => switch enabled
  | .isEnabled => do
      let _ ← object

/-- The call that switches the cache off. -/
def Blocks : TableCacheMethod V → Prop
  | .setEnabled enabled => enabled = false
  | _ => False

variable {qt estimateMemorySize} {s : Guarded (TableCache V)}

theorem changed_returns (unlocked : s.locked = false) (change : TableCache V → TableCache V) :
    Returns (changed change) s :=
  returns_withMutex unlocked (returns_update _)

theorem lookup_returns (unlocked : s.locked = false) (dbName tableName : Identifier) :
    Returns (lookup dbName tableName) s := by
  rw [Returns, lookup, object_bind]
  split
  · exact returns_withMutex unlocked (returns_update _)
  · exact returns_pure none

theorem load_returns (unlocked : s.locked = false) (now : Nat) (dbName : Identifier)
    (table : TableDef) (db : Database V) :
    Returns (load qt estimateMemorySize now dbName table db) s := by
  rw [Returns, load, object_bind]
  split
  · exact returns_withMutex unlocked (returns_update _)
  · exact returns_pure false

/-- Switching off clears the cache under the mutex, and clearing locks it again. -/
theorem switch_deadlocks (unlocked : s.locked = false) :
    switch false s = .error .selfDeadlock := by
  refine withMutex_of_error unlocked ((bind_of_ok rfl).trans ?_)
  rw [if_neg Bool.false_ne_true]
  exact withMutex_of_locked rfl

theorem switch_returns_iff (unlocked : s.locked = false) (enabled : Bool) :
    Returns (switch enabled) s ↔
      ¬ (TableCacheMethod.setEnabled enabled : TableCacheMethod V).Blocks := by
  cases enabled with
  | true =>
    refine iff_of_true (returns_withMutex unlocked ?_) Bool.noConfusion
    exact returns_bind (returns_update _) fun _ _ _ => returns_pure ()
  | false => exact iff_of_false (not_returns_of_error (switch_deadlocks unlocked)) fun go => go rfl

theorem cache_returns_iff (unlocked : s.locked = false) (call : TableCacheMethod V) :
    Returns (call.perform qt estimateMemorySize) s ↔ ¬ call.Blocks := by
  cases call with
  | setEnabled enabled => exact switch_returns_iff unlocked enabled
  | isTableCached dbName tableName | getTableData dbName tableName =>
    exact iff_of_true (returns_discard_iff.mpr (lookup_returns unlocked dbName tableName)) id
  | loadTable now dbName table db =>
    refine iff_of_true ?_ id
    cases table with
    | none => exact returns_pure ()
    | some table =>
      cases db with
      | none => exact returns_pure ()
      | some db => exact returns_discard_iff.mpr (load_returns unlocked now dbName table db)
  | getStatistics =>
    exact iff_of_true (returns_discard_iff.mpr (returns_withMutex unlocked (returns_update _))) id
  | isEnabled => exact iff_of_true (returns_discard_iff.mpr (returns_update _)) id
  | _ => exact iff_of_true (changed_returns unlocked _) id

end Cache

end TableCacheMethod

/-! ## Runs -/

section Runs

variable {V : Type} (qt : Variant V) (estimateMemorySize : List (List V) → UInt64)

/-- The calls of a thread on a log, in file mode or in database mode, and on a table cache return
and leave the mutex unlocked exactly when there is no checkpoint, no recovery from a file before
the log was opened, and no call that switches the cache off. -/
theorem calls_return_iff (useDatabase : Bool) (walCalls : List (WalCall × WalAnswers))
    (cache : TableCache V) (cacheCalls : List (TableCacheMethod V)) :
    (Run.Meets (attempt fun call : WalCall × WalAnswers => call.1.perform call.2)
        (ReturnsUnlocked fun call : WalCall × WalAnswers => call.1.perform call.2)
        { object := { useDatabase } } walCalls ∧
      Run.Meets (attempt (TableCacheMethod.perform qt estimateMemorySize))
        (ReturnsUnlocked (TableCacheMethod.perform qt estimateMemorySize))
        { object := cache } cacheCalls) ↔
      (Run.Meets (attempt fun call : WalCall × WalAnswers => call.1.perform call.2)
        (fun s call => ¬ call.1.Blocks s.object) { object := { useDatabase } } walCalls ∧
      Run.Meets (attempt (TableCacheMethod.perform qt estimateMemorySize))
        (fun _ call => ¬ call.Blocks) { object := cache } cacheCalls) := by
  refine and_congr ?_ ?_
  · exact run_returns_iff _ (fun wal call => call.1.Blocks wal)
      (fun s call unlocked => wal_returns_iff unlocked call.1) _ walCalls
  · exact run_returns_iff _ (fun _ call => call.Blocks)
      (fun s call unlocked => TableCacheMethod.cache_returns_iff unlocked call) _ cacheCalls

/-- A checkpoint in database mode and switching off an empty cache. -/
theorem checkpoint_and_switch_deadlock :
    (∀ io, WalCall.checkpoint.perform io { object := { useDatabase := true } } =
      .error .selfDeadlock) ∧
    ∀ (qt : Variant Unit) (estimateMemorySize : List (List Unit) → UInt64),
      (TableCacheMethod.setEnabled false).perform qt estimateMemorySize { object := {} } =
        .error .selfDeadlock :=
  ⟨fun _ => rfl, fun _ _ => rfl⟩

end Runs

end QinDB.Cache
