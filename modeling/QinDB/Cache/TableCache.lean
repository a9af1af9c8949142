/-
# Cache.TableCache — small tables in memory

`table_cache.cpp`: the records of a table with their headers, under the name of the
database and that of the table. A table of up to 5 MiB of pages is loaded when it is
scanned; entries go when the memory is used up, the one loaded first before the others, and
when a table or a database is invalidated. The time is passed in, in milliseconds.
-/
import QinDB.Base.Entries
import QinDB.Executor.Select

namespace QinDB.Cache

open QinDB.Base QinDB.Core QinDB.Storage QinDB.Executor

set_option autoImplicit false

/-- The rows of an entry are kept together with their headers. -/
structure TableCacheEntry (V : Type) where
  records : List (RecordHeader × List V)
  loadedAt : Nat
  memorySizeBytes : UInt64

structure TableCache (V : Type) where
  maxTableSizeBytes : UInt64 := 5 * 1024 * 1024
  maxTotalMemoryBytes : UInt64 := 100 * 1024 * 1024
  enabled : Bool := true
  totalMemoryBytes : UInt64 := 0
  cache : List (Identifier × TableCacheEntry V) := []

/-- How many pages of a table are read. -/
def MAX_CACHED_PAGES : Nat := 1000

def makeKey (dbName tableName : Identifier) : Identifier := dbName ++ '.' :: tableName

/-- Pages are counted up to the first that cannot be fetched. -/
def estimateTableSize {V : Type} (table : TableDef) (db : Database V) : UInt64 :=
  UInt64.ofNat (PAGE_SIZE * (scan db.disk ((db.chain table).take MAX_CACHED_PAGES)).length)

namespace TableCache

variable {V : Type} (qt : Variant V)

def isTableCached (cache : TableCache V) (dbName tableName : Identifier) : Bool :=
  cache.enabled && (Entries.find (makeKey dbName tableName) cache.cache).isSome

def getTableData (cache : TableCache V) (dbName tableName : Identifier) :
    Option (List (RecordHeader × List V)) :=
  if !cache.enabled then none
  else (Entries.find (makeKey dbName tableName) cache.cache).map TableCacheEntry.records

/-- The table that was loaded first goes. -/
def evictLRU (cache : TableCache V) : TableCache V :=
  match Entries.oldest TableCacheEntry.loadedAt cache.cache with
  | none => cache
  | some (key, entry) =>
      { cache with
        cache := Entries.erase key cache.cache
        totalMemoryBytes := cache.totalMemoryBytes - entry.memorySizeBytes }

/-- The loop before a load, given the number of entries. -/
def makeRoom (tableSize : UInt64) : Nat → TableCache V → TableCache V
  | 0, cache => cache
  | count + 1, cache =>
      if cache.maxTotalMemoryBytes < cache.totalMemoryBytes + tableSize ∧ cache.cache ≠ [] then
        makeRoom tableSize count cache.evictLRU
      else cache

/-- The memory of the rows is an estimate by the types of their values. -/
def loadTable (estimateMemorySize : List (List V) → UInt64) (now : Nat) (dbName : Identifier)
    (table : TableDef) (db : Database V) (cache : TableCache V) : Bool × TableCache V :=
  if !cache.enabled then (false, cache)
  else if cache.maxTableSizeBytes < estimateTableSize table db then (false, cache)
  else
    let cache := cache.makeRoom (estimateTableSize table db) cache.cache.length
    let records := (scan db.disk ((db.chain table).take MAX_CACHED_PAGES)).flatMap fun found =>
      getAllRecords qt table.columns found.2
    let memorySizeBytes := estimateMemorySize (records.map Prod.snd)
    (true, { cache with
      cache := Entries.insert (makeKey dbName table.name)
        { records, loadedAt := now, memorySizeBytes } cache.cache
      totalMemoryBytes := cache.totalMemoryBytes + memorySizeBytes })

def invalidateTable (dbName tableName : Identifier) (cache : TableCache V) : TableCache V :=
  match Entries.find (makeKey dbName tableName) cache.cache with
  | none => cache
  | some entry =>
      { cache with
        cache := Entries.erase (makeKey dbName tableName) cache.cache
        totalMemoryBytes := cache.totalMemoryBytes - entry.memorySizeBytes }

/-- The sizes are taken from the sum while the keys are collected, then the entries go. -/
def invalidateDatabase (dbName : Identifier) (cache : TableCache V) : TableCache V :=
  let going := cache.cache.filter fun found => (dbName ++ ['.']).isPrefixOf found.1
  { cache with
    cache := (going.map Prod.fst).foldl (fun entries key => Entries.erase key entries) cache.cache
    totalMemoryBytes :=
      going.foldl (fun sum found => sum - found.2.memorySizeBytes) cache.totalMemoryBytes }

def clear (cache : TableCache V) : TableCache V :=
  { cache with cache := [], totalMemoryBytes := 0 }

def setMaxTableSize (bytes : UInt64) (cache : TableCache V) : TableCache V :=
  { cache with maxTableSizeBytes := bytes }

/-- The loop is that before a load of nothing. -/
def setMaxTotalMemory (bytes : UInt64) (cache : TableCache V) : TableCache V :=
  makeRoom 0 cache.cache.length { cache with maxTotalMemoryBytes := bytes }

/-- What is not cached is not cached after evictions. -/
theorem find_makeRoom {cache : TableCache V} {key : Identifier}
    (missing : Entries.find key cache.cache = none) (tableSize : UInt64) (count : Nat) :
    Entries.find key (cache.makeRoom tableSize count).cache = none := by
  induction count generalizing cache with
  | zero => exact missing
  | succ count ih =>
    rw [makeRoom]
    split
    · refine ih ?_
      rw [evictLRU]
      split
      · exact missing
      · rw [Entries.find_erase, missing, ite_self]
    · exact missing

end TableCache

/-- The rows of the records that a reader sees. -/
def visibleOf {V : Type} (txns : TransactionManager V) (current : TransactionId)
    (records : List (RecordHeader × List V)) : List (List V) :=
  (records.filter fun record => txns.isVisible record.1 current).map Prod.snd

end QinDB.Cache
