/-
# Cache.QueryCache — answers of SELECT in memory

`query_cache.cpp`: the answers of queries under a text made of the query, and for every
table the set of the queries that read it. An answer goes when it is five minutes old,
when the memory or the number of entries is used up, the one that was asked for least
recently before the others, and when a statement names one of its tables or its database.
The time is passed in, in milliseconds.
-/
import QinDB.Base.Entries
import QinDB.Base.Trim
import QinDB.Executor.Select

namespace QinDB.Cache

open QinDB.Base QinDB.Storage QinDB.Executor

set_option autoImplicit false

structure CacheEntry (V : Type) where
  result : Outcome V
  createdAt : Nat
  lastAccessedAt : Nat
  affectedTables : List Identifier
  memorySizeBytes : UInt64

structure QueryCache (V : Type) where
  maxEntries : Nat := 1000
  maxMemoryBytes : UInt64 := 100 * 1024 * 1024
  ttlSeconds : Nat := 300
  enabled : Bool := true
  totalMemoryBytes : UInt64 := 0
  cache : List (Identifier × CacheEntry V) := []
  tableToQueries : List (Identifier × List Identifier) := []

/-! ## Keys -/

/-- `QChar::isSpace`. -/
def isSpace (letter : Char) : Bool := isSpaceCode letter.toNat

/-- `QString::trimmed`. -/
def trimmed (text : Identifier) : Identifier := trimBy isSpace text

/-- `QString::simplified`: the words with one blank between them. -/
def simplified (text : Identifier) : Identifier :=
  [' '].intercalate ((text.splitOnP isSpace).filter (· ≠ []))

def normalizeQuery (sql : Identifier) : Identifier :=
  simplified ((trimmed sql).map fun letter =>
    if letter = '\n' ∨ letter = '\r' ∨ letter = '\t' then ' ' else letter)

/-- The text under which the answer of a SELECT is kept. -/
def querySql {V E : Type} (view : Presentation V E) (fromTable : Identifier)
    (stmt : SelectStatement E) : Identifier :=
  normalizeQuery ("SELECT FROM ".toList ++ fromTable ++
    (match stmt.whereClause with
      | none => []
      | some condition => " WHERE ".toList ++ view.exprText condition) ++
    (if stmt.orderBy.isEmpty then [] else " ORDER BY ...".toList) ++
    (if 0 < stmt.limit then " LIMIT ".toList ++ Nat.toDigits 10 stmt.limit else []))

/-! ## The sets of the tables -/

/-- A query comes into the set of a table. -/
def link (query : Identifier) (links : List (Identifier × List Identifier))
    (table : Identifier) : List (Identifier × List Identifier) :=
  match Entries.find table links with
  | none => Entries.insert table [query] links
  | some queries =>
      if query ∈ queries then links else Entries.insert table (queries ++ [query]) links

/-- A query goes from the set of a table; an empty set goes as well. -/
def unlink (query : Identifier) (links : List (Identifier × List Identifier))
    (table : Identifier) : List (Identifier × List Identifier) :=
  match Entries.find table links with
  | none => links
  | some queries =>
      match queries.filter (· ≠ query) with
      | [] => Entries.erase table links
      | first :: rest => Entries.insert table (first :: rest) links

namespace QueryCache

variable {V : Type}

/-! ## The operations -/

/-- An entry goes, with its links. -/
def remove (query : Identifier) (entry : CacheEntry V) (cache : QueryCache V) : QueryCache V :=
  { cache with
    totalMemoryBytes := cache.totalMemoryBytes - entry.memorySizeBytes
    tableToQueries := entry.affectedTables.foldl (unlink query) cache.tableToQueries
    cache := Entries.erase query cache.cache }

/-- Zero seconds stand for ever. -/
def isExpired (cache : QueryCache V) (now : Nat) (entry : CacheEntry V) : Bool :=
  decide (cache.ttlSeconds ≠ 0) && decide (cache.ttlSeconds < (now - entry.createdAt) / 1000)

def get (now : Nat) (querySql : Identifier) (cache : QueryCache V) :
    Option (Outcome V) × QueryCache V :=
  if !cache.enabled then (none, cache)
  else
    match Entries.find querySql cache.cache with
    | none => (none, cache)
    | some entry =>
        if cache.isExpired now entry then (none, cache.remove querySql entry)
        else
          (some entry.result, { cache with
            cache := Entries.insert querySql { entry with lastAccessedAt := now } cache.cache })

/-- The answer that was asked for least recently goes. -/
def evictLRU (cache : QueryCache V) : QueryCache V :=
  match Entries.oldest CacheEntry.lastAccessedAt cache.cache with
  | none => cache
  | some (query, entry) => cache.remove query entry

/-- The loop, given the number of entries. -/
def evictToFreeMemory (requiredBytes : UInt64) : Nat → UInt64 → QueryCache V → QueryCache V
  | 0, _, cache => cache
  | count + 1, freedBytes, cache =>
      if freedBytes < requiredBytes then
        match Entries.oldest CacheEntry.lastAccessedAt cache.cache with
        | none => cache
        | some (query, entry) =>
            evictToFreeMemory requiredBytes count (freedBytes + entry.memorySizeBytes)
              (cache.remove query entry)
      else cache

/-- The loop over the limit of the number of entries, given their number. The limit is compared
as an `int`. -/
def evictEntries : Nat → QueryCache V → QueryCache V
  | 0, cache => cache
  | count + 1, cache =>
      if (Int32.ofNat cache.maxEntries).toInt ≤ cache.cache.length ∧ cache.cache ≠ [] then
        evictEntries count cache.evictLRU
      else cache

/-- Room for a new entry. -/
def makeRoom (memorySize : UInt64) (cache : QueryCache V) : QueryCache V :=
  let cache :=
    if cache.maxMemoryBytes < cache.totalMemoryBytes + memorySize then
      cache.evictToFreeMemory memorySize cache.cache.length 0
    else cache
  cache.evictEntries cache.cache.length

/-- An answer that takes the place of an older one is not linked. -/
def put (estimateMemorySize : Outcome V → UInt64) (now : Nat) (querySql : Identifier)
    (result : Outcome V) (affectedTables : List Identifier) (cache : QueryCache V) :
    QueryCache V :=
  let memorySize := estimateMemorySize result
  let entry : CacheEntry V :=
    { result, createdAt := now, lastAccessedAt := now, affectedTables,
      memorySizeBytes := memorySize }
  if !cache.enabled then cache
  else if !result.success then cache
  else if cache.maxMemoryBytes / 2 < memorySize then cache
  else
    match Entries.find querySql cache.cache with
    | some existing =>
        { cache with
          totalMemoryBytes := cache.totalMemoryBytes - existing.memorySizeBytes + memorySize
          cache := Entries.insert querySql entry cache.cache }
    | none =>
        let cache := cache.makeRoom memorySize
        { cache with
          totalMemoryBytes := cache.totalMemoryBytes + memorySize
          cache := Entries.insert querySql entry cache.cache
          tableToQueries := affectedTables.foldl (link querySql) cache.tableToQueries }

/-- An entry goes, and its links stay for the moment. -/
def eraseQuery (cache : QueryCache V) (query : Identifier) : QueryCache V :=
  match Entries.find query cache.cache with
  | none => cache
  | some entry =>
      { cache with
        totalMemoryBytes := cache.totalMemoryBytes - entry.memorySizeBytes
        cache := Entries.erase query cache.cache }

/-- The answers of a table go, then they go from the sets of all tables. -/
def invalidateTable (tableName : Identifier) (cache : QueryCache V) : QueryCache V :=
  match Entries.find tableName cache.tableToQueries with
  | none => cache
  | some queries =>
      let cache := queries.foldl eraseQuery cache
      { cache with
        tableToQueries := Entries.erase tableName (cache.tableToQueries.map fun found =>
          (found.1, found.2.filter fun query => query ∉ queries)) }

def removeQuery (cache : QueryCache V) (query : Identifier) : QueryCache V :=
  match Entries.find query cache.cache with
  | none => cache
  | some entry => cache.remove query entry

/-- `QString::contains` without regard to case, by the folding of single characters. -/
def contains (toCaseFolded : Char → Char) (text part : Identifier) : Bool :=
  (text.map toCaseFolded).tails.any (part.map toCaseFolded).isPrefixOf

/-- The answers with the name of the database anywhere in the text of the query. -/
def invalidateDatabase (toCaseFolded : Char → Char) (databaseName : Identifier)
    (cache : QueryCache V) : QueryCache V :=
  ((cache.cache.map Prod.fst).filter (contains toCaseFolded · databaseName)).foldl
    removeQuery cache

def clear (cache : QueryCache V) : QueryCache V :=
  { cache with totalMemoryBytes := 0, cache := [], tableToQueries := [] }

end QueryCache

end QinDB.Cache
