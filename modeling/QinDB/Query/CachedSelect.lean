/-
# Query.CachedSelect — SELECT with the rewriter and both caches

`executeSelect` as it runs in the server. The statement is rewritten; its answer is looked up in the
query cache; a single table is read through the table cache, which takes a small table in; and the
answer is left in the query cache. The query cache asks for the text of the WHERE clause, where a
null pointer is dereferenced.

* `Fresh`: what the caches have for a statement is what the pages give.
* `executeSelect_eq`: the answer is then that of the rewritten statement on the pages.
-/
import QinDB.Cache.QueryCache
import QinDB.Cache.TableCache
import QinDB.Query.Rewriter

namespace QinDB.Query

open QinDB.Base QinDB.Core QinDB.Storage QinDB.Executor QinDB.Cache
open QinDB.Server (DatabaseDef DatabaseManager IndexDef)

set_option autoImplicit false

/-- The estimates of the memory of rows and of answers. -/
structure Sizes (V : Type) where
  ofRows : List (List V) → UInt64
  ofResult : Outcome V → UInt64

structure CachingExecutor (V : Type) where
  dbManager : DatabaseManager V
  queryCache : QueryCache V
  tableCache : TableCache V

section Caches

variable {V : Type} (qt : Variant V) (ops : Operations V) (env : Environment V) (sizes : Sizes V)
  (now : Nat)

/-! ## The query cache -/

/-- Whether the key of an answer is asked for and goes through a null pointer. -/
def keyCrashes (stmt : Parser.SelectStatement V) (cache : QueryCache V) : Bool :=
  cache.enabled && stmt.from_.isSome &&
    (clause stmt.where_).any fun condition => (condition.toString env.valueText).isNone

/-- What the query cache has for a SELECT. -/
def lookup (stmt : SelectStatement (Parser.Expression V)) (cache : QueryCache V) :
    Option (Outcome V) × QueryCache V :=
  match stmt.from_ with
  | none => (none, cache)
  | some fromTable => cache.get now (querySql env.view fromTable stmt)

/-- The tables that an answer is taken from, each of them once. -/
def affectedTables (fromTable : Identifier) (stmt : SelectStatement (Parser.Expression V)) :
    List Identifier :=
  (fromTable :: stmt.joins.map JoinClause.right).dedup

def store (stmt : SelectStatement (Parser.Expression V)) (result : Outcome V)
    (cache : QueryCache V) : QueryCache V :=
  match stmt.from_ with
  | none => cache
  | some fromTable =>
      cache.put sizes.ofResult now (querySql env.view fromTable stmt) result
        (affectedTables fromTable stmt)

/-! ## The table cache -/

/-- The records of a table by the table cache, which takes a small table in when it is not there.
It is taken in by the name in the catalog and looked up by the name in the query. -/
def cachedRecords (dbName leftTableName : Identifier) (table : TableDef) (db : Database V)
    (cache : TableCache V) : Option (List (RecordHeader × List V)) × TableCache V :=
  if !cache.enabled then (none, cache)
  else if cache.isTableCached dbName leftTableName then
    (cache.getTableData dbName leftTableName, cache)
  else
    match cache.loadTable qt sizes.ofRows now dbName table db with
    | (true, cache) => (cache.getTableData dbName leftTableName, cache)
    | (false, cache) => (none, cache)

/-- Only the scan of a single table goes through the table cache. -/
def scannedRecords (dbName : Identifier) (indexes : List IndexDef)
    (stmt : Parser.SelectStatement V) (db : Database V) (cache : TableCache V) :
    Option (List (RecordHeader × List V)) × TableCache V :=
  match stmt.from_, stmt.joins with
  | some from_, [] =>
      match db.getTable from_.tableName with
      | none => (none, cache)
      | some table =>
          if fullTextResults env indexes stmt = none ∧
              reportedRow qt env table indexes stmt.where_ = some INVALID_ROW_ID then (none, cache)
          else cachedRecords qt sizes now dbName from_.tableName table db cache
  | _, _ => (none, cache)

/-- The rows of a single table. Those from the cache are not compared with what a full-text index
has found. -/
def singleRows (db : Database V) (session : TransactionId) (indexes : List IndexDef)
    (stmt : Parser.SelectStatement V) (cached : Option (List (RecordHeader × List V)))
    (table : TableDef) : List (List V) :=
  match cached with
  | some records => visibleOf db.txns session records
  | none => foundRows qt env db session indexes stmt table

/-! ## The statement -/

/-- The indexes of the table after FROM. -/
def indexesOf (db : DatabaseDef V) (stmt : Parser.SelectStatement V) : List IndexDef :=
  (stmt.from_.map fun from_ => db.getTableIndexes from_.tableName).getD []

namespace CachingExecutor

/-- `none` where a null pointer is dereferenced. An answer from the query cache is given as it is,
whatever the current database is, and is not exported. -/
def executeSelect (c : CachingExecutor V) (parsed : Parser.SelectStatement V) :
    Option (Outcome V × CachingExecutor V) :=
  match rewrite qt ops env parsed with
  | none => none
  | some stmt =>
      if keyCrashes env stmt c.queryCache then none
      else
        match lookup env now (statement stmt none) c.queryCache with
        | (some result, queryCache) => some (result, { c with queryCache })
        | (none, queryCache) =>
            match c.dbManager.current with
            | none => some (if stmt.from_.isNone then .selected [] [] else .failed .noDatabase,
                { c with queryCache })
            | some db =>
                let indexes := indexesOf db stmt
                let executed := statement stmt (fullTextResults env indexes stmt)
                if executed.joins = [] ∧ executed.from_.bind db.pages.getTable ≠ none ∧
                    namesColumns env executed = false then none
                else
                  let scanned := scannedRecords qt env sizes now c.dbManager.currentDatabase
                    indexes stmt db.pages c.tableCache
                  let result := selectWith qt (expressionEvaluator qt ops) env.view db.pages
                    executed (singleRows qt env db.pages c.dbManager.currentTransactionId indexes
                      stmt scanned.1) (joinSource qt db.pages)
                  some (exportResult env.view executed result, { c with
                    queryCache := store env sizes now executed result queryCache
                    tableCache := scanned.2 })

/-- What a client is told. -/
def answer (c : CachingExecutor V) (parsed : Parser.SelectStatement V) : Option (Outcome V) :=
  (c.executeSelect qt ops env sizes now parsed).map Prod.fst

end CachingExecutor

/-! ## Caches that are up to date -/

/-- The records of a table, deleted ones included. -/
def tableRecords (db : Database V) (table : TableDef) : List (RecordHeader × List V) :=
  (scan db.disk (db.chain table)).flatMap fun found => getAllRecords qt table.columns found.2

/-- What the pages of the current database give for a statement. -/
def onPages (c : CachingExecutor V) (db : DatabaseDef V) (parsed : Parser.SelectStatement V) :
    Option (Outcome V) :=
  executeParsed qt ops env db.pages c.dbManager.currentTransactionId (indexesOf db parsed) parsed

/-- A database is selected, the text of WHERE can be written, and what the caches have for the
statement is what the pages give; the size limit of the table cache is below that of its loop. -/
structure Fresh (c : CachingExecutor V) (db : DatabaseDef V) (parsed : Parser.SelectStatement V) :
    Prop where
  selected : c.dbManager.current = some db
  written : ∀ stmt ∈ rewrite qt ops env parsed, keyCrashes env stmt c.queryCache = false
  answers : ∀ stmt ∈ rewrite qt ops env parsed,
    ∀ result ∈ (lookup env now (statement stmt none) c.queryCache).1,
      onPages qt ops env c db parsed = some result
  records : ∀ from_ ∈ parsed.from_, ∀ table ∈ db.pages.getTable from_.tableName,
    ∀ records ∈ c.tableCache.getTableData c.dbManager.currentDatabase from_.tableName,
      records = tableRecords qt db.pages table
  small : c.tableCache.maxTableSizeBytes.toNat < PAGE_SIZE * MAX_CACHED_PAGES

variable {qt ops env sizes now} {c : CachingExecutor V} {db : DatabaseDef V}
  {parsed stmt : Parser.SelectStatement V}

/-! ### A table is taken in as a whole -/

theorem scan_take {disk : PageId → Option TablePage} {limit : Nat} {pages : List PageId}
    (fewer : (scan disk (pages.take limit)).length < limit) :
    scan disk (pages.take limit) = scan disk pages := by
  induction limit generalizing pages with
  | zero => cases fewer
  | succ limit ih =>
    cases pages with
    | nil => rfl
    | cons pageId rest =>
      rw [List.take_succ_cons, scan] at fewer ⊢
      rw [scan]
      split
      · rfl
      · rename_i page found
        rw [found] at fewer
        rw [ih (Nat.lt_of_succ_lt_succ fewer)]

theorem length_scan_le (disk : PageId → Option TablePage) (pages : List PageId) :
    (scan disk pages).length ≤ pages.length := by
  induction pages with
  | nil => exact Nat.le_refl 0
  | cons pageId rest ih =>
    rw [scan]
    split
    · exact Nat.zero_le _
    · exact Nat.succ_le_succ ih

theorem scan_take_of_small {table : TableDef} {db : Database V} {bytes : UInt64}
    (below : bytes.toNat < PAGE_SIZE * MAX_CACHED_PAGES)
    (small : ¬ bytes < estimateTableSize table db) :
    scan db.disk ((db.chain table).take MAX_CACHED_PAGES) = scan db.disk (db.chain table) := by
  refine scan_take ?_
  have most := (length_scan_le db.disk ((db.chain table).take MAX_CACHED_PAGES)).trans
    (List.length_take_le MAX_CACHED_PAGES (db.chain table))
  rw [UInt64.lt_iff_toNat_lt, estimateTableSize, UInt64.toNat_ofNat', Nat.not_lt] at small
  simp only [PAGE_SIZE, MAX_CACHED_PAGES] at below small most ⊢
  rw [Nat.mod_eq_of_lt (by omega)] at small
  omega

/-- What the table cache gives, if it gives anything, are the records of the table. -/
theorem cachedRecords_eq {dbName name : Identifier} {table : TableDef} {db : Database V}
    {cache : TableCache V}
    (fresh : ∀ records ∈ cache.getTableData dbName name, records = tableRecords qt db table)
    (small : cache.maxTableSizeBytes.toNat < PAGE_SIZE * MAX_CACHED_PAGES) :
    ∀ records ∈ (cachedRecords qt sizes now dbName name table db cache).1,
      records = tableRecords qt db table := by
  rw [cachedRecords]
  split
  · exact fun _ none => by cases none
  · rename_i on
    split
    · exact fresh
    · rename_i missing
      rw [TableCache.isTableCached, Bool.and_eq_true, not_and, Bool.not_eq_true,
        Option.isSome_eq_false_iff, Option.isNone_iff_eq_none] at missing
      have missing := missing (by simpa using on)
      rw [TableCache.loadTable, if_neg on]
      split
      · rename_i done
        split at done
        · cases done
        · rename_i loaded
          cases done
          intro records found
          rw [TableCache.getTableData] at found
          split at found
          · cases found
          · rw [Entries.find_insert] at found
            split at found
            · cases found
              exact congrArg (List.flatMap _) (scan_take_of_small small loaded)
            · rw [TableCache.find_makeRoom missing] at found
              cases found
      · exact fun _ none => by cases none

theorem selectRows_eq_flatMap (db : Database V) (table : TableDef) (session : TransactionId) :
    selectRows qt db table session none = (scan db.disk (db.chain table)).flatMap fun found =>
      pageVisibleRows qt db.txns table.columns session found.2 := by
  have kept (page : TablePage) (position : Nat) : fullTextKeeps none
    (undeletedRowIds qt table.columns page) position = true := rfl
  rw [selectRows]
  congr 1
  funext ⟨pageId, page⟩
  simp only [kept, Bool.true_and, filter_pageRows]

theorem selectRows_none (db : Database V) (table : TableDef) (session : TransactionId) :
    selectRows qt db table session none =
      visibleOf db.txns session (tableRecords qt db table) := by
  rw [selectRows_eq_flatMap, visibleOf, tableRecords, List.filter_flatMap, List.map_flatMap]
  simp only [pageVisibleRows_eq]

theorem rewrite_from (done : rewrite qt ops env parsed = some stmt) : stmt.from_ = parsed.from_ := by
  cases parsed
  rw [rewrite, cloneSelectStatement] at done
  obtain ⟨where_, rfl, -⟩ := applyPredicatePushdown_some done
    (isMatch_foldConstants _ (isMatch_cloneExpression _))
  rfl

/-- A single table is scanned as it is without the cache. -/
theorem singleRows_eq (fresh : Fresh qt ops env now c db parsed)
    (done : rewrite qt ops env parsed = some stmt) {from_ : Parser.TableReference}
    (source : stmt.from_ = some from_) (alone : stmt.joins = []) {table : TableDef}
    (known : db.pages.getTable from_.tableName = some table) :
    singleRows qt env db.pages c.dbManager.currentTransactionId (indexesOf db stmt) stmt
        (scannedRecords qt env sizes now c.dbManager.currentDatabase (indexesOf db stmt) stmt
          db.pages c.tableCache).1 table =
      foundRows qt env db.pages c.dbManager.currentTransactionId (indexesOf db stmt) stmt table := by
  have noText := (rewrite_some done (indexesOf db stmt)).1
  simp only [scannedRecords, source, alone, known]
  split
  · rfl
  · rename_i scanned
    cases cached : (cachedRecords qt sizes now c.dbManager.currentDatabase from_.tableName table
        db.pages c.tableCache).1 with
    | none => rfl
    | some records =>
      have found := cachedRecords_eq (fresh.records from_ (rewrite_from done ▸ source) table known)
        fresh.small records cached
      rw [singleRows, found, ← selectRows_none, foundRows, if_neg scanned, noText]

/-- Only the rows of the single table that is asked for matter. -/
theorem selectWith_congr {E : Type} {ev : Evaluator V E} {view : Presentation V E}
    {db : Database V} {stmt : SelectStatement E} {single single' : TableDef → List (List V)}
    (source : TableDef → List (List V))
    (same : ∀ name ∈ stmt.from_, stmt.joins = [] → ∀ table ∈ db.getTable name,
      single table = single' table) :
    selectWith qt ev view db stmt single source = selectWith qt ev view db stmt single' source := by
  rw [selectWith, selectWith]
  split
  · rfl
  · rename_i name named
    split
    · rfl
    · rename_i table known
      split
      · rename_i alone
        rw [same name named alone table known]
      · rfl

/-- **SELECT with fresh caches** answers what the pages give. -/
theorem executeSelect_eq (fresh : Fresh qt ops env now c db parsed) :
    c.answer qt ops env sizes now parsed = onPages qt ops env c db parsed := by
  rw [CachingExecutor.answer, CachingExecutor.executeSelect, onPages]
  cases done : rewrite qt ops env parsed with
  | none =>
    rw [executeParsed, done]
    rfl
  | some stmt =>
    have written := fresh.written stmt done
    have answers := fresh.answers stmt done
    have same : indexesOf db parsed = indexesOf db stmt := by
      rw [indexesOf, indexesOf, rewrite_from done]
    rw [onPages] at answers
    simp only [written, Bool.false_eq_true, if_false]
    split
    · rename_i result queryCache found
      rw [found] at answers
      exact (answers result rfl).symm
    · rw [fresh.selected, executeParsed, done, same]
      dsimp only
      split
      · rfl
      · refine congrArg some (congrArg (exportResult env.view _) ?_)
        refine selectWith_congr _ fun name named alone table known => ?_
        obtain ⟨from_, source, rfl⟩ := Option.map_eq_some_iff.mp named
        exact singleRows_eq fresh done source (List.map_eq_nil_iff.mp alone) known

/-- Caches that have nothing are up to date. -/
theorem fresh_of_empty (selected : c.dbManager.current = some db)
    (written : ∀ stmt ∈ rewrite qt ops env parsed, keyCrashes env stmt c.queryCache = false)
    (noAnswers : c.queryCache.cache = []) (noTables : c.tableCache.cache = [])
    (small : c.tableCache.maxTableSizeBytes.toNat < PAGE_SIZE * MAX_CACHED_PAGES) :
    Fresh qt ops env now c db parsed where
  selected := selected
  written := written
  answers := by
    intro stmt _ result found
    rw [lookup] at found
    split at found
    · cases found
    · rw [QueryCache.get, noAnswers] at found
      split at found <;> cases found
  records := by
    intro from_ _ table _ records found
    rw [TableCache.getTableData, noTables] at found
    split at found <;> cases found
  small := small

end Caches

namespace Literals

/-- A database in use, with both caches on and empty. -/
def serving (db : DatabaseDef Cell) : CachingExecutor Cell where
  dbManager := {
    databases := fun name => if name = "shop".toList then some db else none
    names := ["shop".toList], currentDatabase := "shop".toList
    currentTransactionId := INVALID_TXN_ID, newPages := [], catalogs := ["shop".toList]
    dataDir := "data".toList, removal := fun _ => .removed }
  queryCache := {}
  tableCache := {}

theorem fresh_serving {db : DatabaseDef Cell} {parsed : Parser.SelectStatement Cell} (now : Nat)
    (written : ∀ stmt ∈ rewrite (cells conv) ops env parsed, keyCrashes env stmt {} = false) :
    Fresh (cells conv) ops env now (serving db) db parsed :=
  fresh_of_empty rfl written rfl rfl
    (show (5 * 1024 * 1024 : UInt64).toNat < PAGE_SIZE * MAX_CACHED_PAGES by decide)

def sizes : Sizes Cell := ⟨fun _ => 0, fun _ => 0⟩

end Literals

end QinDB.Query
