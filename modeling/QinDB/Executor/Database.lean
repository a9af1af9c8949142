/-
# Executor.Database — one database as the executor sees it

The table pages behind the buffer pool, the catalog and the transaction manager of
one database. The pages of a table form a chain that starts at its first page and
only ever grows at its end, so the links are kept as the list of pages that follow
a first page. `freePages` lists the pages the disk manager will hand out next; when
it is empty no page can be allocated.

* `scan`: the readable pages of a chain; every loop over a table stops at the first
  page that cannot be fetched.
* `visibleRows`: what a full scan shows a reader, with the place of every row: its
  page, and its position among the records of the page that decode.
* `pageVisibleRows_eq`: the rows of a page are what its slots contribute.
-/
import QinDB.Storage.Transaction

namespace QinDB.Executor

open QinDB.Core QinDB.Storage

set_option autoImplicit false

/-! ## The catalog -/

/-- What the expression evaluator looks at: the table's name and its columns. -/
structure TableSchema where
  name : Identifier
  columns : List ColumnDef
  deriving DecidableEq, Repr

structure TableDef extends TableSchema where
  firstPageId : PageId
  nextRowId : RowId
  deriving DecidableEq, Repr

/-- The expression evaluator on expressions `E`, with and without a row at hand; an
error is its `lastError_`. -/
structure Evaluator (V E : Type) where
  evaluateWithRow : E → Option TableSchema → List V → Except String V

namespace Evaluator

variable {V E : Type} (ev : Evaluator V E)

def evaluate (expr : E) : Except String V := ev.evaluateWithRow expr none []

def evaluateList : List E → Except String (List V)
  | [] => .ok []
  | expr :: exprs =>
      match ev.evaluate expr with
      | .error message => .error message
      | .ok value =>
          match evaluateList exprs with
          | .error message => .error message
          | .ok values => .ok (value :: values)

end Evaluator

/-! ## Results -/

inductive ErrorCode where
  | SEMANTIC_ERROR | CONSTRAINT_VIOLATION | TABLE_NOT_FOUND | DUPLICATE_KEY | IO_ERROR
  | PERMISSION_DENIED | INTERNAL_ERROR | NOT_IMPLEMENTED
  deriving DecidableEq, Repr

/-- The errors that statements report. -/
inductive ExecError where
  | noDatabase
  | tableNotFound (table : Identifier)
  | tableExists (table : Identifier)
  | expression (lastError : String)
  | columnCount (expected got : Nat)
  | nullColumn (column : Identifier)
  | recordSize
  | fetchPage (page : PageId)
  | allocatePage
  | allocateTable
  | insertRecord
  | commit
  | whereClause (lastError : String)
  | setClause (lastError : String)
  | columnNotFound (column table : Identifier)
  | joinCondition (lastError : String)
  | selectList (lastError : String)
  | groupBy (lastError : String)
  | exportFile (path : Identifier)
  | alreadyActive (txnId : TransactionId)
  | nothingToCommit
  | nothingToRollback
  | notActive (txnId : TransactionId)
  | commitFailed (txnId : TransactionId)
  deriving DecidableEq, Repr

namespace ExecError

def code : ExecError → ErrorCode
  | .tableNotFound _ => .TABLE_NOT_FOUND
  | .nullColumn _ => .CONSTRAINT_VIOLATION
  | .fetchPage _ | .allocatePage | .allocateTable | .exportFile _ => .IO_ERROR
  | .recordSize | .insertRecord | .commit | .commitFailed _ => .INTERNAL_ERROR
  | _ => .SEMANTIC_ERROR

def message : ExecError → String
  | .noDatabase => "No database selected. Use 'USE DATABASE <name>' first."
  | .tableNotFound table => "Table '" ++ String.ofList table ++ "' does not exist"
  | .tableExists table => "Table '" ++ String.ofList table ++ "' already exists"
  | .expression lastError => "Failed to evaluate expression: " ++ lastError
  | .columnCount expected got =>
      "Column count mismatch: expected " ++ toString expected ++ ", got " ++ toString got
  | .nullColumn column => "Column '" ++ String.ofList column ++ "' cannot be NULL"
  | .recordSize => "Failed to calculate record size"
  | .fetchPage page => "Failed to fetch page " ++ toString page
  | .allocatePage => "Failed to allocate new page for table"
  | .allocateTable => "Failed to allocate page for table"
  | .insertRecord => "Failed to insert record"
  | .commit => "Failed to commit transaction"
  | .whereClause lastError => "WHERE clause evaluation error: " ++ lastError
  | .setClause lastError => "SET clause evaluation error: " ++ lastError
  | .columnNotFound column table =>
      "Column '" ++ String.ofList column ++ "' not found in table '" ++ String.ofList table ++ "'"
  | .joinCondition lastError => "JOIN condition evaluation error: " ++ lastError
  | .selectList lastError => "SELECT list evaluation error: " ++ lastError
  | .groupBy lastError => "GROUP BY evaluation error: " ++ lastError
  | .exportFile path => "Failed to export result to file: " ++ String.ofList path
  | .alreadyActive txnId =>
      "Transaction " ++ toString txnId ++ " is already active. Commit or rollback first."
  | .nothingToCommit => "No active transaction to commit"
  | .nothingToRollback => "No active transaction to rollback"
  | .notActive txnId => "Transaction " ++ toString txnId ++ " is not active"
  | .commitFailed txnId => "Failed to commit transaction " ++ toString txnId

end ExecError

/-! ## The database -/

structure Database (V : Type) where
  disk : PageId → Option TablePage
  following : PageId → List PageId
  freePages : List PageId
  tables : List TableDef
  txns : TransactionManager V
  /-- The row ids that UPDATE gives to the rows it moves. -/
  updateRowId : RowId

namespace Database

variable {V : Type}

/-- A database that has just been created, on a disk with these free pages. -/
def create (freePages : List PageId) : Database V where
  disk := fun _ => none
  following := fun _ => []
  freePages := freePages
  tables := []
  txns := .initial
  updateRowId := 1000000

/-- The catalog finds a table whatever the letter case of the name. -/
def getTable (db : Database V) (name : Identifier) : Option TableDef :=
  db.tables.find? fun table => table.name.toLower = name.toLower

def updateTable (db : Database V) (name : Identifier) (newDef : TableDef) : Database V :=
  { db with tables := db.tables.map fun table =>
      if table.name.toLower = name.toLower then newDef else table }

def chain (db : Database V) (table : TableDef) : List PageId :=
  if table.firstPageId = INVALID_PAGE_ID then []
  else table.firstPageId :: db.following table.firstPageId

def writePage (db : Database V) (pageId : PageId) (page : TablePage) : Database V :=
  { db with disk := Function.update db.disk pageId (some page) }

def addUndoRecord (db : Database V) (txnId : TransactionId) (undo : UndoRecord V) : Database V :=
  { db with txns := db.txns.addUndoRecord txnId undo }

def abortTransaction (db : Database V) (txnId : TransactionId) : Database V :=
  { db with txns := (db.txns.abortTransaction txnId).2 }

end Database

/-! ## Scanning a table -/

/-- The pages of a chain up to the first that cannot be fetched. -/
def scan (disk : PageId → Option TablePage) : List PageId → List (PageId × TablePage)
  | [] => []
  | pageId :: rest =>
      match disk pageId with
      | none => []
      | some page => (pageId, page) :: scan disk rest

/-- A row found by a scan: its page, its position in the list of the page's records,
its header and its values. -/
structure Located (V : Type) where
  pageId : PageId
  position : Nat
  header : RecordHeader
  row : List V
  deriving DecidableEq, Repr

section Scan

variable {V : Type} (qt : Variant V)

def pageRows (columns : List ColumnDef) (pageId : PageId) (page : TablePage) : List (Located V) :=
  (getAllRecords qt columns page).zipIdx.map fun ((header, row), position) =>
    { pageId, position, header, row }

/-- The rows of a table that a full scan shows to `current`, which is zero for a reader
outside any transaction. -/
def visibleRows (db : Database V) (table : TableDef) (current : TransactionId) :
    List (Located V) :=
  (scan db.disk (db.chain table)).flatMap fun (pageId, page) =>
    (pageRows qt table.columns pageId page).filter fun found =>
      db.txns.isVisible found.header current

/-- What one slot shows to a reader. -/
def slotRow (txns : TransactionManager V) (columns : List ColumnDef) (current : TransactionId)
    (content : Slot) : Option (List V) :=
  match readSlot qt columns content with
  | none => none
  | some (header, row) => if txns.isVisible header current then some row else none

variable {qt} in
theorem slotRow_of_none {txns : TransactionManager V} {columns : List ColumnDef}
    {current : TransactionId} {content : Slot} (read : readSlot qt columns content = none) :
    slotRow qt txns columns current content = none := by
  simp only [slotRow, read]

variable {qt} in
theorem slotRow_of_read {txns : TransactionManager V} {columns : List ColumnDef}
    {current : TransactionId} {content : Slot} {record : RecordHeader × List V}
    (read : readSlot qt columns content = some record) :
    slotRow qt txns columns current content =
      if txns.isVisible record.1 current then some record.2 else none := by
  simp only [slotRow, read]

def pageVisibleRows (txns : TransactionManager V) (columns : List ColumnDef)
    (current : TransactionId) (page : TablePage) : List (List V) :=
  page.slots.filterMap (slotRow qt txns columns current)

theorem pageVisibleRows_eq (txns : TransactionManager V) (columns : List ColumnDef)
    (current : TransactionId) (page : TablePage) :
    pageVisibleRows qt txns columns current page =
      ((getAllRecords qt columns page).filter fun record =>
        txns.isVisible record.1 current).map Prod.snd := by
  rw [getAllRecords, pageVisibleRows]
  induction page.slots with
  | nil => rfl
  | cons content rest ih =>
    cases read : readSlot qt columns content with
    | none =>
      rw [List.filterMap_cons_none read, List.filterMap_cons_none (slotRow_of_none read), ih]
    | some record =>
      rw [List.filterMap_cons_some read, List.filter_cons, List.filterMap_cons,
        slotRow_of_read read, ih]
      cases txns.isVisible record.1 current <;> rfl

/-- Filtering decoded records by their headers is filtering slot by slot. -/
theorem filter_pageRows (txns : TransactionManager V) (columns : List ColumnDef)
    (current : TransactionId) (pageId : PageId) (page : TablePage) :
    ((pageRows qt columns pageId page).filter fun found =>
        txns.isVisible found.header current).map Located.row =
      pageVisibleRows qt txns columns current page := by
  have decoded : ∀ (records : List (RecordHeader × List V)) (start : Nat),
      (((records.zipIdx start).map fun ((header, row), position) =>
          ({ pageId, position, header, row } : Located V)).filter fun found =>
            txns.isVisible found.header current).map Located.row =
        (records.filter fun record => txns.isVisible record.1 current).map Prod.snd := by
    intro records
    induction records with
    | nil => intro start; rfl
    | cons record rest ih =>
      intro start
      rw [List.zipIdx_cons, List.map_cons, List.filter_cons, List.filter_cons]
      cases txns.isVisible record.1 current with
      | false => exact ih (start + 1)
      | true => exact congrArg (record.2 :: ·) (ih (start + 1))
  rw [pageRows, decoded, pageVisibleRows_eq]

end Scan

end QinDB.Executor
