/-
# Executor.Session — transactions, VACUUM and tables; the statements of one session

BEGIN, COMMIT and ROLLBACK change the session's transaction, which is zero outside any
transaction. ROLLBACK runs the undo log backwards, with the page operations of the
statements themselves, and only then aborts. `execute` is one statement of a session on
a database; every statement returns.
-/
import QinDB.Executor.Select

namespace QinDB.Executor

open QinDB.Core QinDB.Storage

set_option autoImplicit false

inductive Statement (E : Type) where
  | createTable (name : Identifier) (columns : List ColumnDef)
  | dropTable (name : Identifier)
  | insert (stmt : InsertStatement E)
  | update (stmt : UpdateStatement E)
  | delete (stmt : DeleteStatement E)
  | select (stmt : SelectStatement E)
  | begin
  | commit
  | rollback
  /-- VACUUM of one table, or of all tables when no name is given. -/
  | vacuum (name : Option Identifier)
  deriving DecidableEq, Repr

section Session

variable {V E : Type} (qt : Variant V) (ev : Evaluator V E) (view : Presentation V E)

/-! ## Transactions -/

def executeBegin (session : TransactionId) (db : Database V) :
    Outcome V × TransactionId × Database V :=
  if session ≠ INVALID_TXN_ID ∧ db.txns.getTransactionState session = .ACTIVE then
    (.failed (.alreadyActive session), session, db)
  else
    let begun := db.txns.beginTransaction
    (.started begun.1, begun.1, { db with txns := begun.2 })

/-- The session keeps its transaction when the commit record cannot be written. -/
def executeCommit (walCommits : Bool) (session : TransactionId) (db : Database V) :
    Outcome V × TransactionId × Database V :=
  if session = INVALID_TXN_ID then (.failed .nothingToCommit, session, db)
  else if db.txns.getTransactionState session ≠ .ACTIVE then
    (.failed (.notActive session), session, db)
  else
    match db.txns.commitTransaction walCommits session with
    | (true, txns) => (.committed session, INVALID_TXN_ID, { db with txns })
    | (false, txns) => (.failed (.commitFailed session), session, { db with txns })

/-- The page after one undo record; `none` when the page operation refuses. -/
def undoOnPage (columns : List ColumnDef) (session : TransactionId) (undo : UndoRecord V)
    (page : TablePage) : Option TablePage :=
  match undo.opType with
  | .INSERT => deleteRecord page undo.slotIndex session
  | .UPDATE oldValues => updateRecord qt columns page undo.slotIndex oldValues
  | .DELETE _ => restoreRecord page undo.slotIndex

def undoRecord (session : TransactionId) (undo : UndoRecord V) (db : Database V) :
    Bool × Database V :=
  match db.getTable undo.tableName with
  | none => (false, db)
  | some table =>
      match db.disk undo.pageId with
      | none => (false, db)
      | some page =>
          match undoOnPage qt table.columns session undo page with
          | none => (false, db)
          | some page' => (true, db.writePage undo.pageId page')

def executeRollback (session : TransactionId) (db : Database V) :
    Outcome V × TransactionId × Database V :=
  if session = INVALID_TXN_ID then (.failed .nothingToRollback, session, db)
  else if db.txns.getTransactionState session ≠ .ACTIVE then
    (.failed (.notActive session), session, db)
  else
    let undone := changeRows (undoRecord qt session) (db.txns.undoLog session).reverse db
    (.rolledBack session undone.1.1, INVALID_TXN_ID, undone.2.abortTransaction session)

/-! ## VACUUM -/

def cleanupSlot (txns : TransactionManager V) : Slot → Slot
  | none => none
  | some record =>
      if record.length < RECORD_HEADER_SIZE then some record
      else if txns.canDelete record.header then none
      else some record

def cleanupPage (txns : TransactionManager V) (page : TablePage) : TablePage :=
  { page with slots := page.slots.map (cleanupSlot txns) }

/-- Empty the slots of dead records along a chain, counting them. -/
def cleanupPages (txns : TransactionManager V) :
    List PageId → (PageId → Option TablePage) → Nat × (PageId → Option TablePage)
  | [], disk => (0, disk)
  | pageId :: rest, disk =>
      match disk pageId with
      | none => (0, disk)
      | some page =>
          let later := cleanupPages txns rest
            (Function.update disk pageId (some (cleanupPage txns page)))
          (page.slots.countP (fun content => content.isSome && (cleanupSlot txns content).isNone) +
            later.1, later.2)

def cleanupTable (table : TableDef) (db : Database V) : Nat × Database V :=
  let cleaned := cleanupPages db.txns (db.chain table) db.disk
  (cleaned.1, { db with disk := cleaned.2 })

def cleanupTables : List TableDef → Database V → Nat × Database V
  | [], db => (0, db)
  | table :: rest, db =>
      let first := cleanupTable table db
      let later := cleanupTables rest first.2
      (first.1 + later.1, later.2)

def executeVacuum (name : Option Identifier) (db : Database V) : Outcome V × Database V :=
  match name with
  | none =>
      let cleaned := cleanupTables db.tables db
      (.vacuumed cleaned.1, cleaned.2)
  | some tableName =>
      match db.getTable tableName with
      | none => (.failed (.tableNotFound tableName), db)
      | some table =>
          let cleaned := cleanupTable table db
          (.vacuumed cleaned.1, cleaned.2)

/-! ## Tables -/

/-- Every table starts with one empty page. -/
def executeCreateTable (name : Identifier) (columns : List ColumnDef) (db : Database V) :
    Outcome V × Database V :=
  match db.getTable name with
  | some _ => (.failed (.tableExists name), db)
  | none =>
      match db.freePages with
      | [] => (.failed .allocateTable, db)
      | pageId :: free =>
          (.created name,
            { db with
              disk := Function.update db.disk pageId (some .init)
              following := Function.update db.following pageId []
              freePages := free
              tables := db.tables ++ [{ name, columns, firstPageId := pageId, nextRowId := 1 }] })

/-- The pages of a dropped table stay allocated. -/
def executeDropTable (name : Identifier) (db : Database V) : Outcome V × Database V :=
  match db.getTable name with
  | none => (.failed (.tableNotFound name), db)
  | some _ =>
      (.dropped name,
        { db with tables := db.tables.filter fun table => table.name.toLower ≠ name.toLower })

/-! ## One statement -/

/-- Answer, session transaction and database after one statement. -/
def execute (walCommits : Bool) (session : TransactionId) (db : Database V) :
    Statement E → Outcome V × TransactionId × Database V
  | .createTable name columns =>
      let done := executeCreateTable name columns db
      (done.1, session, done.2)
  | .dropTable name =>
      let done := executeDropTable name db
      (done.1, session, done.2)
  | .insert stmt =>
      let done := executeInsert qt ev walCommits session stmt db
      (done.1, session, done.2)
  | .update stmt =>
      let done := executeUpdate qt ev walCommits session stmt db
      (done.1, session, done.2)
  | .delete stmt =>
      let done := executeDelete qt ev walCommits session stmt db
      (done.1, session, done.2)
  | .select stmt => (executeSelect qt ev view session stmt db, session, db)
  | .begin => executeBegin session db
  | .commit => executeCommit walCommits session db
  | .rollback => executeRollback qt session db
  | .vacuum name =>
      let done := executeVacuum name db
      (done.1, session, done.2)

end Session

end QinDB.Executor
