/-
# Executor.Dml — INSERT, UPDATE and DELETE

The three statements of `executor.cpp` that change rows. Inside a session transaction
they write under its identifier and leave undo records; otherwise they begin a
transaction of their own and commit it at the end. UPDATE and DELETE first scan the
table for the rows to change and then change them one by one, addressing each row by
its position in the scan of its page.

Index maintenance and the log records other than the commit record write to other
structures than the table pages, and are not part of the model.
-/
import QinDB.Executor.Database

namespace QinDB.Executor

open QinDB.Core QinDB.Storage

set_option autoImplicit false

/-! ## Statements and their outcomes -/

structure InsertStatement (E : Type) where
  tableName : Identifier
  values : List (List E)
  deriving DecidableEq, Repr

structure UpdateStatement (E : Type) where
  tableName : Identifier
  assignments : List (Identifier × E)
  whereClause : Option E
  deriving DecidableEq, Repr

structure DeleteStatement (E : Type) where
  tableName : Identifier
  whereClause : Option E
  deriving DecidableEq, Repr

/-- What a statement answers. -/
inductive Outcome (V : Type) where
  | failed (error : ExecError)
  | inserted (count : Nat) (table : Identifier)
  | updated (count failures : Nat) (table : Identifier)
  | deleted (count failures : Nat) (table : Identifier)
  | started (txnId : TransactionId)
  | committed (txnId : TransactionId)
  | rolledBack (txnId : TransactionId) (undone : Nat)
  | created (table : Identifier)
  | dropped (table : Identifier)
  | vacuumed (cleaned : Nat)
  | selected (columnNames : List Identifier) (rows : List (List V))
  deriving DecidableEq, Repr

/-- The `success` flag of the result. A statement that could not change some of its rows
still reports success. -/
def Outcome.success {V : Type} : Outcome V → Bool
  | .failed _ => false
  | _ => true

section Dml

variable {V E : Type} (qt : Variant V) (ev : Evaluator V E)

/-! ## The transaction of a statement -/

/-- The session's transaction, or a new one when the session has none. -/
def statementTransaction (session : TransactionId) (db : Database V) :
    TransactionId × Database V :=
  if session = INVALID_TXN_ID then
    (db.txns.beginTransaction.1, { db with txns := db.txns.beginTransaction.2 })
  else (session, db)

/-- The end of a statement that did its work: an own transaction is committed, and when
the commit fails it is asked to abort, which a committed transaction does not. -/
def finishStatement (walCommits : Bool) (session txnId : TransactionId) (outcome : Outcome V)
    (db : Database V) : Outcome V × Database V :=
  if session = INVALID_TXN_ID then
    match db.txns.commitTransaction walCommits txnId with
    | (true, txns) => (outcome, { db with txns })
    | (false, txns) => (.failed .commit, { db with txns := (txns.abortTransaction txnId).2 })
  else (outcome, db)

/-- Undo records are kept for session transactions only. -/
def logUndo (session txnId : TransactionId) (undo : UndoRecord V) (db : Database V) :
    Database V :=
  if session = INVALID_TXN_ID then db else db.addUndoRecord txnId undo

/-- Change rows in turn, counting those that could and could not be changed. -/
def changeRows {α : Type} (change : α → Database V → Bool × Database V) :
    List α → Database V → (Nat × Nat) × Database V
  | [], db => ((0, 0), db)
  | candidate :: rest, db =>
      let changed := change candidate db
      let later := changeRows change rest changed.2
      ((if changed.1 then (later.1.1 + 1, later.1.2) else (later.1.1, later.1.2 + 1)), later.2)

/-! ## Finding a page for a record -/

inductive Placement where
  | placed (pageId : PageId) (page : TablePage)
  | full
  | unreadable (pageId : PageId)

/-- First fit along a chain. INSERT draws a new row id for every page it tries
(`bump = 1`), UPDATE keeps the one it drew (`bump = 0`). -/
def placeRecord (columns : List ColumnDef) (values : List V) (txnId : TransactionId)
    (size bump : Nat) (disk : PageId → Option TablePage) :
    RowId → List PageId → Placement × RowId
  | rowId, [] => (.full, rowId)
  | rowId, pageId :: rest =>
      match disk pageId with
      | none => (.unreadable pageId, rowId)
      | some page =>
          if hasEnoughSpace page size then
            match insertRecord qt columns page rowId values txnId with
            | some page' => (.placed pageId page', rowId + bump)
            | none => placeRecord columns values txnId size bump disk (rowId + bump) rest
          else placeRecord columns values txnId size bump disk rowId rest

/-! ## INSERT -/

/-- NOT NULL checks and automatic values, column by column. -/
def validateValues (nextRowId : RowId) : List ColumnDef → List V → Except ExecError (List V)
  | column :: columns, value :: values =>
      if qt.isNull value && column.notNull && !column.autoIncrement then
        .error (.nullColumn column.name)
      else
        match validateValues nextRowId columns values with
        | .error error => .error error
        | .ok rest =>
            .ok ((if column.autoIncrement && qt.isNull value then qt.ofRowId nextRowId
              else value) :: rest)
  | _, _ => .ok []

/-- The values of one row, or the error that stops the statement before it is stored. -/
def prepareRow (table : TableDef) (nextRowId : RowId) (exprs : List E) :
    Except ExecError (List V) :=
  match ev.evaluateList exprs with
  | .error message => .error (.expression message)
  | .ok values =>
      if values.length ≠ table.columns.length then
        .error (.columnCount table.columns.length values.length)
      else
        match validateValues qt nextRowId table.columns values with
        | .error error => .error error
        | .ok values =>
            if calculateRecordSize qt table.columns values = 0 then .error .recordSize
            else .ok values

/-- Initialise the next free page and link it at the end of the table's chain; a table
without a first page gets no link. -/
def appendPage (table : TableDef) (pageId : PageId) (free : List PageId) (db : Database V) :
    Database V :=
  { db with
    disk := Function.update db.disk pageId (some .init)
    following :=
      if table.firstPageId = INVALID_PAGE_ID then db.following
      else Function.update db.following table.firstPageId
        (db.following table.firstPageId ++ [pageId])
    freePages := free }

/-- Write the page that took a row and log how to undo it. -/
def storePlaced (tableName : Identifier) (session txnId : TransactionId) (pageId : PageId)
    (page : TablePage) (db : Database V) : Database V :=
  logUndo session txnId
    { opType := .INSERT, tableName, pageId, slotIndex := page.slots.length - 1 }
    (db.writePage pageId page)

/-- Store one row; an error aborts the transaction, also that of a session. -/
def storeRow (table : TableDef) (tableName : Identifier) (session txnId : TransactionId)
    (nextRowId : RowId) (values : List V) (db : Database V) :
    Option ExecError × RowId × Database V :=
  match placeRecord qt table.columns values txnId (calculateRecordSize qt table.columns values) 1
      db.disk nextRowId (db.chain table) with
  | (.placed pageId page, next) =>
      (none, next, storePlaced tableName session txnId pageId page db)
  | (.unreadable pageId, next) => (some (.fetchPage pageId), next, db.abortTransaction txnId)
  | (.full, next) =>
      match db.freePages with
      | [] => (some .allocatePage, next, db.abortTransaction txnId)
      | pageId :: free =>
          let db := appendPage table pageId free db
          match insertRecord qt table.columns .init next values txnId with
          | some page => (none, next + 1, storePlaced tableName session txnId pageId page db)
          | none => (some .insertRecord, next + 1, db.abortTransaction txnId)

def insertRows (table : TableDef) (tableName : Identifier) (session txnId : TransactionId) :
    RowId → Database V → List (List E) → Option ExecError × RowId × Database V
  | nextRowId, db, [] => (none, nextRowId, db)
  | nextRowId, db, exprs :: rest =>
      match prepareRow qt ev table nextRowId exprs with
      | .error error => (some error, nextRowId, db)
      | .ok values =>
          match storeRow qt table tableName session txnId nextRowId values db with
          | (some error, next, db) => (some error, next, db)
          | (none, next, db) => insertRows table tableName session txnId next db rest

def executeInsert (walCommits : Bool) (session : TransactionId) (stmt : InsertStatement E)
    (db : Database V) : Outcome V × Database V :=
  match db.getTable stmt.tableName with
  | none => (.failed (.tableNotFound stmt.tableName), db)
  | some table =>
      let begun := statementTransaction session db
      match insertRows qt ev table stmt.tableName session begun.1 table.nextRowId begun.2
          stmt.values with
      | (some error, _, db) => (.failed error, db)
      | (none, next, db) =>
          finishStatement walCommits session begun.1 (.inserted stmt.values.length stmt.tableName)
            (db.updateTable stmt.tableName { table with nextRowId := next })

/-! ## UPDATE -/

/-- Whether a row satisfies the WHERE clause; a null result does not. -/
def matchesWhere (table : TableDef) (whereClause : Option E) (row : List V) :
    Except ExecError Bool :=
  match whereClause with
  | none => .ok true
  | some expr =>
      match ev.evaluateWithRow expr (some table.toTableSchema) row with
      | .error message => .error (.whereClause message)
      | .ok value => .ok (!qt.isNull value && qt.toBool value)

/-- The row after the SET clause. Every expression is evaluated on the old row. -/
def applyAssignments (table : TableDef) (tableName : Identifier) (oldRow : List V) :
    List (Identifier × E) → List V → Except ExecError (List V)
  | [], newRow => .ok newRow
  | (column, expr) :: rest, newRow =>
      match table.columns.findIdx? fun definition =>
          definition.name.toLower = column.toLower with
      | none => .error (.columnNotFound column tableName)
      | some index =>
          match ev.evaluateWithRow expr (some table.toTableSchema) oldRow with
          | .error message => .error (.setClause message)
          | .ok value => applyAssignments table tableName oldRow rest (newRow.set index value)

/-- The rows to update with their new values, or the first error of the scan. -/
def updateCandidates (table : TableDef) (stmt : UpdateStatement E) :
    List (Located V) → Except ExecError (List (Located V × List V))
  | [] => .ok []
  | found :: rest =>
      match matchesWhere qt ev table stmt.whereClause found.row with
      | .error error => .error error
      | .ok false => updateCandidates table stmt rest
      | .ok true =>
          match applyAssignments ev table stmt.tableName found.row stmt.assignments found.row with
          | .error error => .error error
          | .ok newRow =>
              match updateCandidates table stmt rest with
              | .error error => .error error
              | .ok candidates => .ok ((found, newRow) :: candidates)

/-- Change one row: overwrite it in place, or mark it deleted and put the new row into
the first page of the chain that takes it. A row that finds no page is gone. -/
def updateRow (table : TableDef) (tableName : Identifier) (session txnId : TransactionId)
    (candidate : Located V × List V) (db : Database V) : Bool × Database V :=
  let found := candidate.1
  let newRow := candidate.2
  match db.disk found.pageId with
  | none => (false, db)
  | some page =>
      match updateRecord qt table.columns page found.position newRow with
      | some page' =>
          (true, logUndo session txnId
            { opType := .UPDATE found.row, tableName, pageId := found.pageId,
              slotIndex := found.position }
            (db.writePage found.pageId page'))
      | none =>
          match deleteRecord page found.position txnId with
          | none => (false, db)
          | some page' =>
              let db := { db.writePage found.pageId page' with updateRowId := db.updateRowId + 1 }
              match (placeRecord qt table.columns newRow txnId
                  (calculateRecordSize qt table.columns newRow) 0 db.disk (db.updateRowId - 1)
                  (db.chain table)).1 with
              | .placed pageId page'' => (true, db.writePage pageId page'')
              | _ => (false, db)

def executeUpdate (walCommits : Bool) (session : TransactionId) (stmt : UpdateStatement E)
    (db : Database V) : Outcome V × Database V :=
  match db.getTable stmt.tableName with
  | none => (.failed (.tableNotFound stmt.tableName), db)
  | some table =>
      let begun := statementTransaction session db
      match updateCandidates qt ev table stmt (visibleRows qt begun.2 table session) with
      | .error error => (.failed error, begun.2)
      | .ok candidates =>
          let changed := changeRows (updateRow qt table stmt.tableName session begun.1) candidates
            begun.2
          finishStatement walCommits session begun.1
            (.updated changed.1.1 changed.1.2 stmt.tableName) changed.2

/-! ## DELETE -/

def deleteCandidates (table : TableDef) (whereClause : Option E) :
    List (Located V) → Except ExecError (List (Located V))
  | [] => .ok []
  | found :: rest =>
      match matchesWhere qt ev table whereClause found.row with
      | .error error => .error error
      | .ok keep =>
          match deleteCandidates table whereClause rest with
          | .error error => .error error
          | .ok candidates => .ok (if keep then found :: candidates else candidates)

def deleteRow (tableName : Identifier) (session txnId : TransactionId) (found : Located V)
    (db : Database V) : Bool × Database V :=
  match db.disk found.pageId with
  | none => (false, db)
  | some page =>
      match deleteRecord page found.position txnId with
      | none => (false, db)
      | some page' =>
          (true, logUndo session txnId
            { opType := .DELETE found.row, tableName, pageId := found.pageId,
              slotIndex := found.position }
            (db.writePage found.pageId page'))

def executeDelete (walCommits : Bool) (session : TransactionId) (stmt : DeleteStatement E)
    (db : Database V) : Outcome V × Database V :=
  match db.getTable stmt.tableName with
  | none => (.failed (.tableNotFound stmt.tableName), db)
  | some table =>
      let begun := statementTransaction session db
      match deleteCandidates qt ev table stmt.whereClause
          (visibleRows qt begun.2 table session) with
      | .error error => (.failed error, begun.2)
      | .ok candidates =>
          let changed := changeRows (deleteRow stmt.tableName session begun.1) candidates begun.2
          finishStatement walCommits session begun.1
            (.deleted changed.1.1 changed.1.2 stmt.tableName) changed.2

end Dml

end QinDB.Executor
