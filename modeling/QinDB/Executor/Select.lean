/-
# Executor.Select — SELECT without caches

`executeSelect` with both caches switched off: a nested-loop join over the undeleted
records of two tables, or a scan of one table with visibility checks, then GROUP BY,
ORDER BY and LIMIT on the rows found, then the export to a file. A B+ tree index is asked
but its answer is not used: after a lookup that reports a row the statement falls back to
the full scan. The lookups, and what happens when one reports row id zero, are in
`Query.TableScan`.

The tail of the statement (`finishSelect`) is a function of the statement, the schema
and the rows found; the scans (`selectRows`, `joinSource`) are the only part that looks
at pages and transactions.
-/
import QinDB.Executor.Dml

namespace QinDB.Executor

open QinDB.Core QinDB.Storage

set_option autoImplicit false

def INVALID_ROW_ID : RowId := 0

structure JoinClause (E : Type) where
  right : Identifier
  condition : Option E
  deriving DecidableEq, Repr

structure OrderItem (E : Type) where
  expression : E
  ascending : Bool
  deriving DecidableEq, Repr

/-- `fullText` is the answer of the full-text index when the WHERE clause is a MATCH that
such an index serves; the WHERE clause is then not evaluated. -/
structure SelectStatement (E : Type) where
  from_ : Option Identifier
  joins : List (JoinClause E) := []
  selectList : List E := []
  selectAliases : List Identifier := []
  whereClause : Option E := none
  fullText : Option (List RowId) := none
  groupBy : Option (List E) := none
  orderBy : List (OrderItem E) := []
  limit : Nat := 0
  exportFilePath : Option Identifier := none
  deriving DecidableEq, Repr

/-- What SELECT asks of expressions and values besides their evaluation: texts and
comparisons of Qt, `std::sort`, and the result exporter. -/
structure Presentation (V E : Type) where
  /-- The column name of a column expression. -/
  columnName : E → Option Identifier
  exprText : E → Identifier
  valueText : V → Identifier
  ofText : Identifier → V
  ofCount : Nat → V
  textLess : Identifier → Identifier → Bool
  /-- Numeric order when both values convert to `double`, where one may be not a number, and
  otherwise the order of texts. -/
  compare : V → V → Option Ordering
  sort : (List V → List V → Bool) → List (List V) → List (List V)
  exportsTo : Identifier → Bool

section Select

variable {V E : Type} (qt : Variant V) (ev : Evaluator V E) (view : Presentation V E)

/-! ## The rows a SELECT reads -/

/-- The row ids of the records without a delete mark, in slot order. -/
def undeletedRowIds (columns : List ColumnDef) (page : TablePage) : List RowId :=
  (getAllRecords qt columns page).filterMap fun (header, _) =>
    if header.deleteTxnId ≠ INVALID_TXN_ID then none else some header.rowId

/-- Whether the full-text answer lets the record at a position of the page through. The
row id is looked up by position in a list that leaves marked records out. -/
def fullTextKeeps (fullText : Option (List RowId)) (rowIds : List RowId) (position : Nat) :
    Bool :=
  match fullText with
  | none => true
  | some results =>
      let rowId := rowIds.getD position INVALID_ROW_ID
      rowId = INVALID_ROW_ID || results.contains rowId

/-- The rows that the scan of a single table lets through. -/
def selectRows (db : Database V) (table : TableDef) (current : TransactionId)
    (fullText : Option (List RowId)) : List (List V) :=
  (scan db.disk (db.chain table)).flatMap fun (pageId, page) =>
    ((pageRows qt table.columns pageId page).filter fun found =>
      fullTextKeeps fullText (undeletedRowIds qt table.columns page) found.position &&
        db.txns.isVisible found.header current).map Located.row

/-- The rows that a join reads: no visibility check, but no marked record. -/
def joinSource (db : Database V) (table : TableDef) : List (List V) :=
  (scan db.disk (db.chain table)).flatMap fun (_, page) =>
    getUndeletedRecords qt table.columns page

/-! ## Conditions and projections -/

def isTrue (value : V) : Bool := !qt.isNull value && qt.toBool value

/-- Keep the rows on which an optional condition is true; the first error stops. -/
def filterRows (schema : TableSchema) (toError : String → ExecError) (condition : Option E) :
    List (List V) → Except ExecError (List (List V))
  | [] => .ok []
  | row :: rest =>
      match condition with
      | none => .ok (row :: rest)
      | some expr =>
          match ev.evaluateWithRow expr (some schema) row with
          | .error message => .error (toError message)
          | .ok value =>
              match filterRows schema toError condition rest with
              | .error error => .error error
              | .ok rows => .ok (if isTrue qt value then row :: rows else rows)

def isSelectAll (stmt : SelectStatement E) : Bool :=
  match stmt.selectList with
  | [] => true
  | [expr] => decide (view.columnName expr = some ['*'])
  | _ => false

def columnNames (stmt : SelectStatement E) (table : TableDef) : List Identifier :=
  if isSelectAll view stmt then table.columns.map ColumnDef.name
  else
    stmt.selectList.zipIdx.map fun (expr, index) =>
      match stmt.selectAliases[index]? with
      | some (letter :: rest) => letter :: rest
      | _ => (view.columnName expr).getD (view.exprText expr)

def projectRow (schema : TableSchema) (row : List V) : List E → Except ExecError (List V)
  | [] => .ok []
  | expr :: exprs =>
      match ev.evaluateWithRow expr (some schema) row with
      | .error message => .error (.selectList message)
      | .ok value =>
          match projectRow schema row exprs with
          | .error error => .error error
          | .ok values => .ok (value :: values)

/-- WHERE and the select list, row by row. -/
def filterProject (stmt : SelectStatement E) (table : TableDef) :
    List (List V) → Except ExecError (List (List V))
  | [] => .ok []
  | row :: rest =>
      match (if stmt.fullText.isSome then .ok true
        else matchesWhere qt ev table stmt.whereClause row) with
      | .error error => .error error
      | .ok false => filterProject stmt table rest
      | .ok true =>
          match (if isSelectAll view stmt then .ok row
            else projectRow ev table.toTableSchema row stmt.selectList) with
          | .error error => .error error
          | .ok projected =>
              match filterProject stmt table rest with
              | .error error => .error error
              | .ok rows => .ok (projected :: rows)

/-- ON and then WHERE on every pair of rows, both evaluated with the left table's schema. -/
def joinRows (stmt : SelectStatement E) (left : TableDef) (condition : Option E) :
    List (List V) → Except ExecError (List (List V))
  | [] => .ok []
  | row :: rest =>
      match filterRows qt ev left.toTableSchema .joinCondition condition [row] with
      | .error error => .error error
      | .ok joined =>
          match filterRows qt ev left.toTableSchema .whereClause stmt.whereClause joined with
          | .error error => .error error
          | .ok kept =>
              match joinRows stmt left condition rest with
              | .error error => .error error
              | .ok rows => .ok (kept ++ rows)

def qualifiedNames (tableName : Identifier) (table : TableDef) : List Identifier :=
  table.columns.map fun column => tableName ++ ['.'] ++ column.name

/-! ## Grouping, ordering and limiting -/

def groupKey (schema : TableSchema) (row : List V) : List E → Except ExecError Identifier
  | [] => .ok []
  | expr :: exprs =>
      match ev.evaluateWithRow expr (some schema) row with
      | .error message => .error (.groupBy message)
      | .ok value =>
          match groupKey schema row exprs with
          | .error error => .error error
          | .ok rest => .ok (view.valueText value ++ ['|'] ++ rest)

/-- Count one more row under its key; the keys stay sorted, as in a `QMap`. -/
def countKey (key : Identifier) : List (Identifier × Nat) → List (Identifier × Nat)
  | [] => [(key, 1)]
  | (other, count) :: rest =>
      if key = other then (other, count + 1) :: rest
      else if view.textLess key other then (key, 1) :: (other, count) :: rest
      else (other, count) :: countKey key rest

def countGroups (schema : TableSchema) (exprs : List E) :
    List (Identifier × Nat) → List (List V) → Except ExecError (List (Identifier × Nat))
  | groups, [] => .ok groups
  | groups, row :: rest =>
      match groupKey ev view schema row exprs with
      | .error error => .error error
      | .ok key => countGroups schema exprs (countKey view key groups) rest

/-- The comparison of ORDER BY. Evaluating the second value clears an error of the first,
whose value is then null; an item whose second value fails is passed over. -/
def rowLess (schema : TableSchema) (row₁ row₂ : List V) : List (OrderItem E) → Bool
  | [] => false
  | item :: rest =>
      match ev.evaluateWithRow item.expression (some schema) row₂ with
      | .error _ => rowLess schema row₁ row₂ rest
      | .ok value₂ =>
          let value₁ :=
            match ev.evaluateWithRow item.expression (some schema) row₁ with
            | .ok value => value
            | .error _ => qt.null
          match qt.isNull value₁, qt.isNull value₂ with
          | true, false => item.ascending
          | false, true => !item.ascending
          | true, true => rowLess schema row₁ row₂ rest
          | false, false =>
              match view.compare value₁ value₂ with
              | some .lt => item.ascending
              | some .gt => !item.ascending
              | some .eq => rowLess schema row₁ row₂ rest
              | none => false

def limitRows (limit : Nat) (rows : List (List V)) : List (List V) :=
  if limit = 0 then rows else rows.take limit

/-- GROUP BY, ORDER BY and LIMIT on the rows found. -/
def finishSelect (stmt : SelectStatement E) (table : TableDef)
    (found : List Identifier × List (List V)) : Outcome V :=
  let arrange := fun rows =>
    if stmt.orderBy.isEmpty then rows
    else view.sort (fun row₁ row₂ =>
      rowLess qt ev view table.toTableSchema row₁ row₂ stmt.orderBy) rows
  match stmt.groupBy with
  | none => .selected found.1 (limitRows stmt.limit (arrange found.2))
  | some exprs =>
      match countGroups ev view table.toTableSchema exprs [] found.2 with
      | .error error => .failed error
      | .ok groups =>
          .selected ["group_key".toList, "count".toList]
            (limitRows stmt.limit (arrange (groups.map fun (key, count) =>
              [view.ofText key, view.ofCount count])))

/-! ## The statement -/

/-- The answer before the export, given the rows that the scans of the two kinds of
SELECT yield. -/
def selectWith (db : Database V) (stmt : SelectStatement E)
    (single : TableDef → List (List V)) (source : TableDef → List (List V)) : Outcome V :=
  match stmt.from_ with
  | none => .selected [] []
  | some leftName =>
      match db.getTable leftName with
      | none => .failed (.tableNotFound leftName)
      | some left =>
          match stmt.joins with
          | [] =>
              match filterProject qt ev view stmt left (single left) with
              | .error error => .failed error
              | .ok rows => finishSelect qt ev view stmt left (columnNames view stmt left, rows)
          | join :: _ =>
              match db.getTable join.right with
              | none => .failed (.tableNotFound join.right)
              | some right =>
                  match joinRows qt ev stmt left join.condition
                      ((source left).flatMap fun leftRow =>
                        (source right).map (leftRow ++ ·)) with
                  | .error error => .failed error
                  | .ok rows =>
                      finishSelect qt ev view stmt left
                        (qualifiedNames leftName left ++ qualifiedNames join.right right, rows)

def selectResult (session : TransactionId) (stmt : SelectStatement E) (db : Database V) :
    Outcome V :=
  selectWith qt ev view db stmt (fun table => selectRows qt db table session stmt.fullText)
    (joinSource qt db)

/-- INTO OUTFILE: a failing export turns a success into an error. -/
def exportResult (stmt : SelectStatement E) (outcome : Outcome V) : Outcome V :=
  match stmt.exportFilePath with
  | none => outcome
  | some path =>
      if outcome.success && !view.exportsTo path then .failed (.exportFile path) else outcome

def executeSelect (session : TransactionId) (stmt : SelectStatement E) (db : Database V) :
    Outcome V :=
  exportResult view stmt (selectResult qt ev view session stmt db)

/-! ## The rows found -/

variable {qt ev view} (stmt : SelectStatement E) (groupBy : Option (List E))
  (orderBy : List (OrderItem E)) (limit : Nat) (path : Option Identifier)

/-- The rows found do not depend on what is done with them later. -/
theorem filterProject_tail (table : TableDef) (rows : List (List V)) :
    filterProject qt ev view { stmt with groupBy, orderBy, limit, exportFilePath := path } table
      rows = filterProject qt ev view stmt table rows := by
  induction rows with
  | nil => rfl
  | cons row rest ih =>
    rw [filterProject, filterProject, ih]
    rfl

theorem joinRows_tail (table : TableDef) (condition : Option E) (rows : List (List V)) :
    joinRows qt ev { stmt with groupBy, orderBy, limit, exportFilePath := path } table condition
      rows = joinRows qt ev stmt table condition rows := by
  induction rows with
  | nil => rfl
  | cons row rest ih => rw [joinRows, joinRows, ih]

end Select

end QinDB.Executor
