/-
# Query.ParsedSelect — a parsed SELECT and its indexes

What `executeSelect` reads of the statement that the parser built. A null pointer for WHERE or ON
is a clause that is not there. Before a single table is scanned its indexes are asked: a full-text
index for a WHERE clause that is a MATCH, and a B+ tree for one that compares a column with a
literal. The first index that finds the literal ends the search; the row it reports is not used,
but when it is the invalid row id zero the table is not scanned at all.

The column names of a single-table SELECT are texts of its expressions, so a null pointer in the
select list is dereferenced (`namesColumns`).
-/
import Mathlib.Data.List.Sort
import QinDB.Executor.Session
import QinDB.Query.Expression
import QinDB.Server.DatabaseManager

namespace QinDB.Query

open QinDB.Core QinDB.Storage QinDB.Executor
open QinDB.Parser (Expression MatchMode)
open QinDB.Server (IndexDef)

set_option autoImplicit false

/-- What is asked of texts, sorting and files, and of the indexes. A lookup in a B+ tree reports
the row id it finds. -/
structure Environment (V : Type) where
  valueText : V → Identifier
  ofText : Identifier → V
  ofCount : Nat → V
  textLess : Identifier → Identifier → Bool
  compare : V → V → Option Ordering
  sort : (List V → List V → Bool) → List (List V) → List (List V)
  exportsTo : Identifier → Bool
  lookup : IndexDef → V → Option RowId
  searchText : IndexDef → Identifier → MatchMode → Int → List RowId

section ParsedSelect

variable {V : Type} (qt : Variant V) (env : Environment V)

def Environment.view : Presentation V (Expression V) where
  columnName := fun expr =>
    match expr with
    | .column _ column => some column
    | _ => none
  exprText := fun expr => (expr.toString env.valueText).getD []
  valueText := env.valueText
  ofText := env.ofText
  ofCount := env.ofCount
  textLess := env.textLess
  compare := env.compare
  sort := env.sort
  exportsTo := env.exportsTo

/-- A clause whose pointer is not null. -/
def clause : Expression V → Option (Expression V)
  | .null => none
  | expr => some expr

/-- The statement as the executor goes through it; `distinct`, `offset`, the kinds of the joins and
HAVING are never read. -/
def statement (stmt : Parser.SelectStatement V) (fullText : Option (List RowId)) :
    SelectStatement (Expression V) where
  from_ := stmt.from_.map (·.tableName)
  joins := stmt.joins.map fun join => ⟨join.right.tableName, clause join.condition⟩
  selectList := stmt.selectList
  selectAliases := stmt.selectAliases
  whereClause := clause stmt.where_
  fullText := fullText
  groupBy := stmt.groupBy.map (·.expressions)
  orderBy := stmt.orderBy.map fun item => ⟨item.expression, item.ascending⟩
  limit := stmt.limit.toNat
  exportFilePath := if stmt.exportFilePath = [] then none else some stmt.exportFilePath

/-! ## Asking the indexes -/

/-- The only column of an index, whatever its letter case. -/
def onColumn (column : Identifier) (index : IndexDef) : Bool :=
  match index.columns with
  | [name] => decide (name.toLower = column.toLower)
  | _ => false

/-- The answer of the first full-text index on the first column of a MATCH. -/
def fullTextResults (indexes : List IndexDef) (stmt : Parser.SelectStatement V) :
    Option (List RowId) :=
  match stmt.where_ with
  | .matchAgainst (column :: _) query mode =>
      (indexes.find? fun index => index.indexType = .FULLTEXT && onColumn column index).map
        fun index => env.searchText index query mode stmt.limit
  | _ => none

/-- The row that the first successful lookup reports for a WHERE clause `column = literal`. -/
def reportedRow (table : TableDef) (indexes : List IndexDef) : Expression V → Option RowId
  | .binary (.column _ column) .EQ (.literal key) =>
      if (table.columns.any fun definition => definition.name.toLower = column.toLower) &&
          !qt.isNull key then
        (indexes.filter (onColumn column)).findSome? fun index => env.lookup index key
      else none
  | _ => none

/-! ## Texts -/

/-- Whether the names of the columns can be written without going through a null pointer. -/
def namesColumns (stmt : SelectStatement (Expression V)) : Bool :=
  isSelectAll env.view stmt ||
    stmt.selectList.zipIdx.all fun (expr, index) =>
      (match stmt.selectAliases[index]? with | some (_ :: _) => true | _ => false) ||
        (expr.toString env.valueText).isSome

end ParsedSelect

namespace Literals

/-- Integers, and texts that are no numbers: Qt converts all of these to zero. -/
def env : Environment Cell where
  valueText := fun value =>
    match value with
    | .integer value => (toString value.toInt).toList
    | .text value => value.units.map fun unit => Char.ofNat unit.toNat
    | _ => []
  ofText := fun _ => .null
  ofCount := fun count => .integer (Int64.ofNat count)
  textLess := fun left right => decide (left < right)
  compare := fun left right =>
    match left, right with
    | .integer left, .integer right => some (compare left.toInt right.toInt)
    | _, _ => some .eq
  sort := fun less rows => rows.insertionSort fun earlier later => less later earlier = false
  exportsTo := fun _ => true
  lookup := fun _ _ => none
  searchText := fun _ _ _ _ => []

/-- A table with the given rows. -/
def storing (name : Identifier) (columns : List ColumnDef) (rows : List (List Cell))
    (db : Database Cell) : Database Cell :=
  (executeInsert (cells conv) (expressionEvaluator (cells conv) ops) true INVALID_TXN_ID
    ⟨name, rows.map (·.map .literal)⟩ (executeCreateTable name columns db).2).2

/-- `SELECT * FROM name`. -/
def everything (name : Identifier) : Parser.SelectStatement Cell :=
  { distinct := false, selectList := [.column [] ['*']], selectAliases := [],
    from_ := some ⟨name, []⟩, joins := [], where_ := .null, groupBy := none, orderBy := [],
    limit := -1, offset := -1, exportFilePath := [], exportFormat := [] }

end Literals

end QinDB.Query
