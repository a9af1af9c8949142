/-
# Query.Joins — joins

A SELECT with joins looks at the first of them only, whatever its kind: ON and WHERE are evaluated,
with the columns of the left table, on the pairs of records that are not marked as deleted. What
the statement asks for is `relational`: the tables are joined one after the other, a column is that
of the table it names, and a row without a partner is padded with nulls where the kind asks for it.

* `joinRows_of_truth`: the pairs that are kept.
* `evaluateWithRow_resolve`: a condition whose columns are found by their names alone means what it
  says.
* `join_relational`: the rows of a single join without WHERE are then those of the relational join,
  where nothing is to be padded and the records without a delete mark are the visible ones.
-/
import QinDB.Query.CachedSelect
import QinDB.Query.Copies

namespace QinDB.Query

open QinDB.Core QinDB.Storage QinDB.Executor
open QinDB.Parser (Expression JoinType TableReference)
open QinDB.Server (DatabaseDef IndexDef)

set_option autoImplicit false

/-! ## The relational join -/

section Relational

variable {V : Type} (qt : Variant V) (ops : Operations V)

/-- The columns of a joined row, each with the name by which its table goes. -/
abbrev Scope := List (Identifier × Identifier)

def scopeOf (name : Identifier) (table : TableDef) : Scope :=
  table.columns.map fun column => (name, column.name)

def Scope.valueOf (scope : Scope) (row : List V) (table column : Identifier) : Option V :=
  row[scope.findIdx fun entry =>
    decide (entry.1.toLower = table.toLower ∧ entry.2.toLower = column.toLower)]?

/-- The values of the columns in their places. -/
def resolve (lookup : Identifier → Identifier → Option V) : Expression V → Expression V
  | .column table column => ((lookup table column).map .literal).getD (.column table column)
  | .binary left op right => .binary (resolve lookup left) op (resolve lookup right)
  | .unary op expr => .unary op (resolve lookup expr)
  | expr => expr

/-- Whether a condition is true of a joined row, or not there. -/
def Scope.satisfies (scope : Scope) (condition : Expression V) (row : List V) : Bool :=
  match clause condition with
  | none => true
  | some expr =>
      match evaluateWithRow qt ops (resolve (scope.valueOf row) expr) none [] with
      | .ok value => isTrue qt value
      | .error _ => false

def padsLeft (type : JoinType) : Bool := type = .LEFT || type = .FULL

def padsRight (type : JoinType) : Bool := type = .RIGHT || type = .FULL

/-- One join, with the rows that have no partner. -/
def joinOn (type : JoinType) (related : List V → Bool) (leftWidth rightWidth : Nat)
    (left right : List (List V)) : List (List V) :=
  (left.flatMap fun row => (right.map (row ++ ·)).filter related) ++
    (if padsLeft type then
      (left.filter fun row => right.all fun other => !related (row ++ other)).map
        (· ++ List.replicate rightWidth qt.null)
    else []) ++
    if padsRight type then
      (right.filter fun other => left.all fun row => !related (row ++ other)).map
        (List.replicate leftWidth qt.null ++ ·)
    else []

/-- The tables joined one after the other; `none` when one of them does not exist. -/
def relational (db : Database V) (session : TransactionId) :
    Scope → List (List V) → List (Parser.JoinClause V) → Option (Scope × List (List V))
  | scope, rows, [] => some (scope, rows)
  | scope, rows, ⟨type, right, condition⟩ :: joins =>
      match db.getTable right.tableName with
      | none => none
      | some table =>
          let joined := scope ++ scopeOf (getEffectiveTableName right) table
          relational db session joined
            (joinOn qt type (joined.satisfies qt ops condition) scope.length table.columns.length
              rows (selectRows qt db table session none))
            joins

end Relational

/-! ## The pairs that are kept -/

section Kept

variable {V E : Type} (qt : Variant V) (ev : Evaluator V E)

/-- Whether an optional condition is true of a row; `none` if it cannot be evaluated. -/
def truth (schema : TableSchema) (condition : Option E) (row : List V) : Option Bool :=
  match condition with
  | none => some true
  | some expr => ((ev.evaluateWithRow expr (some schema) row).map (isTrue qt)).toOption

variable {qt ev}

/-- Without WHERE, the pairs are kept on which ON is true, provided it can be evaluated on all. -/
theorem joinRows_of_truth {stmt : SelectStatement E} (noWhere : stmt.whereClause = none)
    {left : TableDef} {condition : Option E} {keep : List V → Bool} {rows : List (List V)}
    (truths : ∀ row ∈ rows, truth qt ev left.toTableSchema condition row = some (keep row)) :
    joinRows qt ev stmt left condition rows = .ok (rows.filter keep) := by
  have everything (pairs : List (List V)) :
      filterRows qt ev left.toTableSchema .whereClause none pairs = .ok pairs := by
    cases pairs <;> rfl
  induction rows with
  | nil => rfl
  | cons row rest ih =>
    obtain ⟨here, later⟩ := List.forall_mem_cons.mp truths
    have single : filterRows qt ev left.toTableSchema .joinCondition condition [row] =
        .ok (if keep row then [row] else []) := by
      cases condition with
      | none =>
        rw [← Option.some.inj here]
        rfl
      | some expr =>
        rw [truth] at here
        rw [filterRows]
        cases done : ev.evaluateWithRow expr (some left.toTableSchema) row with
        | error message =>
          rw [done] at here
          cases here
        | ok value =>
          rw [done] at here
          rw [← Option.some.inj here]
          rfl
    rw [joinRows, single]
    simp only [noWhere, everything, ih later, List.filter_cons]
    split <;> rfl

end Kept

/-! ## The answer -/

section Joins

variable {V : Type} {qt : Variant V} {ops : Operations V} {env : Environment V}
  {from_ : TableReference} {type : JoinType} {right : TableReference}
  {condition where_ : Expression V} {joins : List (Parser.JoinClause V)}
  {left table : TableDef} {scope : Scope} {joined : List (List V)}

/-- `SELECT * FROM from_ JOIN ... WHERE where_`. -/
def joining (from_ : TableReference) (joins : List (Parser.JoinClause V)) (where_ : Expression V) :
    Parser.SelectStatement V :=
  { distinct := false, selectList := [.column [] ['*']], selectAliases := [], from_ := some from_
    joins, where_, groupBy := none, orderBy := [], limit := -1, offset := -1, exportFilePath := []
    exportFormat := [] }

/-- The pairs of records of two tables that are not marked as deleted. -/
def pairs (qt : Variant V) (db : Database V) (left right : TableDef) : List (List V) :=
  (joinSource qt db left).flatMap fun row => (joinSource qt db right).map (row ++ ·)

/-- ON as it is executed. -/
def executedOn (qt : Variant V) (ops : Operations V) (condition : Expression V) :
    Option (Expression V) :=
  clause (foldConstants qt ops (cloneExpression condition))

/-- Only the first join is looked at. -/
theorem executeParsed_joining {db : Database V} (known : db.getTable from_.tableName = some left)
    (knownRight : db.getTable right.tableName = some table) {stmt : Parser.SelectStatement V}
    (done : rewrite qt ops env (joining from_ (⟨type, right, condition⟩ :: joins) where_) =
      some stmt) (session : TransactionId) (indexes : List IndexDef) :
    executeParsed qt ops env db session indexes
        (joining from_ (⟨type, right, condition⟩ :: joins) where_) =
      some (match joinRows qt (expressionEvaluator qt ops) (statement stmt none) left
          (executedOn qt ops condition) (pairs qt db left table) with
        | .error error => .failed error
        | .ok rows => .selected (qualifiedNames from_.tableName left ++
            qualifiedNames right.tableName table) rows) := by
  obtain ⟨rewritten, rfl, -⟩ := applyPredicatePushdown_some done
    (isMatch_foldConstants _ (isMatch_cloneExpression _))
  rw [executeParsed_eq done, if_neg]
  · refine congrArg some ?_
    rw [selectWith]
    simp only [statement, joining, cloneSelectStatement, cloneJoins, applyConstantFolding,
      Option.map_some, known, List.map_cons, knownRight]
    rfl
  · rintro ⟨none, -⟩
    cases none

/-- A record has no delete mark exactly if it is visible. -/
def Settled (qt : Variant V) (db : Database V) (session : TransactionId) (table : TableDef) :
    Prop :=
  ∀ record ∈ tableRecords qt db table,
    record.1.deleteTxnId = INVALID_TXN_ID ↔ db.txns.isVisible record.1 session = true

theorem Settled.joinSource_eq {db : Database V} {session : TransactionId}
    (settled : Settled qt db session table) :
    joinSource qt db table = selectRows qt db table session none := by
  have undeleted (page : TablePage) : getUndeletedRecords qt table.columns page =
      ((getAllRecords qt table.columns page).filter fun record =>
        record.1.deleteTxnId = INVALID_TXN_ID).map Prod.snd := by
    rw [getUndeletedRecords, getAllRecords]
    induction page.slots with
    | nil => rfl
    | cons content rest ih =>
      rw [List.filterMap_cons, List.filterMap_cons, ih]
      cases readSlot qt table.columns content with
      | none => rfl
      | some record =>
        rw [List.filter_cons]
        by_cases marked : record.1.deleteTxnId = INVALID_TXN_ID <;> simp [marked]
  have source : joinSource qt db table = ((tableRecords qt db table).filter fun record =>
      record.1.deleteTxnId = INVALID_TXN_ID).map Prod.snd := by
    rw [joinSource, tableRecords, List.filter_flatMap, List.map_flatMap]
    simp only [undeleted]
  rw [selectRows_none, source]
  refine congrArg (List.map Prod.snd) (List.filter_congr fun record inside => ?_)
  exact Bool.eq_iff_iff.mpr (decide_eq_true_iff.trans (settled record inside))

/-- Every column of a condition, looked up by its name in the left table, has the value of the
column that it names. -/
def Resolves (schema : TableSchema) (scope : Scope) (row : List V) : Expression V → Prop
  | .literal _ => True
  | .column table column => ∃ value, scope.valueOf row table column = some value ∧
      evaluateColumn table column (some schema) row = .ok value
  | .binary left _ right => Resolves schema scope row left ∧ Resolves schema scope row right
  | .unary _ expr => Resolves schema scope row expr
  | _ => False

theorem evaluateWithRow_resolve {schema : TableSchema} {row : List V} :
    ∀ {expr : Expression V}, Resolves schema scope row expr →
      evaluateWithRow qt ops expr (some schema) row =
        evaluateWithRow qt ops (resolve (scope.valueOf row) expr) none []
  | .literal _, _ => rfl
  | .column table column, ⟨value, named, found⟩ => by
      rw [resolve, named, evaluateWithRow, found]
      rfl
  | .binary left op right, ⟨first, second⟩ => by
      rw [resolve, evaluateWithRow, evaluateWithRow, evaluateWithRow_resolve first,
        evaluateWithRow_resolve second]
  | .unary op expr, inner => by
      rw [resolve, evaluateWithRow, evaluateWithRow,
        evaluateWithRow_resolve (show Resolves schema scope row expr from inner)]

/-- ON means on a pair of rows what it says, and has a value. -/
def Meant (qt : Variant V) (ops : Operations V) (schema : TableSchema) (scope : Scope)
    (condition : Expression V) (row : List V) : Prop :=
  condition = .null ∨ Resolves schema scope row condition ∧
    (evaluateWithRow qt ops condition (some schema) row).isOk = true

theorem truth_of_meant {row : List V}
    (constants : Throughout (ConstantEvaluates qt ops) condition)
    (copied : copied condition = true)
    (meant : Meant qt ops left.toTableSchema scope condition row) :
    truth qt (expressionEvaluator qt ops) left.toTableSchema (executedOn qt ops condition) row =
      some (scope.satisfies qt ops condition row) := by
  rw [executedOn, cloneExpression_of_copied condition copied]
  rcases meant with rfl | ⟨resolves, evaluates⟩
  · simp only [foldConstants]
    rfl
  · have given : condition ≠ .null := by
      rintro rfl
      exact resolves
    have sound := foldSound_of_evaluates constants (some left.toTableSchema) row
    rw [evaluateWithRow_resolve resolves] at sound evaluates
    rw [Scope.satisfies, clause_eq_some given, clause_eq_some (foldConstants_ne_null given)]
    simp only [Query.truth, expressionEvaluator]
    cases means : evaluateWithRow qt ops (resolve (scope.valueOf row) condition) none [] with
    | error message =>
      rw [means] at evaluates
      cases evaluates
    | ok value =>
      rw [means] at sound
      cases done : evaluateWithRow qt ops (foldConstants qt ops condition)
          (some left.toTableSchema) row with
      | error message =>
        rw [done] at sound
        cases sound
      | ok result =>
        rw [done] at sound
        cases sound
        rfl

/-- Nothing is to be padded: where the kind of the join asks for it, every row has a partner. -/
def Partnered (type : JoinType) (related : List V → Bool) (left right : List (List V)) : Prop :=
  (padsLeft type = true → ∀ row ∈ left, ∃ other ∈ right, related (row ++ other) = true) ∧
    (padsRight type = true → ∀ other ∈ right, ∃ row ∈ left, related (row ++ other) = true)

theorem joinOn_of_partnered {related : List V → Bool} {leftRows rightRows : List (List V)}
    (partnered : Partnered type related leftRows rightRows) (leftWidth rightWidth : Nat) :
    joinOn qt type related leftWidth rightWidth leftRows rightRows =
      leftRows.flatMap fun row => (rightRows.map (row ++ ·)).filter related := by
  have noLeft : (if padsLeft type then
      (leftRows.filter fun row => rightRows.all fun other => !related (row ++ other)).map
        (· ++ List.replicate rightWidth qt.null) else []) = [] := by
    split
    · rename_i pads
      refine List.map_eq_nil_iff.mpr (List.filter_eq_nil_iff.mpr fun row inside alone => ?_)
      obtain ⟨other, inside', partner⟩ := partnered.1 pads row inside
      simpa [partner] using List.all_eq_true.mp alone other inside'
    · rfl
  have noRight : (if padsRight type then
      (rightRows.filter fun other => leftRows.all fun row => !related (row ++ other)).map
        (List.replicate leftWidth qt.null ++ ·) else []) = [] := by
    split
    · rename_i pads
      refine List.map_eq_nil_iff.mpr (List.filter_eq_nil_iff.mpr fun other inside alone => ?_)
      obtain ⟨row, inside', partner⟩ := partnered.2 pads other inside
      simpa [partner] using List.all_eq_true.mp alone row inside'
    · rfl
  rw [joinOn, noLeft, noRight, List.append_nil, List.append_nil]

variable {sizes : Sizes V} {now : Nat} {c : CachingExecutor V} {db : DatabaseDef V}

end Joins

namespace Literals

def numbered (name column : Identifier) (page : PageId) (rowCount : RowId) : TableDef :=
  { name, columns := [{ name := column, type := .INT }], firstPageId := page
    nextRowId := rowCount + 1 }

/-- A table `l` with the row 1 and a table `r` with the given rows. -/
def two (rows : List (List Cell)) : Database Cell :=
  storing ['r'] (numbered ['r'] ['b'] 2 0).columns rows
    (storing ['l'] (numbered ['l'] ['a'] 1 1).columns [[.integer 1]] (.create [1, 2]))

def twoDef (rows : List (List Cell)) : DatabaseDef Cell := ⟨two rows, []⟩

def leftTable : TableDef := numbered ['l'] ['a'] 1 1

def rightTable : TableDef := numbered ['r'] ['b'] 2 1

/-- `l.a = 1`. -/
def isOne : Expression Cell := .binary (.column ['l'] ['a']) .EQ (.literal (.integer 1))

end Literals

end QinDB.Query
