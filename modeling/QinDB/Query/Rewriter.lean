/-
# Query.Rewriter — the query rewriter and the statement it leaves

`QueryRewriter::rewrite`, which every SELECT goes through first. The statement is copied; the copy
has no INTO OUTFILE clause, and a null pointer in place of every MATCH. Constants are folded. In a
statement with joins the conjuncts of WHERE that mention no other table than the first are taken
out of it; nothing applies them. Their texts are written to a log, where a null pointer inside one
of them is dereferenced. Column pruning and subquery unnesting change nothing.
-/
import QinDB.Query.ConstantFolding
import QinDB.Query.ParsedSelect

namespace QinDB.Query

open QinDB.Storage QinDB.Executor
open QinDB.Parser (Expression TableReference)
open QinDB.Server (IndexDef)

set_option autoImplicit false

section Rewriting

variable {V : Type}

/-! ## Copies -/

mutual

/-- MATCH is not among the kinds of expressions that are copied. -/
def cloneExpression : Expression V → Expression V
  | .null => .null
  | .literal value => .literal value
  | .column table column => .column table column
  | .binary left op right => .binary (cloneExpression left) op (cloneExpression right)
  | .unary op expr => .unary op (cloneExpression expr)
  | .aggregate func argument distinct => .aggregate func (cloneExpression argument) distinct
  | .functionCall name arguments => .functionCall name (cloneAll arguments)
  | .case whenClauses elseExpression =>
      .case (cloneWhens whenClauses) (cloneExpression elseExpression)
  | .subquery query => .subquery (cloneSelectStatement query)
  | .matchAgainst _ _ _ => .null

def cloneAll : List (Expression V) → List (Expression V)
  | [] => []
  | expr :: rest => cloneExpression expr :: cloneAll rest

def cloneWhens : List (Expression V × Expression V) → List (Expression V × Expression V)
  | [] => []
  | (condition, result) :: rest =>
      (cloneExpression condition, cloneExpression result) :: cloneWhens rest

def cloneJoins : List (Parser.JoinClause V) → List (Parser.JoinClause V)
  | [] => []
  | ⟨type, right, condition⟩ :: rest => ⟨type, right, cloneExpression condition⟩ :: cloneJoins rest

def cloneGroupBy : Option (Parser.GroupByClause V) → Option (Parser.GroupByClause V)
  | none => none
  | some ⟨expressions, having_⟩ => some ⟨cloneAll expressions, cloneExpression having_⟩

def cloneOrderBy : List (Parser.OrderByItem V) → List (Parser.OrderByItem V)
  | [] => []
  | ⟨expression, ascending⟩ :: rest => ⟨cloneExpression expression, ascending⟩ :: cloneOrderBy rest

def cloneSelectStatement : Parser.SelectStatement V → Parser.SelectStatement V
  | ⟨distinct, selectList, selectAliases, from_, joins, where_, groupBy, orderBy, limit, offset,
      _, _⟩ =>
      ⟨distinct, cloneAll selectList, selectAliases, from_, cloneJoins joins,
        cloneExpression where_, cloneGroupBy groupBy, cloneOrderBy orderBy, limit, offset, [], []⟩

end

/-! ## Constant folding and predicate pushdown -/

variable (qt : Variant V) (ops : Operations V) (env : Environment V)

def applyConstantFolding (stmt : Parser.SelectStatement V) : Parser.SelectStatement V :=
  { stmt with
    where_ := foldConstants qt ops stmt.where_
    selectList := stmt.selectList.map (foldConstants qt ops)
    joins := stmt.joins.map fun join =>
      { join with condition := foldConstants qt ops join.condition }
    groupBy := stmt.groupBy.map fun clause =>
      { clause with having_ := foldConstants qt ops clause.having_ }
    orderBy := stmt.orderBy.map fun item =>
      { item with expression := foldConstants qt ops item.expression } }

def getEffectiveTableName (table : TableReference) : Identifier :=
  if table.alias_ = [] then table.tableName else table.alias_

def splitConjuncts : Expression V → List (Expression V)
  | .null => []
  | .binary left .AND right => splitConjuncts left ++ splitConjuncts right
  | expr => [expr]

mutual

/-- A column without a table is taken for one of this table. -/
def onlyReferencesTable (tableName : Identifier) : Expression V → Bool
  | .null | .literal _ => true
  | .column table _ => table = [] || table = tableName
  | .binary left _ right =>
      onlyReferencesTable tableName left && onlyReferencesTable tableName right
  | .unary _ expr => onlyReferencesTable tableName expr
  | .aggregate _ argument _ => onlyReferencesTable tableName argument
  | .functionCall _ arguments => allReference tableName arguments
  | .case whenClauses elseExpression =>
      whensReference tableName whenClauses && onlyReferencesTable tableName elseExpression
  | .subquery _ | .matchAgainst _ _ _ => false

def allReference (tableName : Identifier) : List (Expression V) → Bool
  | [] => true
  | expr :: rest => onlyReferencesTable tableName expr && allReference tableName rest

def whensReference (tableName : Identifier) : List (Expression V × Expression V) → Bool
  | [] => true
  | (condition, result) :: rest =>
      onlyReferencesTable tableName condition && onlyReferencesTable tableName result &&
        whensReference tableName rest

end

def combinePredicates : List (Expression V) → Expression V
  | [] => .null
  | pred :: rest =>
      rest.foldl (fun combined pred => .binary combined .AND (cloneExpression pred))
        (cloneExpression pred)

/-- The texts of the predicates that are found to be about one table. -/
def logged (tableName : Identifier) (predicates : List (Expression V)) : Bool :=
  (predicates.filter (onlyReferencesTable tableName)).all fun pred =>
    (pred.toString env.valueText).isSome

/-- `none` where the log goes through a null pointer. -/
def applyPredicatePushdown (stmt : Parser.SelectStatement V) :
    Option (Parser.SelectStatement V) :=
  match clause stmt.where_, stmt.from_, stmt.joins with
  | some where_, some table, join :: joins =>
      let mainTable := getEffectiveTableName table
      let predicates := splitConjuncts where_
      if logged env mainTable predicates && (join :: joins).all fun join =>
          logged env (getEffectiveTableName join.right) (splitConjuncts join.condition) then
        some (if predicates.any (onlyReferencesTable mainTable) then
            { stmt with where_ :=
                combinePredicates (predicates.filter fun pred =>
                  !onlyReferencesTable mainTable pred) }
          else stmt)
      else none
  | _, _, _ => some stmt

def rewrite (stmt : Parser.SelectStatement V) : Option (Parser.SelectStatement V) :=
  applyPredicatePushdown env (applyConstantFolding qt ops (cloneSelectStatement stmt))

/-! ## The statement as it is executed -/

/-- The rows of a single table; none when an index reports the invalid row id. -/
def foundRows (db : Database V) (session : TransactionId) (indexes : List IndexDef)
    (stmt : Parser.SelectStatement V) (table : TableDef) : List (List V) :=
  let fullText := fullTextResults env indexes stmt
  if fullText = none ∧ reportedRow qt env table indexes stmt.where_ = some INVALID_ROW_ID then []
  else selectRows qt db table session fullText

/-- The answer to a parsed SELECT, with both caches off; `none` where a null pointer is
dereferenced, in the log or for the name of a column. -/
def executeParsed (db : Database V) (session : TransactionId) (indexes : List IndexDef)
    (parsed : Parser.SelectStatement V) : Option (Outcome V) :=
  match rewrite qt ops env parsed with
  | none => none
  | some stmt =>
      let executed := statement stmt (fullTextResults env indexes stmt)
      if executed.joins = [] ∧ executed.from_.bind db.getTable ≠ none ∧
          namesColumns env executed = false then none
      else some (exportResult env.view executed
        (selectWith qt (expressionEvaluator qt ops) env.view db executed
          (foundRows qt env db session indexes stmt) (joinSource qt db)))

/-! ## What rewriting leaves -/

variable {qt ops env} {stmt stmt' : Parser.SelectStatement V}

def isMatch : Expression V → Bool
  | .matchAgainst _ _ _ => true
  | _ => false

theorem isMatch_cloneExpression (expr : Expression V) : isMatch (cloneExpression expr) = false := by
  cases expr <;> simp [cloneExpression, isMatch]

theorem isMatch_foldConstants (expr : Expression V) (other : isMatch expr = false) :
    isMatch (foldConstants qt ops expr) = false := by
  cases expr with
  | binary | unary | functionCall =>
    simp only [foldConstants]
    split <;> rfl
  | matchAgainst => cases other
  | _ => simp only [foldConstants, isMatch]

theorem isMatch_combinePredicates (predicates : List (Expression V)) :
    isMatch (combinePredicates predicates) = false := by
  cases predicates with
  | nil => rfl
  | cons pred rest =>
    rw [combinePredicates]
    generalize first : cloneExpression pred = combined
    have start : isMatch combined = false := first ▸ isMatch_cloneExpression pred
    clear first
    induction rest generalizing combined with
    | nil => exact start
    | cons next rest ih => exact ih _ rfl

/-- Pushdown may only change WHERE, and never to a MATCH. -/
theorem applyPredicatePushdown_some (done : applyPredicatePushdown env stmt = some stmt')
    (other : isMatch stmt.where_ = false) :
    ∃ where_, stmt' = { stmt with where_ } ∧ isMatch where_ = false := by
  cases stmt
  rw [applyPredicatePushdown] at done
  split at done
  · dsimp only at done
    split at done
    · cases done
      split
      · exact ⟨_, rfl, isMatch_combinePredicates _⟩
      · exact ⟨_, rfl, other⟩
    · cases done
  · cases done
    exact ⟨_, rfl, other⟩

theorem fullTextResults_eq_none (indexes : List IndexDef) (other : isMatch stmt.where_ = false) :
    fullTextResults env indexes stmt = none := by
  rw [fullTextResults]
  split
  · rename_i same
    rw [same] at other
    cases other
  · rfl

/-- No full-text index is asked for a rewritten statement, and its answer is not exported. -/
theorem rewrite_some (done : rewrite qt ops env stmt = some stmt') (indexes : List IndexDef) :
    fullTextResults env indexes stmt' = none ∧ stmt'.exportFilePath = [] ∧
      stmt'.limit = stmt.limit := by
  cases stmt
  rw [rewrite, cloneSelectStatement] at done
  obtain ⟨where_, rfl, other⟩ := applyPredicatePushdown_some done
    (isMatch_foldConstants _ (isMatch_cloneExpression _))
  exact ⟨fullTextResults_eq_none indexes other, rfl, rfl⟩

variable (qt env) in
/-- The rows of a single table without a full-text index. -/
def scannedRows (db : Database V) (session : TransactionId) (indexes : List IndexDef)
    (where_ : Expression V) (table : TableDef) : List (List V) :=
  if reportedRow qt env table indexes where_ = some INVALID_ROW_ID then []
  else selectRows qt db table session none

theorem executeParsed_eq (done : rewrite qt ops env stmt = some stmt') (db : Database V)
    (session : TransactionId) (indexes : List IndexDef) :
    executeParsed qt ops env db session indexes stmt =
      if (statement stmt' none).joins = [] ∧ (statement stmt' none).from_.bind db.getTable ≠ none ∧
          namesColumns env (statement stmt' none) = false then none
      else some (selectWith qt (expressionEvaluator qt ops) env.view db (statement stmt' none)
        (scannedRows qt env db session indexes stmt'.where_) (joinSource qt db)) := by
  obtain ⟨noText, noFile, -⟩ := rewrite_some done indexes
  have found : foundRows qt env db session indexes stmt' =
      scannedRows qt env db session indexes stmt'.where_ := by
    funext table
    simp only [foundRows, scannedRows, noText, true_and]
  rw [executeParsed, done]
  simp only [noText, found, exportResult, statement, noFile, if_true]

end Rewriting

end QinDB.Query
