/-
# Query.Copies — statements whose meaning rewriting keeps

A statement without MATCH and INTO OUTFILE is copied as it is; when all constants in it can be
evaluated, folding them changes no value either.

* `cloneSelectStatement_of_copied`: such a statement is its copy.
* `executeParsed_single`: a SELECT of a single table on the pages.
-/
import QinDB.Query.Rewriter

namespace QinDB.Query

open QinDB.Storage QinDB.Executor
open QinDB.Parser (Expression)
open QinDB.Server (IndexDef)

set_option autoImplicit false

section Copies

variable {V : Type}

/-! ## Statements that are copied as they are -/

mutual

/-- An expression without MATCH, whose subqueries have neither MATCH nor INTO OUTFILE. -/
def copied : Expression V → Bool
  | .null | .literal _ | .column _ _ => true
  | .binary left _ right => copied left && copied right
  | .unary _ expr => copied expr
  | .aggregate _ argument _ => copied argument
  | .functionCall _ arguments => allCopied arguments
  | .case whenClauses elseExpression => whensCopied whenClauses && copied elseExpression
  | .subquery query => statementCopied query
  | .matchAgainst _ _ _ => false

def allCopied : List (Expression V) → Bool
  | [] => true
  | expr :: rest => copied expr && allCopied rest

def whensCopied : List (Expression V × Expression V) → Bool
  | [] => true
  | (condition, result) :: rest => copied condition && copied result && whensCopied rest

def joinsCopied : List (Parser.JoinClause V) → Bool
  | [] => true
  | ⟨_, _, condition⟩ :: rest => copied condition && joinsCopied rest

def groupByCopied : Option (Parser.GroupByClause V) → Bool
  | none => true
  | some ⟨expressions, having_⟩ => allCopied expressions && copied having_

def orderByCopied : List (Parser.OrderByItem V) → Bool
  | [] => true
  | ⟨expression, _⟩ :: rest => copied expression && orderByCopied rest

/-- A statement without MATCH and INTO OUTFILE. -/
def statementCopied : Parser.SelectStatement V → Bool
  | ⟨_, selectList, _, _, joins, where_, groupBy, orderBy, _, _, exportFilePath, exportFormat⟩ =>
      allCopied selectList && joinsCopied joins && copied where_ && groupByCopied groupBy &&
        orderByCopied orderBy && exportFilePath.isEmpty && exportFormat.isEmpty

end

mutual

theorem cloneExpression_of_copied : ∀ expr : Expression V, copied expr = true →
    cloneExpression expr = expr
  | .null, _ => by rw [cloneExpression]
  | .literal _, _ => by rw [cloneExpression]
  | .column _ _, _ => by rw [cloneExpression]
  | .binary left op right, plain => by
      rw [copied, Bool.and_eq_true] at plain
      rw [cloneExpression, cloneExpression_of_copied left plain.1,
        cloneExpression_of_copied right plain.2]
  | .unary op expr, plain => by
      rw [copied] at plain
      rw [cloneExpression, cloneExpression_of_copied expr plain]
  | .aggregate func argument distinct, plain => by
      rw [copied] at plain
      rw [cloneExpression, cloneExpression_of_copied argument plain]
  | .functionCall name arguments, plain => by
      rw [copied] at plain
      rw [cloneExpression, cloneAll_of_copied arguments plain]
  | .case whenClauses elseExpression, plain => by
      rw [copied, Bool.and_eq_true] at plain
      rw [cloneExpression, cloneWhens_of_copied whenClauses plain.1,
        cloneExpression_of_copied elseExpression plain.2]
  | .subquery query, plain => by
      rw [copied] at plain
      rw [cloneExpression, cloneSelectStatement_of_copied query plain]
  | .matchAgainst _ _ _, plain => by
      rw [copied] at plain
      cases plain

theorem cloneAll_of_copied : ∀ exprs : List (Expression V), allCopied exprs = true →
    cloneAll exprs = exprs
  | [], _ => by rw [cloneAll]
  | expr :: rest, plain => by
      rw [allCopied, Bool.and_eq_true] at plain
      rw [cloneAll, cloneExpression_of_copied expr plain.1, cloneAll_of_copied rest plain.2]

theorem cloneWhens_of_copied : ∀ whens : List (Expression V × Expression V),
    whensCopied whens = true → cloneWhens whens = whens
  | [], _ => by rw [cloneWhens]
  | (condition, result) :: rest, plain => by
      rw [whensCopied, Bool.and_eq_true, Bool.and_eq_true] at plain
      rw [cloneWhens, cloneExpression_of_copied condition plain.1.1,
        cloneExpression_of_copied result plain.1.2, cloneWhens_of_copied rest plain.2]

theorem cloneJoins_of_copied : ∀ joins : List (Parser.JoinClause V), joinsCopied joins = true →
    cloneJoins joins = joins
  | [], _ => by rw [cloneJoins]
  | ⟨_, _, condition⟩ :: rest, plain => by
      rw [joinsCopied, Bool.and_eq_true] at plain
      rw [cloneJoins, cloneExpression_of_copied condition plain.1,
        cloneJoins_of_copied rest plain.2]

theorem cloneGroupBy_of_copied : ∀ groupBy : Option (Parser.GroupByClause V),
    groupByCopied groupBy = true → cloneGroupBy groupBy = groupBy
  | none, _ => by rw [cloneGroupBy]
  | some ⟨expressions, having_⟩, plain => by
      rw [groupByCopied, Bool.and_eq_true] at plain
      rw [cloneGroupBy, cloneAll_of_copied expressions plain.1,
        cloneExpression_of_copied having_ plain.2]

theorem cloneOrderBy_of_copied : ∀ items : List (Parser.OrderByItem V), orderByCopied items = true →
    cloneOrderBy items = items
  | [], _ => by rw [cloneOrderBy]
  | ⟨expression, _⟩ :: rest, plain => by
      rw [orderByCopied, Bool.and_eq_true] at plain
      rw [cloneOrderBy, cloneExpression_of_copied expression plain.1,
        cloneOrderBy_of_copied rest plain.2]

theorem cloneSelectStatement_of_copied : ∀ stmt : Parser.SelectStatement V,
    statementCopied stmt = true → cloneSelectStatement stmt = stmt
  | ⟨_, selectList, _, _, joins, where_, groupBy, orderBy, _, _, exportFilePath, exportFormat⟩,
      plain => by
      simp only [statementCopied, Bool.and_eq_true, List.isEmpty_iff] at plain
      obtain ⟨⟨⟨⟨⟨⟨list, joined⟩, condition⟩, grouped⟩, ordered⟩, path⟩, format⟩ := plain
      rw [cloneSelectStatement, cloneAll_of_copied selectList list,
        cloneJoins_of_copied joins joined, cloneExpression_of_copied where_ condition,
        cloneGroupBy_of_copied groupBy grouped, cloneOrderBy_of_copied orderBy ordered, path,
        format]

end

/-! ## Constants that can be folded -/

variable {qt : Variant V} {ops : Operations V} {env : Environment V} {expr : Expression V}
  {parsed : Parser.SelectStatement V} {table : TableDef}

theorem foldSound_of_evaluates (evaluates : Throughout (ConstantEvaluates qt ops) expr) :
    FoldSound qt ops expr :=
  ((foldConstants_sound_iff expr).mpr evaluates).self

theorem clause_eq_some (given : expr ≠ .null) : clause expr = some expr := by
  cases expr with
  | null => exact absurd rfl given
  | _ => rfl

theorem foldConstants_ne_null (given : expr ≠ .null) : foldConstants qt ops expr ≠ .null := by
  cases expr with
  | binary | unary | functionCall =>
    simp only [foldConstants]
    split <;> exact nofun
  | null => exact absurd rfl given
  | _ => simp only [foldConstants]; exact nofun

/-- The statement with its constants folded. -/
def folded (qt : Variant V) (ops : Operations V) (parsed : Parser.SelectStatement V) :
    SelectStatement (Expression V) :=
  statement (applyConstantFolding qt ops parsed) none

/-! ## A single table -/

/-- `SELECT *` without a WHERE clause finds every row. -/
theorem filterProject_everything {E : Type} {ev : Evaluator V E} {view : Presentation V E}
    {stmt : SelectStatement E} (all : isSelectAll view stmt = true)
    (noWhere : stmt.whereClause = none) (rows : List (List V)) :
    filterProject qt ev view stmt table rows = .ok rows := by
  have passes (row : List V) : (if stmt.fullText.isSome then .ok true
      else matchesWhere qt ev table stmt.whereClause row) = .ok true := by
    rw [noWhere, matchesWhere, ite_self]
  induction rows with
  | nil => rfl
  | cons row rest ih =>
    rw [filterProject, passes, ih]
    simp only [all, if_true]

/-- No index of the list reports the invalid row id. -/
def Reports (env : Environment V) (indexes : List IndexDef) : Prop :=
  ∀ index ∈ indexes, ∀ key, env.lookup index key ≠ some INVALID_ROW_ID

theorem Reports.reportedRow_ne {indexes : List IndexDef} (reports : Reports env indexes)
    (table : TableDef) (where_ : Expression V) :
    reportedRow qt env table indexes where_ ≠ some INVALID_ROW_ID := by
  unfold reportedRow
  split
  · split
    · intro found
      obtain ⟨index, inside, reported⟩ := List.exists_of_findSome?_eq_some found
      exact reports index (List.mem_filter.mp inside).1 _ reported
    · exact nofun
  · exact nofun

theorem executeParsed_single {db : Database V} {indexes : List IndexDef}
    {from_ : Parser.TableReference} (copied : statementCopied parsed = true)
    (source : parsed.from_ = some from_) (alone : parsed.joins = [])
    (known : db.getTable from_.tableName = some table) (reports : Reports env indexes)
    (session : TransactionId) :
    executeParsed qt ops env db session indexes parsed =
      if namesColumns env (folded qt ops parsed) = false then none
      else some (match filterProject qt (expressionEvaluator qt ops) env.view
          (folded qt ops parsed) table (selectRows qt db table session none) with
        | .error error => .failed error
        | .ok rows => finishSelect qt (expressionEvaluator qt ops) env.view (folded qt ops parsed)
            table (columnNames env.view (folded qt ops parsed) table, rows)) := by
  have done : rewrite qt ops env parsed = some (applyConstantFolding qt ops parsed) := by
    have joins : (applyConstantFolding qt ops parsed).joins = [] := by
      rw [applyConstantFolding, alone]
      rfl
    rw [rewrite, cloneSelectStatement_of_copied parsed copied, applyPredicatePushdown]
    split
    · rename_i more
      cases joins.symm.trans more
    · rfl
  have scanned : scannedRows qt env db session indexes (applyConstantFolding qt ops parsed).where_
      table = selectRows qt db table session none :=
    if_neg (reports.reportedRow_ne table _)
  have fromName : (folded qt ops parsed).from_ = some from_.tableName := by
    simp only [folded, statement, applyConstantFolding, source, Option.map_some]
  have joins : (folded qt ops parsed).joins = [] := by
    simp only [folded, statement, applyConstantFolding, alone, List.map_nil]
  rw [executeParsed_eq done, ← folded, selectWith]
  cases projected : filterProject qt (expressionEvaluator qt ops) env.view (folded qt ops parsed)
      table (selectRows qt db table session none) <;>
    simp only [fromName, joins, Option.bind_some, known, scanned, projected, true_and, ne_eq,
      reduceCtorEq, not_false_eq_true]

end Copies

end QinDB.Query
