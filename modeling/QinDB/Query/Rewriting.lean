/-
# Query.Rewriting — statements that the rewriter leaves alone

The rewriter without constant folding: the statement is copied, and conjuncts of WHERE are taken
out of a statement with joins. What an execution shows is its answer and the file it writes.

* `rewriteKeepingConstants_same`: rewriting such a statement changes nothing that can be seen when
  no conjunct of WHERE is about the first table of a join alone.
* `executeParsed_exports_nothing`: no SELECT writes a file.
* `filter_and_file_lost`: a statement with such a conjunct, and one with INTO OUTFILE.
-/
import QinDB.Query.Joins

namespace QinDB.Query

open QinDB.Storage QinDB.Executor
open QinDB.Parser (Expression TableReference)
open QinDB.Server (IndexDef)

set_option autoImplicit false

/-- How a result is written to a file. -/
inductive ExportFormat where
  | JSON | XML | CSV
  deriving DecidableEq, Repr

/-- The format by its name in the statement; anything else is CSV. -/
def exportFormat (name : Identifier) : ExportFormat :=
  if name = "JSON".toList then .JSON
  else if name = "XML".toList then .XML
  else .CSV

section Rewriting

variable {V : Type}

/-! ## Execution without constant folding -/

variable (qt : Variant V) (ops : Operations V) (env : Environment V)

/-- `QueryRewriter::rewrite` with constant folding disabled. -/
def rewriteKeepingConstants (stmt : Parser.SelectStatement V) :
    Option (Parser.SelectStatement V) :=
  applyPredicatePushdown env (cloneSelectStatement stmt)

/-- The file that INTO OUTFILE writes: where, how, and from which result. -/
structure ExportedFile (V : Type) where
  path : Identifier
  format : ExportFormat
  result : Outcome V
  deriving DecidableEq

/-- The file of a statement with the given result; none when the result is a failure or cannot be
written. -/
def exportedFile (stmt : Parser.SelectStatement V) (result : Outcome V) :
    Option (ExportedFile V) :=
  if stmt.exportFilePath ≠ [] ∧ result.success ∧ env.exportsTo stmt.exportFilePath then
    some ⟨stmt.exportFilePath, exportFormat stmt.exportFormat, result⟩
  else none

/-- What `executeSelect` makes of the statement that the rewriter returned: the answer and the file
it writes. `none` where a null pointer is dereferenced for the name of a column. -/
def executeStatement (db : Database V) (session : TransactionId) (indexes : List IndexDef)
    (stmt : Parser.SelectStatement V) : Option (Outcome V × Option (ExportedFile V)) :=
  let executed := statement stmt (fullTextResults env indexes stmt)
  if executed.joins = [] ∧ executed.from_.bind db.getTable ≠ none ∧
      namesColumns env executed = false then none
  else
    let result := selectWith qt (expressionEvaluator qt ops) env.view db executed
      (foundRows qt env db session indexes stmt) (joinSource qt db)
    some (exportResult env.view executed result, exportedFile env stmt result)

/-- Pushdown has nothing to take out of WHERE, and nothing to log that has a null pointer in it. -/
def nothingPushed (stmt : Parser.SelectStatement V) : Bool :=
  match clause stmt.where_, stmt.from_, stmt.joins with
  | some where_, some table, join :: joins =>
      (splitConjuncts where_).all (fun pred =>
        !onlyReferencesTable (getEffectiveTableName table) pred) &&
      (join :: joins).all fun join =>
        logged env (getEffectiveTableName join.right) (splitConjuncts join.condition)
  | _, _, _ => true

variable {qt ops env} {stmt : Parser.SelectStatement V}

/-- Every SELECT is executed as the statement that the rewriter returned, and none writes a file. -/
theorem executeParsed_exports_nothing (db : Database V) (session : TransactionId)
    (indexes : List IndexDef) :
    (rewrite qt ops env stmt).bind (executeStatement qt ops env db session indexes) =
      (executeParsed qt ops env db session indexes stmt).map fun answer => (answer, none) := by
  rw [executeParsed]
  cases done : rewrite qt ops env stmt with
  | none => rfl
  | some stmt' =>
    have noFile (result : Outcome V) : exportedFile env stmt' result = none :=
      if_neg fun written => written.1 (rewrite_some done indexes).2.1
    simp only [executeStatement, Option.bind_some, noFile]
    split <;> rfl

theorem logged_of_others {tableName : Identifier} {predicates : List (Expression V)}
    (others : predicates.all (fun pred => !onlyReferencesTable tableName pred) = true) :
    logged env tableName predicates = true := by
  have none_found : predicates.filter (onlyReferencesTable tableName) = [] := by
    rw [List.filter_eq_nil_iff]
    intro pred mem
    have other := List.all_eq_true.mp others pred mem
    rw [Bool.not_eq_true'] at other
    rw [other]
    exact Bool.false_ne_true
  rw [logged, none_found, List.all_nil]

theorem applyPredicatePushdown_of_nothingPushed (nothing : nothingPushed env stmt = true) :
    applyPredicatePushdown env stmt = some stmt := by
  rw [applyPredicatePushdown]
  rw [nothingPushed] at nothing
  split
  · rename_i where_ table join joins isWhere isFrom isJoins
    simp only [isWhere, isFrom, isJoins, Bool.and_eq_true] at nothing
    have kept : (splitConjuncts where_).any
        (onlyReferencesTable (getEffectiveTableName table)) = false := by
      rw [← Bool.not_eq_true', ← nothing.1, List.not_any_eq_all_not]
    dsimp only
    rw [logged_of_others nothing.1, nothing.2, kept]
    rfl
  · rfl

/-- A statement without MATCH and INTO OUTFILE from whose WHERE nothing is taken out is executed
after rewriting as it would be before. -/
theorem rewriteKeepingConstants_same (db : Database V) (session : TransactionId)
    (indexes : List IndexDef) (plain : statementCopied stmt = true)
    (nothing : nothingPushed env stmt = true) :
    (rewriteKeepingConstants env stmt).bind (executeStatement qt ops env db session indexes) =
      executeStatement qt ops env db session indexes stmt := by
  rw [rewriteKeepingConstants, cloneSelectStatement_of_copied stmt plain,
    applyPredicatePushdown_of_nothingPushed nothing, Option.bind_some]

end Rewriting

namespace Literals

/-- `SELECT * FROM l CROSS JOIN r WHERE l.a = r.b`, on a row of each table. -/
theorem rewriteKeepingConstants_same_join :
    (rewriteKeepingConstants env (joining ⟨['l'], []⟩ [⟨.CROSS, ⟨['r'], []⟩, .null⟩]
        (.binary (.column ['l'] ['a']) .EQ (.column ['r'] ['b'])))).bind
      (executeStatement (cells conv) ops env (two [[.integer 1]]) INVALID_TXN_ID []) =
    executeStatement (cells conv) ops env (two [[.integer 1]]) INVALID_TXN_ID []
      (joining ⟨['l'], []⟩ [⟨.CROSS, ⟨['r'], []⟩, .null⟩]
        (.binary (.column ['l'] ['a']) .EQ (.column ['r'] ['b']))) :=
  rewriteKeepingConstants_same _ _ _ (by decide +kernel) (by decide +kernel)

/-- A row that WHERE leaves out is returned, and the file of INTO OUTFILE is not written. -/
theorem filter_and_file_lost :
    ((rewriteKeepingConstants env (joining ⟨['l'], []⟩ [⟨.CROSS, ⟨['r'], []⟩, .null⟩]
        (.binary (.column ['l'] ['a']) .EQ (.literal (.integer 5))))).bind
      (executeStatement (cells conv) ops env (two [[.integer 2]]) INVALID_TXN_ID []) =
        some (.selected ["l.a".toList, "r.b".toList] [[.integer 1, .integer 2]], none) ∧
    executeStatement (cells conv) ops env (two [[.integer 2]]) INVALID_TXN_ID []
      (joining ⟨['l'], []⟩ [⟨.CROSS, ⟨['r'], []⟩, .null⟩]
        (.binary (.column ['l'] ['a']) .EQ (.literal (.integer 5)))) =
        some (.selected ["l.a".toList, "r.b".toList] [], none)) ∧
    ((rewriteKeepingConstants env { everything ['l'] with exportFilePath := ['f'] }).bind
      (executeStatement (cells conv) ops env (two []) INVALID_TXN_ID []) =
        some (.selected [['a']] [[.integer 1]], none) ∧
    executeStatement (cells conv) ops env (two []) INVALID_TXN_ID []
      { everything ['l'] with exportFilePath := ['f'] } =
        some (.selected [['a']] [[.integer 1]],
          some ⟨['f'], .CSV, .selected [['a']] [[.integer 1]]⟩)) := by
  decide +kernel

end Literals

end QinDB.Query
