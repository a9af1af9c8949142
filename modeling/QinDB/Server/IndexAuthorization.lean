/-
# Server.IndexAuthorization — who changes the indexes of a table

CREATE INDEX and DROP INDEX ask for no permission. The indexes of a table stay as they
are while no statement of a restricted user creates one on it or drops one of it; one
that does is executed whatever permissions the user has.

* `indexes_unchanged`: over whole runs.
* `restricted_user_indexes`: a user without any permission creates an index and drops
  another one.
-/
import QinDB.Auth.AccountMap
import QinDB.Server.Effect

namespace QinDB.Server

open QinDB.Base QinDB.Storage QinDB.Executor QinDB.Auth

set_option autoImplicit false

section Indexes

variable {V E : Type} {qt : Variant V} (fields : Fields qt) (ev : Evaluator V E)
  (view : Presentation V E) (services : Services V E)

namespace ExecutorState

/-- The indexes on a table in the catalog of a database. -/
def tableIndexes (s : ExecutorState V) (dbName tableName : Identifier) : Option (List IndexDef) :=
  (s.dbManager.databases dbName).map (·.getTableIndexes tableName)

/-- The statement neither creates an index on the table nor drops one of it: it is about another
table or another index, or CREATE INDEX refuses it. -/
def leavesIndexes (dbName tableName : Identifier) (s : ExecutorState V) : Statement E → Bool
  | .createIndex stmt =>
      decide (s.dbManager.currentDatabase ≠ dbName) ||
        decide (stmt.tableName.toLower ≠ tableName.toLower) ||
        s.dbManager.current.all fun db => !(indexedColumn stmt db).isOk
  | .dropIndex indexName _ =>
      decide (s.dbManager.currentDatabase ≠ dbName) ||
        s.dbManager.current.all fun db => (db.getTableIndexes tableName).all fun index =>
          decide (index.name.toLower ≠ indexName.toLower)
  | _ => true

variable {s : ExecutorState V} {dbName tableName : Identifier}

/-- A new version of a database with the same indexes on the table. -/
theorem tableIndexes_setDatabase {name : Identifier} {db db' : DatabaseDef V}
    (before : s.dbManager.databases name = some db)
    (same : name = dbName → db'.getTableIndexes tableName = db.getTableIndexes tableName) :
    ((s.dbManager.setDatabase name db').databases dbName).map (·.getTableIndexes tableName) =
      s.tableIndexes dbName tableName := by
  show (Function.update s.dbManager.databases name (some db') dbName).map _ = _
  rw [tableIndexes]
  by_cases here : dbName = name
  · subst here
    rw [Function.update_self, before, Option.map_some, Option.map_some, same rfl]
  · rw [Function.update_of_ne here]

theorem tableIndexes_withCurrent {db db' : DatabaseDef V}
    (selected : s.dbManager.current = some db)
    (same : s.dbManager.currentDatabase = dbName →
      db'.getTableIndexes tableName = db.getTableIndexes tableName) :
    (s.withCurrent db').tableIndexes dbName tableName = s.tableIndexes dbName tableName :=
  tableIndexes_setDatabase (DatabaseManager.current_eq_some selected) same

/-- An index of another table is added. -/
theorem getTableIndexes_append {db : DatabaseDef V} {pages : Database V} {index : IndexDef}
    (other : index.tableName.toLower ≠ tableName.toLower) :
    DatabaseDef.getTableIndexes { pages, indexes := db.indexes ++ [index] } tableName =
      db.getTableIndexes tableName := by
  simp only [DatabaseDef.getTableIndexes, List.filter_append, List.filter_cons, other, decide_false,
    Bool.false_eq_true, if_false, List.filter_nil, List.append_nil]

/-- No index of the table has the name that is removed. -/
theorem getTableIndexes_filter {db : DatabaseDef V} {name : Identifier}
    (others : ∀ index ∈ db.getTableIndexes tableName, index.name.toLower ≠ name.toLower) :
    DatabaseDef.getTableIndexes
        { db with indexes := db.indexes.filter fun index => index.name.toLower ≠ name.toLower }
        tableName = db.getTableIndexes tableName := by
  simp only [DatabaseDef.getTableIndexes] at others ⊢
  rw [List.filter_filter]
  refine List.filter_congr fun index member => ?_
  by_cases here : index.tableName.toLower = tableName.toLower
  · have apart := others index (List.mem_filter.mpr ⟨member, decide_eq_true here⟩)
    simp [here, apart]
  · simp [here]

end ExecutorState

open ExecutorState

variable {fields ev view services} {s s' : ExecutorState V} {dbName tableName : Identifier}
  {walCommits : Bool} {stmt : Statement E} {answer : Answer V}

theorem Effect.tableIndexes (effect : Effect fields ev view walCommits s stmt answer s')
    (restricted : s.restricted fields = true)
    (leaves : s.leavesIndexes dbName tableName stmt = true) :
    s'.tableIndexes dbName tableName = s.tableIndexes dbName tableName := by
  cases effect with
  | rows stmt db selected allowed =>
    rw [(onRows_of_restricted restricted allowed).2]
    exact tableIndexes_withCurrent selected fun _ => rfl
  | beside steady change =>
    cases change with
    | nothing => rfl
    | switched name => rfl
    | pagesTaken stmt db count selected => exact tableIndexes_withCurrent selected fun _ => rfl
    | indexed stmt db count index selected named accepted =>
      refine tableIndexes_withCurrent selected fun here => getTableIndexes_append ?_
      rw [named]
      simpa [leavesIndexes, here, selected, accepted] using leaves
    | unindexed name ifExists db selected =>
      refine tableIndexes_withCurrent selected fun here => getTableIndexes_filter ?_
      simpa [leavesIndexes, here, selected] using leaves
    | created username passwordHash now isAdmin db attached system =>
      exact tableIndexes_setDatabase system fun _ => rfl
    | dropped username db attached system => exact tableIndexes_setDatabase system fun _ => rfl
    | altered username passwordHash now db attached system =>
      exact tableIndexes_setDatabase system fun _ => rfl
    -- the rest is for administrators
    | _ => simp_all

/-- In every run of statements of a restricted user in which no statement creates an index on the
table or drops one of it, the indexes of the table stay the same. -/
theorem indexes_unchanged (fields : Fields qt) (ev : Evaluator V E) (view : Presentation V E)
    (services : Services V E) (dbName tableName : Identifier) (s : ExecutorState V)
    (inputs : List (Bool × Statement E))
    (meets : Run.Meets (step fields ev view services)
      (fun s input => s.restricted fields = true ∧
        s.leavesIndexes dbName tableName input.2 = true) s inputs) :
    ∃ answers s', Run.run (step fields ev view services) s inputs = some (answers, s') ∧
      s'.tableIndexes dbName tableName = s.tableIndexes dbName tableName := by
  refine Run.run_keeps (fun state input same condition => ?_) inputs s rfl meets
  have effect := execute_effect fields ev view services input.1 state input.2
  exact (effect.tableIndexes condition.1 condition.2).trans same

end Indexes

/-! ## Runs -/

namespace Literals

open QinDB.Auth.Literals

/-- Expressions are values. -/
def evaluator : Evaluator Value Value where
  evaluateWithRow := fun expr _ _ => .ok expr

def presentation : Presentation Value Value where
  columnName := fun _ => none
  exprText := Value.toText
  valueText := Value.toText
  ofText := .text
  ofCount := fun count => .number (.ofNat count)
  textLess := fun left right => decide (left < right)
  compare := fun _ _ => some .eq
  sort := fun _ rows => rows
  exportsTo := fun _ => true

/-- An index takes one page. -/
def services : Services Value Value where
  buildIndex := fun _ _ _ pages => { pagesTaken := 1, root := .ok (pages.freePages.headD 0) }
  saves := fun _ => true
  collectStats := fun _ _ => true
  plan := fun _ _ => none

def SHOP : Identifier := ['s', 'h', 'o', 'p']

def ITEMS : Identifier := ['i', 't', 'e', 'm', 's']

def USER : Identifier := ['u']

def itemId : ColumnDef where
  name := ['i', 'd']
  type := .BIGINT

/-- The system database, with the administrator and one other account. -/
def system : DatabaseDef Value where
  pages := (createUser fields USER ['p'] 1 false
    (initializeUserSystem fields ['h'] 0 emptyDatabase).2).2
  indexes := []

/-- A database with one table and an index on it. -/
def shop : DatabaseDef Value where
  pages := (executeCreateTable ITEMS [itemId]
    ((initializePermissionSystem fields SHOP [] emptyDatabase).getD emptyDatabase)).2
  indexes := [{ name := ['i'], tableName := ITEMS, columns := [['i', 'd']], indexType := .BTREE,
                keyType := .BIGINT, unique := false, rootPageId := 8 }]

/-- The other account uses the shop, where only the administrator has permissions. -/
def userSession : ExecutorState Value where
  dbManager :=
    { databases := fun name =>
        if name = SYSTEM_DATABASE then some system else if name = SHOP then some shop else none
      names := [SYSTEM_DATABASE, SHOP]
      currentDatabase := SHOP
      currentTransactionId := INVALID_TXN_ID
      newPages := [1, 2, 3, 4]
      catalogs := [SYSTEM_DATABASE, SHOP]
      dataDir := "data".toList
      removal := fun _ => .removed }
  authManager := true
  permissionManager := some SHOP
  currentUser := USER

def itemIndex (indexName : Identifier) : CreateIndexStatement where
  indexName := indexName
  tableName := ITEMS
  columns := [['i', 'd']]
  type := .BTREE

/-- The statements are refused or about another index. -/
theorem indexes_unchanged_three : ∃ answers s',
    Run.run (step fields evaluator presentation services) userSession
        [(true, .dropIndex ['j'] true), (true, .table (.dropTable ITEMS)),
         (true, .createIndex (itemIndex ['I']))] = some (answers, s') ∧
      s'.tableIndexes SHOP ITEMS = userSession.tableIndexes SHOP ITEMS :=
  indexes_unchanged fields evaluator presentation services SHOP ITEMS userSession _
    (by decide +kernel)

/-- A user without any permission on a table creates an index on it, and drops the one that was
there. -/
theorem restricted_user_indexes :
    userSession.restricted fields = true ∧
    hasPermission fields shop.pages USER SHOP ITEMS .INDEX = false ∧
    hasPermission fields shop.pages USER SHOP ITEMS .ALL = false ∧
    (∃ answers s', Run.run (step fields evaluator presentation services) userSession
        [(true, .createIndex (itemIndex ['n']))] = some (answers, s') ∧
      s'.tableIndexes SHOP ITEMS ≠ userSession.tableIndexes SHOP ITEMS) ∧
    (∃ answers s', Run.run (step fields evaluator presentation services) userSession
        [(true, .dropIndex ['i'] false)] = some (answers, s') ∧
      s'.tableIndexes SHOP ITEMS = some []) := by
  refine ⟨by decide +kernel, by decide +kernel, by decide +kernel,
    ⟨_, _, rfl, by decide +kernel⟩, ⟨_, _, rfl, by decide +kernel⟩⟩

end Literals

end QinDB.Server
