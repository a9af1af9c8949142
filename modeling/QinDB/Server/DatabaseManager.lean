/-
# Server.DatabaseManager — the databases of a server

`database_manager.cpp` and the index part of `catalog.cpp`: the databases by name, which
of them are open, which is the current one, and the one session transaction that all of
them share. A database on disk is opened when it is first used. A new database gets its
permission table, with a permission for the account `admin`.

A database keeps its transactions while it is open.

* `databases_setCurrent`: a change of the current database is a change of no other.
* `useDatabase_eq`: opening a database changes which are open and which is current, nothing else.
* `Every.update`: what holds of all databases still does after a change of one.
-/
import QinDB.Auth.PermissionManager

namespace QinDB.Server

open QinDB.Core QinDB.Storage QinDB.Executor QinDB.Auth

set_option autoImplicit false

/-! ## Indexes in the catalog -/

inductive IndexType where
  | BTREE | HASH | FULLTEXT
  deriving DecidableEq, Repr

structure IndexDef where
  name : Identifier
  tableName : Identifier
  columns : List Identifier
  indexType : IndexType
  keyType : DataType
  unique : Bool
  rootPageId : PageId
  deriving DecidableEq, Repr

/-- A database: its pages, tables and transactions, and the indexes of its catalog. -/
structure DatabaseDef (V : Type) where
  pages : Database V
  indexes : List IndexDef

namespace DatabaseDef

variable {V : Type}

def getIndex (db : DatabaseDef V) (indexName : Identifier) : Option IndexDef :=
  db.indexes.find? fun index => index.name.toLower = indexName.toLower

def getTableIndexes (db : DatabaseDef V) (tableName : Identifier) : List IndexDef :=
  db.indexes.filter fun index => index.tableName.toLower = tableName.toLower

/-- Refused for a known index and an unknown table. -/
def createIndex (db : DatabaseDef V) (index : IndexDef) : Option (DatabaseDef V) :=
  if (db.getIndex index.name).isSome then none
  else if (db.pages.getTable index.tableName).isNone then none
  else some { db with indexes := db.indexes ++ [index] }

def dropIndex (db : DatabaseDef V) (indexName : Identifier) : Option (DatabaseDef V) :=
  if (db.getIndex indexName).isNone then none
  else some { db with indexes := db.indexes.filter fun index =>
    index.name.toLower ≠ indexName.toLower }

/-- The indexes go with their table. -/
def dropIndexesOf (db : DatabaseDef V) (tableName : Identifier) : DatabaseDef V :=
  { db with indexes := db.indexes.filter fun index =>
    index.tableName.toLower ≠ tableName.toLower }

end DatabaseDef

/-! ## The databases -/

/-- What becomes of the directory of a dropped database: it is removed, or something of it stays,
which can still be loaded or not. -/
inductive Removal where
  | removed
  | failed (loads : Bool)
  deriving DecidableEq, Repr

/-- `databases` has the open databases and what loading makes of those that are only on disk.
`names` lists the open ones in the order of the map that holds them, `catalogs` the directories
below `dataDir` with a catalog file; `newPages` are the pages that the file of a new database can
have. -/
structure DatabaseManager (V : Type) where
  databases : Identifier → Option (DatabaseDef V)
  names : List Identifier
  currentDatabase : Identifier
  currentTransactionId : TransactionId
  newPages : List PageId
  catalogs : List Identifier
  dataDir : Identifier
  removal : Identifier → Removal

namespace DatabaseManager

variable {V : Type}

def isOpen (manager : DatabaseManager V) (dbName : Identifier) : Bool :=
  manager.names.contains dbName

def databaseExists (manager : DatabaseManager V) (dbName : Identifier) : Bool :=
  manager.isOpen dbName || manager.catalogs.contains dbName

/-- The current database, when one is selected. -/
def current (manager : DatabaseManager V) : Option (DatabaseDef V) :=
  if manager.currentDatabase ≠ [] ∧ manager.isOpen manager.currentDatabase then
    manager.databases manager.currentDatabase
  else none

def setDatabase (manager : DatabaseManager V) (dbName : Identifier) (db : DatabaseDef V) :
    DatabaseManager V :=
  { manager with databases := Function.update manager.databases dbName (some db) }

def setCurrent (manager : DatabaseManager V) (db : DatabaseDef V) : DatabaseManager V :=
  manager.setDatabase manager.currentDatabase db

/-- The error of a refused call. -/
inductive Refusal where
  | emptyName
  | exists_ (dbName : Identifier)
  | missing (dbName : Identifier)
  | permissions (dbName : Identifier)
  | notRemoved (dbPath : Identifier)
  deriving DecidableEq, Repr

def Refusal.message : Refusal → String
  | .emptyName => "Database name cannot be empty"
  | .exists_ dbName => "Database '" ++ String.ofList dbName ++ "' already exists"
  | .missing dbName => "Database '" ++ String.ofList dbName ++ "' does not exist"
  | .permissions dbName =>
      "Failed to initialize permissions for database '" ++ String.ofList dbName ++ "'"
  | .notRemoved dbPath => "Failed to remove database directory: " ++ String.ofList dbPath

/-- Keys in order, as in the map of the source. -/
def insertName (dbName : Identifier) : List Identifier → List Identifier
  | [] => [dbName]
  | other :: rest =>
      if dbName = other then other :: rest
      else if dbName < other then dbName :: other :: rest
      else other :: insertName dbName rest

/-- A database that is not open is loaded, if that is possible. -/
def useDatabase (manager : DatabaseManager V) (dbName : Identifier) :
    Except Refusal (DatabaseManager V) :=
  if manager.isOpen dbName then .ok { manager with currentDatabase := dbName }
  else
    match manager.databases dbName with
    | none => .error (.missing dbName)
    | some _ =>
        .ok { manager with
          names := insertName dbName manager.names
          currentDatabase := dbName }

section Create

variable {qt : Variant V} (fields : Fields qt)

/-- Files of a database of that name that is not open are not looked at. -/
def createDatabase (manager : DatabaseManager V) (dbName timestamp : Identifier)
    (ifNotExists : Bool) : Except Refusal (DatabaseManager V) :=
  if dbName = [] then .error .emptyName
  else if manager.isOpen dbName then
    if ifNotExists then .ok manager else .error (.exists_ dbName)
  else
    match initializePermissionSystem fields dbName timestamp (.create manager.newPages) with
    | none => .error (.permissions dbName)
    | some pages =>
        .ok { manager.setDatabase dbName { pages, indexes := [] } with
          names := insertName dbName manager.names
          catalogs := insertName dbName manager.catalogs
          currentDatabase := if manager.currentDatabase = [] then dbName
            else manager.currentDatabase }

end Create

/-- A closed database when it is loaded again: with no transactions. -/
def reloaded (db : DatabaseDef V) : DatabaseDef V :=
  { db with pages := { db.pages with txns := .initial } }

/-- The open database is closed. When its directory is removed and it was current, the first of the
others becomes current; when the directory cannot be removed, it stays current although it is no
longer open. -/
def dropDatabase (manager : DatabaseManager V) (dbName : Identifier) (ifExists : Bool) :
    Except Refusal Unit × DatabaseManager V :=
  if !manager.isOpen dbName then
    (if ifExists then .ok () else .error (.missing dbName), manager)
  else
    let names := manager.names.filter (· ≠ dbName)
    let catalogs := manager.catalogs.filter (· ≠ dbName)
    match manager.removal dbName with
    | .removed =>
        (.ok (), { manager with
          databases := Function.update manager.databases dbName none
          names
          catalogs
          currentDatabase := if manager.currentDatabase = dbName then names.headD []
            else manager.currentDatabase })
    | .failed loads =>
        (.error (.notRemoved (manager.dataDir ++ '/' :: dbName)), { manager with
          databases := Function.update manager.databases dbName
            (if loads then (manager.databases dbName).map reloaded else none)
          names
          catalogs := if loads then manager.catalogs else catalogs })

/-! ## What changes -/

variable {manager manager' : DatabaseManager V} {db db' : DatabaseDef V}

theorem current_eq_some (selected : manager.current = some db) :
    manager.databases manager.currentDatabase = some db := by
  rw [current] at selected
  split at selected
  · exact selected
  · cases selected

theorem contains_insertName (dbName name : Identifier) : ∀ names : List Identifier,
    (insertName dbName names).contains name = (decide (name = dbName) || names.contains name)
  | [] => by simp [insertName]
  | other :: rest => by
      rw [insertName]
      split
      · rename_i same
        simp [same]
      · split
        · simp
        · rw [List.contains_cons, List.contains_cons, contains_insertName dbName name rest,
            Bool.or_left_comm]

theorem useDatabase_eq {dbName : Identifier} (used : manager.useDatabase dbName = .ok manager') :
    ∃ names, manager' = { manager with names, currentDatabase := dbName } ∧
      ∀ name, names.contains name = (decide (name = dbName) || manager.isOpen name) := by
  rw [useDatabase] at used
  split at used
  · rename_i known
    cases used
    refine ⟨_, rfl, fun name => ?_⟩
    by_cases same : name = dbName
    · rw [same, known, Bool.or_true]
      exact known
    · simp [same, isOpen]
  · split at used <;> cases used
    exact ⟨_, rfl, fun name => contains_insertName dbName name manager.names⟩

theorem databases_setCurrent (dbName : Identifier) :
    (manager.setCurrent db').databases dbName =
      if dbName = manager.currentDatabase then some db' else manager.databases dbName := by
  show Function.update manager.databases manager.currentDatabase (some db') dbName = _
  rw [Function.update_apply]

/-- Something holds of all databases. -/
def Every (Holds : DatabaseDef V → Prop) (manager : DatabaseManager V) : Prop :=
  ∀ dbName db, manager.databases dbName = some db → Holds db

variable {Holds : DatabaseDef V → Prop}

theorem Every.of_same (every : manager.Every Holds)
    (same : manager'.databases = manager.databases) : manager'.Every Holds := by
  intro name db found
  rw [same] at found
  exact every name db found

theorem Every.update (every : manager.Every Holds) {dbName : Identifier}
    {found : Option (DatabaseDef V)}
    (after : manager'.databases = Function.update manager.databases dbName found)
    (holds : ∀ db ∈ found, Holds db) : manager'.Every Holds := by
  intro name db there
  rw [after, Function.update_apply] at there
  split at there
  · exact holds db there
  · exact every name db there

end DatabaseManager

end QinDB.Server
