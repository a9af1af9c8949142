/-
# Server.Executor — statements, and who may execute them

The statements of `executor.cpp` on the databases of a server. An executor may have an
authentication manager and a current user; then tables and databases are created and
dropped, and permissions given and taken, by administrators only, and rows are read and
changed by those who have the permission for it. Without a manager or a user everything
is allowed. Statements on indexes and on accounts look at neither.

`execute` is one statement; what it calls outside of the model (building an index,
saving, statistics and plans) is a parameter.
-/
import QinDB.Auth.AuthManager
import QinDB.Server.DatabaseManager
import QinDB.Executor.Session

namespace QinDB.Server

open QinDB.Core QinDB.Storage QinDB.Executor QinDB.Auth

set_option autoImplicit false

/-! ## Statements -/

structure CreateIndexStatement where
  indexName : Identifier
  tableName : Identifier
  columns : List Identifier
  type : IndexType
  unique : Bool := false
  ifNotExists : Bool := false
  deriving DecidableEq, Repr

inductive PrivilegeType where
  | SELECT | INSERT | UPDATE | DELETE_PRIV | ALL
  deriving DecidableEq, Repr

structure Privilege where
  privilegeType : PrivilegeType
  databaseName : Identifier
  tableName : Identifier
  username : Identifier
  deriving DecidableEq, Repr

/-- Statements that store a time or the hash of a password carry the one they obtained. -/
inductive Statement (E : Type) where
  | createDatabase (databaseName : Identifier) (ifNotExists : Bool) (timestamp : Identifier)
  | dropDatabase (databaseName : Identifier) (ifExists : Bool)
  | useDatabase (databaseName : Identifier)
  | showDatabases
  | table (stmt : Executor.Statement E)
  | showTables
  | save
  | createIndex (stmt : CreateIndexStatement)
  | dropIndex (indexName : Identifier) (ifExists : Bool)
  | analyze (tableName : Identifier)
  | explain (query : SelectStatement E)
  | createUser (username passwordHash : Identifier) (now : UInt64) (isAdmin : Bool)
  | dropUser (username : Identifier)
  | alterUser (username passwordHash : Identifier) (now : UInt64)
  | grant (privilege : Privilege) (withGrantOption : Bool) (timestamp : Identifier)
  | revoke (privilege : Privilege)
  deriving DecidableEq, Repr

inductive Answer (V : Type) where
  | failed (code : ErrorCode) (message : String)
  | succeeded (message : String)
  | table (outcome : Outcome V)
  | shown (columnNames : List Identifier) (rows : List (List V))
  deriving DecidableEq, Repr

/-- A name in a message. -/
def quoted (name : Identifier) : String := "'" ++ String.ofList name ++ "'"

def Answer.error {V : Type} (error : ExecError) : Answer V := .failed error.code error.message

/-! ## The executor -/

/-- `authManager` says whether an authentication manager is attached; `permissionManager` names
the database whose permission manager is. -/
structure ExecutorState (V : Type) where
  dbManager : DatabaseManager V
  authManager : Bool
  permissionManager : Option Identifier
  currentUser : Identifier

/-- The database that keeps the accounts. -/
def SYSTEM_DATABASE : Identifier := ['q', 'i', 'n', 'd', 'b']

/-- What the construction of an index comes to: the pages it took, and the root page or an
error. -/
structure IndexBuild where
  pagesTaken : Nat
  root : Except (ErrorCode × String) PageId

structure Services (V E : Type) where
  buildIndex : CreateIndexStatement → ColumnDef → TableDef → Database V → IndexBuild
  saves : DatabaseDef V → Bool
  collectStats : Identifier → DatabaseDef V → Bool
  plan : SelectStatement E → DatabaseDef V → Option Identifier

section Authorization

variable {V : Type} {qt : Variant V} (fields : Fields qt)

namespace ExecutorState

variable (s : ExecutorState V)

def system : Option (DatabaseDef V) := s.dbManager.databases SYSTEM_DATABASE

def userExists (username : Identifier) : Bool :=
  s.system.any fun db => Auth.userExists fields db.pages username

def isUserAdmin (username : Identifier) : Bool :=
  s.system.any fun db => Auth.isUserAdmin fields db.pages username

/-- An authentication manager knows the current user, and not as an administrator. -/
def restricted : Bool :=
  s.authManager && !s.currentUser.isEmpty && !s.isUserAdmin fields s.currentUser

/-- The database that keeps the permissions to look at. -/
def permissionDatabase : Option (DatabaseDef V) :=
  match s.permissionManager with
  | some name => s.dbManager.databases name
  | none => s.dbManager.current

def allows (tableName : Identifier) (permType : PermissionType) : Bool :=
  s.permissionDatabase.any fun db =>
    hasPermission fields db.pages s.currentUser s.dbManager.currentDatabase tableName permType

/-- `none` when the user may go on. -/
def ensurePermission (tableName : Identifier) (permType : PermissionType) :
    Option (ErrorCode × String) :=
  if !s.restricted fields then none
  else if s.permissionDatabase.isNone then
    some (.INTERNAL_ERROR, "Permission manager not available")
  else if s.allows fields tableName permType then none
  else
    some (.PERMISSION_DENIED, "User " ++ quoted s.currentUser ++ " lacks " ++
      String.ofList permType.toText ++ " permission on " ++
      String.ofList s.dbManager.currentDatabase ++ "." ++
      (if tableName = [] then "*" else String.ofList tableName))

/-- The tables that a SELECT names. -/
def selectTables {E : Type} (stmt : SelectStatement E) : List Identifier :=
  match stmt.from_ with
  | none => []
  | some name => name :: stmt.joins.map (·.right)

def checkSelectPermissions {E : Type} (stmt : SelectStatement E) : Option (ErrorCode × String) :=
  (selectTables stmt).findSome? fun name => s.ensurePermission fields name .SELECT

/-- The refusal of what only an administrator may do. -/
def adminOnly (action : String) : Option (ErrorCode × String) :=
  if s.restricted fields then
    some (.PERMISSION_DENIED, "User " ++ quoted s.currentUser ++ " cannot " ++ action)
  else none

end ExecutorState

end Authorization

/-! ## Statements on the current database -/

section Execute

variable {V E : Type} {qt : Variant V} (fields : Fields qt) (ev : Evaluator V E)
  (view : Presentation V E) (services : Services V E)

namespace ExecutorState

/-- The check that stands before a statement on tables. -/
def tablePermission (s : ExecutorState V) :
    Executor.Statement E → Option (ErrorCode × String)
  | .createTable _ _ => s.adminOnly fields "create tables"
  | .dropTable _ => s.adminOnly fields "drop tables"
  | .insert stmt => s.ensurePermission fields stmt.tableName .INSERT
  | .update stmt => s.ensurePermission fields stmt.tableName .UPDATE
  | .delete stmt => s.ensurePermission fields stmt.tableName .DELETE
  | .select stmt => s.checkSelectPermissions fields stmt
  | _ => none

/-- The indexes of a table go with it. -/
def droppedIndexes (db : DatabaseDef V) : Executor.Statement E → DatabaseDef V
  | .dropTable name => if (db.pages.getTable name).isSome then db.dropIndexesOf name else db
  | _ => db

/-- Without a current database, only a SELECT without FROM is answered. -/
def withoutDatabase : Executor.Statement E → Answer V
  | .select stmt =>
      if stmt.from_.isNone then .table (exportResult view stmt (.selected [] []))
      else .error .noDatabase
  | _ => .error .noDatabase

/-- A statement on the tables of the current database. -/
def onTables (qt : Variant V) (walCommits : Bool) (s : ExecutorState V)
    (stmt : Executor.Statement E) : Answer V × ExecutorState V :=
  match s.dbManager.current with
  | none => (withoutDatabase view stmt, s)
  | some db =>
      let done := Executor.execute qt ev view walCommits s.dbManager.currentTransactionId db.pages
        stmt
      (.table done.1, { s with dbManager :=
        { s.dbManager.setCurrent { droppedIndexes db stmt with pages := done.2.2 } with
          currentTransactionId := done.2.1 } })

def executeTable (walCommits : Bool) (s : ExecutorState V) (stmt : Executor.Statement E) :
    Answer V × ExecutorState V :=
  match s.tablePermission fields stmt with
  | some (code, message) => (.failed code message, s)
  | none => s.onTables ev view qt walCommits stmt

def executeShowTables (s : ExecutorState V) : Answer V :=
  match s.dbManager.current with
  | none => .error .noDatabase
  | some db =>
      .shown ["Table".toList] ((db.pages.tables.filter fun table =>
        !"sys_".toList.isPrefixOf table.name).map fun table => [view.ofText table.name])

def executeSave (s : ExecutorState V) : Answer V :=
  match s.dbManager.current with
  | none => .error .noDatabase
  | some db =>
      if services.saves db then
        .succeeded ("Database " ++ quoted s.dbManager.currentDatabase ++ " saved to disk")
      else .failed .IO_ERROR "Failed to save catalog to disk"

def executeAnalyze (s : ExecutorState V) (tableName : Identifier) : Answer V :=
  match s.dbManager.current with
  | none => .error .noDatabase
  | some db =>
      if tableName = [] then
        if services.collectStats tableName db then .succeeded "Statistics collected for all tables"
        else .failed .INTERNAL_ERROR "Failed to collect statistics"
      else if (db.pages.getTable tableName).isNone then .error (.tableNotFound tableName)
      else if services.collectStats tableName db then
        .succeeded ("Statistics collected for table " ++ quoted tableName)
      else .failed .INTERNAL_ERROR ("Failed to collect statistics for table " ++ quoted tableName)

def executeExplain (s : ExecutorState V) (query : SelectStatement E) : Answer V :=
  match s.dbManager.current with
  | none => .error .noDatabase
  | some db =>
      match services.plan query db with
      | none => .failed .INTERNAL_ERROR "Failed to generate execution plan"
      | some text => .shown ["Plan".toList] [[view.ofText text]]

end ExecutorState

/-! ## Indexes -/

def isIndexableType : DataType → Bool
  | .GEOMETRY | .GEOGRAPHY => false
  | _ => true

/-- The only types that no index takes. -/
def spatialTypeName : DataType → String
  | .GEOMETRY => "GEOMETRY"
  | _ => "GEOGRAPHY"

def isTextType : DataType → Bool
  | .VARCHAR | .TEXT | .CHAR => true
  | _ => false

/-- A full-text index is kept as an inverted index. -/
def IndexType.typeName : IndexType → String
  | .BTREE => "BTREE"
  | .HASH => "HASH"
  | .FULLTEXT => "INVERTED"

/-- What CREATE INDEX refuses before it builds anything, or the table and the column. -/
def indexedColumn (stmt : CreateIndexStatement) (db : DatabaseDef V) :
    Except (Answer V) (TableDef × Identifier × ColumnDef) :=
  match db.pages.getTable stmt.tableName with
  | none => .error (.error (.tableNotFound stmt.tableName))
  | some table =>
      if (db.getIndex stmt.indexName).isSome then
        .error (if stmt.ifNotExists then
            .succeeded ("Index " ++ quoted stmt.indexName ++ " already exists (skipped)")
          else .failed .SEMANTIC_ERROR ("Index " ++ quoted stmt.indexName ++ " already exists"))
      else
        match stmt.columns with
        | [columnName] =>
            match table.columns.find? fun column => column.name.toLower = columnName.toLower with
            | none => .error (.error (.columnNotFound columnName stmt.tableName))
            | some column =>
                if !isIndexableType column.type then
                  .error (.failed .NOT_IMPLEMENTED ("Index on column type '" ++
                    spatialTypeName column.type ++
                    "' not supported (GEOMETRY/GEOGRAPHY require R-tree)"))
                else if stmt.type = .FULLTEXT ∧ !isTextType column.type then
                  .error (.failed .SEMANTIC_ERROR
                    "FULLTEXT index can only be created on text columns (VARCHAR, TEXT, CHAR)")
                else .ok (table, columnName, column)
        | _ => .error (.failed .NOT_IMPLEMENTED
            "Composite indexes not yet supported. Only single-column indexes are supported.")

namespace ExecutorState

/-- The pages of a failed construction stay allocated. -/
def executeCreateIndex (s : ExecutorState V) (stmt : CreateIndexStatement) :
    Answer V × ExecutorState V :=
  match s.dbManager.current with
  | none => (.error .noDatabase, s)
  | some db =>
      match indexedColumn stmt db with
      | .error answer => (answer, s)
      | .ok (table, columnName, column) =>
          let build := services.buildIndex stmt column table db.pages
          let built := { db with pages :=
            { db.pages with freePages := db.pages.freePages.drop build.pagesTaken } }
          match build.root with
          | .error (code, message) =>
              (.failed code message, { s with dbManager := s.dbManager.setCurrent built })
          | .ok rootPageId =>
              match built.createIndex
                  { name := stmt.indexName, tableName := stmt.tableName, columns := [columnName],
                    indexType := stmt.type, keyType := column.type, unique := stmt.unique,
                    rootPageId } with
              | none => (.failed .INTERNAL_ERROR "Failed to create index in catalog",
                  { s with dbManager := s.dbManager.setCurrent built })
              | some db' =>
                  (.succeeded ("Index " ++ quoted stmt.indexName ++ " (" ++ stmt.type.typeName ++
                      ") created on table " ++ quoted stmt.tableName ++ ", column " ++
                      quoted columnName),
                    { s with dbManager := s.dbManager.setCurrent db' })

def executeDropIndex (s : ExecutorState V) (indexName : Identifier) (ifExists : Bool) :
    Answer V × ExecutorState V :=
  match s.dbManager.current with
  | none => (.error .noDatabase, s)
  | some db =>
      match db.dropIndex indexName with
      | none =>
          (if ifExists then
              .succeeded ("Index " ++ quoted indexName ++ " does not exist (skipped)")
            else .failed .SEMANTIC_ERROR ("Index " ++ quoted indexName ++ " does not exist"), s)
      | some db' => (.succeeded ("Index " ++ quoted indexName ++ " dropped"),
          { s with dbManager := s.dbManager.setCurrent db' })

end ExecutorState

/-! ## Databases -/

namespace ExecutorState

def executeCreateDatabase (s : ExecutorState V) (databaseName : Identifier) (ifNotExists : Bool)
    (timestamp : Identifier) : Answer V × ExecutorState V :=
  match s.adminOnly fields "create databases" with
  | some (code, message) => (.failed code message, s)
  | none =>
      match s.dbManager.createDatabase fields databaseName timestamp ifNotExists with
      | .error refusal => (.failed .SEMANTIC_ERROR refusal.message, s)
      | .ok dbManager => (.succeeded ("Database " ++ quoted databaseName ++ " created"),
          { s with dbManager })

def executeDropDatabase (s : ExecutorState V) (databaseName : Identifier) (ifExists : Bool) :
    Answer V × ExecutorState V :=
  match s.adminOnly fields "drop databases" with
  | some (code, message) => (.failed code message, s)
  | none =>
      match s.dbManager.dropDatabase databaseName ifExists with
      | (.error refusal, dbManager) => (.failed .SEMANTIC_ERROR refusal.message, { s with dbManager })
      | (.ok _, dbManager) => (.succeeded ("Database " ++ quoted databaseName ++ " dropped"),
          { s with dbManager })

def executeUseDatabase (s : ExecutorState V) (databaseName : Identifier) :
    Answer V × ExecutorState V :=
  match s.dbManager.useDatabase databaseName with
  | .error refusal => (.failed .TABLE_NOT_FOUND refusal.message, s)
  | .ok dbManager => (.succeeded ("Switched to database " ++ quoted databaseName),
      { s with dbManager, permissionManager := some databaseName })

def executeShowDatabases (s : ExecutorState V) : Answer V :=
  .shown ["Database".toList] (s.dbManager.catalogs.map fun name => [view.ofText name])

end ExecutorState

/-! ## Accounts -/

namespace ExecutorState

/-- A call of the authentication manager. -/
def onAccounts (s : ExecutorState V) (call : Database V → Bool × Database V) (failure success : String) :
    Answer V × ExecutorState V :=
  match s.system with
  | none => (.failed .INTERNAL_ERROR failure, s)
  | some db =>
      let done := call db.pages
      (if done.1 then .succeeded success else .failed .INTERNAL_ERROR failure,
        { s with dbManager := s.dbManager.setDatabase SYSTEM_DATABASE { db with pages := done.2 } })

def noAuthManager : Answer V := .failed .INTERNAL_ERROR "Authentication manager not available"

def userMissing (username : Identifier) : Answer V :=
  .failed .TABLE_NOT_FOUND ("User " ++ quoted username ++ " does not exist")

def executeCreateUser (s : ExecutorState V) (username passwordHash : Identifier) (now : UInt64)
    (isAdmin : Bool) : Answer V × ExecutorState V :=
  if !s.authManager then (noAuthManager, s)
  else if s.userExists fields username then
    (.failed .DUPLICATE_KEY ("User " ++ quoted username ++ " already exists"), s)
  else
    s.onAccounts (createUser fields username passwordHash now isAdmin)
      ("Failed to create user " ++ quoted username)
      ("User " ++ quoted username ++ " created successfully")

def executeDropUser (s : ExecutorState V) (username : Identifier) : Answer V × ExecutorState V :=
  if !s.authManager then (noAuthManager, s)
  else if !s.userExists fields username then (userMissing username, s)
  else
    s.onAccounts (dropUser fields username) ("Failed to drop user " ++ quoted username)
      ("User " ++ quoted username ++ " dropped successfully")

def executeAlterUser (s : ExecutorState V) (username passwordHash : Identifier) (now : UInt64) :
    Answer V × ExecutorState V :=
  if !s.authManager then (noAuthManager, s)
  else if !s.userExists fields username then (userMissing username, s)
  else
    s.onAccounts (alterUserPassword fields username passwordHash now)
      ("Failed to alter user " ++ quoted username)
      ("User " ++ quoted username ++ " password updated successfully")

end ExecutorState

/-! ## Permissions -/

def convertPrivilegeType : PrivilegeType → PermissionType
  | .SELECT => .SELECT
  | .INSERT => .INSERT
  | .UPDATE => .UPDATE
  | .DELETE_PRIV => .DELETE
  | .ALL => .ALL

/-- A permission in a message. -/
def Privilege.text (privilege : Privilege) : String :=
  "Permission '" ++ String.ofList (convertPrivilegeType privilege.privilegeType).toText ++ "' on '" ++
    String.ofList privilege.databaseName ++ "." ++
    (if privilege.tableName = [] then "*" else String.ofList privilege.tableName) ++ "'"

namespace ExecutorState

/-- `useDatabase` when nobody looks whether it succeeded. -/
def switchTo (manager : DatabaseManager V) (dbName : Identifier) : DatabaseManager V :=
  match manager.useDatabase dbName with
  | .ok manager' => manager'
  | .error _ => manager

/-- Whether the table of a permission exists. To see it the database is made current and then
the one before again, which does nothing when there was none. -/
def checkTarget (manager : DatabaseManager V) (privilege : Privilege) :
    Bool × DatabaseManager V :=
  if privilege.tableName = [] then (true, manager)
  else
    let there := switchTo manager privilege.databaseName
    (there.current.any fun db => (db.pages.getTable privilege.tableName).isSome,
      switchTo there manager.currentDatabase)

/-- A call of the attached permission manager, after the checks that GRANT and REVOKE share. -/
def onPermissions (s : ExecutorState V) (action : String) (privilege : Privilege)
    (call : Identifier → DatabaseDef V → Answer V × ExecutorState V) :
    Answer V × ExecutorState V :=
  match s.adminOnly fields action with
  | some (code, message) => (.failed code message, s)
  | none =>
      match s.permissionManager.bind fun own => (s.dbManager.databases own).map (own, ·) with
      | none => (.failed .INTERNAL_ERROR "Permission manager not available", s)
      | some (own, db) =>
          if !s.authManager then (noAuthManager, s)
          else if !s.userExists fields privilege.username then (userMissing privilege.username, s)
          else call own db

def executeGrant (s : ExecutorState V) (privilege : Privilege) (withGrantOption : Bool)
    (timestamp : Identifier) : Answer V × ExecutorState V :=
  s.onPermissions fields "grant permissions" privilege fun own db =>
    if !s.dbManager.databaseExists privilege.databaseName then
      (.failed .SEMANTIC_ERROR
        ("Database " ++ quoted privilege.databaseName ++ " does not exist"), s)
    else
      let target := checkTarget s.dbManager privilege
      if !target.1 then
        (.failed .TABLE_NOT_FOUND ("Table " ++ quoted privilege.tableName ++
          " does not exist in database " ++ quoted privilege.databaseName),
          { s with dbManager := target.2 })
      else
        let done := grantPermission fields own privilege.username privilege.databaseName
          privilege.tableName (convertPrivilegeType privilege.privilegeType) withGrantOption []
          timestamp db.pages
        (if done.1 then
            .succeeded (privilege.text ++ " granted to user " ++ quoted privilege.username)
          else .failed .INTERNAL_ERROR
            ("Failed to grant permission to user " ++ quoted privilege.username),
          { s with dbManager := target.2.setDatabase own { db with pages := done.2 } })

def executeRevoke (s : ExecutorState V) (privilege : Privilege) : Answer V × ExecutorState V :=
  s.onPermissions fields "revoke permissions" privilege fun own db =>
    let done := revokePermission fields privilege.username privilege.databaseName
      privilege.tableName (convertPrivilegeType privilege.privilegeType) db.pages
    (if done.1 then
        .succeeded (privilege.text ++ " revoked from user " ++ quoted privilege.username)
      else .failed .INTERNAL_ERROR
        ("Failed to revoke permission from user " ++ quoted privilege.username),
      { s with dbManager := s.dbManager.setDatabase own { db with pages := done.2 } })

end ExecutorState

/-! ## One statement -/

open ExecutorState in
def execute (walCommits : Bool) (s : ExecutorState V) :
    Statement E → Answer V × ExecutorState V
  | .createDatabase databaseName ifNotExists timestamp =>
      s.executeCreateDatabase fields databaseName ifNotExists timestamp
  | .dropDatabase databaseName ifExists => s.executeDropDatabase fields databaseName ifExists
  | .useDatabase databaseName => s.executeUseDatabase databaseName
  | .showDatabases => (s.executeShowDatabases view, s)
  | .table stmt => s.executeTable fields ev view walCommits stmt
  | .showTables => (s.executeShowTables view, s)
  | .save => (s.executeSave services, s)
  | .createIndex stmt => s.executeCreateIndex services stmt
  | .dropIndex indexName ifExists => s.executeDropIndex indexName ifExists
  | .analyze tableName => (s.executeAnalyze services tableName, s)
  | .explain query => (s.executeExplain view services query, s)
  | .createUser username passwordHash now isAdmin =>
      s.executeCreateUser fields username passwordHash now isAdmin
  | .dropUser username => s.executeDropUser fields username
  | .alterUser username passwordHash now => s.executeAlterUser fields username passwordHash now
  | .grant privilege withGrantOption timestamp =>
      s.executeGrant fields privilege withGrantOption timestamp
  | .revoke privilege => s.executeRevoke fields privilege

end Execute

end QinDB.Server
