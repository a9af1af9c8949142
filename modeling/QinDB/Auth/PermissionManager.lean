/-
# Auth.PermissionManager — the permissions of a database

`permission_manager.cpp`: each database keeps its permissions as records of the table
`sys_permissions`, a permission on a whole database with a null table name. Only five of
the nine kinds of permission have a name of their own; the others are all called UNKNOWN.
-/
import QinDB.Auth.SystemTable

namespace QinDB.Auth

open QinDB.Core QinDB.Storage QinDB.Executor

set_option autoImplicit false

inductive PermissionType where
  | SELECT | INSERT | UPDATE | DELETE | CREATE | DROP | ALTER | INDEX | ALL
  deriving DecidableEq, Repr

def PermissionType.toText : PermissionType → Identifier
  | .SELECT => "SELECT".toList
  | .INSERT => "INSERT".toList
  | .UPDATE => "UPDATE".toList
  | .DELETE => "DELETE".toList
  | .ALL => "ALL".toList
  | _ => "UNKNOWN".toList

structure Permission where
  id : UInt64
  username : Identifier
  databaseName : Identifier
  tableName : Identifier
  permissionType : PermissionType
  withGrantOption : Bool
  grantedAt : Identifier
  grantedBy : Identifier
  deriving DecidableEq, Repr

def PERMISSIONS_TABLE_NAME : Identifier := "sys_permissions".toList

def permissionsColumns : List ColumnDef :=
  [{ name := "id".toList, type := .BIGINT, autoIncrement := true },
   { name := "username".toList, type := .VARCHAR, length := 128, notNull := true },
   { name := "database_name".toList, type := .VARCHAR, length := 128, notNull := true },
   { name := "table_name".toList, type := .VARCHAR, length := 128 },
   { name := "privilege_type".toList, type := .VARCHAR, length := 32, notNull := true },
   { name := "with_grant_option".toList, type := .BOOLEAN, notNull := true },
   { name := "granted_at".toList, type := .DATETIME, notNull := true },
   { name := "granted_by".toList, type := .VARCHAR, length := 128, notNull := true }]

section PermissionManager

variable {V : Type} {qt : Variant V} (fields : Fields qt)

/-- The table name of a permission; null stands for the whole database. -/
def recordTable (row : List V) : Identifier :=
  if qt.isNull (cell qt row 3) then [] else fields.toText (cell qt row 3)

/-- Whether a row is this permission. -/
def isPermission (username databaseName tableName : Identifier) (permType : PermissionType)
    (row : List V) : Bool :=
  decide (8 ≤ row.length) && decide (fields.toText (cell qt row 1) = username) &&
    decide (fields.toText (cell qt row 2) = databaseName) &&
    decide (recordTable fields row = tableName) &&
    decide (fields.toText (cell qt row 4) = permType.toText)

def permissionOf (permType : PermissionType) (row : List V) : Permission where
  id := fields.toNumber (cell qt row 0)
  username := fields.toText (cell qt row 1)
  databaseName := fields.toText (cell qt row 2)
  tableName := recordTable fields row
  permissionType := permType
  withGrantOption := qt.toBool (cell qt row 5)
  grantedAt := fields.toText (cell qt row 6)
  grantedBy := fields.toText (cell qt row 7)

/-- The first record of this permission that carries no mark. -/
def findPermission (db : Database V) (username databaseName tableName : Identifier)
    (permType : PermissionType) : Option Permission :=
  match db.getTable PERMISSIONS_TABLE_NAME with
  | none => none
  | some table =>
      (scan db.disk (db.chain table)).findSome? fun found =>
        (getAllRecords qt table.columns found.2).findSome? fun (header, row) =>
          if header.deleteTxnId = INVALID_TXN_ID ∧
              isPermission fields username databaseName tableName permType row = true then
            some (permissionOf fields permType row)
          else none

/-- ALL or the permission itself, on the database or on the table. -/
def hasPermission (db : Database V) (username databaseName tableName : Identifier)
    (permType : PermissionType) : Bool :=
  (findPermission fields db username databaseName [] .ALL).isSome ||
    (!tableName.isEmpty &&
      (findPermission fields db username databaseName tableName .ALL).isSome) ||
    (findPermission fields db username databaseName [] permType).isSome ||
    (!tableName.isEmpty &&
      (findPermission fields db username databaseName tableName permType).isSome)

/-! ## Granting and revoking -/

/-- One more than the largest number of a record without a mark. -/
def getNextPermissionId (db : Database V) : UInt64 :=
  match db.getTable PERMISSIONS_TABLE_NAME with
  | none => 1
  | some table =>
      (((scan db.disk (db.chain table)).flatMap fun found =>
        (getUndeletedRecords qt table.columns found.2).map fun row =>
          fields.toNumber (cell qt row 0)).foldl max 0) + 1

/-- `own` is the name of the database that keeps the permission. -/
def grantPermission (own username databaseName tableName : Identifier) (permType : PermissionType)
    (withGrantOption : Bool) (grantedBy timestamp : Identifier) (db : Database V) :
    Bool × Database V :=
  match db.getTable PERMISSIONS_TABLE_NAME with
  | none => (false, db)
  | some table =>
      if (findPermission fields db username databaseName tableName permType).isSome then (true, db)
      else
        let newId := getNextPermissionId fields db
        insertSystemRow qt table newId.toNat
          [fields.ofNumber newId, fields.ofText username,
           fields.ofText (if databaseName = [] then own else databaseName),
           if tableName = [] then qt.null else fields.ofText tableName,
           fields.ofText permType.toText, fields.ofBool withGrantOption, fields.ofText timestamp,
           fields.ofText (if grantedBy = [] then "system".toList else grantedBy)] db

/-- Mark the records of a page whose rows match. The position of a row among those that
decode is taken for the number of its slot. -/
def revokeOnPage (qt : Variant V) (found : List V → Bool) (columns : List ColumnDef) (page : TablePage) :
    Bool × TablePage :=
  (getAllRecords qt columns page).zipIdx.foldl (fun (removed, page) ((_, row), slot) =>
    if found row then
      match deleteRecord page slot 1 with
      | some page' => (true, page')
      | none => (removed, page)
    else (removed, page)) (false, page)

def revokeOnPages (qt : Variant V) (found : List V → Bool) (columns : List ColumnDef) :
    List PageId → (PageId → Option TablePage) → Bool × (PageId → Option TablePage)
  | [], disk => (false, disk)
  | pageId :: rest, disk =>
      match disk pageId with
      | none => (false, disk)
      | some page =>
          let revoked := revokeOnPage qt found columns page
          let later := revokeOnPages qt found columns rest
            (Function.update disk pageId (some revoked.2))
          (revoked.1 || later.1, later.2)

def revokePermission (username databaseName tableName : Identifier) (permType : PermissionType)
    (db : Database V) : Bool × Database V :=
  match db.getTable PERMISSIONS_TABLE_NAME with
  | none => (false, db)
  | some table =>
      let revoked := revokeOnPages qt
        (isPermission fields username databaseName tableName permType) table.columns
        (db.chain table) db.disk
      (revoked.1, { db with disk := revoked.2 })

/-! ## Setting up -/

def permissionsTable (firstPageId : PageId) : TableDef where
  name := PERMISSIONS_TABLE_NAME
  columns := permissionsColumns
  firstPageId := firstPageId
  nextRowId := 1

def createPermissionsTable (db : Database V) : Option (Database V) :=
  match db.freePages with
  | [] => none
  | pageId :: free =>
      some { db with
        disk := Function.update db.disk pageId (some .init)
        following := Function.update db.following pageId []
        freePages := free
        tables := db.tables ++ [permissionsTable pageId] }

/-- Whether the administrator's permission could be stored is not looked at. -/
def initializePermissionSystem (own timestamp : Identifier) (db : Database V) :
    Option (Database V) :=
  match db.getTable PERMISSIONS_TABLE_NAME with
  | some _ => some db
  | none =>
      (createPermissionsTable db).map fun db =>
        (grantPermission fields own "admin".toList own [] .ALL true "system".toList timestamp db).2

end PermissionManager

end QinDB.Auth
