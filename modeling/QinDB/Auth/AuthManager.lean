/-
# Auth.AuthManager — the accounts in the users table

`auth_manager.cpp`: accounts are records of the table `users` of the system database.
They are read with their headers, so that dropped ones can be skipped. To change an
account its record is looked for among the rows of a page that carry no mark, and the
position in that list is then taken for the number of its slot.

Passwords are hashed with a random salt; a call carries the hash it obtained, and the
time. `initializeUserSystem` allocates the first page of the table without formatting
it, so that it takes no record and the first account goes to a second page.
-/
import Mathlib.Algebra.Ring.Nat
import QinDB.Auth.SystemTable

namespace QinDB.Auth

open QinDB.Core QinDB.Storage QinDB.Executor

set_option autoImplicit false

structure UserRecord where
  id : UInt64
  username : Identifier
  passwordHash : Identifier
  createdAt : UInt64
  updatedAt : UInt64
  isActive : Bool
  isAdmin : Bool
  deriving DecidableEq, Repr

def USERS_TABLE : Identifier := ['u', 's', 'e', 'r', 's']

def usernameColumn : ColumnDef where
  name := "username".toList
  type := .VARCHAR
  length := 64
  notNull := true

def passwordColumn : ColumnDef where
  name := "password".toList
  type := .VARCHAR
  length := 128
  notNull := true

def usersColumns : List ColumnDef :=
  [{ name := "id".toList, type := .BIGINT, autoIncrement := true },
   usernameColumn,
   passwordColumn,
   { name := "created_at".toList, type := .BIGINT },
   { name := "updated_at".toList, type := .BIGINT },
   { name := "is_active".toList, type := .INT },
   { name := "is_admin".toList, type := .INT }]

/-- How many pages of the table are read. -/
def MAX_PAGES : Nat := 100

/-- The length of a text in UTF-16 units. -/
def textLength (text : Identifier) : Nat :=
  (text.map fun letter => if letter.toNat < 2 ^ 16 then 1 else 2).sum

section AuthManager

variable {V : Type} {qt : Variant V} (fields : Fields qt)

def userRow (user : UserRecord) : List V :=
  [fields.ofNumber user.id, fields.ofText user.username, fields.ofText user.passwordHash,
   fields.ofNumber user.createdAt, fields.ofNumber user.updatedAt, fields.ofFlag user.isActive,
   fields.ofFlag user.isAdmin]

def userOf (row : List V) : UserRecord where
  id := fields.toNumber (cell qt row 0)
  username := fields.toText (cell qt row 1)
  passwordHash := fields.toText (cell qt row 2)
  createdAt := fields.toNumber (cell qt row 3)
  updatedAt := fields.toNumber (cell qt row 4)
  isActive := fields.toFlag (cell qt row 5)
  isAdmin := fields.toFlag (cell qt row 6)

/-! ## Reading accounts -/

/-- The accounts of a page: marked records are skipped. -/
def pageUsers (columns : List ColumnDef) (page : TablePage) : List UserRecord :=
  (getAllRecords qt columns page).filterMap fun (header, row) =>
    if row.isEmpty then none
    else if header.deleteTxnId ≠ INVALID_TXN_ID then none
    else some (userOf fields row)

def getAllUsers (db : Database V) : List UserRecord :=
  match db.getTable USERS_TABLE with
  | none => []
  | some table =>
      (scan db.disk ((db.chain table).take MAX_PAGES)).flatMap fun found =>
        pageUsers fields table.columns found.2

def getUserFromDatabase (db : Database V) (username : Identifier) : Option UserRecord :=
  (getAllUsers fields db).find? fun user => user.username = username

def userExists (db : Database V) (username : Identifier) : Bool :=
  (getUserFromDatabase fields db username).isSome

def isUserAdmin (db : Database V) (username : Identifier) : Bool :=
  (getUserFromDatabase fields db username).any (·.isAdmin)

def getNextUserId (db : Database V) : UInt64 :=
  ((getAllUsers fields db).map (·.id)).foldl max 0 + 1

/-! ## Writing accounts -/

def insertUser (user : UserRecord) (db : Database V) : Bool × Database V :=
  match db.getTable USERS_TABLE with
  | none => (false, db)
  | some table => insertSystemRow qt table user.id.toNat (userRow fields user) db

/-- A row among the unmarked rows of a page, with its position in their list. -/
structure FoundUser (V : Type) where
  pageId : PageId
  page : TablePage
  position : Nat
  row : List V

/-- The first unmarked row of a page with this name. -/
def findOnPage (columns : List ColumnDef) (username : Identifier) (page : TablePage) :
    Option (List V × Nat) :=
  (getUndeletedRecords qt columns page).zipIdx.find? fun (row, _) =>
    !row.isEmpty && decide (fields.toText (cell qt row 1) = username)

def findUser (columns : List ColumnDef) (username : Identifier)
    (disk : PageId → Option TablePage) : List PageId → Option (FoundUser V)
  | [] => none
  | pageId :: rest =>
      match disk pageId with
      | none => none
      | some page =>
          match findOnPage fields columns username page with
          | some (row, position) => some { pageId, page, position, row }
          | none => findUser columns username disk rest

/-- The row with the changed columns of an account. -/
def changedRow (row : List V) (user : UserRecord) : List V :=
  (((row.set 2 (fields.ofText user.passwordHash)).set 4 (fields.ofNumber user.updatedAt)).set 5
    (fields.ofFlag user.isActive)).set 6 (fields.ofFlag user.isAdmin)

/-- A new page between a page of the table and those that follow it. -/
def linkAfter (table : TableDef) (pageId newPageId : PageId) (db : Database V) : Database V :=
  let following := db.following table.firstPageId
  { db with
    following := Function.update db.following table.firstPageId
      (if pageId = table.firstPageId then newPageId :: following
       else following.flatMap fun next => if next = pageId then [next, newPageId] else [next]) }

/-- The account in a new record: on the same page, or on a new page after it. The old record
is deleted by transaction zero, which is no mark. -/
def reinsertUser (table : TableDef) (user : UserRecord) (found : FoundUser V) (db : Database V) :
    Bool × Database V :=
  let page := (deleteRecord found.page found.position INVALID_TXN_ID).getD found.page
  match insertRecord qt table.columns page user.id.toNat (userRow fields user) INVALID_TXN_ID with
  | some page' => (true, db.writePage found.pageId page')
  | none =>
      match db.freePages with
      | [] => (false, db.writePage found.pageId page)
      | newPageId :: free =>
          match insertRecord qt table.columns .init user.id.toNat (userRow fields user)
              INVALID_TXN_ID with
          | none =>
              (false, { (db.writePage found.pageId page).writePage newPageId .init with
                freePages := free })
          | some newPage =>
              (true, linkAfter table found.pageId newPageId
                { (db.writePage found.pageId page).writePage newPageId newPage with
                  freePages := free })

def updateUser (user : UserRecord) (db : Database V) : Bool × Database V :=
  match db.getTable USERS_TABLE with
  | none => (false, db)
  | some table =>
      match findUser fields table.columns user.username db.disk (db.chain table) with
      | none => (false, db)
      | some found =>
          match updateRecord qt table.columns found.page found.position
              (changedRow fields found.row user) with
          | some page => (true, db.writePage found.pageId page)
          | none => reinsertUser fields table user found db

/-- Whether the deletion was refused is not looked at. -/
def deleteUser (username : Identifier) (db : Database V) : Bool × Database V :=
  match db.getTable USERS_TABLE with
  | none => (false, db)
  | some table =>
      match findUser fields table.columns username db.disk (db.chain table) with
      | none => (false, db)
      | some found =>
          (true, db.writePage found.pageId
            ((deleteRecord found.page found.position 1).getD found.page))

/-! ## The calls -/

def newUser (username passwordHash : Identifier) (now : UInt64) (isAdmin : Bool)
    (db : Database V) : UserRecord where
  id := getNextUserId fields db
  username := username
  passwordHash := passwordHash
  createdAt := now
  updatedAt := now
  isActive := true
  isAdmin := isAdmin

def createUser (username passwordHash : Identifier) (now : UInt64) (isAdmin : Bool)
    (db : Database V) : Bool × Database V :=
  if username = [] ∨ 64 < textLength username then (false, db)
  else if userExists fields db username then (false, db)
  else insertUser fields (newUser fields username passwordHash now isAdmin db) db

/-- The last administrator is not dropped. -/
def dropUser (username : Identifier) (db : Database V) : Bool × Database V :=
  if isUserAdmin fields db username ∧ (getAllUsers fields db).countP (·.isAdmin) ≤ 1 then
    (false, db)
  else deleteUser fields username db

def alterUserPassword (username passwordHash : Identifier) (now : UInt64) (db : Database V) :
    Bool × Database V :=
  match getUserFromDatabase fields db username with
  | none => (false, db)
  | some user => updateUser fields { user with passwordHash, updatedAt := now } db

def setUserActive (username : Identifier) (active : Bool) (now : UInt64) (db : Database V) :
    Bool × Database V :=
  match getUserFromDatabase fields db username with
  | none => (false, db)
  | some user => updateUser fields { user with isActive := active, updatedAt := now } db

/-- The page that `allocatePage` leaves on disk: all its bytes are zero. -/
def zeroPage : TablePage where
  slots := []
  freeSpaceOffset := 0

def usersTable (firstPageId : PageId) : TableDef where
  name := USERS_TABLE
  columns := usersColumns
  firstPageId := firstPageId
  nextRowId := 1

/-- The table is registered also when no page could be allocated for it. -/
def createUsersTable (db : Database V) : Database V :=
  match db.freePages with
  | [] => { db with tables := db.tables ++ [usersTable INVALID_PAGE_ID] }
  | pageId :: free =>
      { db with
        disk := Function.update db.disk pageId (some zeroPage)
        following := Function.update db.following pageId []
        freePages := free
        tables := db.tables ++ [usersTable pageId] }

def ADMIN : Identifier := ['a', 'd', 'm', 'i', 'n']

/-- The users table with the account `admin`, whose password hash is given. -/
def initializeUserSystem (passwordHash : Identifier) (now : UInt64) (db : Database V) :
    Bool × Database V :=
  match db.getTable USERS_TABLE with
  | some _ =>
      if (getAllUsers fields db).length = 0 then createUser fields ADMIN passwordHash now true db
      else (true, db)
  | none => createUser fields ADMIN passwordHash now true (createUsersTable db)

end AuthManager

end QinDB.Auth
