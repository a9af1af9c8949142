/-
# Server.Effect — what one statement can do

`Effect` lists what one statement can do: a statement on tables is executed on the
current database, and every other one makes one of the changes of `Change`. What holds of
every statement is a case analysis over them.

* `execute_effect`: the statements of the model have no other effect.
* `onRows_of_restricted`: what a user who is no administrator may do to tables.
-/
import QinDB.Executor.SessionTransaction
import QinDB.Server.Executor

namespace QinDB.Server

open QinDB.Storage QinDB.Executor QinDB.Auth

set_option autoImplicit false

section Effect

variable {V E : Type} {qt : Variant V} (fields : Fields qt) (ev : Evaluator V E)
  (view : Presentation V E) (services : Services V E)

/-- A statement of a session, with whether the log takes a commit record. -/
def step (s : ExecutorState V) (input : Bool × Statement E) :
    Option (Answer V × ExecutorState V) :=
  some (execute fields ev view services input.1 s input.2)

/-- The transaction of the server after an answer. -/
def Answer.sessionAfter (answer : Answer V) (session : TransactionId) : TransactionId :=
  match answer with
  | .table outcome => outcome.sessionAfter session
  | _ => session

/-- An answer that neither begins nor completes a transaction. -/
def Answer.Steady (answer : Answer V) : Prop :=
  ∀ session, answer.sessionAfter session = session

namespace ExecutorState

/-- Another version of the current database. -/
def withCurrent (s : ExecutorState V) (db : DatabaseDef V) : ExecutorState V :=
  { s with dbManager := s.dbManager.setCurrent db }

/-- Other pages of the system database. -/
def withAccounts (s : ExecutorState V) (db : DatabaseDef V) (pages : Database V) :
    ExecutorState V :=
  { s with dbManager := s.dbManager.setDatabase SYSTEM_DATABASE { db with pages } }

end ExecutorState

open ExecutorState

/-! ## The effects -/

/-- The state after a statement that is not on tables. -/
inductive Change (s : ExecutorState V) : Statement E → ExecutorState V → Prop where
  | nothing (stmt : Statement E) : Change s stmt s
  | switched (name : Identifier) (names : List Identifier) : Change s (.useDatabase name)
      { s with
        dbManager := { s.dbManager with names, currentDatabase := name }
        permissionManager := some name }
  | createdDatabase (dbName timestamp : Identifier) (ifNotExists : Bool) (pages : Database V)
      (unrestricted : s.restricted fields = false) (named : dbName ≠ [])
      (closed : s.dbManager.isOpen dbName = false)
      (permissions : initializePermissionSystem fields dbName timestamp
        (.create s.dbManager.newPages) = some pages) :
      Change s (.createDatabase dbName ifNotExists timestamp)
        { s with dbManager := { s.dbManager.setDatabase dbName { pages, indexes := [] } with
            names := DatabaseManager.insertName dbName s.dbManager.names
            catalogs := DatabaseManager.insertName dbName s.dbManager.catalogs
            currentDatabase := if s.dbManager.currentDatabase = [] then dbName
              else s.dbManager.currentDatabase } }
  | droppedDatabase (dbName current : Identifier) (ifExists : Bool) (left : Option (DatabaseDef V))
      (catalogs : List Identifier) (unrestricted : s.restricted fields = false)
      (known : s.dbManager.isOpen dbName = true)
      (remains : left = none ∨
        left = (s.dbManager.databases dbName).map DatabaseManager.reloaded) :
      Change s (.dropDatabase dbName ifExists)
        { s with dbManager := { s.dbManager with
            databases := Function.update s.dbManager.databases dbName left
            names := s.dbManager.names.filter (· ≠ dbName)
            catalogs
            currentDatabase := current } }
  | pagesTaken (stmt : CreateIndexStatement) (db : DatabaseDef V) (count : Nat)
      (selected : s.dbManager.current = some db) :
      Change s (.createIndex stmt) (s.withCurrent { db with
        pages := { db.pages with freePages := db.pages.freePages.drop count } })
  | indexed (stmt : CreateIndexStatement) (db : DatabaseDef V) (count : Nat) (index : IndexDef)
      (selected : s.dbManager.current = some db) (named : index.tableName = stmt.tableName)
      (accepted : (indexedColumn stmt db).isOk = true) :
      Change s (.createIndex stmt) (s.withCurrent
        { pages := { db.pages with freePages := db.pages.freePages.drop count }
          indexes := db.indexes ++ [index] })
  | unindexed (name : Identifier) (ifExists : Bool) (db : DatabaseDef V)
      (selected : s.dbManager.current = some db) :
      Change s (.dropIndex name ifExists) (s.withCurrent
        { db with indexes := db.indexes.filter fun index => index.name.toLower ≠ name.toLower })
  | created (username passwordHash : Identifier) (now : UInt64) (isAdmin : Bool)
      (db : DatabaseDef V) (attached : s.authManager = true) (system : s.system = some db)
      (unknown : userExists fields db.pages username = false) :
      Change s (.createUser username passwordHash now isAdmin)
        (s.withAccounts db (createUser fields username passwordHash now isAdmin db.pages).2)
  | dropped (username : Identifier) (db : DatabaseDef V) (attached : s.authManager = true)
      (system : s.system = some db) (known : userExists fields db.pages username = true) :
      Change s (.dropUser username) (s.withAccounts db (dropUser fields username db.pages).2)
  | altered (username passwordHash : Identifier) (now : UInt64) (db : DatabaseDef V)
      (attached : s.authManager = true) (system : s.system = some db)
      (known : userExists fields db.pages username = true) :
      Change s (.alterUser username passwordHash now)
        (s.withAccounts db (alterUserPassword fields username passwordHash now db.pages).2)
  -- GRANT opens its target and leaves it as the current database when there was none
  | looked (privilege : Privilege) (withGrantOption : Bool) (timestamp current : Identifier)
      (names : List Identifier) (attached : s.authManager = true) (unrestricted : s.restricted fields = false)
      (back : ∀ db, s.dbManager.current = some db → current = s.dbManager.currentDatabase) :
      Change s (.grant privilege withGrantOption timestamp)
        { s with dbManager := { s.dbManager with names, currentDatabase := current } }
  | granted (privilege : Privilege) (withGrantOption : Bool) (timestamp current own : Identifier)
      (names : List Identifier) (db : DatabaseDef V) (attached : s.authManager = true)
      (unrestricted : s.restricted fields = false) (manages : s.permissionManager = some own)
      (found : s.dbManager.databases own = some db)
      (back : ∀ db, s.dbManager.current = some db → current = s.dbManager.currentDatabase) :
      Change s (.grant privilege withGrantOption timestamp)
        { s with
          dbManager := DatabaseManager.setDatabase
            { s.dbManager with names, currentDatabase := current } own { db with
              pages := (grantPermission fields own privilege.username privilege.databaseName
                privilege.tableName (convertPrivilegeType privilege.privilegeType)
                withGrantOption [] timestamp db.pages).2 } }
  | revoked (privilege : Privilege) (own : Identifier) (db : DatabaseDef V)
      (attached : s.authManager = true) (unrestricted : s.restricted fields = false)
      (manages : s.permissionManager = some own) (found : s.dbManager.databases own = some db) :
      Change s (.revoke privilege)
        { s with
          dbManager := s.dbManager.setDatabase own { db with
            pages := (revokePermission fields privilege.username privilege.databaseName
              privilege.tableName (convertPrivilegeType privilege.privilegeType) db.pages).2 } }

/-- The answer to a statement and the state after it. -/
inductive Effect (walCommits : Bool) (s : ExecutorState V) :
    Statement E → Answer V → ExecutorState V → Prop where
  | rows (stmt : Executor.Statement E) (db : DatabaseDef V)
      (selected : s.dbManager.current = some db) (allowed : s.tablePermission fields stmt = none)
      (result : Outcome V × TransactionId × Database V)
      (executed : Executor.execute qt ev view walCommits s.dbManager.currentTransactionId
        db.pages stmt = result) :
      Effect walCommits s (.table stmt) (.table result.1)
        { s with dbManager :=
          { s.dbManager.setCurrent { droppedIndexes db stmt with pages := result.2.2 } with
            currentTransactionId := result.2.1 } }
  | beside {stmt : Statement E} {answer : Answer V} {s' : ExecutorState V}
      (steady : answer.Steady) (change : Change fields s stmt s') :
      Effect walCommits s stmt answer s'

variable {fields ev view services} {walCommits : Bool} {s : ExecutorState V}

theorem Effect.idle {stmt : Statement E} {answer : Answer V} (steady : answer.Steady) :
    Effect fields ev view walCommits s stmt answer s :=
  .beside steady (.nothing stmt)

/-! ## Tables and indexes -/

theorem withoutDatabase_steady (stmt : Executor.Statement E) :
    (withoutDatabase view stmt : Answer V).Steady := by
  cases stmt with
  | select stmt =>
    rw [withoutDatabase]
    split
    · exact exportResult_steady view stmt fun _ => rfl
    · exact fun _ => rfl
  | _ => exact fun _ => rfl

theorem executeTable_effect (stmt : Executor.Statement E) :
    Effect fields ev view walCommits s (.table stmt)
      (s.executeTable fields ev view walCommits stmt).1
      (s.executeTable fields ev view walCommits stmt).2 := by
  rw [executeTable]
  cases permission : s.tablePermission fields stmt with
  | some error => exact .idle fun _ => rfl
  | none =>
    simp only [onTables]
    cases selected : s.dbManager.current with
    | none => exact .idle (withoutDatabase_steady stmt)
    | some db => exact .rows stmt db selected permission _ rfl

theorem indexedColumn_steady {stmt : CreateIndexStatement} {db : DatabaseDef V} {answer : Answer V}
    (refused : indexedColumn stmt db = .error answer) : answer.Steady := by
  rw [indexedColumn] at refused
  split at refused
  · cases refused
    exact fun _ => rfl
  · split at refused
    · cases refused
      split <;> exact fun _ => rfl
    · split at refused
      · split at refused
        · cases refused
          exact fun _ => rfl
        · split at refused
          · cases refused
            exact fun _ => rfl
          · split at refused
            · cases refused
              exact fun _ => rfl
            · cases refused
      · cases refused
        exact fun _ => rfl

theorem executeCreateIndex_effect (stmt : CreateIndexStatement) :
    Effect fields ev view walCommits s (.createIndex stmt)
      (s.executeCreateIndex services stmt).1 (s.executeCreateIndex services stmt).2 := by
  rw [executeCreateIndex]
  cases selected : s.dbManager.current with
  | none => exact .idle fun _ => rfl
  | some db =>
    cases checked : indexedColumn stmt db with
    | error answer =>
      simp only [checked]
      exact .idle (indexedColumn_steady checked)
    | ok found =>
      obtain ⟨table, columnName, column⟩ := found
      simp only [checked]
      cases root : (services.buildIndex stmt column table db.pages).root with
      | error error => exact .beside (fun _ => rfl) (.pagesTaken stmt db _ selected)
      | ok rootPageId =>
        simp only [DatabaseDef.createIndex]
        split
        · exact .beside (fun _ => rfl) (.pagesTaken stmt db _ selected)
        · rename_i db' stored
          split at stored
          · cases stored
          · split at stored
            · cases stored
            · cases stored
              refine .beside (fun _ => rfl) (.indexed stmt db _ _ selected rfl ?_)
              rw [checked]
              rfl

theorem executeDropIndex_effect (name : Identifier) (ifExists : Bool) :
    Effect fields ev view walCommits s (.dropIndex name ifExists)
      (s.executeDropIndex name ifExists).1 (s.executeDropIndex name ifExists).2 := by
  rw [executeDropIndex]
  cases selected : s.dbManager.current with
  | none => exact .idle fun _ => rfl
  | some db =>
    simp only [DatabaseDef.dropIndex]
    split
    · refine .idle ?_
      split <;> exact fun _ => rfl
    · rename_i db' found
      split at found
      · cases found
      · cases found
        exact .beside (fun _ => rfl) (.unindexed name ifExists db selected)

/-! ## Databases -/

theorem adminOnly_eq_none {action : String} :
    s.adminOnly fields action = none ↔ s.restricted fields = false := by
  simp [adminOnly]

theorem executeCreateDatabase_effect (dbName timestamp : Identifier) (ifNotExists : Bool) :
    Effect fields ev view walCommits s (.createDatabase dbName ifNotExists timestamp)
      (s.executeCreateDatabase fields dbName ifNotExists timestamp).1
      (s.executeCreateDatabase fields dbName ifNotExists timestamp).2 := by
  rw [executeCreateDatabase]
  split
  · exact .idle fun _ => rfl
  · rename_i unrestricted
    split
    · exact .idle fun _ => rfl
    · rename_i manager created
      rw [DatabaseManager.createDatabase] at created
      split at created
      · cases created
      · rename_i named
        split at created
        · split at created
          · cases created
            exact .idle fun _ => rfl
          · cases created
        · rename_i closed
          split at created
          · cases created
          · rename_i pages permissions
            cases created
            exact .beside (fun _ => rfl) (.createdDatabase dbName timestamp ifNotExists pages
              (adminOnly_eq_none.mp unrestricted) named (Bool.not_eq_true _ ▸ closed)
              permissions)

theorem executeDropDatabase_effect (dbName : Identifier) (ifExists : Bool) :
    Effect fields ev view walCommits s (.dropDatabase dbName ifExists)
      (s.executeDropDatabase fields dbName ifExists).1
      (s.executeDropDatabase fields dbName ifExists).2 := by
  rw [executeDropDatabase]
  split
  · exact .idle fun _ => rfl
  · rename_i unrestricted
    have unrestricted := adminOnly_eq_none.mp unrestricted
    rw [DatabaseManager.dropDatabase]
    by_cases known : s.dbManager.isOpen dbName = true
    · simp only [known, Bool.not_true, Bool.false_eq_true, if_false]
      cases s.dbManager.removal dbName with
      | removed =>
        exact .beside (fun _ => rfl) (.droppedDatabase dbName _ ifExists none _ unrestricted known
          (.inl rfl))
      | failed loads =>
        refine .beside (fun _ => rfl) (.droppedDatabase dbName _ ifExists _ _ unrestricted known ?_)
        cases loads
        · exact .inl rfl
        · exact .inr rfl
    · simp only [known, Bool.not_false, if_true]
      cases ifExists <;> exact .idle fun _ => rfl

/-! ## Accounts and permissions -/

/-- The checks of the three statements on accounts. -/
theorem onAccounts_effect {stmt : Statement E} {call : Database V → Bool × Database V}
    {failure success : String}
    (called : ∀ db, s.system = some db → Change fields s stmt (s.withAccounts db (call db.pages).2)) :
    Effect fields ev view walCommits s stmt (s.onAccounts call failure success).1
      (s.onAccounts call failure success).2 := by
  rw [onAccounts]
  cases system : s.system with
  | none => exact .idle fun _ => rfl
  | some db =>
    refine .beside ?_ (called db system)
    dsimp only
    split <;> exact fun _ => rfl

theorem executeCreateUser_effect (username passwordHash : Identifier) (now : UInt64)
    (isAdmin : Bool) :
    Effect fields ev view walCommits s (.createUser username passwordHash now isAdmin)
      (s.executeCreateUser fields username passwordHash now isAdmin).1
      (s.executeCreateUser fields username passwordHash now isAdmin).2 := by
  rw [executeCreateUser]
  split
  · exact .idle fun _ => rfl
  · rename_i attached
    split
    · exact .idle fun _ => rfl
    · rename_i unknown
      refine onAccounts_effect fun db system =>
        .created _ _ _ _ db (by simpa using attached) system ?_
      rw [ExecutorState.userExists, system, Option.any_some] at unknown
      exact Bool.eq_false_iff.mpr unknown

/-- DROP USER and ALTER USER are for accounts that exist. -/
theorem onUser_effect {stmt : Statement E} {username : Identifier}
    {call : Database V → Bool × Database V} {failure success : String}
    (called : ∀ db, s.authManager = true → s.system = some db →
      userExists fields db.pages username = true →
      Change fields s stmt (s.withAccounts db (call db.pages).2)) :
    let done := if !s.authManager then (noAuthManager, s)
      else if !s.userExists fields username then (userMissing username, s)
      else s.onAccounts call failure success
    Effect fields ev view walCommits s stmt done.1 done.2 := by
  intro done
  simp only [done]
  split
  · exact .idle fun _ => rfl
  · rename_i attached
    split
    · exact .idle fun _ => rfl
    · rename_i known
      refine onAccounts_effect fun db system => called db (by simpa using attached) system ?_
      rw [ExecutorState.userExists, system, Option.any_some] at known
      simpa using known

/-- The check switches to the database of the permission and, if there was one, back. -/
theorem checkTarget_eq (manager : DatabaseManager V) (privilege : Privilege) :
    ∃ names current,
      (checkTarget manager privilege).2 = { manager with names, currentDatabase := current } ∧
      ∀ db, manager.current = some db → current = manager.currentDatabase := by
  have switched : ∀ (manager : DatabaseManager V) dbName, ∃ names current,
      switchTo manager dbName = { manager with names, currentDatabase := current } ∧
        ∀ db, manager.databases dbName = some db → current = dbName := by
    intro manager dbName
    rw [switchTo]
    split
    · rename_i used
      obtain ⟨names, same, -⟩ := DatabaseManager.useDatabase_eq used
      exact ⟨names, dbName, same, fun _ _ => rfl⟩
    · rename_i refused
      refine ⟨_, _, rfl, fun db found => ?_⟩
      rw [DatabaseManager.useDatabase, found] at refused
      split at refused <;> cases refused
  rw [checkTarget]
  split
  · exact ⟨_, _, rfl, fun _ _ => rfl⟩
  · obtain ⟨names, target, there, -⟩ := switched manager privilege.databaseName
    obtain ⟨names', current, back, found⟩ := switched { manager with names, currentDatabase := target }
      manager.currentDatabase
    exact ⟨names', current, by simp only [there, back], fun db selected =>
      found db (DatabaseManager.current_eq_some selected)⟩

/-- The checks that GRANT and REVOKE share. -/
theorem onPermissions_effect {stmt : Statement E} {action : String} {privilege : Privilege}
    {call : Identifier → DatabaseDef V → Answer V × ExecutorState V}
    (called : ∀ own db, s.authManager = true → s.restricted fields = false →
      s.permissionManager = some own → s.dbManager.databases own = some db →
      Effect fields ev view walCommits s stmt (call own db).1 (call own db).2) :
    Effect fields ev view walCommits s stmt (s.onPermissions fields action privilege call).1
      (s.onPermissions fields action privilege call).2 := by
  rw [onPermissions]
  split
  · exact .idle fun _ => rfl
  · rename_i unrestricted
    split
    · exact .idle fun _ => rfl
    · rename_i own db found
      obtain ⟨own', manages, known⟩ := Option.bind_eq_some_iff.mp found
      obtain ⟨db', known, same⟩ := Option.map_eq_some_iff.mp known
      cases same
      split
      · exact .idle fun _ => rfl
      · rename_i attached
        split
        · exact .idle fun _ => rfl
        · exact called own db (by simpa using attached) (adminOnly_eq_none.mp unrestricted) manages
            known

theorem executeGrant_effect (privilege : Privilege) (withGrantOption : Bool)
    (timestamp : Identifier) :
    Effect fields ev view walCommits s (.grant privilege withGrantOption timestamp)
      (s.executeGrant fields privilege withGrantOption timestamp).1
      (s.executeGrant fields privilege withGrantOption timestamp).2 := by
  refine onPermissions_effect fun own db attached unrestricted manages found => ?_
  obtain ⟨names, current, checked, back⟩ := checkTarget_eq s.dbManager privilege
  split
  · exact .idle fun _ => rfl
  · simp only [checked]
    split
    · exact .beside (fun _ => rfl) (.looked privilege withGrantOption timestamp current names
        attached unrestricted back)
    · refine .beside ?_ (.granted privilege withGrantOption timestamp current own names db
        attached unrestricted manages found back)
      split <;> exact fun _ => rfl

theorem executeRevoke_effect (privilege : Privilege) :
    Effect fields ev view walCommits s (.revoke privilege)
      (s.executeRevoke fields privilege).1 (s.executeRevoke fields privilege).2 := by
  refine onPermissions_effect fun own db attached unrestricted manages found => ?_
  refine .beside ?_ (.revoked privilege own db attached unrestricted manages found)
  dsimp only
  split <;> exact fun _ => rfl

/-! ## One statement -/

variable (fields ev view services walCommits s) in
/-- A statement does nothing else. -/
theorem execute_effect (stmt : Statement E) :
    Effect fields ev view walCommits s stmt
      (execute fields ev view services walCommits s stmt).1
      (execute fields ev view services walCommits s stmt).2 := by
  cases stmt with
  | table stmt => exact executeTable_effect stmt
  | createIndex stmt => exact executeCreateIndex_effect stmt
  | dropIndex name ifExists => exact executeDropIndex_effect name ifExists
  | createDatabase dbName ifNotExists timestamp => exact executeCreateDatabase_effect ..
  | dropDatabase dbName ifExists => exact executeDropDatabase_effect dbName ifExists
  | createUser username passwordHash now isAdmin => exact executeCreateUser_effect _ _ _ _
  | dropUser username =>
    exact onUser_effect fun db attached system known => .dropped _ db attached system known
  | alterUser username passwordHash now =>
    exact onUser_effect fun db attached system known => .altered _ _ _ db attached system known
  | grant privilege withGrantOption timestamp => exact executeGrant_effect _ _ _
  | revoke privilege => exact executeRevoke_effect privilege
  | useDatabase name =>
    rw [execute, executeUseDatabase]
    split
    · exact .idle fun _ => rfl
    · rename_i dbManager used
      obtain ⟨names, rfl, -⟩ := DatabaseManager.useDatabase_eq used
      exact .beside (fun _ => rfl) (.switched name names)
  | showDatabases => exact .idle fun _ => rfl
  | showTables =>
    refine .idle ?_
    simp only [execute, executeShowTables]
    split <;> exact fun _ => rfl
  | save =>
    refine .idle ?_
    simp only [execute, executeSave]
    split
    · exact fun _ => rfl
    · split <;> exact fun _ => rfl
  | analyze tableName =>
    refine .idle ?_
    simp only [execute, executeAnalyze]
    split
    · exact fun _ => rfl
    · split
      · split <;> exact fun _ => rfl
      · split
        · exact fun _ => rfl
        · split <;> exact fun _ => rfl
  | explain query =>
    refine .idle ?_
    simp only [execute, executeExplain]
    split
    · exact fun _ => rfl
    · split <;> exact fun _ => rfl

/-- Tables are created and dropped by administrators only. -/
theorem onRows_of_restricted (restricted : s.restricted fields = true)
    {stmt : Executor.Statement E} (allowed : s.tablePermission fields stmt = none) :
    stmt.OnRows ∧ ∀ db : DatabaseDef V, droppedIndexes db stmt = db := by
  cases stmt with
  | createTable name columns =>
    rw [adminOnly_eq_none.mp allowed] at restricted
    cases restricted
  | dropTable name =>
    rw [adminOnly_eq_none.mp allowed] at restricted
    cases restricted
  | _ => exact ⟨trivial, fun _ => rfl⟩

end Effect

end QinDB.Server
