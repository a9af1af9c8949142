/-
# Server.RemoteAuthorization — permissions and the statements of a client

The executor of a connection has no authentication manager, so nothing that a client
sends is checked. What a message does is authorized exactly when the user happens to
have the permission: a SELECT, INSERT, UPDATE or DELETE for its tables; tables and
databases must not be created or dropped.

* `remote_authorized`: a run of harmless messages is authorized, message by message.
* `client_unchecked`: a client without permissions reads and deletes rows and creates a
  table.
-/
import QinDB.Base.Path
import QinDB.Server.AccountIntegrity
import QinDB.Server.ClientConnection

namespace QinDB.Executor

open QinDB.Storage

set_option autoImplicit false

section TableState

variable {V : Type} {db db' : Database V} {name : Identifier}

/-- A table: its entry in the catalog and the pages of its chain. -/
def Database.tableState (db : Database V) (tableName : Identifier) :
    Option (TableDef × List (Option TablePage)) :=
  (db.getTable tableName).map fun table => (table, (db.chain table).map db.disk)

theorem Elsewhere.tableState (elsewhere : Elsewhere name db db') {other : Identifier}
    (different : other.toLower ≠ name.toLower) : db'.tableState other = db.tableState other := by
  rw [Database.tableState, Database.tableState, elsewhere.entry other different]
  cases found : db.getTable other with
  | none => rfl
  | some table =>
    rw [Option.map_some, Option.map_some, elsewhere.chain other table different found]
    have pages := List.map_congr_left (elsewhere.disk other table different found)
    rw [pages]

end TableState

end QinDB.Executor

namespace QinDB.Server

open QinDB.Base QinDB.Storage QinDB.Executor QinDB.Auth ExecutorState

set_option autoImplicit false

section Remote

variable {V E : Type} {qt : Variant V} (fields : Fields qt) (ev : Evaluator V E)
  (view : Presentation V E) (services : Services V E)
  (verifyPassword : Identifier → Identifier → Bool)

/-! ## What is authorized -/

def DatabaseManager.tableState (manager : DatabaseManager V) (dbName tableName : Identifier) :
    Option (TableDef × List (Option TablePage)) :=
  (manager.databases dbName).bind fun db => db.pages.tableState tableName

/-- What a message makes the server execute. -/
structure Execution (V E : Type) where
  executor : ExecutorState V
  walCommits : Bool
  stmt : Statement E

/-- Every database can be used. -/
def DatabaseManager.AllUsable (manager : DatabaseManager V) : Prop :=
  ∀ name db, manager.databases name = some db → Usable db.pages

def Response.rows : Response V → List (List V)
  | .query _ rows _ => rows
  | _ => []

namespace ClientConnection

/-- Whether the user of the connection has a permission, by the records of the database. -/
def permitted (c : ClientConnection V) (dbName tableName : Identifier)
    (permType : PermissionType) : Bool :=
  (c.dbManager.databases dbName).any fun db =>
    hasPermission fields db.pages c.username dbName tableName permType

/-- The statement that a message makes the server execute. -/
def statementOf (c : ClientConnection V) : Message E → Option (Statement E)
  | .queryRequest (some request) =>
      if c.isAuthenticated && decide (request.sessionId = c.sessionId) then request.parsed else none
  | _ => none

/-- Nothing is executed for a client that is not authenticated or gives another session, for a
text that does not parse, for USE DATABASE, and when the database is gone. -/
def execution (c : ClientConnection V) : Message E → Option (Execution V E)
  | .queryRequest (some request) =>
      if c.isAuthenticated && decide (request.sessionId = c.sessionId) then
        match request.parsed with
        | none => none
        | some (.useDatabase _) => none
        | some stmt =>
            match c.dbManager.useDatabase c.currentDatabase with
            | .error _ => none
            | .ok dbManager =>
                some { executor := newExecutor dbManager, walCommits := request.walCommits, stmt }
      else none
  | _ => none

/-- The databases of the server, with that of the connection as the current one, which may have
been opened for it. -/
def selectedManager (c : ClientConnection V) (names : List Identifier) : DatabaseManager V :=
  { c.dbManager with names, currentDatabase := c.currentDatabase }

/-- The database is open when a statement of the connection is executed. -/
def opens (c : ClientConnection V) (name : Identifier) : Bool :=
  decide (name = c.currentDatabase) || c.dbManager.isOpen name

/-- Only tables change that the user may change; their names are compared without letter case. -/
def ChangesPermitted (c c' : ClientConnection V) (permType : PermissionType) : Prop :=
  ∀ dbName tableName,
    c'.dbManager.tableState dbName tableName ≠ c.dbManager.tableState dbName tableName →
    ∃ name, name.toLower = tableName.toLower ∧ c.permitted fields dbName name permType = true

/-- The tables whose rows a SELECT returns; of its joins only the first is executed. -/
def readTables (stmt : SelectStatement E) : List Identifier :=
  match stmt.from_ with
  | none => []
  | some name => name :: (stmt.joins.take 1).map (·.right)

/-- What a statement may answer and change. -/
def AuthorizedStatement (c c' : ClientConnection V) (response : Response V) :
    Statement E → Prop
  | .table (.select stmt) => response.rows ≠ [] → ∀ name ∈ readTables stmt,
      c.permitted fields c.currentDatabase name .SELECT = true
  | .table (.insert _) => c.ChangesPermitted fields c' .INSERT
  | .table (.update _) => c.ChangesPermitted fields c' .UPDATE
  | .table (.delete _) => c.ChangesPermitted fields c' .DELETE
  | .table (.createTable _ _) | .table (.dropTable _) | .createDatabase _ _ _ | .dropDatabase _ _ =>
      c'.dbManager.databases = c.dbManager.databases
  | _ => True

def Authorized (c : ClientConnection V) (message : Message E) : Prop :=
  ∀ stmt, c.statementOf message = some stmt →
    c.AuthorizedStatement fields
      (c.handleMessage fields ev view services verifyPassword message).2
      (c.handleMessage fields ev view services verifyPassword message).1 stmt

/-- The user has the permission for what the statement does, or it does nothing. -/
def harmlessStatement (c : ClientConnection V) (db : Option (DatabaseDef V)) : Statement E → Bool
  | .table (.select stmt) =>
      ((readTables stmt).all fun name => c.permitted fields c.currentDatabase name .SELECT) ||
        db.all fun db => stmt.from_.any fun name => (db.pages.getTable name).isNone
  | .table (.insert stmt) =>
      c.permitted fields c.currentDatabase stmt.tableName .INSERT ||
        db.all fun db => (db.pages.getTable stmt.tableName).isNone
  | .table (.update stmt) =>
      c.permitted fields c.currentDatabase stmt.tableName .UPDATE ||
        db.all fun db => (db.pages.getTable stmt.tableName).isNone
  | .table (.delete stmt) =>
      c.permitted fields c.currentDatabase stmt.tableName .DELETE ||
        db.all fun db => (db.pages.getTable stmt.tableName).isNone
  | .table (.createTable name _) =>
      db.all fun db => (db.pages.getTable name).isSome || db.pages.freePages.isEmpty
  | .table (.dropTable name) => db.all fun db => (db.pages.getTable name).isNone
  | .createDatabase name _ _ => name.isEmpty || c.opens name
  | .dropDatabase name _ => !c.opens name
  | _ => true

/-- The message asks for a database by its plain name: a path like `./shop` is another name of
`shop` to the server, which then has the files of one database open under two names. What is
executed is harmless. -/
def harmless (c : ClientConnection V) (message : Message E) : Bool :=
  (message.database.all fun name => decide (Path.PlainName name)) &&
    (c.execution message).all fun run =>
      c.harmlessStatement fields (c.dbManager.databases c.currentDatabase) run.stmt

/-! ## Statements of a client -/

variable {fields ev view services verifyPassword} {c c' : ClientConnection V}

/-- No check stands before the statements of a client. -/
theorem tablePermission_newExecutor (dbManager : DatabaseManager V) (stmt : Executor.Statement E) :
    (newExecutor dbManager).tablePermission fields stmt = none := by
  cases stmt with
  | select stmt => exact List.findSome?_eq_none_iff.mpr fun _ _ => rfl
  | _ => rfl

/-- Without a database no row is returned. -/
theorem respond_withoutDatabase (currentDatabase : Identifier) (stmt : Executor.Statement E) :
    (respond (V := V) currentDatabase (withoutDatabase view stmt)).rows = [] := by
  cases stmt with
  | select stmt =>
    rw [withoutDatabase]
    split
    · rw [exportResult]
      split
      · rfl
      · split <;> rfl
    · rfl
  | _ => rfl

variable {names : List Identifier}

variable (fields ev view services c names) in
/-- A statement on tables: there is no database, or the statement is executed on it. -/
theorem execute_table (walCommits : Bool) (stmt : Executor.Statement E) :
    let done := execute fields ev view services walCommits (newExecutor (c.selectedManager names))
      (.table stmt)
    (done.2.dbManager.databases = c.dbManager.databases ∧
        (respond c.currentDatabase done.1).rows = []) ∨
      ∃ db, c.dbManager.databases c.currentDatabase = some db ∧
        let result := Executor.execute qt ev view walCommits c.dbManager.currentTransactionId
          db.pages stmt
        done.1 = .table result.1 ∧
          done.2.dbManager.databases = Function.update c.dbManager.databases c.currentDatabase
            (some { droppedIndexes db stmt with pages := result.2.2 }) := by
  simp only [execute, executeTable, tablePermission_newExecutor, onTables]
  cases selected : (newExecutor (c.selectedManager names)).dbManager.current with
  | none => exact .inl ⟨rfl, respond_withoutDatabase _ stmt⟩
  | some db => exact .inr ⟨db, DatabaseManager.current_eq_some selected, rfl, rfl⟩

/-- A change of one table, for which the user has the permission. -/
theorem changesPermitted_of_elsewhere {db : DatabaseDef V} {pages : Database V} {name : Identifier}
    {permType : PermissionType} (selected : c.dbManager.databases c.currentDatabase = some db)
    (after : c'.dbManager.databases = Function.update c.dbManager.databases c.currentDatabase
      (some { db with pages }))
    (elsewhere : Elsewhere name db.pages pages)
    (allowed : c.permitted fields c.currentDatabase name permType = true ∨ pages = db.pages) :
    c.ChangesPermitted fields c' permType := by
  intro dbName tableName changed
  rw [DatabaseManager.tableState, DatabaseManager.tableState, after] at changed
  by_cases here : dbName = c.currentDatabase
  · subst here
    rw [Function.update_self, selected, Option.bind_some, Option.bind_some] at changed
    rcases allowed with permitted | same
    · by_cases named : tableName.toLower = name.toLower
      · exact ⟨name, named.symm, permitted⟩
      · exact absurd (elsewhere.tableState named) changed
    · exact absurd (by rw [same]) changed
  · rw [Function.update_of_ne here] at changed
    exact absurd rfl changed

variable (fields ev view services verifyPassword c) in
/-- A message executes its statement in the database of the connection, or it returns no rows and
leaves databases and transaction as they are. -/
theorem handleMessage_cases (message : Message E) :
    let done := c.handleMessage fields ev view services verifyPassword message
    (c.execution message = none ∧ done.2.dbManager.databases = c.dbManager.databases ∧
      done.2.dbManager.currentTransactionId = c.dbManager.currentTransactionId ∧
      done.1.rows = []) ∨
    ∃ run names, c.execution message = some run ∧ c.statementOf message = some run.stmt ∧
      run.executor = newExecutor (c.selectedManager names) ∧
      (∀ name, names.contains name = c.opens name) ∧
      let after := execute fields ev view services run.walCommits run.executor run.stmt
      done.1 = respond c.currentDatabase after.1 ∧ done.2.dbManager = after.2.dbManager := by
  cases message with
  | authRequest request =>
    refine .inl ⟨rfl, ?_⟩
    simp only [handleMessage, handleAuthRequest]
    split
    · exact ⟨rfl, rfl, rfl⟩
    · split
      · exact ⟨rfl, rfl, rfl⟩
      · split <;> exact ⟨rfl, rfl, rfl⟩
  | databaseSwitch name =>
    refine .inl ⟨rfl, ?_⟩
    simp only [handleMessage, handleDatabaseSwitch]
    split
    · exact ⟨rfl, rfl, rfl⟩
    · split
      · exact ⟨rfl, rfl, rfl⟩
      · split
        · exact ⟨rfl, rfl, rfl⟩
        · rename_i used
          obtain ⟨names, rfl, -⟩ := DatabaseManager.useDatabase_eq used
          exact ⟨rfl, rfl, rfl⟩
  | queryRequest request =>
    cases request with
    | none =>
      refine .inl ⟨rfl, ?_⟩
      simp only [handleMessage, handleQueryRequest]
      split <;> exact ⟨rfl, rfl, rfl⟩
    | some request =>
      simp only [handleMessage, handleQueryRequest, execution, statementOf]
      by_cases accepted : c.isAuthenticated = true ∧ request.sessionId = c.sessionId
      · simp only [accepted.1, accepted.2, Bool.not_true, Bool.false_eq_true, if_false, ne_eq,
          not_true_eq_false, decide_true, Bool.and_self, if_true]
        cases request.parsed with
        | none => exact .inl ⟨rfl, rfl, rfl, rfl⟩
        | some stmt =>
          cases stmt with
          | useDatabase name => exact .inl ⟨rfl, rfl, rfl, rfl⟩
          | _ =>
            simp only [runStatement]
            cases used : c.dbManager.useDatabase c.currentDatabase with
            | error refusal => exact .inl ⟨rfl, rfl, rfl, rfl⟩
            | ok manager =>
              obtain ⟨names, rfl, opened⟩ := DatabaseManager.useDatabase_eq used
              exact .inr ⟨_, names, rfl, rfl, rfl, opened, rfl, rfl⟩
      · refine .inl ⟨if_neg (by simpa using accepted), ?_⟩
        by_cases authenticated : c.isAuthenticated = true
        · have other : request.sessionId ≠ c.sessionId := fun same => accepted ⟨authenticated, same⟩
          simp only [authenticated, Bool.not_true, Bool.false_eq_true, if_false, if_pos other]
          exact ⟨trivial, trivial, rfl⟩
        · simp only [authenticated, Bool.not_false, if_true]
          exact ⟨trivial, trivial, rfl⟩
  | _ => exact .inl ⟨rfl, rfl, rfl, rfl⟩

/-- Nothing happened. -/
theorem changesPermitted_of_same {permType : PermissionType}
    (same : c'.dbManager.databases = c.dbManager.databases) :
    c.ChangesPermitted fields c' permType := by
  intro dbName tableName changed
  rw [DatabaseManager.tableState, DatabaseManager.tableState, same] at changed
  exact absurd rfl changed

/-! ## Harmless statements -/

/-- A SELECT from a missing table returns no rows. -/
theorem executeSelect_missing {session : TransactionId} {stmt : SelectStatement E}
    {pages : Database V} {name : Identifier} (from_ : stmt.from_ = some name)
    (missing : pages.getTable name = none) (currentDatabase : Identifier) :
    (respond currentDatabase (.table (executeSelect qt ev view session stmt pages))).rows = [] := by
  simp only [executeSelect, selectResult, selectWith, from_, missing, exportResult]
  cases stmt.exportFilePath with
  | none => rfl
  | some path => rfl

/-- The pages of a database stay as they are when a statement on a table does nothing. -/
theorem databases_unchanged {db : DatabaseDef V} {pages : Database V}
    (selected : c.dbManager.databases c.currentDatabase = some db) (same : pages = db.pages)
    (after : c'.dbManager.databases = Function.update c.dbManager.databases c.currentDatabase
      (some { db with pages })) : c'.dbManager.databases = c.dbManager.databases := by
  rw [after, same]
  show Function.update c.dbManager.databases c.currentDatabase (some db) = _
  rw [← selected, Function.update_eq_self]

/-- Without rows and changes every statement is authorized. -/
theorem authorized_of_same {response : Response V}
    (same : c'.dbManager.databases = c.dbManager.databases) (nothing : response.rows = [])
    (stmt : Statement E) : c.AuthorizedStatement fields c' response stmt := by
  cases stmt with
  | table stmt =>
    cases stmt with
    | select stmt => exact fun rows => absurd nothing rows
    | insert stmt => exact changesPermitted_of_same same
    | update stmt => exact changesPermitted_of_same same
    | delete stmt => exact changesPermitted_of_same same
    | createTable name columns => exact same
    | dropTable name => exact same
    | _ => trivial
  | createDatabase name ifNotExists timestamp => exact same
  | dropDatabase name ifExists => exact same
  | _ => trivial

theorem table_authorized (usable : c.dbManager.AllUsable) {walCommits : Bool}
    {stmt : Executor.Statement E} {response : Response V}
    (answered : response = respond c.currentDatabase (execute fields ev view services walCommits
      (newExecutor (c.selectedManager names)) (.table stmt)).1)
    (manager : c'.dbManager = (execute fields ev view services walCommits
      (newExecutor (c.selectedManager names)) (.table stmt)).2.dbManager)
    (harmless : c.harmlessStatement fields (c.dbManager.databases c.currentDatabase)
      (.table stmt) = true) :
    c.AuthorizedStatement fields c' response (.table stmt) := by
  rcases execute_table fields ev view services c names walCommits stmt with
    ⟨same, nothing⟩ | ⟨db, selected, done, after⟩
  · rw [← manager] at same
    rw [← answered] at nothing
    exact authorized_of_same same nothing _
  · rw [← manager] at after
    rw [done] at answered
    have ok := harmless
    rw [selected] at ok
    have fit := usable _ db selected
    cases stmt with
    | select stmt =>
      intro rows
      simp only [harmlessStatement, Bool.or_eq_true, List.all_eq_true] at ok
      rcases ok with permitted | missing
      · exact permitted
      · obtain ⟨name, from_, absent⟩ := (Option.any_eq_true _ _).mp missing
        rw [answered] at rows
        exact absurd (executeSelect_missing from_ (Option.isNone_iff_eq_none.mp absent) _) rows
    | insert stmt =>
      refine changesPermitted_of_elsewhere selected after (executeInsert_elsewhere fit stmt) ?_
      refine (Bool.or_eq_true _ _ ▸ ok).imp id fun missing => ?_
      show (executeInsert qt ev walCommits _ stmt db.pages).2 = _
      rw [executeInsert, Option.isNone_iff_eq_none.mp missing]
    | update stmt =>
      refine changesPermitted_of_elsewhere selected after (executeUpdate_elsewhere fit stmt) ?_
      refine (Bool.or_eq_true _ _ ▸ ok).imp id fun missing => ?_
      show (executeUpdate qt ev walCommits _ stmt db.pages).2 = _
      rw [executeUpdate, Option.isNone_iff_eq_none.mp missing]
    | delete stmt =>
      refine changesPermitted_of_elsewhere selected after (executeDelete_elsewhere fit stmt) ?_
      refine (Bool.or_eq_true _ _ ▸ ok).imp id fun missing => ?_
      show (executeDelete qt ev walCommits _ stmt db.pages).2 = _
      rw [executeDelete, Option.isNone_iff_eq_none.mp missing]
    | createTable name columns =>
      refine databases_unchanged selected ?_ after
      show (executeCreateTable name columns db.pages).2 = db.pages
      simp only [harmlessStatement, Option.all_some, Bool.or_eq_true, List.isEmpty_iff] at ok
      rw [executeCreateTable]
      split
      · rfl
      · rename_i absent
        rcases ok with exists_ | full
        · rw [absent] at exists_
          cases exists_
        · rw [full]
    | dropTable name =>
      have absent := Option.isNone_iff_eq_none.mp ok
      have kept : droppedIndexes db (.dropTable name : Executor.Statement E) = db := by
        rw [droppedIndexes, absent]
        rfl
      rw [kept] at after
      refine databases_unchanged selected ?_ after
      show (executeDropTable name db.pages).2 = db.pages
      rw [executeDropTable, absent]
    | _ => trivial

end ClientConnection

/-! ## Usable databases -/

theorem DatabaseManager.AllUsable.of_same {manager manager' : DatabaseManager V}
    (usable : manager.AllUsable) (same : manager'.databases = manager.databases) :
    manager'.AllUsable :=
  Every.of_same usable same

theorem DatabaseManager.AllUsable.update {manager manager' : DatabaseManager V}
    (usable : manager.AllUsable) {dbName : Identifier} {db : DatabaseDef V}
    (after : manager'.databases = Function.update manager.databases dbName (some db))
    (fit : Usable db.pages) : manager'.AllUsable :=
  Every.update usable after fun _ found => Option.some.inj found ▸ fit

namespace ClientConnection

variable {fields ev view services verifyPassword} {c : ClientConnection V}

theorem executed_authorized {c' : ClientConnection V} (usable : c.dbManager.AllUsable)
    {names : List Identifier} {walCommits : Bool} {stmt : Statement E} {response : Response V}
    (answered : response = respond c.currentDatabase (execute fields ev view services walCommits
      (newExecutor (c.selectedManager names)) stmt).1)
    (manager : c'.dbManager = (execute fields ev view services walCommits
      (newExecutor (c.selectedManager names)) stmt).2.dbManager)
    (opened : ∀ name, names.contains name = c.opens name)
    (harmless : c.harmlessStatement fields (c.dbManager.databases c.currentDatabase) stmt = true) :
    c.AuthorizedStatement fields c' response stmt ∧ c'.dbManager.AllUsable := by
  have effect := execute_effect fields ev view services walCommits
    (newExecutor (c.selectedManager names)) stmt
  have start : (c.selectedManager names).AllUsable := usable.of_same rfl
  have onTable : ∀ stmt', stmt = .table stmt' → c.AuthorizedStatement fields c' response stmt := by
    rintro stmt rfl
    exact table_authorized usable answered manager harmless
  rw [manager]
  generalize execute fields ev view services walCommits (newExecutor (c.selectedManager names))
    stmt = done at effect manager answered
  obtain ⟨answer, s'⟩ := done
  cases effect with
  | rows stmt db' selected' allowed result executed =>
    have fit := start _ db' (DatabaseManager.current_eq_some selected')
    subst executed
    exact ⟨onTable stmt rfl, start.update rfl (execute_usable fit walCommits stmt)⟩
  | beside steady change =>
    cases change with
    | nothing =>
      refine ⟨?_, start⟩
      cases stmt with
      | table stmt => exact onTable stmt rfl
      | createDatabase dbName ifNotExists timestamp => exact congrArg (·.databases) manager
      | dropDatabase dbName ifExists => exact congrArg (·.databases) manager
      | _ => trivial
    | switched name => exact ⟨trivial, start.of_same rfl⟩
    -- a database that exists is not created, and one that does not exist is not dropped
    | createdDatabase dbName timestamp ifNotExists pages unrestricted named closed =>
      have unknown : c.opens dbName = false := (opened dbName).symm.trans closed
      simp [harmlessStatement, named, unknown] at harmless
    | droppedDatabase dbName current ifExists left catalogs unrestricted known =>
      have exists_ : c.opens dbName = true := (opened dbName).symm.trans known
      simp [harmlessStatement, exists_] at harmless
    | pagesTaken stmt db' count selected' =>
      have fit := start _ db' (DatabaseManager.current_eq_some selected')
      exact ⟨trivial, start.update rfl (fit.dropFree count)⟩
    | indexed stmt db' count index selected' =>
      have fit := start _ db' (DatabaseManager.current_eq_some selected')
      exact ⟨trivial, start.update rfl (fit.dropFree count)⟩
    | unindexed name ifExists db' selected' =>
      have fit := start _ db' (DatabaseManager.current_eq_some selected')
      exact ⟨trivial, start.update rfl fit⟩
    -- no account manager is attached
    | created username passwordHash now isAdmin db' attached => cases attached
    | dropped username db' attached => cases attached
    | altered username passwordHash now db' attached => cases attached
    | looked privilege withGrantOption timestamp current names attached => cases attached
    | granted privilege withGrantOption timestamp current own names db' attached => cases attached
    | revoked privilege own db' attached => cases attached

/-! ## Runs -/

variable (fields ev view services verifyPassword) in
def step (c : ClientConnection V) (message : Message E) :
    Option (Response V × ClientConnection V) :=
  some (c.handleMessage fields ev view services verifyPassword message)

theorem handleMessage_authorized (usable : c.dbManager.AllUsable) (message : Message E)
    (harmless : c.harmless fields message = true) :
    c.Authorized fields ev view services verifyPassword message ∧
      (c.handleMessage fields ev view services verifyPassword message).2.dbManager.AllUsable := by
  rcases handleMessage_cases fields ev view services verifyPassword c message with
    ⟨-, same, -, nothing⟩ | ⟨run, names, executed, sent, executor, opened, answered, manager⟩
  · exact ⟨fun stmt _ => authorized_of_same same nothing stmt, usable.of_same same⟩
  · rw [executor] at answered manager
    have ok : c.harmlessStatement fields (c.dbManager.databases c.currentDatabase) run.stmt =
        true := by
      rw [ClientConnection.harmless, executed, Bool.and_eq_true] at harmless
      exact harmless.2
    obtain ⟨authorized, after⟩ := executed_authorized usable answered manager opened ok
    refine ⟨fun stmt other => ?_, after⟩
    cases sent.symm.trans other
    exact authorized

end ClientConnection

/-- A run of messages each of which the user has the permissions for, or which does nothing, is
authorized at every message. -/
theorem remote_authorized (fields : Fields qt) (ev : Evaluator V E) (view : Presentation V E)
    (services : Services V E) (verifyPassword : Identifier → Identifier → Bool)
    (c : ClientConnection V) (usable : c.dbManager.AllUsable) (messages : List (Message E))
    (meets : Run.Meets (ClientConnection.step fields ev view services verifyPassword)
      (fun c message => c.harmless fields message = true) c messages) :
    Run.Meets (ClientConnection.step fields ev view services verifyPassword)
      (fun c message => c.Authorized fields ev view services verifyPassword message) c messages := by
  have steps : ∀ (c : ClientConnection V) (message : Message E), c.dbManager.AllUsable →
      c.harmless fields message = true →
      c.Authorized fields ev view services verifyPassword message ∧
        ∀ response c', ClientConnection.step fields ev view services verifyPassword c message =
          some (response, c') → c'.dbManager.AllUsable := by
    intro c message usable harmless
    obtain ⟨authorized, kept⟩ := ClientConnection.handleMessage_authorized usable message harmless
    refine ⟨authorized, fun response c' taken => ?_⟩
    have same : (c.handleMessage fields ev view services verifyPassword message).2 = c' :=
      congrArg Prod.snd (Option.some.inj taken)
    exact same ▸ kept
  exact Run.meets_of_invariant steps messages c usable meets

end Remote

namespace Literals

open QinDB.Auth.Literals

def verifyPassword (password passwordHash : Identifier) : Bool := decide (password = passwordHash)

/-- The shop with one item. -/
def stocked : Database Value :=
  (executeInsert Auth.Literals.qt evaluator true INVALID_TXN_ID
    { tableName := ITEMS, values := [[.number 7]] } shop.pages).2

/-- The other account may read the items. -/
def readable : Database Value :=
  (grantPermission fields SHOP USER SHOP ITEMS .SELECT false [] [] stocked).2

/-- A new connection to a server with this shop. -/
def client (pages : Database Value) : ClientConnection Value where
  dbManager := userSession.dbManager.setDatabase SHOP { shop with pages }
  nextSessionId := 1
  sessionId := 0
  isAuthenticated := false
  currentDatabase := []
  username := []

def login : Message Value :=
  .authRequest (some { protocolVersion := 1, username := USER, password := ['p'], database := SHOP })

def query (stmt : Statement Value) : Message Value :=
  .queryRequest (some { sessionId := 1, sql := [], parsed := some stmt, walCommits := true })

def selectItems : Statement Value := .table (.select { from_ := some ITEMS })

def deleteItems : Statement Value := .table (.delete { tableName := ITEMS, whereClause := none })

def createOther : Statement Value := .table (.createTable ['x'] [itemId])

theorem client_usable {pages : Database Value} (usable : Usable pages) :
    (client pages).dbManager.AllUsable := by
  have start : userSession.dbManager.AllUsable := by
    intro name db found
    have known : (if name = SYSTEM_DATABASE then some system
      else if name = SHOP then some shop else none) = some db := found
    split at known
    · rw [← Option.some.inj known]
      decide +kernel
    · split at known
      · rw [← Option.some.inj known]
        decide +kernel
      · cases known
  have after : (client pages).dbManager.databases =
      Function.update userSession.dbManager.databases SHOP (some { shop with pages }) := rfl
  exact start.update after usable

/-- The user logs in and reads what may be read; a table that exists is not created. -/
theorem remote_authorized_three :
    Run.Meets (ClientConnection.step fields evaluator presentation services verifyPassword)
      (fun c message => c.Authorized fields evaluator presentation services verifyPassword message)
      (client readable)
      [login, query selectItems, query (.table (.createTable ITEMS [itemId]))] :=
  remote_authorized fields evaluator presentation services verifyPassword (client readable)
    (client_usable (by decide +kernel)) _ (by decide +kernel)

/-- A client without permissions reads the items, deletes them and creates a table. -/
theorem client_unchecked : ∃ responses c,
    Run.run (ClientConnection.step fields evaluator presentation services verifyPassword)
        (client stocked) [login] = some (responses, c) ∧
      c.isAuthenticated = true ∧ c.username = USER ∧
      Auth.isUserAdmin fields system.pages USER = false ∧
      c.permitted fields SHOP ITEMS .SELECT = false ∧
      c.permitted fields SHOP ITEMS .DELETE = false ∧
      ¬ c.Authorized fields evaluator presentation services verifyPassword (query selectItems) ∧
      (c.handleMessage fields evaluator presentation services verifyPassword
        (query deleteItems)).2.dbManager.tableState SHOP ITEMS ≠
          c.dbManager.tableState SHOP ITEMS ∧
      ¬ c.Authorized fields evaluator presentation services verifyPassword (query createOther) := by
  refine ⟨_, _, rfl, by decide +kernel, by decide +kernel, by decide +kernel, by decide +kernel,
    by decide +kernel, fun authorized => ?_, by decide +kernel, fun authorized => ?_⟩
  · have shown := authorized selectItems (by decide +kernel) (by decide +kernel) ITEMS
      (by decide +kernel)
    exact absurd shown (by decide +kernel)
  · have unchanged := congrFun (authorized createOther (by decide +kernel)) SHOP
    have tables := congrArg (Option.map fun db => db.pages.tables.length) unchanged
    exact absurd tables (by decide +kernel)

end Literals

end QinDB.Server
