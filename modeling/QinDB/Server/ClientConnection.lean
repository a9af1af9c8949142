/-
# Server.ClientConnection — messages of a client

`client_connection.cpp`: a connection authenticates, runs statements and switches its
database. Messages arrive decoded; a payload that does not decode is `none`. A statement
is executed by a new executor that is given the databases of the server and nothing
else: no authentication manager, no permission manager and no user.
-/
import QinDB.Server.Executor

namespace QinDB.Server

open QinDB.Storage QinDB.Executor QinDB.Auth

set_option autoImplicit false

/-! ## Messages -/

structure AuthRequest where
  protocolVersion : UInt16
  username : Identifier
  password : Identifier
  database : Identifier
  deriving DecidableEq, Repr

/-- A statement text with what the parser makes of it. `walCommits` is whether the log takes a
commit record. -/
structure QueryRequest (E : Type) where
  sessionId : UInt64
  sql : Identifier
  parsed : Option (Statement E)
  walCommits : Bool
  deriving DecidableEq, Repr

inductive Message (E : Type) where
  | invalid
  | authRequest (request : Option AuthRequest)
  | queryRequest (request : Option (QueryRequest E))
  | databaseSwitch (databaseName : Option Identifier)
  | ping
  | disconnect
  | unsupported
  deriving DecidableEq, Repr

/-- The database that a message asks for. -/
def Message.database {E : Type} : Message E → Option Identifier
  | .authRequest request => request.map AuthRequest.database
  | .databaseSwitch databaseName => databaseName
  | _ => none

inductive NetworkErrorCode where
  | PROTOCOL_ERROR | INVALID_MESSAGE | AUTH_FAILED | SESSION_EXPIRED | SYNTAX_ERROR
  | RUNTIME_ERROR
  deriving DecidableEq, Repr

inductive Response (V : Type) where
  | error (code : NetworkErrorCode) (message detail : String)
  | auth (sessionId : Option UInt64) (message : String)
  | query (columns : List Identifier) (rows : List (List V)) (currentDatabase : Identifier)
  | pong
  | closed
  deriving DecidableEq, Repr

def PROTOCOL_VERSION : UInt16 := 1

/-! ## The connection -/

/-- The databases of the server and one connection; session numbers are shared by all
connections. -/
structure ClientConnection (V : Type) where
  dbManager : DatabaseManager V
  nextSessionId : UInt64
  sessionId : UInt64
  isAuthenticated : Bool
  currentDatabase : Identifier
  username : Identifier

section Messages

variable {V E : Type} {qt : Variant V} (fields : Fields qt) (ev : Evaluator V E)
  (view : Presentation V E) (services : Services V E)
  (verifyPassword : Identifier → Identifier → Bool)

namespace ClientConnection

/-- `AuthManager::authenticate` -/
def authenticate (c : ClientConnection V) (username password : Identifier) : Bool :=
  username ≠ [] && password ≠ [] &&
    (c.dbManager.databases SYSTEM_DATABASE).any fun db =>
      (getUserFromDatabase fields db.pages username).any fun user =>
        user.isActive && verifyPassword password user.passwordHash

def authenticateUser (c : ClientConnection V) (request : AuthRequest) : Bool :=
  request.username ≠ [] && request.password ≠ [] && request.database ≠ [] &&
    c.dbManager.databaseExists request.database &&
    c.authenticate fields verifyPassword request.username request.password

/-- A failed authentication leaves the connection as it was. -/
def handleAuthRequest (c : ClientConnection V) (request : Option AuthRequest) :
    Response V × ClientConnection V :=
  match request with
  | none => (.error .PROTOCOL_ERROR "Failed to decode AUTH_REQUEST" "", c)
  | some request =>
      if request.protocolVersion ≠ PROTOCOL_VERSION then
        (.auth none ("Protocol version mismatch (server: " ++ toString PROTOCOL_VERSION.toNat ++
          ", client: " ++ toString request.protocolVersion.toNat ++ ")"), c)
      else if c.authenticateUser fields verifyPassword request then
        (.auth (some c.nextSessionId) "Authentication successful",
          { c with
            nextSessionId := c.nextSessionId + 1
            sessionId := c.nextSessionId
            isAuthenticated := true
            currentDatabase := request.database
            username := request.username })
      else (.auth none "Invalid username or password", c)

/-- The executor of a statement. -/
def newExecutor (dbManager : DatabaseManager V) : ExecutorState V where
  dbManager := dbManager
  authManager := false
  permissionManager := none
  currentUser := []

/-- The response to a statement: columns and rows, or an error. -/
def respond (currentDatabase : Identifier) : Answer V → Response V
  | .failed _ message => .error .RUNTIME_ERROR message ""
  | .table (.failed error) => .error .RUNTIME_ERROR error.message ""
  | .table (.selected columnNames rows) => .query columnNames rows currentDatabase
  | .shown columnNames rows => .query columnNames rows currentDatabase
  | _ => .query [] [] currentDatabase

/-- A statement in the database of the connection. USE DATABASE is not executed. -/
def runStatement (c : ClientConnection V) (walCommits : Bool) (stmt : Statement E) :
    Response V × ClientConnection V :=
  match c.dbManager.useDatabase c.currentDatabase with
  | .error _ =>
      (.error .RUNTIME_ERROR ("Failed to switch to database " ++ quoted c.currentDatabase) "", c)
  | .ok dbManager =>
      let done := execute fields ev view services walCommits (newExecutor dbManager) stmt
      (respond c.currentDatabase done.1, { c with dbManager := done.2.dbManager })

def handleQueryRequest (c : ClientConnection V) (request : Option (QueryRequest E)) :
    Response V × ClientConnection V :=
  if !c.isAuthenticated then (.error .AUTH_FAILED "Not authenticated" "", c)
  else
    match request with
    | none => (.error .PROTOCOL_ERROR "Failed to decode QUERY_REQUEST" "", c)
    | some request =>
        if request.sessionId ≠ c.sessionId then
          (.error .SESSION_EXPIRED "Invalid session ID" "", c)
        else
          match request.parsed with
          | none =>
              (.error .SYNTAX_ERROR ("Failed to parse SQL: " ++ String.ofList request.sql) "", c)
          | some (.useDatabase _) => (.query [] [] c.currentDatabase, c)
          | some stmt => c.runStatement fields ev view services request.walCommits stmt

/-- The session number is not looked at. -/
def handleDatabaseSwitch (c : ClientConnection V) (databaseName : Option Identifier) :
    Response V × ClientConnection V :=
  if !c.isAuthenticated then (.error .AUTH_FAILED "Not authenticated" "", c)
  else
    match databaseName with
    | none => (.error .PROTOCOL_ERROR "Failed to decode DATABASE_SWITCH message" "", c)
    | some databaseName =>
        match c.dbManager.useDatabase databaseName with
        | .error refusal =>
            (.error .RUNTIME_ERROR ("Failed to switch to database " ++ quoted databaseName)
              refusal.message, c)
        | .ok dbManager =>
            (.query [] [] databaseName, { c with dbManager, currentDatabase := databaseName })

def handleMessage (c : ClientConnection V) : Message E → Response V × ClientConnection V
  | .invalid => (.error .PROTOCOL_ERROR "Invalid message format" "", c)
  | .authRequest request => c.handleAuthRequest fields verifyPassword request
  | .queryRequest request => c.handleQueryRequest fields ev view services request
  | .databaseSwitch databaseName => c.handleDatabaseSwitch databaseName
  | .ping => (.pong, c)
  | .disconnect => (.closed, c)
  | .unsupported => (.error .INVALID_MESSAGE "Unsupported message type" "", c)

end ClientConnection

end Messages

end QinDB.Server
