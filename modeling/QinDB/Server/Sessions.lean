/-
# Server.Sessions — the transactions of several connections

All connections of a server share its databases and, with them, one transaction: BEGIN
sets it, COMMIT and ROLLBACK clear it, and every statement joins it, of whichever
connection. Which transaction a connection has itself begun is not kept by the server;
`Tracked` follows it along a run, by the answers that the connection got.

A statement runs in the transaction of its own connection exactly when no other
connection has one open and its database is still the one that the transaction was
begun in.

* `statements_join_own`: a run in which every statement finds things so is a run in
  which every statement joins its own transaction, and the other way round.
* `insert_joins_other`: a row that one connection inserts goes with the ROLLBACK of
  another.
-/
import Mathlib.Data.Fintype.Basic
import QinDB.Server.RemoteAuthorization

namespace QinDB.Server

open QinDB.Base QinDB.Core QinDB.Storage QinDB.Executor QinDB.Auth

set_option autoImplicit false

/-! ## Connections -/

/-- What a connection knows of its client. -/
structure Session where
  sessionId : UInt64
  isAuthenticated : Bool
  currentDatabase : Identifier
  username : Identifier
  deriving DecidableEq, Repr

/-- The databases of a server and all connections to it. -/
structure ServerState (V ι : Type) where
  dbManager : DatabaseManager V
  nextSessionId : UInt64
  sessions : ι → Session

section Connections

variable {V E ι : Type} {qt : Variant V} (fields : Fields qt) (ev : Evaluator V E)
  (view : Presentation V E) (services : Services V E)
  (verifyPassword : Identifier → Identifier → Bool)

namespace ClientConnection

def session (c : ClientConnection V) : Session where
  sessionId := c.sessionId
  isAuthenticated := c.isAuthenticated
  currentDatabase := c.currentDatabase
  username := c.username

end ClientConnection

namespace ServerState

def connection (server : ServerState V ι) (i : ι) : ClientConnection V where
  dbManager := server.dbManager
  nextSessionId := server.nextSessionId
  sessionId := (server.sessions i).sessionId
  isAuthenticated := (server.sessions i).isAuthenticated
  currentDatabase := (server.sessions i).currentDatabase
  username := (server.sessions i).username

/-- A message of one of the connections. -/
def receive [DecidableEq ι] (server : ServerState V ι) (i : ι) (message : Message E) :
    Response V × ServerState V ι :=
  let done := (server.connection i).handleMessage fields ev view services verifyPassword message
  (done.1,
    { dbManager := done.2.dbManager
      nextSessionId := done.2.nextSessionId
      sessions := Function.update server.sessions i done.2.session })

end ServerState

/-! ## Whose transaction -/

/-- A transaction that a connection has begun: in which database, how often a database of that
name had been dropped by then, and its identifier. -/
structure Opened where
  database : Identifier
  drops : Nat
  txnId : TransactionId
  deriving DecidableEq, Repr

/-- A server, what each connection has begun and not yet completed, and how often the databases
have been dropped. -/
structure Tracked (V ι : Type) where
  server : ServerState V ι
  opened : ι → Option Opened
  drops : Identifier → Nat

/-- What a connection has begun after an answer. -/
def Answer.openedAfter (begun : TransactionId → Opened) (own : Option Opened) :
    Answer V → Option Opened
  | .table (.started txnId) => some (begun txnId)
  | .table (.committed _) => none
  | .table (.rolledBack _ _) => none
  | _ => own

/-- Statements that look at the transaction of the server, and those that set it. -/
def Statement.usesTransaction : Statement E → Bool
  | .table (.insert _) | .table (.update _) | .table (.delete _) | .table (.select _) => true
  | .table .begin | .table .commit | .table .rollback => true
  | _ => false

namespace Tracked

def execution (t : Tracked V ι) (arrival : ι × Message E) : Option (Execution V E) :=
  (t.server.connection arrival.1).execution arrival.2

def openedAfter (t : Tracked V ι) (arrival : ι × Message E) : Option Opened :=
  match t.execution arrival with
  | none => t.opened arrival.1
  | some run =>
      (execute fields ev view services run.walCommits run.executor run.stmt).1.openedAfter
        (fun txnId =>
          { database := run.executor.dbManager.currentDatabase
            drops := t.drops run.executor.dbManager.currentDatabase
            txnId })
        (t.opened arrival.1)

def step [DecidableEq ι] (t : Tracked V ι) (arrival : ι × Message E) :
    Option (Response V × Tracked V ι) :=
  let done := t.server.receive fields ev view services verifyPassword arrival.1 arrival.2
  some (done.1,
    { server := done.2
      opened := Function.update t.opened arrival.1 (t.openedAfter fields ev view services arrival)
      drops := fun name =>
        if t.server.dbManager.isOpen name && !done.2.dbManager.isOpen name then
          t.drops name + 1
        else t.drops name })

/-- The executor of a connection finds the transaction that the connection has begun, in the
database it was begun in; and none when the connection has begun none. -/
def FindsOwn (t : Tracked V ι) (i : ι) (s : ExecutorState V) : Prop :=
  match t.opened i with
  | none => s.dbManager.currentTransactionId = INVALID_TXN_ID
  | some own =>
      s.dbManager.currentTransactionId = own.txnId ∧
        s.dbManager.currentDatabase = own.database ∧ t.drops own.database = own.drops

/-- The statement of a message joins the transaction of its own connection. -/
def JoinsOwn (t : Tracked V ι) (arrival : ι × Message E) : Prop :=
  ∀ run ∈ t.execution arrival, run.stmt.usesTransaction = true →
    t.FindsOwn arrival.1 run.executor

/-- No other connection has begun a transaction, and the database is the one that the own
transaction was begun in. -/
def Alone (t : Tracked V ι) (arrival : ι × Message E) : Prop :=
  ∀ run ∈ t.execution arrival, run.stmt.usesTransaction = true →
    (∀ j, j ≠ arrival.1 → t.opened j = none) ∧
      ∀ own ∈ t.opened arrival.1, run.executor.dbManager.currentDatabase = own.database ∧
        t.drops own.database = own.drops

instance decidableFindsOwn (t : Tracked V ι) (i : ι) (s : ExecutorState V) :
    Decidable (t.FindsOwn i s) :=
  match opened : t.opened i with
  | none => decidable_of_iff (s.dbManager.currentTransactionId = INVALID_TXN_ID)
      (by rw [FindsOwn, opened])
  | some own => decidable_of_iff (s.dbManager.currentTransactionId = own.txnId ∧
      s.dbManager.currentDatabase = own.database ∧ t.drops own.database = own.drops)
      (by rw [FindsOwn, opened])

/-- Whether a message meets the two conditions can be computed. -/
instance decidableJoinsOwn (t : Tracked V ι) (arrival : ι × Message E) :
    Decidable (t.JoinsOwn arrival) :=
  inferInstanceAs (Decidable (∀ run ∈ t.execution arrival, _ → t.FindsOwn arrival.1 run.executor))

instance decidableAlone [Fintype ι] [DecidableEq ι] (t : Tracked V ι) (arrival : ι × Message E) :
    Decidable (t.Alone arrival) :=
  inferInstanceAs (Decidable (∀ run ∈ t.execution arrival, _ →
    (∀ j, j ≠ arrival.1 → t.opened j = none) ∧ ∀ own ∈ t.opened arrival.1, _ ∧ _))

end Tracked

/-! ## What a statement changes -/

/-- The executor of a statement has the databases and the transaction of the server. -/
theorem ClientConnection.execution_executor {c : ClientConnection V} {message : Message E}
    {run : Execution V E} (executed : c.execution message = some run) :
    ∃ names, run.executor = newExecutor (c.selectedManager names) := by
  cases message with
  | queryRequest request =>
    cases request with
    | none => cases executed
    | some request =>
      simp only [execution] at executed
      split at executed
      · split at executed
        · cases executed
        · cases executed
        · split at executed
          · cases executed
          · rename_i used
            obtain ⟨names, rfl, -⟩ := DatabaseManager.useDatabase_eq used
            cases executed
            exact ⟨names, rfl⟩
      · cases executed
  | _ => cases executed

variable {fields ev view services verifyPassword}

open ClientConnection

theorem Answer.Steady.openedAfter {answer : Answer V} (steady : answer.Steady)
    (begun : TransactionId → Opened) (own : Option Opened) :
    answer.openedAfter begun own = own := by
  -- any other answer leaves the same transaction after 0 and after 1
  have apart : answer.sessionAfter 0 ≠ answer.sessionAfter 1 := by
    rw [steady, steady]
    decide
  cases answer with
  | table outcome =>
    cases outcome with
    | started txnId => exact absurd rfl apart
    | committed txnId => exact absurd rfl apart
    | rolledBack txnId undone => exact absurd rfl apart
    | _ => rfl
  | _ => rfl

/-- An answer is steady, or it begins a transaction, or it completes one. -/
theorem Answer.cases (answer : Answer V) :
    answer.Steady ∨ (∃ txnId, answer = .table (.started txnId)) ∨
      (∀ begun own, answer.openedAfter begun own = none) ∧
        ∀ session, answer.sessionAfter session = INVALID_TXN_ID := by
  cases answer with
  | table outcome =>
    cases outcome with
    | started txnId => exact .inr (.inl ⟨txnId, rfl⟩)
    | committed txnId => exact .inr (.inr ⟨fun _ _ => rfl, fun _ => rfl⟩)
    | rolledBack txnId undone => exact .inr (.inr ⟨fun _ _ => rfl, fun _ => rfl⟩)
    | _ => exact .inl fun _ => rfl
  | _ => exact .inl fun _ => rfl

variable {walCommits : Bool} {manager : DatabaseManager V} {s' : ExecutorState V}
  {stmt : Statement E} {answer : Answer V}

/-- The transaction of the server after a statement is what the answer says. -/
theorem Effect.session
    (effect : Effect fields ev view walCommits (newExecutor manager) stmt answer s') :
    s'.dbManager.currentTransactionId = answer.sessionAfter manager.currentTransactionId := by
  cases effect with
  | rows stmt db selected allowed result executed =>
    subst executed
    exact execute_session stmt
  | beside steady change =>
    rw [steady]
    cases change <;> rfl

/-- Every database has handed out valid identifiers only. -/
def DatabaseManager.Positive (manager : DatabaseManager V) : Prop :=
  manager.Every fun db => INVALID_TXN_ID < db.pages.txns.nextTxnId

theorem txns_insertSystemRow (table : TableDef) (rowId : RowId) (row : List V) (db : Database V) :
    (insertSystemRow qt table rowId row db).2.txns = db.txns := by
  rw [insertSystemRow]
  split
  · rfl
  · rfl
  · split
    · rfl
    · split <;> rfl

variable (fields) in
theorem txns_grantPermission (own username databaseName tableName : Identifier)
    (permType : PermissionType) (withGrantOption : Bool) (grantedBy timestamp : Identifier)
    (db : Database V) :
    (grantPermission fields own username databaseName tableName permType withGrantOption grantedBy
      timestamp db).2.txns = db.txns := by
  rw [grantPermission]
  split
  · rfl
  · split
    · rfl
    · exact txns_insertSystemRow ..

/-- A new database has handed out no identifier. -/
theorem txns_initializePermissionSystem {own timestamp : Identifier} {db pages : Database V}
    (permissions : initializePermissionSystem fields own timestamp db = some pages) :
    pages.txns = db.txns := by
  rw [initializePermissionSystem] at permissions
  split at permissions
  · cases permissions
    rfl
  · rw [createPermissionsTable] at permissions
    split at permissions
    · cases permissions
    · cases permissions
      exact txns_grantPermission ..

theorem Effect.positive
    (effect : Effect fields ev view walCommits (newExecutor manager) stmt answer s')
    (positive : manager.Positive) : s'.dbManager.Positive := by
  have current : ∀ db, (newExecutor manager).dbManager.current = some db →
      INVALID_TXN_ID < db.pages.txns.nextTxnId :=
    fun db selected => positive _ db (DatabaseManager.current_eq_some selected)
  have changed : ∀ {manager' : DatabaseManager V} {dbName : Identifier} {db : DatabaseDef V},
      manager'.databases = Function.update manager.databases dbName (some db) →
      INVALID_TXN_ID < db.pages.txns.nextTxnId → manager'.Positive := fun after valid =>
    positive.update after fun _ found => Option.some.inj found ▸ valid
  cases effect with
  | rows stmt db selected allowed result executed =>
    subst executed
    exact changed rfl (Nat.lt_of_lt_of_le (current db selected) (execute_nextTxnId stmt))
  | beside steady change =>
    cases change with
    | createdDatabase dbName timestamp ifNotExists pages unrestricted named closed permissions =>
      refine changed rfl ?_
      rw [txns_initializePermissionSystem permissions]
      exact Nat.one_pos
    | droppedDatabase dbName _ ifExists left catalogs unrestricted known remains =>
      refine positive.update rfl fun db found => ?_
      rcases remains with rfl | rfl
      · cases found
      · obtain ⟨old, -, rfl⟩ := Option.map_eq_some_iff.mp found
        exact Nat.one_pos
    | pagesTaken stmt db count selected => exact changed rfl (current db selected)
    | indexed stmt db count index selected => exact changed rfl (current db selected)
    | unindexed name ifExists db selected => exact changed rfl (current db selected)
    -- no account manager is attached
    | created username passwordHash now isAdmin db attached => cases attached
    | dropped username db attached => cases attached
    | altered username passwordHash now db attached => cases attached
    | granted privilege withGrantOption timestamp current own names db attached => cases attached
    | revoked privilege own db attached => cases attached
    | _ => exact positive.of_same rfl

/-- A statement that does not use the transaction neither begins nor completes one. -/
theorem Effect.steady_of_unused
    (effect : Effect fields ev view walCommits (newExecutor manager) stmt answer s')
    (unused : stmt.usesTransaction = false) : answer.Steady := by
  cases effect with
  | rows stmt db selected allowed result executed =>
    subst executed
    rcases execute_steady qt ev view (newExecutor manager).dbManager.currentTransactionId
        walCommits db.pages stmt with (rfl | rfl | rfl) | ⟨steady, -⟩
    · cases unused
    · cases unused
    · cases unused
    · exact steady
  | beside steady change => exact steady

/-- A transaction is started with a valid identifier. -/
theorem Effect.started_positive
    (effect : Effect fields ev view walCommits (newExecutor manager) stmt answer s')
    (positive : manager.Positive) {txnId : TransactionId}
    (started : answer = .table (.started txnId)) : txnId ≠ INVALID_TXN_ID := by
  cases effect with
  | rows stmt db selected allowed result executed =>
    subst executed
    rw [execute_started (Answer.table.inj started)]
    exact Nat.ne_of_gt (positive _ db (DatabaseManager.current_eq_some selected))
  | beside steady change =>
    rw [started] at steady
    exact absurd ((steady 0).symm.trans (steady 1)) (by decide)

/-! ## Runs -/

namespace Tracked

variable {t : Tracked V ι} {arrival : ι × Message E}

/-- At most one connection has begun a transaction, and that one is the transaction of the
server. -/
structure Consistent (t : Tracked V ι) : Prop where
  positive : t.server.dbManager.Positive
  none_open : (∀ i, t.opened i = none) →
    t.server.dbManager.currentTransactionId = INVALID_TXN_ID
  one_open : ∀ i own, t.opened i = some own →
    t.server.dbManager.currentTransactionId = own.txnId ∧ own.txnId ≠ INVALID_TXN_ID ∧
      ∀ j, j ≠ i → t.opened j = none

theorem executor_transaction {run : Execution V E} (executed : t.execution arrival = some run) :
    run.executor.dbManager.currentTransactionId = t.server.dbManager.currentTransactionId := by
  obtain ⟨names, same⟩ := execution_executor executed
  rw [same]
  rfl

/-- As long as at most one connection has begun a transaction, a statement joins its own exactly
when its connection is that one or there is none. -/
theorem joinsOwn_iff (consistent : t.Consistent) (arrival : ι × Message E) :
    t.JoinsOwn arrival ↔ t.Alone arrival := by
  refine forall_congr' fun run => forall_congr' fun executed => forall_congr' fun _ => ?_
  rw [FindsOwn, executor_transaction executed]
  cases begun : t.opened arrival.1 with
  | none =>
    constructor
    · intro idle
      refine ⟨fun j _ => ?_, fun own member => nomatch member⟩
      cases opened : t.opened j with
      | none => rfl
      | some other =>
        obtain ⟨current, valid, -⟩ := consistent.one_open j other opened
        exact absurd (current.symm.trans idle) valid
    · rintro ⟨others, -⟩
      refine consistent.none_open fun j => ?_
      by_cases here : j = arrival.1
      · rw [here, begun]
      · exact others j here
  | some own =>
    obtain ⟨current, -, others⟩ := consistent.one_open _ own begun
    constructor
    · rintro ⟨-, database, drops⟩
      refine ⟨others, fun own' member => ?_⟩
      cases member
      exact ⟨database, drops⟩
    · rintro ⟨-, still⟩
      exact ⟨current, still own rfl⟩

theorem Consistent.of_same {t' : Tracked V ι} (consistent : t.Consistent)
    (positive : t'.server.dbManager.Positive) (opened : t'.opened = t.opened)
    (same : t'.server.dbManager.currentTransactionId = t.server.dbManager.currentTransactionId) :
    t'.Consistent where
  positive := positive
  none_open := by
    rw [opened, same]
    exact consistent.none_open
  one_open := by
    rw [opened, same]
    exact consistent.one_open

/-- One connection begins or completes a transaction and the others have none. -/
theorem consistent_of_others {i : ι} (positive : t.server.dbManager.Positive)
    (others : ∀ j, j ≠ i → t.opened j = none)
    (none_open : t.opened i = none → t.server.dbManager.currentTransactionId = INVALID_TXN_ID)
    (one_open : ∀ own, t.opened i = some own →
      t.server.dbManager.currentTransactionId = own.txnId ∧ own.txnId ≠ INVALID_TXN_ID) :
    t.Consistent where
  positive := positive
  none_open := fun all => none_open (all i)
  one_open := by
    intro j own opened
    by_cases here : j = i
    · subst here
      exact ⟨(one_open own opened).1, (one_open own opened).2, others⟩
    · rw [others j here] at opened
      cases opened

section Step

variable [DecidableEq ι] {response : Response V} {t' : Tracked V ι}

/-- A message that executes nothing. -/
theorem step_idle (idle : t.execution arrival = none)
    (taken : t.step fields ev view services verifyPassword arrival = some (response, t')) :
    t'.opened = t.opened ∧ t'.server.dbManager.databases = t.server.dbManager.databases ∧
      t'.server.dbManager.currentTransactionId = t.server.dbManager.currentTransactionId := by
  rcases handleMessage_cases fields ev view services verifyPassword
      (t.server.connection arrival.1) arrival.2 with ⟨-, databases, same, -⟩ | ⟨run, _, executed, -⟩
  · cases taken
    refine ⟨?_, databases, same⟩
    rw [openedAfter, idle]
    exact Function.update_eq_self ..
  · cases executed.symm.trans idle

/-- A message that executes a statement. -/
theorem step_executes {run : Execution V E} (executed : t.execution arrival = some run)
    (taken : t.step fields ev view services verifyPassword arrival = some (response, t')) :
    let done := execute fields ev view services run.walCommits run.executor run.stmt
    t'.server.dbManager = done.2.dbManager ∧
      ∃ begun : TransactionId → Opened, (∀ txnId, (begun txnId).txnId = txnId) ∧
        t'.opened = Function.update t.opened arrival.1
          (done.1.openedAfter begun (t.opened arrival.1)) := by
  rcases handleMessage_cases fields ev view services verifyPassword
      (t.server.connection arrival.1) arrival.2 with
    ⟨idle, -⟩ | ⟨run', _, executed', -, -, -, -, after⟩
  · cases idle.symm.trans executed
  · cases executed'.symm.trans executed
    cases taken
    refine ⟨after, fun txnId =>
      { database := run.executor.dbManager.currentDatabase
        drops := t.drops run.executor.dbManager.currentDatabase
        txnId }, fun _ => rfl, ?_⟩
    rw [openedAfter, executed]

theorem step_consistent (consistent : t.Consistent) (alone : t.Alone arrival)
    (taken : t.step fields ev view services verifyPassword arrival = some (response, t')) :
    t'.Consistent := by
  cases executed : t.execution arrival with
  | none =>
    obtain ⟨opened, databases, same⟩ := step_idle executed taken
    exact consistent.of_same (consistent.positive.of_same databases) opened same
  | some run =>
    obtain ⟨manager, begun, identified, opened⟩ := step_executes executed taken
    obtain ⟨names, executor⟩ := execution_executor executed
    rw [executor] at manager opened
    have before : ((t.server.connection arrival.1).selectedManager names).Positive :=
      consistent.positive.of_same rfl
    have effect := execute_effect fields ev view services run.walCommits
      (newExecutor ((t.server.connection arrival.1).selectedManager names)) run.stmt
    have positive := effect.positive before
    have transaction := (congrArg DatabaseManager.currentTransactionId manager).trans effect.session
    rw [← manager] at positive
    by_cases steady : (execute fields ev view services run.walCommits
        (newExecutor ((t.server.connection arrival.1).selectedManager names)) run.stmt).1.Steady
    · rw [steady.openedAfter, Function.update_eq_self] at opened
      exact consistent.of_same positive opened (transaction.trans (steady _))
    · have used : run.stmt.usesTransaction = true := by
        by_contra unused
        exact steady (effect.steady_of_unused (Bool.not_eq_true _ ▸ unused))
      have others : ∀ j, j ≠ arrival.1 → t'.opened j = none := by
        intro j apart
        rw [opened, Function.update_of_ne apart]
        exact (alone run executed used).1 j apart
      have own := congrFun opened arrival.1
      rw [Function.update_self] at own
      rcases (Answer.cases _).resolve_left steady with ⟨txnId, started⟩ | ⟨completed, cleared⟩
      · have valid := effect.started_positive before started
        rw [started] at own transaction
        refine consistent_of_others positive others (fun closed => ?_) fun own' begun' => ?_
        · cases closed.symm.trans own
        · cases begun'.symm.trans own
          rw [identified]
          exact ⟨transaction, valid⟩
      · rw [completed] at own
        refine consistent_of_others positive others (fun _ => ?_) fun own' begun' => ?_
        · exact transaction.trans (cleared _)
        · cases begun'.symm.trans own

end Step

end Tracked

/-- A server that nobody has begun a transaction on. -/
structure Tracked.Idle (t : Tracked V ι) : Prop where
  positive : t.server.dbManager.Positive
  opened : ∀ i, t.opened i = none
  transaction : t.server.dbManager.currentTransactionId = INVALID_TXN_ID

theorem Tracked.Idle.consistent {t : Tracked V ι} (idle : t.Idle) : t.Consistent where
  positive := idle.positive
  none_open := fun _ => idle.transaction
  one_open := by
    intro i own opened
    rw [idle.opened] at opened
    cases opened

/-- Whatever messages arrive from whichever connections: every statement joins the transaction
that its own connection has begun, in the database where it was begun, or a transaction of its
own when there is none, exactly when every statement finds that no other connection has begun a
transaction and that its database is still the one of the transaction. -/
theorem statements_join_own [DecidableEq ι] (fields : Fields qt) (ev : Evaluator V E)
    (view : Presentation V E) (services : Services V E)
    (verifyPassword : Identifier → Identifier → Bool) (t : Tracked V ι) (idle : t.Idle)
    (arrivals : List (ι × Message E)) :
    Run.Meets (Tracked.step fields ev view services verifyPassword) Tracked.JoinsOwn t arrivals ↔
      Run.Meets (Tracked.step fields ev view services verifyPassword) Tracked.Alone t arrivals :=
  Run.meets_iff_of_invariant (fun _ arrival consistent => Tracked.joinsOwn_iff consistent arrival)
    (fun _ _ _ _ consistent alone taken => Tracked.step_consistent consistent alone taken)
    arrivals t idle.consistent

end Connections

/-! ## Two connections -/

namespace Literals

open QinDB.Auth.Literals

/-- The shop with one item and two new connections. -/
def twoConnections : Tracked Value (Fin 2) where
  server :=
    { dbManager := (client stocked).dbManager
      nextSessionId := 1
      sessions := fun _ => (client stocked).session }
  opened := fun _ => none
  drops := fun _ => 0

/-- A statement of the connection with this session. -/
def sends (sessionId : UInt64) (stmt : Executor.Statement Value) : Message Value :=
  .queryRequest (some { sessionId, sql := [], parsed := some (.table stmt), walCommits := true })

def insertItem : Executor.Statement Value :=
  .insert { tableName := ITEMS, values := [[.number 9]] }

def selectAll : Executor.Statement Value := .select { from_ := some ITEMS }

theorem twoConnections_idle : twoConnections.Idle where
  positive := fun name db found => (client_usable (by decide +kernel) name db found).positive
  opened := fun _ => rfl
  transaction := rfl

/-- Two transactions one after the other. -/
def inTurn : List (Fin 2 × Message Value) :=
  [(0, login), (1, login), (0, sends 1 .begin), (0, sends 1 insertItem), (0, sends 1 .rollback),
    (1, sends 2 .begin), (1, sends 2 insertItem), (1, sends 2 .commit), (0, sends 1 selectAll)]

theorem statements_join_own_in_turn :
    twoConnections.Idle ∧
      (Run.Meets (Tracked.step fields evaluator presentation services verifyPassword)
        Tracked.JoinsOwn twoConnections inTurn ↔
      Run.Meets (Tracked.step fields evaluator presentation services verifyPassword)
        Tracked.Alone twoConnections inTurn) ∧
      Run.Meets (Tracked.step fields evaluator presentation services verifyPassword)
        Tracked.JoinsOwn twoConnections inTurn :=
  have same := statements_join_own fields evaluator presentation services verifyPassword
    twoConnections twoConnections_idle inTurn
  ⟨twoConnections_idle, same, same.mpr (by decide +kernel)⟩

/-- While the first connection has a transaction open the second inserts an item, which the first
then rolls back. -/
def interleaved : List (Fin 2 × Message Value) :=
  [(0, login), (1, login), (0, sends 1 .begin), (1, sends 2 insertItem), (0, sends 1 .rollback),
    (1, sends 2 selectAll)]

theorem insert_joins_other :
    twoConnections.Idle ∧
      ¬ Run.Meets (Tracked.step fields evaluator presentation services verifyPassword)
        Tracked.JoinsOwn twoConnections interleaved ∧
      ((Run.run (Tracked.step fields evaluator presentation services verifyPassword)
        twoConnections interleaved).map fun done => done.1.drop 3) =
        some [.query [] [] SHOP, .query [] [] SHOP, .query [itemId.name] [[.number 7]] SHOP] :=
  ⟨twoConnections_idle, by decide +kernel, by decide +kernel⟩

end Literals

end QinDB.Server
