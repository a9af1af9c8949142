/-
# Server.AccountIntegrity — accounts under the statements of a restricted user

CREATE USER, DROP USER and ALTER USER ask for no permission, so any user changes any
account. As long as such statements are refused or set the user's own password, no
statement writes the users table without a permission for it, and no ROLLBACK undoes
something in it, the accounts stay as they are, and the user stays restricted.

* `Holds.execute`: a statement on rows that does not reach the users table.
* `accounts_unchanged`: over whole runs.
* `restricted_user_accounts`: a user creates an administrator and sets the password of
  another one.
-/
import QinDB.Auth.SystemFrame
import QinDB.Server.IndexAuthorization

namespace QinDB.Auth

open QinDB.Storage QinDB.Executor

set_option autoImplicit false

/-! ## Statements on rows of the system database -/

section Rows

variable {V E : Type} {qt : Variant V} {fields : Fields qt} {ev : Evaluator V E}
  {view : Presentation V E} {db db' : Database V} {table : TableDef} {users : List UserRecord}
  {session : TransactionId}

/-- A database in which the live records of the users table are the same. -/
theorem Holds.transfer (holds : Holds fields db table users) (layout : Layout db')
    (found : db'.getTable USERS_TABLE = some table) (chain : db'.chain table = db.chain table)
    (contents : ∀ p ∈ db.chain table, pageContents (liveEntry qt usersColumns) db'.disk p =
      pageContents (liveEntry qt usersColumns) db.disk p) : Holds fields db' table users where
  layout := layout
  found := found
  columns := holds.columns
  pages := by rw [chain]; exact holds.pages
  records := by
    rw [chain, chainContents, List.flatMap_congr contents]
    exact holds.records
  distinct := holds.distinct
  small := holds.small

theorem Holds.of_sameChains (holds : Holds fields db table users) (same : SameChains db db')
    (contents : ∀ p ∈ db.chain table, pageContents (liveEntry qt usersColumns) db'.disk p =
      pageContents (liveEntry qt usersColumns) db.disk p) : Holds fields db' table users :=
  holds.transfer same.usable.toLayout ((same.getTable _).trans holds.found)
    (chain_congr same.following) contents

theorem Holds.of_elsewhere (holds : Holds fields db table users) {name : Identifier}
    (elsewhere : Elsewhere name db db') (different : name.toLower ≠ USERS_TABLE.toLower) :
    Holds fields db' table users := by
  refine holds.transfer elsewhere.usable.toLayout ?_ ?_ fun p inside => ?_
  · rw [elsewhere.entry _ different.symm]
    exact holds.found
  · exact elsewhere.chain _ table different.symm holds.found
  · exact pageContents_congr (elsewhere.disk _ table different.symm holds.found p inside)

theorem Holds.dropFree (holds : Holds fields db table users) (count : Nat) :
    Holds fields { db with freePages := db.freePages.drop count } table users :=
  holds.transfer (holds.layout.dropFree count) holds.found rfl fun _ _ => rfl

/-- VACUUM takes no live record. -/
theorem liveEntry_cleanup (columns : List ColumnDef) (txns : TransactionManager V)
    (content : Slot) :
    liveEntry qt columns (cleanupSlot txns content) = liveEntry qt columns content := by
  cases content with
  | none => rfl
  | some record =>
    rw [cleanupSlot]
    split
    · rfl
    · split
      · rename_i dead
        -- a record that is taken carries a mark
        have marked : record.header.deleteTxnId ≠ INVALID_TXN_ID := by
          intro unmarked
          rw [TransactionManager.canDelete, if_pos unmarked] at dead
          cases dead
        refine (Option.eq_none_iff_forall_ne_some.mpr fun entry live => ?_).symm
        obtain ⟨_, same, -, unmarked, -⟩ := liveEntry_eq_some.mp live
        cases same
        exact marked unmarked
      · rfl

/-- Whether a statement writes the users table, or undoes something on one of its pages. -/
def reachesUsers (session : TransactionId) (db : Database V) : Executor.Statement E → Bool
  | .insert stmt => decide (stmt.tableName.toLower = USERS_TABLE.toLower)
  | .update stmt => decide (stmt.tableName.toLower = USERS_TABLE.toLower)
  | .delete stmt => decide (stmt.tableName.toLower = USERS_TABLE.toLower)
  | .rollback =>
      (db.getTable USERS_TABLE).any fun table => (db.txns.undoLog session).any fun undo =>
        decide (undo.pageId ∈ db.chain table)
  | _ => false

theorem Holds.execute (holds : Holds fields db table users)
    (positive : INVALID_TXN_ID < db.txns.nextTxnId) (walCommits : Bool)
    {stmt : Executor.Statement E} (ordinary : stmt.OnRows)
    (apart : reachesUsers session db stmt = false) :
    Holds fields (execute qt ev view walCommits session db stmt).2.2 table users ∧
      INVALID_TXN_ID < (execute qt ev view walCommits session db stmt).2.2.txns.nextTxnId := by
  have usable : Usable db := { toLayout := holds.layout, positive }
  refine ⟨?_, (execute_usable usable walCommits _).positive⟩
  cases stmt with
  | createTable name columns => exact ordinary.elim
  | dropTable name => exact ordinary.elim
  | insert stmt =>
    exact holds.of_elsewhere (executeInsert_elsewhere usable stmt) (of_decide_eq_false apart)
  | update stmt =>
    exact holds.of_elsewhere (executeUpdate_elsewhere usable stmt) (of_decide_eq_false apart)
  | delete stmt =>
    exact holds.of_elsewhere (executeDelete_elsewhere usable stmt) (of_decide_eq_false apart)
  | select stmt => exact holds
  | begin =>
    exact holds.of_sameChains (executeBegin_frame usable).1 fun p _ =>
      pageContents_congr (congrFun (executeBegin_frame usable).2 p)
  | commit =>
    exact holds.of_sameChains (executeCommit_frame usable).1 fun p _ =>
      pageContents_congr (congrFun (executeCommit_frame usable).2 p)
  | rollback =>
    refine holds.of_sameChains (executeRollback_frame usable).1 fun p inside =>
      pageContents_congr ((executeRollback_frame usable).2 p fun undo member => ?_)
    rintro rfl
    rw [reachesUsers, holds.found, Option.any_some, List.any_eq_false] at apart
    exact apart undo member (decide_eq_true inside)
  | vacuum name =>
    obtain ⟨same, contents⟩ := executeVacuum_frame (liveEntry qt usersColumns) usable
      (liveEntry_cleanup usersColumns db.txns) name
    exact holds.of_sameChains same fun p _ => contents p

theorem Represents.isUserAdmin {accounts : AccountMap} (represents : Represents fields db accounts)
    (name : Identifier) : Auth.isUserAdmin fields db name = (accounts name).any (·.isAdmin) := by
  obtain ⟨table, users, holds, rfl⟩ := represents
  rw [Auth.isUserAdmin, ← holds.agrees.getUser name, Option.any_map]
  rfl

end Rows

end QinDB.Auth

namespace QinDB.Server

open QinDB.Base QinDB.Storage QinDB.Executor QinDB.Auth

set_option autoImplicit false

/-! ## Runs of a restricted user -/

section Accounts

variable {V E : Type} {qt : Variant V} (fields : Fields qt) (ev : Evaluator V E)
  (view : Presentation V E) (services : Services V E)

/-- A map of accounts after another one: the same but for the password of `user`. -/
def OnlyPassword (user : Identifier) (before after : AccountMap) : Prop :=
  (∀ name, name ≠ user → after name = before name) ∧
    (after user).map (fun account => (account.isActive, account.isAdmin)) =
      (before user).map fun account => (account.isActive, account.isAdmin)

/-- The statement is refused, leaves the users table alone or sets the user's own password, whose
hash is stored in place. -/
def sparesAccounts (s : ExecutorState V) : Statement E → Bool
  | .createUser username _ _ _ =>
      s.userExists fields username || username.isEmpty || decide (64 < textLength username)
  | .dropUser username =>
      !s.userExists fields username || s.system.all fun db =>
        Auth.isUserAdmin fields db.pages username &&
          decide ((getAllUsers fields db.pages).countP (·.isAdmin) ≤ 1)
  | .alterUser username passwordHash now =>
      !s.userExists fields username || (decide (username = s.currentUser) && s.system.all fun db =>
        Ready fields db.pages (.alterUserPassword username passwordHash now))
  | .table stmt =>
      decide (s.dbManager.currentDatabase ≠ SYSTEM_DATABASE) ||
        (s.tablePermission fields stmt).isSome || s.system.all fun db =>
          !reachesUsers s.dbManager.currentTransactionId db.pages stmt
  | _ => true

/-- A restricted user works on a server whose accounts are those of a map, but for the user's
password. -/
structure Guarded (user : Identifier) (accounts : AccountMap) (s : ExecutorState V) : Prop where
  attached : s.authManager = true
  current : s.currentUser = user
  named : user ≠ []
  ordinary : (accounts user).any (·.isAdmin) = false
  kept : ∃ db now, s.system = some db ∧ INVALID_TXN_ID < db.pages.txns.nextTxnId ∧
    Represents fields db.pages now ∧ OnlyPassword user accounts now

variable {fields ev view services} {s s' : ExecutorState V} {user : Identifier}
  {accounts now : AccountMap} {walCommits : Bool} {stmt : Statement E}

theorem OnlyPassword.refl (user : Identifier) (accounts : AccountMap) :
    OnlyPassword user accounts accounts :=
  ⟨fun _ _ => rfl, rfl⟩

/-- Whether the password was changed or the call failed. -/
theorem OnlyPassword.alter (only : OnlyPassword user accounts now) (passwordHash : Identifier)
    (time : UInt64) (answer : Bool) :
    OnlyPassword user accounts
      (Call.answered now (.alterUserPassword user passwordHash time) answer) := by
  cases answer with
  | false => exact only
  | true =>
    refine ⟨fun name other => ?_, ?_⟩
    · exact (Function.update_of_ne other _ _).trans (only.1 name other)
    · show Option.map _ (Function.update now user _ user) = _
      rw [Function.update_self, Option.map_map]
      exact only.2

theorem OnlyPassword.isAdmin (only : OnlyPassword user accounts now) :
    (now user).any (·.isAdmin) = (accounts user).any (·.isAdmin) := by
  have flags := only.2
  cases after : now user with
  | none =>
    rw [after] at flags
    cases before : accounts user with
    | none => rfl
    | some account =>
      rw [before] at flags
      cases flags
  | some account =>
    rw [after] at flags
    cases before : accounts user with
    | none =>
      rw [before] at flags
      cases flags
    | some account' =>
      rw [before] at flags
      exact congrArg Prod.snd (Option.some.inj flags)

theorem Guarded.restricted (guarded : Guarded fields user accounts s) :
    s.restricted fields = true := by
  obtain ⟨db, now, system, -, represents, only⟩ := guarded.kept
  have ordinary : Auth.isUserAdmin fields db.pages user = false := by
    rw [represents.isUserAdmin, only.isAdmin, guarded.ordinary]
  simp [ExecutorState.restricted, guarded.attached, guarded.current, guarded.named,
    ExecutorState.isUserAdmin, system, ordinary]

/-- The system database after a change of the current one. -/
theorem system_withCurrent (db : DatabaseDef V) :
    (s.withCurrent db).system =
      if SYSTEM_DATABASE = s.dbManager.currentDatabase then some db else s.system :=
  DatabaseManager.databases_setCurrent SYSTEM_DATABASE

/-- A new version of the current database that keeps the accounts if it is the system database. -/
theorem Guarded.withCurrent (guarded : Guarded fields user accounts s) {db db' : DatabaseDef V}
    (selected : s.dbManager.current = some db) (system : s'.system = (s.withCurrent db').system)
    (attached : s'.authManager = s.authManager) (current : s'.currentUser = s.currentUser)
    (kept : s.dbManager.currentDatabase = SYSTEM_DATABASE → s.system = some db →
      ∀ table users, Holds fields db.pages table users →
        INVALID_TXN_ID < db.pages.txns.nextTxnId →
        Holds fields db'.pages table users ∧ INVALID_TXN_ID < db'.pages.txns.nextTxnId) :
    Guarded fields user accounts s' := by
  obtain ⟨old, now, before, positive, ⟨table, users, holds, same⟩, only⟩ := guarded.kept
  refine ⟨attached.trans guarded.attached, current.trans guarded.current, guarded.named,
    guarded.ordinary, ?_⟩
  rw [system, system_withCurrent]
  by_cases here : SYSTEM_DATABASE = s.dbManager.currentDatabase
  · have selected' := DatabaseManager.current_eq_some selected
    rw [← here] at selected'
    have sameDb : old = db := Option.some.inj (before.symm.trans selected')
    subst sameDb
    obtain ⟨holds', positive'⟩ := kept here.symm before table users holds positive
    rw [if_pos here]
    exact ⟨db', now, rfl, positive', ⟨table, users, holds', same⟩, only⟩
  · rw [if_neg here]
    exact ⟨old, now, before, positive, ⟨table, users, holds, same⟩, only⟩

/-- Other pages of the system database. -/
theorem Guarded.withAccounts (guarded : Guarded fields user accounts s) {db : DatabaseDef V}
    {pages : Database V} {now : AccountMap} (positive : INVALID_TXN_ID < pages.txns.nextTxnId)
    (represents : Represents fields pages now) (only : OnlyPassword user accounts now) :
    Guarded fields user accounts (s.withAccounts db pages) where
  attached := guarded.attached
  current := guarded.current
  named := guarded.named
  ordinary := guarded.ordinary
  kept := by
    refine ⟨{ db with pages }, now, ?_, positive, represents, only⟩
    show Function.update s.dbManager.databases SYSTEM_DATABASE (some { db with pages })
      SYSTEM_DATABASE = _
    rw [Function.update_self]

/-- A refused call leaves the pages as they are. -/
theorem createUser_refused {db : Database V} {username passwordHash : Identifier} {time : UInt64}
    {isAdmin : Bool} (invalid : username = [] ∨ 64 < textLength username) :
    (createUser fields username passwordHash time isAdmin db).2 = db := by
  rw [createUser, if_pos invalid]

theorem Effect.guarded {answer : Answer V}
    (effect : Effect fields ev view walCommits s stmt answer s')
    (guarded : Guarded fields user accounts s) (spares : sparesAccounts fields s stmt = true) :
    Guarded fields user accounts s' := by
  obtain ⟨old, now, system, positive, represents, only⟩ := guarded.kept
  cases effect with
  | rows stmt db selected allowed result executed =>
    have onRows := onRows_of_restricted guarded.restricted allowed
    rw [onRows.2]
    subst executed
    refine guarded.withCurrent selected rfl rfl rfl fun here system' table users holds positive' => ?_
    have apart : reachesUsers s.dbManager.currentTransactionId db.pages stmt = false := by
      simpa [sparesAccounts, here, allowed, system'] using spares
    exact holds.execute positive' walCommits onRows.1 apart
  | beside steady change =>
    cases change with
    | nothing => exact guarded
    | switched name => exact ⟨guarded.attached, guarded.current, guarded.named, guarded.ordinary,
        guarded.kept⟩
    | pagesTaken stmt db count selected =>
      exact guarded.withCurrent selected rfl rfl rfl fun _ _ table users holds positive' =>
        ⟨holds.dropFree count, positive'⟩
    | indexed stmt db count index selected =>
      exact guarded.withCurrent selected rfl rfl rfl fun _ _ table users holds positive' =>
        ⟨holds.dropFree count, positive'⟩
    | unindexed name ifExists db selected =>
      exact guarded.withCurrent selected rfl rfl rfl fun _ _ table users holds positive' =>
        ⟨holds, positive'⟩
    | created username passwordHash time isAdmin db attached system' unknown =>
      cases system.symm.trans system'
      have invalid : username = [] ∨ 64 < textLength username := by
        simpa [sparesAccounts, ExecutorState.userExists, system, unknown] using spares
      rw [createUser_refused invalid]
      exact guarded.withAccounts positive represents only
    | dropped username db attached system' known =>
      cases system.symm.trans system'
      have last : Auth.isUserAdmin fields old.pages username = true ∧
          (getAllUsers fields old.pages).countP (·.isAdmin) ≤ 1 := by
        simpa [sparesAccounts, ExecutorState.userExists, system, known] using spares
      rw [dropUser, if_pos last]
      exact guarded.withAccounts positive represents only
    | altered username passwordHash time db attached system' known =>
      cases system.symm.trans system'
      have own : username = user ∧
          Ready fields old.pages (.alterUserPassword username passwordHash time) = true := by
        simpa [sparesAccounts, ExecutorState.userExists, system, known, guarded.current] using spares
      obtain ⟨rfl, ready⟩ := own
      obtain ⟨answer, pages, taken, represents'⟩ := represents_step represents _ ready
      have same : (alterUserPassword fields username passwordHash time old.pages).2 = pages :=
        congrArg Prod.snd (Option.some.inj taken)
      refine guarded.withAccounts ?_ (same ▸ represents') (only.alter passwordHash time answer)
      obtain ⟨table, users, holds, -⟩ := represents
      have usable : Usable old.pages := { toLayout := holds.layout, positive }
      rw [(alterUserPassword_change fields usable username passwordHash time).txns]
      exact positive
    -- the rest is for administrators
    | _ => simp_all [guarded.restricted]

/-- In every run of statements of a restricted user that are refused, do not reach the users table
or set the user's own password, the accounts stay the same but for that password. -/
theorem accounts_unchanged (fields : Fields qt) (ev : Evaluator V E) (view : Presentation V E)
    (services : Services V E) (s : ExecutorState V) (restricted : s.restricted fields = true)
    (db : DatabaseDef V) (accounts : AccountMap) (system : s.system = some db)
    (positive : INVALID_TXN_ID < db.pages.txns.nextTxnId)
    (represents : Represents fields db.pages accounts) (inputs : List (Bool × Statement E))
    (meets : Run.Meets (step fields ev view services)
      (fun s input => sparesAccounts fields s input.2 = true) s inputs) :
    ∃ answers s' db' accounts',
      Run.run (step fields ev view services) s inputs = some (answers, s') ∧
        s'.system = some db' ∧ Agrees fields db'.pages accounts' ∧
        OnlyPassword s.currentUser accounts accounts' := by
  have start : Guarded fields s.currentUser accounts s := by
    simp only [ExecutorState.restricted, Bool.and_eq_true, Bool.not_eq_true',
      List.isEmpty_eq_false_iff] at restricted
    obtain ⟨⟨attached, named⟩, ordinary⟩ := restricted
    rw [ExecutorState.isUserAdmin, system, Option.any_some, represents.isUserAdmin] at ordinary
    exact ⟨attached, rfl, named, ordinary, db, accounts, system, positive, represents, .refl _ _⟩
  have kept : ∀ (state : ExecutorState V) (input : Bool × Statement E),
      Guarded fields s.currentUser accounts state → sparesAccounts fields state input.2 = true →
      Guarded fields s.currentUser accounts
        (execute fields ev view services input.1 state input.2).2 :=
    fun state input guarded spares =>
      (execute_effect fields ev view services input.1 state input.2).guarded guarded spares
  obtain ⟨answers, s', returned, guarded⟩ := Run.run_keeps kept inputs s start meets
  obtain ⟨db', accounts', system', -, ⟨table, users, holds, rfl⟩, only⟩ := guarded.kept
  exact ⟨answers, s', db', _, returned, system', holds.agrees, only⟩

end Accounts

/-! ## Runs -/

namespace Literals

open QinDB.Auth.Literals

theorem system_represents : ∃ accounts, Represents fields system.pages accounts := by
  have started : Represents fields (initializeUserSystem fields ['h'] 0 emptyDatabase).2 _ :=
    represents_initializeUserSystem fields emptyDatabase_layout (by decide) (by decide +kernel)
      (by decide +kernel)
  obtain ⟨answer, pages, taken, represents⟩ := represents_step started
    (.createUser USER ['p'] 1 false) (by decide +kernel)
  have same : system.pages = pages := congrArg Prod.snd (Option.some.inj taken)
  exact ⟨_, same ▸ represents⟩

/-- The user sets a password; what is about other accounts is refused. -/
theorem accounts_unchanged_five : ∃ accounts, Represents fields system.pages accounts ∧
    ∃ answers s' db' accounts',
      Run.run (step fields evaluator presentation services) userSession
          [(true, .alterUser USER ['q'] 2), (true, .createUser ADMIN ['q'] 3 false),
           (true, .dropUser ADMIN), (true, .useDatabase SYSTEM_DATABASE),
           (true, .table (.delete { tableName := USERS_TABLE, whereClause := none }))] =
        some (answers, s') ∧ s'.system = some db' ∧ Agrees fields db'.pages accounts' ∧
        OnlyPassword USER accounts accounts' := by
  obtain ⟨accounts, represents⟩ := system_represents
  exact ⟨accounts, represents, accounts_unchanged fields evaluator presentation services userSession
    (by decide +kernel) system accounts rfl (by decide +kernel) represents _ (by decide +kernel)⟩

/-- A user who is no administrator creates one, sets the administrator's password and drops the
administrator. -/
theorem restricted_user_accounts :
    userSession.restricted fields = true ∧
    (∃ answers s', Run.run (step fields evaluator presentation services) userSession
        [(true, .createUser ['m'] ['m'] 2 true)] = some (answers, s') ∧
      userSession.isUserAdmin fields ['m'] = false ∧ s'.isUserAdmin fields ['m'] = true) ∧
    (∃ answers s', Run.run (step fields evaluator presentation services) userSession
        [(true, .alterUser ADMIN ['m'] 2)] = some (answers, s') ∧
      (s'.system.bind fun db => getUserFromDatabase fields db.pages ADMIN).map
        UserRecord.passwordHash = some ['m']) ∧
    (∃ answers s', Run.run (step fields evaluator presentation services) userSession
        [(true, .createUser ['m'] ['m'] 2 true), (true, .dropUser ADMIN)] = some (answers, s') ∧
      s'.userExists fields ADMIN = false) := by
  refine ⟨by decide +kernel, ⟨_, _, rfl, by decide +kernel, by decide +kernel⟩,
    ⟨_, _, rfl, by decide +kernel⟩, ⟨_, _, rfl, by decide +kernel⟩⟩

end Literals

end QinDB.Server
