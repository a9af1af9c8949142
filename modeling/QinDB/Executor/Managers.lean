/-
# Executor.Managers — what a statement does to the transaction manager

A statement works in the transaction of its session or in a new one: it adds undo records
to it and may complete it, and it leaves every other transaction alone. `InNameOf` lists
what happens to a manager in the name of one transaction, `StatementTxns` what a whole
statement does. What statements keep of a manager is an induction over the former.

* `execute_txns`: no statement does anything else to the manager.
* `Abandons`: the statements that give the transaction of their session up.
-/
import QinDB.Executor.Session

namespace QinDB.Executor

open QinDB.Core QinDB.Storage TransactionManager

set_option autoImplicit false

section Managers

variable {V E : Type} {qt : Variant V} {ev : Evaluator V E} {view : Presentation V E}
  {session txnId other : TransactionId} {walCommits : Bool} {db : Database V}
  {begins ended ended' : Prop} {manager manager' manager'' : TransactionManager V}

/-! ## One transaction -/

/-- What happens to a manager in the name of a transaction; `ended` says when the transaction may
be completed. -/
inductive InNameOf (txnId : TransactionId) (ended : Prop) (manager : TransactionManager V) :
    TransactionManager V → Prop where
  | refl : InNameOf txnId ended manager manager
  | log {manager' : TransactionManager V} (run : InNameOf txnId ended manager manager')
      (undo : UndoRecord V) : InNameOf txnId ended manager (manager'.addUndoRecord txnId undo)
  | abort {manager' : TransactionManager V} (run : InNameOf txnId ended manager manager')
      (may : ended) : InNameOf txnId ended manager (manager'.abortTransaction txnId).2
  | commit {manager' : TransactionManager V} (run : InNameOf txnId ended manager manager')
      (may : ended) (walCommits : Bool) :
      InNameOf txnId ended manager (manager'.commitTransaction walCommits txnId).2

theorem InNameOf.trans (first : InNameOf txnId ended manager manager')
    (second : InNameOf txnId ended manager' manager'') :
    InNameOf txnId ended manager manager'' := by
  induction second with
  | refl => exact first
  | log _ undo ih => exact .log ih undo
  | abort _ may ih => exact .abort ih may
  | commit _ may walCommits ih => exact .commit ih may walCommits

theorem InNameOf.imp (more : ended → ended') (run : InNameOf txnId ended manager manager') :
    InNameOf txnId ended' manager manager' := by
  induction run with
  | refl => exact .refl
  | log _ undo ih => exact .log ih undo
  | abort _ may ih => exact .abort ih (more may)
  | commit _ may walCommits ih => exact .commit ih (more may) walCommits

theorem nextTxnId_commit (manager : TransactionManager V) (walCommits : Bool)
    (txnId : TransactionId) :
    (manager.commitTransaction walCommits txnId).2.nextTxnId = manager.nextTxnId := by
  rw [commitTransaction]
  split
  · rfl
  · rename_i done
    exact (finish_some done).2.1

theorem InNameOf.nextTxnId (run : InNameOf txnId ended manager manager') :
    manager'.nextTxnId = manager.nextTxnId := by
  induction run with
  | refl => rfl
  | log _ undo ih => exact (nextTxnId_addUndoRecord ..).trans ih
  | abort _ _ ih => exact (nextTxnId_abort ..).trans ih
  | commit _ _ walCommits ih => exact (nextTxnId_commit ..).trans ih

/-! ## Rows -/

theorem logUndo_txns {db' : Database V} (same : db'.txns = manager) (undo : UndoRecord V) :
    InNameOf txnId ended manager (logUndo session txnId undo db').txns := by
  subst same
  rw [logUndo]
  split
  · exact .refl
  · exact .log .refl undo

variable (qt session txnId db) in
/-- Only a row that is not stored costs the transaction. -/
theorem storeRow_txns (table : TableDef) (tableName : Identifier) (nextRowId : RowId)
    (values : List V) :
    InNameOf txnId ((storeRow qt table tableName session txnId nextRowId values db).1 ≠ none)
      db.txns (storeRow qt table tableName session txnId nextRowId values db).2.2.txns := by
  rw [storeRow]
  split
  · exact logUndo_txns (by rfl) _
  · exact .abort .refl (Option.some_ne_none _)
  · split
    · exact .abort .refl (Option.some_ne_none _)
    · dsimp only
      split
      · exact logUndo_txns (by rfl) _
      · exact .abort .refl (Option.some_ne_none _)

variable (qt ev session txnId) in
theorem insertRows_txns (table : TableDef) (tableName : Identifier) :
    ∀ (rows : List (List E)) (nextRowId : RowId) (db : Database V),
      InNameOf txnId ((insertRows qt ev table tableName session txnId nextRowId db rows).1 ≠ none)
        db.txns (insertRows qt ev table tableName session txnId nextRowId db rows).2.2.txns
  | [], _, _ => .refl
  | exprs :: rest, nextRowId, db => by
      rw [insertRows]
      split
      · exact .refl
      · rename_i values _
        have stored := storeRow_txns qt session txnId db table tableName nextRowId values
        split
        · rename_i done
          rw [done] at stored
          exact stored.imp fun _ => Option.some_ne_none _
        · rename_i next after done
          rw [done] at stored
          exact (stored.imp (absurd rfl)).trans
            (insertRows_txns table tableName rest next after)

theorem changeRows_txns {α : Type} {change : α → Database V → Bool × Database V}
    (changes : ∀ candidate db, InNameOf txnId ended db.txns (change candidate db).2.txns) :
    ∀ (candidates : List α) (db : Database V),
      InNameOf txnId ended db.txns (changeRows change candidates db).2.txns
  | [], _ => .refl
  | candidate :: rest, db => (changes candidate db).trans (changeRows_txns changes rest _)

theorem updateRow_txns (table : TableDef) (tableName : Identifier)
    (candidate : Located V × List V) (db : Database V) :
    InNameOf txnId ended db.txns
      (updateRow qt table tableName session txnId candidate db).2.txns := by
  rw [updateRow]
  split
  · exact .refl
  · dsimp only
    split
    · exact logUndo_txns (by rfl) _
    · split
      · exact .refl
      · split <;> exact .refl

theorem deleteRow_txns (tableName : Identifier) (found : Located V) (db : Database V) :
    InNameOf txnId ended db.txns (deleteRow tableName session txnId found db).2.txns := by
  rw [deleteRow]
  split
  · exact .refl
  · split
    · exact .refl
    · exact logUndo_txns (by rfl) _

theorem undoRecord_txns (undo : UndoRecord V) (db : Database V) :
    (undoRecord qt session undo db).2.txns = db.txns := by
  rw [undoRecord]
  split
  · rfl
  · split
    · rfl
    · split <;> rfl

variable (qt session) in
/-- Undoing changes pages only. -/
theorem undoRecords_txns : ∀ (log : List (UndoRecord V)) (db : Database V),
    (changeRows (undoRecord qt session) log db).2.txns = db.txns
  | [], _ => rfl
  | undo :: rest, db => (undoRecords_txns rest _).trans (undoRecord_txns undo db)

/-! ## Statements -/

/-- What a statement does to the manager: something in the name of the session's transaction, or,
when it `begins` one, in that of a new one. -/
inductive StatementTxns (session : TransactionId) (begins ended : Prop)
    (manager manager' : TransactionManager V) : Prop where
  | own (run : InNameOf session ended manager manager')
  | new (may : begins) (run : InNameOf manager.nextTxnId True manager.beginTransaction.2 manager')

theorem StatementTxns.nextTxnId (done : StatementTxns session begins ended manager manager') :
    manager.nextTxnId ≤ manager'.nextTxnId := by
  cases done with
  | own run => exact Nat.le_of_eq run.nextTxnId.symm
  | new _ run => exact Nat.le_of_lt (Nat.lt_of_succ_le (Nat.le_of_eq run.nextTxnId.symm))

theorem statement_txns (ends : session ≠ INVALID_TXN_ID → ended' → ended)
    (run : InNameOf (statementTransaction session db).1 ended'
      (statementTransaction session db).2.txns manager') :
    StatementTxns session (session = INVALID_TXN_ID) ended db.txns manager' := by
  rw [statementTransaction] at run
  split at run
  · rename_i idle
    exact .new idle (run.imp fun _ => trivial)
  · rename_i inSession
    exact .own (run.imp (ends inSession))

variable (walCommits session txnId) in
theorem finishStatement_txns (outcome : Outcome V) (db : Database V) :
    InNameOf txnId (session = INVALID_TXN_ID) db.txns
      (finishStatement walCommits session txnId outcome db).2.txns := by
  rw [finishStatement]
  split
  · rename_i own
    have commit : InNameOf txnId (session = INVALID_TXN_ID) db.txns _ :=
      .commit .refl own walCommits
    split
    · rename_i done
      rw [done] at commit
      exact commit
    · rename_i txns done
      rw [done] at commit
      exact .abort commit own
  · exact .refl

theorem finishStatement_frame (walCommits : Bool) (session txnId : TransactionId)
    (outcome : Outcome V) (db : Database V) :
    ∃ txns, (finishStatement walCommits session txnId outcome db).2 = { db with txns } := by
  rw [finishStatement]
  split
  · split <;> exact ⟨_, rfl⟩
  · exact ⟨_, rfl⟩

theorem statementTransaction_frame (session : TransactionId) (db : Database V) :
    ∃ txns, (statementTransaction session db).2 = { db with txns } := by
  rw [statementTransaction]
  split <;> exact ⟨_, rfl⟩

theorem getTable_statementTransaction (session : TransactionId) (db : Database V)
    (name : Identifier) : (statementTransaction session db).2.getTable name = db.getTable name := by
  obtain ⟨txns, begins⟩ := statementTransaction_frame session db
  rw [begins]
  rfl

variable (qt ev) in
/-- A statement after which the session does not see as before what its transaction has written:
one that aborts the transaction, or a BEGIN when it is aborted. -/
def Abandons (walCommits : Bool) (session : TransactionId) (db : Database V) :
    Statement E → Prop
  | .rollback => session ≠ INVALID_TXN_ID ∧ db.txns.getTransactionState session = .ACTIVE
  | .begin => session ≠ INVALID_TXN_ID ∧ db.txns.getTransactionState session = .ABORTED
  | .insert stmt => session ≠ INVALID_TXN_ID ∧
      (executeInsert qt ev walCommits session stmt db).1.success = false
  | _ => False

variable (qt ev session walCommits db) in
theorem executeInsert_txns (stmt : InsertStatement E) :
    StatementTxns session (session = INVALID_TXN_ID)
      (Abandons qt ev walCommits session db (.insert stmt)) db.txns
      (executeInsert qt ev walCommits session stmt db).2.txns := by
  rw [Abandons, executeInsert]
  split
  · exact .own .refl
  · rename_i table _
    have rows := insertRows_txns qt ev session (statementTransaction session db).1 table
      stmt.tableName stmt.values table.nextRowId (statementTransaction session db).2
    dsimp only
    split
    · rename_i done
      rw [done] at rows
      exact statement_txns (fun inSession _ => ⟨inSession, rfl⟩) rows
    · rename_i next after done
      rw [done] at rows
      refine statement_txns (fun inSession own => absurd own inSession)
        ((rows.imp (absurd rfl)).trans ?_)
      exact finishStatement_txns _ _ _ _ (after.updateTable stmt.tableName { table with nextRowId := next })

theorem executeUpdate_txns (stmt : UpdateStatement E) :
    StatementTxns session (session = INVALID_TXN_ID) False db.txns
      (executeUpdate qt ev walCommits session stmt db).2.txns := by
  rw [executeUpdate]
  split
  · exact .own .refl
  · dsimp only
    split
    · exact statement_txns (fun _ => id) .refl
    · exact statement_txns (fun inSession own => absurd own inSession)
        ((changeRows_txns (updateRow_txns _ _) _ _).trans (finishStatement_txns ..))

theorem executeDelete_txns (stmt : DeleteStatement E) :
    StatementTxns session (session = INVALID_TXN_ID) False db.txns
      (executeDelete qt ev walCommits session stmt db).2.txns := by
  rw [executeDelete]
  split
  · exact .own .refl
  · dsimp only
    split
    · exact statement_txns (fun _ => id) .refl
    · exact statement_txns (fun inSession own => absurd own inSession)
        ((changeRows_txns (deleteRow_txns _) _ _).trans (finishStatement_txns ..))

theorem cleanupTables_txns : ∀ (tables : List TableDef) (db : Database V),
    (cleanupTables tables db).2.txns = db.txns
  | [], _ => rfl
  | table :: rest, db => cleanupTables_txns rest (cleanupTable table db).2

theorem executeVacuum_txns (name : Option Identifier) :
    (executeVacuum name db).2.txns = db.txns := by
  cases name with
  | none => exact cleanupTables_txns db.tables db
  | some tableName =>
    rw [executeVacuum]
    split <;> rfl

theorem executeCreateTable_txns (name : Identifier) (columns : List ColumnDef) :
    (executeCreateTable name columns db).2.txns = db.txns := by
  rw [executeCreateTable]
  split
  · rfl
  · split <;> rfl

theorem executeDropTable_txns (name : Identifier) :
    (executeDropTable name db).2.txns = db.txns := by
  rw [executeDropTable]
  split <;> rfl

variable (qt ev view walCommits session db) in
/-- The transaction of a session is completed by COMMIT and by statements that abandon it. -/
theorem execute_txns (stmt : Statement E) :
    StatementTxns session (session = INVALID_TXN_ID ∨ stmt = .begin)
      (stmt = .commit ∨ Abandons qt ev walCommits session db stmt) db.txns
      (execute qt ev view walCommits session db stmt).2.2.txns := by
  have unchanged : ∀ {begins ended : Prop} {manager' : TransactionManager V}, manager' = db.txns →
      StatementTxns session begins ended db.txns manager' := by
    rintro _ _ _ rfl
    exact .own .refl
  have weaken : ∀ {ended : Prop} {manager' : TransactionManager V},
      (ended → Abandons qt ev walCommits session db stmt) →
      StatementTxns session (session = INVALID_TXN_ID) ended db.txns manager' →
      StatementTxns session (session = INVALID_TXN_ID ∨ stmt = .begin)
        (stmt = .commit ∨ Abandons qt ev walCommits session db stmt) db.txns manager' := by
    intro _ _ more done
    cases done with
    | own run => exact .own (run.imp fun may => .inr (more may))
    | new idle run => exact .new (.inl idle) run
  cases stmt with
  | createTable name columns => exact unchanged (executeCreateTable_txns name columns)
  | dropTable name => exact unchanged (executeDropTable_txns name)
  | insert stmt => exact weaken id (executeInsert_txns qt ev session walCommits db stmt)
  | update stmt => exact weaken False.elim (executeUpdate_txns stmt)
  | delete stmt => exact weaken False.elim (executeDelete_txns stmt)
  | select stmt => exact unchanged rfl
  | begin =>
    change StatementTxns session _ _ db.txns (executeBegin session db).2.2.txns
    rw [executeBegin]
    split
    · exact unchanged rfl
    · exact .new (.inr rfl) .refl
  | commit =>
    change StatementTxns session _ _ db.txns (executeCommit walCommits session db).2.2.txns
    rw [executeCommit]
    split
    · exact unchanged rfl
    · split
      · exact unchanged rfl
      · have commit : InNameOf session (Statement.commit = (.commit : Statement E) ∨
            Abandons qt ev walCommits session db .commit) db.txns _ :=
          .commit .refl (.inl rfl) walCommits
        split
        all_goals
          rename_i done
          rw [done] at commit
          exact .own commit
  | rollback =>
    change StatementTxns session _ _ db.txns (executeRollback qt session db).2.2.txns
    rw [executeRollback]
    split
    · exact unchanged rfl
    · rename_i inSession
      split
      · exact unchanged rfl
      · rename_i active
        have undone := undoRecords_txns qt session (db.txns.undoLog session).reverse db
        simp only [Database.abortTransaction, undone]
        exact .own (.abort .refl (.inr ⟨inSession, not_not.mp active⟩))
  | vacuum name => exact unchanged (executeVacuum_txns name)

/-- The session goes on as before, without a transaction, or with a new one. -/
theorem execute_reader (stmt : Statement E) :
    (execute qt ev view walCommits session db stmt).2.1 = session ∨
      (execute qt ev view walCommits session db stmt).2.1 = INVALID_TXN_ID ∨
      (execute qt ev view walCommits session db stmt).2.1 = db.txns.nextTxnId ∧
        (execute qt ev view walCommits session db stmt).2.2.txns = db.txns.beginTransaction.2 := by
  cases stmt with
  | begin =>
    simp only [execute, executeBegin]
    split
    · exact .inl rfl
    · exact .inr (.inr ⟨rfl, rfl⟩)
  | commit =>
    simp only [execute, executeCommit]
    split
    · exact .inl rfl
    · split
      · exact .inl rfl
      · split
        · exact .inr (.inl rfl)
        · exact .inl rfl
  | rollback =>
    simp only [execute, executeRollback]
    split
    · exact .inl rfl
    · split
      · exact .inl rfl
      · exact .inr (.inl rfl)
  | _ => exact .inl rfl

end Managers

end QinDB.Executor
