/-
# Executor.SessionTransaction — the transaction of a session from statement to statement

The answer to a statement says what becomes of the transaction of its session: a
transaction that was started takes its place, one that was committed or rolled back
leaves none, and every other answer leaves it as it is. No statement takes back an
identifier that was handed out, so a database that has handed out none but valid ones
starts its transactions with valid ones.

* `execute_session`: the session's transaction after a statement, by its answer.
* `execute_nextTxnId`: identifiers are not taken back.
-/
import QinDB.Executor.Frame

namespace QinDB.Executor

open QinDB.Storage

set_option autoImplicit false

section SessionTransaction

variable {V E : Type} {qt : Variant V} {ev : Evaluator V E} {view : Presentation V E}
  {session txnId : TransactionId} {walCommits : Bool} {db : Database V}

/-! ## What an answer says -/

/-- The transaction of a session after the answer to a statement. -/
def Outcome.sessionAfter (outcome : Outcome V) (session : TransactionId) : TransactionId :=
  match outcome with
  | .started txnId => txnId
  | .committed _ | .rolledBack _ _ => INVALID_TXN_ID
  | _ => session

/-- An answer that leaves the transaction of a session as it is. -/
def Outcome.Steady (outcome : Outcome V) : Prop :=
  ∀ session, outcome.sessionAfter session = session

theorem finishStatement_steady {outcome : Outcome V} (steady : outcome.Steady) :
    (finishStatement walCommits session txnId outcome db).1.Steady := by
  rw [finishStatement]
  split
  · split
    · exact steady
    · exact fun _ => rfl
  · exact steady

theorem executeInsert_steady (stmt : InsertStatement E) :
    (executeInsert qt ev walCommits session stmt db).1.Steady := by
  rw [executeInsert]
  split
  · exact fun _ => rfl
  · simp only
    split
    · exact fun _ => rfl
    · exact finishStatement_steady fun _ => rfl

theorem executeUpdate_steady (stmt : UpdateStatement E) :
    (executeUpdate qt ev walCommits session stmt db).1.Steady := by
  rw [executeUpdate]
  split
  · exact fun _ => rfl
  · simp only
    split
    · exact fun _ => rfl
    · exact finishStatement_steady fun _ => rfl

theorem executeDelete_steady (stmt : DeleteStatement E) :
    (executeDelete qt ev walCommits session stmt db).1.Steady := by
  rw [executeDelete]
  split
  · exact fun _ => rfl
  · simp only
    split
    · exact fun _ => rfl
    · exact finishStatement_steady fun _ => rfl

theorem finishSelect_steady (stmt : SelectStatement E) (table : TableDef)
    (found : List Identifier × List (List V)) :
    (finishSelect qt ev view stmt table found).Steady := by
  rw [finishSelect]
  split
  · exact fun _ => rfl
  · split
    · exact fun _ => rfl
    · exact fun _ => rfl

theorem selectWith_steady (stmt : SelectStatement E) (single source : TableDef → List (List V)) :
    (selectWith qt ev view db stmt single source).Steady := by
  rw [selectWith]
  split
  · exact fun _ => rfl
  · split
    · exact fun _ => rfl
    · split
      · split
        · exact fun _ => rfl
        · exact finishSelect_steady stmt _ _
      · split
        · exact fun _ => rfl
        · split
          · exact fun _ => rfl
          · exact finishSelect_steady stmt _ _

variable (view) in
theorem exportResult_steady (stmt : SelectStatement E) {outcome : Outcome V}
    (steady : outcome.Steady) : (exportResult view stmt outcome).Steady := by
  rw [exportResult]
  split
  · exact steady
  · split
    · exact fun _ => rfl
    · exact steady

theorem executeVacuum_steady (name : Option Identifier) :
    (executeVacuum name db).1.Steady := by
  cases name with
  | none => exact fun _ => rfl
  | some name =>
    rw [executeVacuum]
    split <;> exact fun _ => rfl

theorem executeCreateTable_steady (name : Identifier) (columns : List ColumnDef) :
    (executeCreateTable name columns db).1.Steady := by
  rw [executeCreateTable]
  split
  · exact fun _ => rfl
  · split <;> exact fun _ => rfl

theorem executeDropTable_steady (name : Identifier) :
    (executeDropTable name db).1.Steady := by
  rw [executeDropTable]
  split <;> exact fun _ => rfl

/-! ## BEGIN, COMMIT and ROLLBACK -/

theorem executeBegin_session :
    (executeBegin session db).2.1 = (executeBegin session db).1.sessionAfter session := by
  rw [executeBegin]
  split <;> rfl

theorem executeCommit_session :
    (executeCommit walCommits session db).2.1 =
      (executeCommit walCommits session db).1.sessionAfter session := by
  rw [executeCommit]
  split
  · rfl
  · split
    · rfl
    · split <;> rfl

theorem executeRollback_session :
    (executeRollback qt session db).2.1 = (executeRollback qt session db).1.sessionAfter session := by
  rw [executeRollback]
  split
  · rfl
  · split <;> rfl

variable (qt ev view walCommits session db) in
/-- Only three statements change the transaction of a session. -/
theorem execute_steady (stmt : Statement E) :
    (stmt = .begin ∨ stmt = .commit ∨ stmt = .rollback) ∨
      (execute qt ev view walCommits session db stmt).1.Steady ∧
        (execute qt ev view walCommits session db stmt).2.1 = session := by
  cases stmt with
  | begin => exact .inl (.inl rfl)
  | commit => exact .inl (.inr (.inl rfl))
  | rollback => exact .inl (.inr (.inr rfl))
  | createTable name columns => exact .inr ⟨executeCreateTable_steady name columns, rfl⟩
  | dropTable name => exact .inr ⟨executeDropTable_steady name, rfl⟩
  | insert stmt => exact .inr ⟨executeInsert_steady stmt, rfl⟩
  | update stmt => exact .inr ⟨executeUpdate_steady stmt, rfl⟩
  | delete stmt => exact .inr ⟨executeDelete_steady stmt, rfl⟩
  | select stmt =>
    exact .inr ⟨exportResult_steady view stmt (selectWith_steady stmt _ _), rfl⟩
  | vacuum name => exact .inr ⟨executeVacuum_steady name, rfl⟩

/-- The session's transaction after a statement is what its answer says. -/
theorem execute_session (stmt : Statement E) :
    (execute qt ev view walCommits session db stmt).2.1 =
      (execute qt ev view walCommits session db stmt).1.sessionAfter session := by
  rcases execute_steady qt ev view session walCommits db stmt with
    (rfl | rfl | rfl) | ⟨steady, same⟩
  · exact executeBegin_session
  · exact executeCommit_session
  · exact executeRollback_session
  · exact same.trans (steady session).symm

/-- A transaction is started with the next identifier of the database. -/
theorem execute_started {stmt : Statement E}
    (started : (execute qt ev view walCommits session db stmt).1 = .started txnId) :
    txnId = db.txns.nextTxnId := by
  rcases execute_steady qt ev view session walCommits db stmt with
    (rfl | rfl | rfl) | ⟨steady, -⟩
  · change (executeBegin session db).1 = .started txnId at started
    rw [executeBegin] at started
    split at started
    · cases started
    · exact (Outcome.started.inj started).symm
  · change (executeCommit walCommits session db).1 = .started txnId at started
    rw [executeCommit] at started
    split at started
    · cases started
    · split at started
      · cases started
      · split at started <;> cases started
  · change (executeRollback qt session db).1 = .started txnId at started
    rw [executeRollback] at started
    split at started
    · cases started
    · split at started <;> cases started
  -- a steady answer leaves both 0 and 1 as they are
  · rw [started] at steady
    exact absurd ((steady 0).symm.trans (steady 1)) (by decide)

/-- Identifiers are not taken back. -/
theorem execute_nextTxnId (stmt : Statement E) :
    db.txns.nextTxnId ≤ (execute qt ev view walCommits session db stmt).2.2.txns.nextTxnId :=
  (execute_txns qt ev view session walCommits db stmt).nextTxnId

end SessionTransaction

end QinDB.Executor
