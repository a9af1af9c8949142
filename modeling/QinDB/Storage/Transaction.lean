/-
# Storage.Transaction — transaction states, undo logs and visibility

The transaction manager hands out identifiers, keeps the state and the undo log of
each transaction (`transaction.cpp`), and answers the visibility checker
(`visibility_checker.cpp`) and VACUUM (`vacuum.cpp`). An identifier it does not
know counts as committed.

* `isVisible_iff`: whom a record is visible to.
* `isVisible_of_canDelete`: what VACUUM may remove is visible to nobody.
-/
import QinDB.Storage.TablePage

namespace QinDB.Storage

open QinDB.Core

set_option autoImplicit false

inductive TransactionState where
  | INVALID | ACTIVE | COMMITTED | ABORTED
  deriving DecidableEq, Repr

inductive UndoOperation (V : Type) where
  | INSERT
  | UPDATE (oldValues : List V)
  | DELETE (oldValues : List V)
  deriving DecidableEq, Repr

structure UndoRecord (V : Type) where
  opType : UndoOperation V
  tableName : Identifier
  pageId : PageId
  slotIndex : Nat
  deriving DecidableEq, Repr

structure Transaction (V : Type) where
  state : TransactionState
  undoLog : List (UndoRecord V)

structure TransactionManager (V : Type) where
  nextTxnId : TransactionId
  transactions : TransactionId → Option (Transaction V)

namespace TransactionManager

variable {V : Type}

/-- A manager that has just been started: it knows no transaction. -/
def initial : TransactionManager V where
  nextTxnId := 1
  transactions := fun _ => none

def getTransactionState (manager : TransactionManager V) (txnId : TransactionId) :
    TransactionState :=
  match manager.transactions txnId with
  | none => .INVALID
  | some txn => txn.state

def undoLog (manager : TransactionManager V) (txnId : TransactionId) : List (UndoRecord V) :=
  match manager.transactions txnId with
  | none => []
  | some txn => txn.undoLog

def beginTransaction (manager : TransactionManager V) : TransactionId × TransactionManager V :=
  (manager.nextTxnId,
    { nextTxnId := manager.nextTxnId + 1
      transactions := Function.update manager.transactions manager.nextTxnId
        (some { state := .ACTIVE, undoLog := [] }) })

/-- Give an active transaction a final state. -/
def finish (manager : TransactionManager V) (txnId : TransactionId) (state : TransactionState) :
    Option (TransactionManager V) :=
  match manager.transactions txnId with
  | none => none
  | some txn =>
      if txn.state = .ACTIVE then
        some { manager with
          transactions := Function.update manager.transactions txnId (some { txn with state }) }
      else none

/-- The state becomes COMMITTED before the commit record is written; `walCommits` says
whether that write succeeds. -/
def commitTransaction (walCommits : Bool) (manager : TransactionManager V)
    (txnId : TransactionId) : Bool × TransactionManager V :=
  match manager.finish txnId .COMMITTED with
  | none => (false, manager)
  | some manager' => (walCommits, manager')

def abortTransaction (manager : TransactionManager V) (txnId : TransactionId) :
    Bool × TransactionManager V :=
  match manager.finish txnId .ABORTED with
  | none => (false, manager)
  | some manager' => (true, manager')

/-- Only an active transaction takes undo records. -/
def addUndoRecord (manager : TransactionManager V) (txnId : TransactionId)
    (undo : UndoRecord V) : TransactionManager V :=
  match manager.transactions txnId with
  | none => manager
  | some txn =>
      if txn.state = .ACTIVE then
        { manager with
          transactions := Function.update manager.transactions txnId
            (some { txn with undoLog := txn.undoLog ++ [undo] }) }
      else manager

/-! ## Visibility -/

def isCommitted (manager : TransactionManager V) (txnId : TransactionId) : Bool :=
  if txnId = INVALID_TXN_ID then false
  else
    match manager.getTransactionState txnId with
    | .INVALID => true
    | .COMMITTED => true
    | _ => false

def isAborted (manager : TransactionManager V) (txnId : TransactionId) : Bool :=
  if txnId = INVALID_TXN_ID then false
  else decide (manager.getTransactionState txnId = .ABORTED)

def isVisible (manager : TransactionManager V) (header : RecordHeader)
    (currentTxnId : TransactionId) : Bool :=
  if !manager.isCommitted header.createTxnId && header.createTxnId ≠ currentTxnId then false
  else if manager.isAborted header.createTxnId then false
  else if header.deleteTxnId = INVALID_TXN_ID then true
  else if header.deleteTxnId = currentTxnId then false
  else if manager.isCommitted header.deleteTxnId && header.deleteTxnId ≠ currentTxnId then false
  else true

/-- Whether VACUUM may empty the slot of a record with this header. -/
def canDelete (manager : TransactionManager V) (header : RecordHeader) : Bool :=
  if header.deleteTxnId = INVALID_TXN_ID then false
  else if manager.getTransactionState header.deleteTxnId ≠ .COMMITTED then false
  else if manager.getTransactionState header.createTxnId ≠ .COMMITTED then false
  else true

section States

variable (manager : TransactionManager V) (txnId other : TransactionId)

theorem getTransactionState_begin :
    manager.beginTransaction.2.getTransactionState other =
      if other = manager.nextTxnId then .ACTIVE else manager.getTransactionState other := by
  by_cases same : other = manager.nextTxnId
  · subst same
    simp only [getTransactionState, beginTransaction, Function.update_self, if_true]
  · simp only [getTransactionState, beginTransaction, Function.update_of_ne same, if_neg same]

variable {manager txnId}

theorem finish_some {state : TransactionState} {manager' : TransactionManager V}
    (done : manager.finish txnId state = some manager') :
    manager.getTransactionState txnId = .ACTIVE ∧ manager'.nextTxnId = manager.nextTxnId ∧
      (∀ other, manager'.getTransactionState other =
        if other = txnId then state else manager.getTransactionState other) ∧
      ∀ other, manager'.undoLog other = manager.undoLog other := by
  rw [finish] at done
  split at done
  · cases done
  · rename_i txn found
    split at done
    · rename_i active
      cases done
      refine ⟨by rw [getTransactionState, found]; exact active, rfl, fun other => ?_,
        fun other => ?_⟩
      · by_cases same : other = txnId
        · subst same
          simp only [getTransactionState, Function.update_self, if_true]
        · simp only [getTransactionState, Function.update_of_ne same, if_neg same]
      · by_cases same : other = txnId
        · subst same
          simp only [undoLog, Function.update_self, found]
        · simp only [undoLog, Function.update_of_ne same]
    · cases done

theorem finish_of_active (state : TransactionState)
    (active : manager.getTransactionState txnId = .ACTIVE) :
    ∃ manager', manager.finish txnId state = some manager' := by
  cases found : manager.transactions txnId with
  | none =>
    rw [getTransactionState, found] at active
    cases active
  | some txn =>
    rw [getTransactionState, found] at active
    simp only [finish, found, if_pos active, Option.some.injEq, exists_eq']

theorem finish_of_not_active (state : TransactionState)
    (inactive : manager.getTransactionState txnId ≠ .ACTIVE) :
    manager.finish txnId state = none := by
  cases found : manager.transactions txnId with
  | none => simp only [finish, found]
  | some txn =>
    rw [getTransactionState, found] at inactive
    simp only [finish, found, if_neg inactive]

variable (manager txnId)

theorem nextTxnId_abort :
    (manager.abortTransaction txnId).2.nextTxnId = manager.nextTxnId := by
  rw [abortTransaction]
  split
  · rfl
  · rename_i manager' done
    exact (finish_some done).2.1

@[simp] theorem nextTxnId_addUndoRecord (undo : UndoRecord V) :
    (manager.addUndoRecord txnId undo).nextTxnId = manager.nextTxnId := by
  rw [addUndoRecord]
  split
  · rfl
  · split <;> rfl

end States

/-! ## What visibility depends on -/

section Visibility

variable {manager manager' : TransactionManager V} {header : RecordHeader}
  {current : TransactionId}

/-- The creator's half of visibility. -/
def Created (manager : TransactionManager V) (creator current : TransactionId) : Prop :=
  (manager.isCommitted creator = true ∨ creator = current) ∧ manager.isAborted creator = false

/-- The deleter's half: not deleted, or only by somebody else who has not committed. -/
def Undeleted (manager : TransactionManager V) (deleter current : TransactionId) : Prop :=
  deleter = INVALID_TXN_ID ∨ (deleter ≠ current ∧ manager.isCommitted deleter = false)

theorem isVisible_iff :
    manager.isVisible header current = true ↔
      manager.Created header.createTxnId current ∧
        manager.Undeleted header.deleteTxnId current := by
  rw [isVisible, Created, Undeleted]
  by_cases own : header.createTxnId = current <;>
    cases manager.isCommitted header.createTxnId <;>
    cases manager.isAborted header.createTxnId <;>
    by_cases kept : header.deleteTxnId = INVALID_TXN_ID <;>
    by_cases mine : header.deleteTxnId = current <;>
    cases manager.isCommitted header.deleteTxnId <;>
    simp [own, kept, mine]

/-- What VACUUM may remove is visible to nobody. -/
theorem isVisible_of_canDelete (removable : manager.canDelete header = true)
    (current : TransactionId) : manager.isVisible header current = false := by
  rw [canDelete] at removable
  split at removable
  · cases removable
  · rename_i marked
    split at removable
    · cases removable
    · rename_i committed
      by_contra visible
      rw [Bool.not_eq_false, isVisible_iff] at visible
      rcases visible.2 with unmarked | ⟨-, uncommitted⟩
      · exact marked unmarked
      · rw [isCommitted, if_neg marked, not_not.mp committed] at uncommitted
        cases uncommitted

theorem isCommitted_iff {txnId : TransactionId} :
    manager.isCommitted txnId = true ↔ txnId ≠ INVALID_TXN_ID ∧
      (manager.getTransactionState txnId = .INVALID ∨
        manager.getTransactionState txnId = .COMMITTED) := by
  rw [isCommitted]
  split
  · rename_i invalid
    simp [invalid]
  · rename_i valid
    cases manager.getTransactionState txnId <;> simp [valid]

theorem isAborted_iff {txnId : TransactionId} :
    manager.isAborted txnId = true ↔ txnId ≠ INVALID_TXN_ID ∧
      manager.getTransactionState txnId = .ABORTED := by
  rw [isAborted]
  split
  · rename_i invalid
    simp [invalid]
  · rename_i valid
    simp [valid]

end Visibility

end TransactionManager

end QinDB.Storage
