/-
# Storage.Commit — a commit and its record

`TransactionManager::commitTransaction` makes the transaction COMMITTED and releases its
locks under the mutex, then gives the mutex up and lets the log write the COMMIT record
(`WALManager::commitTransaction`). The log reports a failed write, but not a failed flush.
Other threads look at the transaction at any of the points in between.

* `commit_honest_iff`: what is reported is what readers see only for a transaction whose
  record is in the log before the call, so for no active one.
-/
import QinDB.Storage.LockManager

namespace QinDB.Storage

set_option autoImplicit false

/-- The transactions whose COMMIT record was written, and those whose record is on disk. -/
structure CommitLog where
  written : List TransactionId
  flushed : List TransactionId
  deriving DecidableEq, Repr

/-- Whether the manager has a log, and what becomes of the write and of the flush. -/
structure WalBehaviour where
  attached : Bool
  writes : Bool
  flushes : Bool
  deriving DecidableEq, Repr

namespace CommitLog

def writeRecord (log : CommitLog) (txnId : TransactionId) : CommitLog :=
  { log with written := txnId :: log.written }

def flush (log : CommitLog) : CommitLog := { log with flushed := log.written ++ log.flushed }

/-- `WALManager::commitTransaction`: its result, and the log after the write and at the end. -/
def commitTransaction (wal : WalBehaviour) (log : CommitLog) (txnId : TransactionId) :
    Bool × List CommitLog :=
  if wal.writes then
    let written := log.writeRecord txnId
    (true, [written, if wal.flushes then written.flush else written])
  else (false, [])

end CommitLog

namespace LockManager

variable {V : Type}

/-- The result, and what other threads can see from where the mutex is given up on. -/
def commitTransaction (wal : WalBehaviour) (s : LockManager V) (log : CommitLog)
    (txnId : TransactionId) : Bool × List (LockManager V × CommitLog) :=
  match s.finish txnId .COMMITTED with
  | (false, s') => (false, [(s', log)])
  | (true, s') =>
      if wal.attached then
        let (result, logs) := log.commitTransaction wal txnId
        (result, (s', log) :: logs.map fun log' => (s', log'))
      else (true, [(s', log)])

/-- A commit of an active transaction that is reported as failed is seen by nobody and can be
aborted; a transaction that is seen as committed has its record on disk. -/
structure Honest (wal : WalBehaviour) (s : LockManager V) (log : CommitLog)
    (txnId : TransactionId) : Prop where
  refused : s.getTransactionState txnId = .ACTIVE →
    (s.commitTransaction wal log txnId).1 = false →
      ∀ point ∈ (s.commitTransaction wal log txnId).2,
        point.1.manager.isCommitted txnId = false ∧ (point.1.finish txnId .ABORTED).1 = true
  recorded : ∀ point ∈ (s.commitTransaction wal log txnId).2,
    point.1.manager.isCommitted txnId = true → txnId ∈ point.2.flushed

section Finish

variable {s : LockManager V} {txnId : TransactionId}

theorem finish_active (state : TransactionState)
    (active : s.getTransactionState txnId = .ACTIVE) :
    (s.finish txnId state).1 = true ∧
      (s.finish txnId state).2.getTransactionState txnId = state := by
  obtain ⟨manager, done⟩ := TransactionManager.finish_of_active state active
  rw [finish, done]
  exact ⟨rfl, ((TransactionManager.finish_some done).2.2.1 txnId).trans (if_pos rfl)⟩

theorem finish_inactive (state : TransactionState)
    (inactive : s.getTransactionState txnId ≠ .ACTIVE) : s.finish txnId state = (false, s) := by
  rw [finish, TransactionManager.finish_of_not_active state inactive]

end Finish

section Points

variable (wal : WalBehaviour) (s : LockManager V) (log : CommitLog) (txnId : TransactionId)

/-- The first point, and what is the same at all the others. -/
theorem commitTransaction_points :
    ((s.finish txnId .COMMITTED).2, log) ∈ (s.commitTransaction wal log txnId).2 ∧
      ∀ point ∈ (s.commitTransaction wal log txnId).2,
        point.1 = (s.finish txnId .COMMITTED).2 ∧ log.flushed ⊆ point.2.flushed := by
  rw [commitTransaction]
  split
  · rename_i s' done
    simp [done]
  · rename_i s' done
    split
    · simp only [done, CommitLog.commitTransaction]
      split
      · refine ⟨List.mem_cons_self, fun point member => ?_⟩
        simp only [List.map_cons, List.map_nil, List.mem_cons, List.not_mem_nil, or_false] at member
        rcases member with rfl | rfl | rfl
        · exact ⟨rfl, List.Subset.refl _⟩
        · exact ⟨rfl, List.Subset.refl _⟩
        · cases wal.flushes <;> simp [CommitLog.writeRecord, CommitLog.flush]
      · simp
    · simp [done]

theorem commitTransaction_active (active : s.getTransactionState txnId = .ACTIVE) :
    (s.commitTransaction wal log txnId).1 = (!wal.attached || wal.writes) := by
  have done := (finish_active .COMMITTED active).1
  rw [commitTransaction]
  split
  · rename_i refused
    rw [refused] at done
    cases done
  · rcases wal with ⟨attached, writes, flushes⟩
    cases attached <;> cases writes <;> rfl

/-- A commit is honest exactly when the write of an active transaction does not fail and the
record of the transaction, unless it is aborted, was on disk before. -/
theorem commit_honest_iff :
    Honest wal s log txnId ↔
      (s.getTransactionState txnId = .ACTIVE → wal.attached = true → wal.writes = true) ∧
        (txnId ≠ INVALID_TXN_ID → s.getTransactionState txnId ≠ .ABORTED →
          txnId ∈ log.flushed) := by
  obtain ⟨first, points⟩ := commitTransaction_points wal s log txnId
  by_cases active : s.getTransactionState txnId = .ACTIVE
  · have committed : (s.finish txnId .COMMITTED).2.getTransactionState txnId = .COMMITTED :=
      (finish_active .COMMITTED active).2
    have seen : txnId ≠ INVALID_TXN_ID →
        (s.finish txnId .COMMITTED).2.manager.isCommitted txnId = true := by
      intro valid
      exact TransactionManager.isCommitted_iff.mpr ⟨valid, .inr committed⟩
    constructor
    · rintro ⟨refused, recorded⟩
      refine ⟨fun _ attached => ?_, fun valid _ => recorded _ first (seen valid)⟩
      by_contra fails
      have result := commitTransaction_active wal s log txnId active
      rw [attached, Bool.not_eq_true _ |>.mp fails] at result
      have aborted := (refused active result _ first).2
      rw [finish_inactive .ABORTED (by rw [committed]; decide)] at aborted
      cases aborted
    · rintro ⟨writes, flushed⟩
      refine ⟨fun _ result => ?_, fun point member isCommitted => ?_⟩
      · rw [commitTransaction_active wal s log txnId active] at result
        simp only [Bool.or_eq_false_iff, Bool.not_eq_false'] at result
        rw [writes active result.1] at result
        cases result.2
      · rw [(points point member).1] at isCommitted
        have valid := (TransactionManager.isCommitted_iff.mp isCommitted).1
        exact (points point member).2 (flushed valid (by rw [active]; decide))
  · rw [finish_inactive .COMMITTED active] at first points
    constructor
    · rintro ⟨-, recorded⟩
      refine ⟨fun now => absurd now active, fun valid kept => recorded _ first ?_⟩
      refine TransactionManager.isCommitted_iff.mpr ⟨valid, ?_⟩
      change s.getTransactionState txnId = .INVALID ∨ s.getTransactionState txnId = .COMMITTED
      cases state : s.getTransactionState txnId with
      | INVALID => exact .inl rfl
      | ACTIVE => exact absurd state active
      | COMMITTED => exact .inr rfl
      | ABORTED => exact absurd state kept
    · rintro ⟨-, flushed⟩
      refine ⟨fun now => absurd now active, fun point member isCommitted => ?_⟩
      rw [(points point member).1] at isCommitted
      obtain ⟨valid, state⟩ := TransactionManager.isCommitted_iff.mp isCommitted
      refine (points point member).2 (flushed valid fun aborted => ?_)
      rw [getTransactionState] at aborted
      simp [aborted] at state

end Points

/-- The first transaction of a manager, and a log that fails to write its record: the commit
returns false, but the transaction is taken as committed and can no longer be aborted. -/
theorem failed_commit_seen :
    let s : LockManager Unit := (beginTransaction initial).2
    let log : CommitLog := ⟨[], []⟩
    let (result, points) := s.commitTransaction ⟨true, false, true⟩ log 1
    s.getTransactionState 1 = .ACTIVE ∧ result = false ∧
      points.map (fun point => (point.1.manager.isCommitted 1, (point.1.finish 1 .ABORTED).1)) =
        [(true, false)] ∧
      ¬ Honest ⟨true, false, true⟩ s log 1 := by
  refine ⟨rfl, rfl, rfl, fun honest => ?_⟩
  have seen := (honest.refused rfl rfl _ List.mem_cons_self).1
  cases seen

end LockManager

end QinDB.Storage
