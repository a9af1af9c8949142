/-
# Storage.LockManager — page locks and the life of a transaction

The locks of `transaction.cpp`: a page is locked by one transaction alone or shared by
several, a transaction remembers the pages it has locked, and its end releases them. Every
function runs under one mutex, but `lockPage` gives it up between two attempts, and the log
is written without it. So any interleaving of calls is a sequence of the sections below,
one attempt of `lockPage` being one section; the log touches nothing of this state.

* `Consistent`: the two records of who holds what agree, and only active transactions hold.
* `Consistent.withdraw`: taking one transaction off the locks of some pages, which is what
  unlocking and both ends of a transaction do.
* `interleaving_consistent`: what holds at every point of every interleaving.
-/
import QinDB.Base.Run
import QinDB.Storage.Transaction

namespace QinDB.Storage

open QinDB.Core QinDB.Base.Run

set_option autoImplicit false

inductive LockType where
  | SHARED | EXCLUSIVE
  deriving DecidableEq, Repr

/-- The sets of the source are lists; what is taken out is taken out wherever it stands. -/
structure PageLock where
  lockType : LockType
  holders : List TransactionId
  deriving DecidableEq, Repr

/-- The transactions, the pages each of them has locked, and the locks. -/
structure LockManager (V : Type) where
  manager : TransactionManager V
  lockedPages : TransactionId → List PageId
  pageLocks : PageId → Option PageLock

/-- The lock without one of its holders; a lock that nobody holds is erased. -/
def removeHolder (txnId : TransactionId) (found : Option PageLock) : Option PageLock :=
  match found with
  | none => none
  | some lock =>
      let holders := lock.holders.filter (· ≠ txnId)
      if holders = [] then none else some { lock with holders }

def isLockCompatible (existingLock : PageLock) (requestedLock : LockType) : Bool :=
  existingLock.lockType = .SHARED && requestedLock = .SHARED

namespace LockManager

variable {V : Type}

def initial : LockManager V where
  manager := .initial
  lockedPages := fun _ => []
  pageLocks := fun _ => none

def getTransactionState (s : LockManager V) : TransactionId → TransactionState :=
  s.manager.getTransactionState

def beginTransaction (s : LockManager V) : TransactionId × LockManager V :=
  let (txnId, manager) := s.manager.beginTransaction
  (txnId, { s with manager, lockedPages := Function.update s.lockedPages txnId [] })

def releaseAllLocks (s : LockManager V) (txnId : TransactionId) : LockManager V :=
  { s with
    lockedPages := Function.update s.lockedPages txnId []
    pageLocks := (s.lockedPages txnId).foldl
      (fun locks pageId => Function.update locks pageId (removeHolder txnId (locks pageId)))
      s.pageLocks }

/-- `commitTransaction` and `abortTransaction` up to where they give up the mutex. -/
def finish (s : LockManager V) (txnId : TransactionId) (state : TransactionState) :
    Bool × LockManager V :=
  match s.manager.finish txnId state with
  | none => (false, s)
  | some manager => (true, { s with manager }.releaseAllLocks txnId)

def setLock (s : LockManager V) (pageId : PageId) (lock : PageLock) : LockManager V :=
  { s with pageLocks := Function.update s.pageLocks pageId (some lock) }

def addLockedPage (s : LockManager V) (txnId : TransactionId) (pageId : PageId) :
    LockManager V :=
  { s with lockedPages :=
      Function.update s.lockedPages txnId ((s.lockedPages txnId).insert pageId) }

/-- One attempt of `lockPage`. There is no answer when it has to be made again; whether it
is, or the call times out, changes nothing here. -/
def tryLockPage (s : LockManager V) (txnId : TransactionId) (pageId : PageId)
    (lockType : LockType) : Option Bool × LockManager V :=
  if s.getTransactionState txnId ≠ .ACTIVE then (some false, s)
  else
    match s.pageLocks pageId with
    | none => (some true, (s.setLock pageId ⟨lockType, [txnId]⟩).addLockedPage txnId pageId)
    | some lock =>
        if txnId ∈ lock.holders ∧ ¬ (lock.lockType = .SHARED ∧ lockType = .EXCLUSIVE) then
          (some true, s)
        else if txnId ∈ lock.holders ∧ lock.holders.length = 1 then
          (some true, s.setLock pageId { lock with lockType := .EXCLUSIVE })
        else if isLockCompatible lock lockType then
          (some true, (s.setLock pageId
            { lock with holders := lock.holders.insert txnId }).addLockedPage txnId pageId)
        else (none, s)

def unlockPage (s : LockManager V) (txnId : TransactionId) (pageId : PageId) :
    Bool × LockManager V :=
  if (s.manager.transactions txnId).isNone then (false, s)
  else
    match s.pageLocks pageId with
    | none => (false, s)
    | some lock =>
        if txnId ∈ lock.holders then
          (true, { s with
            lockedPages := Function.update s.lockedPages txnId
              ((s.lockedPages txnId).filter (· ≠ pageId))
            pageLocks := Function.update s.pageLocks pageId (removeHolder txnId (some lock)) })
        else (false, s)

/-! ## Interleavings -/

/-- What a thread does while it has the mutex. -/
inductive Section where
  | begin
  | commit (txnId : TransactionId)
  | abort (txnId : TransactionId)
  | tryLock (txnId : TransactionId) (pageId : PageId) (lockType : LockType)
  | unlock (txnId : TransactionId) (pageId : PageId)
  deriving DecidableEq, Repr

inductive Answer where
  | began (txnId : TransactionId)
  | returned (result : Bool)
  | waits
  deriving DecidableEq, Repr

def Answer.ofAttempt : Option Bool → Answer
  | some result => .returned result
  | none => .waits

def perform (s : LockManager V) : Section → Answer × LockManager V
  | .begin => (.began s.beginTransaction.1, s.beginTransaction.2)
  | .commit txnId => ((s.finish txnId .COMMITTED).map .returned id)
  | .abort txnId => ((s.finish txnId .ABORTED).map .returned id)
  | .tryLock txnId pageId lockType => (s.tryLockPage txnId pageId lockType).map .ofAttempt id
  | .unlock txnId pageId => (s.unlockPage txnId pageId).map .returned id

def after (s : LockManager V) (sections : List Section) : LockManager V :=
  (specRun perform s sections).2

/-- The identifiers that were handed out. -/
def begun (s : LockManager V) (sections : List Section) : List TransactionId :=
  (specRun perform s sections).1.filterMap fun
    | .began txnId => some txnId
    | _ => none

/-! ## One lock -/

def Holds (locks : PageId → Option PageLock) (txnId : TransactionId) (pageId : PageId) : Prop :=
  ∃ lock, locks pageId = some lock ∧ txnId ∈ lock.holders

/-- A lock has a holder, and an exclusive one no other. -/
def Proper (lock : PageLock) : Prop :=
  lock.holders ≠ [] ∧ (lock.lockType = .EXCLUSIVE → ∃ txnId, lock.holders = [txnId])

section Lock

variable {txnId other : TransactionId} {found : Option PageLock} {lock : PageLock}

theorem mem_removeHolder :
    (∃ lock, removeHolder txnId found = some lock ∧ other ∈ lock.holders) ↔
      other ≠ txnId ∧ ∃ lock, found = some lock ∧ other ∈ lock.holders := by
  cases found with
  | none => simp [removeHolder]
  | some lock =>
    have mem : other ∈ lock.holders.filter (· ≠ txnId) ↔ other ≠ txnId ∧ other ∈ lock.holders := by
      simp [and_comm]
    simp only [removeHolder, Option.some.injEq, exists_eq_left']
    rw [← mem]
    split
    · rename_i none_left
      rw [none_left]
      simp only [reduceCtorEq, false_and, exists_false, List.not_mem_nil]
    · simp only [Option.some.injEq, exists_eq_left']

theorem proper_removeHolder (proper : ∀ lock, found = some lock → Proper lock)
    (kept : removeHolder txnId found = some lock) : Proper lock := by
  cases found with
  | none => cases kept
  | some old =>
    simp only [removeHolder] at kept
    split at kept
    · cases kept
    · rename_i left
      cases kept
      refine ⟨left, fun exclusive => ?_⟩
      obtain ⟨sole, holders⟩ := (proper old rfl).2 exclusive
      have stays : sole ≠ txnId := by
        rintro rfl
        exact left (by rw [holders]; simp)
      exact ⟨sole, by simp [holders, stays]⟩

theorem removeHolder_removeHolder :
    removeHolder txnId (removeHolder txnId found) = removeHolder txnId found := by
  cases found with
  | none => rfl
  | some lock =>
    by_cases left : lock.holders.filter (· ≠ txnId) = []
    · simp only [removeHolder, if_pos left]
    · simp only [removeHolder, if_neg left, List.filter_filter, Bool.and_self]

/-- What `releaseAllLocks` makes of the locks. -/
theorem foldl_removeHolder (pages : List PageId) (locks : PageId → Option PageLock)
    (pageId : PageId) :
    pages.foldl (fun locks pageId =>
        Function.update locks pageId (removeHolder txnId (locks pageId))) locks pageId =
      if pageId ∈ pages then removeHolder txnId (locks pageId) else locks pageId := by
  induction pages generalizing locks with
  | nil => rfl
  | cons first rest ih =>
    rw [List.foldl_cons, ih]
    by_cases here : pageId = first
    · subst here
      simp [removeHolder_removeHolder]
    · simp [here]

end Lock

/-! ## The invariant -/

structure Consistent (s : LockManager V) : Prop where
  proper : ∀ pageId lock, s.pageLocks pageId = some lock → Proper lock
  mirrored : ∀ txnId pageId, Holds s.pageLocks txnId pageId ↔ pageId ∈ s.lockedPages txnId
  active : ∀ txnId pageId, Holds s.pageLocks txnId pageId → s.getTransactionState txnId = .ACTIVE
  fresh : ∀ txnId, s.manager.nextTxnId ≤ txnId → s.getTransactionState txnId = .INVALID

theorem consistent_initial : (initial : LockManager V).Consistent where
  proper := by
    rintro pageId lock ⟨⟩
  mirrored txnId pageId := by simp [Holds, initial]
  active := by
    rintro txnId pageId ⟨lock, ⟨⟩, -⟩
  fresh txnId _ := rfl

namespace Consistent

variable {s s' : LockManager V} {txnId : TransactionId} {pageId : PageId}

/-- A transaction is taken off the locks of the pages that are `gone`. It may end when these
are all it had. -/
theorem withdraw (consistent : s.Consistent) (txnId : TransactionId) (gone : PageId → Bool)
    (locks : ∀ pageId, s'.pageLocks pageId =
      if gone pageId then removeHolder txnId (s.pageLocks pageId) else s.pageLocks pageId)
    (own : ∀ pageId, pageId ∈ s'.lockedPages txnId ↔
      pageId ∈ s.lockedPages txnId ∧ gone pageId = false)
    (others : ∀ other, other ≠ txnId → s'.lockedPages other = s.lockedPages other)
    (next : s'.manager.nextTxnId = s.manager.nextTxnId)
    (states : ∀ other, s'.getTransactionState other = s.getTransactionState other ∨
      other = txnId ∧ s.getTransactionState txnId = .ACTIVE ∧
        ∀ pageId ∈ s.lockedPages txnId, gone pageId = true) : s'.Consistent := by
  have holds : ∀ other pageId, Holds s'.pageLocks other pageId ↔
      Holds s.pageLocks other pageId ∧ (other = txnId → gone pageId = false) := by
    intro other pageId
    rw [Holds, locks pageId]
    cases gone pageId with
    | false => simp [Holds]
    | true => simpa [Holds, and_comm] using mem_removeHolder
  refine ⟨fun pageId lock found => ?_, fun other pageId => ?_, fun other pageId held => ?_,
    fun other large => ?_⟩
  · rw [locks pageId] at found
    split at found
    · exact proper_removeHolder (consistent.proper pageId) found
    · exact consistent.proper pageId lock found
  · rw [holds, consistent.mirrored]
    by_cases same : other = txnId
    · subst same
      simp [own]
    · simp [same, others other same]
  · obtain ⟨held, kept⟩ := (holds other pageId).mp held
    rcases states other with unchanged | ⟨rfl, -, all⟩
    · rw [unchanged]
      exact consistent.active other pageId held
    · have lost := all pageId ((consistent.mirrored _ _).mp held)
      rw [kept rfl] at lost
      cases lost
  · have invalid := consistent.fresh other (next ▸ large)
    rcases states other with unchanged | ⟨rfl, active, -⟩
    · rw [unchanged, invalid]
    · rw [invalid] at active
      cases active

/-- An active transaction joins the lock of a page, or changes it. -/
theorem grant (consistent : s.Consistent) (lock : PageLock) (proper : Proper lock)
    (joined : ∀ other, other ∈ lock.holders ↔ other = txnId ∨ Holds s.pageLocks other pageId)
    (active : s.getTransactionState txnId = .ACTIVE)
    (locks : s'.pageLocks = Function.update s.pageLocks pageId (some lock))
    (pages : ∀ other page, page ∈ s'.lockedPages other ↔
      page ∈ s.lockedPages other ∨ other = txnId ∧ page = pageId)
    (manager : s'.manager = s.manager) : s'.Consistent := by
  have holds : ∀ other page, Holds s'.pageLocks other page ↔
      Holds s.pageLocks other page ∨ other = txnId ∧ page = pageId := by
    intro other page
    by_cases here : page = pageId
    · subst here
      rw [Holds, locks]
      simp [joined, or_comm]
    · rw [Holds, locks]
      simp [Holds, here]
  refine ⟨fun page found => ?_, fun other page => ?_, fun other page held => ?_,
    fun other large => ?_⟩
  · rw [locks]
    by_cases here : page = pageId
    · subst here
      rw [Function.update_self]
      rintro ⟨⟩
      exact proper
    · rw [Function.update_of_ne here]
      exact consistent.proper page found
  · rw [holds, pages, consistent.mirrored]
  · rw [getTransactionState, manager]
    rcases (holds other page).mp held with before | ⟨rfl, -⟩
    · exact consistent.active other page before
    · exact active
  · rw [getTransactionState, manager]
    rw [manager] at large
    exact consistent.fresh other large

theorem beginTransaction (consistent : s.Consistent) : s.beginTransaction.2.Consistent := by
  have state : ∀ other, s.beginTransaction.2.getTransactionState other =
      if other = s.manager.nextTxnId then .ACTIVE else s.getTransactionState other :=
    s.manager.getTransactionState_begin
  -- The new transaction is unknown so far, so it holds nothing.
  have idle : ∀ pageId, ¬ Holds s.pageLocks s.manager.nextTxnId pageId := by
    intro pageId held
    have active := consistent.active _ _ held
    rw [consistent.fresh _ (Nat.le_refl _)] at active
    cases active
  refine ⟨consistent.proper, fun other pageId => ?_, fun other pageId held => ?_,
    fun other large => ?_⟩
  · change Holds s.pageLocks other pageId ↔
      pageId ∈ Function.update s.lockedPages s.manager.nextTxnId [] other
    by_cases new : other = s.manager.nextTxnId
    · subst new
      simp [idle]
    · rw [Function.update_of_ne new, consistent.mirrored]
  · rw [state]
    split
    · rfl
    · exact consistent.active other pageId held
  · change s.manager.nextTxnId + 1 ≤ other at large
    rw [state, if_neg (Nat.ne_of_gt large)]
    exact consistent.fresh other (Nat.le_of_succ_le large)

theorem finish (consistent : s.Consistent) (state : TransactionState) :
    (s.finish txnId state).2.Consistent := by
  rw [LockManager.finish]
  split
  · exact consistent
  · rename_i manager done
    obtain ⟨active, next, states, -⟩ := TransactionManager.finish_some done
    refine consistent.withdraw txnId (fun pageId => pageId ∈ s.lockedPages txnId)
      (fun pageId => ?_) (fun pageId => ?_) (fun other different => ?_) next (fun other => ?_)
    · simpa [releaseAllLocks] using foldl_removeHolder (s.lockedPages txnId) s.pageLocks pageId
    · simp [releaseAllLocks]
    · exact Function.update_of_ne different [] s.lockedPages
    · by_cases same : other = txnId
      · exact .inr ⟨same, active, fun pageId member => by simpa using member⟩
      · exact .inl ((states other).trans (if_neg same))

theorem unlockPage (consistent : s.Consistent) : (s.unlockPage txnId pageId).2.Consistent := by
  rw [LockManager.unlockPage]
  split
  · exact consistent
  · split
    · exact consistent
    · rename_i lock found
      split
      · refine consistent.withdraw txnId (fun page => page = pageId)
          (fun page => ?_) (fun page => ?_) (fun other different => ?_) rfl (fun other => .inl rfl)
        · by_cases here : page = pageId
          · subst here
            simp [found]
          · simp [here]
        · simp
        · exact Function.update_of_ne different _ s.lockedPages
      · exact consistent

theorem tryLockPage (consistent : s.Consistent) (lockType : LockType) :
    (s.tryLockPage txnId pageId lockType).2.Consistent := by
  -- Only the owner's set of pages grows, by this page.
  have added : ∀ (s : LockManager V) other page,
      page ∈ (s.addLockedPage txnId pageId).lockedPages other ↔
        page ∈ s.lockedPages other ∨ other = txnId ∧ page = pageId := by
    intro s other page
    by_cases same : other = txnId
    · subst same
      simp [addLockedPage, or_comm]
    · simp [addLockedPage, same]
  rw [LockManager.tryLockPage]
  split
  · exact consistent
  · rename_i active
    rw [not_not] at active
    split
    · rename_i free
      refine consistent.grant ⟨lockType, [txnId]⟩
        ⟨List.cons_ne_nil _ _, fun _ => ⟨txnId, rfl⟩⟩ (fun other => ?_) active rfl (added _) rfl
      simp [Holds, free]
    · rename_i lock found
      have held : ∀ other, Holds s.pageLocks other pageId ↔ other ∈ lock.holders := by
        simp [Holds, found]
      split
      · exact consistent
      · split
        · rename_i sole
          obtain ⟨only, holders⟩ := List.length_eq_one_iff.mp sole.2
          have mine : txnId = only := by simpa [holders] using sole.1
          refine consistent.grant { lock with lockType := .EXCLUSIVE }
            ⟨(consistent.proper pageId lock found).1, fun _ => ⟨only, holders⟩⟩ (fun other => ?_)
            active rfl (fun other page => ?_) rfl
          · simp [held, holders, mine]
          · constructor
            · exact Or.inl
            · rintro (old | ⟨rfl, rfl⟩)
              · exact old
              · exact (consistent.mirrored _ _).mp ((held _).mpr sole.1)
        · split
          · rename_i compatible
            have shared : lock.lockType = .SHARED := by
              simp only [isLockCompatible, Bool.and_eq_true, decide_eq_true_eq] at compatible
              exact compatible.1
            refine consistent.grant { lock with holders := lock.holders.insert txnId }
              ⟨List.ne_nil_of_mem (List.mem_insert_self), fun exclusive => ?_⟩ (fun other => ?_)
              active rfl (added _) rfl
            · rw [shared] at exclusive
              cases exclusive
            · simp [held]
          · exact consistent

theorem perform (consistent : s.Consistent) : ∀ x : Section, (s.perform x).2.Consistent
  | .begin => consistent.beginTransaction
  | .commit _ => consistent.finish .COMMITTED
  | .abort _ => consistent.finish .ABORTED
  | .tryLock _ _ lockType => consistent.tryLockPage lockType
  | .unlock _ _ => consistent.unlockPage

end Consistent

/-! ## Whole interleavings -/

section Run

variable (s : LockManager V)

theorem consistent_after (sections : List Section) :
    ((initial : LockManager V).after sections).Consistent :=
  specRun_keeps (fun _ x consistent => consistent.perform x) sections initial consistent_initial

/-- What may become of a transaction in one section. -/
def Advances : TransactionState → TransactionState → Prop
  | .INVALID, later => later = .INVALID ∨ later = .ACTIVE
  | .ACTIVE, later => later ≠ .INVALID
  | ended, later => later = ended

theorem Advances.refl (state : TransactionState) : Advances state state := by
  cases state <;> simp [Advances]

theorem finish_advances {txnId other : TransactionId} {state : TransactionState}
    (valid : state ≠ .INVALID) :
    Advances (s.getTransactionState other)
      ((s.finish txnId state).2.getTransactionState other) := by
  rw [finish]
  split
  · exact .refl _
  · rename_i manager done
    obtain ⟨active, -, states, -⟩ := TransactionManager.finish_some done
    change Advances _ (manager.getTransactionState other)
    rw [states other]
    split
    · rename_i same
      rw [same, getTransactionState, active]
      exact valid
    · exact .refl _

theorem manager_tryLockPage (txnId : TransactionId) (pageId : PageId) (lockType : LockType) :
    (s.tryLockPage txnId pageId lockType).2.manager = s.manager := by
  rw [tryLockPage]
  repeat' split
  all_goals rfl

theorem manager_unlockPage (txnId : TransactionId) (pageId : PageId) :
    (s.unlockPage txnId pageId).2.manager = s.manager := by
  rw [unlockPage]
  repeat' split
  all_goals rfl

variable {s}

theorem Consistent.advances (consistent : s.Consistent) (x : Section) (txnId : TransactionId) :
    Advances (s.getTransactionState txnId) ((s.perform x).2.getTransactionState txnId) := by
  cases x with
  | begin =>
    have state := s.manager.getTransactionState_begin txnId
    change Advances _ (s.manager.beginTransaction.2.getTransactionState txnId)
    rw [state]
    split
    · rename_i new
      rw [consistent.fresh txnId (Nat.le_of_eq new.symm)]
      exact .inr rfl
    · exact .refl _
  | commit => exact s.finish_advances (by decide)
  | abort => exact s.finish_advances (by decide)
  | tryLock other pageId lockType =>
    change Advances _ ((s.tryLockPage other pageId lockType).2.manager.getTransactionState txnId)
    rw [manager_tryLockPage]
    exact .refl _
  | unlock other pageId =>
    change Advances _ ((s.unlockPage other pageId).2.manager.getTransactionState txnId)
    rw [manager_unlockPage]
    exact .refl _

theorem getTransactionState_after (consistent : s.Consistent) {txnId : TransactionId}
    (ended : s.getTransactionState txnId = .COMMITTED ∨ s.getTransactionState txnId = .ABORTED)
    (sections : List Section) :
    (s.after sections).getTransactionState txnId = s.getTransactionState txnId := by
  have kept : ∀ (later : LockManager V) (x : Section), later.Consistent ∧
      later.getTransactionState txnId = s.getTransactionState txnId →
        (later.perform x).2.Consistent ∧
          (later.perform x).2.getTransactionState txnId = s.getTransactionState txnId := by
    rintro later x ⟨consistent', same⟩
    have step := consistent'.advances x txnId
    refine ⟨consistent'.perform x, ?_⟩
    rw [same] at step
    rcases ended with committed | aborted
    · rw [committed] at step ⊢
      exact step
    · rw [aborted] at step ⊢
      exact step
  exact (specRun_keeps kept sections s ⟨consistent, rfl⟩).2

theorem nextTxnId_finish (txnId : TransactionId) (state : TransactionState) :
    (s.finish txnId state).2.manager.nextTxnId = s.manager.nextTxnId := by
  rw [finish]
  split
  · rfl
  · rename_i manager done
    exact (TransactionManager.finish_some done).2.1

/-- Identifiers are handed out in increasing order. -/
theorem begun_increases (sections : List Section) (s : LockManager V) :
    (s.begun sections).Pairwise (· < ·) ∧
      ∀ txnId ∈ s.begun sections, s.manager.nextTxnId ≤ txnId := by
  induction sections generalizing s with
  | nil => exact ⟨.nil, by rintro txnId ⟨⟩⟩
  | cons x sections ih =>
    obtain ⟨increasing, above⟩ := ih (s.perform x).2
    have unless_begun (silent : ∀ txnId, (s.perform x).1 ≠ .began txnId)
        (next : (s.perform x).2.manager.nextTxnId = s.manager.nextTxnId) :
        (s.begun (x :: sections)).Pairwise (· < ·) ∧
          ∀ txnId ∈ s.begun (x :: sections), s.manager.nextTxnId ≤ txnId := by
      have same : s.begun (x :: sections) = (s.perform x).2.begun sections := by
        rw [begun, specRun, List.filterMap_cons]
        split
        · rfl
        · rename_i txnId found
          split at found
          · rename_i began
            exact absurd began (silent _)
          · cases found
      rw [same]
      exact ⟨increasing, next ▸ above⟩
    cases x with
    | begin =>
      have same : s.begun (.begin :: sections) =
          s.manager.nextTxnId :: (s.perform .begin).2.begun sections := rfl
      have next : (s.perform .begin).2.manager.nextTxnId = s.manager.nextTxnId + 1 := rfl
      rw [next] at above
      rw [same]
      refine ⟨.cons above increasing, fun txnId member => ?_⟩
      rcases List.mem_cons.mp member with rfl | later
      · exact Nat.le_refl _
      · exact Nat.le_of_succ_le (above txnId later)
    | commit txnId =>
      refine unless_begun (fun other => ?_) (nextTxnId_finish txnId .COMMITTED)
      rintro ⟨⟩
    | abort txnId =>
      refine unless_begun (fun other => ?_) (nextTxnId_finish txnId .ABORTED)
      rintro ⟨⟩
    | tryLock txnId pageId lockType =>
      refine unless_begun (fun other => ?_)
        (congrArg _ (s.manager_tryLockPage txnId pageId lockType))
      change Answer.ofAttempt (s.tryLockPage txnId pageId lockType).1 ≠ _
      cases (s.tryLockPage txnId pageId lockType).1 <;> rintro ⟨⟩
    | unlock txnId pageId =>
      refine unless_begun (fun other => ?_) (congrArg _ (s.manager_unlockPage txnId pageId))
      rintro ⟨⟩

/-- At every point of every interleaving: an exclusive lock has one holder and no lock has none;
the holders are the transactions that remember the page, all of them active. The next section
changes the state of a transaction only as `Advances` says, so one that has ended stays as it
is, and no identifier is given to two transactions. -/
theorem interleaving_consistent (sections : List Section) :
    let s : LockManager V := initial.after sections
    (∀ pageId lock, s.pageLocks pageId = some lock → lock.holders ≠ [] ∧
      (lock.lockType = .EXCLUSIVE → ∃ txnId, lock.holders = [txnId])) ∧
    (∀ txnId pageId, Holds s.pageLocks txnId pageId ↔ pageId ∈ s.lockedPages txnId) ∧
    (∀ txnId pageId, Holds s.pageLocks txnId pageId → s.getTransactionState txnId = .ACTIVE) ∧
    (∀ txnId x, Advances (s.getTransactionState txnId)
      ((s.perform x).2.getTransactionState txnId)) ∧
    (∀ txnId, s.getTransactionState txnId = .COMMITTED ∨ s.getTransactionState txnId = .ABORTED →
      ∀ later, (s.after later).getTransactionState txnId = s.getTransactionState txnId) ∧
    ((initial : LockManager V).begun sections).Nodup := by
  have consistent := consistent_after (V := V) sections
  refine ⟨consistent.proper, consistent.mirrored, consistent.active,
    fun txnId x => consistent.advances x txnId,
    fun txnId ended later => getTransactionState_after consistent ended later, ?_⟩
  exact (begun_increases sections initial).1.imp Nat.ne_of_lt

end Run

end LockManager

end QinDB.Storage
