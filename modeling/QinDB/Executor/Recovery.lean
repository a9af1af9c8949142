/-
# Executor.Recovery — a database after a crash

Loading a database replays the log: the records of committed transactions are decoded,
their table is looked up and their page is fetched and put back unchanged (`wal.cpp`).
What the pages show afterwards is what they showed before.

* `recover_eq`: replay changes nothing.
* `recover_shows_committed_iff`: the pages show exactly the row operations of the committed
  transactions if and only if they did so before the recovery.
-/
import QinDB.Executor.Blobs
import QinDB.Executor.Logged
import QinDB.Storage.WalFile

namespace QinDB.Executor

open QinDB.Core QinDB.Storage

set_option autoImplicit false

/-! ## Replay -/

section Replay

variable {V : Type} (codec : TextCodec Identifier)

/-- Look up the table, fetch the page and unpin it as it is. -/
def replayPlace (place : Replayed Identifier) (db : Database V) : Bool × Database V :=
  match db.getTable place.tableName with
  | none => (false, db)
  | some _ =>
      match db.disk place.pageId.toNat with
      | none => (false, db)
      | some _ => (true, db)

def replayInsert (data : Bytes) (db : Database V) : Bool × Database V :=
  replayPlace (decodeInsert codec data).2 db

def replayUpdate (data : Bytes) (db : Database V) : Bool × Database V :=
  replayPlace (decodeUpdate codec data) db

def replayDelete (data : Bytes) (db : Database V) : Bool × Database V :=
  replayPlace (decodeDelete codec data) db

/-- Records of other types are skipped. -/
def replayRecord (record : WALRecord) (db : Database V) : Bool × Database V :=
  if record.header.type = WALRecordType.INSERT.toByte then replayInsert codec record.data db
  else if record.header.type = WALRecordType.UPDATE.toByte then replayUpdate codec record.data db
  else if record.header.type = WALRecordType.DELETE.toByte then replayDelete codec record.data db
  else (false, db)

def committedTxns (records : List WALRecord) : List UInt64 :=
  (records.filter fun record => record.header.type = WALRecordType.COMMIT_TXN.toByte).map
    (·.header.txnId)

/-- The second pass of recovery, with the number of operations it counts as replayed. -/
def replayRecords (committed : List UInt64) : List WALRecord → Database V → Nat × Database V
  | [], db => (0, db)
  | record :: rest, db =>
      if record.header.txnId ∈ committed then
        let replayed := replayRecord codec record db
        let later := replayRecords committed rest replayed.2
        (if replayed.1 then later.1 + 1 else later.1, later.2)
      else replayRecords committed rest db

/-- Recovery from the log file. -/
def recover (file : Bytes) (db : Database V) : Nat × Database V :=
  let records := (WALManager.initializeFile file).scannedRecords
  replayRecords codec (committedTxns records) records db

theorem replayRecord_eq (record : WALRecord) (db : Database V) :
    (replayRecord codec record db).2 = db := by
  have same : ∀ place : Replayed Identifier, (replayPlace place db).2 = db := by
    intro place
    rw [replayPlace]
    cases db.getTable place.tableName with
    | none => rfl
    | some _ => cases db.disk place.pageId.toNat <;> rfl
  rw [replayRecord]
  split_ifs
  · exact same _
  · exact same _
  · exact same _
  · rfl

theorem replayRecords_eq (committed : List UInt64) (db : Database V) :
    ∀ records : List WALRecord, (replayRecords codec committed records db).2 = db
  | [] => rfl
  | record :: rest => by
      rw [replayRecords]
      split
      · change (replayRecords codec committed rest (replayRecord codec record db).2).2 = db
        rw [replayRecord_eq]
        exact replayRecords_eq committed db rest
      · exact replayRecords_eq committed db rest

/-- Recovery does not change the database. -/
theorem recover_eq (file : Bytes) (db : Database V) : (recover codec file db).2 = db :=
  replayRecords_eq codec _ db _

end Replay

/-! ## What the pages show -/

/-- The row in a slot: the field bytes of a record without delete mark. -/
def rowImage : Slot → Option Bytes
  | none => none
  | some record => if record.header.deleteTxnId = INVALID_TXN_ID then some record.data else none

abbrev Images := PageId → Nat → Option Bytes

def images (disk : Disk) : Images := fun pageId slotIndex =>
  (disk pageId).elim none fun page => rowImage (page.slot slotIndex)

/-- The rows after one more event, slot by slot. -/
def imagesStep (rows : Images) : Event → Images
  | .log _ _ _ => rows
  | .write _ pageId slotIndex page =>
      Function.update rows pageId (Function.update (rows pageId) slotIndex
        (rowImage (page.slot slotIndex)))
  | .format pageId => Function.update rows pageId fun _ => none

def imagesAfter (rows : Images) (events : List Event) : Images := events.foldl imagesStep rows

theorem images_applyEvent {disk : Disk} {event : Event} (fits : event.Fits disk) :
    images (applyEvent disk event) = imagesStep (images disk) event := by
  funext pageId slotIndex
  cases event with
  | log type txnId data => rfl
  | format other =>
    by_cases same : pageId = other
    · subst same
      simp only [images, applyEvent, imagesStep, Function.update_self]
      rfl
    · simp only [images, applyEvent, imagesStep, Function.update_of_ne same]
  | write txnId other index page =>
    obtain ⟨before, found, apart⟩ := fits
    by_cases same : pageId = other
    · subst same
      by_cases here : slotIndex = index
      · subst here
        simp only [images, applyEvent, imagesStep, Function.update_self, Option.elim]
      · simp only [images, applyEvent, imagesStep, Function.update_self, Option.elim, found,
          Function.update_of_ne here, apart slotIndex here]
    · simp only [images, applyEvent, imagesStep, Function.update_of_ne same]

theorem Trace.images {disk disk' : Disk} {events : List Event} (trace : Trace disk events disk') :
    images disk' = imagesAfter (images disk) events := by
  induction trace with
  | nil => rfl
  | cons fits _ ih =>
    rw [ih, images_applyEvent fits]
    rfl

/-! ## Crashes -/

/-- The log records among some events. -/
def logRecords (events : List Event) : List WALRecord :=
  events.filterMap fun event =>
    match event with
    | .log type txnId data => some (.new type (.ofNat txnId) data)
    | _ => none

/-- The log file that these events leave. -/
def walFile (events : List Event) : Bytes :=
  ((WALManager.empty 0).writeRecords (logRecords events)).2.file

/-- The database as it is loaded after a crash: pages that the first `reached` events have
reached, some catalog, and a new transaction manager. -/
def crashed {V : Type} (db : Database V) (catalog : List TableDef) (events : List Event)
    (reached : Nat) : Database V :=
  { db with
    disk := applyEvents db.disk (events.take reached)
    tables := catalog
    txns := .initial }

/-- The log holds the COMMIT record of this transaction. -/
def commitLogged (events : List Event) (txnId : TransactionId) : Bool :=
  events.any fun event => event = .log .COMMIT_TXN txnId []

/-- The events without the row operations of transactions that did not commit. -/
def committedEvents (events : List Event) : List Event :=
  events.filter fun event =>
    match event with
    | .write txnId _ _ _ => commitLogged events txnId
    | _ => true

/-- The pages show the row operations of the committed transactions and no others: each slot
has the row that they leave there. -/
def ShowsCommitted (before : Disk) (events : List Event) (pages : Disk) : Prop :=
  images pages = imagesAfter (images before) (committedEvents events)

section Crash

variable {V E : Type} (qt : Variant V) (ev : Evaluator V E) (view : Presentation V E)
  (codec : TextCodec Identifier)

/-- For every run, every number of its events that the pages have reached and every catalog:
after recovery the pages show the committed operations if and only if, slot by slot, the
operations they had reached leave the row that the committed ones leave. -/
theorem recover_shows_committed_iff (walCommits : Bool) (stmts : List (RowStatement E))
    (state : TransactionId × Database V) (reached : Nat) (catalog : List TableDef)
    (events : List Event) (run : events = runEvents qt ev codec view walCommits stmts state) :
    ShowsCommitted state.2.disk events
        (recover codec (walFile events) (crashed state.2 catalog events reached)).2.disk ↔
      imagesAfter (images state.2.disk) (events.take reached) =
        imagesAfter (images state.2.disk) (committedEvents events) := by
  have trace : Trace state.2.disk events
      (runSession qt ev view walCommits (stmts.map RowStatement.toStatement) state).2.disk :=
    run ▸ runSession_trace view walCommits stmts state
  rw [ShowsCommitted, recover_eq, ← (trace.take reached).images]
  rfl

end Crash

/-- An INSERT of one row that commits by itself, on a new table. -/
def oneInsert : List Event :=
  runEvents Blobs.qt Blobs.ev Blobs.names Blobs.view true
    [.insert { tableName := ['t'], values := [[.literal (.bytes [7])]] }]
    (Blobs.session [Blobs.createTable "t"])

/-- When its page was written before the crash, the row is there after recovery. -/
theorem recover_keeps_insert :
    ShowsCommitted (Blobs.session [Blobs.createTable "t"]).2.disk oneInsert
      (recover Blobs.names (walFile oneInsert)
        (crashed (Blobs.session [Blobs.createTable "t"]).2 [Blobs.sample] oneInsert 4)).2.disk :=
  (recover_shows_committed_iff Blobs.qt Blobs.ev Blobs.view Blobs.names true
    [.insert { tableName := ['t'], values := [[.literal (.bytes [7])]] }]
    (Blobs.session [Blobs.createTable "t"]) 4 [Blobs.sample] oneInsert rfl).mpr
    (congrArg _ (by decide +kernel))

/-- When the crash came before, the log has its COMMIT record and the row is gone. -/
theorem recover_loses_insert :
    commitLogged oneInsert 1 = true ∧
      ¬ ShowsCommitted (Blobs.session [Blobs.createTable "t"]).2.disk oneInsert
        (recover Blobs.names (walFile oneInsert)
          (crashed (Blobs.session [Blobs.createTable "t"]).2 [Blobs.sample] oneInsert 0)).2.disk := by
  refine ⟨by decide +kernel, fun shows => ?_⟩
  rw [ShowsCommitted, recover_eq] at shows
  exact absurd (congrFun (congrFun shows 1) 0) (by decide +kernel)

end QinDB.Executor
