/-
# Executor.Logged — page writes and log records of a run

What a statement puts on the log and writes to pages, in order, next to what it does to
the database. INSERT logs every row. UPDATE and DELETE log only inside a session
transaction, and a row that UPDATE moves to another slot is never logged. ROLLBACK writes
pages without logging it.

* `Trace`: events that lead from one disk to another, each write changing one slot.
* `runSession_trace`: the events of a run lead from the disk before to the disk after.
-/
import QinDB.Executor.Statements
import QinDB.Storage.Wal
import QinDB.Storage.WalPayload

namespace QinDB.Executor

open QinDB.Core QinDB.Storage

set_option autoImplicit false

abbrev Disk := PageId → Option TablePage

inductive Event where
  | log (type : WALRecordType) (txnId : TransactionId) (data : Bytes)
  /-- A row operation of a transaction on one slot, with the page after it. -/
  | write (txnId : TransactionId) (pageId : PageId) (slotIndex : Nat) (page : TablePage)
  /-- A new empty page. -/
  | format (pageId : PageId)
  deriving DecidableEq

/-! ## Traces -/

def applyEvent (disk : Disk) : Event → Disk
  | .log _ _ _ => disk
  | .write _ pageId _ page => Function.update disk pageId (some page)
  | .format pageId => Function.update disk pageId (some .init)

def applyEvents (disk : Disk) (events : List Event) : Disk := events.foldl applyEvent disk

/-- The event can happen on this disk: a row operation changes one slot of a page. -/
def Event.Fits (disk : Disk) : Event → Prop
  | .write _ pageId slotIndex page => ∃ before, disk pageId = some before ∧
      ∀ index, index ≠ slotIndex → page.slot index = before.slot index
  | _ => True

/-- Events that lead from one disk to another. -/
inductive Trace : Disk → List Event → Disk → Prop
  | nil (disk : Disk) : Trace disk [] disk
  | cons {disk disk' : Disk} {event : Event} {events : List Event} (fits : event.Fits disk)
      (rest : Trace (applyEvent disk event) events disk') : Trace disk (event :: events) disk'

namespace Trace

theorem append {disk disk' disk'' : Disk} {events events' : List Event}
    (first : Trace disk events disk') (second : Trace disk' events' disk'') :
    Trace disk (events ++ events') disk'' := by
  induction first with
  | nil => exact second
  | cons fits _ ih => exact .cons fits (ih second)

theorem single {disk : Disk} {event : Event} (fits : event.Fits disk) :
    Trace disk [event] (applyEvent disk event) := .cons fits (.nil _)

theorem log (disk : Disk) (type : WALRecordType) (txnId : TransactionId) (data : Bytes) :
    Trace disk [.log type txnId data] disk := single trivial

theorem take {disk disk' : Disk} {events : List Event} (trace : Trace disk events disk')
    (count : Nat) : Trace disk (events.take count) (applyEvents disk (events.take count)) := by
  induction trace generalizing count with
  | nil disk =>
    rw [List.take_nil]
    exact .nil disk
  | cons fits _ ih =>
    cases count with
    | zero => exact .nil _
    | succ count => exact .cons fits (ih count)

end Trace

/-! ## What the statements log and write -/

section Events

variable {V E : Type} (qt : Variant V) (ev : Evaluator V E) (codec : TextCodec Identifier)

def beginEvents (txnId : TransactionId) : List Event := [.log .BEGIN_TXN txnId []]

def commitEvents (walCommits : Bool) (txnId : TransactionId) (db : Database V) : List Event :=
  if (db.txns.finish txnId .COMMITTED).isSome && walCommits then [.log .COMMIT_TXN txnId []] else []

def abortEvents (txnId : TransactionId) (db : Database V) : List Event :=
  if (db.txns.finish txnId .ABORTED).isSome then [.log .ABORT_TXN txnId []] else []

def transactionEvents (session : TransactionId) (db : Database V) : List Event :=
  if session = INVALID_TXN_ID then beginEvents db.txns.beginTransaction.1 else []

def finishEvents (walCommits : Bool) (session txnId : TransactionId) (db : Database V) :
    List Event :=
  if session = INVALID_TXN_ID then commitEvents walCommits txnId db else []

/-- A row that an INSERT put at the end of a page. -/
def placedEvents (tableName : Identifier) (txnId : TransactionId) (rowId : RowId)
    (pageId : PageId) (page : TablePage) : List Event :=
  [.write txnId pageId (page.slots.length - 1) page,
    .log .INSERT txnId (insertPayload codec tableName (.ofNat rowId) (.ofNat pageId)
      (.ofNat (page.slots.length - 1)))]

def storeEvents (table : TableDef) (tableName : Identifier) (txnId : TransactionId)
    (nextRowId : RowId) (values : List V) (db : Database V) : List Event :=
  match placeRecord qt table.columns values txnId (calculateRecordSize qt table.columns values) 1
      db.disk nextRowId (db.chain table) with
  | (.placed pageId page, next) => placedEvents codec tableName txnId (next - 1) pageId page
  | (.unreadable _, _) => abortEvents txnId db
  | (.full, next) =>
      match db.freePages with
      | [] => abortEvents txnId db
      | pageId :: _ =>
          .format pageId ::
            match insertRecord qt table.columns .init next values txnId with
            | some page => placedEvents codec tableName txnId next pageId page
            | none => abortEvents txnId db

def insertEvents (table : TableDef) (tableName : Identifier) (session txnId : TransactionId) :
    RowId → Database V → List (List E) → List Event
  | _, _, [] => []
  | nextRowId, db, exprs :: rest =>
      match prepareRow qt ev table nextRowId exprs with
      | .error _ => []
      | .ok values =>
          storeEvents qt codec table tableName txnId nextRowId values db ++
            match storeRow qt table tableName session txnId nextRowId values db with
            | (some _, _, _) => []
            | (none, next, db) => insertEvents table tableName session txnId next db rest

/-- The log record of a row that a session changed in place. -/
def candidateEvents (type : WALRecordType) (tableName : Identifier)
    (session txnId : TransactionId) (found : Located V) (page : TablePage) : List Event :=
  .write txnId found.pageId found.position page ::
    if session = INVALID_TXN_ID then []
    else [.log type txnId (candidatePayload codec tableName (.ofNat found.pageId)
      (.ofNat found.position))]

def updateEvents (table : TableDef) (tableName : Identifier) (session txnId : TransactionId)
    (candidate : Located V × List V) (db : Database V) : List Event :=
  let found := candidate.1
  let newRow := candidate.2
  match db.disk found.pageId with
  | none => []
  | some page =>
      match updateRecord qt table.columns page found.position newRow with
      | some page' => candidateEvents codec .UPDATE tableName session txnId found page'
      | none =>
          match deleteRecord page found.position txnId with
          | none => []
          | some page' =>
              let db := { db.writePage found.pageId page' with updateRowId := db.updateRowId + 1 }
              .write txnId found.pageId found.position page' ::
                match (placeRecord qt table.columns newRow txnId
                    (calculateRecordSize qt table.columns newRow) 0 db.disk (db.updateRowId - 1)
                    (db.chain table)).1 with
                | .placed pageId page'' => [.write txnId pageId (page''.slots.length - 1) page'']
                | _ => []

def deleteEvents (tableName : Identifier) (session txnId : TransactionId) (found : Located V)
    (db : Database V) : List Event :=
  match db.disk found.pageId with
  | none => []
  | some page =>
      match deleteRecord page found.position txnId with
      | none => []
      | some page' => candidateEvents codec .DELETE tableName session txnId found page'

def undoEvents (session : TransactionId) (undo : UndoRecord V) (db : Database V) : List Event :=
  match db.getTable undo.tableName with
  | none => []
  | some table =>
      match db.disk undo.pageId with
      | none => []
      | some page =>
          match undoOnPage qt table.columns session undo page with
          | none => []
          | some page' => [.write session undo.pageId undo.slotIndex page']

/-- The events of a loop over rows. -/
def changeEvents {α : Type} (events : α → Database V → List Event)
    (change : α → Database V → Bool × Database V) : List α → Database V → List Event
  | [], _ => []
  | candidate :: rest, db =>
      events candidate db ++ changeEvents events change rest (change candidate db).2

/-- The statements that change rows, and those around them that begin and end transactions. -/
inductive RowStatement (E : Type) where
  | insert (stmt : InsertStatement E)
  | update (stmt : UpdateStatement E)
  | delete (stmt : DeleteStatement E)
  | begin
  | commit
  | rollback

def RowStatement.toStatement : RowStatement E → Statement E
  | .insert stmt => .insert stmt
  | .update stmt => .update stmt
  | .delete stmt => .delete stmt
  | .begin => .begin
  | .commit => .commit
  | .rollback => .rollback

def executeEvents (walCommits : Bool) (session : TransactionId) (db : Database V) :
    RowStatement E → List Event
  | .insert stmt =>
      match db.getTable stmt.tableName with
      | none => []
      | some table =>
          let begun := statementTransaction session db
          transactionEvents session db ++
            insertEvents qt ev codec table stmt.tableName session begun.1 table.nextRowId begun.2
              stmt.values ++
            match insertRows qt ev table stmt.tableName session begun.1 table.nextRowId begun.2
                stmt.values with
            | (some _, _, _) => []
            | (none, next, db) => finishEvents walCommits session begun.1
                (db.updateTable stmt.tableName { table with nextRowId := next })
  | .update stmt =>
      match db.getTable stmt.tableName with
      | none => []
      | some table =>
          let begun := statementTransaction session db
          transactionEvents session db ++
            match updateCandidates qt ev table stmt (visibleRows qt begun.2 table session) with
            | .error _ => []
            | .ok candidates =>
                let change := updateRow qt table stmt.tableName session begun.1
                changeEvents (updateEvents qt codec table stmt.tableName session begun.1) change
                  candidates begun.2 ++
                  finishEvents walCommits session begun.1 (changeRows change candidates begun.2).2
  | .delete stmt =>
      match db.getTable stmt.tableName with
      | none => []
      | some table =>
          let begun := statementTransaction session db
          transactionEvents session db ++
            match deleteCandidates qt ev table stmt.whereClause
                (visibleRows qt begun.2 table session) with
            | .error _ => []
            | .ok candidates =>
                let change := deleteRow (V := V) stmt.tableName session begun.1
                changeEvents (deleteEvents codec stmt.tableName session begun.1) change candidates
                  begun.2 ++
                  finishEvents walCommits session begun.1 (changeRows change candidates begun.2).2
  | .begin =>
      if session ≠ INVALID_TXN_ID ∧ db.txns.getTransactionState session = .ACTIVE then []
      else beginEvents db.txns.beginTransaction.1
  | .commit =>
      if session = INVALID_TXN_ID then []
      else if db.txns.getTransactionState session ≠ .ACTIVE then []
      else commitEvents walCommits session db
  | .rollback =>
      if session = INVALID_TXN_ID then []
      else if db.txns.getTransactionState session ≠ .ACTIVE then []
      else
        changeEvents (undoEvents qt session) (undoRecord qt session)
            (db.txns.undoLog session).reverse db ++
          abortEvents session
            (changeRows (undoRecord qt session) (db.txns.undoLog session).reverse db).2

variable (view : Presentation V E)

/-- The events of statements that one session runs. -/
def runEvents (walCommits : Bool) : List (RowStatement E) → TransactionId × Database V → List Event
  | [], _ => []
  | stmt :: rest, state =>
      executeEvents qt ev codec walCommits state.1 state.2 stmt ++
        runEvents walCommits rest
          (execute qt ev view walCommits state.1 state.2 stmt.toStatement).2

end Events

/-! ## The events of a run are its page writes -/

section Traced

variable {V E : Type} {qt : Variant V} {ev : Evaluator V E} {codec : TextCodec Identifier}
  {table : TableDef} {tableName : Identifier} {session txnId : TransactionId} {db : Database V}

theorem commitEvents_trace (walCommits : Bool) (disk : Disk) :
    Trace disk (commitEvents walCommits txnId db) disk := by
  unfold commitEvents
  split
  · exact .log disk _ _ _
  · exact .nil disk

theorem abortEvents_trace (disk : Disk) : Trace disk (abortEvents txnId db) disk := by
  unfold abortEvents
  split
  · exact .log disk _ _ _
  · exact .nil disk

theorem transactionEvents_trace :
    Trace db.disk (transactionEvents session db) (statementTransaction session db).2.disk := by
  unfold transactionEvents statementTransaction
  split
  · exact .log _ _ _ _
  · exact .nil _

theorem finishEvents_trace (walCommits : Bool) (outcome : Outcome V) :
    Trace db.disk (finishEvents walCommits session txnId db)
      (finishStatement walCommits session txnId outcome db).2.disk := by
  unfold finishEvents finishStatement
  split
  · rcases db.txns.commitTransaction walCommits txnId with ⟨_ | _, txns⟩
    · exact commitEvents_trace walCommits db.disk
    · exact commitEvents_trace walCommits db.disk
  · exact .nil _

/-- Appending a record changes no other slot. -/
theorem insertRecord_fits {disk : Disk} {columns : List ColumnDef} {page page' : TablePage}
    {rowId : RowId} {values : List V} {pageId : PageId} (found : disk pageId = some page)
    (done : insertRecord qt columns page rowId values txnId = some page') :
    (Event.write txnId pageId (page'.slots.length - 1) page').Fits disk := by
  obtain ⟨header, data, -, slots, -⟩ := insertRecord_some done
  refine ⟨page, found, fun index other => ?_⟩
  rw [slots, List.length_append, List.length_singleton, Nat.add_sub_cancel] at other
  rw [TablePage.slot, TablePage.slot, slots]
  rcases Nat.lt_or_gt_of_ne other with inside | beyond
  · rw [List.getElem?_append_left inside]
  · rw [List.getElem?_eq_none (Nat.le_of_lt beyond), List.getElem?_eq_none (by
      rw [List.length_append, List.length_singleton]
      exact beyond)]

theorem setSlot_fits {disk : Disk} {page : TablePage} {pageId : PageId} {index : Nat}
    {content : Slot} (found : disk pageId = some page) :
    (Event.write txnId pageId index (page.setSlot index content)).Fits disk := by
  refine ⟨page, found, fun other apart => ?_⟩
  rw [TablePage.slot_setSlot, if_neg (fun both => apart both.1)]

theorem placedEvents_trace {page page' : TablePage} {rowId rowId' : RowId} {values : List V}
    {columns : List ColumnDef} {pageId : PageId} (found : db.disk pageId = some page)
    (done : insertRecord qt columns page rowId values txnId = some page') :
    Trace db.disk (placedEvents codec tableName txnId rowId' pageId page')
      (storePlaced tableName session txnId pageId page' db).disk := by
  rw [storePlaced, disk_logUndo]
  exact .cons (insertRecord_fits found done) (.log _ _ _ _)

theorem storeEvents_trace (table : TableDef) (session : TransactionId) (nextRowId : RowId)
    (values : List V) (db : Database V) :
    Trace db.disk (storeEvents qt codec table tableName txnId nextRowId values db)
      (storeRow qt table tableName session txnId nextRowId values db).2.2.disk := by
  rw [storeEvents, storeRow]
  rcases placing : placeRecord qt table.columns values txnId
      (calculateRecordSize qt table.columns values) 1 db.disk nextRowId (db.chain table) with
    ⟨placement, next⟩
  cases placement with
  | placed pageId page =>
    obtain ⟨-, old, rowId, found, -, inserted⟩ := placeRecord_placed placing
    exact placedEvents_trace found inserted
  | unreadable pageId => exact abortEvents_trace _
  | full =>
    cases db.freePages with
    | nil => exact abortEvents_trace _
    | cons pageId free =>
      refine .cons trivial ?_
      simp only
      cases inserted : insertRecord qt table.columns .init next values txnId with
      | some page =>
        have extended : (appendPage table pageId free db).disk pageId = some .init :=
          Function.update_self ..
        exact placedEvents_trace extended inserted
      | none => exact abortEvents_trace _

theorem insertEvents_trace : ∀ (rows : List (List E)) (nextRowId : RowId) (db : Database V),
    Trace db.disk (insertEvents qt ev codec table tableName session txnId nextRowId db rows)
      (insertRows qt ev table tableName session txnId nextRowId db rows).2.2.disk
  | [], _, db => .nil db.disk
  | exprs :: rest, nextRowId, db => by
      rw [insertEvents, insertRows]
      cases prepareRow qt ev table nextRowId exprs with
      | error error => exact .nil db.disk
      | ok values =>
        have first : Trace db.disk (storeEvents qt codec table tableName txnId nextRowId values db)
            (storeRow qt table tableName session txnId nextRowId values db).2.2.disk :=
          storeEvents_trace table session nextRowId values db
        rcases stored : storeRow qt table tableName session txnId nextRowId values db with
          ⟨failure, next, db'⟩
        rw [stored] at first
        cases failure with
        | none =>
          simp only [stored]
          exact first.append (insertEvents_trace rest next db')
        | some error =>
          simp only [stored, List.append_nil]
          exact first

theorem candidateEvents_trace {type : WALRecordType} {found : Located V} {page : TablePage}
    {content : Slot} (undo : UndoRecord V) (onDisk : db.disk found.pageId = some page) :
    Trace db.disk (candidateEvents codec type tableName session txnId found
        (page.setSlot found.position content))
      (logUndo session txnId undo
        (db.writePage found.pageId (page.setSlot found.position content))).disk := by
  rw [disk_logUndo, candidateEvents]
  refine .cons (setSlot_fits onDisk) ?_
  split
  · exact .nil _
  · exact .log _ _ _ _

theorem deleteEvents_trace (found : Located V) (db : Database V) :
    Trace db.disk (deleteEvents codec tableName session txnId found db)
      (deleteRow tableName session txnId found db).2.disk := by
  rw [deleteEvents, deleteRow]
  cases onDisk : db.disk found.pageId with
  | none => exact .nil _
  | some page =>
    simp only
    cases done : deleteRecord page found.position txnId with
    | none => exact .nil _
    | some page' =>
      obtain ⟨record, -, -, rfl⟩ := deleteRecord_some done
      exact candidateEvents_trace _ onDisk

/-- The second half of an UPDATE that moves a row. -/
theorem movedEvents_trace {columns : List ColumnDef} {values : List V} (size : Nat)
    (rowId : RowId) (chain : List PageId) (db : Database V) :
    Trace db.disk
      (match (placeRecord qt columns values txnId size 0 db.disk rowId chain).1 with
        | .placed pageId page => [.write txnId pageId (page.slots.length - 1) page]
        | _ => [])
      (match (placeRecord qt columns values txnId size 0 db.disk rowId chain).1 with
        | .placed pageId page => (true, db.writePage pageId page)
        | _ => (false, db)).2.disk := by
  rcases placing : placeRecord qt columns values txnId size 0 db.disk rowId chain with
    ⟨placement, next⟩
  cases placement with
  | placed pageId page =>
    obtain ⟨-, old, rowId', found, -, inserted⟩ := placeRecord_placed placing
    exact .single (insertRecord_fits found inserted)
  | unreadable pageId => exact .nil _
  | full => exact .nil _

theorem updateEvents_trace (candidate : Located V × List V) (db : Database V) :
    Trace db.disk (updateEvents qt codec table tableName session txnId candidate db)
      (updateRow qt table tableName session txnId candidate db).2.disk := by
  rw [updateEvents, updateRow]
  cases onDisk : db.disk candidate.1.pageId with
  | none => exact .nil _
  | some page =>
    simp only
    cases inPlace : updateRecord qt table.columns page candidate.1.position candidate.2 with
    | some page' =>
      obtain ⟨record, header, data, -, -, -, -, rfl⟩ := updateRecord_some inPlace
      exact candidateEvents_trace _ onDisk
    | none =>
      cases done : deleteRecord page candidate.1.position txnId with
      | none => exact .nil _
      | some page' =>
        obtain ⟨record, -, -, shape⟩ := deleteRecord_some done
        refine .cons (shape ▸ setSlot_fits onDisk) ?_
        exact movedEvents_trace _ _ _
          { db.writePage candidate.1.pageId page' with updateRowId := db.updateRowId + 1 }

theorem undoEvents_trace (undo : UndoRecord V) (db : Database V) :
    Trace db.disk (undoEvents qt session undo db) (undoRecord qt session undo db).2.disk := by
  rw [undoEvents, undoRecord]
  cases db.getTable undo.tableName with
  | none => exact .nil _
  | some table =>
    cases onDisk : db.disk undo.pageId with
    | none => exact .nil _
    | some page =>
      simp only
      cases done : undoOnPage qt table.columns session undo page with
      | none => exact .nil _
      | some page' =>
        obtain ⟨record, content, -, rfl, -⟩ := undoOnPage_some done
        exact .single (setSlot_fits onDisk)

theorem changeEvents_trace {α : Type} {events : α → Database V → List Event}
    {change : α → Database V → Bool × Database V}
    (one : ∀ candidate db, Trace db.disk (events candidate db) (change candidate db).2.disk) :
    ∀ (candidates : List α) (db : Database V),
      Trace db.disk (changeEvents events change candidates db)
        (changeRows change candidates db).2.disk
  | [], db => .nil db.disk
  | candidate :: rest, db =>
      (one candidate db).append (changeEvents_trace one rest (change candidate db).2)

theorem executeInsert_trace (walCommits : Bool) (stmt : InsertStatement E) :
    Trace db.disk (executeEvents qt ev codec walCommits session db (.insert stmt))
      (executeInsert qt ev walCommits session stmt db).2.disk := by
  rw [executeEvents, executeInsert]
  cases db.getTable stmt.tableName with
  | none => exact .nil _
  | some table =>
    have rows : Trace (statementTransaction session db).2.disk
        (insertEvents qt ev codec table stmt.tableName session (statementTransaction session db).1
          table.nextRowId (statementTransaction session db).2 stmt.values)
        (insertRows qt ev table stmt.tableName session (statementTransaction session db).1
          table.nextRowId (statementTransaction session db).2 stmt.values).2.2.disk :=
      insertEvents_trace stmt.values _ _
    simp only
    rcases inserted : insertRows qt ev table stmt.tableName session
        (statementTransaction session db).1 table.nextRowId (statementTransaction session db).2
        stmt.values with ⟨failure, next, db'⟩
    rw [inserted] at rows
    cases failure with
    | some error => exact (transactionEvents_trace.append rows).append (.nil _)
    | none =>
      refine (transactionEvents_trace.append rows).append ?_
      change Trace (db'.updateTable stmt.tableName { table with nextRowId := next }).disk _ _
      exact finishEvents_trace walCommits _

theorem executeUpdate_trace (walCommits : Bool) (stmt : UpdateStatement E) :
    Trace db.disk (executeEvents qt ev codec walCommits session db (.update stmt))
      (executeUpdate qt ev walCommits session stmt db).2.disk := by
  rw [executeEvents, executeUpdate]
  cases db.getTable stmt.tableName with
  | none => exact .nil _
  | some table =>
    simp only
    cases updateCandidates qt ev table stmt
        (visibleRows qt (statementTransaction session db).2 table session) with
    | error error => exact transactionEvents_trace.append (.nil _)
    | ok candidates =>
      refine transactionEvents_trace.append ?_
      exact (changeEvents_trace updateEvents_trace candidates _).append
        (finishEvents_trace walCommits _)

theorem executeDelete_trace (walCommits : Bool) (stmt : DeleteStatement E) :
    Trace db.disk (executeEvents qt ev codec walCommits session db (.delete stmt))
      (executeDelete qt ev walCommits session stmt db).2.disk := by
  rw [executeEvents, executeDelete]
  cases db.getTable stmt.tableName with
  | none => exact .nil _
  | some table =>
    simp only
    cases deleteCandidates qt ev table stmt.whereClause
        (visibleRows qt (statementTransaction session db).2 table session) with
    | error error => exact transactionEvents_trace.append (.nil _)
    | ok candidates =>
      refine transactionEvents_trace.append ?_
      exact (changeEvents_trace deleteEvents_trace candidates _).append
        (finishEvents_trace walCommits _)

theorem executeEvents_trace (view : Presentation V E) (walCommits : Bool)
    (session : TransactionId) (db : Database V) (stmt : RowStatement E) :
    Trace db.disk (executeEvents qt ev codec walCommits session db stmt)
      (execute qt ev view walCommits session db stmt.toStatement).2.2.disk := by
  cases stmt with
  | insert stmt => exact executeInsert_trace walCommits stmt
  | update stmt => exact executeUpdate_trace walCommits stmt
  | delete stmt => exact executeDelete_trace walCommits stmt
  | begin =>
    simp only [executeEvents, RowStatement.toStatement, execute, executeBegin]
    split
    · exact .nil _
    · exact .log _ _ _ _
  | commit =>
    simp only [executeEvents, RowStatement.toStatement, execute, executeCommit]
    split
    · exact .nil _
    · split
      · exact .nil _
      · rcases db.txns.commitTransaction walCommits session with ⟨_ | _, txns⟩
        · exact commitEvents_trace walCommits db.disk
        · exact commitEvents_trace walCommits db.disk
  | rollback =>
    simp only [executeEvents, RowStatement.toStatement, execute, executeRollback]
    split
    · exact .nil _
    · split
      · exact .nil _
      · exact (changeEvents_trace undoEvents_trace _ db).append (abortEvents_trace _)

/-- The events of a run lead from the disk before it to the disk after it. -/
theorem runSession_trace (view : Presentation V E) (walCommits : Bool) :
    ∀ (stmts : List (RowStatement E)) (state : TransactionId × Database V),
      Trace state.2.disk (runEvents qt ev codec view walCommits stmts state)
        (runSession qt ev view walCommits (stmts.map RowStatement.toStatement) state).2.disk
  | [], state => .nil state.2.disk
  | stmt :: rest, state =>
      (executeEvents_trace view walCommits state.1 state.2 stmt).append
        (runSession_trace view walCommits rest _)

end Traced

end QinDB.Executor
