/-
# Executor.Writes — what INSERT, UPDATE and DELETE write

Each of the three statements is a sequence of elementary writes to the table it names: a
change of one slot, a record appended to a page of the chain, a page appended to the
chain, an undo record, an abort. `Write` lists them with everything that guards them;
what a statement keeps is what every elementary write keeps.

* `insertRows_writes`, `deleteRows_writes`, `updateRows_writes`: the loops of the three
  statements are sequences of writes.
* `Allowed` is what may happen to an occupied slot: nothing for INSERT, a delete mark for
  DELETE, a mark or an overwriting for UPDATE.
-/
import QinDB.Executor.Slots

namespace QinDB.Executor

open QinDB.Core QinDB.Storage Relation

set_option autoImplicit false

/-! ## Elementary writes -/

section Write

variable {V : Type}

/-- One write to the pages of `table` under the transaction `txnId`. -/
inductive Write (table : TableDef) (txnId : TransactionId) (Allowed : Record → Slot → Prop)
    (Logged : Database V → UndoRecord V → Prop) : Database V → Database V → Prop
  | change {db : Database V} {page : TablePage} {record : Record} {content : Slot}
      (pageId : PageId) (index : Nat) (inChain : pageId ∈ db.chain table)
      (found : db.disk pageId = some page) (slot : page.slot index = some record)
      (allowed : Allowed record content) :
      Write table txnId Allowed Logged db (db.writePage pageId (page.setSlot index content))
  | append {db : Database V} {page : TablePage} (pageId : PageId) (content : Slot) (offset : Nat)
      (inChain : pageId ∈ db.chain table) (found : db.disk pageId = some page)
      (bounded : offset ≤ PAGE_SIZE)
      (created : ∀ record, content = some record →
        record.header.createTxnId = txnId ∧ record.header.deleteTxnId = INVALID_TXN_ID) :
      Write table txnId Allowed Logged db (db.writePage pageId ⟨page.slots ++ [content], offset⟩)
  | extend {db : Database V} {free : List PageId} (pageId : PageId)
      (next : db.freePages = pageId :: free) :
      Write table txnId Allowed Logged db (appendPage table pageId free db)
  | log {db : Database V} (undo : UndoRecord V) (logged : Logged db undo) :
      Write table txnId Allowed Logged db (db.addUndoRecord txnId undo)
  | abort {db : Database V} : Write table txnId Allowed Logged db (db.abortTransaction txnId)
  | rowId {db : Database V} (next : RowId) :
      Write table txnId Allowed Logged db { db with updateRowId := next }

/-- INSERT leaves occupied slots alone. -/
def NoChange (_ : Record) (_ : Slot) : Prop := False

/-- The record `record` with the delete mark of `txnId`. -/
def marked (record : Record) (txnId : TransactionId) : Record :=
  { record with header := { record.header with deleteTxnId := txnId } }

/-- DELETE puts its mark on an unmarked record. -/
def Marks (txnId : TransactionId) (record : Record) (content : Slot) : Prop :=
  record.header.deleteTxnId = INVALID_TXN_ID ∧ content = some (marked record txnId)

/-- UPDATE overwrites an unmarked record with values that are not larger. -/
def Overwrites (qt : Variant V) (columns : List ColumnDef) (record : Record) (content : Slot) :
    Prop :=
  record.header.deleteTxnId = INVALID_TXN_ID ∧ ∃ values header data,
    serializeRecord qt columns record.header.rowId values record.header.createTxnId =
      some (header, data) ∧ recordSize data ≤ record.length ∧ content = slotOf header data

variable {table : TableDef} {txnId : TransactionId} {Allowed : Record → Slot → Prop}
  {Logged : Database V → UndoRecord V → Prop}

end Write

/-! ## The statements as writes -/

section Statements

variable {V E : Type} {qt : Variant V} {ev : Evaluator V E} {table : TableDef}
  {tableName : Identifier} {session txnId : TransactionId} {Allowed : Record → Slot → Prop}
  {Logged : Database V → UndoRecord V → Prop}

theorem slotOf_some {header : RecordHeader} {data : Bytes} {record : Record}
    (same : slotOf header data = some record) :
    record.header = header ∧ record.length = recordSize data := by
  rw [slotOf] at same
  split at same
  · cases same
  · cases same
    exact ⟨rfl, rfl⟩

/-- A record that a page takes carries the writing transaction and no mark. -/
theorem insertRecord_created {columns : List ColumnDef} {page page' : TablePage} {rowId : RowId}
    {values : List V} (done : insertRecord qt columns page rowId values txnId = some page') :
    ∃ content, page' = ⟨page.slots ++ [content], page'.freeSpaceOffset⟩ ∧
      page'.freeSpaceOffset ≤ PAGE_SIZE ∧ ∀ record, content = some record →
        record.header.createTxnId = txnId ∧ record.header.deleteTxnId = INVALID_TXN_ID := by
  obtain ⟨header, data, encoded, slots, bounded⟩ := insertRecord_some done
  obtain ⟨-, creator, unmarked, -, -⟩ := serializeRecord_some encoded
  refine ⟨slotOf header data, ?_, bounded, fun record same => ?_⟩
  · rw [← slots]
  · rw [(slotOf_some same).1]
    exact ⟨creator, unmarked⟩

theorem placeRecord_placed {columns : List ColumnDef} {values : List V} {size bump : Nat}
    {disk : PageId → Option TablePage} {pageId : PageId} {page' : TablePage} {next : RowId} :
    ∀ {rowId : RowId} {chain : List PageId},
      placeRecord qt columns values txnId size bump disk rowId chain =
        (.placed pageId page', next) →
      pageId ∈ chain ∧ ∃ page rowId', disk pageId = some page ∧
        hasEnoughSpace page size = true ∧
        insertRecord qt columns page rowId' values txnId = some page'
  | rowId, [], placed => by cases placed
  | rowId, first :: rest, placed => by
      rw [placeRecord] at placed
      cases found : disk first with
      | none =>
        rw [found] at placed
        cases placed
      | some page =>
        rw [found] at placed
        simp only at placed
        split at placed
        · rename_i room
          cases inserted : insertRecord qt columns page rowId values txnId with
          | some page'' =>
            rw [inserted] at placed
            cases placed
            exact ⟨List.mem_cons_self, page, rowId, found, room, inserted⟩
          | none =>
            rw [inserted] at placed
            obtain ⟨inside, rest⟩ := placeRecord_placed placed
            exact ⟨List.mem_cons_of_mem first inside, rest⟩
        · obtain ⟨inside, rest⟩ := placeRecord_placed placed
          exact ⟨List.mem_cons_of_mem first inside, rest⟩

/-- An undo record is written, or in a statement's own transaction nothing is. -/
theorem logUndo_writes {undo : UndoRecord V} {db : Database V}
    (logged : session ≠ INVALID_TXN_ID → Logged db undo) :
    ReflTransGen (Write table txnId Allowed Logged) db (logUndo session txnId undo db) := by
  rw [logUndo]
  split
  · exact .refl
  · rename_i inSession
    exact .single (.log undo (logged inSession))

/-- The records that INSERT writes never count as UPDATE undo records. -/
def LogsInsert (_ : Database V) (undo : UndoRecord V) : Prop :=
  ∀ oldValues, undo.opType ≠ .UPDATE oldValues

theorem storeRow_writes {nextRowId : RowId} {values : List V} {db : Database V}
    (valid : table.firstPageId ≠ INVALID_PAGE_ID) :
    ReflTransGen (Write table txnId NoChange LogsInsert) db
      (storeRow qt table tableName session txnId nextRowId values db).2.2 := by
  have insertLog : ∀ (db : Database V) pageId slotIndex, LogsInsert db
      { opType := .INSERT, tableName, pageId, slotIndex } := by
    intro db pageId slotIndex oldValues impossible
    cases impossible
  rw [storeRow]
  split
  · rename_i pageId page next placed
    obtain ⟨inChain, old, rowId, found, -, inserted⟩ := placeRecord_placed placed
    obtain ⟨content, shape, bounded, created⟩ := insertRecord_created inserted
    rw [storePlaced, shape]
    exact (ReflTransGen.single (.append pageId content _ inChain found bounded created)).trans
      (logUndo_writes fun _ => insertLog _ _ _)
  · exact .single .abort
  · cases free : db.freePages with
    | nil => exact .single .abort
    | cons pageId free' =>
      have extended : ReflTransGen (Write table txnId NoChange LogsInsert) db
          (appendPage table pageId free' db) := .single (.extend pageId free)
      have inChain : pageId ∈ (appendPage table pageId free' db).chain table := by
        simp only [Database.chain, appendPage, if_neg valid, Function.update_self]
        exact List.mem_cons_of_mem _ (List.mem_append_right _ List.mem_cons_self)
      have found : (appendPage table pageId free' db).disk pageId = some .init :=
        Function.update_self ..
      cases inserted : insertRecord qt table.columns .init _ values txnId with
      | none => exact extended.tail .abort
      | some page =>
        obtain ⟨content, shape, bounded, created⟩ := insertRecord_created inserted
        simp only [storePlaced]
        rw [shape]
        exact (extended.tail (.append pageId content _ inChain found bounded created)).trans
          (logUndo_writes fun _ => insertLog _ _ _)

theorem insertRows_writes (valid : table.firstPageId ≠ INVALID_PAGE_ID) :
    ∀ (rows : List (List E)) (nextRowId : RowId) (db : Database V),
      ReflTransGen (Write table txnId NoChange LogsInsert) db
        (insertRows qt ev table tableName session txnId nextRowId db rows).2.2
  | [], _, _ => .refl
  | exprs :: rest, nextRowId, db => by
      rw [insertRows]
      cases prepareRow qt ev table nextRowId exprs with
      | error error => exact .refl
      | ok values =>
        have first : ReflTransGen (Write table txnId NoChange LogsInsert) db
            (storeRow qt table tableName session txnId nextRowId values db).2.2 :=
          storeRow_writes valid
        rcases stored : storeRow qt table tableName session txnId nextRowId values db with
          ⟨failure, next, db'⟩
        rw [stored] at first
        cases failure with
        | none =>
          simp only [stored]
          exact first.trans (insertRows_writes valid rest next db')
        | some error =>
          simp only [stored]
          exact first

/-! ### Rows changed one by one -/

/-- A loop over rows keeps what every change of a row keeps, with the rows still to come. -/
theorem changeRows_induction {α : Type} {change : α → Database V → Bool × Database V}
    (Holds : List α → Database V → Prop)
    (step : ∀ candidate rest db, Holds (candidate :: rest) db →
      Holds rest (change candidate db).2) :
    ∀ (candidates : List α) (db : Database V), Holds candidates db →
      Holds [] (changeRows change candidates db).2
  | [], _, holds => holds
  | candidate :: rest, db, holds =>
      changeRows_induction Holds step rest (change candidate db).2 (step candidate rest db holds)

@[simp] theorem following_logUndo (undo : UndoRecord V) (db : Database V) :
    (logUndo session txnId undo db).following = db.following := by
  rw [logUndo]
  split <;> rfl

theorem following_deleteRow (found : Located V) (db : Database V) :
    (deleteRow tableName session txnId found db).2.following = db.following := by
  rw [deleteRow]
  split
  · rfl
  · split
    · rfl
    · exact following_logUndo _ _

/-- The undo records of DELETE are no UPDATE undo records either. -/
theorem deleteRow_writes {found : Located V} {db : Database V}
    (inChain : found.pageId ∈ db.chain table) :
    ReflTransGen (Write table txnId (Marks txnId) LogsInsert) db
      (deleteRow tableName session txnId found db).2 := by
  rw [deleteRow]
  split
  · exact .refl
  · rename_i page onDisk
    split
    · exact .refl
    · rename_i page' done
      obtain ⟨record, slot, unmarked, rfl⟩ := deleteRecord_some done
      refine (ReflTransGen.single
        (.change found.pageId found.position inChain onDisk slot ⟨unmarked, rfl⟩)).trans
        (logUndo_writes fun _ oldValues impossible => ?_)
      cases impossible

theorem deleteRows_writes {candidates : List (Located V)} {db : Database V}
    (inChain : ∀ found ∈ candidates, found.pageId ∈ db.chain table) :
    ReflTransGen (Write table txnId (Marks txnId) LogsInsert) db
      (changeRows (deleteRow tableName session txnId) candidates db).2 := by
  refine (changeRows_induction
    (fun rest now => (∀ found ∈ rest, found.pageId ∈ now.chain table) ∧
      ReflTransGen (Write table txnId (Marks txnId) LogsInsert) db now)
    ?_ candidates db ⟨inChain, .refl⟩).2
  rintro found rest now ⟨inside, done⟩
  refine ⟨fun other member => ?_, done.trans
    (deleteRow_writes (inside found List.mem_cons_self))⟩
  rw [chain_congr (following_deleteRow found now)]
  exact inside other (List.mem_cons_of_mem found member)

/-- What `updateRow` does, case by case. -/
inductive UpdateStep (qt : Variant V) (table : TableDef) (tableName : Identifier)
    (session txnId : TransactionId) (candidate : Located V × List V) (db : Database V) :
    Bool × Database V → Prop
  | refused : UpdateStep qt table tableName session txnId candidate db (false, db)
  | overwritten {page : TablePage} {record : Record} {header : RecordHeader} {data : Bytes}
      (onDisk : db.disk candidate.1.pageId = some page)
      (slot : page.slot candidate.1.position = some record)
      (unmarked : record.header.deleteTxnId = INVALID_TXN_ID)
      (encoded : serializeRecord qt table.columns record.header.rowId candidate.2
        record.header.createTxnId = some (header, data))
      (fits : recordSize data ≤ record.length) :
      UpdateStep qt table tableName session txnId candidate db
        (true, logUndo session txnId
          { opType := .UPDATE candidate.1.row, tableName, pageId := candidate.1.pageId,
            slotIndex := candidate.1.position }
          (db.writePage candidate.1.pageId
            (page.setSlot candidate.1.position (slotOf header data))))
  | lost {page : TablePage} {record : Record}
      (onDisk : db.disk candidate.1.pageId = some page)
      (slot : page.slot candidate.1.position = some record)
      (unmarked : record.header.deleteTxnId = INVALID_TXN_ID)
      (grown : updateRecord qt table.columns page candidate.1.position candidate.2 = none) :
      UpdateStep qt table tableName session txnId candidate db
        (false, { db.writePage candidate.1.pageId
          (page.setSlot candidate.1.position (some (marked record txnId))) with
          updateRowId := db.updateRowId + 1 })
  | moved {page target : TablePage} {record : Record} {now : Database V} {pageId : PageId}
      {content : Slot} {offset : Nat}
      (onDisk : db.disk candidate.1.pageId = some page)
      (slot : page.slot candidate.1.position = some record)
      (unmarked : record.header.deleteTxnId = INVALID_TXN_ID)
      (grown : updateRecord qt table.columns page candidate.1.position candidate.2 = none)
      (marking : now = { db.writePage candidate.1.pageId
        (page.setSlot candidate.1.position (some (marked record txnId))) with
        updateRowId := db.updateRowId + 1 })
      (inChain : pageId ∈ now.chain table) (found : now.disk pageId = some target)
      (bounded : offset ≤ PAGE_SIZE)
      (created : ∀ record, content = some record →
        record.header.createTxnId = txnId ∧ record.header.deleteTxnId = INVALID_TXN_ID) :
      UpdateStep qt table tableName session txnId candidate db
        (true, now.writePage pageId ⟨target.slots ++ [content], offset⟩)

variable (qt table tableName session txnId) in
theorem updateRow_step (candidate : Located V × List V) (db : Database V) :
    UpdateStep qt table tableName session txnId candidate db
      (updateRow qt table tableName session txnId candidate db) := by
  rw [updateRow]
  simp only
  split
  · exact .refused
  · rename_i page onDisk
    split
    · rename_i page' done
      obtain ⟨record, header, data, slot, unmarked, encoded, fits, rfl⟩ := updateRecord_some done
      exact .overwritten onDisk slot unmarked encoded fits
    · rename_i grown
      split
      · exact .refused
      · rename_i page' done
        obtain ⟨record, slot, unmarked, rfl⟩ := deleteRecord_some done
        split
        · rename_i pageId page'' placed
          obtain ⟨inside, old, rowId, found, -, inserted⟩ :=
            placeRecord_placed (Prod.ext placed rfl)
          obtain ⟨content, shape, bounded, created⟩ := insertRecord_created inserted
          rw [shape]
          exact .moved onDisk slot unmarked grown rfl inside found bounded created
        · exact .lost onDisk slot unmarked grown

theorem UpdateStep.following {candidate : Located V × List V} {db : Database V}
    {result : Bool × Database V}
    (step : UpdateStep qt table tableName session txnId candidate db result) :
    result.2.following = db.following := by
  cases step with
  | refused => rfl
  | overwritten => exact following_logUndo _ _
  | lost => rfl
  | moved onDisk slot unmarked grown marking => subst marking; rfl

/-- An UPDATE may mark a record or overwrite one that meets `May`. -/
def Updates (qt : Variant V) (columns : List ColumnDef) (txnId : TransactionId)
    (May : TransactionId → Prop) (record : Record) (content : Slot) : Prop :=
  Marks txnId record content ∨
    (May record.header.createTxnId ∧ Overwrites qt columns record content)

/-- An undo record is written for a slot that is there, and whose record has a creator that meets
`May`. -/
def LogsUpdate (May : TransactionId → Prop) (db : Database V) (undo : UndoRecord V) : Prop :=
  undo.slotIndex < db.slotCount undo.pageId ∧
    ∀ record, db.slotAt undo.pageId undo.slotIndex = some record → May record.header.createTxnId

/-- The record in the slot that a candidate's position names may be overwritten by its
new values only if its creator meets `May`. -/
def MayUpdate (qt : Variant V) (table : TableDef) (May : TransactionId → Prop)
    (db : Database V) (candidate : Located V × List V) : Prop :=
  candidate.1.position < db.slotCount candidate.1.pageId ∧
    ∀ record, db.slotAt candidate.1.pageId candidate.1.position = some record →
      May record.header.createTxnId ∨ record.header.deleteTxnId ≠ INVALID_TXN_ID ∨
        fitsInPlace qt table.columns record candidate.2 = false

section Update

variable {May : TransactionId → Prop} {candidate : Located V × List V} {db : Database V}
  {result : Bool × Database V}

/-- A record that is overwritten has a creator that meets `May`. -/
theorem MayUpdate.creator {page : TablePage} {record : Record} {header : RecordHeader}
    {data : Bytes} (may : MayUpdate qt table May db candidate)
    (onDisk : db.disk candidate.1.pageId = some page)
    (slot : page.slot candidate.1.position = some record)
    (unmarked : record.header.deleteTxnId = INVALID_TXN_ID)
    (encoded : serializeRecord qt table.columns record.header.rowId candidate.2
      record.header.createTxnId = some (header, data))
    (fits : recordSize data ≤ record.length) : May record.header.createTxnId := by
  rcases may.2 record (by rw [slotAt_of_disk onDisk, slot]) with allowed | marked | large
  · exact allowed
  · exact absurd unmarked marked
  · rw [fitsInPlace, encoded] at large
    simp only [decide_eq_false_iff_not] at large
    exact absurd fits large

/-- In a statement's own transaction nothing is logged. -/
theorem UpdateStep.writes (step : UpdateStep qt table tableName session txnId candidate db result)
    (inChain : candidate.1.pageId ∈ db.chain table) (may : MayUpdate qt table May db candidate)
    (logs : session ≠ INVALID_TXN_ID → ∀ now undo, LogsUpdate May now undo → Logged now undo) :
    ReflTransGen (Write table txnId (Updates qt table.columns txnId May) Logged) db result.2 := by
  cases step with
  | refused => exact .refl
  | overwritten onDisk slot unmarked encoded fits =>
    have allowed := may.creator onDisk slot unmarked encoded fits
    refine (ReflTransGen.single (.change candidate.1.pageId candidate.1.position inChain onDisk
      slot (.inr ⟨allowed, unmarked, candidate.2, _, _, encoded, fits, rfl⟩))).trans
      (logUndo_writes fun inSession => logs inSession _ _ ⟨?_, fun record found => ?_⟩)
    · rw [slotCount_setSlot onDisk, slotCount_of_disk onDisk]
      exact TablePage.slot_lt slot
    -- the overwritten record keeps its creator
    · rw [slotAt_setSlot onDisk (TablePage.slot_lt slot), if_pos ⟨rfl, rfl⟩] at found
      rw [(slotOf_some found).1, (serializeRecord_some encoded).2.1]
      exact allowed
  | lost onDisk slot unmarked grown =>
    exact (ReflTransGen.single (.change candidate.1.pageId candidate.1.position inChain onDisk slot
      (.inl ⟨unmarked, rfl⟩))).tail (.rowId _)
  | moved onDisk slot unmarked grown marking inside found bounded created =>
    subst marking
    exact ((ReflTransGen.single (.change candidate.1.pageId candidate.1.position inChain onDisk
      slot (.inl ⟨unmarked, rfl⟩))).tail (.rowId _)).tail (.append _ _ _ inside found bounded created)

@[simp] theorem disk_logUndo (undo : UndoRecord V) (db : Database V) :
    (logUndo session txnId undo db).disk = db.disk := by
  rw [logUndo]
  split <;> rfl

/-- Marking a record for a move changes its slot and nothing else. -/
theorem slotAt_marking {pageId other : PageId} {page : TablePage} {index slot : Nat}
    {record : Record} {next : RowId} (onDisk : db.disk pageId = some page)
    (found : page.slot index = some record) :
    Database.slotAt { db.writePage pageId (page.setSlot index (some (marked record txnId))) with
      updateRowId := next } other slot =
      if other = pageId ∧ slot = index then some (marked record txnId)
      else db.slotAt other slot :=
  slotAt_setSlot onDisk (TablePage.slot_lt found) _

theorem slotCount_marking {pageId other : PageId} {page : TablePage} {index : Nat}
    {content : Slot} {next : RowId} (onDisk : db.disk pageId = some page) :
    Database.slotCount { db.writePage pageId (page.setSlot index content) with
      updateRowId := next } other = db.slotCount other :=
  slotCount_setSlot onDisk content

/-- The rows still to be updated keep what they need: another row's update leaves their
slots alone, and one that hits the same slot marks it or was allowed to overwrite it. -/
theorem UpdateStep.mayUpdate {other : Located V × List V} (valid : txnId ≠ INVALID_TXN_ID)
    (step : UpdateStep qt table tableName session txnId candidate db result)
    (may : MayUpdate qt table May db candidate) (mayOther : MayUpdate qt table May db other) :
    MayUpdate qt table May result.2 other := by
  obtain ⟨inside, creators⟩ := mayOther
  cases step with
  | refused => exact ⟨inside, creators⟩
  | overwritten onDisk slot unmarked encoded fits =>
    refine ⟨?_, fun record found => ?_⟩
    · rw [slotCount_congr (disk_logUndo _ _), slotCount_setSlot onDisk]
      exact inside
    · rw [slotAt_congr (disk_logUndo _ _), slotAt_setSlot onDisk (TablePage.slot_lt slot)] at found
      split at found
      · left
        rw [(slotOf_some found).1, (serializeRecord_some encoded).2.1]
        exact may.creator onDisk slot unmarked encoded fits
      · exact creators record found
  | lost onDisk slot unmarked grown =>
    refine ⟨?_, fun record found => ?_⟩
    · rw [slotCount_marking onDisk]
      exact inside
    · rw [slotAt_marking onDisk slot] at found
      split at found
      · cases found
        exact .inr (.inl valid)
      · exact creators record found
  | moved onDisk slot unmarked grown marking inChain target bounded created =>
    subst marking
    have kept := slotCount_of_disk target
    rw [slotCount_marking onDisk] at kept
    refine ⟨?_, fun record found => ?_⟩
    · rw [slotCount_append target, slotCount_marking onDisk]
      split <;> omega
    · rw [slotAt_append target, slotAt_marking onDisk slot] at found
      split at found
      · rename_i appended
        rw [appended.1] at inside
        omega
      · split at found
        · cases found
          exact .inr (.inl valid)
        · exact creators record found

theorem updateRows_writes {candidates : List (Located V × List V)}
    (valid : txnId ≠ INVALID_TXN_ID)
    (inChain : ∀ candidate ∈ candidates, candidate.1.pageId ∈ db.chain table)
    (may : ∀ candidate ∈ candidates, MayUpdate qt table May db candidate)
    (logs : session ≠ INVALID_TXN_ID → ∀ now undo, LogsUpdate May now undo → Logged now undo) :
    ReflTransGen (Write table txnId (Updates qt table.columns txnId May) Logged) db
      (changeRows (updateRow qt table tableName session txnId) candidates db).2 := by
  refine (changeRows_induction
    (fun rest now => (∀ candidate ∈ rest, candidate.1.pageId ∈ now.chain table) ∧
      (∀ candidate ∈ rest, MayUpdate qt table May now candidate) ∧
      ReflTransGen (Write table txnId (Updates qt table.columns txnId May) Logged) db now)
    ?_ candidates db ⟨inChain, may, .refl⟩).2.2
  rintro candidate rest now ⟨inside, may, done⟩
  have step := updateRow_step qt table tableName session txnId candidate now
  have own := may candidate List.mem_cons_self
  refine ⟨fun other member => ?_, fun other member => ?_,
    done.trans (step.writes (inside candidate List.mem_cons_self) own logs)⟩
  · rw [chain_congr step.following]
    exact inside other (List.mem_cons_of_mem candidate member)
  · exact step.mayUpdate valid own (may other (List.mem_cons_of_mem candidate member))

end Update

end Statements

end QinDB.Executor
