/-
# Executor.Statements — what the statements of any history keep

INSERT, UPDATE and DELETE are sequences of elementary writes between the begin and the
end of a transaction (`DmlStep`). From this, and from what BEGIN, COMMIT, ROLLBACK,
VACUUM and the two statements about tables do, every statement of every session keeps a
database sound.

* `executeInsert_step`, `executeDelete_step`, `executeUpdate_step`: the three statements
  as writes.
* `execute_sound`: every statement keeps the database sound.
* `Reachable.sound`: so it is sound in every state that any history reaches.
-/
import QinDB.Executor.Invariant

namespace QinDB.Executor

open QinDB.Core QinDB.Storage Relation

set_option autoImplicit false

section Statements

variable {V E : Type} {qt : Variant V} {ev : Evaluator V E} {view : Presentation V E}
  {db : Database V} {session : TransactionId} {table : TableDef}

/-- The statement's transaction is a known one. -/
theorem Sound.statementTransaction (sound : Sound db) (known : session < db.txns.nextTxnId) :
    Sound (statementTransaction session db).2 ∧
      (statementTransaction session db).1 < (statementTransaction session db).2.txns.nextTxnId ∧
      (statementTransaction session db).1 ≠ INVALID_TXN_ID ∧
      (statementTransaction session db).2.tables = db.tables := by
  rw [QinDB.Executor.statementTransaction]
  split
  · exact ⟨sound.setTxns (Nat.le_succ _) (Bounded.begin sound.unknown), Nat.lt_succ_self _,
      Nat.ne_of_gt sound.positive, rfl⟩
  · rename_i inSession
    exact ⟨sound, known, inSession, rfl⟩

theorem Sound.finishStatement (sound : Sound db) (walCommits : Bool) (txnId : TransactionId)
    (outcome : Outcome V) : Sound (finishStatement walCommits session txnId outcome db).2 := by
  have run := finishStatement_txns session txnId walCommits outcome db
  obtain ⟨txns, finished⟩ := finishStatement_frame walCommits session txnId outcome db
  rw [finished] at run ⊢
  exact sound.setTxns (Nat.le_of_eq run.nextTxnId.symm) (run.bounded sound.unknown)

/-- A table definition that differs from a table of the catalog in the next row id. -/
theorem Layout.updateTable (layout : Layout db) {name : Identifier}
    (found : db.getTable name = some table) (next : RowId) :
    Layout (db.updateTable name { table with nextRowId := next }) := by
  obtain ⟨inTables, sameName⟩ := getTable_mem found
  -- every table of the new catalog has a table of the old one behind it
  have origin : ∀ t ∈ (db.updateTable name { table with nextRowId := next }).tables,
      ∃ old ∈ db.tables, t.name = old.name ∧ t.firstPageId = old.firstPageId ∧
        t = if old = table then { table with nextRowId := next } else old := by
    intro t member
    obtain ⟨old, inOld, rfl⟩ := List.mem_map.mp member
    by_cases same : old.name.toLower = name.toLower
    · have eq : old = table := layout.names old inOld table inTables (same.trans sameName.symm)
      subst eq
      exact ⟨old, inOld, by simp only [if_pos same], by simp only [if_pos same],
        by simp only [if_pos same, if_true]⟩
    · have ne : old ≠ table := fun eq => same (eq ▸ sameName)
      exact ⟨old, inOld, by simp only [if_neg same], by simp only [if_neg same],
        by simp only [if_neg same, if_neg ne]⟩
  have chain : ∀ t old : TableDef, t.firstPageId = old.firstPageId →
      (db.updateTable name { table with nextRowId := next }).chain t = db.chain old := by
    intro t old same
    rw [Database.chain, Database.chain, same]
    rfl
  constructor
  · intro t member t' member' same
    obtain ⟨old, inOld, oldName, -, shape⟩ := origin t member
    obtain ⟨old', inOld', oldName', -, shape'⟩ := origin t' member'
    have eq := layout.names old inOld old' inOld' (by rw [← oldName, ← oldName']; exact same)
    rw [shape, shape', eq]
  · intro t member
    obtain ⟨old, inOld, -, oldFirst, -⟩ := origin t member
    rw [oldFirst]
    exact layout.first old inOld
  · intro t member p inside
    obtain ⟨old, inOld, -, oldFirst, -⟩ := origin t member
    rw [chain t old oldFirst] at inside
    exact layout.stored old inOld p inside
  · intro t member
    obtain ⟨old, inOld, -, oldFirst, -⟩ := origin t member
    rw [chain t old oldFirst]
    exact layout.nodup old inOld
  · intro t member t' member' p inside inside'
    obtain ⟨old, inOld, -, oldFirst, shape⟩ := origin t member
    obtain ⟨old', inOld', -, oldFirst', shape'⟩ := origin t' member'
    rw [chain t old oldFirst] at inside
    rw [chain t' old' oldFirst'] at inside'
    have eq := layout.disjoint old inOld old' inOld' p inside inside'
    rw [shape, shape', eq]
  · exact layout.free
  · exact layout.freeNodup
  · exact layout.freeValid

theorem Sound.updateTable (sound : Sound db) {name : Identifier}
    (found : db.getTable name = some table) (next : RowId) :
    Sound (db.updateTable name { table with nextRowId := next }) where
  toLayout := sound.toLayout.updateTable found next
  ids := sound.ids
  unknown := sound.unknown
  positive := sound.positive
  offsets := sound.offsets

/-! ### What INSERT, UPDATE and DELETE do -/

/-- A statement that changes rows of the table `name`: it does nothing when there is no
such table; otherwise it takes a transaction, writes, and stops with an error or
finishes, which for an INSERT includes storing the next row id. -/
inductive DmlStep (walCommits : Bool) (session : TransactionId) (name : Identifier)
    (Allowed : TableDef → TransactionId → Record → Slot → Prop)
    (Logged : Database V → UndoRecord V → Prop) (db : Database V) :
    Outcome V × Database V → Prop
  | missing (absent : db.getTable name = none) :
      DmlStep walCommits session name Allowed Logged db (.failed (.tableNotFound name), db)
  | stopped {table : TableDef} {db' : Database V} (error : ExecError)
      (found : db.getTable name = some table)
      (writes : ReflTransGen (Write table (statementTransaction session db).1
        (Allowed table (statementTransaction session db).1) Logged)
        (statementTransaction session db).2 db') :
      DmlStep walCommits session name Allowed Logged db (.failed error, db')
  | finished {table : TableDef} {db' db'' : Database V} (outcome : Outcome V)
      (found : db.getTable name = some table)
      (writes : ReflTransGen (Write table (statementTransaction session db).1
        (Allowed table (statementTransaction session db).1) Logged)
        (statementTransaction session db).2 db')
      (catalog : db'' = db' ∨
        ∃ next, db'' = db'.updateTable name { table with nextRowId := next }) :
      DmlStep walCommits session name Allowed Logged db
        (finishStatement walCommits session (statementTransaction session db).1 outcome db'')

variable (qt ev) in
theorem executeInsert_step (layout : Layout db) (walCommits : Bool) (stmt : InsertStatement E) :
    DmlStep walCommits session stmt.tableName (fun _ _ => NoChange) LogsInsert db
      (executeInsert qt ev walCommits session stmt db) := by
  rw [executeInsert]
  cases found : db.getTable stmt.tableName with
  | none => exact .missing found
  | some table =>
    have writes : ReflTransGen (Write table (statementTransaction session db).1 NoChange
        LogsInsert) (statementTransaction session db).2
        (insertRows qt ev table stmt.tableName session (statementTransaction session db).1
          table.nextRowId (statementTransaction session db).2 stmt.values).2.2 :=
      insertRows_writes (layout.first table (getTable_mem found).1) stmt.values table.nextRowId _
    simp only
    rcases stored : insertRows qt ev table stmt.tableName session
        (statementTransaction session db).1 table.nextRowId (statementTransaction session db).2
        stmt.values with ⟨failure, next, db'⟩
    rw [stored] at writes
    cases failure with
    | some error => exact .stopped error found writes
    | none => exact .finished _ found writes (.inr ⟨next, rfl⟩)

/-- The rows that a scan finds lie on pages of the table's chain. -/
theorem visibleRows_inChain {current : TransactionId} {found : Located V}
    (member : found ∈ visibleRows qt db table current) : found.pageId ∈ db.chain table := by
  obtain ⟨page, scanned, -, -⟩ := mem_visibleRows.mp member
  exact (mem_scan scanned).1

theorem deleteCandidates_mem {whereClause : Option E} :
    ∀ {rows candidates : List (Located V)},
      deleteCandidates qt ev table whereClause rows = .ok candidates →
      ∀ found ∈ candidates, found ∈ rows ∧
        matchesWhere qt ev table whereClause found.row = .ok true
  | [], candidates, done => by
      cases done
      intro found member
      cases member
  | row :: rows, candidates, done => by
      rw [deleteCandidates] at done
      cases satisfies : matchesWhere qt ev table whereClause row.row with
      | error error =>
        rw [satisfies] at done
        cases done
      | ok keep =>
        rw [satisfies] at done
        cases later : deleteCandidates qt ev table whereClause rows with
        | error error =>
          rw [later] at done
          cases done
        | ok rest =>
          rw [later] at done
          intro found member
          cases keep with
          | false =>
            cases done
            obtain ⟨inside, holds⟩ := deleteCandidates_mem later found member
            exact ⟨List.mem_cons_of_mem row inside, holds⟩
          | true =>
            cases done
            rcases List.mem_cons.mp member with same | inRest
            · subst same
              exact ⟨List.mem_cons_self, satisfies⟩
            · obtain ⟨inside, holds⟩ := deleteCandidates_mem later found inRest
              exact ⟨List.mem_cons_of_mem row inside, holds⟩

variable (qt ev) in
theorem executeDelete_step (walCommits : Bool) (stmt : DeleteStatement E) :
    DmlStep walCommits session stmt.tableName (fun _ => Marks) LogsInsert db
      (executeDelete qt ev walCommits session stmt db) := by
  rw [executeDelete]
  cases found : db.getTable stmt.tableName with
  | none => exact .missing found
  | some table =>
    simp only
    cases collected : deleteCandidates qt ev table stmt.whereClause
        (visibleRows qt (statementTransaction session db).2 table session) with
    | error error => exact .stopped error found .refl
    | ok candidates =>
      exact .finished _ found (deleteRows_writes fun found member =>
        visibleRows_inChain (deleteCandidates_mem collected found member).1) (.inl rfl)

theorem updateCandidates_mem {stmt : UpdateStatement E} :
    ∀ {rows : List (Located V)} {candidates : List (Located V × List V)},
      updateCandidates qt ev table stmt rows = .ok candidates →
      ∀ candidate ∈ candidates, candidate.1 ∈ rows ∧
        matchesWhere qt ev table stmt.whereClause candidate.1.row = .ok true ∧
        applyAssignments ev table stmt.tableName candidate.1.row stmt.assignments
          candidate.1.row = .ok candidate.2
  | [], candidates, done => by
      cases done
      intro candidate member
      cases member
  | row :: rows, candidates, done => by
      have later : ∀ {rest : List (Located V × List V)},
          updateCandidates qt ev table stmt rows = .ok rest → ∀ candidate ∈ rest,
            candidate.1 ∈ row :: rows ∧
            matchesWhere qt ev table stmt.whereClause candidate.1.row = .ok true ∧
            applyAssignments ev table stmt.tableName candidate.1.row stmt.assignments
              candidate.1.row = .ok candidate.2 := by
        intro rest collected candidate member
        obtain ⟨inside, holds⟩ := updateCandidates_mem collected candidate member
        exact ⟨List.mem_cons_of_mem row inside, holds⟩
      rw [updateCandidates] at done
      cases satisfies : matchesWhere qt ev table stmt.whereClause row.row with
      | error error =>
        rw [satisfies] at done
        cases done
      | ok keep =>
        rw [satisfies] at done
        cases keep with
        | false => exact later done
        | true =>
          simp only at done
          cases assigned : applyAssignments ev table stmt.tableName row.row stmt.assignments
              row.row with
          | error error =>
            rw [assigned] at done
            cases done
          | ok newRow =>
            rw [assigned] at done
            cases collected : updateCandidates qt ev table stmt rows with
            | error error =>
              rw [collected] at done
              cases done
            | ok rest =>
              rw [collected] at done
              cases done
              intro candidate member
              rcases List.mem_cons.mp member with same | inRest
              · subst same
                exact ⟨List.mem_cons_self, satisfies, assigned⟩
              · exact later collected candidate inRest

/-- The position of a row that a scan found is the index of some slot of its page. -/
theorem visibleRows_position {current : TransactionId} {found : Located V}
    (member : found ∈ visibleRows qt db table current) :
    found.position < db.slotCount found.pageId := by
  obtain ⟨page, scanned, ⟨index, read, same⟩, -⟩ := mem_visibleRows.mp member
  have inside := (List.getElem?_eq_some_iff.mp (slots_getElem?_of_read read)).1
  have le := Base.Rank.rank_le (readSlot qt table.columns) page.slots index
  rw [slotCount_of_disk (mem_scan scanned).2]
  omega

/-- UPDATE as writes, when every row it means to change may be overwritten. -/
theorem executeUpdate_step {May : TransactionId → Prop} (walCommits : Bool)
    (stmt : UpdateStatement E) (valid : (statementTransaction session db).1 ≠ INVALID_TXN_ID)
    (may : ∀ table candidates, db.getTable stmt.tableName = some table →
      updateCandidates qt ev table stmt
        (visibleRows qt (statementTransaction session db).2 table session) = .ok candidates →
      ∀ candidate ∈ candidates,
        MayUpdate qt table May (statementTransaction session db).2 candidate) :
    DmlStep walCommits session stmt.tableName
      (fun table txnId => Updates qt table.columns txnId May) (LogsUpdate May) db
      (executeUpdate qt ev walCommits session stmt db) := by
  rw [executeUpdate]
  cases found : db.getTable stmt.tableName with
  | none => exact .missing found
  | some table =>
    simp only
    cases collected : updateCandidates qt ev table stmt
        (visibleRows qt (statementTransaction session db).2 table session) with
    | error error => exact .stopped error found .refl
    | ok candidates =>
      refine .finished _ found (updateRows_writes valid (fun candidate member => ?_)
        (may table candidates found collected) fun _ _ _ logged => logged) (.inl rfl)
      exact visibleRows_inChain (updateCandidates_mem collected candidate member).1

variable (qt ev) in
/-- Every UPDATE is a sequence of writes that may overwrite any record. -/
theorem executeUpdate_step_any (valid : (statementTransaction session db).1 ≠ INVALID_TXN_ID)
    (walCommits : Bool) (stmt : UpdateStatement E) :
    DmlStep walCommits session stmt.tableName
      (fun table txnId => Updates qt table.columns txnId fun _ => True)
      (LogsUpdate fun _ => True) db (executeUpdate qt ev walCommits session stmt db) :=
  executeUpdate_step walCommits stmt valid
    fun _ _ _ collected candidate member =>
      ⟨visibleRows_position (updateCandidates_mem collected candidate member).1,
        fun _ _ => .inl trivial⟩

section Steps

variable {name : Identifier} {walCommits : Bool}
  {Allowed : TableDef → TransactionId → Record → Slot → Prop}
  {Logged : Database V → UndoRecord V → Prop} {result : Outcome V × Database V}

/-- Such a statement keeps the database sound. -/
theorem DmlStep.sound (keeps : ∀ table txnId, KeepsIds txnId (Allowed table txnId))
    (sound : Sound db) (known : session < db.txns.nextTxnId)
    (step : DmlStep walCommits session name Allowed Logged db result) : Sound result.2 := by
  obtain ⟨begun, fresh, -, tables⟩ := sound.statementTransaction known
  cases step with
  | missing absent => exact sound
  | stopped error found writes =>
    exact (Write.run_sound (keeps _ _) fresh (tables.symm ▸ (getTable_mem found).1) begun writes).1
  | @finished table db' db'' outcome found writes catalog =>
    have inTables := tables.symm ▸ (getTable_mem found).1
    obtain ⟨done, sameTables, -⟩ := Write.run_sound (keeps _ _) fresh inTables begun writes
    have listed : db'.getTable name = some table := by
      rw [Database.getTable, sameTables, tables]
      exact found
    have stored : Sound db'' := by
      rcases catalog with rfl | ⟨row, rfl⟩
      · exact done
      · exact done.updateTable listed row
    exact stored.finishStatement walCommits _ outcome

end Steps

/-! ### Transactions -/

theorem executeBegin_sound (sound : Sound db) : Sound (executeBegin session db).2.2 := by
  rw [executeBegin]
  split
  · exact sound
  · exact sound.setTxns (Nat.le_succ _) (Bounded.begin sound.unknown)

theorem executeCommit_sound (sound : Sound db) (walCommits : Bool) :
    Sound (executeCommit walCommits session db).2.2 := by
  have run : InNameOf session True db.txns _ := .commit .refl trivial walCommits
  have committed := sound.setTxns (Nat.le_of_eq run.nextTxnId.symm) (run.bounded sound.unknown)
  rw [executeCommit]
  split
  · exact sound
  · split
    · exact sound
    · split
      all_goals
        rename_i done
        rw [done] at committed
        exact committed

/-- What an undo record does to its page: one slot, whose record keeps its creator. -/
theorem undoOnPage_some {columns : List ColumnDef} {undo : UndoRecord V} {page page' : TablePage}
    (done : undoOnPage qt columns session undo page = some page') :
    ∃ record content, page.slot undo.slotIndex = some record ∧
      page' = page.setSlot undo.slotIndex content ∧
      ∀ record', content = some record' →
        record'.header.createTxnId = record.header.createTxnId ∧
        (record'.header.deleteTxnId = INVALID_TXN_ID ∨ record'.header.deleteTxnId = session) := by
  rw [undoOnPage] at done
  split at done
  · obtain ⟨record, slot, unmarked, rfl⟩ := deleteRecord_some done
    exact ⟨record, _, slot, rfl, Marks.keepsIds session record _ ⟨unmarked, rfl⟩⟩
  · obtain ⟨record, header, data, slot, unmarked, encoded, fits, rfl⟩ := updateRecord_some done
    exact ⟨record, _, slot, rfl, Updates.keepsIds qt columns session (fun _ => True) record _
      (.inr ⟨trivial, unmarked, _, header, data, encoded, fits, rfl⟩)⟩
  · obtain ⟨record, slot, rfl⟩ := restoreRecord_some done
    refine ⟨record, _, slot, rfl, fun record' same => ?_⟩
    cases same
    exact ⟨rfl, .inl rfl⟩

theorem undoRecord_sound (sound : Sound db) (known : session < db.txns.nextTxnId)
    (undo : UndoRecord V) :
    Sound (undoRecord qt session undo db).2 ∧
      (undoRecord qt session undo db).2.txns = db.txns := by
  rw [undoRecord]
  split
  · exact ⟨sound, rfl⟩
  · split
    · exact ⟨sound, rfl⟩
    · rename_i page found
      split
      · exact ⟨sound, rfl⟩
      · rename_i page' done
        obtain ⟨record, content, slot, rfl, keeps⟩ := undoOnPage_some done
        refine ⟨sound.setSlot found (TablePage.slot_lt slot) fun record' same => ?_, rfl⟩
        have old := sound.ids undo.pageId undo.slotIndex record (by rw [slotAt_of_disk found, slot])
        obtain ⟨creator, mark⟩ := keeps record' same
        refine ⟨by rw [creator]; exact old.1, ?_⟩
        rcases mark with unmarked | own
        · rw [unmarked]; exact sound.positive
        · rw [own]; exact known

theorem undoRecords_sound (sound : Sound db) (known : session < db.txns.nextTxnId)
    (log : List (UndoRecord V)) : Sound (changeRows (undoRecord qt session) log db).2 := by
  refine (changeRows_induction (fun _ now => Sound now ∧ session < now.txns.nextTxnId) ?_ log db
    ⟨sound, known⟩).1
  rintro undo rest now ⟨soundNow, knownNow⟩
  obtain ⟨after, txns⟩ := undoRecord_sound soundNow knownNow undo
  exact ⟨after, by rw [txns]; exact knownNow⟩

theorem executeRollback_sound (sound : Sound db) (known : session < db.txns.nextTxnId) :
    Sound (executeRollback qt session db).2.2 := by
  rw [executeRollback]
  split
  · exact sound
  · split
    · exact sound
    · exact (undoRecords_sound sound known _).abortTransaction session

/-! ### VACUUM -/

/-- VACUUM empties slots; it fills none and moves none. -/
theorem slot_cleanupPage (txns : TransactionManager V) (page : TablePage) (index : Nat) :
    (cleanupPage txns page).slot index = cleanupSlot txns (page.slot index) := by
  rw [TablePage.slot, TablePage.slot, cleanupPage, List.getElem?_map]
  cases page.slots[index]? <;> rfl

theorem cleanupSlot_some {txns : TransactionManager V} {content : Slot} {record : Record}
    (kept : cleanupSlot txns content = some record) : content = some record := by
  cases content with
  | none => cases kept
  | some old =>
    rw [cleanupSlot] at kept
    split at kept
    · exact kept
    · split at kept
      · cases kept
      · exact kept

/-- Every page is left as it was or cleaned, some pages of the chain more than once when
the chain visits them again. -/
theorem cleanupPages_disk (txns : TransactionManager V) :
    ∀ (chain : List PageId) (disk : PageId → Option TablePage),
      (∀ p, (cleanupPages txns chain disk).2 p = none ↔ disk p = none) ∧
      ∀ p page', (cleanupPages txns chain disk).2 p = some page' → ∃ page, disk p = some page ∧
        page'.freeSpaceOffset = page.freeSpaceOffset ∧
        ∀ i record, page'.slot i = some record → page.slot i = some record
  | [], disk => ⟨fun _ => Iff.rfl, fun _ page' found => ⟨page', found, rfl, fun _ _ same => same⟩⟩
  | pageId :: rest, disk => by
      rw [cleanupPages]
      cases found : disk pageId with
      | none =>
        exact ⟨fun _ => Iff.rfl, fun _ page' onDisk => ⟨page', onDisk, rfl, fun _ _ same => same⟩⟩
      | some page =>
        obtain ⟨domain, slots⟩ := cleanupPages_disk txns rest
          (Function.update disk pageId (some (cleanupPage txns page)))
        refine ⟨fun p => (domain p).trans ?_, fun p page' onDisk => ?_⟩
        · by_cases same : p = pageId
          · subst same
            simp only [Function.update_self, found, reduceCtorEq]
          · simp only [Function.update_of_ne same]
        · obtain ⟨page₁, onDisk₁, offset, kept⟩ := slots p page' onDisk
          by_cases same : p = pageId
          · subst same
            rw [Function.update_self] at onDisk₁
            cases onDisk₁
            refine ⟨page, found, offset, fun i record slot => ?_⟩
            have cleaned := kept i record slot
            rw [slot_cleanupPage] at cleaned
            exact cleanupSlot_some cleaned
          · rw [Function.update_of_ne same] at onDisk₁
            exact ⟨page₁, onDisk₁, offset, kept⟩

theorem cleanupTable_sound (sound : Sound db) (table : TableDef) :
    Sound (cleanupTable table db).2 := by
  obtain ⟨domain, slots⟩ := cleanupPages_disk db.txns (db.chain table) db.disk
  refine { toLayout := sound.toLayout.of_domain domain rfl rfl rfl
           ids := fun p i record occupied => ?_
           unknown := sound.unknown, positive := sound.positive
           offsets := fun p page' onDisk => ?offsets }
  case offsets =>
    obtain ⟨page, found, offset, -⟩ := slots p page' onDisk
    rw [offset]
    exact sound.offsets p page found
  rw [Database.slotAt] at occupied
  cases onDisk : (cleanupTable table db).2.disk p with
  | none =>
    rw [onDisk] at occupied
    cases occupied
  | some page' =>
    rw [onDisk] at occupied
    obtain ⟨page, found, -, kept⟩ := slots p page' onDisk
    exact sound.ids p i record (by rw [slotAt_of_disk found]; exact kept i record occupied)

theorem executeVacuum_sound (sound : Sound db) (name : Option Identifier) :
    Sound (executeVacuum name db).2 := by
  have all : ∀ (tables : List TableDef) {db : Database V}, Sound db →
      Sound (cleanupTables tables db).2 := by
    intro tables
    induction tables with
    | nil => exact fun sound => sound
    | cons table rest ih => exact fun sound => ih (cleanupTable_sound sound table)
  cases name with
  | none => exact all db.tables sound
  | some tableName =>
    rw [executeVacuum]
    split
    · exact sound
    · exact cleanupTable_sound sound _

/-! ### Tables -/

/-- Fewer tables. -/
theorem Layout.dropTables (layout : Layout db) (keep : TableDef → Bool) :
    Layout { db with tables := db.tables.filter keep } := by
  have member : ∀ t ∈ db.tables.filter keep, t ∈ db.tables :=
    fun t inside => (List.mem_filter.mp inside).1
  exact {
    names := fun t inside t' inside' => layout.names t (member t inside) t' (member t' inside')
    first := fun t inside => layout.first t (member t inside)
    stored := fun t inside => layout.stored t (member t inside)
    nodup := fun t inside => layout.nodup t (member t inside)
    disjoint := fun t inside t' inside' =>
      layout.disjoint t (member t inside) t' (member t' inside')
    free := layout.free
    freeNodup := layout.freeNodup
    freeValid := layout.freeValid }

theorem executeDropTable_sound (sound : Sound db) (name : Identifier) :
    Sound (executeDropTable name db).2 := by
  rw [executeDropTable]
  split
  · exact sound
  · exact { toLayout := sound.toLayout.dropTables _, ids := sound.ids, unknown := sound.unknown
            positive := sound.positive, offsets := sound.offsets }

/-- No table has a name that is not found. -/
theorem otherNames {name : Identifier} (absent : db.getTable name = none) :
    ∀ t ∈ db.tables, t.name.toLower ≠ name.toLower := by
  intro t member same
  have never := List.find?_eq_none.mp absent t member
  simp only [same, decide_true, not_true_eq_false] at never

theorem executeCreateTable_sound (sound : Sound db) (name : Identifier)
    (columns : List ColumnDef) : Sound (executeCreateTable name columns db).2 := by
  rw [executeCreateTable]
  split
  · exact sound
  · rename_i absent
    split
    · exact sound
    · rename_i pageId free next
      have missing := sound.free pageId (by rw [next]; exact List.mem_cons_self)
      refine { toLayout := ?_, ids := ?_, unknown := sound.unknown, positive := sound.positive
               offsets := writePage_offsets sound.offsets pageId (Nat.le_refl PAGE_SIZE) }
      · exact sound.toLayout.addTable { name, columns, firstPageId := pageId, nextRowId := 1 } .init
          next (otherNames absent)
      · intro p i record occupied
        rw [slotAt_newPage missing p i rfl] at occupied
        exact sound.ids p i record occupied

/-! ### All statements -/

/-- The session is left with no transaction or with one that was handed out. -/
theorem execute_known (positive : INVALID_TXN_ID < db.txns.nextTxnId)
    (known : session < db.txns.nextTxnId) (walCommits : Bool) (stmt : Statement E) :
    (execute qt ev view walCommits session db stmt).2.1 <
      (execute qt ev view walCommits session db stmt).2.2.txns.nextTxnId := by
  have more := (execute_txns qt ev view session walCommits db stmt).nextTxnId
  rcases execute_reader stmt with same | idle | ⟨new, begun⟩
  · rw [same]
    exact Nat.lt_of_lt_of_le known more
  · rw [idle]
    exact Nat.lt_of_lt_of_le positive more
  · rw [new, begun]
    exact Nat.lt_succ_self _

/-- A statement keeps the database sound. -/
theorem execute_sound (sound : Sound db) (known : session < db.txns.nextTxnId)
    (walCommits : Bool) (stmt : Statement E) :
    Sound (execute qt ev view walCommits session db stmt).2.2 := by
  cases stmt with
  | createTable name columns => exact executeCreateTable_sound sound name columns
  | dropTable name => exact executeDropTable_sound sound name
  | insert stmt =>
    exact (executeInsert_step qt ev sound.toLayout walCommits stmt).sound
      (fun _ => NoChange.keepsIds) sound known
  | update stmt =>
    have valid := (sound.statementTransaction known).2.2.1
    exact (executeUpdate_step_any qt ev valid walCommits stmt).sound
      (fun table txnId => Updates.keepsIds qt table.columns txnId _) sound known
  | delete stmt =>
    exact (executeDelete_step qt ev walCommits stmt).sound (fun _ => Marks.keepsIds) sound known
  | select stmt => exact sound
  | begin => exact executeBegin_sound sound
  | commit => exact executeCommit_sound sound walCommits
  | rollback => exact executeRollback_sound sound known
  | vacuum name => exact executeVacuum_sound sound name

/-- The states that statements of any number of sessions produce from an empty database.
A session's transaction is zero or one that was handed out. -/
inductive Reachable (qt : Variant V) (ev : Evaluator V E) (view : Presentation V E) :
    Database V → Prop
  | create (free : List PageId) (nodup : free.Nodup) (valid : INVALID_PAGE_ID ∉ free) :
      Reachable qt ev view (.create free)
  | step {db : Database V} (walCommits : Bool) (session : TransactionId) (stmt : Statement E)
      (reached : Reachable qt ev view db) (known : session < db.txns.nextTxnId) :
      Reachable qt ev view (execute qt ev view walCommits session db stmt).2.2

theorem create_sound (free : List PageId) (nodup : free.Nodup) (valid : INVALID_PAGE_ID ∉ free) :
    Sound (Database.create free : Database V) where
  names := fun _ member => by cases member
  first := fun _ member => by cases member
  stored := fun _ member => by cases member
  nodup := fun _ member => by cases member
  disjoint := fun _ member => by cases member
  free := fun _ _ => rfl
  freeNodup := nodup
  freeValid := valid
  ids := fun _ _ _ occupied => by cases occupied
  unknown := fun _ _ => rfl
  positive := Nat.zero_lt_one
  offsets := fun _ _ onDisk => by cases onDisk

theorem Reachable.sound (reached : Reachable qt ev view db) : Sound db := by
  induction reached with
  | create free nodup valid => exact create_sound free nodup valid
  | step walCommits session stmt _ known ih => exact execute_sound ih known walCommits stmt

/-! ### Whole sessions -/

/-- The session's transaction and the database after statements of one session. -/
def runSession (qt : Variant V) (ev : Evaluator V E) (view : Presentation V E)
    (walCommits : Bool) : List (Statement E) → TransactionId × Database V →
    TransactionId × Database V
  | [], state => state
  | stmt :: rest, state =>
      runSession qt ev view walCommits rest (execute qt ev view walCommits state.1 state.2 stmt).2

theorem Reachable.runSession (walCommits : Bool) :
    ∀ (stmts : List (Statement E)) (state : TransactionId × Database V),
      Reachable qt ev view state.2 → state.1 < state.2.txns.nextTxnId →
      Reachable qt ev view (runSession qt ev view walCommits stmts state).2
  | [], _, reached, _ => reached
  | stmt :: rest, state, reached, known =>
      Reachable.runSession walCommits rest (execute qt ev view walCommits state.1 state.2 stmt).2
        (.step walCommits state.1 stmt reached known)
        (execute_known reached.sound.positive known walCommits stmt)

end Statements

end QinDB.Executor
