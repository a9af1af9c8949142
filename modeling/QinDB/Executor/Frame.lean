/-
# Executor.Frame — what statements leave alone

A session may belong to another database than the one a statement works on, so nothing
is known here about its transaction. What remains: INSERT, UPDATE and DELETE touch the
entry and the pages of their own table only, ROLLBACK the pages of its undo log, VACUUM
records that carry a mark; and every statement keeps the database usable.

* `DmlStep.elsewhere`: other tables after an INSERT, UPDATE or DELETE.
* `executeRollback_frame`, `executeVacuum_frame`.
* `executeCreateTable_elsewhere`, `executeDropTable_elsewhere`.
* `execute_usable`: every statement.
* `reachable_pages`: tables never share a page.
-/
import QinDB.Executor.Bags

namespace QinDB.Executor

open QinDB.Core QinDB.Storage Relation

set_option autoImplicit false

section Frame

variable {V E : Type} {qt : Variant V} {ev : Evaluator V E} {view : Presentation V E}
  {db db' db'' : Database V} {session : TransactionId} {name : Identifier} {table : TableDef}

/-- A database on which statements can be executed. -/
structure Usable (db : Database V) : Prop extends Layout db where
  positive : INVALID_TXN_ID < db.txns.nextTxnId

attribute [mk_iff] Layout Usable

/-- The layout of a given database can be computed. -/
instance decidableLayout (db : Database V) : Decidable (Layout db) :=
  decidable_of_iff _ (layout_iff db).symm

instance decidableUsable (db : Database V) : Decidable (Usable db) :=
  decidable_of_iff _ (usable_iff db).symm

/-- Another transaction manager, in which no identifier is taken back. -/
theorem Usable.setTxns (usable : Usable db) {txns : TransactionManager V}
    (more : db.txns.nextTxnId ≤ txns.nextTxnId) : Usable { db with txns } where
  toLayout := usable.toLayout.of_domain (fun _ => Iff.rfl) rfl rfl rfl
  positive := Nat.lt_of_lt_of_le usable.positive more

/-- Pages that leave the free list, as for an index. -/
theorem Layout.dropFree (layout : Layout db) (count : Nat) :
    Layout { db with freePages := db.freePages.drop count } where
  names := layout.names
  first := layout.first
  stored := layout.stored
  nodup := layout.nodup
  disjoint := layout.disjoint
  free := fun p inside => layout.free p (List.mem_of_mem_drop inside)
  freeNodup := layout.freeNodup.sublist (List.drop_sublist count _)
  freeValid := fun inside => layout.freeValid (List.mem_of_mem_drop inside)

theorem Usable.dropFree (usable : Usable db) (count : Nat) :
    Usable { db with freePages := db.freePages.drop count } :=
  ⟨usable.toLayout.dropFree count, usable.positive⟩

/-- What is left alone by a change of the table `name`: the other tables, with their pages. -/
structure Elsewhere (name : Identifier) (db db' : Database V) : Prop where
  usable : Usable db'
  entry : ∀ other, other.toLower ≠ name.toLower → db'.getTable other = db.getTable other
  chain : ∀ other table, other.toLower ≠ name.toLower → db.getTable other = some table →
    db'.chain table = db.chain table
  disk : ∀ other table, other.toLower ≠ name.toLower → db.getTable other = some table →
    ∀ p ∈ db.chain table, db'.disk p = db.disk p

theorem Elsewhere.of_same (usable : Usable db') (tables : db'.tables = db.tables)
    (following : db'.following = db.following) (disk : db'.disk = db.disk) :
    Elsewhere name db db' where
  usable := usable
  entry := fun other _ => by rw [Database.getTable, Database.getTable, tables]
  chain := fun _ _ _ _ => chain_congr following
  disk := fun _ _ _ _ p _ => by rw [disk]

theorem Elsewhere.trans (first : Elsewhere name db db') (second : Elsewhere name db' db'') :
    Elsewhere name db db'' where
  usable := second.usable
  entry := fun other apart => (second.entry other apart).trans (first.entry other apart)
  chain := fun other table apart found => by
    rw [second.chain other table apart ((first.entry other apart).trans found),
      first.chain other table apart found]
  disk := fun other table apart found p inside => by
    have same := first.chain other table apart found
    rw [second.disk other table apart ((first.entry other apart).trans found) p (same ▸ inside),
      first.disk other table apart found p inside]

/-! ## Writes -/

/-- Two tables with different names have no page in common. -/
theorem Layout.apart (layout : Layout db) (found : db.getTable name = some table)
    {other : Identifier} {table' : TableDef} (different : other.toLower ≠ name.toLower)
    (found' : db.getTable other = some table') : table' ≠ table ∧
      ∀ p ∈ db.chain table', p ∉ db.chain table := by
  obtain ⟨member, named⟩ := getTable_mem found
  obtain ⟨member', named'⟩ := getTable_mem found'
  have distinct : table' ≠ table := by
    rintro rfl
    exact different (named'.symm.trans named)
  exact ⟨distinct, fun p inside inside' =>
    distinct (layout.disjoint table' member' table member p inside inside')⟩

theorem Elsewhere.writePage (usable : Usable db) (found : db.getTable name = some table)
    {pageId : PageId} {page : TablePage} (inChain : pageId ∈ db.chain table)
    (onDisk : db.disk pageId = some page) (page' : TablePage) :
    Elsewhere name db (db.writePage pageId page') where
  usable := { toLayout := usable.toLayout.writePage onDisk, positive := usable.positive }
  entry := fun _ _ => rfl
  chain := fun _ _ _ _ => rfl
  disk := fun other table' different found' p inside => by
    have apart : p ≠ pageId := by
      rintro rfl
      exact (usable.toLayout.apart found different found').2 p inside inChain
    exact Function.update_of_ne apart _ _

theorem Elsewhere.appendPage (usable : Usable db) (found : db.getTable name = some table)
    {pageId : PageId} {free : List PageId} (next : db.freePages = pageId :: free) :
    Elsewhere name db (appendPage table pageId free db) where
  usable :=
    { toLayout := usable.toLayout.appendPage (getTable_mem found).1 next
      positive := usable.positive }
  entry := fun _ _ => rfl
  chain := fun other table' different found' => by
    have distinct := (usable.toLayout.apart found different found').1
    rw [chain_appendPage usable.toLayout (getTable_mem found).1 (getTable_mem found').1,
      if_neg distinct]
  disk := fun other table' different found' p inside => by
    have head : pageId ∈ db.freePages := by rw [next]; exact List.mem_cons_self
    have fresh : p ≠ pageId := by
      rintro rfl
      exact usable.toLayout.fresh head (getTable_mem found').1 inside
    exact Function.update_of_ne fresh _ _

variable {txnId : TransactionId} {Allowed : Record → Slot → Prop}
  {Logged : Database V → UndoRecord V → Prop}

theorem Write.elsewhere (usable : Usable db) (found : db.getTable name = some table)
    (write : Write table txnId Allowed Logged db db') : Elsewhere name db db' := by
  cases write with
  | change pageId index inChain onDisk slot allowed => exact .writePage usable found inChain onDisk _
  | append pageId content offset inChain onDisk bounded created =>
    exact .writePage usable found inChain onDisk _
  | extend pageId next => exact .appendPage usable found next
  | log undo logged =>
    have kept := TransactionManager.nextTxnId_addUndoRecord db.txns txnId undo
    exact .of_same (usable.setTxns (Nat.le_of_eq kept.symm)) rfl rfl rfl
  | abort =>
    have kept := TransactionManager.nextTxnId_abort db.txns txnId
    exact .of_same (usable.setTxns (Nat.le_of_eq kept.symm)) rfl rfl rfl
  | rowId next =>
    have same : Usable { db with updateRowId := next } :=
      { toLayout := usable.toLayout.of_domain (fun _ => Iff.rfl) rfl rfl rfl
        positive := usable.positive }
    exact .of_same same rfl rfl rfl

theorem Write.run_elsewhere (usable : Usable db) (found : db.getTable name = some table)
    (writes : ReflTransGen (Write table txnId Allowed Logged) db db') :
    Elsewhere name db db' ∧ db'.getTable name = some table := by
  induction writes with
  | refl => exact ⟨.of_same usable rfl rfl rfl, found⟩
  | tail _ write ih =>
    obtain ⟨before, found'⟩ := ih
    refine ⟨before.trans (write.elsewhere before.usable found'), ?_⟩
    rw [Database.getTable, write.frame.1]
    exact found'

/-! ## INSERT, UPDATE and DELETE -/

theorem Usable.statementTransaction (usable : Usable db) (name : Identifier)
    (session : TransactionId) :
    Elsewhere name db (statementTransaction session db).2 ∧
      (statementTransaction session db).2.tables = db.tables ∧
      (statementTransaction session db).1 ≠ INVALID_TXN_ID := by
  rw [QinDB.Executor.statementTransaction]
  split
  · exact ⟨.of_same (usable.setTxns (Nat.le_succ _)) rfl rfl rfl, rfl, Nat.ne_of_gt usable.positive⟩
  · rename_i inSession
    exact ⟨.of_same usable rfl rfl rfl, rfl, inSession⟩

theorem Usable.finishStatement (usable : Usable db) (walCommits : Bool) (txnId : TransactionId)
    (outcome : Outcome V) :
    Elsewhere name db (finishStatement walCommits session txnId outcome db).2 := by
  have run := finishStatement_txns session txnId walCommits outcome db
  obtain ⟨txns, finished⟩ := finishStatement_frame walCommits session txnId outcome db
  rw [finished] at run ⊢
  exact .of_same (usable.setTxns (Nat.le_of_eq run.nextTxnId.symm)) rfl rfl rfl

/-- The entries of other tables are found in the new catalog. -/
theorem getTable_updateTable {other : Identifier} {newDef : TableDef}
    (named : newDef.name.toLower = name.toLower) (different : other.toLower ≠ name.toLower) :
    (db.updateTable name newDef).getTable other = db.getTable other := by
  show (db.tables.map fun t => if t.name.toLower = name.toLower then newDef else t).find?
    (fun t => t.name.toLower = other.toLower) = db.tables.find? fun t => t.name.toLower = other.toLower
  induction db.tables with
  | nil => rfl
  | cons first rest ih =>
    rw [List.map_cons, List.find?_cons, List.find?_cons, ih]
    by_cases here : first.name.toLower = name.toLower
    · have old : first.name.toLower ≠ other.toLower := fun same => different (same.symm.trans here)
      have new : newDef.name.toLower ≠ other.toLower := fun same => different (same.symm.trans named)
      rw [if_pos here, decide_eq_false new, decide_eq_false old]
    · rw [if_neg here]

theorem Elsewhere.updateTable (usable : Usable db) (found : db.getTable name = some table)
    (next : RowId) : Elsewhere name db (db.updateTable name { table with nextRowId := next }) where
  usable :=
    { toLayout := usable.toLayout.updateTable found next
      positive := usable.positive }
  entry := fun _ different => getTable_updateTable (getTable_mem found).2 different
  chain := fun _ _ _ _ => rfl
  disk := fun _ _ _ _ _ _ => rfl

variable {walCommits : Bool} {AllowedIn : TableDef → TransactionId → Record → Slot → Prop}
  {result : Outcome V × Database V}

theorem DmlStep.elsewhere (usable : Usable db)
    (step : DmlStep walCommits session name AllowedIn Logged db result) :
    Elsewhere name db result.2 := by
  obtain ⟨begun, tables, -⟩ := usable.statementTransaction name session
  cases step with
  | missing absent => exact .of_same usable rfl rfl rfl
  | @stopped table db' error found writes =>
    have found' := (getTable_statementTransaction session db name).trans found
    exact begun.trans (Write.run_elsewhere begun.usable found' writes).1
  | @finished table db' db'' outcome found writes catalog =>
    have found' := (getTable_statementTransaction session db name).trans found
    obtain ⟨written, listed⟩ := Write.run_elsewhere begun.usable found' writes
    have stored : Elsewhere name db' db'' := by
      rcases catalog with rfl | ⟨next, rfl⟩
      · exact .of_same written.usable rfl rfl rfl
      · exact .updateTable written.usable listed next
    exact ((begun.trans written).trans stored).trans (stored.usable.finishStatement _ _ _)

theorem executeInsert_elsewhere (usable : Usable db) (stmt : InsertStatement E) :
    Elsewhere stmt.tableName db (executeInsert qt ev walCommits session stmt db).2 :=
  (executeInsert_step qt ev usable.toLayout walCommits stmt).elsewhere usable

theorem executeDelete_elsewhere (usable : Usable db) (stmt : DeleteStatement E) :
    Elsewhere stmt.tableName db (executeDelete qt ev walCommits session stmt db).2 :=
  (executeDelete_step qt ev walCommits stmt).elsewhere usable

theorem executeUpdate_elsewhere (usable : Usable db) (stmt : UpdateStatement E) :
    Elsewhere stmt.tableName db (executeUpdate qt ev walCommits session stmt db).2 := by
  obtain ⟨-, -, valid⟩ := usable.statementTransaction stmt.tableName session
  exact (executeUpdate_step_any qt ev valid walCommits stmt).elsewhere usable

/-! ## ROLLBACK and VACUUM -/

/-- The same tables, with the same chains of pages. -/
structure SameChains (db db' : Database V) : Prop where
  usable : Usable db'
  tables : db'.tables = db.tables
  following : db'.following = db.following

theorem SameChains.getTable (same : SameChains db db') (name : Identifier) :
    db'.getTable name = db.getTable name := by
  rw [Database.getTable, Database.getTable, same.tables]

theorem SameChains.trans (first : SameChains db db') (second : SameChains db' db'') :
    SameChains db db'' where
  usable := second.usable
  tables := second.tables.trans first.tables
  following := second.following.trans first.following

theorem SameChains.setTxns (usable : Usable db) {txns : TransactionManager V}
    (more : db.txns.nextTxnId ≤ txns.nextTxnId) : SameChains db { db with txns } where
  usable := usable.setTxns more
  tables := rfl
  following := rfl

variable (qt session) in
theorem undoRecord_frame (usable : Usable db) (undo : UndoRecord V) :
    SameChains db (undoRecord qt session undo db).2 ∧
      ∀ p, p ≠ undo.pageId → (undoRecord qt session undo db).2.disk p = db.disk p := by
  have unchanged : SameChains db db := ⟨usable, rfl, rfl⟩
  rw [undoRecord]
  split
  · exact ⟨unchanged, fun _ _ => rfl⟩
  · split
    · exact ⟨unchanged, fun _ _ => rfl⟩
    · rename_i page onDisk
      split
      · exact ⟨unchanged, fun _ _ => rfl⟩
      · rename_i page' done
        refine ⟨⟨{ toLayout := usable.toLayout.writePage onDisk, positive := usable.positive },
          rfl, rfl⟩, fun p apart => ?_⟩
        exact Function.update_of_ne apart _ _

variable (qt session) in
theorem undoRecords_frame : ∀ (log : List (UndoRecord V)) {db : Database V}, Usable db →
    SameChains db (changeRows (undoRecord qt session) log db).2 ∧
      ∀ p, (∀ undo ∈ log, p ≠ undo.pageId) →
        (changeRows (undoRecord qt session) log db).2.disk p = db.disk p
  | [], _, usable => ⟨⟨usable, rfl, rfl⟩, fun _ _ => rfl⟩
  | undo :: rest, db, usable => by
      obtain ⟨here, disk⟩ := undoRecord_frame qt session usable undo
      obtain ⟨later, disk'⟩ := undoRecords_frame rest here.usable
      refine ⟨here.trans later, fun p apart => ?_⟩
      exact (disk' p fun undo' member => apart undo' (List.mem_cons_of_mem undo member)).trans
        (disk p (apart undo List.mem_cons_self))

/-- ROLLBACK touches the pages that its undo log names. -/
theorem executeRollback_frame (usable : Usable db) :
    SameChains db (executeRollback qt session db).2.2 ∧
      ∀ p, (∀ undo ∈ db.txns.undoLog session, p ≠ undo.pageId) →
        (executeRollback qt session db).2.2.disk p = db.disk p := by
  rw [executeRollback]
  split
  · exact ⟨⟨usable, rfl, rfl⟩, fun _ _ => rfl⟩
  · split
    · exact ⟨⟨usable, rfl, rfl⟩, fun _ _ => rfl⟩
    · obtain ⟨undone, disk⟩ := undoRecords_frame qt session
        (db.txns.undoLog session).reverse usable
      have kept := TransactionManager.nextTxnId_abort
        (changeRows (undoRecord qt session) (db.txns.undoLog session).reverse db).2.txns session
      refine ⟨undone.trans (.setTxns undone.usable (Nat.le_of_eq kept.symm)), fun p apart => ?_⟩
      exact disk p fun undo member => apart undo (List.mem_reverse.mp member)

/-- What slots contribute that VACUUM leaves alone. -/
theorem pageContents_cleanup {β : Type} {f : Slot → Option β} {txns : TransactionManager V}
    (spared : ∀ content, f (cleanupSlot txns content) = f content) :
    ∀ (chain : List PageId) (disk : PageId → Option TablePage) (p : PageId),
      pageContents f (cleanupPages txns chain disk).2 p = pageContents f disk p
  | [], _, _ => rfl
  | pageId :: rest, disk, p => by
      rw [cleanupPages]
      cases onDisk : disk pageId with
      | none => rfl
      | some page =>
        have later := pageContents_cleanup spared rest
          (Function.update disk pageId (some (cleanupPage txns page))) p
        refine later.trans ?_
        rw [pageContents, pageContents]
        by_cases same : p = pageId
        · subst same
          rw [Function.update_self, onDisk]
          show (page.slots.map (cleanupSlot txns)).filterMap f = page.slots.filterMap f
          rw [List.filterMap_map]
          exact List.filterMap_congr fun content _ => spared content
        · rw [Function.update_of_ne same]

theorem cleanupTable_frame (usable : Usable db) (table : TableDef) :
    SameChains db (cleanupTable table db).2 where
  usable :=
    { toLayout := usable.toLayout.of_domain (cleanupPages_disk db.txns (db.chain table) db.disk).1
        rfl rfl rfl
      positive := usable.positive }
  tables := rfl
  following := rfl

theorem cleanupTables_frame {β : Type} {f : Slot → Option β} {txns : TransactionManager V}
    (spared : ∀ content, f (cleanupSlot txns content) = f content) :
    ∀ (tables : List TableDef) {db : Database V}, db.txns = txns → Usable db →
      SameChains db (cleanupTables tables db).2 ∧
        ∀ p, pageContents f (cleanupTables tables db).2.disk p = pageContents f db.disk p
  | [], _, _, usable => ⟨⟨usable, rfl, rfl⟩, fun _ => rfl⟩
  | table :: rest, db, same, usable => by
      have here := cleanupTable_frame usable table
      obtain ⟨later, contents⟩ := cleanupTables_frame spared rest
        (show (cleanupTable table db).2.txns = txns from same) here.usable
      refine ⟨here.trans later, fun p => (contents p).trans ?_⟩
      subst same
      exact pageContents_cleanup spared (db.chain table) db.disk p

/-- VACUUM empties slots of dead records, and nothing else. -/
theorem executeVacuum_frame {β : Type} (f : Slot → Option β) (usable : Usable db)
    (spared : ∀ content, f (cleanupSlot db.txns content) = f content) (name : Option Identifier) :
    SameChains db (executeVacuum name db).2 ∧
      ∀ p, pageContents f (executeVacuum name db).2.disk p = pageContents f db.disk p := by
  cases name with
  | none => exact cleanupTables_frame spared db.tables rfl usable
  | some tableName =>
    rw [executeVacuum]
    split
    · exact ⟨⟨usable, rfl, rfl⟩, fun _ => rfl⟩
    · rename_i table found
      exact ⟨cleanupTable_frame usable table,
        pageContents_cleanup spared (db.chain table) db.disk⟩

/-! ## BEGIN and COMMIT -/

theorem executeBegin_frame (usable : Usable db) :
    SameChains db (executeBegin session db).2.2 ∧ (executeBegin session db).2.2.disk = db.disk := by
  rw [executeBegin]
  split
  · exact ⟨⟨usable, rfl, rfl⟩, rfl⟩
  · exact ⟨.setTxns usable (Nat.le_succ _), rfl⟩

theorem executeCommit_frame (usable : Usable db) :
    SameChains db (executeCommit walCommits session db).2.2 ∧
      (executeCommit walCommits session db).2.2.disk = db.disk := by
  have next := nextTxnId_commit db.txns walCommits session
  rw [executeCommit]
  split
  · exact ⟨⟨usable, rfl, rfl⟩, rfl⟩
  · split
    · exact ⟨⟨usable, rfl, rfl⟩, rfl⟩
    · split
      all_goals
        rename_i txns done
        rw [done] at next
        exact ⟨.setTxns usable (Nat.le_of_eq next.symm), rfl⟩

/-! ## CREATE TABLE and DROP TABLE -/

/-- A new table on a page of its own. -/
theorem Elsewhere.addTable (usable : Usable db) (table : TableDef) {free : List PageId}
    (page : TablePage) (next : db.freePages = table.firstPageId :: free)
    (absent : db.getTable table.name = none) :
    Elsewhere table.name db { db with
      disk := Function.update db.disk table.firstPageId (some page)
      following := Function.update db.following table.firstPageId []
      freePages := free
      tables := db.tables ++ [table] } := by
  have head : table.firstPageId ∈ db.freePages := by rw [next]; exact List.mem_cons_self
  refine ⟨⟨?_, usable.positive⟩, fun other different => ?_, fun other old _ found => ?_,
    fun other old _ found p inside => ?_⟩
  · exact usable.toLayout.addTable table page next (otherNames absent)
  · show (db.tables ++ [_]).find? _ = db.tables.find? _
    rw [List.find?_append, List.find?_singleton, if_neg (by simpa using Ne.symm different),
      Option.or_none]
  · have member := (getTable_mem found).1
    have distinct : old.firstPageId ≠ table.firstPageId := by
      intro same
      refine usable.toLayout.fresh head member ?_
      rw [← same]
      exact chain_mem_first (usable.first old member)
    simp only [Database.chain, Function.update_of_ne distinct]
  · have distinct : p ≠ table.firstPageId := by
      rintro rfl
      exact usable.toLayout.fresh head (getTable_mem found).1 inside
    exact Function.update_of_ne distinct _ _

variable (db) in
theorem executeCreateTable_elsewhere (usable : Usable db) (name : Identifier)
    (columns : List ColumnDef) : Elsewhere name db (executeCreateTable name columns db).2 := by
  rw [executeCreateTable]
  split
  · exact .of_same usable rfl rfl rfl
  · rename_i absent
    split
    · exact .of_same usable rfl rfl rfl
    · rename_i pageId free next
      exact .addTable usable { name, columns, firstPageId := pageId, nextRowId := 1 } .init next
        absent

variable (db) in
theorem executeDropTable_elsewhere (usable : Usable db) (name : Identifier) :
    Elsewhere name db (executeDropTable name db).2 := by
  rw [executeDropTable]
  split
  · exact .of_same usable rfl rfl rfl
  · refine ⟨⟨usable.toLayout.dropTables _, usable.positive⟩, fun other different => ?_,
      fun _ _ _ _ => rfl, fun _ _ _ _ _ _ => rfl⟩
    show (db.tables.filter _).find? _ = db.tables.find? _
    rw [List.find?_filter]
    congr 1
    funext table
    by_cases here : table.name.toLower = other.toLower
    · simp [here, different]
    · simp [here]

/-! ## All statements -/

/-- A statement that is not about the existence of tables. -/
def Statement.OnRows : Statement E → Prop
  | .createTable _ _ | .dropTable _ => False
  | _ => True

theorem execute_usable (usable : Usable db) (walCommits : Bool) (stmt : Statement E) :
    Usable (execute qt ev view walCommits session db stmt).2.2 := by
  cases stmt with
  | createTable name columns => exact (executeCreateTable_elsewhere db usable name columns).usable
  | dropTable name => exact (executeDropTable_elsewhere db usable name).usable
  | insert stmt => exact (executeInsert_elsewhere usable stmt).usable
  | update stmt => exact (executeUpdate_elsewhere usable stmt).usable
  | delete stmt => exact (executeDelete_elsewhere usable stmt).usable
  | select stmt => exact usable
  | begin => exact (executeBegin_frame usable).1.usable
  | commit => exact (executeCommit_frame usable).1.usable
  | rollback => exact (executeRollback_frame usable).1.usable
  | vacuum name =>
    have spared : ∀ content, (none : Option Unit) = (fun _ : Slot => none) content := fun _ => rfl
    exact (executeVacuum_frame (fun _ => none) usable spared name).1.usable

/-- Whatever statements were executed, a table has its pages to itself: they can be read, none comes
twice, and none will be handed out again. -/
theorem reachable_pages (reached : Reachable qt ev view db) (member : table ∈ db.tables) :
    (db.chain table).Nodup ∧ ∀ p ∈ db.chain table, db.disk p ≠ none ∧ p ∉ db.freePages ∧
      ∀ other ∈ db.tables, p ∈ db.chain other → other = table := by
  have layout := reached.sound.toLayout
  refine ⟨layout.nodup table member, fun p inside => ?_⟩
  have stored := layout.stored table member p inside
  exact ⟨stored, fun free => stored (layout.free p free), fun other among shared =>
    layout.disjoint other among table member p shared inside⟩

theorem reachable_pages_two : (Blobs.twoRows.chain Blobs.sample).Nodup :=
  (reachable_pages (Blobs.session_reachable _) (by decide +kernel)).1

end Frame

end QinDB.Executor
