/-
# Executor.Invariant — what writes keep

`Layout` is about pages: the chains of the tables are on disk, visit no page twice and
share none, and the pages that will be handed out next are not on disk. `Sound` adds
that every transaction a record header names has been handed out by this transaction
manager.

* `Write.sound`, `Write.run_sound`: elementary writes keep it.
-/
import QinDB.Executor.Managers
import QinDB.Executor.Writes

namespace QinDB.Executor

open QinDB.Core QinDB.Storage Relation

set_option autoImplicit false

section Definitions

variable {V : Type}

structure Layout (db : Database V) : Prop where
  names : ∀ t ∈ db.tables, ∀ t' ∈ db.tables, t.name.toLower = t'.name.toLower → t = t'
  first : ∀ t ∈ db.tables, t.firstPageId ≠ INVALID_PAGE_ID
  stored : ∀ t ∈ db.tables, ∀ p ∈ db.chain t, db.disk p ≠ none
  nodup : ∀ t ∈ db.tables, (db.chain t).Nodup
  disjoint : ∀ t ∈ db.tables, ∀ t' ∈ db.tables, ∀ p ∈ db.chain t, p ∈ db.chain t' → t = t'
  free : ∀ p ∈ db.freePages, db.disk p = none
  freeNodup : db.freePages.Nodup
  freeValid : INVALID_PAGE_ID ∉ db.freePages

/-- The transactions of a header are below a bound. -/
def RecordHeader.Below (bound : TransactionId) (header : RecordHeader) : Prop :=
  header.createTxnId < bound ∧ header.deleteTxnId < bound

structure Sound (db : Database V) : Prop extends Layout db where
  ids : ∀ p i record, db.slotAt p i = some record →
    RecordHeader.Below db.txns.nextTxnId record.header
  unknown : ∀ txnId, db.txns.nextTxnId ≤ txnId → db.txns.transactions txnId = none
  positive : INVALID_TXN_ID < db.txns.nextTxnId
  offsets : ∀ p page, db.disk p = some page → page.freeSpaceOffset ≤ PAGE_SIZE

end Definitions

section Layouts

variable {V : Type} {db db' : Database V}
variable {pageId : PageId} {free : List PageId}

theorem getTable_mem {name : Identifier} {table : TableDef}
    (found : db.getTable name = some table) :
    table ∈ db.tables ∧ table.name.toLower = name.toLower :=
  ⟨List.mem_of_find?_eq_some found, by simpa using List.find?_some found⟩

theorem chain_mem_first {table : TableDef} (valid : table.firstPageId ≠ INVALID_PAGE_ID) :
    table.firstPageId ∈ db.chain table := by
  rw [Database.chain, if_neg valid]
  exact List.mem_cons_self

/-- The layout looks at the disk only for which pages are there. -/
theorem Layout.of_domain (layout : Layout db) (domain : ∀ p, db'.disk p = none ↔ db.disk p = none)
    (following : db'.following = db.following) (free : db'.freePages = db.freePages)
    (tables : db'.tables = db.tables) : Layout db' := by
  have chain : ∀ t, db'.chain t = db.chain t := fun t => chain_congr following
  constructor
  · rw [tables]; exact layout.names
  · rw [tables]; exact layout.first
  · intro t member p inside missing
    rw [tables] at member
    rw [chain] at inside
    exact layout.stored t member p inside ((domain p).mp missing)
  · intro t member
    rw [tables] at member
    rw [chain]
    exact layout.nodup t member
  · intro t member t' member' p inside inside'
    rw [tables] at member member'
    rw [chain] at inside inside'
    exact layout.disjoint t member t' member' p inside inside'
  · intro p member
    rw [free] at member
    exact (domain p).mpr (layout.free p member)
  · rw [free]; exact layout.freeNodup
  · rw [free]; exact layout.freeValid

theorem writePage_domain {page page' : TablePage}
    (found : db.disk pageId = some page) (p : PageId) :
    (db.writePage pageId page').disk p = none ↔ db.disk p = none := by
  rw [Database.writePage]
  by_cases same : p = pageId
  · subst same
    simp only [Function.update_self, found, reduceCtorEq]
  · simp only [Function.update_of_ne same]

theorem Layout.writePage (layout : Layout db) {page page' : TablePage}
    (found : db.disk pageId = some page) : Layout (db.writePage pageId page') :=
  layout.of_domain (writePage_domain found) rfl rfl rfl

/-- A page about to be handed out is in no chain. -/
theorem Layout.fresh (layout : Layout db) (member : pageId ∈ db.freePages)
    {t : TableDef} (inTables : t ∈ db.tables) : pageId ∉ db.chain t :=
  fun inside => layout.stored t inTables pageId inside (layout.free pageId member)

theorem chain_appendPage {table : TableDef}
    (layout : Layout db) (inTables : table ∈ db.tables) {t : TableDef} (member : t ∈ db.tables) :
    (appendPage table pageId free db).chain t =
      if t = table then db.chain t ++ [pageId] else db.chain t := by
  have valid := layout.first table inTables
  have validT := layout.first t member
  by_cases same : t = table
  · subst same
    rw [if_pos rfl]
    simp only [Database.chain, appendPage, if_neg valid, Function.update_self, List.cons_append]
  · have distinct : t.firstPageId ≠ table.firstPageId := by
      intro eq
      apply same
      apply layout.disjoint t member table inTables t.firstPageId (chain_mem_first validT)
      rw [eq]
      exact chain_mem_first valid
    rw [if_neg same]
    simp only [Database.chain, appendPage, if_neg valid, if_neg validT,
      Function.update_of_ne distinct]

/-- One table gets a page that was free. -/
theorem Layout.growChain (layout : Layout db) (table : TableDef) (next : db.freePages = pageId :: free)
    (tables : db'.tables = db.tables) (rest : db'.freePages = free)
    (disk : ∀ p, db'.disk p = none ↔ db.disk p = none ∧ p ≠ pageId)
    (others : ∀ t ∈ db.tables, t ≠ table → db'.chain t = db.chain t)
    (grown : (db'.chain table).Perm (pageId :: db.chain table)) : Layout db' := by
  have head : pageId ∈ db.freePages := by rw [next]; exact List.mem_cons_self
  have split := layout.freeNodup
  rw [next, List.nodup_cons] at split
  have chain : ∀ t ∈ db.tables, ∀ p ∈ db'.chain t, p ∈ db.chain t ∨ (t = table ∧ p = pageId) := by
    intro t member p inside
    by_cases same : t = table
    · subst same
      rcases List.mem_cons.mp (grown.mem_iff.mp inside) with new | old
      · exact .inr ⟨rfl, new⟩
      · exact .inl old
    · rw [others t member same] at inside
      exact .inl inside
  constructor
  · rw [tables]; exact layout.names
  · rw [tables]; exact layout.first
  · intro t member p inside missing
    rw [tables] at member
    obtain ⟨missing, distinct⟩ := (disk p).mp missing
    rcases chain t member p inside with old | ⟨-, new⟩
    · exact layout.stored t member p old missing
    · exact distinct new
  · intro t member
    rw [tables] at member
    by_cases same : t = table
    · subst same
      exact grown.nodup_iff.mpr (List.nodup_cons.mpr ⟨layout.fresh head member, layout.nodup t member⟩)
    · rw [others t member same]
      exact layout.nodup t member
  · intro t member t' member' p inside inside'
    rw [tables] at member member'
    rcases chain t member p inside with old | ⟨same, isNew⟩
    · rcases chain t' member' p inside' with old' | ⟨same', isNew'⟩
      · exact layout.disjoint t member t' member' p old old'
      · exact absurd (isNew' ▸ old) (layout.fresh head member)
    · rcases chain t' member' p inside' with old' | ⟨same', isNew'⟩
      · exact absurd (isNew ▸ old') (layout.fresh head member')
      · rw [same, same']
  · intro p member
    rw [rest] at member
    have distinct : p ≠ pageId := fun same => split.1 (same ▸ member)
    exact (disk p).mpr ⟨layout.free p (by rw [next]; exact List.mem_cons_of_mem pageId member),
      distinct⟩
  · rw [rest]; exact split.2
  · rw [rest]
    intro member
    apply layout.freeValid
    rw [next]
    exact List.mem_cons_of_mem pageId member

/-- A page that is written was missing before, or is there already. -/
theorem update_domain (disk : PageId → Option TablePage) (pageId p : PageId) (page : TablePage) :
    Function.update disk pageId (some page) p = none ↔ disk p = none ∧ p ≠ pageId := by
  by_cases same : p = pageId
  · subst same
    simp
  · simp [same]

theorem Layout.appendPage {table : TableDef} (layout : Layout db) (inTables : table ∈ db.tables)
    (next : db.freePages = pageId :: free) : Layout (appendPage table pageId free db) := by
  refine layout.growChain table next rfl rfl (fun p => update_domain ..) ?_ ?_
  · intro t member distinct
    rw [chain_appendPage layout inTables member, if_neg distinct]
  · rw [chain_appendPage layout inTables inTables, if_pos rfl]
    exact List.perm_append_singleton pageId _

/-- A page may be taken and used for no table. -/
theorem Layout.takePage (layout : Layout db)
    (page : TablePage) (next : db.freePages = pageId :: free) :
    Layout { db.writePage pageId page with freePages := free } := by
  have split := layout.freeNodup
  rw [next, List.nodup_cons] at split
  have later : ∀ p ∈ free, p ∈ db.freePages := fun p member => by
    rw [next]
    exact List.mem_cons_of_mem pageId member
  refine ⟨layout.names, layout.first, fun t member p inside missing => ?_, layout.nodup,
    layout.disjoint, fun p member => ?_, split.2, fun member => layout.freeValid (later _ member)⟩
  · refine layout.stored t member p inside ?_
    by_cases same : p = pageId
    · subst same
      simp only [Database.writePage, Function.update_self, reduceCtorEq] at missing
    · simpa only [Database.writePage, Function.update_of_ne same] using missing
  · have distinct : p ≠ pageId := fun same => split.1 (same ▸ member)
    simp only [Database.writePage, Function.update_of_ne distinct]
    exact layout.free p (later p member)

/-- A new table starts on a page that no other table uses. -/
theorem Layout.addTable (layout : Layout db) (table : TableDef)
    (page : TablePage) (next : db.freePages = table.firstPageId :: free)
    (newName : ∀ t ∈ db.tables, t.name.toLower ≠ table.name.toLower) :
    Layout { db with
      disk := Function.update db.disk table.firstPageId (some page)
      following := Function.update db.following table.firstPageId []
      freePages := free
      tables := db.tables ++ [table] } := by
  have head : table.firstPageId ∈ db.freePages := by rw [next]; exact List.mem_cons_self
  have split := layout.freeNodup
  rw [next, List.nodup_cons] at split
  have valid : table.firstPageId ≠ INVALID_PAGE_ID := fun same => layout.freeValid (same ▸ head)
  have otherFirst : ∀ t ∈ db.tables, t.firstPageId ≠ table.firstPageId := by
    intro t member same
    exact layout.fresh head member (same ▸ chain_mem_first (layout.first t member))
  let db' : Database V :=
    { db with
      disk := Function.update db.disk table.firstPageId (some page)
      following := Function.update db.following table.firstPageId []
      freePages := free
      tables := db.tables ++ [table] }
  have oldChain : ∀ t ∈ db.tables, db'.chain t = db.chain t := by
    intro t member
    simp only [db', Database.chain, Function.update_of_ne (otherFirst t member)]
  have newChain : db'.chain table = [table.firstPageId] := by
    simp only [db', Database.chain, if_neg valid, Function.update_self]
  have tables : ∀ t ∈ db'.tables, t ∈ db.tables ∨ t = table := by
    intro t member
    rcases List.mem_append.mp member with old | new
    · exact .inl old
    · exact .inr (List.mem_singleton.mp new)
  constructor
  · intro t member t' member' same
    rcases tables t member with old | rfl
    · rcases tables t' member' with old' | rfl
      · exact layout.names t old t' old' same
      · exact absurd same (newName t old)
    · rcases tables t' member' with old' | rfl
      · exact absurd same.symm (newName t' old')
      · rfl
  · intro t member
    rcases tables t member with old | rfl
    · exact layout.first t old
    · exact valid
  · intro t member p inside gone
    by_cases same : p = table.firstPageId
    · subst same
      simp only [Function.update_self, reduceCtorEq] at gone
    · simp only [Function.update_of_ne same] at gone
      rcases tables t member with old | rfl
      · exact layout.stored t old p (oldChain t old ▸ inside) gone
      · exact same (List.mem_singleton.mp (newChain ▸ inside))
  · intro t member
    rcases tables t member with old | rfl
    · exact (oldChain t old).symm ▸ layout.nodup t old
    · exact newChain.symm ▸ List.nodup_singleton _
  · intro t member t' member' p inside inside'
    rcases tables t member with old | rfl
    · have inOld : p ∈ db.chain t := oldChain t old ▸ inside
      rcases tables t' member' with old' | rfl
      · exact layout.disjoint t old t' old' p inOld (oldChain t' old' ▸ inside')
      · have same := List.mem_singleton.mp (newChain ▸ inside')
        exact absurd (same ▸ inOld) (layout.fresh head old)
    · have same := List.mem_singleton.mp (newChain ▸ inside)
      rcases tables t' member' with old' | rfl
      · have inOld : p ∈ db.chain t' := oldChain t' old' ▸ inside'
        exact absurd (same ▸ inOld) (layout.fresh head old')
      · rfl
  · intro p member
    have distinct : p ≠ table.firstPageId := fun same => split.1 (same ▸ member)
    simp only [Function.update_of_ne distinct]
    exact layout.free p (by rw [next]; exact List.mem_cons_of_mem _ member)
  · exact split.2
  · intro member
    exact layout.freeValid (by rw [next]; exact List.mem_cons_of_mem _ member)

end Layouts

/-! ## Transactions that were handed out -/

section Managers

variable {V : Type} {manager manager' : TransactionManager V}

/-- The manager knows no identifier that it has not handed out. -/
def Bounded (manager : TransactionManager V) : Prop :=
  ∀ txnId, manager.nextTxnId ≤ txnId → manager.transactions txnId = none

theorem Bounded.begin (bounded : Bounded manager) : Bounded manager.beginTransaction.2 := by
  intro txnId beyond
  have later : manager.nextTxnId + 1 ≤ txnId := beyond
  have distinct : txnId ≠ manager.nextTxnId := Nat.ne_of_gt later
  simp only [TransactionManager.beginTransaction, Function.update_of_ne distinct]
  exact bounded txnId (Nat.le_of_succ_le later)

theorem Bounded.finish {txnId : TransactionId} {state : TransactionState}
    (bounded : Bounded manager) (done : manager.finish txnId state = some manager') :
    Bounded manager' := by
  intro other beyond
  rw [(TransactionManager.finish_some done).2.1] at beyond
  have missing := bounded other beyond
  rw [TransactionManager.finish] at done
  split at done
  · cases done
  · rename_i txn found
    split at done
    · cases done
      have distinct : other ≠ txnId := by
        intro same
        rw [same, found] at missing
        cases missing
      simp only [Function.update_of_ne distinct]
      exact missing
    · cases done

theorem Bounded.abort (bounded : Bounded manager) (txnId : TransactionId) :
    Bounded (manager.abortTransaction txnId).2 := by
  rw [TransactionManager.abortTransaction]
  split
  · exact bounded
  · rename_i done
    exact bounded.finish done

theorem Bounded.commit (bounded : Bounded manager) (walCommits : Bool) (txnId : TransactionId) :
    Bounded (manager.commitTransaction walCommits txnId).2 := by
  rw [TransactionManager.commitTransaction]
  split
  · exact bounded
  · rename_i done
    exact bounded.finish done

theorem Bounded.addUndoRecord (bounded : Bounded manager) (txnId : TransactionId)
    (undo : UndoRecord V) : Bounded (manager.addUndoRecord txnId undo) := by
  intro other beyond
  rw [TransactionManager.nextTxnId_addUndoRecord] at beyond
  have missing := bounded other beyond
  rw [TransactionManager.addUndoRecord]
  split
  · exact missing
  · rename_i txn found
    split
    · have distinct : other ≠ txnId := by
        intro same
        rw [same, found] at missing
        cases missing
      simp only [Function.update_of_ne distinct]
      exact missing
    · exact missing

end Managers

/-! ## Writes keep the database sound -/

section Sounds

variable {V : Type} {db : Database V}

theorem InNameOf.bounded {txnId : TransactionId} {ended : Prop}
    {manager manager' : TransactionManager V} (run : InNameOf txnId ended manager manager')
    (bounded : Bounded manager) : Bounded manager' := by
  induction run with
  | refl => exact bounded
  | log _ undo ih => exact ih.addUndoRecord txnId undo
  | abort _ _ ih => exact ih.abort txnId
  | commit _ _ walCommits ih => exact ih.commit walCommits txnId

theorem RecordHeader.Below.mono {bound bound' : TransactionId} {header : RecordHeader}
    (below : RecordHeader.Below bound header) (le : bound ≤ bound') :
    RecordHeader.Below bound' header :=
  ⟨Nat.lt_of_lt_of_le below.1 le, Nat.lt_of_lt_of_le below.2 le⟩

theorem Sound.setTxns (sound : Sound db) {txns : TransactionManager V}
    (le : db.txns.nextTxnId ≤ txns.nextTxnId) (bounded : Bounded txns) :
    Sound { db with txns } where
  toLayout := sound.toLayout.of_domain (fun _ => Iff.rfl) rfl rfl rfl
  ids := fun p i record found => (sound.ids p i record found).mono le
  unknown := bounded
  positive := Nat.lt_of_lt_of_le sound.positive le
  offsets := sound.offsets

theorem Sound.abortTransaction (sound : Sound db) (txnId : TransactionId) :
    Sound (db.abortTransaction txnId) :=
  sound.setTxns (Nat.le_of_eq (TransactionManager.nextTxnId_abort ..).symm)
    (Bounded.abort sound.unknown txnId)

theorem Sound.addUndoRecord (sound : Sound db) (txnId : TransactionId) (undo : UndoRecord V) :
    Sound (db.addUndoRecord txnId undo) :=
  sound.setTxns (Nat.le_of_eq (TransactionManager.nextTxnId_addUndoRecord ..).symm)
    (Bounded.addUndoRecord sound.unknown txnId undo)

/-- Record areas stay inside their pages when a page is replaced by such a page. -/
theorem writePage_offsets
    (offsets : ∀ p page, db.disk p = some page → page.freeSpaceOffset ≤ PAGE_SIZE)
    (pageId : PageId) {page' : TablePage} (bounded : page'.freeSpaceOffset ≤ PAGE_SIZE)
    (p : PageId) (page : TablePage) (onDisk : (db.writePage pageId page').disk p = some page) :
    page.freeSpaceOffset ≤ PAGE_SIZE := by
  rw [Database.writePage] at onDisk
  by_cases same : p = pageId
  · subst same
    simp only [Function.update_self] at onDisk
    cases onDisk
    exact bounded
  · simp only [Function.update_of_ne same] at onDisk
    exact offsets p page onDisk

/-- Filling a slot with a record of known transactions. -/
theorem Sound.setSlot (sound : Sound db) {pageId : PageId} {page : TablePage} {index : Nat}
    {content : Slot} (found : db.disk pageId = some page) (inside : index < page.slots.length)
    (below : ∀ record, content = some record →
      RecordHeader.Below db.txns.nextTxnId record.header) :
    Sound (db.writePage pageId (page.setSlot index content)) where
  toLayout := sound.toLayout.writePage found
  ids := by
    intro p i record occupied
    rw [slotAt_setSlot found inside] at occupied
    split at occupied
    · exact below record occupied
    · exact sound.ids p i record occupied
  unknown := sound.unknown
  positive := sound.positive
  offsets := writePage_offsets sound.offsets pageId (sound.offsets pageId page found)

theorem Sound.appendSlot (sound : Sound db) {pageId : PageId} {page : TablePage} {content : Slot}
    {offset : Nat} (found : db.disk pageId = some page) (bounded : offset ≤ PAGE_SIZE)
    (below : ∀ record, content = some record →
      RecordHeader.Below db.txns.nextTxnId record.header) :
    Sound (db.writePage pageId ⟨page.slots ++ [content], offset⟩) where
  toLayout := sound.toLayout.writePage found
  ids := by
    intro p i record occupied
    rw [slotAt_append found] at occupied
    split at occupied
    · exact below record occupied
    · exact sound.ids p i record occupied
  unknown := sound.unknown
  positive := sound.positive
  offsets := writePage_offsets sound.offsets pageId bounded

/-- A page that was not on disk is still without records when it has been initialised. -/
theorem slotAt_newPage {db' : Database V} {pageId : PageId} (missing : db.disk pageId = none)
    (p : PageId) (i : Nat)
    (new : db'.disk = Function.update db.disk pageId (some .init)) :
    db'.slotAt p i = db.slotAt p i := by
  rw [Database.slotAt, Database.slotAt, new]
  by_cases same : p = pageId
  · subst same
    simp only [Function.update_self, missing]
    exact TablePage.slot_eq_none_of_length_le (Nat.zero_le i)
  · simp only [Function.update_of_ne same]

theorem Sound.appendPage (sound : Sound db) {table : TableDef} {pageId : PageId}
    {free : List PageId} (inTables : table ∈ db.tables) (next : db.freePages = pageId :: free) :
    Sound (appendPage table pageId free db) where
  toLayout := sound.toLayout.appendPage inTables next
  ids := by
    intro p i record occupied
    have missing := sound.free pageId (by rw [next]; exact List.mem_cons_self)
    rw [slotAt_newPage missing p i rfl] at occupied
    exact sound.ids p i record occupied
  unknown := sound.unknown
  positive := sound.positive
  offsets := writePage_offsets sound.offsets pageId (Nat.le_refl PAGE_SIZE)

/-- Slot changes that keep the creator and put no mark but that of `txnId`. -/
def KeepsIds (txnId : TransactionId) (Allowed : Record → Slot → Prop) : Prop :=
  ∀ record content, Allowed record content → ∀ record', content = some record' →
    record'.header.createTxnId = record.header.createTxnId ∧
      (record'.header.deleteTxnId = INVALID_TXN_ID ∨ record'.header.deleteTxnId = txnId)

theorem NoChange.keepsIds (txnId : TransactionId) : KeepsIds txnId NoChange :=
  fun _ _ impossible => impossible.elim

theorem Marks.keepsIds (txnId : TransactionId) : KeepsIds txnId (Marks txnId) := by
  rintro record content ⟨-, rfl⟩ record' same
  cases same
  exact ⟨rfl, .inr rfl⟩

theorem Updates.keepsIds (qt : Variant V) (columns : List ColumnDef) (txnId : TransactionId)
    (May : TransactionId → Prop) : KeepsIds txnId (Updates qt columns txnId May) := by
  rintro record content (mark | ⟨-, -, values, header, data, encoded, -, rfl⟩) record' same
  · exact Marks.keepsIds txnId record content mark record' same
  · rw [(slotOf_some same).1]
    obtain ⟨-, creator, unmarked, -, -⟩ := serializeRecord_some encoded
    exact ⟨creator, .inl unmarked⟩

variable {table : TableDef} {txnId : TransactionId} {Allowed : Record → Slot → Prop}
  {Logged : Database V → UndoRecord V → Prop} {db' : Database V}

/-- What a write leaves alone: the catalog and the identifiers handed out. -/
theorem Write.frame (write : Write table txnId Allowed Logged db db') :
    db'.tables = db.tables ∧ db'.txns.nextTxnId = db.txns.nextTxnId := by
  cases write with
  | log undo => exact ⟨rfl, TransactionManager.nextTxnId_addUndoRecord ..⟩
  | abort => exact ⟨rfl, TransactionManager.nextTxnId_abort ..⟩
  | _ => exact ⟨rfl, rfl⟩

theorem Write.sound (keeps : KeepsIds txnId Allowed) (known : txnId < db.txns.nextTxnId)
    (inTables : table ∈ db.tables) (sound : Sound db)
    (write : Write table txnId Allowed Logged db db') : Sound db' := by
  cases write with
  | change pageId index inChain found slot allowed =>
    refine sound.setSlot found (TablePage.slot_lt slot) fun record' same => ?_
    have old := sound.ids pageId index _ (by rw [slotAt_of_disk found, slot])
    obtain ⟨creator, mark⟩ := keeps _ _ allowed record' same
    refine ⟨by rw [creator]; exact old.1, ?_⟩
    rcases mark with unmarked | own
    · rw [unmarked]; exact sound.positive
    · rw [own]; exact known
  | append pageId content offset inChain found bounded created =>
    refine sound.appendSlot found bounded fun record same => ?_
    obtain ⟨creator, unmarked⟩ := created record same
    exact ⟨by rw [creator]; exact known, by rw [unmarked]; exact sound.positive⟩
  | extend pageId next => exact sound.appendPage inTables next
  | log undo logged => exact sound.addUndoRecord txnId undo
  | abort => exact sound.abortTransaction txnId
  | rowId next =>
    exact { toLayout := sound.toLayout.of_domain (fun _ => Iff.rfl) rfl rfl rfl
            ids := sound.ids, unknown := sound.unknown, positive := sound.positive
            offsets := sound.offsets }

/-- The same for any number of writes. -/
theorem Write.run_sound (keeps : KeepsIds txnId Allowed) (known : txnId < db.txns.nextTxnId)
    (inTables : table ∈ db.tables) (sound : Sound db)
    (writes : ReflTransGen (Write table txnId Allowed Logged) db db') :
    Sound db' ∧ db'.tables = db.tables ∧ db'.txns.nextTxnId = db.txns.nextTxnId := by
  induction writes with
  | refl => exact ⟨sound, rfl, rfl⟩
  | tail _ write ih =>
    obtain ⟨sound', tables, next⟩ := ih
    obtain ⟨tables', next'⟩ := write.frame
    exact ⟨write.sound keeps (by rw [next]; exact known) (by rw [tables]; exact inTables) sound',
      tables'.trans tables, next'.trans next⟩

end Sounds

end QinDB.Executor
