/-
# Storage.Vacuum — removing deleted records

`VacuumWorker::cleanupTable` on the bytes of pages: it walks the chain of a table, reads the header
of every record and writes zeros over the slots of those that a committed transaction created and
a committed transaction deleted (`vacuum.cpp`). A reader walks the same chain and takes the records
its visibility check lets through.

The slots of a page are bytes of it, so a record that reaches into them changes with them.

* `Reduced`: a page of which only slots of removable records were emptied.
* `cleanupTable_invisible`: on chains that end, with records behind the slots of their pages,
  every reader scans the same rows before and after.
* `overlapping_row_altered`: a record that lies on the slots of its page.
-/
import QinDB.Storage.RecordBytes
import QinDB.Storage.Transaction

namespace QinDB.Storage

open QinDB.Core QinDB.Base

set_option autoImplicit false

/-- The bytes of a page. -/
abbrev PageImage := Nat → UInt8

abbrev PageImages := PageId → Option PageImage

namespace PageImage

def number (page : PageImage) (offset width : Nat) : Nat :=
  LittleEndian.decode (Memory.read page offset width)

def slotCount (page : PageImage) : Nat := page.number 2 2

def nextPageId (page : PageImage) : PageId := page.number 12 4

/-- The slots follow the header. -/
def slotOffset (index : Nat) : Nat := PAGE_HEADER_SIZE + index * SLOT_SIZE

/-- Offset and length of a record. -/
def slotAt (page : PageImage) (index : Nat) : Nat × Nat :=
  (page.number (slotOffset index) 2, page.number (slotOffset index + 2) 2)

/-- `PageType::TABLE_PAGE` is 3. -/
def toRaw (page : PageImage) : RawPage where
  isTablePage := page 0 == 3
  slots := (List.range page.slotCount).map page.slotAt
  freeSpaceOffset := page.number 4 2
  bytes := page

def recordHeader (page : PageImage) (slot : Nat × Nat) : RecordHeader :=
  readRecordHeader (Memory.read page slot.1 slot.2)

/-- Records lie inside the page. -/
def Inside (page : PageImage) : Prop :=
  ∀ index < page.slotCount, (page.slotAt index).2 ≠ 0 →
    (page.slotAt index).1 + (page.slotAt index).2 ≤ PAGE_SIZE

/-- Records lie inside the page and behind its slots. -/
def Separate (page : PageImage) : Prop :=
  page.Inside ∧ ∀ index < page.slotCount, (page.slotAt index).2 ≠ 0 →
    slotOffset page.slotCount ≤ (page.slotAt index).1

instance (page : PageImage) : Decidable page.Inside := inferInstanceAs (Decidable (∀ _, _))

instance (page : PageImage) : Decidable page.Separate := inferInstanceAs (Decidable (_ ∧ _))

def clearSlot (page : PageImage) (index : Nat) : PageImage :=
  Memory.write page (slotOffset index) [0, 0, 0, 0]

end PageImage

/-! ## The worker -/

section Worker

variable {V : Type} (txns : TransactionManager V)

/-- A slot that is neither empty nor too short for a header. -/
def isRemovable (page : PageImage) (slot : Nat × Nat) : Bool :=
  if slot.2 = 0 then false
  else if slot.2 < RECORD_HEADER_SIZE then false
  else txns.canDelete (page.recordHeader slot)

def slotsToDelete (page : PageImage) : List Nat :=
  (List.range page.slotCount).filter fun index => isRemovable txns page (page.slotAt index)

/-- The slots are first collected and then emptied, the last one first. -/
def cleanupPage (page : PageImage) : PageImage :=
  (slotsToDelete txns page).reverse.foldl PageImage.clearSlot page

/-- The loop over the chain, cut off after a number of pages. -/
def cleanupTable : Nat → PageImages → PageId → Option (Nat × PageImages)
  | 0, _, _ => none
  | fuel + 1, pages, current =>
      if current = INVALID_PAGE_ID then some (0, pages)
      else
        match pages current with
        | none => some (0, pages)
        | some page =>
            (cleanupTable fuel (Function.update pages current (some (cleanupPage txns page)))
              (cleanupPage txns page).nextPageId).map fun (deletedCount, after) =>
                ((slotsToDelete txns page).length + deletedCount, after)

variable (qt : Variant V) (columns : List ColumnDef) (reader : TransactionId)

/-- The records of a page that a reader sees. -/
def visibleRecords (page : PageImage) : List (List V) :=
  ((page.toRaw.getAllRecords qt columns).filter fun record =>
    txns.isVisible record.1 reader).map Prod.snd

/-- A full scan of the chain. -/
def scanTable : Nat → PageImages → PageId → Option (List (List V))
  | 0, _, _ => none
  | fuel + 1, pages, current =>
      if current = INVALID_PAGE_ID then some []
      else
        match pages current with
        | none => some []
        | some page =>
            (scanTable fuel pages page.nextPageId).map
              (visibleRecords txns qt columns reader page ++ ·)

end Worker

/-- The pages of a chain that ends, at the invalid number or at a page that cannot be fetched. -/
inductive PageChain (pages : PageImages) : PageId → List PageId → Prop where
  | ended {current : PageId} (last : current = INVALID_PAGE_ID ∨ pages current = none) :
      PageChain pages current []
  | page {current : PageId} {page : PageImage} {rest : List PageId}
      (valid : current ≠ INVALID_PAGE_ID) (found : pages current = some page)
      (later : PageChain pages page.nextPageId rest) : PageChain pages current (current :: rest)

/-! ## Slots -/

namespace PageImage

variable {page : PageImage} {index other : Nat} {indexes : List Nat}

theorem read_clearSlot {start count : Nat}
    (apart : slotOffset index + 4 ≤ start ∨ start + count ≤ slotOffset index) :
    Memory.read (page.clearSlot index) start count = Memory.read page start count :=
  Memory.read_write_apart page apart

theorem slotAt_clearSlot :
    (page.clearSlot index).slotAt other = if other = index then (0, 0) else page.slotAt other := by
  split
  · rename_i same
    subst same
    -- The two halves of the slot are written one after the other.
    have halves : page.clearSlot other =
        Memory.write (Memory.write page (slotOffset other) [0, 0]) (slotOffset other + 2) [0, 0] :=
      Memory.write_append page (slotOffset other) [0, 0] [0, 0]
    have first : Memory.read (page.clearSlot other) (slotOffset other) 2 = [0, 0] := by
      rw [halves, Memory.read_write_apart _ (.inr (Nat.le_refl _))]
      exact Memory.read_write page (slotOffset other) [0, 0]
    have second : Memory.read (page.clearSlot other) (slotOffset other + 2) 2 = [0, 0] := by
      rw [halves]
      exact Memory.read_write _ (slotOffset other + 2) [0, 0]
    rw [slotAt, number, number, first, second]
    rfl
  · rename_i different
    have apart : slotOffset index + 4 ≤ slotOffset other ∨
        slotOffset other + 4 ≤ slotOffset index := by
      simp only [slotOffset, SLOT_SIZE]
      omega
    rw [slotAt, number, number, read_clearSlot (by omega), read_clearSlot (by omega)]
    rfl

theorem slotAt_clearSlots : (indexes.foldl clearSlot page).slotAt other =
    if other ∈ indexes then (0, 0) else page.slotAt other := by
  induction indexes generalizing page with
  | nil => rfl
  | cons index indexes ih =>
    rw [List.foldl_cons, ih, slotAt_clearSlot]
    simp only [List.mem_cons]
    split_ifs <;> simp_all

theorem read_clearSlots {start count : Nat}
    (apart : ∀ index ∈ indexes, slotOffset index + 4 ≤ start ∨ start + count ≤ slotOffset index) :
    Memory.read (indexes.foldl clearSlot page) start count = Memory.read page start count := by
  induction indexes generalizing page with
  | nil => rfl
  | cons index indexes ih =>
    rw [List.foldl_cons, ih fun other inside => apart other (List.mem_cons_of_mem _ inside)]
    exact read_clearSlot (apart index List.mem_cons_self)

end PageImage

/-! ## Pages that were cleaned -/

section Cleaned

variable {V : Type} {txns : TransactionManager V} {page page' page'' : PageImage}

/-- Only slots of removable records were emptied. -/
structure Reduced (txns : TransactionManager V) (page page' : PageImage) : Prop where
  slotCount : page'.slotCount = page.slotCount
  nextPageId : page'.nextPageId = page.nextPageId
  behind : ∀ start count, PageImage.slotOffset page.slotCount ≤ start →
    Memory.read page' start count = Memory.read page start count
  slots : ∀ index < page.slotCount, page'.slotAt index = page.slotAt index ∨
    page'.slotAt index = (0, 0) ∧ isRemovable txns page (page.slotAt index) = true

theorem cleanupPage_reduced (page : PageImage) : Reduced txns page (cleanupPage txns page) := by
  have inside : ∀ index ∈ (slotsToDelete txns page).reverse, index < page.slotCount ∧
      isRemovable txns page (page.slotAt index) = true := by
    intro index doomed
    rw [List.mem_reverse, slotsToDelete, List.mem_filter, List.mem_range] at doomed
    exact doomed
  -- The header lies before all slots.
  have header : ∀ start count, start + count ≤ PAGE_HEADER_SIZE →
      Memory.read (cleanupPage txns page) start count = Memory.read page start count := by
    intro start count before
    refine PageImage.read_clearSlots fun index _ => .inr ?_
    rw [PageImage.slotOffset]
    omega
  refine ⟨congrArg LittleEndian.decode (header 2 2 (by decide)),
    congrArg LittleEndian.decode (header 12 4 (by decide)), ?_, ?_⟩
  · intro start count behind
    refine PageImage.read_clearSlots fun index doomed => .inl (Nat.le_trans ?_ behind)
    have := (inside index doomed).1
    simp only [PageImage.slotOffset, SLOT_SIZE]
    omega
  · intro index _
    rw [cleanupPage, PageImage.slotAt_clearSlots]
    split
    · rename_i doomed
      exact .inr ⟨rfl, (inside index doomed).2⟩
    · exact .inl rfl

theorem isRemovable_nonempty {slot : Nat × Nat} (removable : isRemovable txns page slot = true) :
    slot.2 ≠ 0 := by
  intro empty
  rw [isRemovable, if_pos empty] at removable
  cases removable

/-- The record of a slot that was not emptied. -/
theorem Reduced.read_record (reduced : Reduced txns page page') (separate : page.Separate)
    {index : Nat} (inside : index < page.slotCount) (nonempty : (page.slotAt index).2 ≠ 0) :
    Memory.read page' (page.slotAt index).1 (page.slotAt index).2 =
      Memory.read page (page.slotAt index).1 (page.slotAt index).2 :=
  reduced.behind _ _ (separate.2 index inside nonempty)

theorem Reduced.separate (reduced : Reduced txns page page') (separate : page.Separate) :
    page'.Separate := by
  have kept : ∀ index < page.slotCount, (page'.slotAt index).2 ≠ 0 →
      page'.slotAt index = page.slotAt index := by
    intro index inside nonempty
    rcases reduced.slots index inside with same | ⟨empty, -⟩
    · exact same
    · exact absurd (congrArg Prod.snd empty) nonempty
  simp only [PageImage.Separate, PageImage.Inside, reduced.slotCount]
  constructor
  · intro index inside nonempty
    have same := kept index inside nonempty
    rw [same] at nonempty ⊢
    exact separate.1 index inside nonempty
  · intro index inside nonempty
    have same := kept index inside nonempty
    rw [same] at nonempty ⊢
    exact separate.2 index inside nonempty

theorem Reduced.trans (first : Reduced txns page page') (second : Reduced txns page' page'')
    (separate : page.Separate) : Reduced txns page page'' where
  slotCount := second.slotCount.trans first.slotCount
  nextPageId := second.nextPageId.trans first.nextPageId
  behind start count after := by
    rw [second.behind start count (first.slotCount ▸ after), first.behind start count after]
  slots index inside := by
    rcases first.slots index inside with same | ⟨empty, removable⟩
    · rcases second.slots index (first.slotCount ▸ inside) with same' | ⟨empty', removable'⟩
      · exact .inl (same'.trans same)
      · refine .inr ⟨empty', ?_⟩
        rw [same] at removable'
        have bytes := first.read_record separate inside (isRemovable_nonempty removable')
        rwa [isRemovable, PageImage.recordHeader, bytes] at removable'
    · rcases second.slots index (first.slotCount ▸ inside) with same' | ⟨empty', -⟩
      · exact .inr ⟨same'.trans empty, removable⟩
      · exact .inr ⟨empty', removable⟩

variable {qt : Variant V} {columns : List ColumnDef} {reader : TransactionId}

theorem visibleRecords_eq (page : PageImage) : visibleRecords txns qt columns reader page =
    ((List.range page.slotCount).filterMap fun index =>
      (page.toRaw.readRecord qt columns (page.slotAt index)).filter fun record =>
        txns.isVisible record.1 reader).map Prod.snd := by
  rw [visibleRecords, RawPage.getAllRecords, List.filter_filterMap]
  simp only [PageImage.toRaw, List.filterMap_map]
  rfl

/-- A record that may be removed is seen by nobody. -/
theorem readRecord_removable {slot : Nat × Nat} (removable : isRemovable txns page slot = true) :
    (page.toRaw.readRecord qt columns slot).filter (fun record =>
      txns.isVisible record.1 reader) = none := by
  rw [Option.filter_eq_none_iff]
  intro record read
  have header : record.1 = page.recordHeader slot := by
    rw [RawPage.readRecord] at read
    split_ifs at read
    obtain ⟨row, -, rfl⟩ := Option.map_eq_some_iff.mp read
    rfl
  rw [isRemovable] at removable
  split_ifs at removable
  rw [header, TransactionManager.isVisible_of_canDelete removable reader]
  exact Bool.false_ne_true

/-- Every reader sees the same records of a page that was cleaned. -/
theorem Reduced.visibleRecords (reduced : Reduced txns page page') (separate : page.Separate) :
    visibleRecords txns qt columns reader page' = visibleRecords txns qt columns reader page := by
  rw [visibleRecords_eq, visibleRecords_eq, reduced.slotCount]
  congr 1
  refine List.filterMap_congr fun index inside => ?_
  rw [List.mem_range] at inside
  rcases reduced.slots index inside with same | ⟨empty, removable⟩
  · rw [same]
    by_cases nonempty : (page.slotAt index).2 = 0
    · simp only [RawPage.readRecord, if_pos nonempty]
    · simp only [RawPage.readRecord, PageImage.toRaw,
        reduced.read_record separate inside nonempty]
  · rw [empty, readRecord_removable removable]
    rfl

end Cleaned

/-! ## Chains -/

section Chains

variable {V : Type} {txns : TransactionManager V} {pages pages' pages'' : PageImages}
  {current : PageId} {ids : List PageId}

/-- Some pages, whose records lie behind their slots, were cleaned. -/
def Swept (txns : TransactionManager V) (pages pages' : PageImages) : Prop :=
  ∀ id, pages' id = pages id ∨ ∃ page page', pages id = some page ∧ pages' id = some page' ∧
    page.Separate ∧ Reduced txns page page'

theorem Swept.refl (txns : TransactionManager V) (pages : PageImages) : Swept txns pages pages :=
  fun _ => .inl rfl

theorem Swept.trans (first : Swept txns pages pages') (second : Swept txns pages' pages'') :
    Swept txns pages pages'' := by
  intro id
  rcases first id with same | ⟨page, page', found, found', separate, reduced⟩
  · rw [← same]
    exact second id
  · refine .inr ?_
    rcases second id with same | ⟨middle, page'', taken, found'', -, again⟩
    · exact ⟨page, page', found, same.trans found', separate, reduced⟩
    · cases found'.symm.trans taken
      exact ⟨page, page'', found, found'', separate, reduced.trans again separate⟩

theorem Swept.update {page : PageImage} (found : pages current = some page)
    (separate : page.Separate) :
    Swept txns pages (Function.update pages current (some (cleanupPage txns page))) := by
  intro id
  by_cases same : id = current
  · subst same
    exact .inr ⟨page, _, found, Function.update_self .., separate, cleanupPage_reduced page⟩
  · exact .inl (Function.update_of_ne same ..)

theorem Swept.chain (swept : Swept txns pages pages') (chain : PageChain pages current ids) :
    PageChain pages' current ids := by
  induction chain with
  | @ended current last =>
    refine .ended (last.imp_right fun absent => ?_)
    rcases swept current with same | ⟨page, page', found, -⟩
    · exact same.trans absent
    · cases absent.symm.trans found
  | @page current page rest valid found later ih =>
    rcases swept current with same | ⟨before, page', found', taken, -, reduced⟩
    · exact .page valid (same.trans found) ih
    · cases found.symm.trans found'
      exact .page valid taken (reduced.nextPageId ▸ ih)

theorem Swept.separate (swept : Swept txns pages pages')
    (separate : ∀ id ∈ ids, ∀ page, pages id = some page → page.Separate) :
    ∀ id ∈ ids, ∀ page, pages' id = some page → page.Separate := by
  intro id inside page' found'
  rcases swept id with same | ⟨page, after, -, taken, apart, reduced⟩
  · exact separate id inside page' (same.symm.trans found')
  · cases found'.symm.trans taken
    exact reduced.separate apart

theorem Swept.scanTable (swept : Swept txns pages pages') {qt : Variant V}
    {columns : List ColumnDef} {reader : TransactionId} (fuel : Nat) :
    scanTable txns qt columns reader fuel pages' current =
      scanTable txns qt columns reader fuel pages current := by
  induction fuel generalizing current with
  | zero => rfl
  | succ fuel ih =>
    rw [Storage.scanTable, Storage.scanTable]
    rcases swept current with same | ⟨page, page', found, found', separate, reduced⟩
    · rw [same]
      simp only [ih]
    · simp only [found, found', ih, reduced.nextPageId, reduced.visibleRecords separate]

theorem cleanupTable_ended (chain : PageChain pages current []) :
    cleanupTable txns 1 pages current = some (0, pages) := by
  obtain ⟨last⟩ := chain
  rw [cleanupTable]
  rcases last with last | last
  · rw [if_pos last]
  · rw [last]
    split_ifs <;> rfl

/-- The worker comes to the end of the chain. -/
theorem cleanupTable_swept (chain : PageChain pages current ids)
    (separate : ∀ id ∈ ids, ∀ page, pages id = some page → page.Separate) :
    ∃ deletedCount after, cleanupTable txns (ids.length + 1) pages current =
      some (deletedCount, after) ∧ Swept txns pages after := by
  induction ids generalizing pages current with
  | nil => exact ⟨0, pages, cleanupTable_ended chain, .refl txns pages⟩
  | cons id rest ih =>
    obtain _ | ⟨valid, found, later⟩ := chain
    rename_i page
    have swept : Swept txns pages (Function.update pages id (some (cleanupPage txns page))) :=
      .update found (separate id List.mem_cons_self page found)
    have next : (cleanupPage txns page).nextPageId = page.nextPageId :=
      (cleanupPage_reduced page).nextPageId
    obtain ⟨deletedCount, after, done, further⟩ := ih (swept.chain later)
      (swept.separate fun id inside => separate id (List.mem_cons_of_mem _ inside))
    refine ⟨(slotsToDelete txns page).length + deletedCount, after, ?_, swept.trans further⟩
    rw [List.length_cons, cleanupTable, if_neg valid]
    simp only [found, next, done, Option.map_some]

theorem scanTable_ends (txns : TransactionManager V) (chain : PageChain pages current ids)
    (qt : Variant V) (columns : List ColumnDef) (reader : TransactionId) :
    ∃ rows, scanTable txns qt columns reader (ids.length + 1) pages current = some rows := by
  induction chain with
  | ended last =>
    refine ⟨[], ?_⟩
    rw [scanTable]
    rcases last with last | last
    · rw [if_pos last]
    · rw [last]
      split_ifs <;> rfl
  | page valid found later ih =>
    obtain ⟨rows, done⟩ := ih
    rw [List.length_cons, scanTable, if_neg valid]
    simp only [found, done, Option.map_some, Option.some.injEq, exists_eq']

/-- The record of a slot was deleted, by a transaction that is committed. -/
def DeletedByCommitted (txns : TransactionManager V) (page : PageImage) (slot : Nat × Nat) :
    Prop :=
  RECORD_HEADER_SIZE ≤ slot.2 ∧ (page.recordHeader slot).deleteTxnId ≠ INVALID_TXN_ID ∧
    txns.getTransactionState (page.recordHeader slot).deleteTxnId = .COMMITTED

theorem deletedByCommitted_of_isRemovable {page : PageImage} {slot : Nat × Nat}
    (removable : isRemovable txns page slot = true) : DeletedByCommitted txns page slot := by
  rw [isRemovable, TransactionManager.canDelete] at removable
  split_ifs at removable with _ long marked committed _
  exact ⟨Nat.le_of_not_lt long, marked, not_not.mp committed⟩

/-- The slots of other records are where they were, with the bytes they had. -/
def KeepsOthers (txns : TransactionManager V) (page page' : PageImage) : Prop :=
  ∀ index < page.slotCount, (page.slotAt index).2 ≠ 0 →
    ¬ DeletedByCommitted txns page (page.slotAt index) →
      page'.slotAt index = page.slotAt index ∧
        Memory.read page' (page.slotAt index).1 (page.slotAt index).2 =
          Memory.read page (page.slotAt index).1 (page.slotAt index).2

theorem Swept.keepsOthers (swept : Swept txns pages pages') {id : PageId} {page : PageImage}
    (found : pages id = some page) :
    ∃ page', pages' id = some page' ∧ KeepsOthers txns page page' := by
  rcases swept id with same | ⟨before, page', found', taken, separate, reduced⟩
  · exact ⟨page, same.trans found, fun _ _ _ _ => ⟨rfl, rfl⟩⟩
  · cases found.symm.trans found'
    refine ⟨page', taken, fun index inside nonempty alive => ⟨?_, ?_⟩⟩
    · rcases reduced.slots index inside with kept | ⟨-, removable⟩
      · exact kept
      · exact absurd (deletedByCommitted_of_isRemovable removable) alive
    · exact reduced.read_record separate inside nonempty

/-- **VACUUM is invisible.** On a chain that ends, of pages whose records lie behind their slots,
the worker ends too; every reader scans the rows it scanned before, and every record that was not
deleted by a committed transaction is still there. -/
theorem cleanupTable_invisible (txns : TransactionManager V) (pages : PageImages)
    (firstPageId : PageId) (ids : List PageId) (chain : PageChain pages firstPageId ids)
    (separate : ∀ id ∈ ids, ∀ page, pages id = some page → page.Separate) :
    ∃ deletedCount after,
      cleanupTable txns (ids.length + 1) pages firstPageId = some (deletedCount, after) ∧
      (∀ (qt : Variant V) (columns : List ColumnDef) (reader : TransactionId), ∃ rows,
        scanTable txns qt columns reader (ids.length + 1) pages firstPageId = some rows ∧
        scanTable txns qt columns reader (ids.length + 1) after firstPageId = some rows) ∧
      ∀ id page, pages id = some page →
        ∃ page', after id = some page' ∧ KeepsOthers txns page page' := by
  obtain ⟨deletedCount, after, done, swept⟩ := cleanupTable_swept chain separate
  refine ⟨deletedCount, after, done, fun qt columns reader => ?_, fun id page found => ?_⟩
  · obtain ⟨rows, scanned⟩ := scanTable_ends txns chain qt columns reader
    exact ⟨rows, scanned, (swept.scanTable _).trans scanned⟩
  · exact swept.keepsOthers found

end Chains

/-! ## Pages with a deleted record -/

namespace Samples

/-- The transactions 1 and 2 are committed. -/
def txns : TransactionManager Cell where
  nextTxnId := 3
  transactions := fun id =>
    if id = 1 ∨ id = 2 then some { state := .COMMITTED, undoLog := [] } else none

def columns : List ColumnDef := [{ name := "id".toList, type := .INT }]

/-- One slot, with a record that transaction 1 created and transaction 2 deleted. -/
def deleted : PageImage := fun offset =>
  match offset with
  | 2 => 1
  | 32 => 100
  | 34 => 26
  | 108 => 1
  | 116 => 2
  | _ => 0

/-- Ten slots, of which the last one shows that record; the first one shows a record whose INT
field lies on the last slot. -/
def overlapping : PageImage := fun offset =>
  match offset with
  | 2 => 10
  | 32 => 41
  | 34 => 31
  | 68 => 100
  | 70 => 26
  | 108 => 1
  | 116 => 2
  | _ => 0

def only (page : PageImage) : PageImages := fun id => if id = 1 then some page else none

/-- What a reader outside of transactions scans. -/
def scan (pages : PageImages) : Option (List (List Cell)) :=
  scanTable txns (cells RawPage.Literals.conv) columns INVALID_TXN_ID 2 pages 1

end Samples

theorem cleanupTable_invisible_deleted : ∃ after,
    cleanupTable Samples.txns 2 (Samples.only Samples.deleted) 1 = some (1, after) ∧
      Samples.scan after = Samples.scan (Samples.only Samples.deleted) := by
  obtain ⟨deletedCount, after, done, invisible, -⟩ :=
    cleanupTable_invisible Samples.txns (Samples.only Samples.deleted) 1 [1]
      (.page (by decide) rfl (.ended (.inl rfl))) (by
        intro id inside page found
        rw [List.mem_singleton.mp inside] at found
        cases found
        decide)
  have one : (cleanupTable Samples.txns 2 (Samples.only Samples.deleted) 1).map Prod.fst =
      some 1 := by decide
  obtain ⟨rows, before, same⟩ := invisible (cells RawPage.Literals.conv) Samples.columns
    INVALID_TXN_ID
  refine ⟨after, ?_, same.trans before.symm⟩
  rw [List.length_singleton] at done
  rw [done] at one ⊢
  rw [← Option.some.inj one]

/-- Where a record lies on the slots of its page, its row changes when a slot is emptied. -/
theorem overlapping_row_altered :
    PageChain (Samples.only Samples.overlapping) 1 [1] ∧ Samples.overlapping.Inside ∧
      Samples.scan (Samples.only Samples.overlapping) = some [[.integer 1704036]] ∧
      (cleanupTable Samples.txns 2 (Samples.only Samples.overlapping) 1).map
        (fun done => Samples.scan done.2) = some (some [[.integer 0]]) := by
  exact ⟨.page (by decide) rfl (.ended (.inl rfl)), by decide, by decide, by decide⟩

end QinDB.Storage
