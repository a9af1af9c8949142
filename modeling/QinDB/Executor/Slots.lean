/-
# Executor.Slots — scans, slot by slot

What a scan shows is a function of the slots of the pages it meets. The position that a
scan gives a row is its rank among the records of the page that decode.

* `mem_visibleRows`: a row is shown exactly when some slot of a scanned page holds it.
-/
import Mathlib.Data.List.Sigma
import QinDB.Base.Rank
import QinDB.Executor.Session

namespace QinDB.Executor

open QinDB.Core QinDB.Storage QinDB.Base.Rank

set_option autoImplicit false

/-! ## Scans -/

section Scans

variable {disk disk' : PageId → Option TablePage}

theorem mem_scan {pageId : PageId} {page : TablePage} :
    ∀ {chain : List PageId}, (pageId, page) ∈ scan disk chain →
      pageId ∈ chain ∧ disk pageId = some page
  | [], member => by cases member
  | first :: rest, member => by
      rw [scan] at member
      cases found : disk first with
      | none =>
        rw [found] at member
        cases member
      | some firstPage =>
        rw [found, List.mem_cons] at member
        rcases member with same | later
        · cases same
          exact ⟨List.mem_cons_self, found⟩
        · obtain ⟨inside, onDisk⟩ := mem_scan later
          exact ⟨List.mem_cons_of_mem first inside, onDisk⟩

end Scans

/-! ## Positions and slots -/

section Positions

variable {V : Type} {qt : Variant V} {columns : List ColumnDef} {page : TablePage}

theorem slots_getElem?_of_read {index : Nat} {record : RecordHeader × List V}
    (read : readSlot qt columns (page.slot index) = some record) :
    page.slots[index]? = some (page.slot index) := by
  rw [TablePage.slot] at read ⊢
  cases found : page.slots[index]? with
  | none =>
    rw [found] at read
    cases read
  | some content => rfl

theorem slot_of_getElem? {index : Nat} {content : Slot}
    (found : page.slots[index]? = some content) : page.slot index = content := by
  rw [TablePage.slot, found]
  rfl

theorem mem_pageRows {pageId : PageId} {found : Located V} :
    found ∈ pageRows qt columns pageId page ↔ found.pageId = pageId ∧
      ∃ index, readSlot qt columns (page.slot index) = some (found.header, found.row) ∧
        rank (readSlot qt columns) page.slots index = found.position := by
  rw [pageRows, List.mem_map]
  constructor
  · rintro ⟨⟨⟨header, row⟩, position⟩, member, rfl⟩
    rw [getAllRecords, mem_zipIdx_filterMap] at member
    obtain ⟨index, content, inside, read, same⟩ := member
    refine ⟨rfl, index, ?_, same⟩
    rw [slot_of_getElem? inside]
    exact read
  · rintro ⟨rfl, index, read, same⟩
    refine ⟨((found.header, found.row), found.position), ?_, rfl⟩
    rw [getAllRecords, mem_zipIdx_filterMap]
    exact ⟨index, page.slot index, slots_getElem?_of_read read, read, same⟩

end Positions

/-! ## One slot of the disk -/

section SlotAt

variable {V : Type} {db : Database V} {pageId other : PageId} {page : TablePage}
  {index slot : Nat}

/-- The slot at a place of the disk; a missing page has no slots. -/
def Database.slotAt (db : Database V) (pageId : PageId) (index : Nat) : Slot :=
  match db.disk pageId with
  | none => none
  | some page => page.slot index

def Database.slotCount (db : Database V) (pageId : PageId) : Nat :=
  match db.disk pageId with
  | none => 0
  | some page => page.slots.length

theorem slotAt_of_disk (found : db.disk pageId = some page) :
    db.slotAt pageId index = page.slot index := by
  rw [Database.slotAt, found]

theorem slotCount_of_disk (found : db.disk pageId = some page) :
    db.slotCount pageId = page.slots.length := by
  rw [Database.slotCount, found]

/-- Changing one slot changes that slot. -/
theorem slotAt_setSlot (found : db.disk pageId = some page) (inside : index < page.slots.length)
    (content : Slot) :
    (db.writePage pageId (page.setSlot index content)).slotAt other slot =
      if other = pageId ∧ slot = index then content else db.slotAt other slot := by
  by_cases same : other = pageId
  · subst same
    rw [slotAt_of_disk (Function.update_self ..), TablePage.slot_setSlot, slotAt_of_disk found]
    simp only [inside, and_true, true_and]
  · rw [if_neg (fun both => same both.1), Database.slotAt, Database.slotAt, Database.writePage]
    simp only [Function.update_of_ne same]

theorem slotCount_setSlot (found : db.disk pageId = some page) (content : Slot) :
    (db.writePage pageId (page.setSlot index content)).slotCount other = db.slotCount other := by
  by_cases same : other = pageId
  · subst same
    rw [slotCount_of_disk (Function.update_self ..), slotCount_of_disk found,
      TablePage.slots_setSlot, List.length_set]
  · rw [Database.slotCount, Database.slotCount, Database.writePage]
    simp only [Function.update_of_ne same]

/-- Appending a record fills the first slot after the last. -/
theorem slotAt_append (found : db.disk pageId = some page) (content : Slot) (offset : Nat) :
    (db.writePage pageId ⟨page.slots ++ [content], offset⟩).slotAt other slot =
      if other = pageId ∧ slot = page.slots.length then content else db.slotAt other slot := by
  by_cases same : other = pageId
  · subst same
    rw [slotAt_of_disk (Function.update_self ..), slotAt_of_disk found, TablePage.slot,
      TablePage.slot]
    simp only [true_and]
    rcases Nat.lt_trichotomy slot page.slots.length with lt | eq | gt
    · rw [List.getElem?_append_left lt, if_neg (by omega)]
    · rw [if_pos eq, eq, List.getElem?_append_right (Nat.le_refl _), Nat.sub_self]
      rfl
    · have beyond : (page.slots ++ [content]).length ≤ slot := by
        rw [List.length_append, List.length_singleton]
        omega
      rw [if_neg (by omega), List.getElem?_eq_none beyond, List.getElem?_eq_none (by omega)]
  · rw [if_neg (fun both => same both.1), Database.slotAt, Database.slotAt, Database.writePage]
    simp only [Function.update_of_ne same]

theorem slotCount_append (found : db.disk pageId = some page) (content : Slot) (offset : Nat) :
    (db.writePage pageId ⟨page.slots ++ [content], offset⟩).slotCount other =
      if other = pageId then db.slotCount other + 1 else db.slotCount other := by
  by_cases same : other = pageId
  · subst same
    rw [if_pos rfl, slotCount_of_disk (Function.update_self ..), slotCount_of_disk found,
      List.length_append, List.length_singleton]
  · rw [if_neg same, Database.slotCount, Database.slotCount, Database.writePage]
    simp only [Function.update_of_ne same]

theorem slotAt_congr {db' : Database V} (same : db'.disk = db.disk) :
    db'.slotAt pageId index = db.slotAt pageId index := by
  rw [Database.slotAt, Database.slotAt, same]

theorem slotCount_congr {db' : Database V} (same : db'.disk = db.disk) :
    db'.slotCount pageId = db.slotCount pageId := by
  rw [Database.slotCount, Database.slotCount, same]

end SlotAt

/-! ## Rows shown to a reader -/

section Visible

variable {V : Type} {qt : Variant V} {db : Database V} {table : TableDef}
  {current : TransactionId}

theorem chain_congr {db' : Database V} (same : db'.following = db.following) :
    db'.chain table = db.chain table := by
  rw [Database.chain, Database.chain, same]

theorem mem_visibleRows {found : Located V} :
    found ∈ visibleRows qt db table current ↔ ∃ page,
      (found.pageId, page) ∈ scan db.disk (db.chain table) ∧
      (∃ index, readSlot qt table.columns (page.slot index) = some (found.header, found.row) ∧
        rank (readSlot qt table.columns) page.slots index = found.position) ∧
      db.txns.isVisible found.header current = true := by
  rw [visibleRows, List.mem_flatMap]
  constructor
  · rintro ⟨⟨pageId, page⟩, scanned, member⟩
    obtain ⟨inside, visible⟩ := List.mem_filter.mp member
    obtain ⟨same, slot⟩ := mem_pageRows.mp inside
    subst same
    exact ⟨page, scanned, slot, visible⟩
  · rintro ⟨page, scanned, slot, visible⟩
    exact ⟨(found.pageId, page), scanned,
      List.mem_filter.mpr ⟨mem_pageRows.mpr ⟨rfl, slot⟩, visible⟩⟩

end Visible

end QinDB.Executor
