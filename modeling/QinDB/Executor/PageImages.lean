/-
# Executor.PageImages — the slots of a page and its bytes

The statements work on the slots of a page (`Storage.TablePage`); the page itself is bytes
(`Storage.PageLayout`, `Storage.Vacuum`). What the bytes show are slots.

* `hasEnoughSpace_shown`, `insertRecord_shown`: the free space is checked alike, and a record is
  placed by both or by neither, with the same free space left.
* `cleanupTable_shown`: cleaning the bytes of a chain of pages empties the slots that cleaning
  the slots empties.
-/
import QinDB.Executor.Session
import QinDB.Storage.PageLayout

namespace QinDB.Storage

open QinDB.Core QinDB.Base
open MemoryProgram (run_bind run_pure)
open PageImage (slotOffset)

set_option autoImplicit false

namespace PageImage

/-- The record of a slot that is not empty. -/
def recordAt (page : PageImage) (slot : Nat × Nat) : Record where
  header := page.recordHeader slot
  length := slot.2
  data := (Memory.read page slot.1 slot.2).drop RECORD_HEADER_SIZE

def slotShown (page : PageImage) (slot : Nat × Nat) : Slot :=
  if slot.2 = 0 then none else some (page.recordAt slot)

/-- The slots that the bytes of a page show. -/
def shown (page : PageImage) : TablePage where
  slots := (List.range page.slotCount).map fun index => page.slotShown (page.slotAt index)
  freeSpaceOffset := page.freeSpaceOffset

theorem length_slots_shown (page : PageImage) : page.shown.slots.length = page.slotCount := by
  rw [shown, List.length_map, List.length_range]

end PageImage

open PageImage (length_slots_shown)

section Shown

variable {V : Type} {qt : Variant V} {columns : List ColumnDef} {page : PageImage}
  {rowId : RowId} {values : List V} {txnId : TransactionId} {txns : TransactionManager V}

/-! ## Insertions -/

theorem hasEnoughSpace_shown (layout : Layout page) (size : Nat) :
    hasEnoughSpace page.shown size = page.hasEnoughSpace size := by
  have below := layout.slots_below
  rw [Bool.eq_iff_iff, hasEnoughSpace_iff layout, hasEnoughSpace, decide_eq_true_iff, getFreeSpace,
    length_slots_shown]
  change _ ≤ page.freeSpaceOffset - slotOffset page.slotCount ↔ _
  omega

/-- On slots, a record is placed if there is room for it. -/
theorem insertRecord_slots {header : RecordHeader} {data : Bytes} (layout : Layout page)
    (serialized : serializeRecord qt columns rowId values txnId = some (header, data)) :
    insertRecord qt columns page.shown rowId values txnId =
      if page.HasRoom (recordSize data) then
        some ⟨page.shown.slots ++ [slotOf header data], page.freeSpaceOffset - recordSize data⟩
      else none := by
  have bounded := layout.bounded
  have below := layout.slots_below
  have size : recordSize data < 2 ^ 16 := Nat.mod_lt _ (by decide)
  have free : page.shown.freeSpaceOffset = page.freeSpaceOffset := rfl
  rw [insertRecord, serialized]
  by_cases room : page.HasRoom (recordSize data)
  · rw [if_pos room]
    simp only [length_slots_shown, free, PageImage.HasRoom, slotOffset, PAGE_SIZE, SLOT_SIZE,
      PAGE_HEADER_SIZE] at *
    have offset : (page.freeSpaceOffset + 2 ^ 16 - recordSize data) % 2 ^ 16 =
        page.freeSpaceOffset - recordSize data := by omega
    rw [offset, if_neg (by omega), if_neg (by omega), if_neg (by omega), if_neg (by omega),
      if_neg (by omega), if_neg (by omega)]
  · rw [if_neg room]
    simp only [length_slots_shown, free, PageImage.HasRoom, slotOffset, PAGE_SIZE, SLOT_SIZE,
      PAGE_HEADER_SIZE] at *
    split_ifs <;> first | rfl | omega

/-- Slots and bytes refuse the same records, and count the slots and the space alike. -/
theorem insertRecord_shown (layout : Layout page) :
    let done := (PageProgram.insertRecord qt columns rowId values txnId).run page
    let result := insertRecord qt columns page.shown rowId values txnId
    done.1 = result.isSome ∧ ∀ page' ∈ result, PageImage.slotCount done.2 = page'.slots.length ∧
      PageImage.freeSpaceOffset done.2 = page'.freeSpaceOffset := by
  intro done result
  cases serialized : serializeRecord qt columns rowId values txnId with
  | none =>
    simp only [done, result, PageProgram.insertRecord, insertRecord, serialized]
    exact ⟨rfl, by simp⟩
  | some written =>
    obtain ⟨header, data⟩ := written
    have size : (writeRecordHeader header ++ data).length % 2 ^ 16 = recordSize data := by
      rw [List.length_append, length_writeRecordHeader, recordSize]
    simp only [done, result, PageProgram.insertRecord, serialized, run_bind, run_pure,
      run_placeRecord layout, size, insertRecord_slots layout serialized]
    split
    · rename_i room
      obtain ⟨count, free, -⟩ :=
        @placed_spec page (writeRecordHeader header ++ data) layout (size ▸ room)
      refine ⟨rfl, fun page' placed => ?_⟩
      cases placed
      rw [List.length_append, length_slots_shown, List.length_singleton]
      exact ⟨count, size ▸ free⟩
    · exact ⟨rfl, by simp⟩

/-! ## The cleaning -/

/-- A slot is emptied if the record that it shows is. -/
theorem cleanupSlot_shown (slot : Nat × Nat) :
    Executor.cleanupSlot txns (page.slotShown slot) =
      if isRemovable txns page slot then none else page.slotShown slot := by
  rw [PageImage.slotShown, isRemovable]
  by_cases empty : slot.2 = 0
  · rw [if_pos empty, if_pos empty, if_neg Bool.false_ne_true, Executor.cleanupSlot]
  · rw [if_neg empty, if_neg empty, Executor.cleanupSlot]
    by_cases short : slot.2 < RECORD_HEADER_SIZE
    · rw [if_pos short, if_pos (show (page.recordAt slot).length < RECORD_HEADER_SIZE from short),
        if_neg Bool.false_ne_true]
    · rw [if_neg short, if_neg (show ¬ (page.recordAt slot).length < RECORD_HEADER_SIZE from short)]
      rfl

theorem slotShown_cleanupPage (layout : Layout page) {index : Nat} (inside : index < page.slotCount) :
    PageImage.slotShown (cleanupPage txns page) (PageImage.slotAt (cleanupPage txns page) index) =
      Executor.cleanupSlot txns (page.slotShown (page.slotAt index)) := by
  have reduced : Reduced txns page (cleanupPage txns page) := cleanupPage_reduced page
  have slot : PageImage.slotAt (cleanupPage txns page) index =
      if isRemovable txns page (page.slotAt index) then (0, 0) else page.slotAt index := by
    rw [cleanupPage, PageImage.slotAt_clearSlots, slotsToDelete]
    simp only [List.mem_reverse, List.mem_filter, List.mem_range, inside, true_and]
  rw [cleanupSlot_shown, slot]
  split
  · rfl
  · by_cases empty : (page.slotAt index).2 = 0
    · rw [PageImage.slotShown, PageImage.slotShown, if_pos empty, if_pos empty]
    · rw [PageImage.slotShown, PageImage.slotShown, PageImage.recordAt, PageImage.recordHeader,
        reduced.behind _ _ (layout.behind ⟨inside, empty⟩)]
      rfl

theorem cleanupPage_shown (layout : Layout page) :
    PageImage.shown (cleanupPage txns page) = Executor.cleanupPage txns page.shown := by
  have shrunk := cleanupPage_shrunk txns page
  rw [Executor.cleanupPage, PageImage.shown, PageImage.shown, shrunk.slotCount,
    shrunk.freeSpaceOffset, List.map_map]
  exact congrArg (TablePage.mk · _) (List.map_congr_left fun index inside =>
    slotShown_cleanupPage layout (List.mem_range.mp inside))

/-- The emptied slots are counted alike. -/
theorem countP_shown (page : PageImage) : page.shown.slots.countP (fun content =>
    content.isSome && (Executor.cleanupSlot txns content).isNone) =
      (slotsToDelete txns page).length := by
  rw [PageImage.shown, List.countP_map, slotsToDelete, ← List.countP_eq_length_filter]
  congr 1
  funext index
  simp only [Function.comp_apply, cleanupSlot_shown]
  cases removable : isRemovable txns page (page.slotAt index) with
  | false =>
    rw [if_neg Bool.false_ne_true]
    cases page.slotShown (page.slotAt index) <;> rfl
  | true =>
    rw [if_pos rfl, PageImage.slotShown, if_neg (isRemovable_nonempty removable)]
    rfl

/-- Along a chain that ends, cleaning the bytes shows what cleaning the slots gives. -/
theorem cleanupTable_shown {pages : PageImages} {current : PageId} {ids : List PageId}
    (chain : PageChain pages current ids) (layouts : ∀ id, ∀ page ∈ pages id, Layout page) :
    ∃ deletedCount after,
      cleanupTable txns (ids.length + 1) pages current = some (deletedCount, after) ∧
      Executor.cleanupPages txns ids (fun id => (pages id).map PageImage.shown) =
        (deletedCount, fun id => (after id).map PageImage.shown) := by
  induction ids generalizing pages current with
  | nil => exact ⟨0, pages, cleanupTable_ended chain, rfl⟩
  | cons id rest ih =>
    obtain _ | ⟨valid, found, later⟩ := chain
    rename_i page
    have layout := layouts id page found
    have swept : Swept txns pages (Function.update pages id (some (cleanupPage txns page))) :=
      .update found ⟨fun index inside filled => (layout.inside index inside filled).2,
        fun index inside filled => layout.behind ⟨inside, filled⟩⟩
    have next : (cleanupPage txns page).nextPageId = page.nextPageId :=
      (cleanupPage_reduced page).nextPageId
    have disk : (fun other => (Function.update pages id (some (cleanupPage txns page)) other).map
        PageImage.shown) = Function.update (fun other => (pages other).map PageImage.shown) id
          (some (Executor.cleanupPage txns page.shown)) := by
      rw [← cleanupPage_shown layout]
      funext other
      rw [Function.update_apply, Function.update_apply]
      split <;> rfl
    obtain ⟨deletedCount, after, done, shown⟩ := ih (swept.chain later) (by
      intro other page' listed
      rw [Function.update_apply] at listed
      split at listed
      · cases listed
        exact layout.shrunk (cleanupPage_shrunk txns page)
      · exact layouts other page' listed)
    refine ⟨(slotsToDelete txns page).length + deletedCount, after, ?_, ?_⟩
    · rw [List.length_cons, cleanupTable, if_neg valid]
      simp only [found, next, done, Option.map_some]
    · rw [disk] at shown
      rw [Executor.cleanupPages]
      simp only [found, Option.map_some, shown, countP_shown]

end Shown

end QinDB.Storage
