/-
# Storage.PageLayout — where the records of a table page lie

The operations of `table_page.cpp` on the bytes of a page, as programs that load and store them:
header, slots and records are ranges of the same 8192 bytes. Sizes and offsets are 16-bit
numbers.

* `layout_run`: from an initialised page on, the records lie between the free space and the end of
  the page, apart from each other and from the slots, whatever is inserted, overwritten, marked as
  deleted or cleaned.
* `local_iff`: marking and overwriting a record stay inside it exactly when it is empty or reaches
  over the three numbers of a record header that they read.
* `space_check_iff`: the check of the free space agrees with an insertion unless the page has room
  for the record and one slot, but not for the slot that the insertion counts twice.
-/
import QinDB.Base.MemoryProgram
import QinDB.Storage.Vacuum

namespace QinDB.Storage

open QinDB.Core QinDB.Base
open MemoryProgram (run_bind run_ite run_pure run_write run_frame within_pure within_read within_write
  within_bind)

set_option autoImplicit false

namespace PageImage

def freeSpaceOffset (page : PageImage) : Nat := page.number 4 2

def setNumber (page : PageImage) (offset width number : Nat) : PageImage :=
  Memory.write page offset (LittleEndian.encode width number)

/-- `TablePage::init` with the `Page::reset` before it; `TablePage::initialize` leaves the number
of the page invalid. -/
def init (page : PageImage) (pageId : PageId) : PageImage :=
  let page : PageImage := Memory.write (Memory.fill page 0 PAGE_SIZE 0) 0 [3]
  let page := page.setNumber 8 4 pageId
  let page := page.setNumber 2 2 0
  let page := page.setNumber 4 2 PAGE_SIZE
  let page := page.setNumber 6 2 (PAGE_SIZE - PAGE_HEADER_SIZE)
  (page.setNumber 12 4 INVALID_PAGE_ID).setNumber 16 4 INVALID_PAGE_ID

def getFreeSpace (page : PageImage) : Nat :=
  let slotsEndOffset := (PAGE_HEADER_SIZE + page.slotCount * SLOT_SIZE) % 2 ^ 16
  if page.freeSpaceOffset ≤ slotsEndOffset then 0 else page.freeSpaceOffset - slotsEndOffset

def hasEnoughSpace (page : PageImage) (recordSize : Nat) : Bool :=
  decide (recordSize + SLOT_SIZE ≤ page.getFreeSpace)

end PageImage

/-! ## The operations -/

namespace PageProgram

open PageImage (slotOffset)

def readNumber (offset width : Nat) : MemoryProgram Nat := do
  return LittleEndian.decode (← .read offset width)

def writeNumber (offset width number : Nat) : MemoryProgram Unit :=
  .write offset (LittleEndian.encode width number)

/-- The common part of `insertRecord` and `insertTuple`: the index of the new slot. -/
def placeRecord (data : Bytes) : MemoryProgram (Option Nat) := do
  let recordSize := data.length % 2 ^ 16
  let requiredSpace := (recordSize + SLOT_SIZE) % 2 ^ 16
  let freeSpaceOffset ← readNumber 4 2
  if freeSpaceOffset > PAGE_SIZE then return none
  let slotCount ← readNumber 2 2
  if slotCount > (PAGE_SIZE - PAGE_HEADER_SIZE) / SLOT_SIZE then return none
  let slotsEndOffset := (PAGE_HEADER_SIZE + (slotCount + 1) * SLOT_SIZE) % 2 ^ 16
  if slotsEndOffset > PAGE_SIZE then return none
  if freeSpaceOffset < slotsEndOffset then return none
  let availableSpace := freeSpaceOffset - slotsEndOffset
  if availableSpace < requiredSpace then return none
  let recordOffset := (freeSpaceOffset + 2 ^ 16 - recordSize) % 2 ^ 16
  if recordOffset < slotsEndOffset ∨ recordOffset + recordSize > PAGE_SIZE then return none
  .write recordOffset (data.take recordSize)
  let slotIndex ← readNumber 2 2
  writeNumber (slotOffset slotIndex) 2 recordOffset
  writeNumber (slotOffset slotIndex + 2) 2 recordSize
  writeNumber 2 2 (slotIndex + 1)
  writeNumber 4 2 recordOffset
  writeNumber 6 2 (availableSpace - requiredSpace)
  return some slotIndex

/-- The number of the row is made of those of the page and the slot. -/
def insertTuple (data : Bytes) : MemoryProgram (Option RowId) := do
  if data = [] then return none
  match ← placeRecord data with
  | none => return none
  | some slotIndex => return some ((← readNumber 8 4) <<< 16 ||| slotIndex)

/-- The checks of `deleteRecord` and `updateRecord`: offset and length of a record that is there
and not marked as deleted. -/
def unmarkedRecord (slotIndex : Nat) : MemoryProgram (Option (Nat × Nat)) := do
  if slotIndex ≥ (← readNumber 2 2) then return none
  let length ← readNumber (slotOffset slotIndex + 2) 2
  if length = 0 then return none
  let offset ← readNumber (slotOffset slotIndex) 2
  if (← readNumber (offset + 16) 8) ≠ INVALID_TXN_ID then return none
  return some (offset, length)

def deleteRecord (slotIndex : Nat) (txnId : TransactionId) : MemoryProgram Bool := do
  match ← unmarkedRecord slotIndex with
  | none => return false
  | some (offset, _) =>
      writeNumber (offset + 16) 8 txnId
      return true

/-- The end of `updateRecord`: only a record that is no larger is overwritten. -/
def overwrite (slotIndex offset length : Nat) (newRecordData : Bytes) : MemoryProgram Bool := do
  let newRecordSize := newRecordData.length % 2 ^ 16
  if newRecordSize > length then return false
  .write offset (newRecordData.take newRecordSize)
  if newRecordSize < length then writeNumber (slotOffset slotIndex + 2) 2 newRecordSize
  return true

section Records

variable {V : Type} (qt : Variant V) (columns : List ColumnDef)

def insertRecord (rowId : RowId) (values : List V) (txnId : TransactionId) :
    MemoryProgram Bool := do
  match serializeRecord qt columns rowId values txnId with
  | none => return false
  | some (header, data) => return (← placeRecord (writeRecordHeader header ++ data)).isSome

def updateRecord (slotIndex : Nat) (newValues : List V) : MemoryProgram Bool := do
  match ← unmarkedRecord slotIndex with
  | none => return false
  | some (offset, length) =>
      let rowId ← readNumber offset 8
      let createTxnId ← readNumber (offset + 8) 8
      match serializeRecord qt columns rowId newValues createTxnId with
      | none => return false
      | some (header, data) => overwrite slotIndex offset length (writeRecordHeader header ++ data)

end Records

end PageProgram

open PageImage (slotOffset)

/-- What is done with a table page. The table may be another one each time. -/
inductive PageOperation (V : Type) where
  | insertRecord (columns : List ColumnDef) (rowId : RowId) (values : List V)
      (txnId : TransactionId)
  | insertTuple (data : Bytes)
  | updateRecord (columns : List ColumnDef) (slotIndex : Nat) (newValues : List V)
  | deleteRecord (slotIndex : Nat) (txnId : TransactionId)
  | vacuum (txns : TransactionManager V)

def PageOperation.apply {V : Type} (qt : Variant V) (page : PageImage) :
    PageOperation V → PageImage
  | .insertRecord columns rowId values txnId =>
      ((PageProgram.insertRecord qt columns rowId values txnId).run page).2
  | .insertTuple data => ((PageProgram.insertTuple data).run page).2
  | .updateRecord columns slotIndex newValues =>
      ((PageProgram.updateRecord qt columns slotIndex newValues).run page).2
  | .deleteRecord slotIndex txnId => ((PageProgram.deleteRecord slotIndex txnId).run page).2
  | .vacuum txns => cleanupPage txns page

/-- The page that operations leave of one that was initialised. -/
def pageAfter {V : Type} (qt : Variant V) (page : PageImage) (pageId : PageId)
    (operations : List (PageOperation V)) : PageImage :=
  operations.foldl (PageOperation.apply qt) (page.init pageId)

/-- Slots from the header on, records up to the end of the page, and the free space between. -/
structure Layout (page : PageImage) : Prop where
  bounded : page.freeSpaceOffset ≤ PAGE_SIZE
  slots_below : slotOffset page.slotCount ≤ page.freeSpaceOffset
  inside : ∀ index < page.slotCount, (page.slotAt index).2 ≠ 0 →
    page.freeSpaceOffset ≤ (page.slotAt index).1 ∧
      (page.slotAt index).1 + (page.slotAt index).2 ≤ PAGE_SIZE
  disjoint : ∀ index < page.slotCount, ∀ other < page.slotCount, index ≠ other →
    (page.slotAt index).2 ≠ 0 → (page.slotAt other).2 ≠ 0 →
      (page.slotAt index).1 + (page.slotAt index).2 ≤ (page.slotAt other).1 ∨
        (page.slotAt other).1 + (page.slotAt other).2 ≤ (page.slotAt index).1

/-! ## Numbers of a page -/

namespace PageImage

variable {page : PageImage} {offset width number start : Nat} {bytes : Bytes}

theorem number_lt (page : PageImage) (offset width : Nat) :
    page.number offset width < 256 ^ width := by
  have bound := LittleEndian.decode_lt (Memory.read page offset width)
  rwa [Memory.length_read] at bound

theorem number_write (apart : start + bytes.length ≤ offset ∨ offset + width ≤ start) :
    PageImage.number (Memory.write page start bytes) offset width = page.number offset width :=
  congrArg LittleEndian.decode (Memory.read_write_apart page apart)

theorem number_setNumber_self (small : number < 256 ^ width) :
    (page.setNumber offset width number).number offset width = number := by
  have length := LittleEndian.length_encode width number
  have back := Memory.read_write page offset (LittleEndian.encode width number)
  rw [length] at back
  rw [PageImage.number, setNumber, back, LittleEndian.decode_encode_of_lt width small]

theorem number_setNumber {place wide : Nat} (apart : place + wide ≤ offset ∨
    offset + width ≤ place) : (page.setNumber place wide number).number offset width =
      page.number offset width :=
  number_write (by rwa [LittleEndian.length_encode])

/-- After `placeRecord`. -/
def placed (page : PageImage) (data : Bytes) : PageImage :=
  let recordSize := data.length % 2 ^ 16
  let recordOffset := page.freeSpaceOffset - recordSize
  let slot := slotOffset page.slotCount
  let page' : PageImage := Memory.write page recordOffset (data.take recordSize)
  let page' := (page'.setNumber slot 2 recordOffset).setNumber (slot + 2) 2 recordSize
  let page' := (page'.setNumber 2 2 (page.slotCount + 1)).setNumber 4 2 recordOffset
  page'.setNumber 6 2 (recordOffset - (slot + 2 * SLOT_SIZE))

/-- Room for a record of this size, its slot, and the slot once more. -/
def HasRoom (page : PageImage) (size : Nat) : Prop :=
  slotOffset page.slotCount + 2 * SLOT_SIZE + size ≤ page.freeSpaceOffset

instance (page : PageImage) (size : Nat) : Decidable (page.HasRoom size) :=
  inferInstanceAs (Decidable (_ ≤ _))

end PageImage

namespace PageProgram

variable {page : PageImage} {offset width number : Nat}

@[simp] theorem run_readNumber :
    (readNumber offset width).run page = (page.number offset width, page) := rfl

@[simp] theorem run_writeNumber :
    (writeNumber offset width number).run page = ((), page.setNumber offset width number) := rfl

theorem within_readNumber {allowed : Access → Prop}
    (all : ∀ address, offset ≤ address → address < offset + width → allowed (.read address)) :
    (readNumber offset width).Within allowed page :=
  within_bind.mpr ⟨within_read.mpr all, within_pure _⟩

theorem within_writeNumber {allowed : Access → Prop}
    (all : ∀ address, offset ≤ address → address < offset + width → allowed (.write address)) :
    (writeNumber offset width number).Within allowed page :=
  within_write.mpr (by rwa [LittleEndian.length_encode])

end PageProgram

open PageImage (number_lt number_write number_setNumber number_setNumber_self)
open PageProgram (run_readNumber run_writeNumber within_readNumber within_writeNumber)

section Placing

variable {page : PageImage} {data : Bytes}

theorem run_placeRecord (layout : Layout page) :
    (PageProgram.placeRecord data).run page =
      if page.HasRoom (data.length % 2 ^ 16) then (some page.slotCount, page.placed data)
      else (none, page) := by
  have pageSize : PAGE_SIZE = 8192 := rfl
  have slotSize : SLOT_SIZE = 4 := rfl
  have headerSize : PAGE_HEADER_SIZE = 32 := rfl
  have bounded := layout.bounded
  have below := layout.slots_below
  have size : data.length % 2 ^ 16 < 2 ^ 16 := Nat.mod_lt _ (by decide)
  simp only [PageProgram.placeRecord, ↓run_bind, ↓run_ite,
    run_pure, run_write, run_readNumber,
    run_writeNumber, PageImage.placed]
  simp only [PageImage.freeSpaceOffset, PageImage.slotCount, slotOffset,
    PageImage.HasRoom, pageSize, slotSize, headerSize] at *
  generalize data.length % 2 ^ 16 = length at *
  generalize page.number 4 2 = start at *
  generalize slots : page.number 2 2 = count at *
  have slotsEnd : (32 + (count + 1) * 4) % 2 ^ 16 = 32 + (count + 1) * 4 :=
    Nat.mod_eq_of_lt (by omega)
  rw [slotsEnd]
  by_cases room : 32 + count * 4 + 2 * 4 + length ≤ start
  · have required : (length + 4) % 2 ^ 16 = length + 4 := Nat.mod_eq_of_lt (by omega)
    have recordOffset : (start + 2 ^ 16 - length) % 2 ^ 16 = start - length := by omega
    rw [required, recordOffset, if_pos room, if_neg (by omega), if_neg (by omega),
      if_neg (by omega), if_neg (by omega), if_neg (by omega), if_neg (by omega)]
    -- The record lies behind the header, so the number of slots is still there.
    have again : PageImage.number (Memory.write page (start - length) (data.take length)) 2 2 =
        count := (number_write (.inr (by omega))).trans slots
    have left : start - (32 + (count + 1) * 4) - (length + 4) =
        start - length - (32 + count * 4 + 2 * 4) := by omega
    rw [again, left]
  · rw [if_neg room]
    split_ifs with _ _ _ _ short outside <;> try rfl
    -- A required space that wrapped around leaves an offset outside the page.
    omega

/-- What the header and the slots of `placed` say. -/
theorem placed_spec (layout : Layout page) (room : page.HasRoom (data.length % 2 ^ 16)) :
    (page.placed data).slotCount = page.slotCount + 1 ∧
      (page.placed data).freeSpaceOffset = page.freeSpaceOffset - data.length % 2 ^ 16 ∧
      (page.placed data).slotAt page.slotCount =
        (page.freeSpaceOffset - data.length % 2 ^ 16, data.length % 2 ^ 16) ∧
      ∀ index < page.slotCount, (page.placed data).slotAt index = page.slotAt index := by
  have bounded : page.freeSpaceOffset ≤ 8192 := layout.bounded
  have room' : 32 + page.slotCount * 4 + 2 * 4 + data.length % 2 ^ 16 ≤ page.freeSpaceOffset := room
  have size : data.length % 2 ^ 16 < 2 ^ 16 := Nat.mod_lt _ (by decide)
  have wide : (256 : Nat) ^ 2 = 2 ^ 16 := by decide
  simp only [PageImage.slotAt, PageImage.slotCount, PageImage.freeSpaceOffset, PageImage.placed,
    slotOffset, show PAGE_HEADER_SIZE = 32 from rfl, show SLOT_SIZE = 4 from rfl] at *
  refine ⟨?_, ?_, ?_, ?_⟩
  · rw [number_setNumber (.inr (by omega)), number_setNumber (.inr (by omega)),
      number_setNumber_self (by omega)]
  · rw [number_setNumber (.inr (by omega)), number_setNumber_self (by omega)]
  · refine congrArg₂ Prod.mk ?_ ?_ <;>
      rw [number_setNumber (.inl (by omega)), number_setNumber (.inl (by omega)),
        number_setNumber (.inl (by omega))]
    · rw [number_setNumber (.inr (by omega)), number_setNumber_self (by omega)]
    · rw [number_setNumber_self (by omega)]
  · intro index inside
    refine congrArg₂ Prod.mk ?_ ?_ <;>
      rw [number_setNumber (.inl (by omega)), number_setNumber (.inl (by omega)),
        number_setNumber (.inl (by omega)), number_setNumber (.inr (by omega)),
        number_setNumber (.inr (by omega)), number_write (.inr (by omega))]

theorem Layout.placed (layout : Layout page) (room : page.HasRoom (data.length % 2 ^ 16)) :
    Layout (page.placed data) := by
  obtain ⟨count, offset, new, old⟩ := placed_spec layout room
  have bounded := layout.bounded
  have pageSize : PAGE_SIZE = 8192 := rfl
  simp only [PageImage.HasRoom, slotOffset, SLOT_SIZE] at room
  -- Every slot is the new one or an old one; the new record lies below all the others.
  have split : ∀ index < (page.placed data).slotCount, index = page.slotCount ∨
      index < page.slotCount ∧ (page.placed data).slotAt index = page.slotAt index := by
    intro index inside
    rw [count] at inside
    rcases Nat.lt_succ_iff_lt_or_eq.mp inside with earlier | last
    · exact .inr ⟨earlier, old index earlier⟩
    · exact .inl last
  refine ⟨by omega, ?_, ?_, ?_⟩
  · rw [count, offset, slotOffset, SLOT_SIZE]
    omega
  · intro index inside nonempty
    rw [offset]
    rcases split index inside with rfl | ⟨earlier, same⟩
    · rw [new]
      omega
    · rw [same] at nonempty ⊢
      have := layout.inside index earlier nonempty
      omega
  · intro index inside other otherInside different nonempty otherNonempty
    rcases split index inside with rfl | ⟨earlier, same⟩ <;>
      rcases split other otherInside with rfl | ⟨otherEarlier, otherSame⟩
    · exact absurd rfl different
    · rw [otherSame] at otherNonempty ⊢
      have := layout.inside other otherEarlier otherNonempty
      rw [new]
      omega
    · rw [same] at nonempty ⊢
      have := layout.inside index earlier nonempty
      rw [new]
      omega
    · rw [same] at nonempty ⊢
      rw [otherSame] at otherNonempty ⊢
      exact layout.disjoint index earlier other otherEarlier different nonempty otherNonempty

end Placing

/-! ## Slots that shrink -/

/-- The slots are those of before, but some may be shorter or empty. -/
structure Shrunk (page page' : PageImage) : Prop where
  slotCount : page'.slotCount = page.slotCount
  freeSpaceOffset : page'.freeSpaceOffset = page.freeSpaceOffset
  slots : ∀ index < page.slotCount, (page'.slotAt index).2 = 0 ∨
    (page'.slotAt index).1 = (page.slotAt index).1 ∧
      (page'.slotAt index).2 ≤ (page.slotAt index).2

section Shrinking

variable {page page' page'' : PageImage} {index start : Nat} {bytes : Bytes}

theorem Shrunk.trans (first : Shrunk page page') (second : Shrunk page' page'') :
    Shrunk page page'' where
  slotCount := second.slotCount.trans first.slotCount
  freeSpaceOffset := second.freeSpaceOffset.trans first.freeSpaceOffset
  slots index inside := by
    have before := first.slots index inside
    have after := second.slots index (first.slotCount ▸ inside)
    omega

theorem Layout.shrunk (layout : Layout page) (shrunk : Shrunk page page') : Layout page' := by
  obtain ⟨count, offset, slots⟩ := shrunk
  refine ⟨offset ▸ layout.bounded, count ▸ offset ▸ layout.slots_below, ?_, ?_⟩
  · intro index inside nonempty
    rw [count] at inside
    have := slots index inside
    have := layout.inside index inside (by omega)
    omega
  · intro index inside other otherInside different nonempty otherNonempty
    rw [count] at inside otherInside
    have here := slots index inside
    have there := slots other otherInside
    have := layout.disjoint index inside other otherInside different (by omega) (by omega)
    omega

theorem slotAt_write (behind : slotOffset page.slotCount ≤ start)
    (inside : index < page.slotCount) :
    PageImage.slotAt (Memory.write page start bytes) index = page.slotAt index := by
  simp only [slotOffset, PAGE_HEADER_SIZE, SLOT_SIZE] at behind
  refine congrArg₂ Prod.mk (number_write (.inr ?_)) (number_write (.inr ?_)) <;>
    simp only [slotOffset, PAGE_HEADER_SIZE, SLOT_SIZE] <;>
    omega

/-- Bytes behind the slots. -/
theorem Shrunk.write (behind : slotOffset page.slotCount ≤ start) :
    Shrunk page (Memory.write page start bytes) where
  slotCount := number_write (.inr (by
    rw [slotOffset, PAGE_HEADER_SIZE] at behind
    omega))
  freeSpaceOffset := number_write (.inr (by
    rw [slotOffset, PAGE_HEADER_SIZE] at behind
    omega))
  slots index inside := by
    rw [slotAt_write behind inside]
    exact .inr ⟨rfl, Nat.le_refl _⟩

/-- A smaller length of one slot. -/
theorem Shrunk.setLength {length : Nat} (shorter : length ≤ (page.slotAt index).2) :
    Shrunk page (page.setNumber (slotOffset index + 2) 2 length) := by
  have bound : (page.slotAt index).2 < 256 ^ 2 := number_lt page _ 2
  have header : ∀ offset, offset + 2 ≤ 32 →
      (page.setNumber (slotOffset index + 2) 2 length).number offset 2 =
        page.number offset 2 := by
    intro offset before
    refine number_setNumber (.inr ?_)
    rw [slotOffset, PAGE_HEADER_SIZE]
    omega
  refine ⟨header 2 (by decide), header 4 (by decide), fun other _ => .inr ?_⟩
  by_cases same : other = index
  · subst same
    refine ⟨number_setNumber (.inr (Nat.le_refl _)), ?_⟩
    exact (number_setNumber_self (by omega)).trans_le shorter
  · have apart : slotOffset index + 4 ≤ slotOffset other ∨
        slotOffset other + 4 ≤ slotOffset index := by
      simp only [slotOffset, SLOT_SIZE]
      omega
    exact ⟨number_setNumber (by omega),
      Nat.le_of_eq (number_setNumber (by omega))⟩

theorem cleanupPage_shrunk {V : Type} (txns : TransactionManager V) (page : PageImage) :
    Shrunk page (cleanupPage txns page) := by
  have reduced : Reduced txns page (cleanupPage txns page) := cleanupPage_reduced page
  refine ⟨reduced.slotCount, ?_, fun index inside => ?_⟩
  · refine congrArg LittleEndian.decode (PageImage.read_clearSlots fun index _ => .inr ?_)
    rw [slotOffset, PAGE_HEADER_SIZE]
    omega
  · rcases reduced.slots index inside with same | ⟨empty, -⟩
    · rw [same]
      exact .inr ⟨rfl, Nat.le_refl _⟩
    · exact .inl (congrArg Prod.snd empty)

end Shrinking

/-! ## Runs -/

section Runs

variable {V : Type} {qt : Variant V} {columns : List ColumnDef} {page : PageImage} {index : Nat}

/-- A record that may be marked or overwritten. -/
def Occupied (page : PageImage) (index : Nat) : Prop :=
  index < page.slotCount ∧ (page.slotAt index).2 ≠ 0

theorem Layout.behind (layout : Layout page) (occupied : Occupied page index) :
    slotOffset page.slotCount ≤ (page.slotAt index).1 :=
  layout.slots_below.trans (layout.inside index occupied.1 occupied.2).1

theorem run_unmarkedRecord (page : PageImage) (index : Nat) :
    (PageProgram.unmarkedRecord index).run page = (none, page) ∨
      Occupied page index ∧
        (PageProgram.unmarkedRecord index).run page = (some (page.slotAt index), page) := by
  simp only [PageProgram.unmarkedRecord, ↓run_bind, ↓run_ite,
    run_pure, run_readNumber]
  split_ifs with beyond empty marked
  · exact .inl rfl
  · exact .inl rfl
  · exact .inl (if_pos marked)
  · exact .inr ⟨⟨Nat.lt_of_not_le beyond, empty⟩, if_neg marked⟩

theorem run_overwrite (page : PageImage) (offset length : Nat) (data : Bytes) :
    ((PageProgram.overwrite index offset length data).run page).2 = page ∨
      ∃ bytes : Bytes, bytes.length ≤ length ∧
        ((PageProgram.overwrite index offset length data).run page).2 =
          if bytes.length < length then
            PageImage.setNumber (Memory.write page offset bytes)
              (slotOffset index + 2) 2 bytes.length
          else Memory.write page offset bytes := by
  have taken : (data.take (data.length % 2 ^ 16)).length = data.length % 2 ^ 16 := by
    rw [List.length_take]
    exact Nat.min_eq_left (Nat.mod_le _ _)
  simp only [PageProgram.overwrite, ↓run_bind, ↓run_ite,
    run_pure, run_write, run_writeNumber]
  by_cases large : data.length % 2 ^ 16 > length
  · rw [if_pos large]
    exact .inl rfl
  · rw [if_neg large]
    refine .inr ⟨data.take (data.length % 2 ^ 16), by omega, ?_⟩
    rw [taken]
    split_ifs <;> rfl

theorem Layout.deleteRecord (layout : Layout page) (index : Nat) (txnId : TransactionId) :
    Layout ((PageProgram.deleteRecord index txnId).run page).2 := by
  rw [PageProgram.deleteRecord, run_bind]
  rcases run_unmarkedRecord page index with none | ⟨occupied, found⟩
  · rwa [none]
  · rw [found]
    exact layout.shrunk (.write ((layout.behind occupied).trans (Nat.le_add_right _ _)))

theorem Layout.overwrite (layout : Layout page) (occupied : Occupied page index) (data : Bytes) :
    Layout ((PageProgram.overwrite index (page.slotAt index).1 (page.slotAt index).2 data).run
      page).2 := by
  rcases run_overwrite page (page.slotAt index).1 (page.slotAt index).2 data with
    same | ⟨bytes, fits, done⟩
  · rwa [same]
  rw [done]
  have written : Shrunk page (Memory.write page (page.slotAt index).1 bytes) :=
    .write (layout.behind occupied)
  split
  · refine layout.shrunk (written.trans (.setLength ?_))
    rwa [slotAt_write (layout.behind occupied) occupied.1]
  · exact layout.shrunk written

theorem Layout.updateRecord (layout : Layout page) (index : Nat) (newValues : List V) :
    Layout ((PageProgram.updateRecord qt columns index newValues).run page).2 := by
  rw [PageProgram.updateRecord, run_bind]
  rcases run_unmarkedRecord page index with none | ⟨occupied, found⟩
  · rwa [none]
  · simp only [found, run_bind, run_readNumber]
    split
    · exact layout
    · exact layout.overwrite occupied _

theorem Layout.init (page : PageImage) (pageId : PageId) : Layout (page.init pageId) := by
  have count : (page.init pageId).slotCount = 0 := by
    simp only [PageImage.slotCount, PageImage.init]
    rw [number_setNumber (.inr (by decide)), number_setNumber (.inr (by decide)),
      number_setNumber (.inr (by decide)), number_setNumber (.inr (by decide)),
      number_setNumber_self (by decide)]
  have offset : (page.init pageId).freeSpaceOffset = PAGE_SIZE := by
    simp only [PageImage.freeSpaceOffset, PageImage.init]
    rw [number_setNumber (.inr (by decide)), number_setNumber (.inr (by decide)),
      number_setNumber (.inr (by decide)), number_setNumber_self (by decide)]
  refine ⟨offset.le, ?_, ?_, ?_⟩
  · rw [count, offset]
    decide
  · intro index inside
    omega
  · intro index inside
    omega

theorem Layout.placeRecord (layout : Layout page) (data : Bytes) :
    Layout ((PageProgram.placeRecord data).run page).2 := by
  rw [run_placeRecord layout]
  split
  · rename_i room
    exact layout.placed room
  · exact layout

theorem Layout.apply (layout : Layout page) (operation : PageOperation V) :
    Layout (operation.apply qt page) := by
  cases operation with
  | insertRecord columns rowId values txnId =>
    rw [PageOperation.apply, PageProgram.insertRecord]
    split
    · exact layout
    · rw [run_bind]
      exact layout.placeRecord _
  | insertTuple data =>
    rw [PageOperation.apply, PageProgram.insertTuple, run_ite]
    split
    · exact layout
    · rw [run_bind]
      have placed := layout.placeRecord data
      split
      · rwa [run_pure]
      · rwa [run_bind]
  | updateRecord columns slotIndex newValues => exact layout.updateRecord slotIndex newValues
  | deleteRecord slotIndex txnId => exact layout.deleteRecord slotIndex txnId
  | vacuum txns => exact layout.shrunk (cleanupPage_shrunk txns page)

/-- Every page that was initialised and then used is laid out well. -/
theorem layout_run (page : PageImage) (pageId : PageId) (operations : List (PageOperation V)) :
    Layout (pageAfter qt page pageId operations) := by
  have start := Layout.init page pageId
  rw [pageAfter]
  generalize page.init pageId = current at start
  induction operations generalizing current with
  | nil => exact start
  | cons operation operations ih => exact ih _ (start.apply operation)

/-- Every record lies inside the page, behind the slots and the free space, and apart from the
others. -/
theorem records_apart (page : PageImage) (pageId : PageId) (operations : List (PageOperation V)) :
    let after := pageAfter qt page pageId operations
    slotOffset after.slotCount ≤ after.freeSpaceOffset ∧
      after.freeSpaceOffset ≤ PAGE_SIZE ∧
      ∀ index < after.slotCount, (after.slotAt index).2 ≠ 0 →
        slotOffset after.slotCount ≤ (after.slotAt index).1 ∧
          after.freeSpaceOffset ≤ (after.slotAt index).1 ∧
          (after.slotAt index).1 + (after.slotAt index).2 ≤ PAGE_SIZE ∧
          ∀ other < after.slotCount, other ≠ index → (after.slotAt other).2 ≠ 0 →
            (after.slotAt index).1 + (after.slotAt index).2 ≤ (after.slotAt other).1 ∨
              (after.slotAt other).1 + (after.slotAt other).2 ≤ (after.slotAt index).1 := by
  intro after
  have layout : Layout after := layout_run page pageId operations
  refine ⟨layout.slots_below, layout.bounded, fun index inside nonempty => ?_⟩
  obtain ⟨above, ends⟩ := layout.inside index inside nonempty
  exact ⟨layout.behind ⟨inside, nonempty⟩, above, ends, fun other otherInside different filled =>
    layout.disjoint index inside other otherInside different.symm nonempty filled⟩

end Runs

/-! ## What an operation on a slot touches -/

section Locality

variable {V : Type} {qt : Variant V} {columns : List ColumnDef} {page : PageImage} {index : Nat}

/-- The address lies in the record of the slot. -/
def InRecord (page : PageImage) (index address : Nat) : Prop :=
  (page.slotAt index).1 ≤ address ∧ address < (page.slotAt index).1 + (page.slotAt index).2

/-- An access inside the page to the record of a slot, to its length, or, for reading, to the
rest of the slot and to the header. -/
def OwnAccess (page : PageImage) (index : Nat) : Access → Prop
  | .read address => address < PAGE_SIZE ∧ (address < PAGE_HEADER_SIZE ∨
      slotOffset index ≤ address ∧ address < slotOffset index + SLOT_SIZE ∨
      InRecord page index address)
  | .write address => address < PAGE_SIZE ∧
      (slotOffset index + 2 ≤ address ∧
        address < slotOffset index + SLOT_SIZE ∨ InRecord page index address)

/-- The program touches nothing but its own record, and so keeps the others. -/
structure LocalTo (page : PageImage) (index : Nat) (program : MemoryProgram Bool) : Prop where
  own : program.Within (OwnAccess page index) page
  others : ∀ other < page.slotCount, other ≠ index → ∀ address, InRecord page other address →
    (program.run page).2 address = page address

theorem Layout.localTo (layout : Layout page) {program : MemoryProgram Bool}
    (inside : index < page.slotCount) (own : program.Within (OwnAccess page index) page) :
    LocalTo page index program := by
  refine ⟨own, fun other otherInside different address there => run_frame ?_⟩
  intro written
  obtain ⟨-, inLength | here⟩ := own _ written
  · have behind := layout.behind ⟨otherInside, fun empty => by
      rw [InRecord, empty] at there
      omega⟩
    simp only [InRecord, slotOffset, SLOT_SIZE] at *
    omega
  · simp only [InRecord] at here there
    have := layout.disjoint other otherInside index inside different (by omega) (by omega)
    omega

/-- The number of the slots, the slot and its length. -/
theorem Layout.ownAccess_slot (layout : Layout page) (inside : index < page.slotCount) :
    (∀ address, 2 ≤ address → address < 2 + 2 → OwnAccess page index (.read address)) ∧
      (∀ start, slotOffset index ≤ start → start + 2 ≤ slotOffset index + 4 →
        ∀ address, start ≤ address → address < start + 2 → OwnAccess page index (.read address)) ∧
      ∀ address, slotOffset index + 2 ≤ address →
        address < slotOffset index + 2 + 2 → OwnAccess page index (.write address) := by
  have bounded := layout.bounded
  have below := layout.slots_below
  simp only [OwnAccess, slotOffset, SLOT_SIZE, PAGE_HEADER_SIZE, PAGE_SIZE] at *
  refine ⟨?_, ?_, ?_⟩
  · intro address _ _
    omega
  · intro start _ _ address _ _
    exact ⟨by omega, .inr (.inl (by omega))⟩
  · intro address _ _
    exact ⟨by omega, .inl (by omega)⟩

/-- A part of the record. -/
theorem Layout.inRecord (layout : Layout page) (occupied : Occupied page index) (offset count : Nat)
    (fits : offset + count ≤ (page.slotAt index).2) :
    ∀ address, (page.slotAt index).1 + offset ≤ address →
      address < (page.slotAt index).1 + offset + count →
        OwnAccess page index (.read address) ∧ OwnAccess page index (.write address) := by
  intro address after before
  have inside := layout.inside index occupied.1 occupied.2
  have bounded : address < PAGE_SIZE := by omega
  have record : InRecord page index address := by
    rw [InRecord]
    omega
  exact ⟨⟨bounded, .inr (.inr record)⟩, bounded, .inr record⟩

/-- The record is empty or holds the three numbers of a record header. -/
def Headed (page : PageImage) (index : Nat) : Prop :=
  (page.slotAt index).2 = 0 ∨ 24 ≤ (page.slotAt index).2

instance (page : PageImage) (index : Nat) : Decidable (Headed page index) :=
  inferInstanceAs (Decidable (_ ∨ _))

theorem unmarkedRecord_within (layout : Layout page) (inside : index < page.slotCount)
    (headed : Headed page index) :
    (PageProgram.unmarkedRecord index).Within (OwnAccess page index) page := by
  obtain ⟨counted, slot, -⟩ := layout.ownAccess_slot inside
  rw [PageProgram.unmarkedRecord, within_bind]
  refine ⟨within_readNumber counted, ?_⟩
  split
  · exact within_pure _
  rw [within_bind]
  refine ⟨within_readNumber (slot _ (by omega) (by omega)), ?_⟩
  split
  · exact within_pure _
  · rename_i nonempty
    rw [within_bind]
    refine ⟨within_readNumber (slot _ (by omega) (by omega)), ?_⟩
    rw [within_bind]
    refine ⟨within_readNumber fun address after before =>
      (layout.inRecord ⟨inside, nonempty⟩ 16 8 (headed.resolve_left nonempty) address after
        before).1, ?_⟩
    split <;> exact within_pure _

theorem deleteRecord_within (layout : Layout page) (inside : index < page.slotCount)
    (headed : Headed page index) (txnId : TransactionId) :
    (PageProgram.deleteRecord index txnId).Within (OwnAccess page index) page := by
  rw [PageProgram.deleteRecord, within_bind]
  refine ⟨unmarkedRecord_within layout inside headed, ?_⟩
  rcases run_unmarkedRecord page index with none | ⟨occupied, found⟩
  · rw [none]
    exact within_pure _
  · simp only [found, within_bind]
    exact ⟨within_writeNumber fun address after before =>
      (layout.inRecord occupied 16 8 (headed.resolve_left occupied.2) address after before).2,
      within_pure _⟩

theorem overwrite_within (layout : Layout page) (occupied : Occupied page index) (data : Bytes) :
    (PageProgram.overwrite index (page.slotAt index).1 (page.slotAt index).2 data).Within
      (OwnAccess page index) page := by
  have taken : (data.take (data.length % 2 ^ 16)).length = data.length % 2 ^ 16 := by
    rw [List.length_take]
    exact Nat.min_eq_left (Nat.mod_le _ _)
  rw [PageProgram.overwrite]
  split
  · exact within_pure _
  rw [within_bind]
  refine ⟨within_write.mpr fun address after before => ?_, ?_⟩
  · refine (layout.inRecord occupied 0 (data.length % 2 ^ 16) (by omega) address after ?_).2
    omega
  split
  · rw [within_bind]
    exact ⟨within_writeNumber (layout.ownAccess_slot occupied.1).2.2,
      within_pure _⟩
  · exact within_pure _

theorem updateRecord_within (layout : Layout page) (inside : index < page.slotCount)
    (headed : Headed page index) (newValues : List V) :
    (PageProgram.updateRecord qt columns index newValues).Within (OwnAccess page index) page := by
  rw [PageProgram.updateRecord, within_bind]
  refine ⟨unmarkedRecord_within layout inside headed, ?_⟩
  rcases run_unmarkedRecord page index with none | ⟨occupied, found⟩
  · rw [none]
    exact within_pure _
  have long := headed.resolve_left occupied.2
  simp only [found, within_bind, run_readNumber]
  refine ⟨within_readNumber fun address after before =>
    (layout.inRecord occupied 0 8 (by omega) address after before).1,
    within_readNumber fun address after before =>
      (layout.inRecord occupied 8 8 (by omega) address after before).1, ?_⟩
  split
  · exact within_pure _
  · exact overwrite_within layout occupied _

/-- A record that is shorter than the numbers of a record header is left when it is marked. -/
theorem not_localTo_deleteRecord (layout : Layout page) (inside : index < page.slotCount)
    (headless : ¬ Headed page index) (txnId : TransactionId) :
    ¬ LocalTo page index (PageProgram.deleteRecord index txnId) := by
  intro localTo
  rw [Headed, not_or] at headless
  have behind := layout.behind ⟨inside, headless.1⟩
  have checks := (within_bind.mp localTo.own).1
  have slot := (within_bind.mp checks).2.of_else (Nat.not_le.mpr inside)
  have record := (within_bind.mp slot).2.of_else headless.1
  have mark := (within_bind.mp record).2
  -- The last byte of the mark is read, and lies behind the record.
  have read := (within_bind.mp (within_bind.mp mark).1).1
  have last := within_read.mp read ((page.slotAt index).1 + 23)
    (Nat.add_le_add_left (by decide) _) (Nat.add_lt_add_left (by decide : 23 < 16 + 8) _)
  obtain ⟨-, header | slot | record⟩ := last
  · rw [slotOffset] at behind
    omega
  · simp only [slotOffset, SLOT_SIZE] at behind slot
    omega
  · rw [InRecord] at record
    omega

/-- Marking and overwriting a record stay inside it exactly when it is empty or holds the numbers
of a record header. -/
theorem local_iff (page : PageImage) (pageId : PageId) (operations : List (PageOperation V))
    (index : Nat) :
    let after := pageAfter qt page pageId operations
    (index < after.slotCount →
        (∀ txnId, LocalTo after index (PageProgram.deleteRecord index txnId)) ∧
        ∀ columns newValues,
          LocalTo after index (PageProgram.updateRecord qt columns index newValues)) ↔
      (index < after.slotCount → Headed after index) := by
  intro after
  have layout : Layout after := layout_run page pageId operations
  constructor
  · intro localTo inside
    by_contra headless
    exact not_localTo_deleteRecord layout inside headless 0 ((localTo inside).1 0)
  · intro headed inside
    exact ⟨fun txnId => layout.localTo inside (deleteRecord_within layout inside (headed inside) _),
      fun columns newValues =>
        layout.localTo inside (updateRecord_within layout inside (headed inside) _)⟩

end Locality

/-! ## The check of the free space -/

section Space

variable {V : Type} {qt : Variant V} {columns : List ColumnDef} {page : PageImage} {rowId : RowId}
  {values : List V} {txnId : TransactionId} {header : RecordHeader} {data : Bytes}

theorem hasEnoughSpace_iff (layout : Layout page) (recordSize : Nat) :
    page.hasEnoughSpace recordSize = true ↔
      slotOffset page.slotCount + SLOT_SIZE + recordSize ≤ page.freeSpaceOffset := by
  have bounded := layout.bounded
  have below := layout.slots_below
  rw [PageImage.hasEnoughSpace, decide_eq_true_iff]
  simp only [PageImage.getFreeSpace]
  split <;> simp only [slotOffset, PAGE_HEADER_SIZE, SLOT_SIZE, PAGE_SIZE] at * <;> omega

theorem insertRecord_iff (layout : Layout page)
    (serialized : serializeRecord qt columns rowId values txnId = some (header, data)) :
    ((PageProgram.insertRecord qt columns rowId values txnId).run page).1 = true ↔
      slotOffset page.slotCount + 2 * SLOT_SIZE + recordSize data ≤
        page.freeSpaceOffset := by
  have size : (writeRecordHeader header ++ data).length % 2 ^ 16 = recordSize data := by
    rw [List.length_append, length_writeRecordHeader, recordSize]
  rw [PageProgram.insertRecord, serialized]
  simp only [run_bind, run_pure, run_placeRecord layout, size,
    PageImage.HasRoom]
  split
  · rename_i room
    exact iff_of_true rfl room
  · rename_i full
    exact iff_of_false Bool.false_ne_true full

/-- The check agrees with the insertion unless the free space holds the record and one slot,
but not two. -/
theorem space_check_iff (page : PageImage) (pageId : PageId) (operations : List (PageOperation V))
    (serialized : serializeRecord qt columns rowId values txnId = some (header, data)) :
    let after := pageAfter qt page pageId operations
    (after.hasEnoughSpace (calculateRecordSize qt columns values) = true ↔
        ((PageProgram.insertRecord qt columns rowId values txnId).run after).1 = true) ↔
      ¬ (slotOffset after.slotCount + SLOT_SIZE + recordSize data ≤
          after.freeSpaceOffset ∧
        after.freeSpaceOffset <
          slotOffset after.slotCount + 2 * SLOT_SIZE + recordSize data) := by
  intro after
  have layout : Layout after := layout_run page pageId operations
  have more : SLOT_SIZE ≤ 2 * SLOT_SIZE := by decide
  rw [calculateRecordSize_of_serialize serialized, hasEnoughSpace_iff layout,
    insertRecord_iff layout serialized]
  omega

end Space

namespace PageLiterals

open RawPage.Literals (conv)

def blank : PageImage := fun _ => 0

def columns : List ColumnDef := [{ name := "data".toList, type := .BLOB }]

def short : Cell := .bytes ⟨[1, 2, 3], by decide⟩

/-- Two rows, of which the first is marked as deleted. -/
def rows : List (PageOperation Cell) :=
  [.insertRecord columns 1 [short] 1, .insertRecord columns 2 [.null] 1, .deleteRecord 0 2]

/-- A third row fits behind the two, and the check says so. -/
theorem space_check_iff_third :
    let after := pageAfter (cells conv) blank 1 rows
    (after.hasEnoughSpace (calculateRecordSize (cells conv) columns [short]) = true ↔
        ((PageProgram.insertRecord (cells conv) columns 3 [short] 2).run after).1 = true) ∧
      after.hasEnoughSpace (calculateRecordSize (cells conv) columns [short]) = true :=
  ⟨(space_check_iff blank 1 rows rfl).mpr (by decide +kernel), by decide +kernel⟩

theorem serializeRecord_blob (content : Binary) : ∃ header data,
    serializeRecord (cells conv) columns 1 [.bytes content] 1 = some (header, data) ∧
      recordSize data = (27 + (writeBinary content.content).length) % 2 ^ 16 := by
  refine ⟨_, 0 :: writeBinary content.content ++ [], rfl, ?_⟩
  rw [recordSize, List.append_nil, List.length_cons, RECORD_HEADER_SIZE]
  omega

/-- The content of a record of 8156 bytes. -/
def wide : Binary := ⟨List.replicate 8125 0, by rw [List.length_replicate]; decide⟩

/-- The largest record that the check lets into an empty page is refused. -/
theorem wide_row_refused :
    (blank.init 1).hasEnoughSpace (calculateRecordSize (cells conv) columns [.bytes wide]) =
        true ∧
      ((PageProgram.insertRecord (cells conv) columns 1 [.bytes wide] 1).run (blank.init 1)).1 =
        false := by
  obtain ⟨header, data, serialized, size⟩ := serializeRecord_blob wide
  have length : wide.content.length = 8125 := List.length_replicate
  rw [length_writeBinary, length] at size
  have layout : Layout (blank.init 1) := .init blank 1
  constructor
  · rw [calculateRecordSize_of_serialize serialized, hasEnoughSpace_iff layout, size]
    decide
  · rw [Bool.eq_false_iff, Ne, insertRecord_iff layout serialized, size]
    decide

/-- Two tuples without record headers, one behind the other. -/
def tuples : List (PageOperation Cell) :=
  [.insertTuple (List.replicate 8 0), .insertTuple (List.replicate 16 1)]

/-- Marking the second one writes the number of the transaction into the first. -/
theorem short_tuple_overruns :
    let after := pageAfter (cells conv) blank 1 tuples
    after.slotAt 0 = (8184, 8) ∧ after.slotAt 1 = (8168, 16) ∧ after 8184 = 0 ∧
      ((PageProgram.deleteRecord 1 7).run after).2 8184 = 7 := by
  decide

end PageLiterals

end QinDB.Storage
