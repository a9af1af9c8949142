/-
# Index.BucketPrograms — a bucket page as a list

The operations of `hash_bucket_page.cpp` as programs that load and store bytes of the page. They
compute what the functions of `Index.HashBucketPage` do, and their logs say which bytes they touch.

* `run_insert`, `run_remove`: the programs and the functions.
* `loops_within`: the loops over packed entries stay inside the page.
* `bucket_refines_list`: after any calls the page is a list of entries with different keys, every
  operation does to it what it does to the list, and none leaves the page.
-/
import QinDB.Base.MemoryProgram
import QinDB.Index.HashBucketPage

namespace QinDB.Index

open QinDB.Core QinDB.Base HashBucketPage
open MemoryProgram (run_bind run_ite run_pure run_read run_write within_pure within_read
  within_write within_bind)

set_option autoImplicit false

/-! ## The operations -/

namespace BucketProgram

def readWord (offset : Nat) : MemoryProgram Nat := do
  return LittleEndian.decode (← .read offset 4)

def writeWord (offset word : Nat) : MemoryProgram Unit :=
  .write offset (LittleEndian.encode 4 word)

/-- What each round of the loops reads. -/
def entryAt (offset : Nat) : MemoryProgram Entry := do
  let keySize ← readWord offset
  let key ← .read (offset + KEY_SIZE_FIELD) keySize
  let value ← .read (offset + KEY_SIZE_FIELD + keySize + VALUE_SIZE_FIELD) VALUE_DATA_SIZE
  return (key, LittleEndian.decode value)

/-- The loop of `search` and `remove`, which ends at the first entry that passes. -/
def findLoop (test : Entry → Bool) : Nat → Nat → MemoryProgram (Option (Nat × Entry))
  | 0, _ => return none
  | count + 1, offset => do
      let entry ← entryAt offset
      if test entry then return some (offset, entry)
      findLoop test count (offset + entrySize entry.1.length)

/-- The loop of `searchAll` and `getAll`. -/
def collectLoop (test : Entry → Bool) : Nat → Nat → MemoryProgram (List Entry)
  | 0, _ => return []
  | count + 1, offset => do
      let entry ← entryAt offset
      let rest ← collectLoop test count (offset + entrySize entry.1.length)
      return if test entry then entry :: rest else rest

/-- The loop of `insert` and `isFull`, which reads the sizes only. -/
def skipLoop : Nat → Nat → MemoryProgram Nat
  | 0, offset => return offset
  | count + 1, offset => do
      let keySize ← readWord offset
      skipLoop count (offset + entrySize keySize)

def search (key : Bytes) : MemoryProgram (Option RowId) := do
  if key = [] then return none
  let numEntries ← readWord NUM_ENTRIES_OFFSET
  return (← findLoop (fun entry => entry.1 = key) numEntries HEADER_SIZE).map (·.2.2)

def searchAll (key : Bytes) : MemoryProgram (List RowId) := do
  if key = [] then return []
  let numEntries ← readWord NUM_ENTRIES_OFFSET
  return (← collectLoop (fun entry => entry.1 = key) numEntries HEADER_SIZE).map (·.2)

def getAll : MemoryProgram (List Entry) := do
  let numEntries ← readWord NUM_ENTRIES_OFFSET
  collectLoop (fun _ => true) numEntries HEADER_SIZE

def isFull (keySize : Nat) : MemoryProgram Bool := do
  let numEntries ← readWord NUM_ENTRIES_OFFSET
  let usedSpace := (← skipLoop numEntries HEADER_SIZE) - HEADER_SIZE
  return decide (usedSpace + entrySize keySize > MAX_ENTRY_SPACE)

/-- The end of `insert`. -/
def putEntry (numEntries offset : Nat) (key : Bytes) (value : RowId) : MemoryProgram Unit := do
  writeWord offset key.length
  .write (offset + KEY_SIZE_FIELD) key
  writeWord (offset + KEY_SIZE_FIELD + key.length) VALUE_DATA_SIZE
  .write (offset + KEY_SIZE_FIELD + key.length + VALUE_SIZE_FIELD)
    (LittleEndian.encode VALUE_DATA_SIZE value)
  writeWord NUM_ENTRIES_OFFSET (numEntries + 1)

def insert (key : Bytes) (value : RowId) : MemoryProgram Bool := do
  if key = [] then return false
  if (← search key).isSome then return false
  if ← isFull key.length then return false
  let numEntries ← readWord NUM_ENTRIES_OFFSET
  putEntry numEntries (← skipLoop numEntries HEADER_SIZE) key value
  return true

/-- The rest of `remove`: the entries behind are moved down, and the end is cleared. -/
def takeOut (numEntries entryStart keySize : Nat) : MemoryProgram Unit := do
  let size := entrySize keySize
  let remaining ← .read (entryStart + size) (HEADER_SIZE + MAX_ENTRY_SPACE - (entryStart + size))
  .write entryStart remaining
  .write (HEADER_SIZE + MAX_ENTRY_SPACE - size) (List.replicate size 0)
  writeWord NUM_ENTRIES_OFFSET (numEntries - 1)

def remove (key : Bytes) (value : RowId) : MemoryProgram Bool := do
  if key = [] then return false
  let numEntries ← readWord NUM_ENTRIES_OFFSET
  match ← findLoop (fun entry => Matches key value entry) numEntries HEADER_SIZE with
  | none => return false
  | some (entryStart, entryKey, _) =>
      takeOut numEntries entryStart entryKey.length
      return true

/-! ## What they compute -/

variable {data : Data} {offset count : Nat} {test : Entry → Bool} {key : Bytes} {value : RowId}

@[simp] theorem run_readWord : (readWord offset).run data =
    (HashBucketPage.readWord data offset, data) := rfl

@[simp] theorem run_writeWord {word : Nat} : (writeWord offset word).run data =
    ((), HashBucketPage.writeWord data offset word) := rfl

theorem run_entryAt : (entryAt offset).run data =
    ((Memory.read data (offset + KEY_SIZE_FIELD) (HashBucketPage.readWord data offset),
      LittleEndian.decode (Memory.read data (offset + KEY_SIZE_FIELD +
        HashBucketPage.readWord data offset + VALUE_SIZE_FIELD) VALUE_DATA_SIZE)), data) := rfl

theorem run_findLoop : (findLoop test count offset).run data =
    ((scan data count offset).find? (fun found => test found.2), data) := by
  induction count generalizing offset with
  | zero => rfl
  | succ count ih =>
    simp only [findLoop, ↓run_bind, ↓run_ite, run_entryAt, run_pure, ih, Memory.length_read, scan,
      List.find?_cons]
    cases test _ <;> rfl

theorem run_collectLoop : (collectLoop test count offset).run data =
    (((scan data count offset).map (·.2)).filter test, data) := by
  induction count generalizing offset with
  | zero => rfl
  | succ count ih =>
    simp only [collectLoop, run_bind, run_entryAt, run_pure, ih, Memory.length_read, scan,
      List.map_cons, List.filter_cons]

theorem run_skipLoop : (skipLoop count offset).run data = (skip data count offset, data) := by
  induction count generalizing offset with
  | zero => rfl
  | succ count ih => rw [skipLoop, run_bind, run_readWord, ih, skip]

theorem run_search : (search key).run data = (HashBucketPage.search data key, data) := by
  simp only [search, ↓run_ite, ↓run_bind, run_pure, run_readWord, run_findLoop,
    HashBucketPage.search, visited, getNumEntries]
  split <;> rfl

theorem run_searchAll : (searchAll key).run data = (HashBucketPage.searchAll data key, data) := by
  simp only [searchAll, ↓run_ite, ↓run_bind, run_pure, run_readWord, run_collectLoop,
    HashBucketPage.searchAll, visited, getNumEntries, List.filter_map, List.map_map]
  split <;> rfl

theorem run_getAll : getAll.run data = ((visited data).map (·.2), data) := by
  simp only [getAll, run_bind, run_readWord, run_collectLoop, List.filter_true, visited,
    getNumEntries]

theorem run_isFull {keySize : Nat} :
    (isFull keySize).run data = (HashBucketPage.isFull data keySize, data) := by
  simp only [isFull, run_bind, run_readWord, run_skipLoop, run_pure]
  rfl

/-- The program does what the function does. -/
def outcome (data : Data) : Option Data → Bool × Data
  | none => (false, data)
  | some data' => (true, data')

theorem run_insert : (insert key value).run data =
    outcome data (HashBucketPage.insert data key value) := by
  simp only [insert, putEntry, ↓run_ite, ↓run_bind, run_pure, run_readWord, run_search, run_isFull,
    run_skipLoop, run_writeWord, run_write, HashBucketPage.insert, getNumEntries]
  split_ifs <;> rfl

theorem run_takeOut {numEntries entryStart keySize : Nat} :
    ((takeOut numEntries entryStart keySize).run data).2 =
      HashBucketPage.writeWord (Memory.fill (Memory.write data entryStart
        (Memory.read data (entryStart + entrySize keySize)
          (HEADER_SIZE + MAX_ENTRY_SPACE - (entryStart + entrySize keySize))))
        (HEADER_SIZE + MAX_ENTRY_SPACE - entrySize keySize) (entrySize keySize) 0)
        NUM_ENTRIES_OFFSET (numEntries - 1) := by
  simp only [takeOut, run_bind, run_read, run_write, run_writeWord, Memory.write_replicate]

theorem run_remove : (remove key value).run data =
    outcome data (HashBucketPage.remove data key value) := by
  simp only [remove, ↓run_ite, ↓run_bind, run_pure, run_readWord, run_findLoop,
    HashBucketPage.remove, visited, getNumEntries]
  split
  · rfl
  · cases (scan data (HashBucketPage.readWord data NUM_ENTRIES_OFFSET) HEADER_SIZE).find? _ with
    | none => rfl
    | some found =>
      simp only [run_bind, run_pure, run_takeOut]
      rfl

/-! ## Which bytes they touch -/

def InPage (access : Access) : Prop := access.address < PAGE_SIZE

theorem readWord_within (fits : offset + 4 ≤ PAGE_SIZE) :
    (readWord offset).Within InPage data := by
  refine within_bind.mpr ⟨within_read.mpr fun address _ before => ?_, within_pure _⟩
  exact Nat.lt_of_lt_of_le before fits

theorem write_within {bytes : Bytes} (fits : offset + bytes.length ≤ PAGE_SIZE) :
    (MemoryProgram.write offset bytes).Within InPage data :=
  within_write.mpr fun _ _ before => Nat.lt_of_lt_of_le before fits

theorem writeWord_within {word : Nat} (fits : offset + 4 ≤ PAGE_SIZE) :
    (writeWord offset word).Within InPage data :=
  write_within (by rwa [LittleEndian.length_encode])

theorem entryAt_within
    (fits : offset + entrySize (HashBucketPage.readWord data offset) ≤ PAGE_SIZE) :
    (entryAt offset).Within InPage data := by
  simp only [entrySize, KEY_SIZE_FIELD, VALUE_SIZE_FIELD, VALUE_DATA_SIZE] at fits
  refine within_bind.mpr ⟨readWord_within (by omega), within_bind.mpr
    ⟨within_read.mpr ?_, within_bind.mpr ⟨within_read.mpr ?_, within_pure _⟩⟩⟩ <;>
    · intro address _ before
      simp only [run_readWord, InPage, Access.address, KEY_SIZE_FIELD, VALUE_SIZE_FIELD,
        VALUE_DATA_SIZE] at before ⊢
      omega

theorem loops_within : ∀ (entries : List Entry) (offset : Nat),
    Memory.read data offset (packed entries).length = packed entries →
    (∀ entry ∈ entries, entry.1.length < 2 ^ 32 ∧ entry.2 < 2 ^ 64) →
    offset + (packed entries).length ≤ PAGE_SIZE →
      (findLoop test entries.length offset).Within InPage data ∧
        (collectLoop test entries.length offset).Within InPage data ∧
        (skipLoop entries.length offset).Within InPage data
  | [], _, _, _, _ => ⟨within_pure _, within_pure _, within_pure _⟩
  | entry :: entries, offset, bytes, bounds, fits => by
      rw [packed_cons] at bytes fits
      rw [List.length_append, length_encodeEntry] at fits
      obtain ⟨here, later⟩ := read_split bytes
      obtain ⟨small, wide⟩ := bounds entry List.mem_cons_self
      have size := (read_entry small wide here).1
      rw [length_encodeEntry] at later
      have entryWithin : (entryAt offset).Within InPage data :=
        entryAt_within (by rw [size]; omega)
      have sizeWithin := (within_bind.mp entryWithin).1
      obtain ⟨found, collected, skipped⟩ := loops_within entries (offset + entrySize entry.1.length)
        later (fun other member => bounds other (List.mem_cons_of_mem _ member)) (by omega)
      simp only [List.length_cons, findLoop, collectLoop, skipLoop, within_bind, run_entryAt,
        run_readWord, Memory.length_read, size]
      refine ⟨⟨entryWithin, ?_⟩, ⟨entryWithin, collected, within_pure _⟩, sizeWithin, skipped⟩
      split
      · exact within_pure _
      · exact found

section Holding

variable {entries : List Entry} {next : PageId}

theorem loops_within_of_holds (holds : Holds data entries next) (test : Entry → Bool) :
    (readWord NUM_ENTRIES_OFFSET).Within InPage data ∧
      (findLoop test (getNumEntries data) HEADER_SIZE).Within InPage data ∧
      (collectLoop test (getNumEntries data) HEADER_SIZE).Within InPage data ∧
      (skipLoop (getNumEntries data) HEADER_SIZE).Within InPage data := by
  have fits := holds.fits
  rw [holds.count]
  refine ⟨readWord_within (by decide), loops_within entries _ holds.bytes holds.bounds ?_⟩
  rw [MAX_ENTRY_SPACE] at fits
  simp only [HEADER_SIZE, PAGE_SIZE] at fits ⊢
  omega

theorem search_within (holds : Holds data entries next) (key : Bytes) :
    (search key).Within InPage data := by
  obtain ⟨counted, found, -⟩ := loops_within_of_holds holds fun entry => entry.1 = key
  rw [search]
  split
  · exact within_pure _
  · exact within_bind.mpr ⟨counted, within_bind.mpr ⟨found, within_pure _⟩⟩

theorem searchAll_within (holds : Holds data entries next) (key : Bytes) :
    (searchAll key).Within InPage data := by
  obtain ⟨counted, -, collected, -⟩ := loops_within_of_holds holds fun entry => entry.1 = key
  rw [searchAll]
  split
  · exact within_pure _
  · exact within_bind.mpr ⟨counted, within_bind.mpr ⟨collected, within_pure _⟩⟩

theorem getAll_within (holds : Holds data entries next) : getAll.Within InPage data := by
  obtain ⟨counted, -, collected, -⟩ := loops_within_of_holds holds fun _ => true
  exact within_bind.mpr ⟨counted, collected⟩

theorem putEntry_within {numEntries : Nat} (fits : offset + entrySize key.length ≤ PAGE_SIZE) :
    (putEntry numEntries offset key value).Within InPage data := by
  have value8 : (LittleEndian.encode VALUE_DATA_SIZE value).length = VALUE_DATA_SIZE :=
    LittleEndian.length_encode _ _
  simp only [entrySize, KEY_SIZE_FIELD, VALUE_SIZE_FIELD, VALUE_DATA_SIZE] at fits value8
  refine within_bind.mpr ⟨writeWord_within (by omega), within_bind.mpr ⟨write_within ?_,
    within_bind.mpr ⟨writeWord_within ?_, within_bind.mpr ⟨write_within ?_,
      writeWord_within (by decide)⟩⟩⟩⟩ <;>
    simp only [KEY_SIZE_FIELD, VALUE_SIZE_FIELD, VALUE_DATA_SIZE] <;>
    omega

theorem insert_within (holds : Holds data entries next) (key : Bytes) (value : RowId) :
    (insert key value).Within InPage data := by
  obtain ⟨counted, -, -, skipped⟩ := loops_within_of_holds holds fun _ => true
  rw [insert]
  split
  · exact within_pure _
  refine within_bind.mpr ⟨search_within holds key, ?_⟩
  rw [run_search]
  split
  · exact within_pure _
  refine within_bind.mpr
    ⟨within_bind.mpr ⟨counted, within_bind.mpr ⟨skipped, within_pure _⟩⟩, ?_⟩
  rw [run_isFull]
  split
  · exact within_pure _
  · rename_i room
    rw [holds.isFull, decide_eq_true_iff, Nat.not_lt, MAX_ENTRY_SPACE] at room
    refine within_bind.mpr ⟨counted, within_bind.mpr ⟨skipped, within_bind.mpr
      ⟨putEntry_within ?_, within_pure _⟩⟩⟩
    rw [run_readWord, run_skipLoop]
    change skip data (getNumEntries data) HEADER_SIZE + _ ≤ _
    rw [holds.count, holds.skip]
    simp only [HEADER_SIZE, PAGE_SIZE] at room ⊢
    omega

theorem takeOut_within {numEntries entryStart keySize : Nat}
    (fits : entryStart + entrySize keySize ≤ PAGE_SIZE) :
    (takeOut numEntries entryStart keySize).Within InPage data := by
  have whole : HEADER_SIZE + MAX_ENTRY_SPACE = PAGE_SIZE := rfl
  refine within_bind.mpr ⟨within_read.mpr fun address _ before => ?_, within_bind.mpr
    ⟨write_within ?_, within_bind.mpr ⟨write_within ?_, writeWord_within (by decide)⟩⟩⟩
  · rw [InPage, Access.address]
    omega
  · rw [run_read, Memory.length_read]
    omega
  · rw [List.length_replicate]
    omega

theorem remove_within (holds : Holds data entries next) (key : Bytes) (value : RowId) :
    (remove key value).Within InPage data := by
  obtain ⟨counted, found, -⟩ := loops_within_of_holds holds fun entry => Matches key value entry
  have fits := holds.fits
  rw [remove]
  split
  · exact within_pure _
  refine within_bind.mpr ⟨counted, within_bind.mpr ⟨found, ?_⟩⟩
  have listed : scan data (HashBucketPage.readWord data NUM_ENTRIES_OFFSET) HEADER_SIZE =
      located HEADER_SIZE entries := holds.visited
  simp only [run_readWord, run_findLoop, listed]
  split
  · exact within_pure _
  · rename_i entryStart entryKey entryValue here
    refine within_bind.mpr ⟨takeOut_within ?_, within_pure _⟩
    obtain ⟨front, back, rfl, rfl⟩ := located_split (List.mem_of_find?_eq_some here)
    simp only [packed_append, packed_cons, List.length_append, length_encodeEntry, MAX_ENTRY_SPACE,
      HEADER_SIZE, PAGE_SIZE] at fits ⊢
    omega

end Holding

end BucketProgram

/-! ## The list -/

/-- The calls that change a page. -/
inductive BucketCall where
  | insert (key : Bytes) (value : UInt64)
  | remove (key : Bytes) (value : UInt64)

namespace BucketCall

def program : BucketCall → MemoryProgram Bool
  | insert key value => BucketProgram.insert key value.toNat
  | remove key value => BucketProgram.remove key value.toNat

/-- The key is not there, and there is room for it. -/
def Fits (key : Bytes) (entries : List Entry) : Prop :=
  key ≠ [] ∧ key ∉ entries.map Prod.fst ∧
    (packed entries).length + entrySize key.length ≤ MAX_ENTRY_SPACE

instance (key : Bytes) (entries : List Entry) : Decidable (Fits key entries) :=
  inferInstanceAs (Decidable (_ ∧ _))

/-- What the call does to a list of entries. -/
def onList (entries : List Entry) : BucketCall → Bool × List Entry
  | insert key value =>
      if Fits key entries then (true, entries ++ [(key, value.toNat)]) else (false, entries)
  | remove key value =>
      (entries.any fun entry => Matches key value.toNat entry,
        entries.eraseP fun entry => Matches key value.toNat entry)

end BucketCall

/-- The page holds the entries, under different keys, and is the last of its bucket. -/
structure Represents (data : Data) (entries : List Entry) : Prop where
  holds : Holds data entries INVALID_PAGE_ID
  distinct : (entries.map Prod.fst).Nodup

namespace Represents

variable {data : Data} {entries : List Entry}

theorem absent_of_insert (represents : Represents data entries) {key : Bytes} {value : RowId}
    {data' : Data} (taken : HashBucketPage.insert data key value = some data') :
    key ∉ entries.map Prod.fst := by
  intro present
  obtain ⟨entry, member, same⟩ := List.mem_map.mp present
  rw [HashBucketPage.insert] at taken
  split_ifs at taken with empty found
  refine found ?_
  rw [represents.holds.search empty, Option.isSome_map, List.find?_isSome]
  exact ⟨entry, member, decide_eq_true same⟩

theorem insert (represents : Represents data entries) (key : Bytes) (value : UInt64) :
    let after := (BucketCall.insert key value).program.run data
    after.1 = ((BucketCall.insert key value).onList entries).1 ∧
      Represents after.2 ((BucketCall.insert key value).onList entries).2 := by
  simp only [BucketCall.program, BucketProgram.run_insert, BucketCall.onList]
  by_cases empty : key = []
  · rw [if_neg fun fits => fits.1 empty, HashBucketPage.insert, if_pos empty]
    exact ⟨rfl, represents⟩
  have storable : Storable (key, value.toNat) := ⟨empty, value.toNat_lt⟩
  rcases represents.holds.insert storable with ⟨refused, reason⟩ | ⟨data', taken, holds⟩
  · have unfit : ¬ BucketCall.Fits key entries := by
      rintro ⟨-, absent, room⟩
      rcases reason with ⟨other, member⟩ | full
      · exact absent (List.mem_map.mpr ⟨_, member, rfl⟩)
      · omega
    rw [refused, if_neg unfit]
    exact ⟨rfl, represents⟩
  · have absent := represents.absent_of_insert taken
    have room := holds.fits
    rw [packed_append, packed_cons, packed_nil, List.append_nil, List.length_append,
      length_encodeEntry] at room
    rw [taken, if_pos ⟨empty, absent, room⟩]
    refine ⟨rfl, holds, ?_⟩
    rw [List.map_append, List.map_singleton, List.nodup_append]
    refine ⟨represents.distinct, List.pairwise_singleton _ _, fun other member last single => ?_⟩
    rw [List.mem_singleton.mp single]
    rintro rfl
    exact absent member

theorem remove (represents : Represents data entries) (key : Bytes) (value : UInt64) :
    let after := (BucketCall.remove key value).program.run data
    after.1 = ((BucketCall.remove key value).onList entries).1 ∧
      Represents after.2 ((BucketCall.remove key value).onList entries).2 := by
  have missing : (∀ entry ∈ entries, ¬ Matches key value.toNat entry) →
      HashBucketPage.remove data key value.toNat = none →
        let after := BucketProgram.outcome data (HashBucketPage.remove data key value.toNat)
        after.1 = ((BucketCall.remove key value).onList entries).1 ∧
          Represents after.2 ((BucketCall.remove key value).onList entries).2 := by
    intro none refused
    have any : (entries.any fun entry => Matches key value.toNat entry) = false := by
      rw [List.any_eq_false]
      exact fun entry member => by simpa using none entry member
    rw [refused, BucketCall.onList, any, List.eraseP_of_forall_not fun entry member => by
      simpa using none entry member]
    exact ⟨rfl, represents⟩
  rw [BucketCall.program, BucketProgram.run_remove]
  by_cases empty : key = []
  · refine missing (fun entry member matching => ?_) (if_pos empty)
    exact (represents.holds.storable entry member).1 (matching.1.trans empty)
  rcases represents.holds.remove empty value.toNat with ⟨refused, none⟩ |
    ⟨data', front, entry, back, taken, matching, rfl, holds⟩
  · exact missing none refused
  · have distinct := represents.distinct
    -- No entry before has the key of the one that is taken out.
    have before : ∀ other ∈ front, ¬ Matches key value.toNat other := by
      intro other member same
      rw [List.map_append, List.nodup_append] at distinct
      refine distinct.2.2 other.1 (List.mem_map_of_mem member) entry.1 List.mem_cons_self ?_
      rw [same.1, matching.1]
    have any : ((front ++ entry :: back).any fun entry => Matches key value.toNat entry) = true :=
      List.any_eq_true.mpr ⟨entry, List.mem_append_right _ List.mem_cons_self,
        decide_eq_true matching⟩
    have erased : (front ++ entry :: back).eraseP (fun entry => Matches key value.toNat entry) =
        front ++ back := by
      rw [List.eraseP_append_right _ fun other member => by simpa using before other member,
        List.eraseP_cons_of_pos]
      exact decide_eq_true matching
    rw [taken, BucketCall.onList, any, erased]
    refine ⟨rfl, holds, distinct.sublist ?_⟩
    exact ((List.Sublist.refl front).append (List.sublist_cons_self entry back)).map _

theorem call (represents : Represents data entries) (call : BucketCall) :
    (call.program.run data).1 = (call.onList entries).1 ∧
      Represents (call.program.run data).2 (call.onList entries).2 := by
  cases call with
  | insert key value => exact represents.insert key value
  | remove key value => exact represents.remove key value

/-- The page and the list after the same calls. -/
theorem calls (represents : Represents data entries) (calls : List BucketCall) :
    Represents (calls.foldl (fun data call => (call.program.run data).2) data)
      (calls.foldl (fun entries call => (call.onList entries).2) entries) := by
  induction calls generalizing data entries with
  | nil => exact represents
  | cons call calls ih => exact ih (represents.call call).2

theorem within (represents : Represents data entries) (call : BucketCall) :
    call.program.Within BucketProgram.InPage data := by
  cases call with
  | insert key value => exact BucketProgram.insert_within represents.holds key _
  | remove key value => exact BucketProgram.remove_within represents.holds key _

/-- What the operations that read report. -/
theorem reads (represents : Represents data entries) (key : Bytes) :
    (BucketProgram.search key).run data =
        ((entries.find? fun entry => entry.1 = key).map Prod.snd, data) ∧
      (BucketProgram.searchAll key).run data =
        ((entries.filter fun entry => entry.1 = key).map Prod.snd, data) ∧
      BucketProgram.getAll.run data = (entries, data) := by
  rw [BucketProgram.run_search, BucketProgram.run_searchAll, BucketProgram.run_getAll,
    represents.holds.visited, snd_located]
  by_cases empty : key = []
  · -- No entry has an empty key.
    have none : ∀ entry ∈ entries, ¬ (decide (entry.1 = key)) = true := by
      intro entry member
      rw [decide_eq_true_iff, empty]
      exact (represents.holds.storable entry member).1
    rw [HashBucketPage.search, HashBucketPage.searchAll, if_pos empty, if_pos empty,
      List.find?_eq_none.mpr none, List.filter_eq_nil_iff.mpr none]
    exact ⟨rfl, rfl, rfl⟩
  · rw [represents.holds.search empty, represents.holds.searchAll empty]
    exact ⟨rfl, rfl, rfl⟩

end Represents

/-- After any calls on an initialised page: the page is the list that the calls make of the empty
one, all keys in it are different, the next call answers and changes the page as it does the list,
what is read is what the list says, and every access is inside the page. -/
theorem bucket_refines_list (page : Data) (calls : List BucketCall) :
    let data := calls.foldl (fun data call => (call.program.run data).2) (initializePage page)
    let entries := calls.foldl (fun entries call => (call.onList entries).2) []
    Holds data entries INVALID_PAGE_ID ∧ (entries.map Prod.fst).Nodup ∧
      (∀ call : BucketCall, (call.program.run data).1 = (call.onList entries).1 ∧
        Holds (call.program.run data).2 (call.onList entries).2 INVALID_PAGE_ID ∧
        call.program.Within BucketProgram.InPage data) ∧
      ∀ key, ((BucketProgram.search key).run data =
          ((entries.find? fun entry => entry.1 = key).map Prod.snd, data) ∧
        (BucketProgram.searchAll key).run data =
          ((entries.filter fun entry => entry.1 = key).map Prod.snd, data) ∧
        BucketProgram.getAll.run data = (entries, data)) ∧
        (BucketProgram.search key).Within BucketProgram.InPage data ∧
        (BucketProgram.searchAll key).Within BucketProgram.InPage data ∧
        BucketProgram.getAll.Within BucketProgram.InPage data := by
  intro data entries
  have start : Represents (initializePage page) [] := ⟨.initializePage page, List.nodup_nil⟩
  have represents : Represents data entries := start.calls calls
  refine ⟨represents.holds, represents.distinct, fun call => ?_, fun key => ?_⟩
  · obtain ⟨answered, after⟩ := represents.call call
    exact ⟨answered, after.holds, represents.within call⟩
  · exact ⟨represents.reads key, BucketProgram.search_within represents.holds key,
      BucketProgram.searchAll_within represents.holds key,
      BucketProgram.getAll_within represents.holds⟩

end QinDB.Index
