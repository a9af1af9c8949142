/-
# Index.HashBucketPage — the bucket pages of a hash index

Translation of `hash_bucket_page.cpp`. A bucket page is the bytes of a page: the number
of its entries, the next page of the bucket, unused bytes up to the end of the header, and
the entries packed one behind the other. The loops that walk over the entries are `scan`,
which reads them, and `skip`, which reads only their sizes.

* `Holds`: the page that packs a list of entries.
* `Holds.insert`: an entry is refused if its key is on the page or the page is full, and put
  behind the others if not.
* `Holds.search`, `Holds.searchAll`, `Holds.remove`: the entries of a key are read, and
  one is taken out with the bytes behind it moved down.
-/
import QinDB.Base.LittleEndian
import QinDB.Base.Memory
import QinDB.Core.Types

namespace QinDB.Index.HashBucketPage

open QinDB.Core QinDB.Base

set_option autoImplicit false

/-- A serialised key and a row. -/
abbrev Entry := Bytes × RowId

def INVALID_ROW_ID : RowId := 0
def NUM_ENTRIES_OFFSET : Nat := 0
def NEXT_BUCKET_PAGE_ID_OFFSET : Nat := 4
def HEADER_SIZE : Nat := 32
def KEY_SIZE_FIELD : Nat := 4
def VALUE_SIZE_FIELD : Nat := 4
def VALUE_DATA_SIZE : Nat := 8
def MAX_ENTRY_SPACE : Nat := PAGE_SIZE - HEADER_SIZE

def readWord (data : Data) (offset : Nat) : Nat :=
  LittleEndian.decode (Memory.read data offset 4)

def writeWord (data : Data) (offset word : Nat) : Data :=
  Memory.write data offset (LittleEndian.encode 4 word)

def getNumEntries (data : Data) : Nat := readWord data NUM_ENTRIES_OFFSET

def getNextBucketPageId (data : Data) : PageId := readWord data NEXT_BUCKET_PAGE_ID_OFFSET

def setNextBucketPageId (data : Data) (nextPageId : PageId) : Data :=
  writeWord data NEXT_BUCKET_PAGE_ID_OFFSET nextPageId

/-- `HashBucketPage::initialize` -/
def initializePage (data : Data) : Data :=
  setNextBucketPageId (writeWord (Memory.fill data 0 PAGE_SIZE 0) NUM_ENTRIES_OFFSET 0)
    INVALID_PAGE_ID

/-- What an entry with a key of this size takes. -/
def entrySize (keySize : Nat) : Nat :=
  KEY_SIZE_FIELD + keySize + VALUE_SIZE_FIELD + VALUE_DATA_SIZE

/-- Where a number of entries from an offset on ends. -/
def skip (data : Data) : Nat → Nat → Nat
  | 0, offset => offset
  | count + 1, offset => skip data count (offset + entrySize (readWord data offset))

/-- A number of entries from an offset on, each with its offset. -/
def scan (data : Data) : Nat → Nat → List (Nat × Entry)
  | 0, _ => []
  | count + 1, offset =>
      let keySize := readWord data offset
      (offset, Memory.read data (offset + KEY_SIZE_FIELD) keySize,
        LittleEndian.decode (Memory.read data
          (offset + KEY_SIZE_FIELD + keySize + VALUE_SIZE_FIELD) VALUE_DATA_SIZE)) ::
        scan data count (offset + entrySize keySize)

/-- The entries that the loops over a page visit. -/
def visited (data : Data) : List (Nat × Entry) := scan data (getNumEntries data) HEADER_SIZE

def search (data : Data) (key : Bytes) : Option RowId :=
  if key = [] then none
  else ((visited data).find? fun (_, entryKey, _) => entryKey = key).map (·.2.2)

def searchAll (data : Data) (key : Bytes) : List RowId :=
  if key = [] then []
  else ((visited data).filter fun (_, entryKey, _) => entryKey = key).map (·.2.2)

def isFull (data : Data) (keySize : Nat) : Bool :=
  let usedSpace := skip data (getNumEntries data) HEADER_SIZE - HEADER_SIZE
  usedSpace + entrySize keySize > MAX_ENTRY_SPACE

def insert (data : Data) (key : Bytes) (value : RowId) : Option Data :=
  if key = [] then none
  else if (search data key).isSome then none
  else if isFull data key.length then none
  else
    let numEntries := getNumEntries data
    let offset := skip data numEntries HEADER_SIZE
    let sized := writeWord data offset key.length
    let keyed := Memory.write sized (offset + KEY_SIZE_FIELD) key
    let offset := offset + KEY_SIZE_FIELD + key.length
    let valueSized := writeWord keyed offset VALUE_DATA_SIZE
    let valued := Memory.write valueSized (offset + VALUE_SIZE_FIELD)
      (LittleEndian.encode VALUE_DATA_SIZE value)
    some (writeWord valued NUM_ENTRIES_OFFSET (numEntries + 1))

/-- The entries that `remove` takes; with `INVALID_ROW_ID` any entry of the key. -/
def Matches (key : Bytes) (value : RowId) (entry : Entry) : Prop :=
  entry.1 = key ∧ (value = INVALID_ROW_ID ∨ entry.2 = value)

instance (key : Bytes) (value : RowId) (entry : Entry) : Decidable (Matches key value entry) :=
  inferInstanceAs (Decidable (_ ∧ (_ ∨ _)))

def remove (data : Data) (key : Bytes) (value : RowId) : Option Data :=
  if key = [] then none
  else
    match (visited data).find? fun (_, entry) => Matches key value entry with
    | none => none
    | some (entryStart, entryKey, _) =>
        let size := entrySize entryKey.length
        let offset := entryStart + size
        let remainingSize := HEADER_SIZE + MAX_ENTRY_SPACE - offset
        let moved := Memory.write data entryStart (Memory.read data offset remainingSize)
        let cleared := Memory.fill moved (HEADER_SIZE + MAX_ENTRY_SPACE - size) size 0
        some (writeWord cleared NUM_ENTRIES_OFFSET (getNumEntries data - 1))

/-! ## Packed entries -/

/-- The bytes of an entry. -/
def encodeEntry (entry : Entry) : Bytes :=
  LittleEndian.encode KEY_SIZE_FIELD entry.1.length ++ entry.1 ++
    LittleEndian.encode VALUE_SIZE_FIELD VALUE_DATA_SIZE ++
    LittleEndian.encode VALUE_DATA_SIZE entry.2

def packed (entries : List Entry) : Bytes := entries.flatMap encodeEntry

/-- The row fits in eight bytes and the key is not empty. -/
def Storable (entry : Entry) : Prop := entry.1 ≠ [] ∧ entry.2 < 2 ^ 64

/-- The page packs these entries, and this page is the next one of its bucket. -/
structure Holds (data : Data) (entries : List Entry) (next : PageId) : Prop where
  count : getNumEntries data = entries.length
  linked : getNextBucketPageId data = next
  bytes : Memory.read data HEADER_SIZE (packed entries).length = packed entries
  fits : (packed entries).length ≤ MAX_ENTRY_SPACE
  storable : ∀ entry ∈ entries, Storable entry

variable {data : Data} {entries : List Entry} {entry : Entry} {next : PageId} {key : Bytes}
  {value : RowId} {offset : Nat}

@[simp] theorem length_encodeEntry (entry : Entry) :
    (encodeEntry entry).length = entrySize entry.1.length := by
  simp only [encodeEntry, List.length_append, LittleEndian.length_encode, entrySize]

@[simp] theorem packed_nil : packed [] = [] := rfl

@[simp] theorem packed_cons (entry : Entry) (entries : List Entry) :
    packed (entry :: entries) = encodeEntry entry ++ packed entries := List.flatMap_cons

@[simp] theorem packed_append (front back : List Entry) :
    packed (front ++ back) = packed front ++ packed back := List.flatMap_append

theorem readWord_writeWord (data : Data) (offset : Nat) {word : Nat} (small : word < 2 ^ 32) :
    readWord (writeWord data offset word) offset = word := by
  have length : (LittleEndian.encode 4 word).length = 4 := LittleEndian.length_encode 4 word
  have back := Memory.read_write data offset (LittleEndian.encode 4 word)
  rw [length] at back
  rw [readWord, writeWord, back]
  exact LittleEndian.decode_encode_of_lt 4 small

/-- A word apart from what is read changes nothing there. -/
theorem read_writeWord (data : Data) {offset word other count : Nat}
    (apart : offset + 4 ≤ other ∨ other + count ≤ offset) :
    Memory.read (writeWord data offset word) other count = Memory.read data other count :=
  Memory.read_write_apart data (by rwa [LittleEndian.length_encode])

theorem readWord_apart (data : Data) {offset word other : Nat}
    (apart : offset + 4 ≤ other ∨ other + 4 ≤ offset) :
    readWord (writeWord data offset word) other = readWord data other :=
  congrArg LittleEndian.decode (read_writeWord data apart)

/-- A range that holds two parts holds each of them. -/
theorem read_split {front back : Bytes}
    (whole : Memory.read data offset (front ++ back).length = front ++ back) :
    Memory.read data offset front.length = front ∧
      Memory.read data (offset + front.length) back.length = back := by
  rw [List.length_append, Memory.read_add] at whole
  exact List.append_inj whole (Memory.length_read _ _ _)

theorem read_join {front back : Bytes} (first : Memory.read data offset front.length = front)
    (second : Memory.read data (offset + front.length) back.length = back) :
    Memory.read data offset (front ++ back).length = front ++ back := by
  rw [List.length_append, Memory.read_add, first, second]

/-- The fields of an entry, read back from its bytes. -/
theorem read_entry (small : entry.1.length < 2 ^ 32) (wide : entry.2 < 2 ^ 64)
    (bytes : Memory.read data offset (encodeEntry entry).length = encodeEntry entry) :
    readWord data offset = entry.1.length ∧
      Memory.read data (offset + KEY_SIZE_FIELD) entry.1.length = entry.1 ∧
      LittleEndian.decode (Memory.read data
        (offset + KEY_SIZE_FIELD + entry.1.length + VALUE_SIZE_FIELD) VALUE_DATA_SIZE) =
          entry.2 := by
  obtain ⟨front, valueBytes⟩ := read_split bytes
  obtain ⟨front, -⟩ := read_split front
  obtain ⟨sizeBytes, keyBytes⟩ := read_split front
  simp only [List.length_append, LittleEndian.length_encode] at sizeBytes keyBytes valueBytes
  rw [← Nat.add_assoc, ← Nat.add_assoc] at valueBytes
  refine ⟨?_, keyBytes, ?_⟩
  · rw [readWord, ← KEY_SIZE_FIELD, sizeBytes]
    exact LittleEndian.decode_encode_of_lt 4 small
  · rw [valueBytes]
    exact LittleEndian.decode_encode_of_lt 8 wide

/-- The four copies of `insert` together write the bytes of the entry. -/
theorem write_entry (data : Data) (offset : Nat) (key : Bytes) (value : RowId) :
    Memory.write (writeWord (Memory.write (writeWord data offset key.length)
        (offset + KEY_SIZE_FIELD) key) (offset + KEY_SIZE_FIELD + key.length) VALUE_DATA_SIZE)
      (offset + KEY_SIZE_FIELD + key.length + VALUE_SIZE_FIELD)
      (LittleEndian.encode VALUE_DATA_SIZE value) =
    Memory.write data offset (encodeEntry (key, value)) := by
  rw [encodeEntry, Memory.write_append, Memory.write_append, Memory.write_append]
  simp only [List.length_append, LittleEndian.length_encode, ← Nat.add_assoc]
  rfl

/-- Each entry with the offset at which it is packed. -/
def located : Nat → List Entry → List (Nat × Entry)
  | _, [] => []
  | offset, entry :: entries =>
      (offset, entry) :: located (offset + entrySize entry.1.length) entries

theorem scan_packed : ∀ (entries : List Entry) (offset : Nat),
    Memory.read data offset (packed entries).length = packed entries →
    (∀ entry ∈ entries, entry.1.length < 2 ^ 32 ∧ entry.2 < 2 ^ 64) →
      scan data entries.length offset = located offset entries ∧
        skip data entries.length offset = offset + (packed entries).length
  | [], _, _, _ => ⟨rfl, rfl⟩
  | entry :: entries, offset, bytes, bounds => by
      rw [packed_cons] at bytes
      obtain ⟨here, later⟩ := read_split bytes
      obtain ⟨small, wide⟩ := bounds entry List.mem_cons_self
      obtain ⟨size, keyRead, valueRead⟩ := read_entry small wide here
      rw [length_encodeEntry] at later
      obtain ⟨scanned, skipped⟩ := scan_packed entries _ later
        fun other member => bounds other (List.mem_cons_of_mem _ member)
      refine ⟨?_, ?_⟩
      · simp only [List.length_cons, scan, size, keyRead, valueRead, scanned, located]
      · simp only [List.length_cons, skip, size, skipped, packed_cons, List.length_append,
          length_encodeEntry, Nat.add_assoc]

theorem snd_located : ∀ (entries : List Entry) (offset : Nat),
    (located offset entries).map (·.2) = entries
  | [], _ => rfl
  | entry :: entries, offset => by rw [located, List.map_cons, snd_located entries]

theorem located_split : ∀ {entries : List Entry} {offset start : Nat},
    (start, entry) ∈ located offset entries →
      ∃ front back, entries = front ++ entry :: back ∧ start = offset + (packed front).length
  | [], _, _, member => by cases member
  | first :: entries, offset, start, member => by
      rcases List.mem_cons.mp member with same | later
      · cases same
        exact ⟨[], entries, rfl, rfl⟩
      · obtain ⟨front, back, rfl, rfl⟩ := located_split later
        refine ⟨first :: front, back, rfl, ?_⟩
        rw [packed_cons, List.length_append, length_encodeEntry, Nat.add_assoc]

theorem length_le_packed : ∀ entries : List Entry, entries.length ≤ (packed entries).length
  | [] => Nat.le_refl _
  | entry :: entries => by
      have later := length_le_packed entries
      simp only [List.length_cons, packed_cons, List.length_append, length_encodeEntry, entrySize,
        VALUE_DATA_SIZE]
      omega

namespace Holds

theorem initializePage (data : Data) : Holds (initializePage data) [] INVALID_PAGE_ID where
  count := (readWord_apart _ (.inr (by decide))).trans (readWord_writeWord _ _ (by decide))
  linked := readWord_writeWord _ _ (by decide)
  bytes := rfl
  fits := by decide
  storable := List.forall_mem_nil _

theorem bounds (holds : Holds data entries next) :
    ∀ entry ∈ entries, entry.1.length < 2 ^ 32 ∧ entry.2 < 2 ^ 64 := by
  intro entry member
  have fits := holds.fits
  obtain ⟨front, back, rfl⟩ := List.append_of_mem member
  simp only [packed_append, packed_cons, List.length_append, length_encodeEntry, entrySize,
    MAX_ENTRY_SPACE, PAGE_SIZE] at fits
  exact ⟨by omega, (holds.storable entry member).2⟩

theorem visited (holds : Holds data entries next) :
    visited data = located HEADER_SIZE entries := by
  rw [HashBucketPage.visited, holds.count]
  exact (scan_packed entries _ holds.bytes holds.bounds).1

theorem skip (holds : Holds data entries next) :
    skip data entries.length HEADER_SIZE = HEADER_SIZE + (packed entries).length :=
  (scan_packed entries _ holds.bytes holds.bounds).2

theorem search (holds : Holds data entries next) (nonempty : key ≠ []) :
    search data key = (entries.find? fun entry => entry.1 = key).map (·.2) := by
  conv_rhs => rw [← snd_located entries HEADER_SIZE, List.find?_map, Option.map_map]
  rw [HashBucketPage.search, if_neg nonempty, holds.visited]
  rfl

theorem searchAll (holds : Holds data entries next) (nonempty : key ≠ []) :
    searchAll data key = (entries.filter fun entry => entry.1 = key).map (·.2) := by
  conv_rhs => rw [← snd_located entries HEADER_SIZE, List.filter_map, List.map_map]
  rw [HashBucketPage.searchAll, if_neg nonempty, holds.visited]
  rfl

theorem isFull (holds : Holds data entries next) (keySize : Nat) :
    isFull data keySize =
      decide (MAX_ENTRY_SPACE < (packed entries).length + entrySize keySize) := by
  rw [HashBucketPage.isFull, holds.count, holds.skip, Nat.add_sub_cancel_left]

/-- Another next page. -/
theorem setNext (holds : Holds data entries next) {next' : PageId} (small : next' < 2 ^ 32) :
    Holds (setNextBucketPageId data next') entries next' where
  count := (readWord_apart _ (.inr (by decide))).trans holds.count
  linked := readWord_writeWord _ _ small
  bytes := (read_writeWord _ (.inl (by decide))).trans holds.bytes
  fits := holds.fits
  storable := holds.storable

/-- The header says how many entries are packed behind it. -/
theorem recount (linked : getNextBucketPageId data = next)
    (bytes : Memory.read data HEADER_SIZE (packed entries).length = packed entries)
    (fits : (packed entries).length ≤ MAX_ENTRY_SPACE)
    (storable : ∀ entry ∈ entries, Storable entry) :
    Holds (writeWord data NUM_ENTRIES_OFFSET entries.length) entries next where
  count := by
    refine readWord_writeWord _ _ ?_
    have few := length_le_packed entries
    rw [MAX_ENTRY_SPACE, PAGE_SIZE] at fits
    omega
  linked := (readWord_apart _ (.inl (by decide))).trans linked
  bytes := (read_writeWord _ (.inl (by decide))).trans bytes
  fits := fits
  storable := storable

/-- An entry is refused if its key is there or there is no room, and added at the end if not. -/
theorem insert (holds : Holds data entries next) (storable : Storable (key, value)) :
    (insert data key value = none ∧
      ((∃ other, (key, other) ∈ entries) ∨
        MAX_ENTRY_SPACE < (packed entries).length + entrySize key.length)) ∨
    ∃ data', insert data key value = some data' ∧ Holds data' (entries ++ [(key, value)]) next := by
  rw [HashBucketPage.insert, if_neg storable.1, holds.search storable.1, holds.isFull,
    Option.isSome_map]
  by_cases present : ∃ other, (key, other) ∈ entries
  · refine .inl ⟨if_pos ?_, .inl present⟩
    obtain ⟨other, member⟩ := present
    exact List.find?_isSome.mpr ⟨_, member, decide_eq_true rfl⟩
  have absent : ¬ (entries.find? fun entry => entry.1 = key).isSome := by
    rw [List.find?_isSome]
    rintro ⟨entry, member, same⟩
    exact present ⟨entry.2, of_decide_eq_true same ▸ member⟩
  rw [if_neg absent]
  by_cases full : MAX_ENTRY_SPACE < (packed entries).length + entrySize key.length
  · exact .inl ⟨if_pos (decide_eq_true full), .inr full⟩
  rw [if_neg (by rw [decide_eq_true_iff]; exact full)]
  refine .inr ⟨_, rfl, ?_⟩
  simp only [write_entry, holds.count, holds.skip]
  have one : entries.length + 1 = (entries ++ [(key, value)]).length := by
    rw [List.length_append, List.length_singleton]
  rw [one]
  refine recount ?_ ?_ ?_ ?_
  · refine (congrArg LittleEndian.decode (Memory.read_write_apart _ (.inr ?_))).trans holds.linked
    rw [NEXT_BUCKET_PAGE_ID_OFFSET, HEADER_SIZE]
    omega
  · rw [packed_append]
    refine read_join ((Memory.read_write_apart _ (.inr (Nat.le_refl _))).trans holds.bytes) ?_
    rw [packed_cons, packed_nil, List.append_nil]
    exact Memory.read_write _ _ _
  · rw [packed_append, packed_cons, packed_nil, List.append_nil, List.length_append,
      length_encodeEntry]
    exact Nat.not_lt.mp full
  · intro entry member
    rcases List.mem_append.mp member with old | new
    · exact holds.storable entry old
    · cases List.mem_singleton.mp new
      exact storable

/-- The first entry that matches is taken out. -/
theorem remove (holds : Holds data entries next) (nonempty : key ≠ []) (value : RowId) :
    (remove data key value = none ∧ ∀ entry ∈ entries, ¬ Matches key value entry) ∨
    ∃ data' front entry back, remove data key value = some data' ∧ Matches key value entry ∧
      entries = front ++ entry :: back ∧ Holds data' (front ++ back) next := by
  rw [HashBucketPage.remove, if_neg nonempty, holds.visited]
  cases found : (located HEADER_SIZE entries).find? fun (_, entry) => Matches key value entry with
  | none =>
    refine .inl ⟨rfl, fun entry member matching => ?_⟩
    rw [← snd_located entries HEADER_SIZE] at member
    obtain ⟨place, inside, rfl⟩ := List.mem_map.mp member
    exact List.find?_eq_none.mp found _ inside (decide_eq_true matching)
  | some place =>
    obtain ⟨start, entry⟩ := place
    have matching := List.find?_some found
    rw [decide_eq_true_iff] at matching
    obtain ⟨front, back, rfl, rfl⟩ := located_split (List.mem_of_find?_eq_some found)
    refine .inr ⟨_, front, entry, back, rfl, matching, rfl, ?_⟩
    have fits := holds.fits
    have bytes := holds.bytes
    rw [packed_append, packed_cons] at fits bytes
    simp only [List.length_append, length_encodeEntry] at fits
    have fewer : getNumEntries data - 1 = (front ++ back).length := by
      rw [holds.count, List.length_append, List.length_append, List.length_cons]
      omega
    obtain ⟨before, later⟩ := read_split bytes
    obtain ⟨-, behind⟩ := read_split later
    rw [length_encodeEntry] at behind
    generalize begins : HEADER_SIZE + (packed front).length = start at *
    -- What is moved begins with the entries behind the one taken out.
    obtain ⟨rest, remaining⟩ : ∃ rest, HEADER_SIZE + MAX_ENTRY_SPACE -
        (start + entrySize entry.1.length) = (packed back).length + rest :=
      Nat.exists_eq_add_of_le (by omega)
    have moved := Memory.read_write data start (packed back ++
      Memory.read data (start + entrySize entry.1.length + (packed back).length) rest)
    simp only [remaining, Memory.read_add, behind, fewer]
    refine recount ?_ ?_ ?_ fun entry member => holds.storable entry ?_
    · refine (congrArg LittleEndian.decode ((Memory.read_fill_apart _ (.inr ?_)).trans
        (Memory.read_write_apart _ (.inr ?_)))).trans holds.linked <;>
        simp only [NEXT_BUCKET_PAGE_ID_OFFSET, HEADER_SIZE, MAX_ENTRY_SPACE, PAGE_SIZE] at * <;>
        omega
    · rw [Memory.read_fill_apart _ (.inr (by rw [packed_append, List.length_append]; omega)),
        packed_append]
      refine read_join ((Memory.read_write_apart _ (.inr (by omega))).trans before) ?_
      rw [begins]
      exact (read_split moved).1
    · rw [packed_append, List.length_append]
      omega
    · rcases List.mem_append.mp member with inFront | inBack
      · exact List.mem_append_left _ inFront
      · exact List.mem_append_right _ (List.mem_cons_of_mem _ inBack)

end Holds

end QinDB.Index.HashBucketPage
