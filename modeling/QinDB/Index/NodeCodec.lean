/-
# Index.NodeCodec — the entries of a tree node on its page

`readLeafEntries`, `writeLeafEntries`, `readInternalEntries` and `writeInternalEntries` of
`generic_bplustree.cpp`, on the bytes of a page. Behind the header stand the number of entries
and the entries: the size of the key in two bytes, the key, and a row or a page. An inner node
has its first child in front of them. A page is written if the entries fit, but a reader refuses
a key that is empty or has more than 4096 bytes.

* `readEntries_written`: what is read of written entries, whatever follows them.
* `nodes_readBack_iff`: a node that is written is read back, with its count in the header and the
  rest of the header as it was, if and only if no key is empty or longer than that.
* `longKey_refused`: a leaf that is written and cannot be read.
-/
import QinDB.Base.LittleEndian
import QinDB.Base.Memory
import QinDB.Core.Types

namespace QinDB.Index.NodeCodec

open QinDB.Core QinDB.Base

set_option autoImplicit false

/-! ## Pages -/

/-- A key and a number of so many bytes. -/
structure Entry (width : Nat) where
  serializedKey : Bytes
  value : BitVec (8 * width)
  deriving DecidableEq

/-- An entry of a leaf; the value is a row. -/
abbrev KeyValuePair := Entry 8

/-- An entry of an inner node; the value is the page of a child. -/
abbrev InternalEntry := Entry 4

/-- `sizeof(BPlusTreePageHeader)` -/
def HEADER_SIZE : Nat := 48
def NODE_TYPE_OFFSET : Nat := 0
def NUM_KEYS_OFFSET : Nat := 2
def CONTENT_SIZE : Nat := PAGE_SIZE - HEADER_SIZE

def INTERNAL_NODE : UInt8 := 1
def LEAF_NODE : UInt8 := 2

def numKeys (data : Data) : Nat := LittleEndian.decode (Memory.read data NUM_KEYS_OFFSET 2)

/-- `>>` of an unsigned number; at the end of the stream it is zero. -/
def readUnsigned (width : Nat) (stream : Bytes) : Nat × Bytes :=
  if stream.length < width then (0, [])
  else (LittleEndian.decode (stream.take width), stream.drop width)

/-- The loop over the entries of a node; `none` is `false`. -/
def readEntries (width : Nat) : Nat → Bytes → Option (List (Entry width))
  | 0, _ => some []
  | count + 1, stream =>
      let keySize := (readUnsigned 2 stream).1
      let stream := (readUnsigned 2 stream).2
      if keySize = 0 ∨ keySize > 4096 then none
      else if stream.length < keySize then none
      else
        let value := readUnsigned width (stream.drop keySize)
        (readEntries width count value.2).map fun entries =>
          ⟨stream.take keySize, .ofNat _ value.1⟩ :: entries

def entrySize {width : Nat} (entry : Entry width) : Nat := 2 + entry.serializedKey.length + width

def writeEntry {width : Nat} (entry : Entry width) : Bytes :=
  LittleEndian.encode 2 entry.serializedKey.length ++ entry.serializedKey ++
    LittleEndian.encode width entry.value.toNat

/-- The buffer goes behind the header and the count into it. -/
def writeNode (data : Data) (buffer : Bytes) (count : Nat) : Data :=
  Memory.write (Memory.write data HEADER_SIZE buffer) NUM_KEYS_OFFSET (LittleEndian.encode 2 count)

def content (data : Data) : Bytes := Memory.read data HEADER_SIZE CONTENT_SIZE

def readLeafEntries (data : Data) : Option (List KeyValuePair) :=
  if data NODE_TYPE_OFFSET ≠ LEAF_NODE then none
  else
    let count := readUnsigned 2 (content data)
    readEntries 8 count.1 count.2

def writeLeafEntries (data : Data) (entries : List KeyValuePair) : Option Data :=
  if data NODE_TYPE_OFFSET ≠ LEAF_NODE then none
  else if 2 + (entries.map entrySize).sum > CONTENT_SIZE then none
  else some (writeNode data (LittleEndian.encode 2 entries.length ++ entries.flatMap writeEntry)
    entries.length)

def readInternalEntries (data : Data) : Option (BitVec 32 × List InternalEntry) :=
  if data NODE_TYPE_OFFSET ≠ INTERNAL_NODE then none
  else
    let firstChild := readUnsigned 4 (content data)
    let count := readUnsigned 2 firstChild.2
    (readEntries 4 count.1 count.2).map fun entries => (.ofNat 32 firstChild.1, entries)

def writeInternalEntries (data : Data) (entries : List InternalEntry) (firstChild : BitVec 32) :
    Option Data :=
  if data NODE_TYPE_OFFSET ≠ INTERNAL_NODE then none
  else if 4 + 2 + (entries.map entrySize).sum > CONTENT_SIZE then none
  else some (writeNode data (LittleEndian.encode 4 firstChild.toNat ++
    (LittleEndian.encode 2 entries.length ++ entries.flatMap writeEntry)) entries.length)

/-! ## Entries on a stream -/

/-- The keys that a reader takes. -/
def Readable {width : Nat} (entry : Entry width) : Prop :=
  1 ≤ entry.serializedKey.length ∧ entry.serializedKey.length ≤ 4096

instance {width : Nat} (entry : Entry width) : Decidable (Readable entry) :=
  inferInstanceAs (Decidable (_ ∧ _))

variable {width : Nat}

theorem readUnsigned_append (width : Nat) {number : Nat} (small : number < 256 ^ width) (rest : Bytes) :
    readUnsigned width (LittleEndian.encode width number ++ rest) = (number, rest) := by
  have enough : ¬ (LittleEndian.encode width number ++ rest).length < width := by
    rw [List.length_append, LittleEndian.length_encode]
    omega
  rw [readUnsigned, if_neg enough, List.take_left' (LittleEndian.length_encode _ _),
    List.drop_left' (LittleEndian.length_encode _ _), LittleEndian.decode_encode_of_lt width small]

theorem value_small (entry : Entry width) : entry.value.toNat < 256 ^ width := by
  have bound := entry.value.isLt
  rwa [Nat.pow_mul] at bound

theorem length_writeEntry (entry : Entry width) : (writeEntry entry).length = entrySize entry := by
  simp only [writeEntry, entrySize, List.length_append, LittleEndian.length_encode]

theorem length_entries (entries : List (Entry width)) :
    (entries.flatMap writeEntry).length = (entries.map entrySize).sum := by
  rw [List.length_flatMap]
  simp only [length_writeEntry]

/-- One entry: it is refused for its key, or taken off the stream. -/
theorem readEntries_cons (count : Nat) (entry : Entry width) (rest : Bytes)
    (short : entry.serializedKey.length < 2 ^ 16) :
    readEntries width (count + 1) (writeEntry entry ++ rest) =
      if Readable entry then (readEntries width count rest).map (entry :: ·) else none := by
  have key : readUnsigned 2 (writeEntry entry ++ rest) = (entry.serializedKey.length,
      entry.serializedKey ++ (LittleEndian.encode width entry.value.toNat ++ rest)) := by
    rw [writeEntry, List.append_assoc, List.append_assoc]
    exact readUnsigned_append 2 short _
  have value := readUnsigned_append width (value_small entry) rest
  rw [readEntries]
  simp only [key, List.drop_left, List.take_left, value, BitVec.ofNat_toNat, BitVec.setWidth_eq]
  by_cases readable : Readable entry
  · have bounds := readable
    rw [Readable] at bounds
    rw [if_pos readable, if_neg (by omega), if_neg (by rw [List.length_append]; omega)]
  · have bounds := readable
    rw [Readable] at bounds
    rw [if_neg readable, if_pos (by omega)]

/-- Written entries are read back, or refused for one of their keys. -/
theorem readEntries_written (entries : List (Entry width)) (rest : Bytes)
    (short : ∀ entry ∈ entries, entry.serializedKey.length < 2 ^ 16) :
    readEntries width entries.length (entries.flatMap writeEntry ++ rest) =
      if ∀ entry ∈ entries, Readable entry then some entries else none := by
  induction entries with
  | nil => rw [if_pos (by simp)]; rfl
  | cons entry entries ih =>
    rw [List.length_cons, List.flatMap_cons, List.append_assoc,
      readEntries_cons _ _ _ (short entry List.mem_cons_self),
      ih fun later member => short later (List.mem_cons_of_mem entry member)]
    simp only [List.forall_mem_cons]
    by_cases here : Readable entry
    · by_cases later : ∀ entry ∈ entries, Readable entry
      · rw [if_pos here, if_pos later, if_pos ⟨here, later⟩, Option.map_some]
      · rw [if_pos here, if_neg later, if_neg fun both => later both.2, Option.map_none]
    · rw [if_neg here, if_neg fun both => here both.1]

/-! ## Nodes on a page -/

/-- The bytes of the header apart from the count. -/
def HeaderKept (data data' : Data) : Prop :=
  ∀ offset < HEADER_SIZE, offset ≠ NUM_KEYS_OFFSET → offset ≠ NUM_KEYS_OFFSET + 1 →
    data' offset = data offset

variable (data : Data) {buffer : Bytes} {count : Nat}

theorem headerKept_writeNode : HeaderKept data (writeNode data buffer count) := by
  intro offset inside first second
  have low : ¬ HEADER_SIZE ≤ offset := Nat.not_le.mpr inside
  rw [writeNode, Memory.write]
  split
  · rename_i after
    have beyond : (LittleEndian.encode 2 count).length ≤ offset - NUM_KEYS_OFFSET := by
      rw [LittleEndian.length_encode]
      omega
    rw [List.getD_eq_default _ _ beyond, Memory.write, if_neg low]
  · rw [Memory.write, if_neg low]

theorem nodeType_writeNode : writeNode data buffer count NODE_TYPE_OFFSET = data NODE_TYPE_OFFSET :=
  headerKept_writeNode data _ (by decide) (by decide) (by decide)

theorem numKeys_writeNode (small : count < 2 ^ 16) :
    numKeys (writeNode data buffer count) = count := by
  have written := Memory.read_write (Memory.write data HEADER_SIZE buffer) NUM_KEYS_OFFSET
    (LittleEndian.encode 2 count)
  rw [LittleEndian.length_encode] at written
  rw [numKeys, writeNode, written, LittleEndian.decode_encode_of_lt 2 small]

/-- The buffer and what stood behind it. -/
theorem content_writeNode (buffer : Bytes) (count : Nat) (fits : buffer.length ≤ CONTENT_SIZE) :
    ∃ rest, content (writeNode data buffer count) = buffer ++ rest := by
  have apart : NUM_KEYS_OFFSET + (LittleEndian.encode 2 count).length ≤ HEADER_SIZE := by
    rw [LittleEndian.length_encode]
    decide
  obtain ⟨behind, size⟩ := Nat.exists_eq_add_of_le fits
  refine ⟨Memory.read (Memory.write data HEADER_SIZE buffer) (HEADER_SIZE + buffer.length) behind, ?_⟩
  rw [content, writeNode, Memory.read_write_apart _ (.inl apart), size, Memory.read_add,
    Memory.read_write]

/-- Every entry takes at least a byte. -/
theorem length_le_sum (entries : List (Entry width)) :
    entries.length ≤ (entries.map entrySize).sum := by
  induction entries with
  | nil => exact Nat.le_refl 0
  | cons entry entries ih =>
    rw [List.length_cons, List.map_cons, List.sum_cons, entrySize]
    omega

theorem key_le_sum {entries : List (Entry width)} {entry : Entry width} (member : entry ∈ entries) :
    entry.serializedKey.length ≤ (entries.map entrySize).sum := by
  induction entries with
  | nil => cases member
  | cons first entries ih =>
    rw [List.map_cons, List.sum_cons]
    rcases List.mem_cons.mp member with rfl | later
    · rw [entrySize]
      omega
    · exact Nat.le_trans (ih later) (Nat.le_add_left _ _)

/-- What is read of entries that fit on a page, behind their count. -/
theorem readEntries_counted {entries : List (Entry width)} (rest : Bytes)
    (fits : (entries.map entrySize).sum ≤ CONTENT_SIZE) :
    let count := readUnsigned 2 (LittleEndian.encode 2 entries.length ++
      (entries.flatMap writeEntry ++ rest))
    readEntries width count.1 count.2 =
      if ∀ entry ∈ entries, Readable entry then some entries else none := by
  have size : CONTENT_SIZE < 2 ^ 16 := by decide
  have few := Nat.lt_of_le_of_lt (Nat.le_trans (length_le_sum entries) fits) size
  have counted := readUnsigned_append 2 few (entries.flatMap writeEntry ++ rest)
  simp only [counted]
  exact readEntries_written entries rest fun entry member =>
    Nat.lt_of_le_of_lt (Nat.le_trans (key_le_sum member) fits) size

/-- The header of a node whose entries fit on its page. -/
theorem header_writeNode {entries : List (Entry width)}
    (fits : (entries.map entrySize).sum ≤ CONTENT_SIZE) :
    numKeys (writeNode data buffer entries.length) = entries.length ∧
      HeaderKept data (writeNode data buffer entries.length) := by
  have size : CONTENT_SIZE < 2 ^ 16 := by decide
  exact ⟨numKeys_writeNode data
    (Nat.lt_of_le_of_lt (Nat.le_trans (length_le_sum entries) fits) size), headerKept_writeNode data⟩

theorem readLeafEntries_written {entries : List KeyValuePair} {data' : Data}
    (written : writeLeafEntries data entries = some data') :
    readLeafEntries data' =
        (if ∀ entry ∈ entries, Readable entry then some entries else none) ∧
      numKeys data' = entries.length ∧ HeaderKept data data' := by
  rw [writeLeafEntries] at written
  split at written
  · cases written
  · rename_i leaf
    split at written
    · cases written
    · rename_i fits
      cases written
      have sum : (entries.map entrySize).sum ≤ CONTENT_SIZE := by omega
      obtain ⟨rest, stored⟩ := content_writeNode data
        (LittleEndian.encode 2 entries.length ++ entries.flatMap writeEntry) entries.length
        (by rw [List.length_append, LittleEndian.length_encode, length_entries]; omega)
      rw [List.append_assoc] at stored
      refine ⟨?_, header_writeNode data sum⟩
      rw [readLeafEntries, nodeType_writeNode, if_neg leaf, stored]
      exact readEntries_counted rest sum

theorem readInternalEntries_written {entries : List InternalEntry} {firstChild : BitVec 32}
    {data' : Data} (written : writeInternalEntries data entries firstChild = some data') :
    readInternalEntries data' =
        (if ∀ entry ∈ entries, Readable entry then some (firstChild, entries) else none) ∧
      numKeys data' = entries.length ∧ HeaderKept data data' := by
  rw [writeInternalEntries] at written
  split at written
  · cases written
  · rename_i inner
    split at written
    · cases written
    · rename_i fits
      cases written
      have sum : (entries.map entrySize).sum ≤ CONTENT_SIZE := by omega
      obtain ⟨rest, stored⟩ := content_writeNode data (LittleEndian.encode 4 firstChild.toNat ++
          (LittleEndian.encode 2 entries.length ++ entries.flatMap writeEntry)) entries.length
        (by simp only [List.length_append, LittleEndian.length_encode, length_entries]; omega)
      rw [List.append_assoc, List.append_assoc] at stored
      have child := readUnsigned_append 4 firstChild.isLt
        (LittleEndian.encode 2 entries.length ++ (entries.flatMap writeEntry ++ rest))
      refine ⟨?_, header_writeNode data sum⟩
      rw [readInternalEntries, nodeType_writeNode, if_neg inner, stored]
      simp only [child, readEntries_counted rest sum, BitVec.ofNat_toNat, BitVec.setWidth_eq]
      split
      · rw [Option.map_some]
      · rw [Option.map_none]

/-- A node that is written is read back if and only if no key is empty or too long; the count and
the rest of the header are as they should be in any case. -/
theorem nodes_readBack_iff :
    (∀ entries data', writeLeafEntries data entries = some data' →
      (readLeafEntries data' = some entries ∧ numKeys data' = entries.length ∧
        HeaderKept data data' ↔ ∀ entry ∈ entries, Readable entry)) ∧
    ∀ entries firstChild data', writeInternalEntries data entries firstChild = some data' →
      (readInternalEntries data' = some (firstChild, entries) ∧ numKeys data' = entries.length ∧
        HeaderKept data data' ↔ ∀ entry ∈ entries, Readable entry) := by
  constructor
  · intro entries data' written
    obtain ⟨read, header⟩ := readLeafEntries_written data written
    rw [read, and_iff_left header]
    split <;> simp_all
  · intro entries firstChild data' written
    obtain ⟨read, header⟩ := readInternalEntries_written data written
    rw [read, and_iff_left header]
    split <;> simp_all

/-- A leaf without entries. -/
def emptyLeaf : Data := fun offset => if offset = NODE_TYPE_OFFSET then LEAF_NODE else 0

theorem nodes_readBack_iff_three :
    ∃ data', writeLeafEntries emptyLeaf [⟨[7], 5⟩, ⟨[7, 1], 6⟩, ⟨[9], 5⟩] = some data' ∧
      readLeafEntries data' = some [⟨[7], 5⟩, ⟨[7, 1], 6⟩, ⟨[9], 5⟩] ∧ numKeys data' = 3 := by
  obtain ⟨read, count, -⟩ := ((nodes_readBack_iff emptyLeaf).1 _ _ rfl).2
    (by decide : ∀ entry ∈ [⟨[7], 5⟩, ⟨[7, 1], 6⟩, (⟨[9], 5⟩ : KeyValuePair)], Readable entry)
  exact ⟨_, rfl, read, count⟩

/-- A leaf with a key of 4097 bytes is written and cannot be read. -/
theorem longKey_refused : ∃ data',
    writeLeafEntries emptyLeaf [⟨List.replicate 4097 7, 5⟩] = some data' ∧
      readLeafEntries data' = none := by
  have size : 2 + ([(⟨List.replicate 4097 7, 5⟩ : KeyValuePair)].map entrySize).sum = 4109 := by
    simp only [List.map_singleton, List.sum_singleton, entrySize, List.length_replicate]
  obtain ⟨data', written⟩ :
      ∃ data', writeLeafEntries emptyLeaf [⟨List.replicate 4097 7, 5⟩] = some data' := by
    rw [writeLeafEntries, if_neg (by decide), size, if_neg (by decide)]
    exact ⟨_, rfl⟩
  refine ⟨data', written, (readLeafEntries_written emptyLeaf written).1.trans (if_neg fun readable => ?_)⟩
  have bound := (readable _ List.mem_cons_self).2
  rw [List.length_replicate] at bound
  exact absurd bound (by decide)

end QinDB.Index.NodeCodec
