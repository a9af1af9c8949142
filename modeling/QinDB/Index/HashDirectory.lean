/-
# Index.HashDirectory — the directory page of a hash index

The constructor of `hash_index.cpp` rounds the number of buckets up to a power of two, in a
loop on a 32-bit counter. The directory has one word for each bucket, from the first byte of
its page on, over the page header and, with more than 2048 buckets, over the end of the page.
Flushing a page (`buffer_pool_manager.cpp`, `page.cpp`) writes a checksum into bytes 28 to 31
of it, which are the word of the eighth bucket.

* `directory_inside_iff`: the number of buckets is a power of two and the directory stays in
  its page exactly for 1 to 2048 requested buckets.
* `getBucketPageId_writes`, `getBucketPageId_reads`: the bytes of the directory page that a call
  looks at or changes.
* `flush_harmless_iff`: a flush changes no answer when there is no eighth bucket or the directory is
  not flushed, and with an eighth bucket there is an index that loses an entry.
-/
import QinDB.Base.Loop
import QinDB.Index.HashContents

namespace QinDB.Index.HashIndex

open QinDB.Core QinDB.Base HashBucketPage

set_option autoImplicit false

/-! ## The number of buckets -/

/-- One round of the loop of the constructor. -/
def doubled (requested numBuckets : UInt32) : Option (Unit × UInt32) :=
  if numBuckets < requested then some ((), numBuckets <<< 1) else none

/-- The number of buckets of a new index, unless the loop goes on for longer. -/
def adjusted (fuel : Nat) (requested : UInt32) : Option UInt32 :=
  if requested &&& (requested - 1) ≠ 0 then
    (Loop.loop (doubled requested) fuel 1).map (·.2)
  else some requested

/-- The bytes of the directory page that `getBucketPageId` reads or writes for a bucket: the words
of all buckets when it creates the directory, and the word of this one. -/
def directoryBytes (s : HashIndex) (bucketIndex : Nat) : List Nat :=
  if s.numBuckets.toNat ≤ bucketIndex then []
  else
    ((if s.directoryPageId = INVALID_PAGE_ID then List.range s.numBuckets.toNat else []) ++
      [bucketIndex]).flatMap fun i => (List.range 4).map (directoryOffset i + ·)

theorem mem_directoryBytes {s : HashIndex} {bucketIndex byte : Nat}
    (touched : byte ∈ directoryBytes s bucketIndex) : byte < 4 * s.numBuckets.toNat := by
  rw [directoryBytes] at touched
  split at touched
  · cases touched
  · rename_i low
    obtain ⟨i, word, within⟩ := List.mem_flatMap.mp touched
    obtain ⟨k, small, rfl⟩ := List.mem_map.mp within
    have below : i < s.numBuckets.toNat := by
      rcases List.mem_append.mp word with created | this
      · split at created
        · exact List.mem_range.mp created
        · cases created
      · rw [List.mem_singleton.mp this]
        exact Nat.not_le.mp low
    have four := List.mem_range.mp small
    rw [directoryOffset]
    omega

theorem writeWord_outside (data : Data) {offset word byte : Nat}
    (outside : byte ∉ (List.range 4).map (offset + ·)) :
    writeWord data offset word byte = data byte := by
  refine Memory.write_outside ?_
  rw [LittleEndian.length_encode]
  by_contra within
  exact outside (List.mem_map.mpr ⟨byte - offset, List.mem_range.mpr (by omega), by omega⟩)

theorem emptyDirectory_outside (data : Data) {byte : Nat} : ∀ {numBuckets : Nat},
    (∀ i < numBuckets, byte ∉ (List.range 4).map (directoryOffset i + ·)) →
      emptyDirectory numBuckets data byte = data byte
  | 0, _ => rfl
  | numBuckets + 1, outside => by
      rw [emptyDirectory, List.range_succ, List.foldl_append]
      exact (writeWord_outside _ (outside numBuckets (Nat.lt_succ_self _))).trans
        (emptyDirectory_outside data fun i low => outside i (Nat.lt_succ_of_lt low))

theorem openBucket_directory (s : HashIndex) (bounded : s.directoryPageId < s.nextPageId)
    {bucketIndex byte : Nat}
    (outside : byte ∉ (List.range 4).map (directoryOffset bucketIndex + ·)) :
    (s.openBucket bucketIndex).2.directoryPageId = s.directoryPageId ∧
      (s.openBucket bucketIndex).2.pages s.directoryPageId byte =
        s.pages s.directoryPageId byte := by
  rw [openBucket]
  split
  · obtain ⟨data, newPage⟩ := createOverflowPage_eq s
    have apart : s.directoryPageId ≠ s.nextPageId := Nat.ne_of_lt bounded
    simp only [newPage, setPage, Function.update_self]
    rw [writeWord_outside _ outside, Function.update_of_ne apart]
    exact ⟨trivial, rfl⟩
  · exact ⟨rfl, rfl⟩

/-- `getBucketPageId` writes no other byte of the directory page, which may be a page that the pool
has just handed out. -/
theorem getBucketPageId_writes (s : HashIndex) (bounded : s.directoryPageId < s.nextPageId)
    {bucketIndex byte : Nat} (outside : byte ∉ directoryBytes s bucketIndex) :
    let after := (s.getBucketPageId bucketIndex).2
    after.pages after.directoryPageId byte =
      if after.directoryPageId = s.directoryPageId then s.pages s.directoryPageId byte
      else s.newPage.2.pages s.nextPageId byte := by
  intro after
  by_cases high : s.numBuckets.toNat ≤ bucketIndex
  · have same : after = s := by simp only [after, getBucketPageId, if_pos high]
    rw [same, if_pos rfl]
  rw [directoryBytes, if_neg high] at outside
  simp only [List.mem_flatMap, List.mem_append, List.mem_singleton, not_exists, not_and] at outside
  have own := outside bucketIndex (.inr rfl)
  by_cases closed : s.directoryPageId = INVALID_PAGE_ID
  · have opened : after = (s.initializeDirectory.openBucket bucketIndex).2 := by
      simp only [after, getBucketPageId, if_neg high, if_pos closed]
    obtain ⟨directory, kept⟩ :=
      openBucket_directory s.initializeDirectory (Nat.lt_succ_self _) own
    have moved : s.initializeDirectory.directoryPageId ≠ s.directoryPageId :=
      (Nat.ne_of_lt bounded).symm
    rw [opened, directory, kept, if_neg moved]
    simp only [initializeDirectory, setPage, Function.update_self]
    refine emptyDirectory_outside _ fun i low => outside i (.inl ?_)
    rw [if_pos closed]
    exact List.mem_range.mpr low
  · have opened : after = (s.openBucket bucketIndex).2 := by
      simp only [after, getBucketPageId, if_neg high, if_neg closed]
    obtain ⟨directory, kept⟩ := openBucket_directory s bounded own
    rw [opened, directory, kept, if_pos rfl]

/-- Nor does it read another byte of it. -/
theorem getBucketPageId_reads (s : HashIndex) (opened : s.directoryPageId ≠ INVALID_PAGE_ID)
    {bucketIndex : Nat} {data : Data}
    (same : ∀ byte ∈ directoryBytes s bucketIndex, data byte = s.pages s.directoryPageId byte) :
    ((s.setPage s.directoryPageId data).getBucketPageId bucketIndex).1 =
      (s.getBucketPageId bucketIndex).1 := by
  have many : (s.setPage s.directoryPageId data).numBuckets = s.numBuckets := rfl
  by_cases high : s.numBuckets.toNat ≤ bucketIndex
  · rw [getBucketPageId, getBucketPageId, many, if_pos high, if_pos high]
  rw [directoryBytes, if_neg high, if_neg opened] at same
  have word : readWord data (directoryOffset bucketIndex) =
      readWord (s.pages s.directoryPageId) (directoryOffset bucketIndex) := by
    refine congrArg LittleEndian.decode (List.map_congr_left fun k small => ?_)
    exact same _ (List.mem_flatMap.mpr ⟨bucketIndex, List.mem_singleton_self _,
      List.mem_map.mpr ⟨k, small, rfl⟩⟩)
  have page : (s.setPage s.directoryPageId data).pages s.directoryPageId = data :=
    Function.update_self ..
  have open_ : (s.setPage s.directoryPageId data).directoryPageId = s.directoryPageId := rfl
  rw [getBucketPageId, getBucketPageId, many, open_, if_neg high, if_neg high, if_neg opened,
    if_neg opened, openBucket, openBucket, open_, page, word]
  split <;> rfl

/-- A loop is left where its body leaves it. -/
theorem loop_left {σ β : Type} {body : σ → Option (β × σ)} :
    ∀ {fuel : Nat} {s last : σ} {results : List β},
      Loop.loop body fuel s = some (results, last) → body last = none
  | 0, _, _, _, done => by cases done
  | fuel + 1, s, last, results, done => by
      cases taken : body s with
      | none =>
        rw [Loop.loop_succ_of_none taken] at done
        cases done
        exact taken
      | some next =>
        rw [Loop.loop_succ_of_some taken, Option.map_eq_some_iff] at done
        obtain ⟨⟨later, after⟩, rest, same⟩ := done
        cases same
        exact loop_left rest

/-- The loop is left at a power of two as long as the doubling does not overflow. -/
theorem doubled_ends {requested : UInt32} {bound : Nat} (small : bound < 32)
    (fits : requested.toNat ≤ 2 ^ bound) :
    ∀ {rounds start : Nat} {numBuckets : UInt32}, start + rounds = bound →
      numBuckets.toNat = 2 ^ start →
      ∃ results last, Loop.loop (doubled requested) (rounds + 1) numBuckets =
        some (results, last) ∧ ∃ k ≤ bound, last.toNat = 2 ^ k
  | 0, start, numBuckets, sum, size => by
      obtain rfl : start = bound := sum
      refine ⟨[], numBuckets, Loop.loop_succ_of_none (if_neg ?_), start, Nat.le_refl _, size⟩
      rw [UInt32.lt_iff_toNat_lt, size]
      exact Nat.not_lt.mpr fits
  | rounds + 1, start, numBuckets, sum, size => by
      by_cases below : numBuckets < requested
      · have next : (numBuckets <<< 1).toNat = 2 ^ (start + 1) := by
          rw [UInt32.toNat_shiftLeft, size, Nat.shiftLeft_eq]
          have wide : 2 ^ (start + 1) < 2 ^ 32 := Nat.pow_lt_pow_right (by decide) (by omega)
          exact Nat.mod_eq_of_lt wide
        obtain ⟨results, last, done, power⟩ :=
          doubled_ends small fits (by omega : start + 1 + rounds = bound) next
        refine ⟨() :: results, last, ?_, power⟩
        have taken : doubled requested numBuckets = some ((), numBuckets <<< 1) := if_pos below
        rw [Loop.loop_succ_of_some taken, done]
        rfl
      · exact ⟨[], numBuckets, Loop.loop_succ_of_none (if_neg below), start, by omega, size⟩

/-- One to 2048 requested buckets give a power of two not above 2048. -/
theorem adjusted_small {requested : UInt32} (positive : 0 < requested.toNat)
    (few : requested.toNat ≤ 2048) :
    ∃ numBuckets, adjusted 12 requested = some numBuckets ∧ ∃ k ≤ 11, numBuckets.toNat = 2 ^ k := by
  by_cases power : requested &&& (requested - 1) = 0
  · have cut : (requested - 1).toNat = requested.toNat - 1 :=
      UInt32.toNat_sub_of_le _ _ (UInt32.le_iff_toNat_le.mpr positive)
    have bits : requested.toNat &&& (requested.toNat - 1) = 0 := by
      rw [← cut, ← UInt32.toNat_and, power]
      rfl
    obtain ⟨k, size⟩ := (Nat.and_sub_one_eq_zero_iff_isPowerOfTwo positive.ne').mp bits
    refine ⟨requested, if_neg (not_not.mpr power), k, ?_, size⟩
    exact (Nat.pow_le_pow_iff_right (by decide)).mp (size ▸ few : 2 ^ k ≤ 2 ^ 11)
  · obtain ⟨results, last, done, k, le, size⟩ :=
      doubled_ends (by decide) few (rfl : 0 + 11 = 11) (rfl : (1 : UInt32).toNat = 2 ^ 0)
    refine ⟨last, ?_, k, le, size⟩
    rw [adjusted, if_pos power, done]
    rfl

/-- The constructor ends with a power of two, and the later calls stay in the directory page,
exactly for 1 to 2048 requested buckets. -/
theorem directory_inside_iff (requested : UInt32) :
    (∃ fuel numBuckets, adjusted fuel requested = some numBuckets ∧
        (∃ k, numBuckets.toNat = 2 ^ k) ∧
        ∀ s : HashIndex, s.numBuckets = numBuckets → ∀ bucketIndex,
          ∀ byte ∈ directoryBytes s bucketIndex, byte < PAGE_SIZE) ↔
      1 ≤ requested.toNat ∧ requested.toNat ≤ 2048 := by
  constructor
  · rintro ⟨fuel, numBuckets, done, ⟨k, power⟩, inside⟩
    have atLeast : requested.toNat ≤ numBuckets.toNat := by
      rw [adjusted] at done
      split at done
      · obtain ⟨⟨results, last⟩, left, rfl⟩ := Option.map_eq_some_iff.mp done
        have stop := loop_left left
        rw [doubled] at stop
        split at stop
        · cases stop
        · rename_i reached
          exact Nat.not_lt.mp fun less => reached (UInt32.lt_iff_toNat_lt.mpr less)
      · cases done
        exact Nat.le_refl _
    have few : numBuckets.toNat ≤ 2048 := by
      by_contra many
      have touched : 8192 ∈ directoryBytes ⟨numBuckets, 1, fun _ _ => 0, 2⟩ 2048 := by
        rw [directoryBytes, if_neg many]
        exact List.mem_flatMap.mpr ⟨2048, List.mem_append_right _ List.mem_cons_self,
          List.mem_map.mpr ⟨0, by decide, rfl⟩⟩
      exact absurd (inside _ rfl 2048 8192 touched) (by decide)
    refine ⟨Nat.pos_of_ne_zero fun zero => ?_, Nat.le_trans atLeast few⟩
    have none : requested = 0 := UInt32.toNat_inj.mp zero
    subst none
    cases done
    exact absurd power (Nat.two_pow_pos k).ne
  · rintro ⟨positive, few⟩
    obtain ⟨numBuckets, done, k, le, power⟩ := adjusted_small positive few
    refine ⟨12, numBuckets, done, ⟨k, power⟩, ?_⟩
    rintro s rfl bucketIndex byte touched
    have bound := mem_directoryBytes touched
    have small : 2 ^ k ≤ 2 ^ 11 := Nat.pow_le_pow_right (by decide) le
    rw [PAGE_SIZE]
    omega

/-- The counter overflows to zero before it reaches such a number. -/
theorem doubled_never_ends : ∀ (fuel : Nat) (numBuckets : UInt32),
    (∃ k < 33, numBuckets = UInt32.ofNat (2 ^ k)) →
      Loop.loop (doubled 2147483649) fuel numBuckets = none
  | 0, _, _ => rfl
  | fuel + 1, numBuckets, ⟨k, small, size⟩ => by
      have rounds : ∀ k < 33, UInt32.ofNat (2 ^ k) < 2147483649 ∧
          ∃ j < 33, UInt32.ofNat (2 ^ k) <<< 1 = UInt32.ofNat (2 ^ j) := by decide
      obtain ⟨below, next⟩ := rounds k small
      have taken : doubled 2147483649 numBuckets = some ((), numBuckets <<< 1) :=
        if_pos (size ▸ below)
      rw [Loop.loop_succ_of_some taken, doubled_never_ends fuel _ (size ▸ next)]
      rfl

/-- No buckets, a directory that does not fit, and a constructor that does not end. -/
theorem directory_outside :
    adjusted 1 0 = some 0 ∧
      (adjusted 13 2049 = some 4096 ∧ 8192 ∈ directoryBytes ⟨4096, 1, fun _ _ => 0, 2⟩ 2048) ∧
      ∀ fuel, adjusted fuel 2147483649 = none := by
  refine ⟨by decide, ⟨by decide +kernel, by decide +kernel⟩, fun fuel => ?_⟩
  rw [adjusted, if_pos (by decide), doubled_never_ends fuel 1 ⟨0, by decide, rfl⟩]
  rfl

/-! ## Flushed pages -/

def CHECKSUM_OFFSET : Nat := 28

/-- The sum of the bytes around the checksum. -/
def calculateChecksum (data : Data) : Nat :=
  ((Memory.read data 0 CHECKSUM_OFFSET ++
    Memory.read data HEADER_SIZE (PAGE_SIZE - HEADER_SIZE)).map UInt8.toNat).sum % 2 ^ 32

def updateChecksum (data : Data) : Data :=
  writeWord data CHECKSUM_OFFSET (calculateChecksum data)

/-- The pages of the pool after a flush of the dirty ones: of all of them by `flushAllPages`, of at
most one by `flushPage`. -/
def flush (dirty : PageId → Bool) (s : HashIndex) : HashIndex :=
  { s with
    pages := fun pageId =>
      if dirty pageId then updateChecksum (s.pages pageId) else s.pages pageId }

/-- What a search and a search for all rows find on the pages of a bucket from one on. -/
def answers (pages : PageId → Data) (fuel : Nat) (key : Bytes) (first : PageId) :
    Option (Option RowId) × Option (List RowId) :=
  if first = INVALID_PAGE_ID then (some none, some [])
  else ((firstOf (HashBucketPage.search · key) pages fuel first).map (·.map (·.2)),
    gather key pages fuel first)

section Flush

variable {sha256 : Bytes → Bytes} {s : HashIndex} {contents : Multiset Entry} {key : Bytes}

theorem scan_updateChecksum (data : Data) : ∀ {count offset : Nat}, HEADER_SIZE ≤ offset →
    scan (updateChecksum data) count offset = scan data count offset
  | 0, _, _ => rfl
  | count + 1, offset, behind => by
      have apart : ∀ {at_ size : Nat}, offset ≤ at_ →
          Memory.read (updateChecksum data) at_ size = Memory.read data at_ size :=
        fun le => read_writeWord _ (.inl (Nat.le_trans behind le))
      have later : ∀ keySize, scan (updateChecksum data) count (offset + entrySize keySize) =
          scan data count (offset + entrySize keySize) := fun keySize =>
        scan_updateChecksum data (Nat.le_trans behind (Nat.le_add_right _ _))
      simp only [scan, readWord, apart (Nat.le_refl _), later]
      rw [apart (by omega), apart (by omega)]

theorem visited_updateChecksum (data : Data) :
    visited (updateChecksum data) = visited data := by
  rw [visited, visited, scan_updateChecksum data (Nat.le_refl _)]
  exact congrArg (scan data · HEADER_SIZE) (readWord_apart _ (.inr (by decide)))

/-- A flush changes nothing that is read from bucket pages. -/
theorem answers_flush (dirty : PageId → Bool) (s : HashIndex) (key : Bytes) :
    ∀ (fuel : Nat) (first : PageId),
      answers (s.flush dirty).pages fuel key first = answers s.pages fuel key first := by
  have next : ∀ pageId, getNextBucketPageId ((s.flush dirty).pages pageId) =
      getNextBucketPageId (s.pages pageId) := by
    intro pageId
    simp only [flush]
    split
    · exact readWord_apart _ (.inr (by decide))
    · rfl
  have seen : ∀ pageId, visited ((s.flush dirty).pages pageId) = visited (s.pages pageId) := by
    intro pageId
    simp only [flush]
    split
    · exact visited_updateChecksum _
    · rfl
  have found : ∀ pageId, HashBucketPage.search ((s.flush dirty).pages pageId) key =
      HashBucketPage.search (s.pages pageId) key := fun pageId => by
    rw [HashBucketPage.search, HashBucketPage.search, seen]
  have all : ∀ pageId, HashBucketPage.searchAll ((s.flush dirty).pages pageId) key =
      HashBucketPage.searchAll (s.pages pageId) key := fun pageId => by
    rw [HashBucketPage.searchAll, HashBucketPage.searchAll, seen]
  have walked : ∀ fuel first,
      firstOf (HashBucketPage.search · key) (s.flush dirty).pages fuel first =
        firstOf (HashBucketPage.search · key) s.pages fuel first := by
    intro fuel
    induction fuel with
    | zero => exact fun _ => rfl
    | succ fuel ih => intro first; simp only [firstOf, found, next, ih]
  have gathered : ∀ fuel first, gather key (s.flush dirty).pages fuel first =
      gather key s.pages fuel first := by
    intro fuel
    induction fuel with
    | zero => exact fun _ => rfl
    | succ fuel ih => intro first; simp only [gather, all, next, ih]
  intro fuel first
  simp only [answers, walked, gathered]

/-- The page that the directory names for a bucket. -/
def firstPage (s : HashIndex) (i : Nat) : PageId :=
  if s.directoryPageId = INVALID_PAGE_ID then INVALID_PAGE_ID
  else readWord (s.pages s.directoryPageId) (directoryOffset i)

/-- A bucket that is opened answers as the pages the directory named for it. -/
theorem answers_openBucket (bounded : s.directoryPageId < s.nextPageId) (i fuel : Nat)
    (nonempty : key ≠ []) :
    (s.openBucket i).1 ≠ INVALID_PAGE_ID ∧
      answers (s.openBucket i).2.pages (fuel + 1) key (s.openBucket i).1 =
        answers s.pages (fuel + 1) key
          (readWord (s.pages s.directoryPageId) (directoryOffset i)) := by
  rw [openBucket]
  by_cases absent : readWord (s.pages s.directoryPageId) (directoryOffset i) = INVALID_PAGE_ID
  · obtain ⟨data, newPage⟩ := createOverflowPage_eq s
    have apart : s.directoryPageId ≠ s.nextPageId := Nat.ne_of_lt bounded
    have valid : s.nextPageId ≠ INVALID_PAGE_ID := Nat.ne_of_gt (Nat.zero_lt_of_lt bounded)
    have holds := Holds.initializePage data
    simp only [absent, if_true, newPage, setPage]
    refine ⟨valid, ?_⟩
    simp [answers, valid, firstOf, gather, Function.update_of_ne apart.symm, holds.search nonempty,
      holds.searchAll nonempty, holds.linked]
  · rw [if_neg absent]
    exact ⟨absent, rfl⟩

/-- A search answers what the pages of the bucket of its key answer. -/
theorem searches_eq (sha256 : Bytes → Bytes) (positive : 0 < s.numBuckets.toNat)
    (bounded : s.directoryPageId < s.nextPageId) (nonempty : key ≠ []) (fuel : Nat) :
    ((search sha256 (fuel + 1) s key).map (·.1), (searchAll sha256 (fuel + 1) s key).map (·.1)) =
      answers s.pages (fuel + 1) key (s.firstPage (hash sha256 s.numBuckets key)) := by
  have low := hash_lt sha256 positive key
  have found : ∃ pageId s', s.getBucketPageId (hash sha256 s.numBuckets key) = (pageId, s') ∧
      pageId ≠ INVALID_PAGE_ID ∧ answers s'.pages (fuel + 1) key pageId =
        answers s.pages (fuel + 1) key (s.firstPage (hash sha256 s.numBuckets key)) := by
    rw [firstPage, getBucketPageId, if_neg (Nat.not_le.mpr low)]
    by_cases closed : s.directoryPageId = INVALID_PAGE_ID
    · rw [if_pos closed, if_pos closed]
      have inside : s.initializeDirectory.directoryPageId < s.initializeDirectory.nextPageId :=
        Nat.lt_succ_self _
      obtain ⟨valid, same⟩ := answers_openBucket inside (hash sha256 s.numBuckets key) fuel nonempty
      refine ⟨_, _, Prod.mk.eta.symm, valid, same.trans ?_⟩
      simp only [initializeDirectory, newPage, setPage, Function.update_self]
      rw [readWord_emptyDirectory _ low, answers, answers, if_pos rfl, if_pos rfl]
    · rw [if_neg closed, if_neg closed]
      exact ⟨_, _, Prod.mk.eta.symm, answers_openBucket bounded _ fuel nonempty⟩
  obtain ⟨pageId, s', opened, valid, same⟩ := found
  rw [← same, answers, if_neg valid, search, searchAll, if_neg nonempty, if_neg nonempty, opened]
  simp only [if_neg valid, Option.map_map, Function.comp_def, Option.map_id']

theorem search_of_firstPage_invalid (positive : 0 < s.numBuckets.toNat)
    (bounded : s.directoryPageId < s.nextPageId) (nonempty : key ≠ [])
    (none : s.firstPage (hash sha256 s.numBuckets key) = INVALID_PAGE_ID) (fuel : Nat) :
    (search sha256 (fuel + 1) s key).map (·.1) = some Option.none := by
  have same := searches_eq sha256 positive bounded nonempty fuel
  rw [none, answers, if_pos rfl] at same
  exact congrArg Prod.fst same

/-- A flush leaves the directory as it is but for the word of the eighth bucket. -/
theorem firstPage_flush (dirty : PageId → Bool) {i : Nat}
    (apart : i ≠ 7 ∨ s.directoryPageId = INVALID_PAGE_ID ∨ dirty s.directoryPageId = false) :
    (s.flush dirty).firstPage i = s.firstPage i := by
  rw [firstPage, firstPage]
  refine ite_congr rfl (fun _ => rfl) fun opened => ?_
  simp only [HashIndex.flush]
  split
  · rename_i flushed
    refine readWord_apart _ ?_
    have other : i ≠ 7 := apart.resolve_right fun closed => closed.elim opened fun clean =>
      Bool.false_ne_true (clean.symm.trans flushed)
    rw [CHECKSUM_OFFSET, directoryOffset]
    omega
  · rfl

/-- The word of the eighth bucket is the checksum of the page. -/
theorem firstPage_flush_eighth {dirty : PageId → Bool}
    (opened : s.directoryPageId ≠ INVALID_PAGE_ID) (flushed : dirty s.directoryPageId = true) :
    (s.flush dirty).firstPage 7 = calculateChecksum (s.pages s.directoryPageId) := by
  have page : (s.flush dirty).pages s.directoryPageId =
      updateChecksum (s.pages s.directoryPageId) := if_pos flushed
  have opened' : (s.flush dirty).directoryPageId ≠ INVALID_PAGE_ID := opened
  rw [firstPage, if_neg opened']
  exact (congrArg (readWord · (directoryOffset 7)) page).trans
    (readWord_writeWord _ _ (Nat.mod_lt _ (by decide)))

/-- A flush of these pages changes no answer. -/
def Harmless (sha256 : Bytes → Bytes) (dirty : PageId → Bool) (s : HashIndex) : Prop :=
  ∀ fuel key,
    (search sha256 (fuel + 1) (s.flush dirty) key).map (·.1) =
        (search sha256 (fuel + 1) s key).map (·.1) ∧
      (searchAll sha256 (fuel + 1) (s.flush dirty) key).map (·.1) =
        (searchAll sha256 (fuel + 1) s key).map (·.1)

theorem Stores.placed (stores : Stores sha256 s contents) :
    0 < s.numBuckets.toNat ∧ s.directoryPageId < s.nextPageId := by
  rcases stores with ⟨closed, -, positive, -, valid⟩ | ⟨chains, rep⟩
  · exact ⟨positive, closed ▸ valid⟩
  · exact ⟨rep.positive, rep.bounded⟩

theorem harmless_of_firstPage (stores : Stores sha256 s contents) {dirty : PageId → Bool}
    (same : ∀ i < s.numBuckets.toNat, (s.flush dirty).firstPage i = s.firstPage i) :
    Harmless sha256 dirty s := by
  intro fuel key
  by_cases empty : key = []
  · simp [search, searchAll, empty]
  · obtain ⟨positive, bounded⟩ := stores.placed
    have after := searches_eq (s := s.flush dirty) sha256 positive bounded empty fuel
    rw [← Prod.mk.injEq, searches_eq sha256 positive bounded empty, after, answers_flush]
    exact congrArg _ (same _ (hash_lt sha256 positive key))

/-! ### An index that loses an entry -/

/-- The index after a first insertion, of a key of the eighth bucket. -/
def lostEntry (numBuckets : UInt32) (key : Bytes) : HashIndex where
  numBuckets := numBuckets
  directoryPageId := 1
  pages := fun pageId =>
    if pageId = 1 then writeWord (fun _ => 0) CHECKSUM_OFFSET 2
    else writeWord (Memory.write (fun _ => 0) HEADER_SIZE (packed [(key, 5)])) NUM_ENTRIES_OFFSET 1
  nextPageId := 3

/-- A key of the eighth bucket that fits on a page. -/
def Eighth (sha256 : Bytes → Bytes) (numBuckets : UInt32) (key : Bytes) : Prop :=
  key ≠ [] ∧ entrySize key.length ≤ MAX_ENTRY_SPACE ∧ hash sha256 numBuckets key = 7

variable {numBuckets : UInt32}

theorem stores_lostEntry (many : 7 < numBuckets.toNat) (few : numBuckets.toNat ≤ 2048)
    (eighth : Eighth sha256 numBuckets key) :
    Stores sha256 (lostEntry numBuckets key) {(key, 5)} := by
  have zero : LittleEndian.decode [0, 0, 0, 0] = INVALID_PAGE_ID := rfl
  have holds : Holds (writeWord (Memory.write (fun _ => 0) HEADER_SIZE (packed [(key, 5)]))
      NUM_ENTRIES_OFFSET 1) [(key, 5)] INVALID_PAGE_ID :=
    Holds.recount ((congrArg LittleEndian.decode (Memory.read_write_apart (fun _ => 0)
      (.inr (by decide)))).trans zero) (Memory.read_write _ _ _)
      (by simpa using eighth.2.1) (by simp [Storable, eighth.1])
  have inside : directoryOffset numBuckets.toNat ≤ PAGE_SIZE := by
    rw [directoryOffset, PAGE_SIZE]
    omega
  refine .inr ⟨fun i => if i = 7 then [(2, [(key, 5)])] else [], ⟨Nat.zero_lt_of_lt many, inside,
    Nat.one_ne_zero, (by decide : 1 < 3), fun i low => ?_, fun i low pageId member => ?_,
    fun i low => ?_, fun i low j high different pageId member => ?_, fun i low => ?_⟩⟩
  all_goals by_cases last : i = 7
  · subst last
    exact ⟨readWord_writeWord _ _ (by decide), by decide, INVALID_PAGE_ID, holds, rfl⟩
  · rw [if_neg last]
    have apart : CHECKSUM_OFFSET + 4 ≤ directoryOffset i ∨
        directoryOffset i + 4 ≤ CHECKSUM_OFFSET := by
      rw [directoryOffset, CHECKSUM_OFFSET]
      omega
    exact (readWord_apart _ apart).trans (congrArg LittleEndian.decode rfl)
  · rw [if_pos last] at member
    rw [List.mem_singleton.mp member]
    exact ⟨(by decide : 2 < 3), (by decide : 2 ≠ 1)⟩
  · rw [if_neg last] at member
    cases member
  · rw [if_pos last]
    exact List.nodup_singleton _
  · rw [if_neg last]
    exact List.nodup_nil
  · rw [if_neg fun same => different (last.trans same.symm)]
    exact List.not_mem_nil
  · rw [if_neg last] at member
    cases member
  · rw [if_pos last]
    refine Multiset.filter_eq_self.mpr fun entry member => ?_
    rw [Multiset.mem_singleton.mp member, last]
    exact eighth.2.2
  · rw [if_neg last]
    refine Multiset.filter_eq_nil.mpr fun entry member same => last ?_
    rw [Multiset.mem_singleton.mp member] at same
    exact same.symm.trans eighth.2.2

/-- The entry is found before a flush and not afterwards. -/
theorem lostEntry_lost (many : 7 < numBuckets.toNat) (few : numBuckets.toNat ≤ 2048)
    (eighth : Eighth sha256 numBuckets key) :
    (search sha256 (2 ^ 32) (lostEntry numBuckets key) key).map (·.1) = some (some 5) ∧
      (search sha256 (2 ^ 32) ((lostEntry numBuckets key).flush fun _ => true) key).map (·.1) =
        some none := by
  have stores := stores_lostEntry many few eighth
  constructor
  · obtain ⟨found, s', done, -, -, sound⟩ := search_stores stores eighth.1 (by decide : 3 + 3 ≤ 2 ^ 32)
      (Nat.le_refl (2 ^ 32))
    rcases sound with ⟨-, absent⟩ | ⟨value, rfl, present⟩
    · exact absurd (Multiset.mem_singleton_self _) (absent 5)
    · cases Multiset.mem_singleton.mp present
      exact congrArg (Option.map (·.1)) done
  · have zero : calculateChecksum (writeWord (fun _ => 0) CHECKSUM_OFFSET 2) = INVALID_PAGE_ID := by
      rw [calculateChecksum, read_writeWord _ (.inr (by decide)),
        read_writeWord _ (.inl (by decide))]
      simp [Memory.read, INVALID_PAGE_ID]
    obtain ⟨positive, bounded⟩ := stores.placed
    refine search_of_firstPage_invalid (s := (lostEntry numBuckets key).flush fun _ => true)
      positive bounded eighth.1 ?_ 4294967295
    have word : ((lostEntry numBuckets key).flush fun _ => true).firstPage 7 =
        calculateChecksum _ := firstPage_flush_eighth Nat.one_ne_zero rfl
    exact (congrArg _ eighth.2.2).trans (word.trans zero)

/-- No answer changes when there is no eighth bucket or the directory is not flushed; and of all
indexes with this number of buckets none loses an answer by a flush exactly if there is no eighth
bucket. The digest sends some key to the eighth bucket if there is one. -/
theorem flush_harmless_iff (sha256 : Bytes → Bytes) (numBuckets : UInt32)
    (positive : 0 < numBuckets.toNat) (few : numBuckets.toNat ≤ 2048)
    (reached : 7 < numBuckets.toNat → ∃ key, Eighth sha256 numBuckets key) :
    (∀ s contents, Stores sha256 s contents → s.numBuckets = numBuckets → ∀ dirty,
      numBuckets.toNat ≤ 7 ∨ s.directoryPageId = INVALID_PAGE_ID ∨
        dirty s.directoryPageId = false → Harmless sha256 dirty s) ∧
    ((∀ s contents, Stores sha256 s contents → s.numBuckets = numBuckets → ∀ dirty,
      Harmless sha256 dirty s) ↔ numBuckets.toNat ≤ 7) := by
  have kept : ∀ s contents, Stores sha256 s contents → s.numBuckets = numBuckets → ∀ dirty,
      numBuckets.toNat ≤ 7 ∨ s.directoryPageId = INVALID_PAGE_ID ∨
        dirty s.directoryPageId = false → Harmless sha256 dirty s := by
    rintro s contents stores rfl dirty clean
    refine harmless_of_firstPage stores fun i low => firstPage_flush dirty ?_
    exact clean.imp_left fun seven => by omega
  refine ⟨kept, fun harmless => ?_, fun seven s contents stores same dirty =>
    kept s contents stores same dirty (.inl seven)⟩
  by_contra many
  obtain ⟨key, eighth⟩ := reached (Nat.not_le.mp many)
  obtain ⟨found, lost⟩ := lostEntry_lost (Nat.not_le.mp many) few eighth
  have same := (harmless _ _ (stores_lostEntry (Nat.not_le.mp many) few eighth) rfl
    (fun _ => true) 4294967295 key).1
  cases found.symm.trans (same.symm.trans lost)

end Flush

/-- A digest that sends every key to the eighth bucket. -/
def sevens : Bytes → Bytes := fun _ => [7]

theorem eighth_sevens : Eighth sevens 8 [9] := ⟨by decide, by decide, by decide⟩

theorem flush_harmless_iff_eight :
    Harmless sevens (· = 2) (lostEntry 8 [9]) ∧
      ¬ ∀ s contents, Stores sevens s contents → s.numBuckets = 8 → ∀ dirty,
        Harmless sevens dirty s := by
  obtain ⟨kept, exactly⟩ := flush_harmless_iff sevens 8 (by decide) (by decide)
    fun _ => ⟨[9], eighth_sevens⟩
  exact ⟨kept _ _ (stores_lostEntry (by decide) (by decide) eighth_sevens) rfl _ (.inr (.inr rfl)),
    exactly.not.mpr (by decide)⟩

theorem flush_loses_entry :
    Stores sevens (lostEntry 8 [9]) {([9], 5)} ∧
      (search sevens 4294967296 (lostEntry 8 [9]) [9]).map (·.1) = some (some 5) ∧
      (search sevens 4294967296 ((lostEntry 8 [9]).flush fun _ => true) [9]).map (·.1) =
        some none :=
  ⟨stores_lostEntry (by decide) (by decide) eighth_sevens,
    lostEntry_lost (by decide) (by decide) eighth_sevens⟩

end QinDB.Index.HashIndex
