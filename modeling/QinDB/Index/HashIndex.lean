/-
# Index.HashIndex — hash indexes and their chains of pages

Translation of `hash_index.cpp`. A directory page names the first page of every bucket, and
each bucket is a chain of bucket pages. The walks along a chain are cut off after a number
of pages, so a walk that ends is one for which some number is enough. The digest of the keys
(SHA-256) is a parameter. Keys are serialised; an empty key is one that was null or could
not be serialised.

* `Chained`: the pages of a bucket, each naming the next one.
* `Extends`: what a call does to the chain it walks along.
* `insertInto_chained`: an insertion of a short key ends, and adds one entry and at most one page.
-/
import QinDB.Index.HashBucketPage

namespace QinDB.Index

open QinDB.Core QinDB.Base HashBucketPage

set_option autoImplicit false

/-- A hash index and the pages of the pool it works on. -/
structure HashIndex where
  numBuckets : UInt32
  directoryPageId : PageId
  pages : PageId → Data
  /-- The page that the pool hands out next. -/
  nextPageId : PageId

namespace HashIndex

def setPage (s : HashIndex) (pageId : PageId) (data : Data) : HashIndex :=
  { s with pages := Function.update s.pages pageId data }

/-- `BufferPoolManager::newPage`: a page that is reset, with its number in the header. -/
def newPage (s : HashIndex) : PageId × HashIndex :=
  let header := LittleEndian.encode 2 HEADER_SIZE ++
    LittleEndian.encode 2 (PAGE_SIZE - HEADER_SIZE) ++ LittleEndian.encode 4 s.nextPageId
  let data := Memory.write (Memory.fill (s.pages s.nextPageId) 0 PAGE_SIZE 0) 4 header
  (s.nextPageId, { s.setPage s.nextPageId data with nextPageId := s.nextPageId + 1 })

/-- The offset of a bucket in the directory page. -/
def directoryOffset (bucketIndex : Nat) : Nat := bucketIndex * 4

/-- The loop of `initializeDirectory`. -/
def emptyDirectory (numBuckets : Nat) (data : Data) : Data :=
  (List.range numBuckets).foldl
    (fun data i => writeWord data (directoryOffset i) INVALID_PAGE_ID) data

def initializeDirectory (s : HashIndex) : HashIndex :=
  let (pageId, s) := s.newPage
  { s.setPage pageId (emptyDirectory s.numBuckets.toNat (s.pages pageId)) with
    directoryPageId := pageId }

/-- A new page formatted as an empty bucket page. -/
def createOverflowPage (s : HashIndex) : PageId × HashIndex :=
  let (pageId, s) := s.newPage
  (pageId, s.setPage pageId (initializePage (s.pages pageId)))

/-- The part of `getBucketPageId` behind the directory. -/
def openBucket (s : HashIndex) (bucketIndex : Nat) : PageId × HashIndex :=
  let bucketPageId := readWord (s.pages s.directoryPageId) (directoryOffset bucketIndex)
  if bucketPageId = INVALID_PAGE_ID then
    let (bucketPageId, s) := s.createOverflowPage
    (bucketPageId, s.setPage s.directoryPageId
      (writeWord (s.pages s.directoryPageId) (directoryOffset bucketIndex) bucketPageId))
  else (bucketPageId, s)

def getBucketPageId (s : HashIndex) (bucketIndex : Nat) : PageId × HashIndex :=
  if s.numBuckets.toNat ≤ bucketIndex then (INVALID_PAGE_ID, s)
  else if s.directoryPageId = INVALID_PAGE_ID then s.initializeDirectory.openBucket bucketIndex
  else s.openBucket bucketIndex

/-- The first page of a bucket that a visit is content with. -/
def firstOf {β : Type} (visit : Data → Option β) (pages : PageId → Data) :
    Nat → PageId → Option (Option (PageId × β))
  | 0, _ => none
  | fuel + 1, pageId =>
      match visit (pages pageId) with
      | some found => some (some (pageId, found))
      | none =>
          let nextPageId := getNextBucketPageId (pages pageId)
          if nextPageId = INVALID_PAGE_ID then some none else firstOf visit pages fuel nextPageId

/-- The rows of a key on all pages of a bucket. -/
def gather (key : Bytes) (pages : PageId → Data) : Nat → PageId → Option (List RowId)
  | 0, _ => none
  | fuel + 1, pageId =>
      let nextPageId := getNextBucketPageId (pages pageId)
      if nextPageId = INVALID_PAGE_ID then some (HashBucketPage.searchAll (pages pageId) key)
      else (gather key pages fuel nextPageId).map (HashBucketPage.searchAll (pages pageId) key ++ ·)

/-- The loop of `insert`: it goes on until a page takes the entry. It also counts the overflow
pages it creates. -/
def insertInto (key : Bytes) (value : RowId) :
    Nat → HashIndex → PageId → Nat → Option (Nat × HashIndex)
  | 0, _, _, _ => none
  | fuel + 1, s, pageId, created =>
      match HashBucketPage.insert (s.pages pageId) key value with
      | some data => some (created, s.setPage pageId data)
      | none =>
          let nextPageId := getNextBucketPageId (s.pages pageId)
          if nextPageId = INVALID_PAGE_ID then
            let (nextPageId, s) := s.createOverflowPage
            insertInto key value fuel
              (s.setPage pageId (setNextBucketPageId (s.pages pageId) nextPageId)) nextPageId
              (created + 1)
          else insertInto key value fuel s nextPageId created

section Calls

variable (sha256 : Bytes → Bytes) (fuel : Nat)

/-- The first four bytes of the digest, cut to the number of buckets. -/
def hash (numBuckets : UInt32) (key : Bytes) : Nat :=
  (UInt32.ofNat (LittleEndian.decode ((sha256 key).take 4)) &&& (numBuckets - 1)).toNat

/-- The answer, the number of overflow pages created and the index afterwards. -/
def insert (s : HashIndex) (key : Bytes) (value : RowId) : Option (Bool × Nat × HashIndex) :=
  if value = INVALID_ROW_ID ∨ key = [] then some (false, 0, s)
  else
    let (bucketPageId, s) := s.getBucketPageId (hash sha256 s.numBuckets key)
    if bucketPageId = INVALID_PAGE_ID then some (false, 0, s)
    else (insertInto key value fuel s bucketPageId 0).map fun (created, s) => (true, created, s)

def search (s : HashIndex) (key : Bytes) : Option (Option RowId × HashIndex) :=
  if key = [] then some (none, s)
  else
    let (bucketPageId, s) := s.getBucketPageId (hash sha256 s.numBuckets key)
    if bucketPageId = INVALID_PAGE_ID then some (none, s)
    else (firstOf (HashBucketPage.search · key) s.pages fuel bucketPageId).map fun found =>
      (found.map (·.2), s)

def searchAll (s : HashIndex) (key : Bytes) : Option (List RowId × HashIndex) :=
  if key = [] then some ([], s)
  else
    let (bucketPageId, s) := s.getBucketPageId (hash sha256 s.numBuckets key)
    if bucketPageId = INVALID_PAGE_ID then some ([], s)
    else (gather key s.pages fuel bucketPageId).map fun rows => (rows, s)

def remove (s : HashIndex) (key : Bytes) (value : RowId) : Option (Bool × HashIndex) :=
  if key = [] then some (false, s)
  else
    let (bucketPageId, s) := s.getBucketPageId (hash sha256 s.numBuckets key)
    if bucketPageId = INVALID_PAGE_ID then some (false, s)
    else (firstOf (HashBucketPage.remove · key value) s.pages fuel bucketPageId).map fun
      | none => (false, s)
      | some (pageId, data) => (true, s.setPage pageId data)

end Calls

/-! ## Chains of bucket pages -/

/-- The pages of a bucket with their entries. -/
abbrev Chain := List (PageId × List Entry)

/-- The pages from this one on hold these entries. -/
def Chained (pages : PageId → Data) : PageId → Chain → Prop
  | first, [] => first = INVALID_PAGE_ID
  | first, (pageId, entries) :: rest =>
      first = pageId ∧ pageId ≠ INVALID_PAGE_ID ∧
        ∃ next, Holds (pages pageId) entries next ∧ Chained pages next rest

def Chain.pageIds (chain : Chain) : List PageId := chain.map (·.1)

def Chain.entries (chain : Chain) : List Entry := chain.flatMap (·.2)

variable {pages pages' : PageId → Data} {chain rest : Chain} {first pageId : PageId}
  {key : Bytes} {value : RowId} {fuel : Nat}

theorem Chained.congr : ∀ {chain : Chain} {first : PageId}, Chained pages first chain →
    (∀ pageId ∈ chain.pageIds, pages' pageId = pages pageId) → Chained pages' first chain
  | [], _, chained, _ => chained
  | (pageId, entries) :: rest, _, ⟨head, valid, next, holds, later⟩, same => by
      refine ⟨head, valid, next, ?_, later.congr fun other member =>
        same other (List.mem_cons_of_mem _ member)⟩
      rw [same pageId List.mem_cons_self]
      exact holds

theorem Chained.first_eq (chained : Chained pages first chain) :
    first = INVALID_PAGE_ID ↔ chain = [] := by
  cases chain with
  | nil => exact iff_of_true chained rfl
  | cons page rest =>
    refine iff_of_false ?_ (List.cons_ne_nil _ _)
    rw [chained.1]
    exact chained.2.1

theorem Chained.entry_holds : ∀ {chain : Chain} {first : PageId}, Chained pages first chain →
    ∀ page ∈ chain, ∃ next, Holds (pages page.1) page.2 next
  | [], _, _, _, member => by cases member
  | (_, _) :: _, _, ⟨_, _, next, holds, later⟩, page, member => by
      rcases List.mem_cons.mp member with rfl | inRest
      · exact ⟨next, holds⟩
      · exact later.entry_holds page inRest

/-- A page exchanged for one with other entries and the same next page. -/
theorem Chained.exchange {pageId : PageId} {entries entries' : List Entry} {data : Data}
    {back : Chain} (kept : ∀ next, Holds (pages pageId) entries next → Holds data entries' next) :
    ∀ {front : Chain} {first : PageId}, Chained pages first (front ++ (pageId, entries) :: back) →
      (Chain.pageIds (front ++ (pageId, entries) :: back)).Nodup →
      Chained (Function.update pages pageId data) first (front ++ (pageId, entries') :: back)
  | [], _, ⟨head, valid, next, holds, later⟩, distinct => by
      refine ⟨head, valid, next, ?_, later.congr fun other member => ?_⟩
      · rw [Function.update_self]
        exact kept next holds
      · refine Function.update_of_ne ?_ _ _
        rintro rfl
        exact (List.nodup_cons.mp distinct).1 member
  | (other, _) :: front, _, ⟨head, valid, next, holds, later⟩, distinct => by
      obtain ⟨apart, distinct⟩ := List.nodup_cons.mp distinct
      refine ⟨head, valid, next, ?_, later.exchange kept distinct⟩
      rw [Function.update_of_ne]
      · exact holds
      · rintro rfl
        exact apart (by simp)

/-- A walk finds the first page that the visit is content with, or goes over all of them. -/
theorem firstOf_chained {β : Type} (visit : Data → Option β) :
    ∀ {chain : Chain} {first : PageId} {fuel : Nat}, Chained pages first chain → chain ≠ [] →
      chain.length ≤ fuel →
      (firstOf visit pages fuel first = some none ∧
        ∀ page ∈ chain, visit (pages page.1) = none) ∨
      ∃ front page back found, chain = front ++ page :: back ∧
        firstOf visit pages fuel first = some (some (page.1, found)) ∧
        visit (pages page.1) = some found
  | [], _, _, _, nonempty, _ => absurd rfl nonempty
  | (_, _) :: _, _, 0, _, _, enough => absurd enough (Nat.not_succ_le_zero _)
  | (pageId, entries) :: rest, _, fuel + 1, ⟨rfl, _, next, holds, later⟩, _, enough => by
      simp only [firstOf]
      cases visited : visit (pages pageId) with
      | some found => exact .inr ⟨[], (pageId, entries), rest, found, rfl, rfl, visited⟩
      | none =>
        rw [holds.linked]
        by_cases last : rest = []
        · subst last
          refine .inl ⟨if_pos later, fun page member => ?_⟩
          cases List.mem_singleton.mp member
          exact visited
        · rw [if_neg fun invalid => last (later.first_eq.mp invalid)]
          rcases firstOf_chained visit later last (Nat.le_of_succ_le_succ enough) with
            ⟨walked, all⟩ | ⟨front, page, back, found, rfl, walked, here⟩
          · refine .inl ⟨walked, fun page member => ?_⟩
            rcases List.mem_cons.mp member with rfl | inRest
            · exact visited
            · exact all page inRest
          · exact .inr ⟨(pageId, entries) :: front, page, back, found, rfl, walked, here⟩

theorem gather_chained (nonempty : key ≠ []) :
    ∀ {chain : Chain} {first : PageId} {fuel : Nat}, Chained pages first chain → chain ≠ [] →
      chain.length ≤ fuel →
      gather key pages fuel first =
        some ((chain.entries.filter fun entry => entry.1 = key).map (·.2))
  | [], _, _, _, nonempty, _ => absurd rfl nonempty
  | (_, _) :: _, _, 0, _, _, enough => absurd enough (Nat.not_succ_le_zero _)
  | (pageId, entries) :: rest, _, fuel + 1, ⟨rfl, _, next, holds, later⟩, _, enough => by
      simp only [gather, holds.linked, holds.searchAll nonempty, Chain.entries, List.flatMap_cons,
        List.filter_append, List.map_append]
      by_cases last : rest = []
      · subst last
        rw [if_pos (later.first_eq.mpr rfl)]
        simp
      · rw [if_neg fun invalid => last (later.first_eq.mp invalid),
          gather_chained nonempty later last (Nat.le_of_succ_le_succ enough)]
        rfl

/-- A chain after a call: its pages are old ones of it or new ones, and no other page changed. -/
structure Extends (s s' : HashIndex) (first : PageId) (chain chain' : Chain) : Prop where
  chained : Chained s'.pages first chain'
  distinct : chain'.pageIds.Nodup
  origin : ∀ pageId ∈ chain'.pageIds,
    pageId ∈ chain.pageIds ∨ s.nextPageId ≤ pageId ∧ pageId < s'.nextPageId
  beside : ∀ pageId, pageId ∉ chain'.pageIds → s'.pages pageId = s.pages pageId
  numBuckets : s'.numBuckets = s.numBuckets
  directoryPageId : s'.directoryPageId = s.directoryPageId
  onward : s.nextPageId ≤ s'.nextPageId

variable {s s' : HashIndex}

/-- One page of a chain got other entries. -/
theorem Extends.exchange {front back : Chain} {pageId : PageId} {entries entries' : List Entry}
    {data : Data} (chained : Chained s.pages first (front ++ (pageId, entries) :: back))
    (distinct : (Chain.pageIds (front ++ (pageId, entries) :: back)).Nodup)
    (kept : ∀ next, Holds (s.pages pageId) entries next → Holds data entries' next) :
    Extends s (s.setPage pageId data) first (front ++ (pageId, entries) :: back)
      (front ++ (pageId, entries') :: back) := by
  have same : Chain.pageIds (front ++ (pageId, entries') :: back) =
      Chain.pageIds (front ++ (pageId, entries) :: back) := by
    simp only [Chain.pageIds, List.map_append, List.map_cons]
  refine ⟨chained.exchange kept distinct, same ▸ distinct, fun other member => .inl (same ▸ member),
    fun other outside => Function.update_of_ne ?_ _ _, rfl, rfl, Nat.le_refl _⟩
  rintro rfl
  exact outside (by simp [Chain.pageIds])

theorem createOverflowPage_eq (s : HashIndex) :
    ∃ data, s.createOverflowPage = (s.nextPageId,
      { s with
        pages := Function.update s.pages s.nextPageId (initializePage data)
        nextPageId := s.nextPageId + 1 }) := by
  refine ⟨s.newPage.2.pages s.nextPageId, ?_⟩
  simp only [createOverflowPage, newPage, setPage, Function.update_idem]

/-- An empty page takes every entry that is short enough. -/
theorem insert_initializePage (storable : Storable (key, value))
    (short : entrySize key.length ≤ MAX_ENTRY_SPACE) (data : Data) :
    ∃ data', HashBucketPage.insert (initializePage data) key value = some data' ∧
      Holds data' [(key, value)] INVALID_PAGE_ID := by
  rcases (Holds.initializePage data).insert storable with ⟨-, ⟨other, member⟩ | full⟩ | taken
  · cases member
  · rw [packed_nil, List.length_nil, Nat.zero_add] at full
    exact absurd short (Nat.not_le.mpr full)
  · exact taken

/-- A page that is not touched, before a chain. -/
theorem Extends.cons {chain' : Chain} {entries : List Entry} {next : PageId}
    (extends' : Extends s s' next chain chain') (old : pageId ≠ INVALID_PAGE_ID)
    (holds : Holds (s.pages pageId) entries next) (lower : pageId < s.nextPageId)
    (apart : pageId ∉ chain.pageIds) :
    Extends s s' pageId ((pageId, entries) :: chain) ((pageId, entries) :: chain') := by
  have outside : pageId ∉ chain'.pageIds := fun member =>
    (extends'.origin pageId member).elim apart fun new => absurd lower (Nat.not_lt.mpr new.1)
  refine ⟨⟨rfl, old, next, ?_, extends'.chained⟩,
    List.nodup_cons.mpr ⟨outside, extends'.distinct⟩, fun other member => ?_,
    fun other here => extends'.beside other fun member => here (List.mem_cons_of_mem _ member),
    extends'.numBuckets, extends'.directoryPageId, extends'.onward⟩
  · rw [extends'.beside pageId outside]
    exact holds
  · rcases List.mem_cons.mp member with rfl | inRest
    · exact .inl List.mem_cons_self
    · exact (extends'.origin other inRest).imp_left (List.mem_cons_of_mem _)

/-- When the last page refuses, a new page is linked behind it and takes the entry. -/
theorem insertInto_last (storable : Storable (key, value))
    (short : entrySize key.length ≤ MAX_ENTRY_SPACE) (valid : 0 < s.nextPageId)
    (small : s.nextPageId < 2 ^ 32) (created : Nat) {entries : List Entry}
    (old : pageId ≠ INVALID_PAGE_ID) (lower : pageId < s.nextPageId)
    (holds : Holds (s.pages pageId) entries INVALID_PAGE_ID)
    (refused : HashBucketPage.insert (s.pages pageId) key value = none) :
    ∃ s', insertInto key value (fuel + 2) s pageId created = some (created + 1, s') ∧
      Extends s s' pageId [(pageId, entries)]
        [(pageId, entries), (s.nextPageId, [(key, value)])] ∧
      s'.nextPageId = s.nextPageId + 1 := by
  obtain ⟨data, newPage⟩ := createOverflowPage_eq s
  obtain ⟨data', taken, holds'⟩ := insert_initializePage storable short data
  have apart : pageId ≠ s.nextPageId := Nat.ne_of_lt lower
  refine ⟨{ s with
      pages := Function.update (Function.update (Function.update s.pages s.nextPageId
        (initializePage data)) pageId (setNextBucketPageId (s.pages pageId) s.nextPageId))
        s.nextPageId data'
      nextPageId := s.nextPageId + 1 }, ?_,
    ⟨⟨rfl, old, s.nextPageId, ?_, rfl, valid.ne', INVALID_PAGE_ID, ?_, rfl⟩, ?_, ?_, ?_,
      rfl, rfl, Nat.le_succ _⟩, rfl⟩
  · simp only [insertInto, refused, holds.linked, if_true, newPage, setPage,
      Function.update_of_ne apart, Function.update_of_ne apart.symm, Function.update_self, taken]
  · simp only [Function.update_of_ne apart, Function.update_self]
    exact holds.setNext small
  · simp only [Function.update_self]
    exact holds'
  · simp [Chain.pageIds, apart]
  · intro other member
    simp only [Chain.pageIds, List.map_cons, List.map_nil, List.mem_cons, List.not_mem_nil,
      or_false] at member ⊢
    rcases member with rfl | rfl
    · exact .inl rfl
    · exact .inr ⟨Nat.le_refl _, Nat.lt_succ_self _⟩
  · intro other outside
    simp only [Chain.pageIds, List.map_cons, List.map_nil, List.mem_cons, List.not_mem_nil,
      or_false, not_or] at outside
    simp only [Function.update_of_ne outside.1, Function.update_of_ne outside.2]

/-- An insertion puts the entry on some page of the chain, or on one new page behind it. -/
theorem insertInto_chained (storable : Storable (key, value))
    (short : entrySize key.length ≤ MAX_ENTRY_SPACE) (valid : 0 < s.nextPageId)
    (small : s.nextPageId < 2 ^ 32) (created : Nat) :
    ∀ {chain : Chain} {first : PageId} {fuel : Nat}, Chained s.pages first chain → chain ≠ [] →
      chain.pageIds.Nodup → (∀ pageId ∈ chain.pageIds, pageId < s.nextPageId) →
      chain.length < fuel →
      ∃ chain' s' more, insertInto key value fuel s first created = some (created + more, s') ∧
        Extends s s' first chain chain' ∧ chain'.entries.Perm ((key, value) :: chain.entries) ∧
        s'.nextPageId = s.nextPageId + more ∧ more ≤ 1
  | [], _, _, _, nonempty, _, _, _ => absurd rfl nonempty
  | (_, _) :: _, _, 0, _, _, _, _, enough => absurd enough (Nat.not_lt_zero _)
  | (pageId, entries) :: rest, _, fuel + 1, ⟨rfl, old, next, holds, later⟩, _, distinct, below,
      enough => by
      have lower : pageId < s.nextPageId := below pageId List.mem_cons_self
      rcases holds.insert storable with ⟨refused, -⟩ | ⟨data, taken, holds'⟩
      · by_cases last : rest = []
        · subst last
          obtain ⟨fuel, rfl⟩ := Nat.exists_eq_succ_of_ne_zero
            (Nat.ne_of_gt (Nat.lt_of_succ_lt_succ enough))
          obtain ⟨s', done, extends', count⟩ := insertInto_last storable short valid small created
            old lower (later.first_eq.mpr rfl ▸ holds) refused
          refine ⟨_, s', 1, done, extends', ?_, count, Nat.le_refl _⟩
          simp only [Chain.entries, List.flatMap_cons, List.flatMap_nil, List.append_nil]
          exact List.perm_append_singleton _ _
        · obtain ⟨apart, distinct⟩ := List.nodup_cons.mp distinct
          obtain ⟨chain', s', more, done, extends', perm, count, one⟩ :=
            insertInto_chained storable short valid small created later last distinct
              (fun other member => below other (List.mem_cons_of_mem _ member))
              (Nat.lt_of_succ_lt_succ enough)
          refine ⟨(pageId, entries) :: chain', s', more, ?_,
            extends'.cons old holds lower apart, ?_, count, one⟩
          · simp only [insertInto, refused, holds.linked]
            rw [if_neg fun invalid => last (later.first_eq.mp invalid), done]
          · simp only [Chain.entries, List.flatMap_cons]
            exact (List.Perm.append_left _ perm).trans List.perm_middle
      · refine ⟨(pageId, entries ++ [(key, value)]) :: rest, s.setPage pageId data, 0, ?_, ?_, ?_,
          rfl, Nat.zero_le _⟩
        · simp only [insertInto, taken]
          rfl
        · change Extends s _ pageId ([] ++ (pageId, entries) :: rest) ([] ++ (pageId, _) :: rest)
          exact Extends.exchange ⟨rfl, old, next, holds, later⟩ distinct fun next' here =>
            (here.linked.symm.trans holds.linked) ▸ holds'
        · simp only [Chain.entries, List.flatMap_cons, List.append_assoc, List.singleton_append]
          exact List.perm_middle

end HashIndex

end QinDB.Index
