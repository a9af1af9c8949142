/-
# Index.HashPins — the pins of a hash index

The calls of `hash_index.cpp` once more, with the pins they take and give back in the buffer
pool. The pool may refuse any page that is asked for: `answers` says for each request, in the
order in which they are made, whether it is met. Other users of the pool have pins of their
own, so the counts before a call are arbitrary.

* `getBucketPageId_spec`, `insertInto_spec`, `gather_spec`: these give back what they take.
* `walk_spec`: a search or a removal that goes over the whole chain unpins the last page
  twice.
* `perform_index`: behind the pins are the calls of `HashIndex`.
* `pinNeutral_iff`: a call leaves the pins as they were unless the pages of its bucket do not hold
  its key and somebody else has pinned the last of them.
-/
import QinDB.Index.HashContents

namespace QinDB.Index

open QinDB.Core HashBucketPage
open HashIndex (Operation)

set_option autoImplicit false

/-- A hash index, the pins of the pages, and the number of requests made so far. -/
structure PinnedIndex where
  index : HashIndex
  pins : PageId → Nat
  requests : Nat

namespace PinnedIndex

def pin (s : PinnedIndex) (pageId : PageId) : PinnedIndex :=
  { s with pins := Function.update s.pins pageId (s.pins pageId + 1) }

/-- `unpinPage`: a page without pins stays as it is. -/
def unpinPage (s : PinnedIndex) (pageId : PageId) : PinnedIndex :=
  { s with pins := Function.update s.pins pageId (s.pins pageId - 1) }

def setPage (s : PinnedIndex) (pageId : PageId) (data : Data) : PinnedIndex :=
  { s with index := s.index.setPage pageId data }

section Calls

variable (answers : Nat → Bool)

/-- The page is pinned, unless the request is refused. -/
def fetchPage (s : PinnedIndex) (pageId : PageId) : Bool × PinnedIndex :=
  let asked := { s with requests := s.requests + 1 }
  if answers s.requests then (true, asked.pin pageId) else (false, asked)

/-- A new page has no other pin. -/
def newPage (s : PinnedIndex) : Option PageId × PinnedIndex :=
  let asked := { s with requests := s.requests + 1 }
  if answers s.requests then
    let (pageId, index) := s.index.newPage
    (some pageId, { asked with index }.pin pageId)
  else (none, asked)

def initializeDirectory (s : PinnedIndex) : PinnedIndex :=
  match s.newPage answers with
  | (none, s) => { s with index := { s.index with directoryPageId := INVALID_PAGE_ID } }
  | (some pageId, s) =>
      let emptied := s.setPage pageId
        (HashIndex.emptyDirectory s.index.numBuckets.toNat (s.index.pages pageId))
      { emptied with index := { emptied.index with directoryPageId := pageId } }.unpinPage pageId

/-- The number of the page is `INVALID_PAGE_ID` when there is none. -/
def createOverflowPage (s : PinnedIndex) : PageId × PinnedIndex :=
  match s.newPage answers with
  | (none, s) => (INVALID_PAGE_ID, s)
  | (some pageId, s) =>
      (pageId, (s.setPage pageId (initializePage (s.index.pages pageId))).unpinPage pageId)

/-- The part of `getBucketPageId` behind the creation of the directory. -/
def openBucket (s : PinnedIndex) (bucketIndex : Nat) : PageId × PinnedIndex :=
  let directory := s.index.directoryPageId
  match s.fetchPage answers directory with
  | (false, s) => (INVALID_PAGE_ID, s)
  | (true, s) =>
      let offset := HashIndex.directoryOffset bucketIndex
      let bucketPageId := readWord (s.index.pages directory) offset
      if bucketPageId = INVALID_PAGE_ID then
        match s.createOverflowPage answers with
        | (pageId, s) =>
            if pageId = INVALID_PAGE_ID then (INVALID_PAGE_ID, s.unpinPage directory)
            else (pageId, (s.setPage directory
              (writeWord (s.index.pages directory) offset pageId)).unpinPage directory)
      else (bucketPageId, s.unpinPage directory)

def getBucketPageId (s : PinnedIndex) (bucketIndex : Nat) : PageId × PinnedIndex :=
  if s.index.numBuckets.toNat ≤ bucketIndex then (INVALID_PAGE_ID, s)
  else if s.index.directoryPageId = INVALID_PAGE_ID then
    let s := s.initializeDirectory answers
    if s.index.directoryPageId = INVALID_PAGE_ID then (INVALID_PAGE_ID, s)
    else s.openBucket answers bucketIndex
  else s.openBucket answers bucketIndex

/-- How a walk along a chain ends. -/
inductive Outcome where
  | found
  | missed (last : PageId)
  | refused
  deriving DecidableEq, Repr

/-- The loop of `search` and `remove`, at a page that is pinned. What a visit finds may change the
page. -/
def walk {β : Type} (visit : Data → Option β) (change : Data → β → Data) :
    Nat → PinnedIndex → PageId → Option (Outcome × PinnedIndex)
  | 0, _, _ => none
  | fuel + 1, s, pageId =>
      match visit (s.index.pages pageId) with
      | some found =>
          some (.found, (s.setPage pageId (change (s.index.pages pageId) found)).unpinPage pageId)
      | none =>
          let nextPageId := getNextBucketPageId (s.index.pages pageId)
          let s := s.unpinPage pageId
          -- The loop is left with `page` still at this page, and it is unpinned once more.
          if nextPageId = INVALID_PAGE_ID then some (.missed pageId, s.unpinPage pageId)
          else
            match s.fetchPage answers nextPageId with
            | (false, s) => some (.refused, s)
            | (true, s) => walk visit change fuel s nextPageId

/-- The loop of `searchAll`. -/
def gather : Nat → PinnedIndex → PageId → Option (Outcome × PinnedIndex)
  | 0, _, _ => none
  | fuel + 1, s, pageId =>
      let nextPageId := getNextBucketPageId (s.index.pages pageId)
      let s := s.unpinPage pageId
      if nextPageId = INVALID_PAGE_ID then some (.found, s)
      else
        match s.fetchPage answers nextPageId with
        | (false, s) => some (.refused, s)
        | (true, s) => gather fuel s nextPageId

/-- The loop of `insert`. -/
def insertInto (key : Bytes) (value : RowId) :
    Nat → PinnedIndex → PageId → Option (Outcome × PinnedIndex)
  | 0, _, _ => none
  | fuel + 1, s, pageId =>
      match HashBucketPage.insert (s.index.pages pageId) key value with
      | some data => some (.found, (s.setPage pageId data).unpinPage pageId)
      | none =>
          let nextPageId := getNextBucketPageId (s.index.pages pageId)
          if nextPageId = INVALID_PAGE_ID then
            match s.createOverflowPage answers with
            | (newPageId, s) =>
                if newPageId = INVALID_PAGE_ID then some (.refused, s.unpinPage pageId)
                else
                  let linked := s.setPage pageId
                    (setNextBucketPageId (s.index.pages pageId) newPageId)
                  match (linked.unpinPage pageId).fetchPage answers newPageId with
                  | (false, s) => some (.refused, s)
                  | (true, s) => insertInto key value fuel s newPageId
          else
            match (s.unpinPage pageId).fetchPage answers nextPageId with
            | (false, s) => some (.refused, s)
            | (true, s) => insertInto key value fuel s nextPageId

def keyOf : Operation → Bytes
  | .insert key _ | .search key | .searchAll key | .remove key _ => key

/-- What a call does at the first page of its bucket. -/
def along (fuel : Nat) (s : PinnedIndex) (pageId : PageId) :
    Operation → Option (Outcome × PinnedIndex)
  | .insert key value => insertInto answers key value fuel s pageId
  | .search key => walk answers (HashBucketPage.search · key) (fun data _ => data) fuel s pageId
  | .searchAll _ => gather answers fuel s pageId
  | .remove key value =>
      walk answers (HashBucketPage.remove · key value) (fun _ data => data) fuel s pageId

/-- The calls that are refused at once. -/
def isVoid : Operation → Bool
  | .insert key value => decide (value = INVALID_ROW_ID) || key.isEmpty
  | operation => (keyOf operation).isEmpty

/-- A call up to its end, if `fuel` pages are enough. -/
def perform (sha256 : Bytes → Bytes) (fuel : Nat) (s : PinnedIndex) (operation : Operation) :
    Option (Outcome × PinnedIndex) :=
  if isVoid operation then some (.refused, s)
  else
    match s.getBucketPageId answers
      (HashIndex.hash sha256 s.index.numBuckets (keyOf operation)) with
    | (bucketPageId, s) =>
        if bucketPageId = INVALID_PAGE_ID then some (.refused, s)
        else
          match s.fetchPage answers bucketPageId with
          | (false, s) => some (.refused, s)
          | (true, s) => along answers fuel s bucketPageId operation

end Calls

/-! ## Pins taken and given back

One lemma for each function says what it does to the pins and, unless the pool refuses a page, that
it does to the index what the function of `HashIndex` does. -/

/-- The pins are the given ones and one of the call at this page. -/
def Holding (s : PinnedIndex) (pins : PageId → Nat) (pageId : PageId) : Prop :=
  s.pins = Function.update pins pageId (pins pageId + 1)

variable {answers : Nat → Bool} {s s' : PinnedIndex} {pins : PageId → Nat} {pageId : PageId}

theorem Holding.unpinPage (holding : s.Holding pins pageId) : (s.unpinPage pageId).pins = pins := by
  rw [PinnedIndex.unpinPage, holding]
  simp

theorem Holding.setPage (holding : s.Holding pins pageId) (other : PageId) (data : Data) :
    (s.setPage other data).Holding pins pageId :=
  holding

theorem fetchPage_true (fetched : s.fetchPage answers pageId = (true, s')) :
    answers s.requests = true ∧ s'.Holding s.pins pageId ∧ s'.index = s.index ∧
      s'.requests = s.requests + 1 := by
  rw [fetchPage] at fetched
  split at fetched <;> cases fetched
  exact ⟨‹_›, rfl, rfl, rfl⟩

theorem fetchPage_false (fetched : s.fetchPage answers pageId = (false, s')) :
    answers s.requests ≠ true ∧ s'.pins = s.pins := by
  rw [fetchPage] at fetched
  split at fetched <;> cases fetched
  exact ⟨‹_›, rfl⟩

theorem newPage_some (created : s.newPage answers = (some pageId, s')) :
    s'.Holding s.pins pageId ∧ s.index.newPage = (pageId, s'.index) := by
  rw [newPage] at created
  split at created <;> cases created
  exact ⟨rfl, rfl⟩

theorem newPage_none (created : s.newPage answers = (none, s')) : s'.pins = s.pins := by
  rw [newPage] at created
  split at created <;> cases created
  rfl

variable (answers) in
theorem initializeDirectory_spec (s : PinnedIndex) :
    (s.initializeDirectory answers).pins = s.pins ∧
      ((s.initializeDirectory answers).index.directoryPageId ≠ INVALID_PAGE_ID →
        (s.initializeDirectory answers).index = s.index.initializeDirectory) := by
  rw [initializeDirectory]
  split
  · rename_i refused
    exact ⟨(newPage_none refused :), absurd rfl⟩
  · rename_i created
    obtain ⟨holding, made⟩ := newPage_some created
    refine ⟨Holding.unpinPage (s := { s with pins := _ }) holding, fun _ => ?_⟩
    simp only [HashIndex.initializeDirectory, made]
    rfl

variable (answers) in
theorem createOverflowPage_spec (s : PinnedIndex) :
    (s.createOverflowPage answers).2.pins = s.pins ∧
      ((s.createOverflowPage answers).1 ≠ INVALID_PAGE_ID → s.index.createOverflowPage =
        ((s.createOverflowPage answers).1, (s.createOverflowPage answers).2.index)) := by
  rw [createOverflowPage]
  split
  · rename_i refused
    exact ⟨newPage_none refused, absurd rfl⟩
  · rename_i created
    obtain ⟨holding, made⟩ := newPage_some created
    refine ⟨(holding.setPage _ _).unpinPage, fun _ => ?_⟩
    simp only [HashIndex.createOverflowPage, made]
    rfl

variable (answers) in
theorem openBucket_spec (s : PinnedIndex) (bucketIndex : Nat) :
    (s.openBucket answers bucketIndex).2.pins = s.pins ∧
      ((s.openBucket answers bucketIndex).1 ≠ INVALID_PAGE_ID → s.index.openBucket bucketIndex =
        ((s.openBucket answers bucketIndex).1, (s.openBucket answers bucketIndex).2.index)) := by
  simp only [openBucket]
  split
  · rename_i fetched
    exact ⟨(fetchPage_false fetched).2, absurd rfl⟩
  · rename_i s₁ fetched
    obtain ⟨-, holding, same, -⟩ := fetchPage_true fetched
    obtain ⟨pins, made⟩ := createOverflowPage_spec answers s₁
    have later : (s₁.createOverflowPage answers).2.Holding s.pins s.index.directoryPageId :=
      pins.trans holding
    simp only [HashIndex.openBucket, same]
    split
    · split
      · exact ⟨later.unpinPage, absurd rfl⟩
      · rename_i valid
        refine ⟨(later.setPage _ _).unpinPage, fun _ => ?_⟩
        have made := made valid
        rw [same] at made
        have directory : (s₁.createOverflowPage answers).2.index.directoryPageId =
            s.index.directoryPageId := congrArg (·.2.directoryPageId) made.symm
        rw [made]
        simp only [directory]
        rfl
    · exact ⟨holding.unpinPage, fun _ => congrArg _ same.symm⟩

variable (answers) in
theorem getBucketPageId_spec (s : PinnedIndex) (bucketIndex : Nat) :
    (s.getBucketPageId answers bucketIndex).2.pins = s.pins ∧
      ((s.getBucketPageId answers bucketIndex).1 ≠ INVALID_PAGE_ID →
        s.index.getBucketPageId bucketIndex = ((s.getBucketPageId answers bucketIndex).1,
          (s.getBucketPageId answers bucketIndex).2.index)) := by
  obtain ⟨pins, made⟩ := initializeDirectory_spec answers s
  simp only [getBucketPageId, HashIndex.getBucketPageId]
  split
  · exact ⟨rfl, absurd rfl⟩
  · split
    · split
      · exact ⟨pins, absurd rfl⟩
      · rename_i valid
        rw [← made valid]
        exact ⟨(openBucket_spec answers _ _).1.trans pins, (openBucket_spec answers _ _).2⟩
    · exact openBucket_spec answers s bucketIndex

/-- What a walk leaves of the pins of others. -/
def Outcome.leaves (pins : PageId → Nat) : Outcome → PageId → Nat
  | .missed last => Function.update pins last (pins last - 1)
  | _ => pins

/-- The pages of a bucket, from one on, do not hold what is looked for; the pool serves them all, up
to the last one. -/
inductive Misses (answers : Nat → Bool) (pages : PageId → Data) (absent : Data → Prop) :
    Nat → PageId → PageId → Prop where
  | ends {requests : Nat} {pageId : PageId} (missing : absent (pages pageId))
      (last : getNextBucketPageId (pages pageId) = INVALID_PAGE_ID) :
      Misses answers pages absent requests pageId pageId
  | goes {requests : Nat} {pageId last : PageId} (missing : absent (pages pageId))
      (more : getNextBucketPageId (pages pageId) ≠ INVALID_PAGE_ID)
      (served : answers requests = true)
      (rest : Misses answers pages absent (requests + 1) (getNextBucketPageId (pages pageId)) last) :
      Misses answers pages absent requests pageId last

/-- A walk unpins the last page of its chain twice if it gets there, and that it does exactly along
pages that it finds nothing on. -/
theorem walk_spec {β : Type} {visit : Data → Option β} {change : Data → β → Data}
    {outcome : Outcome} :
    ∀ {fuel : Nat} {s : PinnedIndex} {pageId : PageId}, s.Holding pins pageId →
      walk answers visit change fuel s pageId = some (outcome, s') →
        s'.pins = outcome.leaves pins ∧
        (∀ last, outcome = .missed last ↔
          Misses answers s.index.pages (visit · = none) s.requests pageId last) ∧
        (outcome ≠ .refused →
          ∃ result, HashIndex.firstOf visit s.index.pages fuel pageId = some result ∧
            s'.index = result.elim s.index fun (pageId, found) =>
              s.index.setPage pageId (change (s.index.pages pageId) found))
  | 0, _, _, _, ended => by cases ended
  | fuel + 1, s, pageId, holding, ended => by
      rw [walk] at ended
      rw [HashIndex.firstOf]
      cases content : visit (s.index.pages pageId) with
      | some found =>
        rw [content] at ended
        cases ended
        refine ⟨(holding.setPage _ _).unpinPage, fun last => iff_of_false (by rintro ⟨⟩) ?_, fun _ =>
          ⟨some (pageId, found), rfl, rfl⟩⟩
        rintro (⟨missing, -⟩ | ⟨missing, -, -, -⟩) <;> cases content.symm.trans missing
      | none =>
        have returned := holding.unpinPage
        simp only [content] at ended ⊢
        split at ended
        · rename_i ends
          cases ended
          refine ⟨by rw [Outcome.leaves, PinnedIndex.unpinPage, returned], fun last => ⟨?_, ?_⟩,
            fun _ => ⟨none, if_pos ends, rfl⟩⟩
          · rintro ⟨⟩
            exact .ends content ends
          · rintro (⟨-, -⟩ | ⟨-, more, -, -⟩)
            · rfl
            · exact absurd ends more
        · rename_i more
          rw [if_neg more]
          split at ended
          · rename_i fetched
            obtain ⟨refused, pins⟩ := fetchPage_false fetched
            cases ended
            refine ⟨pins.trans returned, fun last => iff_of_false (by rintro ⟨⟩) ?_,
              absurd rfl⟩
            rintro (⟨-, ends⟩ | ⟨-, -, served, -⟩)
            · exact more ends
            · exact refused served
          · rename_i s₁ fetched
            obtain ⟨served, holding', same, requests⟩ := fetchPage_true fetched
            obtain ⟨leaves, missed, done⟩ := walk_spec (returned ▸ holding') ended
            rw [same] at missed done
            rw [requests] at missed
            refine ⟨leaves, fun last => (missed last).trans ⟨.goes content more served, ?_⟩, done⟩
            rintro (⟨-, ends⟩ | ⟨-, -, -, rest⟩)
            · exact absurd ends more
            · exact rest

theorem gather_spec {outcome : Outcome} :
    ∀ {fuel : Nat} {s : PinnedIndex} {pageId : PageId}, s.Holding pins pageId →
      gather answers fuel s pageId = some (outcome, s') →
        s'.pins = pins ∧ (outcome ≠ .refused →
          (∀ key, (HashIndex.gather key s.index.pages fuel pageId).isSome) ∧ s'.index = s.index)
  | 0, _, _, _, ended => by cases ended
  | fuel + 1, s, pageId, holding, ended => by
      have returned := holding.unpinPage
      simp only [gather] at ended
      simp only [HashIndex.gather]
      split at ended
      · rename_i last
        cases ended
        exact ⟨returned, fun _ => ⟨by simp [last], rfl⟩⟩
      · rename_i more
        split at ended
        · rename_i fetched
          cases ended
          exact ⟨(fetchPage_false fetched).2.trans returned, absurd rfl⟩
        · rename_i s₁ fetched
          obtain ⟨-, holding', same, -⟩ := fetchPage_true fetched
          obtain ⟨pins, done⟩ := gather_spec (returned ▸ holding') ended
          rw [show s₁.index = s.index from same] at done
          exact ⟨pins, fun met => ⟨by simpa [more] using (done met).1, (done met).2⟩⟩

theorem insertInto_spec {key : Bytes} {value : RowId} {outcome : Outcome} :
    ∀ {fuel : Nat} {s : PinnedIndex} {pageId : PageId} (created : Nat), s.Holding pins pageId →
      insertInto answers key value fuel s pageId = some (outcome, s') →
        s'.pins = pins ∧ (outcome ≠ .refused →
          ∃ count, HashIndex.insertInto key value fuel s.index pageId created =
            some (count, s'.index))
  | 0, _, _, _, _, ended => by cases ended
  | fuel + 1, s, pageId, created, holding, ended => by
      -- After giving a page back, the next one is fetched or the call ends.
      have onward : ∀ {s : PinnedIndex} {next : PageId} (created : Nat), s.pins = pins →
          (match s.fetchPage answers next with
            | (false, s) => some (.refused, s)
            | (true, s) => insertInto answers key value fuel s next) = some (outcome, s') →
          s'.pins = pins ∧ (outcome ≠ .refused →
            ∃ count, HashIndex.insertInto key value fuel s.index next created =
              some (count, s'.index)) := by
        intro s next created returned ended
        split at ended
        · rename_i fetched
          cases ended
          exact ⟨(fetchPage_false fetched).2.trans returned, absurd rfl⟩
        · rename_i fetched
          obtain ⟨-, holding, same, -⟩ := fetchPage_true fetched
          rw [← same]
          exact insertInto_spec created (returned ▸ holding) ended
      rw [insertInto] at ended
      rw [HashIndex.insertInto]
      cases content : HashBucketPage.insert (s.index.pages pageId) key value with
      | some data =>
        rw [content] at ended
        cases ended
        exact ⟨(holding.setPage _ _).unpinPage, fun _ => ⟨created, rfl⟩⟩
      | none =>
        simp only [content] at ended ⊢
        split at ended
        · rename_i last
          obtain ⟨pins, made⟩ := createOverflowPage_spec answers s
          have later : (s.createOverflowPage answers).2.Holding _ pageId := pins.trans holding
          rw [if_pos last]
          split at ended
          · cases ended
            exact ⟨later.unpinPage, absurd rfl⟩
          · rename_i valid
            rw [made valid]
            exact onward (created + 1) (later.setPage _ _).unpinPage ended
        · rename_i more
          rw [if_neg more]
          exact onward (s := s.unpinPage pageId) created holding.unpinPage ended

/-! ## The calls -/

/-- A page that a search or a removal leaves without result; no other call gives up there. -/
def Absent : Operation → Data → Prop
  | .search key, data => HashBucketPage.search data key = none
  | .remove key value, data => HashBucketPage.remove data key value = none
  | _, _ => False

theorem not_misses {pages : PageId → Data} {absent : Data → Prop} {requests : Nat} {last : PageId}
    (present : ∀ data, ¬ absent data) :
    ¬ Misses answers pages absent requests pageId last := by
  rintro (⟨missing, -⟩ | ⟨missing, -, -, -⟩) <;> exact present _ missing

variable {sha256 : Bytes → Bytes} {fuel : Nat} {operation : Operation} {outcome : Outcome}

/-- A call unpins the last page once too often exactly if it misses its key there. -/
theorem pins_along (holding : s.Holding pins pageId)
    (ended : along answers fuel s pageId operation = some (outcome, s')) :
    (∀ last, Misses answers s.index.pages (Absent operation) s.requests pageId last →
        s'.pins = Function.update pins last (pins last - 1)) ∧
      ((∀ last, ¬ Misses answers s.index.pages (Absent operation) s.requests pageId last) →
        s'.pins = pins) := by
  have walked {β : Type} {visit : Data → Option β} {change : Data → β → Data}
      (ended : walk answers visit change fuel s pageId = some (outcome, s')) :
      (∀ last, Misses answers s.index.pages (visit · = none) s.requests pageId last →
          s'.pins = Function.update pins last (pins last - 1)) ∧
        ((∀ last, ¬ Misses answers s.index.pages (visit · = none) s.requests pageId last) →
          s'.pins = pins) := by
    obtain ⟨leaves, missed, -⟩ := walk_spec holding ended
    refine ⟨fun last misses => ?_, fun never => ?_⟩
    · rwa [(missed last).mpr misses] at leaves
    · cases outcome with
      | missed last => exact absurd ((missed last).mp rfl) (never last)
      | found | refused => exact leaves
  cases operation with
  | insert key value =>
    exact ⟨fun _ misses => absurd misses (not_misses fun _ => id), fun _ =>
      (insertInto_spec 0 holding ended).1⟩
  | search key => exact walked ended
  | searchAll key =>
    exact ⟨fun _ misses => absurd misses (not_misses fun _ => id), fun _ =>
      (gather_spec holding ended).1⟩
  | remove key value => exact walked ended

/-- The first page of the bucket of a key, if there is one. -/
def bucketPage (sha256 : Bytes → Bytes) (s : HashIndex) (key : Bytes) : PageId :=
  if s.numBuckets.toNat ≤ HashIndex.hash sha256 s.numBuckets key ∨
      s.directoryPageId = INVALID_PAGE_ID then INVALID_PAGE_ID
  else readWord (s.pages s.directoryPageId)
    (HashIndex.directoryOffset (HashIndex.hash sha256 s.numBuckets key))

/-- A call that goes over all the pages of its bucket without finding its key, the last of which
others have pinned. -/
structure Overruns (answers : Nat → Bool) (sha256 : Bytes → Bytes) (s : PinnedIndex)
    (operation : Operation) (last : PageId) : Prop where
  given : isVoid operation = false
  known : bucketPage sha256 s.index (keyOf operation) ≠ INVALID_PAGE_ID
  directory : answers s.requests = true
  first : answers (s.requests + 1) = true
  misses : Misses answers s.index.pages (Absent operation) (s.requests + 2)
    (bucketPage sha256 s.index (keyOf operation)) last
  pinned : 0 < s.pins last

variable (answers) in
theorem getBucketPageId_known {key : Bytes}
    (known : bucketPage sha256 s.index key ≠ INVALID_PAGE_ID) :
    let found := s.getBucketPageId answers (HashIndex.hash sha256 s.index.numBuckets key)
    found.1 = (if answers s.requests then bucketPage sha256 s.index key else INVALID_PAGE_ID) ∧
      found.2.index = s.index ∧ found.2.requests = s.requests + 1 := by
  rw [bucketPage] at known ⊢
  split at known
  · exact absurd rfl known
  · rename_i open_
    obtain ⟨low, opened⟩ := not_or.mp open_
    simp only [getBucketPageId, if_neg low, if_neg opened, if_neg open_, openBucket, fetchPage]
    by_cases served : answers s.requests = true
    · simp only [if_pos served, pin, if_neg known, unpinPage, and_self]
    · simp only [if_neg served, and_self]

/-- The pool refuses the bucket, or the call goes along its pages. -/
theorem perform_cases (ended : perform answers sha256 fuel s operation = some (outcome, s')) :
    (outcome = .refused ∧ s'.pins = s.pins ∧ ∀ last, ¬ Overruns answers sha256 s operation last) ∨
    ∃ pageId s₂, isVoid operation = false ∧ pageId ≠ INVALID_PAGE_ID ∧
      s.index.getBucketPageId (HashIndex.hash sha256 s.index.numBuckets (keyOf operation)) =
        (pageId, s₂.index) ∧
      s₂.Holding s.pins pageId ∧ along answers fuel s₂ pageId operation = some (outcome, s') ∧
      (bucketPage sha256 s.index (keyOf operation) ≠ INVALID_PAGE_ID →
        pageId = bucketPage sha256 s.index (keyOf operation) ∧ s₂.index = s.index ∧
        s₂.requests = s.requests + 2 ∧ answers s.requests = true ∧
        answers (s.requests + 1) = true) := by
  rw [perform] at ended
  split at ended
  · rename_i void
    cases ended
    exact .inl ⟨rfl, rfl, fun _ overruns => absurd void (Bool.eq_false_iff.mp overruns.given)⟩
  rename_i given
  obtain ⟨bucket, made⟩ := getBucketPageId_spec answers s
    (HashIndex.hash sha256 s.index.numBuckets (keyOf operation))
  have known := @getBucketPageId_known answers s sha256 (keyOf operation)
  rcases opened : s.getBucketPageId answers
    (HashIndex.hash sha256 s.index.numBuckets (keyOf operation)) with ⟨pageId, s₁⟩
  simp only [opened] at ended bucket made known
  split at ended
  · rename_i invalid
    cases ended
    refine .inl ⟨rfl, bucket, fun _ overruns => overruns.known ?_⟩
    have first := (known overruns.known).1
    rw [if_pos overruns.directory] at first
    exact first.symm.trans invalid
  · rename_i valid
    split at ended
    · rename_i fetched
      obtain ⟨refused, pins⟩ := fetchPage_false fetched
      cases ended
      refine .inl ⟨rfl, pins.trans bucket, fun _ overruns => refused ?_⟩
      rw [(known overruns.known).2.2]
      exact overruns.first
    · rename_i s₂ fetched
      obtain ⟨served, holding, same, requests⟩ := fetchPage_true fetched
      refine .inr ⟨pageId, s₂, Bool.eq_false_iff.mpr given, valid, by rw [same]; exact made valid, bucket ▸ holding, ended,
        fun valid' => ?_⟩
      obtain ⟨first, index, requests'⟩ := known valid'
      rw [requests'] at served requests
      have directory : answers s.requests = true := by
        by_contra refused
        rw [if_neg refused] at first
        exact valid first
      rw [if_pos directory] at first
      exact ⟨first, same.trans index, requests, directory, served⟩

/-- A call that the pool does not refuse does to the index what the call without pins does. -/
theorem perform_index (ended : perform answers sha256 fuel s operation = some (outcome, s'))
    (met : outcome ≠ .refused) :
    ∃ answer, HashIndex.perform sha256 fuel s.index operation = some (answer, s'.index) := by
  rcases perform_cases ended with ⟨refused, -⟩ | ⟨pageId, s₂, given, valid, bucket, holding, ended, -⟩
  · exact absurd refused met
  cases operation with
  | insert key value =>
    obtain ⟨count, done⟩ := (insertInto_spec 0 holding ended).2 met
    have given : ¬ (value = INVALID_ROW_ID ∨ key = []) := by simpa [isVoid] using given
    rw [keyOf] at bucket
    refine ⟨.done true, ?_⟩
    simp only [HashIndex.perform, HashIndex.insert, if_neg given, bucket, if_neg valid, done,
      Option.map_some]
  | search key =>
    obtain ⟨result, done, after⟩ := (walk_spec holding ended).2.2 met
    have given : key ≠ [] := by simpa [isVoid, keyOf] using given
    have kept : s'.index = s₂.index := by
      rw [after]
      cases result with
      | none => rfl
      | some found =>
        exact congrArg (fun pages => { s₂.index with pages }) (Function.update_eq_self ..)
    rw [keyOf] at bucket
    refine ⟨.row (result.map (·.2)), ?_⟩
    simp only [HashIndex.perform, HashIndex.search, if_neg given, bucket, if_neg valid, done,
      Option.map_some, kept]
  | searchAll key =>
    obtain ⟨done, after⟩ := (gather_spec holding ended).2 met
    have given : key ≠ [] := by simpa [isVoid, keyOf] using given
    obtain ⟨rows, done⟩ := Option.isSome_iff_exists.mp (done key)
    rw [keyOf] at bucket
    refine ⟨.rows (!rows.isEmpty) rows, ?_⟩
    simp only [HashIndex.perform, HashIndex.searchAll, if_neg given, bucket, if_neg valid, done,
      Option.map_some, after]
  | remove key value =>
    obtain ⟨result, done, after⟩ := (walk_spec holding ended).2.2 met
    have given : key ≠ [] := by simpa [isVoid, keyOf] using given
    rw [keyOf] at bucket
    simp only [HashIndex.perform, HashIndex.remove, if_neg given, bucket, if_neg valid, done,
      Option.map_some, after]
    cases result <;> exact ⟨_, rfl⟩

/-! ## The pages of others -/

/-- The pages handed out so far: the directory is one of them, and only they have pins. -/
structure Placed (s : PinnedIndex) : Prop where
  directory : s.index.directoryPageId < s.index.nextPageId
  pins : ∀ pageId, s.index.nextPageId ≤ pageId → s.pins pageId = 0

theorem openBucket_new {index : HashIndex} (bounded : index.directoryPageId < index.nextPageId)
    {bucketIndex : Nat} (absent : readWord (index.pages index.directoryPageId)
      (HashIndex.directoryOffset bucketIndex) = INVALID_PAGE_ID) :
    (index.openBucket bucketIndex).1 = index.nextPageId ∧
      getNextBucketPageId ((index.openBucket bucketIndex).2.pages index.nextPageId) =
        INVALID_PAGE_ID := by
  obtain ⟨data, made⟩ := HashIndex.createOverflowPage_eq index
  have apart : index.nextPageId ≠ index.directoryPageId := Nat.ne_of_gt bounded
  simp only [HashIndex.openBucket, if_pos absent, made, HashIndex.setPage,
    Function.update_of_ne apart, Function.update_self]
  exact ⟨trivial, (Holds.initializePage data).linked⟩

/-- A bucket that a call makes is one new page. -/
theorem getBucketPageId_new {index index' : HashIndex} {key : Bytes}
    (bounded : index.directoryPageId < index.nextPageId)
    (none : bucketPage sha256 index key = INVALID_PAGE_ID) (valid : pageId ≠ INVALID_PAGE_ID)
    (found : index.getBucketPageId (HashIndex.hash sha256 index.numBuckets key) = (pageId, index')) :
    index.nextPageId ≤ pageId ∧ getNextBucketPageId (index'.pages pageId) = INVALID_PAGE_ID := by
  rw [HashIndex.getBucketPageId] at found
  rw [bucketPage] at none
  split at found
  · cases found
    exact absurd rfl valid
  · rename_i low
    split at found
    · have absent : readWord (index.initializeDirectory.pages
          index.initializeDirectory.directoryPageId) (HashIndex.directoryOffset
            (HashIndex.hash sha256 index.numBuckets key)) = INVALID_PAGE_ID := by
        simp only [HashIndex.initializeDirectory, HashIndex.newPage, HashIndex.setPage,
          Function.update_self]
        exact HashIndex.readWord_emptyDirectory _ (Nat.not_le.mp low)
      obtain ⟨new, last⟩ := openBucket_new (Nat.lt_succ_self _) absent
      rw [found] at new last
      exact ⟨Nat.le_of_lt (Nat.lt_of_lt_of_eq (Nat.lt_succ_self _) new.symm),
        (congrArg _ (congrArg _ new)).trans last⟩
    · rename_i opened
      rw [if_neg (not_or.mpr ⟨low, opened⟩)] at none
      obtain ⟨new, last⟩ := openBucket_new bounded none
      rw [found] at new last
      exact ⟨Nat.le_of_eq new.symm, (congrArg _ (congrArg _ new)).trans last⟩

/-- A call that ends leaves every pin count as it was exactly when it does not go over all the pages
of its bucket in vain, to a last page that somebody else has pinned. -/
theorem pinNeutral_iff (answers : Nat → Bool) (sha256 : Bytes → Bytes) (fuel : Nat)
    (s s' : PinnedIndex) (operation : Operation) (outcome : Outcome) (placed : s.Placed)
    (ended : perform answers sha256 fuel s operation = some (outcome, s')) :
    s'.pins = s.pins ↔ ∀ last, ¬ Overruns answers sha256 s operation last := by
  have unpinned : ∀ last, Function.update s.pins last (s.pins last - 1) = s.pins ↔
      ¬ 0 < s.pins last := by
    intro last
    rw [Function.update_eq_self_iff]
    omega
  rcases perform_cases ended with
    ⟨-, same, neutral⟩ | ⟨pageId, s₂, given, valid, bucket, holding, ended, before⟩
  · exact iff_of_true same neutral
  obtain ⟨twice, once⟩ := pins_along holding ended
  by_cases known : bucketPage sha256 s.index (keyOf operation) = INVALID_PAGE_ID
  · -- nobody else has pinned the page that the call has just made
    obtain ⟨new, ends⟩ := getBucketPageId_new placed.directory known valid bucket
    refine iff_of_true ?_ fun last overruns => overruns.known known
    by_cases misses : ∃ last,
        Misses answers s₂.index.pages (Absent operation) s₂.requests pageId last
    · obtain ⟨last, misses⟩ := misses
      rw [twice last misses, unpinned]
      rcases misses with ⟨-, -⟩ | ⟨-, more, -, -⟩
      · rw [placed.pins _ new]
        exact Nat.lt_irrefl 0
      · exact absurd ends more
    · exact once (not_exists.mp misses)
  · obtain ⟨rfl, index, requests, directory, first⟩ := before known
    rw [index, requests] at twice once
    constructor
    · intro same last overruns
      rw [twice last overruns.misses, unpinned] at same
      exact same overruns.pinned
    · intro neutral
      by_cases misses : ∃ last, Misses answers s.index.pages (Absent operation) (s.requests + 2)
          (bucketPage sha256 s.index (keyOf operation)) last
      · obtain ⟨last, misses⟩ := misses
        rw [twice last misses, unpinned]
        exact fun pinned => neutral last ⟨given, known, directory, first, misses, pinned⟩
      · exact once (not_exists.mp misses)

/-- A new index with one bucket; no page is pinned. -/
def empty : PinnedIndex := ⟨⟨1, INVALID_PAGE_ID, fun _ _ => 0, 1⟩, fun _ => 0, 0⟩

/-- The directory in page 1 and an empty bucket in page 2, which somebody else has pinned. -/
def pinned : PinnedIndex :=
  ⟨⟨1, 1, fun pageId => if pageId = 1 then writeWord (fun _ => 0) 0 2 else fun _ => 0, 3⟩,
    fun pageId => if pageId = 2 then 1 else 0, 0⟩

/-- A call with a pool that meets all requests. -/
def performed (s : PinnedIndex) (operation : Operation) : Option (Outcome × PinnedIndex) :=
  perform (fun _ => true) (fun _ => []) 1 s operation

theorem pinned_placed : pinned.Placed where
  directory := by decide
  pins := fun _ new => if_neg (Nat.ne_of_gt (Nat.lt_of_lt_of_le (by decide : 2 < 3) new))

theorem pinNeutral_iff_pinned :
    (∃ s', pinned.performed (.search [1]) = some (.missed 2, s') ∧ s'.pins ≠ pinned.pins) ∧
      ∃ s', pinned.performed (.searchAll [1]) = some (.found, s') ∧ s'.pins = pinned.pins := by
  refine ⟨⟨_, rfl, ?_⟩, ⟨_, rfl, ?_⟩⟩
  · refine (pinNeutral_iff (fun _ => true) (fun _ => []) 1 pinned _ (.search [1]) _ pinned_placed
      rfl).not.mpr fun neutral => neutral 2 ?_
    exact ⟨by decide, by decide, rfl, rfl, .ends rfl (by decide), by decide⟩
  · exact (pinNeutral_iff (fun _ => true) (fun _ => []) 1 pinned _ (.searchAll [1]) _ pinned_placed
      rfl).mpr fun last overruns => not_misses (fun _ => id) overruns.misses

/-- The first search makes the directory page 1 and the bucket page 2. When somebody else has
pinned page 2, the second one takes that pin away. -/
theorem search_takes_pin :
    ∃ s s', empty.performed (.search [1]) = some (.missed 2, s) ∧
      (s.pin 2).performed (.search [1]) = some (.missed 2, s') ∧
      (s.pin 2).pins 2 = 1 ∧ s'.pins 2 = 0 :=
  ⟨_, _, rfl, rfl, rfl, rfl⟩

end PinnedIndex

end QinDB.Index
