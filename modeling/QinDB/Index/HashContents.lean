/-
# Index.HashContents — a hash index is a multiset

What the chains of a hash index are for: together they hold a multiset of keys and rows, each
entry in the chain of the bucket of its key. The calls answer as the multiset does.

* `Represents`: chains of distinct pages that hold the entries of each bucket.
* `Represents.update`: another chain for one bucket.
* `hashIndex_is_multiset`: every run answers as a multiset of keys and rows does.
* `insert_ends_iff`: insertions end exactly for keys that fit on an empty page.
-/
import Mathlib.Data.List.Perm.Subperm
import Mathlib.Data.Multiset.Filter
import QinDB.Base.Run
import QinDB.Index.HashIndex

namespace QinDB.Index

open QinDB.Core QinDB.Base HashBucketPage

set_option autoImplicit false

namespace HashIndex

variable {chain : Chain} {first pageId : PageId} {key : Bytes} {value : RowId} {fuel : Nat}
  {s s' : HashIndex}

/-! ## Multisets of keys and rows -/

section Represents

variable (sha256 : Bytes → Bytes)

/-- The entries of one bucket. -/
def ofBucket (s : HashIndex) (i : Nat) (contents : Multiset Entry) : Multiset Entry :=
  contents.filter fun entry => hash sha256 s.numBuckets entry.1 = i

/-- The index has a directory inside its page, and each bucket holds its entries in a chain of
pages of its own. -/
structure Represents (s : HashIndex) (chains : Nat → Chain) (contents : Multiset Entry) :
    Prop where
  positive : 0 < s.numBuckets.toNat
  inside : directoryOffset s.numBuckets.toNat ≤ PAGE_SIZE
  opened : s.directoryPageId ≠ INVALID_PAGE_ID
  bounded : s.directoryPageId < s.nextPageId
  chained : ∀ i < s.numBuckets.toNat,
    Chained s.pages (readWord (s.pages s.directoryPageId) (directoryOffset i)) (chains i)
  below : ∀ i < s.numBuckets.toNat, ∀ pageId ∈ (chains i).pageIds,
    pageId < s.nextPageId ∧ pageId ≠ s.directoryPageId
  distinct : ∀ i < s.numBuckets.toNat, (chains i).pageIds.Nodup
  apart : ∀ i < s.numBuckets.toNat, ∀ j < s.numBuckets.toNat, i ≠ j →
    ∀ pageId ∈ (chains i).pageIds, pageId ∉ (chains j).pageIds
  entries : ∀ i < s.numBuckets.toNat, ofBucket sha256 s i contents = ↑(chains i).entries

/-- The same before the directory is created. -/
def Stores (s : HashIndex) (contents : Multiset Entry) : Prop :=
  (s.directoryPageId = INVALID_PAGE_ID ∧ contents = 0 ∧ 0 < s.numBuckets.toNat ∧
    directoryOffset s.numBuckets.toNat ≤ PAGE_SIZE ∧ 0 < s.nextPageId) ∨
  ∃ chains, Represents sha256 s chains contents

variable {sha256} {chains : Nat → Chain} {contents contents' : Multiset Entry} {i : Nat}
  {chain' : Chain} {data : Data}

theorem hash_lt (sha256 : Bytes → Bytes) (positive : 0 < s.numBuckets.toNat) (key : Bytes) :
    hash sha256 s.numBuckets key < s.numBuckets.toNat := by
  have cut : (s.numBuckets - 1).toNat = s.numBuckets.toNat - 1 :=
    UInt32.toNat_sub_of_le _ _ (UInt32.le_iff_toNat_le.mpr positive)
  rw [hash, UInt32.toNat_and, cut]
  have least := Nat.and_le_right (n := (UInt32.ofNat (LittleEndian.decode
    ((sha256 key).take 4))).toNat) (m := s.numBuckets.toNat - 1)
  omega

/-- A chain is not longer than there are pages. -/
theorem Represents.length_le (rep : Represents sha256 s chains contents)
    (inRange : i < s.numBuckets.toNat) : (chains i).length ≤ s.nextPageId := by
  have few := ((rep.distinct i inRange).subperm fun pageId member =>
    List.mem_range.mpr (rep.below i inRange pageId member).1).length_le
  rwa [Chain.pageIds, List.length_map, List.length_range] at few

/-- Another chain for one bucket. -/
theorem Represents.update (rep : Represents sha256 s chains contents)
    (inRange : i < s.numBuckets.toNat)
    (words : ∀ j < s.numBuckets.toNat, j ≠ i → readWord data (directoryOffset j) =
      readWord (s.pages s.directoryPageId) (directoryOffset j))
    (head : readWord data (directoryOffset i) = first)
    (extends' : Extends (s.setPage s.directoryPageId data) s' first (chains i) chain')
    (here : ofBucket sha256 s i contents' = ↑chain'.entries)
    (others : ∀ j, j ≠ i → ofBucket sha256 s j contents' = ofBucket sha256 s j contents) :
    Represents sha256 s' (Function.update chains i chain') contents' := by
  have buckets : s'.numBuckets = s.numBuckets := extends'.numBuckets
  have directory : s'.directoryPageId = s.directoryPageId := extends'.directoryPageId
  have onward : s.nextPageId ≤ s'.nextPageId := extends'.onward
  have bounded := rep.bounded
  -- The pages of the chain are pages of it, or new.
  have origin : ∀ pageId ∈ chain'.pageIds,
      pageId ∈ (chains i).pageIds ∨ s.nextPageId ≤ pageId ∧ pageId < s'.nextPageId :=
    extends'.origin
  have elsewhere : ∀ j < s.numBuckets.toNat, j ≠ i → ∀ pageId ∈ (chains j).pageIds,
      pageId ∉ chain'.pageIds := by
    intro j low different pageId member inNew
    rcases origin pageId inNew with old | new
    · exact rep.apart j low i inRange different pageId member old
    · exact absurd (rep.below j low pageId member).1 (Nat.not_lt.mpr new.1)
  have outside : s.directoryPageId ∉ chain'.pageIds := by
    intro inNew
    rcases origin _ inNew with old | new
    · exact (rep.below i inRange _ old).2 rfl
    · exact absurd bounded (Nat.not_lt.mpr new.1)
  have word : s'.pages s.directoryPageId = data := by
    rw [extends'.beside _ outside]
    exact Function.update_self ..
  have besides : ∀ pageId, pageId ∉ chain'.pageIds → pageId ≠ s.directoryPageId →
      s'.pages pageId = s.pages pageId := fun pageId apart other =>
    (extends'.beside pageId apart).trans (Function.update_of_ne other _ _)
  constructor
  all_goals simp only [ofBucket, buckets, directory]
  case positive => exact rep.positive
  case inside => exact rep.inside
  case opened => exact rep.opened
  case bounded => exact Nat.lt_of_lt_of_le bounded onward
  case chained =>
    intro j low
    rw [word]
    by_cases same : j = i
    · subst same
      rw [Function.update_self, head]
      exact extends'.chained
    · rw [Function.update_of_ne same, words j low same]
      exact (rep.chained j low).congr fun pageId member =>
        besides pageId (elsewhere j low same pageId member) (rep.below j low pageId member).2
  case below =>
    intro j low pageId member
    by_cases same : j = i
    · subst same
      rw [Function.update_self] at member
      rcases origin pageId member with old | new
      · exact ⟨Nat.lt_of_lt_of_le (rep.below j low pageId old).1 onward,
          (rep.below j low pageId old).2⟩
      · exact ⟨new.2, fun equal => absurd bounded (Nat.not_lt.mpr (equal ▸ new.1))⟩
    · rw [Function.update_of_ne same] at member
      exact ⟨Nat.lt_of_lt_of_le (rep.below j low pageId member).1 onward,
        (rep.below j low pageId member).2⟩
  case distinct =>
    intro j low
    by_cases same : j = i
    · rw [same, Function.update_self]
      exact extends'.distinct
    · rw [Function.update_of_ne same]
      exact rep.distinct j low
  case apart =>
    intro j low k high different pageId member
    by_cases first : j = i
    · have second : k ≠ i := fun equal => different (first.trans equal.symm)
      rw [first, Function.update_self] at member
      rw [Function.update_of_ne second]
      exact fun inOther => elsewhere k high second pageId inOther member
    · rw [Function.update_of_ne first] at member
      by_cases second : k = i
      · rw [second, Function.update_self]
        exact elsewhere j low first pageId member
      · rw [Function.update_of_ne second]
        exact rep.apart j low k high different pageId member
  case entries =>
    intro j low
    by_cases same : j = i
    · rw [same, Function.update_self]
      exact here
    · rw [Function.update_of_ne same]
      exact (others j same).trans (rep.entries j low)

theorem readWord_emptyDirectory (data : Data) :
    ∀ {numBuckets i : Nat}, i < numBuckets →
      readWord (emptyDirectory numBuckets data) (directoryOffset i) = INVALID_PAGE_ID
  | numBuckets + 1, i, low => by
      rw [emptyDirectory, List.range_succ, List.foldl_append, List.foldl_cons, List.foldl_nil]
      rcases Nat.lt_succ_iff_lt_or_eq.mp low with earlier | rfl
      · rw [readWord_apart _ (.inr (by simp only [directoryOffset]; omega))]
        exact readWord_emptyDirectory data earlier
      · exact readWord_writeWord _ _ (by decide)

/-- A new directory names no page. -/
theorem represents_initializeDirectory (sha256 : Bytes → Bytes)
    (positive : 0 < s.numBuckets.toNat) (inside : directoryOffset s.numBuckets.toNat ≤ PAGE_SIZE)
    (valid : 0 < s.nextPageId) : Represents sha256 s.initializeDirectory (fun _ => []) 0 where
  positive := positive
  inside := inside
  opened := valid.ne'
  bounded := Nat.lt_succ_self _
  chained := fun i low => by
    simp only [initializeDirectory, newPage, setPage, Function.update_self, Chained]
    exact readWord_emptyDirectory _ low
  below := fun _ _ _ member => by cases member
  distinct := fun _ _ => List.nodup_nil
  apart := fun _ _ _ _ _ _ member => by cases member
  entries := fun _ _ => rfl

/-- The bucket that a call works on: its first page, and a chain that is not empty. -/
structure Opened (sha256 : Bytes → Bytes) (s s' : HashIndex) (i : Nat) (pageId : PageId)
    (chains : Nat → Chain) (contents : Multiset Entry) : Prop where
  represents : Represents sha256 s' chains contents
  numBuckets : s'.numBuckets = s.numBuckets
  head : readWord (s'.pages s'.directoryPageId) (directoryOffset i) = pageId
  nonempty : chains i ≠ []

theorem Represents.openBucket (rep : Represents sha256 s chains contents)
    (inRange : i < s.numBuckets.toNat) (small : s.nextPageId < 2 ^ 32) :
    ∃ chains', Opened sha256 s (s.openBucket i).2 i (s.openBucket i).1 chains' contents ∧
      (s.openBucket i).2.nextPageId ≤ s.nextPageId + 1 := by
  have chained := rep.chained i inRange
  rw [HashIndex.openBucket]
  by_cases absent : readWord (s.pages s.directoryPageId) (directoryOffset i) = INVALID_PAGE_ID
  · obtain ⟨data, newPage⟩ := createOverflowPage_eq s
    have apart : s.directoryPageId ≠ s.nextPageId := Nat.ne_of_lt rep.bounded
    have empty : chains i = [] := chained.first_eq.mp absent
    have none := rep.entries i inRange
    rw [empty] at none
    have valid : s.nextPageId ≠ INVALID_PAGE_ID := Nat.ne_of_gt (Nat.zero_lt_of_lt rep.bounded)
    simp only [absent, if_true, newPage, setPage, Function.update_of_ne apart]
    have head := readWord_writeWord (s.pages s.directoryPageId) (directoryOffset i) small
    have words : ∀ j < s.numBuckets.toNat, j ≠ i →
        readWord (writeWord (s.pages s.directoryPageId) (directoryOffset i) s.nextPageId)
          (directoryOffset j) = readWord (s.pages s.directoryPageId) (directoryOffset j) :=
      fun j _ different => readWord_apart _ (by simp only [directoryOffset]; omega)
    refine ⟨Function.update chains i [(s.nextPageId, [])], ⟨rep.update inRange words head
        ⟨⟨rfl, valid, INVALID_PAGE_ID, ?_, rfl⟩, List.nodup_singleton _, ?_, ?_, rfl, rfl,
          Nat.le_succ _⟩ none fun _ _ => rfl, rfl, ?_, ?_⟩, Nat.le_refl _⟩
    · simp only [Function.update_of_ne apart.symm, Function.update_self]
      exact Holds.initializePage data
    · intro pageId member
      rw [List.mem_singleton.mp member]
      exact .inr ⟨Nat.le_refl _, Nat.lt_succ_self _⟩
    · intro pageId outside
      have other : pageId ≠ s.nextPageId := fun same => outside (List.mem_singleton.mpr same)
      simp only [setPage, Function.update_apply, if_neg other]
    · simp only [Function.update_self]
      exact head
    · rw [Function.update_self]
      exact List.cons_ne_nil _ _
  · rw [if_neg absent]
    exact ⟨chains, ⟨rep, rfl, rfl, fun empty => absent (chained.first_eq.mpr empty)⟩,
      Nat.le_succ _⟩

/-- Every call first finds the bucket of its key. -/
theorem Stores.getBucketPageId (stores : Stores sha256 s contents) (key : Bytes)
    (supplied : s.nextPageId + 2 ≤ 2 ^ 32) :
    ∃ pageId s' chains, s.getBucketPageId (hash sha256 s.numBuckets key) = (pageId, s') ∧
      Opened sha256 s s' (hash sha256 s.numBuckets key) pageId chains contents ∧
      s'.nextPageId ≤ s.nextPageId + 2 := by
  rcases stores with ⟨closed, rfl, positive, inside, valid⟩ | ⟨chains, rep⟩
  · have low := hash_lt sha256 positive key
    have rep := represents_initializeDirectory sha256 positive inside valid
    obtain ⟨chains, ⟨rep', buckets, head, nonempty⟩, onward⟩ :=
      rep.openBucket low supplied
    refine ⟨_, _, chains, ?_, ⟨rep', buckets, head, nonempty⟩, onward⟩
    rw [HashIndex.getBucketPageId, if_neg (Nat.not_le.mpr low), if_pos closed]
  · have low := hash_lt sha256 rep.positive key
    obtain ⟨chains', ⟨rep', buckets, head, nonempty⟩, onward⟩ :=
      rep.openBucket low (Nat.le_of_succ_le supplied)
    refine ⟨_, _, chains', ?_, ⟨rep', buckets, head, nonempty⟩, Nat.le_succ_of_le onward⟩
    rw [HashIndex.getBucketPageId, if_neg (Nat.not_le.mpr low), if_neg rep.opened]

/-- Another chain for one bucket, with the directory as it was. -/
theorem Represents.rechain (rep : Represents sha256 s chains contents)
    (inRange : i < s.numBuckets.toNat)
    (extends' : Extends s s' (readWord (s.pages s.directoryPageId) (directoryOffset i)) (chains i)
      chain')
    (here : ofBucket sha256 s i contents' = ↑chain'.entries)
    (others : ∀ j, j ≠ i → ofBucket sha256 s j contents' = ofBucket sha256 s j contents) :
    Stores sha256 s' contents' := by
  have same : s.setPage s.directoryPageId (s.pages s.directoryPageId) = s := by
    rw [setPage, Function.update_eq_self]
  exact .inr ⟨_, rep.update inRange (fun _ _ _ => rfl) rfl (by rwa [same]) here others⟩

theorem ofBucket_cons_self {entry : Entry} (same : hash sha256 s.numBuckets entry.1 = i) :
    ofBucket sha256 s i (entry ::ₘ contents) = entry ::ₘ ofBucket sha256 s i contents :=
  Multiset.filter_cons_of_pos _ same

theorem ofBucket_cons_other {entry : Entry} (other : hash sha256 s.numBuckets entry.1 ≠ i) :
    ofBucket sha256 s i (entry ::ₘ contents) = ofBucket sha256 s i contents :=
  Multiset.filter_cons_of_neg _ other

namespace Opened

variable (opened : Opened sha256 s s' (hash sha256 s.numBuckets key) pageId chains contents)

include opened

theorem low : hash sha256 s.numBuckets key < s'.numBuckets.toNat := by
  have low := hash_lt sha256 opened.represents.positive key
  rwa [opened.numBuckets] at low ⊢

theorem chained : Chained s'.pages pageId (chains (hash sha256 s.numBuckets key)) :=
  opened.head ▸ opened.represents.chained _ opened.low

theorem valid : pageId ≠ INVALID_PAGE_ID :=
  fun invalid => opened.nonempty (opened.chained.first_eq.mp invalid)

/-- The entries of the key are in its bucket. -/
theorem mem {entry : Entry} (same : entry.1 = key) :
    entry ∈ contents ↔ entry ∈ (chains (hash sha256 s.numBuckets key)).entries := by
  rw [← Multiset.mem_coe, ← opened.represents.entries _ opened.low, ofBucket, opened.numBuckets,
    Multiset.mem_filter, same]
  exact (and_iff_left rfl).symm

theorem stores : Stores sha256 s' contents := .inr ⟨chains, opened.represents⟩

theorem length_le (supplied : s'.nextPageId < 2 ^ 32) (enough : 2 ^ 32 ≤ fuel) :
    (chains (hash sha256 s.numBuckets key)).length < fuel :=
  Nat.lt_of_lt_of_le (Nat.lt_of_le_of_lt (opened.represents.length_le opened.low) supplied) enough

end Opened

end Represents

/-! ## Calls -/

inductive Operation where
  | insert (key : Bytes) (value : RowId)
  | search (key : Bytes)
  | searchAll (key : Bytes)
  | remove (key : Bytes) (value : RowId)

inductive Answer where
  | done (ok : Bool)
  | row (found : Option RowId)
  | rows (ok : Bool) (found : List RowId)
  deriving DecidableEq

def perform (sha256 : Bytes → Bytes) (fuel : Nat) (s : HashIndex) :
    Operation → Option (Answer × HashIndex)
  | .insert key value => (insert sha256 fuel s key value).map fun (ok, _, s) => (.done ok, s)
  | .search key => (search sha256 fuel s key).map fun (found, s) => (.row found, s)
  | .searchAll key =>
      (searchAll sha256 fuel s key).map fun (found, s) => (.rows (!found.isEmpty) found, s)
  | .remove key value => (remove sha256 fuel s key value).map fun (ok, s) => (.done ok, s)

/-- What a multiset of keys and rows answers, and what becomes of it. With a valid row only one
pair matches in `remove`. -/
def Allowed (contents : Multiset Entry) : Operation → Answer → Multiset Entry → Prop
  | .insert key value, answer, contents' =>
      if value = INVALID_ROW_ID then answer = .done false ∧ contents' = contents
      else answer = .done true ∧ contents' = (key, value) ::ₘ contents
  | .search key, answer, contents' =>
      contents' = contents ∧
        ((answer = .row none ∧ ∀ value, (key, value) ∉ contents) ∨
          ∃ value, answer = .row (some value) ∧ (key, value) ∈ contents)
  | .searchAll key, answer, contents' =>
      contents' = contents ∧ ∃ rows, answer = .rows (!rows.isEmpty) rows ∧
        (rows : Multiset RowId) = (contents.filter fun entry => entry.1 = key).map (·.2)
  | .remove key value, answer, contents' =>
      (answer = .done false ∧ contents' = contents ∧
          ∀ entry ∈ contents, ¬ Matches key value entry) ∨
        (answer = .done true ∧
          ∃ entry ∈ contents, Matches key value entry ∧ contents' = contents.erase entry)

/-- The key is serialised and fits on a page, and the row is one of 64 bits. -/
def Operation.Valid : Operation → Prop
  | .insert key value => (key ≠ [] ∧ key.length ≤ 8144) ∧ value < 2 ^ 64
  | .search key | .searchAll key | .remove key _ => key ≠ [] ∧ key.length ≤ 8144

section Step

variable {sha256 : Bytes → Bytes} {contents : Multiset Entry}

theorem insert_stores (stores : Stores sha256 s contents) (storable : Storable (key, value))
    (short : key.length ≤ 8144) (valid : value ≠ INVALID_ROW_ID)
    (supplied : s.nextPageId + 3 ≤ 2 ^ 32) (enough : 2 ^ 32 ≤ fuel) :
    ∃ s' created, insert sha256 fuel s key value = some (true, created, s') ∧ created ≤ 1 ∧
      s'.nextPageId ≤ s.nextPageId + 3 ∧ Stores sha256 s' ((key, value) ::ₘ contents) := by
  obtain ⟨pageId, s₁, chains, found, opened, onward⟩ :=
    stores.getBucketPageId key (Nat.le_of_succ_le supplied)
  have rep := opened.represents
  have small : s₁.nextPageId < 2 ^ 32 :=
    Nat.lt_of_le_of_lt onward (Nat.lt_of_succ_le supplied)
  obtain ⟨chain', s', created, done, extends', perm, count, one⟩ :=
    insertInto_chained storable (Nat.add_le_add_right (Nat.add_le_add_right
      (Nat.add_le_add_left short _) _) _) (Nat.zero_lt_of_lt rep.bounded) small 0 opened.chained
      opened.nonempty (rep.distinct _ opened.low) (fun other member =>
        (rep.below _ opened.low other member).1) (opened.length_le small enough)
  refine ⟨s', created, ?_, one, count ▸ (Nat.add_le_add onward one : _ ≤ s.nextPageId + 2 + 1),
    rep.rechain opened.low (opened.head.symm ▸ extends') ?_ ?_⟩
  · rw [insert, if_neg (not_or.mpr ⟨valid, storable.1⟩), found]
    simp only [if_neg opened.valid, done, Nat.zero_add, Option.map_some]
  · rw [ofBucket_cons_self (by rw [opened.numBuckets]), Multiset.coe_eq_coe.mpr perm,
      ← Multiset.cons_coe, ← rep.entries _ opened.low]
  · intro j different
    exact ofBucket_cons_other (by rw [opened.numBuckets]; exact different.symm)

theorem search_stores (stores : Stores sha256 s contents) (nonempty : key ≠ [])
    (supplied : s.nextPageId + 3 ≤ 2 ^ 32) (enough : 2 ^ 32 ≤ fuel) :
    ∃ found s', search sha256 fuel s key = some (found, s') ∧
      s'.nextPageId ≤ s.nextPageId + 3 ∧ Stores sha256 s' contents ∧
      ((found = none ∧ ∀ value, (key, value) ∉ contents) ∨
        ∃ value, found = some value ∧ (key, value) ∈ contents) := by
  obtain ⟨pageId, s', chains, found, opened, onward⟩ :=
    stores.getBucketPageId key (Nat.le_of_succ_le supplied)
  have long := opened.length_le (Nat.lt_of_le_of_lt onward (Nat.lt_of_succ_le supplied)) enough
  have onward := Nat.le_succ_of_le onward
  rw [search, if_neg nonempty, found]
  simp only [if_neg opened.valid]
  rcases firstOf_chained (HashBucketPage.search · key) opened.chained opened.nonempty long.le with
    ⟨walked, all⟩ | ⟨front, page, back, value, split, walked, here⟩
  · refine ⟨none, s', by rw [walked]; rfl, onward, opened.stores, .inl ⟨rfl, fun value member => ?_⟩⟩
    obtain ⟨page, inChain, onPage⟩ := List.mem_flatMap.mp ((opened.mem rfl).mp member)
    obtain ⟨next, holds⟩ := opened.chained.entry_holds page inChain
    have missed := all page inChain
    rw [holds.search nonempty, Option.map_eq_none_iff, List.find?_eq_none] at missed
    exact missed _ onPage (decide_eq_true rfl)
  · refine ⟨some value, s', by rw [walked]; rfl, onward, opened.stores, .inr ⟨value, rfl, ?_⟩⟩
    have inChain : page ∈ chains (hash sha256 s.numBuckets key) := by simp [split]
    obtain ⟨next, holds⟩ := opened.chained.entry_holds page inChain
    rw [holds.search nonempty, Option.map_eq_some_iff] at here
    obtain ⟨⟨entryKey, entryValue⟩, first, rfl⟩ := here
    have same := List.find?_some first
    rw [decide_eq_true_iff] at same
    cases same
    exact (opened.mem rfl).mpr
      (List.mem_flatMap.mpr ⟨page, inChain, List.mem_of_find?_eq_some first⟩)

theorem searchAll_stores (stores : Stores sha256 s contents) (nonempty : key ≠ [])
    (supplied : s.nextPageId + 3 ≤ 2 ^ 32) (enough : 2 ^ 32 ≤ fuel) :
    ∃ rows s', searchAll sha256 fuel s key = some (rows, s') ∧
      s'.nextPageId ≤ s.nextPageId + 3 ∧ Stores sha256 s' contents ∧
      (rows : Multiset RowId) = (contents.filter fun entry => entry.1 = key).map (·.2) := by
  obtain ⟨pageId, s', chains, found, opened, onward⟩ :=
    stores.getBucketPageId key (Nat.le_of_succ_le supplied)
  have long := opened.length_le (Nat.lt_of_le_of_lt onward (Nat.lt_of_succ_le supplied)) enough
  have onward := Nat.le_succ_of_le onward
  rw [searchAll, if_neg nonempty, found]
  simp only [if_neg opened.valid, gather_chained nonempty opened.chained opened.nonempty long.le]
  refine ⟨_, s', rfl, onward, opened.stores, ?_⟩
  -- The rows of the key are among those of its bucket.
  have bucket : contents.filter (fun entry => entry.1 = key) =
      (ofBucket sha256 s' (hash sha256 s.numBuckets key) contents).filter
        fun entry => entry.1 = key := by
    rw [ofBucket, opened.numBuckets, Multiset.filter_filter]
    exact Multiset.filter_congr fun entry _ => by
      constructor
      · exact fun same => ⟨same, by rw [same]⟩
      · exact fun both => both.1
  rw [bucket, opened.represents.entries _ opened.low, Multiset.filter_coe, Multiset.map_coe]

theorem remove_stores (stores : Stores sha256 s contents) (nonempty : key ≠ []) (value : RowId)
    (supplied : s.nextPageId + 3 ≤ 2 ^ 32) (enough : 2 ^ 32 ≤ fuel) :
    (∃ s', remove sha256 fuel s key value = some (false, s') ∧
      s'.nextPageId ≤ s.nextPageId + 3 ∧ Stores sha256 s' contents ∧
      ∀ entry ∈ contents, ¬ Matches key value entry) ∨
    ∃ s', remove sha256 fuel s key value = some (true, s') ∧ s'.nextPageId ≤ s.nextPageId + 3 ∧
      ∃ entry ∈ contents, Matches key value entry ∧ Stores sha256 s' (contents.erase entry) := by
  obtain ⟨pageId, s', chains, found, opened, onward⟩ :=
    stores.getBucketPageId key (Nat.le_of_succ_le supplied)
  have long := opened.length_le (Nat.lt_of_le_of_lt onward (Nat.lt_of_succ_le supplied)) enough
  have onward := Nat.le_succ_of_le onward
  rw [remove, if_neg nonempty, found]
  simp only [if_neg opened.valid]
  rcases firstOf_chained (HashBucketPage.remove · key value) opened.chained opened.nonempty
    long.le with ⟨walked, all⟩ | ⟨front, page, back, data, split, walked, here⟩
  · refine .inl ⟨s', by rw [walked]; rfl, onward, opened.stores, fun entry member matching => ?_⟩
    obtain ⟨page, inChain, onPage⟩ := List.mem_flatMap.mp ((opened.mem matching.1).mp member)
    obtain ⟨next, holds⟩ := opened.chained.entry_holds page inChain
    rcases holds.remove nonempty value with ⟨-, absent⟩ | ⟨data, _, _, _, removed, -⟩
    · exact absent entry onPage matching
    · exact absurd ((all page inChain).symm.trans removed) (Option.some_ne_none _).symm
  · have rep := opened.represents
    have chained := opened.chained
    have distinct := rep.distinct _ opened.low
    obtain ⟨page, entries⟩ := page
    have inChain : (page, entries) ∈ chains (hash sha256 s.numBuckets key) := by simp [split]
    obtain ⟨next, holds⟩ := chained.entry_holds _ inChain
    rcases holds.remove nonempty value with ⟨missed, -⟩ | ⟨data₁, before, entry, after, removed,
      matching, rfl, holds'⟩
    · exact absurd (missed.symm.trans here) (Option.some_ne_none _).symm
    cases removed.symm.trans here
    have member : entry ∈ contents := (opened.mem matching.1).mpr
      (List.mem_flatMap.mpr ⟨_, inChain, List.mem_append_right _ List.mem_cons_self⟩)
    refine .inr ⟨s'.setPage page data, by rw [walked]; rfl, onward, entry, member, matching, ?_⟩
    obtain ⟨others, rfl⟩ := Multiset.exists_cons_of_mem member
    rw [Multiset.erase_cons_head]
    have entries := rep.entries _ opened.low
    rw [split] at chained distinct entries
    refine rep.rechain opened.low (opened.head.symm ▸ split ▸ Extends.exchange chained distinct
      fun next' here => (here.linked.symm.trans holds.linked) ▸ holds') ?_ ?_
    · rw [ofBucket_cons_self (by rw [opened.numBuckets, matching.1])] at entries
      refine (Multiset.cons_inj_right entry).mp (entries.trans ?_)
      rw [Multiset.cons_coe, Multiset.coe_eq_coe]
      simp only [Chain.entries, List.flatMap_append, List.flatMap_cons, List.append_assoc,
        List.cons_append]
      exact (List.Perm.append_left _ List.perm_middle).trans List.perm_middle
    · intro j different
      exact (ofBucket_cons_other (by rw [opened.numBuckets, matching.1]; exact different.symm)).symm

theorem perform_allowed (stores : Stores sha256 s contents) {operation : Operation}
    (valid : operation.Valid) (supplied : s.nextPageId + 3 ≤ 2 ^ 32) (enough : 2 ^ 32 ≤ fuel) :
    ∃ answer s' contents', perform sha256 fuel s operation = some (answer, s') ∧
      s'.nextPageId ≤ s.nextPageId + 3 ∧ Allowed contents operation answer contents' ∧ Stores sha256 s' contents' := by
  cases operation with
  | insert key value =>
    obtain ⟨⟨nonempty, short⟩, wide⟩ := valid
    by_cases invalid : value = INVALID_ROW_ID
    · refine ⟨.done false, s, contents, ?_, Nat.le_add_right _ _, ?_, stores⟩
      · rw [perform, insert, if_pos (.inl invalid)]
        rfl
      · rw [Allowed, if_pos invalid]
        exact ⟨rfl, rfl⟩
    · obtain ⟨s', created, done, -, onward, stores'⟩ :=
        insert_stores stores ⟨nonempty, wide⟩ short invalid supplied enough
      refine ⟨.done true, s', _, by rw [perform, done]; rfl, onward, ?_, stores'⟩
      rw [Allowed, if_neg invalid]
      exact ⟨rfl, rfl⟩
  | search key =>
    obtain ⟨found, s', done, onward, stores', sound⟩ := search_stores stores valid.1 supplied enough
    refine ⟨.row found, s', contents, by rw [perform, done]; rfl, onward, ⟨rfl, ?_⟩, stores'⟩
    rcases sound with ⟨rfl, absent⟩ | ⟨value, rfl, present⟩
    · exact .inl ⟨rfl, absent⟩
    · exact .inr ⟨value, rfl, present⟩
  | searchAll key =>
    obtain ⟨rows, s', done, onward, stores', all⟩ := searchAll_stores stores valid.1 supplied enough
    exact ⟨_, s', contents, by rw [perform, done]; rfl, onward, ⟨rfl, rows, rfl, all⟩, stores'⟩
  | remove key value =>
    rcases remove_stores stores valid.1 value supplied enough with
      ⟨s', done, onward, stores', absent⟩ | ⟨s', done, onward, entry, present, matching, stores'⟩
    · exact ⟨_, s', contents, by rw [perform, done]; rfl, onward, .inl ⟨rfl, rfl, absent⟩, stores'⟩
    · exact ⟨_, s', _, by rw [perform, done]; rfl, onward,
        .inr ⟨rfl, entry, present, matching, rfl⟩, stores'⟩

end Step

/-- The answers to a list of calls are those of a multiset. -/
def Behaves : Multiset Entry → List Operation → List Answer → Prop
  | _, [], answers => answers = []
  | contents, operation :: operations, answers =>
      ∃ answer later contents', answers = answer :: later ∧
        Allowed contents operation answer contents' ∧ Behaves contents' operations later

/-- An index without a directory, as the constructor leaves it. -/
def new (numBuckets : UInt32) (pages : PageId → Data) (nextPageId : PageId) : HashIndex :=
  ⟨numBuckets, INVALID_PAGE_ID, pages, nextPageId⟩

/-- The pool has pages left for one more call. -/
def Supplied (s : HashIndex) : Prop := s.nextPageId + 3 ≤ 2 ^ 32

instance (s : HashIndex) : Decidable s.Supplied := inferInstanceAs (Decidable (_ ≤ _))

theorem stores_new (sha256 : Bytes → Bytes) {numBuckets : UInt32} (positive : 0 < numBuckets.toNat)
    (few : numBuckets.toNat ≤ 2048) (pages : PageId → Data) {nextPageId : PageId}
    (valid : 0 < nextPageId) : Stores sha256 (new numBuckets pages nextPageId) 0 := by
  refine .inl ⟨rfl, rfl, positive, ?_, valid⟩
  simp only [new, directoryOffset, PAGE_SIZE]
  omega

theorem run_behaves {sha256 : Bytes → Bytes} (enough : 2 ^ 32 ≤ fuel) :
    ∀ {operations : List Operation} {s : HashIndex} {contents : Multiset Entry},
      Stores sha256 s contents → (∀ operation ∈ operations, operation.Valid) →
      Run.Meets (perform sha256 fuel) (fun s _ => s.Supplied) s operations →
      ∃ answers s', Run.run (perform sha256 fuel) s operations = some (answers, s') ∧
        Behaves contents operations answers
  | [], s, _, _, _, _ => ⟨[], s, rfl, rfl⟩
  | operation :: operations, s, contents, stores, valid, ⟨supplied, later⟩ => by
      obtain ⟨answer, s₁, contents₁, done, -, allowed, stores₁⟩ :=
        perform_allowed stores (valid operation List.mem_cons_self) supplied enough
      obtain ⟨answers, s₂, rest, behaves⟩ := run_behaves enough stores₁
        (fun other member => valid other (List.mem_cons_of_mem _ member)) (later _ _ done)
      refine ⟨answer :: answers, s₂, ?_, answer, answers, contents₁, rfl, allowed, behaves⟩
      simp only [Run.run, done, rest, Option.map_some]

/-- A hash index with at most 2048 buckets answers every list of calls as a multiset of keys and
rows, as long as the pool has pages. -/
theorem hashIndex_is_multiset (sha256 : Bytes → Bytes) {numBuckets : UInt32}
    (power : ∃ k, numBuckets.toNat = 2 ^ k) (few : numBuckets.toNat ≤ 2048)
    (pages : PageId → Data) {nextPageId : PageId} (valid : 0 < nextPageId) {fuel : Nat}
    (enough : 2 ^ 32 ≤ fuel) (operations : List Operation)
    (fit : ∀ operation ∈ operations, operation.Valid)
    (supplied : Run.Meets (perform sha256 fuel) (fun s _ => s.Supplied)
      (new numBuckets pages nextPageId) operations) :
    ∃ answers s', Run.run (perform sha256 fuel) (new numBuckets pages nextPageId) operations =
        some (answers, s') ∧ Behaves 0 operations answers := by
  obtain ⟨k, size⟩ := power
  have positive : 0 < numBuckets.toNat := size ▸ Nat.two_pow_pos k
  exact run_behaves enough (stores_new sha256 positive few pages valid) fit supplied

/-- Three pages for each call are enough. -/
theorem meets_supplied {sha256 : Bytes → Bytes} (enough : 2 ^ 32 ≤ fuel) :
    ∀ {operations : List Operation} {s : HashIndex} {contents : Multiset Entry},
      Stores sha256 s contents → (∀ operation ∈ operations, operation.Valid) →
      s.nextPageId + 3 * operations.length ≤ 2 ^ 32 →
      Run.Meets (perform sha256 fuel) (fun s _ => s.Supplied) s operations
  | [], _, _, _, _, _ => trivial
  | operation :: operations, s, contents, stores, valid, pages => by
      rw [List.length_cons, Nat.mul_succ, Nat.add_comm (3 * _), ← Nat.add_assoc] at pages
      have supplied : s.Supplied := Nat.le_trans (Nat.le_add_right _ _) pages
      obtain ⟨answer, s₁, contents₁, done, onward, -, stores₁⟩ :=
        perform_allowed stores (valid operation List.mem_cons_self) supplied enough
      refine ⟨supplied, fun answer' s' done' => ?_⟩
      cases done.symm.trans done'
      exact meets_supplied enough stores₁
        (fun other member => valid other (List.mem_cons_of_mem _ member))
        (Nat.le_trans (Nat.add_le_add_right onward _) pages)

/-- Two rows of one key, of which one is removed. -/
def twice : List Operation :=
  [.insert [1] 5, .insert [1] 6, .searchAll [1], .remove [1] 5, .search [1], .search [2]]

theorem hashIndex_is_multiset_twice :
    ∃ answers s', Run.run (perform (fun _ => []) (2 ^ 32)) (new 8 (fun _ _ => 0) 1) twice =
      some (answers, s') ∧ Behaves 0 twice answers := by
  have valid : ∀ operation ∈ twice, operation.Valid := by simp [twice, Operation.Valid]
  exact hashIndex_is_multiset (fun _ => []) ⟨3, rfl⟩ (by decide) (fun _ _ => 0) (by decide)
    (Nat.le_refl _) twice valid (meets_supplied (Nat.le_refl _)
      (stores_new _ (by decide) (by decide) _ (by decide)) valid (by decide))

/-! ## Insertions that end -/

/-- No page takes an entry that is longer than a page. -/
theorem insertInto_long (long : 8144 < key.length) (value : RowId) :
    ∀ (fuel : Nat) (s : HashIndex) (pageId : PageId) (created : Nat),
      insertInto key value fuel s pageId created = none
  | 0, _, _, _ => rfl
  | fuel + 1, s, pageId, created => by
      have full : isFull (s.pages pageId) key.length = true := by
        refine decide_eq_true (Nat.lt_of_lt_of_le ?_ (Nat.le_add_left _ _))
        simp only [entrySize, KEY_SIZE_FIELD, VALUE_SIZE_FIELD, VALUE_DATA_SIZE, MAX_ENTRY_SPACE,
          PAGE_SIZE, HEADER_SIZE]
        omega
      have refused : HashBucketPage.insert (s.pages pageId) key value = none := by
        rw [HashBucketPage.insert, full]
        simp
      simp only [insertInto, refused, insertInto_long long value fuel]
      exact ite_self _

section Ends

variable {sha256 : Bytes → Bytes} {contents : Multiset Entry}

theorem insert_long (stores : Stores sha256 s contents) (supplied : s.Supplied)
    (valid : value ≠ INVALID_ROW_ID) (long : 8144 < key.length) (fuel : Nat) :
    insert sha256 fuel s key value = none := by
  obtain ⟨pageId, s₁, chains, found, opened, -⟩ :=
    stores.getBucketPageId key (Nat.le_of_succ_le supplied)
  have nonempty : key ≠ [] := List.ne_nil_of_length_pos (Nat.zero_lt_of_lt long)
  rw [insert, if_neg (not_or.mpr ⟨valid, nonempty⟩), found]
  simp only [if_neg opened.valid, insertInto_long long, Option.map_none]

/-- An insertion ends, with at most one new overflow page, exactly if its row is invalid or its
key fits on an empty page. -/
theorem insert_ends_iff (stores : Stores sha256 s contents) (supplied : s.Supplied)
    (nonempty : key ≠ []) (wide : value < 2 ^ 64) :
    (∃ fuel ok created s', insert sha256 fuel s key value = some (ok, created, s') ∧ created ≤ 1) ↔
      value = INVALID_ROW_ID ∨ key.length ≤ 8144 := by
  constructor
  · rintro ⟨fuel, ok, created, s', done, -⟩
    by_contra neither
    obtain ⟨valid, long⟩ := not_or.mp neither
    rw [insert_long stores supplied valid (Nat.not_le.mp long)] at done
    cases done
  · intro either
    by_cases invalid : value = INVALID_ROW_ID
    · exact ⟨0, false, 0, s, if_pos (.inl invalid), Nat.zero_le _⟩
    · obtain ⟨s', created, done, one, -, -⟩ := insert_stores stores ⟨nonempty, wide⟩
        (either.resolve_left invalid) invalid supplied (Nat.le_refl _)
      exact ⟨_, true, created, s', done, one⟩

theorem insert_ends_first :
    ∃ fuel ok created s', insert (fun _ => []) fuel (new 8 (fun _ _ => 0) 1) [7] 1 =
      some (ok, created, s') ∧ created ≤ 1 :=
  (insert_ends_iff (stores_new _ (by decide) (by decide) _ (by decide)) (by decide) (by decide)
    (by decide)).mpr (.inr (by decide))

/-- The first key of 8145 bytes is never inserted. -/
theorem insert_never_ends :
    ¬ ∃ fuel, insert (fun _ => []) fuel (new 8 (fun _ _ => 0) 1) (List.replicate 8145 0) 1 ≠
      none := by
  rintro ⟨fuel, ended⟩
  exact ended (insert_long (stores_new _ (by decide) (by decide) _ (by decide)) (by decide)
    (by decide) (by rw [List.length_replicate]; decide) fuel)

end Ends

end HashIndex

end QinDB.Index
