/-
# Index.InvertedIndex — posting lists and the documents they stand for

`inverted_index.cpp`. The index keeps, for each term, the documents that contain it with
their frequencies. The tokenizer is any function from texts to terms; a `QMap` is the
function from its keys, walked through in the order of a list of them where the order shows.
The counters are 32 bits wide and wrap. Scores are those of the source, results of the same
score come in the order of `List.mergeSort`, which `std::sort` leaves open.

The documents that were inserted and not removed since are the specification's record;
`Indexes` says that the index stands for them, up to the width of its counters.

* `Indexes.addDocument`, `Indexes.dropDocument`: what the loops of `insert` and `remove` keep.
* `found_searchOr`, `found_searchAnd`: the documents that the searches find.
-/
import QinDB.Base.Entries
import QinDB.Core.Types
import Mathlib.Data.List.Perm.Subperm
import Mathlib.Data.List.Dedup

namespace QinDB.Index

open QinDB.Core QinDB.Base

set_option autoImplicit false

structure Posting where
  docId : RowId
  tf : UInt32
  deriving DecidableEq, Repr

structure PostingList (T : Type) where
  term : T
  df : UInt32
  postings : List Posting

structure SearchResult where
  docId : RowId
  score : Float

structure InvertedIndex (T : Type) where
  index : T → Option (PostingList T)
  docLengths : RowId → Option UInt32
  totalDocuments : UInt32

namespace InvertedIndex

def INVALID_ROW_ID : RowId := 0

variable {T : Type}

def new : InvertedIndex T := ⟨fun _ => none, fun _ => none, 0⟩

variable [DecidableEq T] (tokenizer : List Char → List T) (s : InvertedIndex T)

/-! ## Insert and remove -/

/-- The map that counts the tokens of a document. -/
def termFrequencies (tokens : List T) : T → UInt32 :=
  tokens.foldl (fun counts term => Function.update counts term (counts term + 1)) fun _ => 0

/-- One round of the loop of `insert`. -/
def addPosting (docId : RowId) (frequencies : T → UInt32) (index : T → Option (PostingList T))
    (term : T) : T → Option (PostingList T) :=
  let postingList := (index term).getD ⟨term, 0, []⟩
  Function.update index term (some { postingList with
    postings := postingList.postings ++ [⟨docId, frequencies term⟩]
    df := postingList.df + 1 })

/-- What `insert` writes for a document with tokens. -/
def addDocument (docId : RowId) (tokens : List T) : InvertedIndex T where
  docLengths := Function.update s.docLengths docId (some (UInt32.ofNat tokens.length))
  index := tokens.dedup.foldl (addPosting docId (termFrequencies tokens)) s.index
  totalDocuments := s.totalDocuments + 1

def insert (docId : RowId) (text : List Char) : Bool × InvertedIndex T :=
  if docId = INVALID_ROW_ID ∨ text = [] then (false, s)
  else if (s.docLengths docId).isSome then (false, s)
  else
    let tokens := tokenizer text
    if tokens = [] then (true, s) else (true, s.addDocument docId tokens)

/-- One round of the loop of `remove`: the first entry of the document goes, and with the last
entry the list. -/
def removePosting (docId : RowId) (postingList : PostingList T) : Option (PostingList T) :=
  let postingList :=
    if postingList.postings.any (·.docId = docId) then
      { postingList with
        postings := postingList.postings.eraseP (·.docId = docId)
        df := postingList.df - 1 }
    else postingList
  if postingList.postings.isEmpty then none else some postingList

/-- What `remove` leaves of the index. -/
def dropDocument (docId : RowId) : InvertedIndex T where
  index := fun term => (s.index term).bind (removePosting docId)
  docLengths := Function.update s.docLengths docId none
  totalDocuments := s.totalDocuments - 1

def remove (docId : RowId) : Bool × InvertedIndex T :=
  if docId = INVALID_ROW_ID then (false, s)
  else if (s.docLengths docId).isNone then (false, s)
  else (true, s.dropDocument docId)

/-- `update` gives the mutex back between its two calls. -/
def update (docId : RowId) (newText : List Char) : Bool × InvertedIndex T :=
  (s.remove docId).2.insert tokenizer docId newText

/-! ## Searching -/

def calculateTF (tf docLength : UInt32) : Float :=
  if docLength = 0 then 0.0 else Float.log (1.0 + tf.toFloat) / docLength.toFloat

def calculateIDF (df : UInt32) : Float :=
  if df = 0 ∨ s.totalDocuments = 0 then 0.0
  else Float.log (1.0 + s.totalDocuments.toFloat / df.toFloat)

def calculateTfIdf (term : T) (docId : RowId) : Float :=
  match s.index term, s.docLengths docId with
  | some postingList, some docLength =>
      let tf := ((postingList.postings.find? (·.docId = docId)).map Posting.tf).getD 0
      if tf = 0 then 0.0 else calculateTF tf docLength * s.calculateIDF postingList.df
  | _, _ => 0.0

/-- The results for one term. -/
def resultSet (term : T) (postingList : PostingList T) : List SearchResult :=
  postingList.postings.map fun posting => ⟨posting.docId, s.calculateTfIdf term posting.docId⟩

/-- A map from documents to scores, walked through in the order of the documents. -/
def ofScores (docIds : List RowId) (scoreMap : RowId → Float) : List SearchResult :=
  (docIds.dedup.mergeSort (· ≤ ·)).map fun docId => ⟨docId, scoreMap docId⟩

def mergeResults (resultSets : List (List SearchResult)) : List SearchResult :=
  match resultSets with
  | [] => []
  | [resultSet] => resultSet
  | resultSets =>
      let results := resultSets.flatten
      ofScores (results.map SearchResult.docId) (results.foldl (fun scoreMap result =>
        Function.update scoreMap result.docId (scoreMap result.docId + result.score)) fun _ => 0.0)

/-- The index of the first of the smallest sets. -/
def minIndex (resultSets : List (List SearchResult)) : Nat :=
  (resultSets.zipIdx.foldl (fun (best : Nat × Nat) found =>
    if found.1.length < best.2 then (found.2, found.1.length) else best)
    (0, (resultSets.headD []).length)).1

/-- The loop over the other sets, which ends when nothing is left. -/
def intersectAll (docIdSet : List RowId) : List (List SearchResult) → List RowId
  | [] => docIdSet
  | resultSet :: resultSets =>
      let docIdSet := docIdSet.filter (· ∈ resultSet.map SearchResult.docId)
      if docIdSet.isEmpty then docIdSet else intersectAll docIdSet resultSets

def intersectResults (resultSets : List (List SearchResult)) : List SearchResult :=
  match resultSets with
  | [] => []
  | [resultSet] => resultSet
  | resultSets =>
      let smallest := minIndex resultSets
      let docIdSet := intersectAll (((resultSets.getD smallest []).map SearchResult.docId).dedup)
        (resultSets.eraseIdx smallest)
      ofScores docIdSet fun docId => resultSets.foldl (fun totalScore resultSet =>
        match resultSet.find? (·.docId = docId) with
        | some result => totalScore + result.score
        | none => totalScore) 0.0

/-- The results by falling score, and as many as asked for. -/
def ranked (results : List SearchResult) (limit : Int) : List SearchResult :=
  let finalResults := results.mergeSort fun first second => !decide (first.score < second.score)
  if limit > 0 ∧ finalResults.length > limit then finalResults.take limit.toNat else finalResults

/-- The result sets of all terms, or nothing when one has no list. -/
def allSets : List T → Option (List (List SearchResult))
  | [] => some []
  | term :: queryTerms =>
      match s.index term with
      | none => none
      | some postingList => (allSets queryTerms).map (s.resultSet term postingList :: ·)

def searchAnd (queryTerms : List T) (limit : Int) : List SearchResult :=
  if queryTerms.isEmpty then []
  else
    match s.allSets queryTerms with
    | none => []
    | some resultSets => ranked (intersectResults resultSets) limit

def searchOr (queryTerms : List T) (limit : Int) : List SearchResult :=
  if queryTerms.isEmpty then []
  else
    let resultSets := queryTerms.filterMap fun term => (s.index term).map (s.resultSet term)
    if resultSets.isEmpty then [] else ranked (mergeResults resultSets) limit

/-! ## The documents behind the index -/

/-- The documents that are live, with their terms. -/
abbrev Documents (T : Type) := List (RowId × List T)

/-- The entry of a document in the list of a term. -/
def entry (term : T) (document : RowId × List T) : Option Posting :=
  if term ∈ document.2 then some ⟨document.1, UInt32.ofNat (document.2.count term)⟩ else none

/-- The entries under a term. -/
def entries (term : T) : List Posting := ((s.index term).map PostingList.postings).getD []

/-- The number of documents with at least one term. -/
def filled (docs : Documents T) : Nat := docs.countP fun document => document.2 ≠ []

/-- The index stands for the documents, up to the width of its counters. -/
structure Indexes (docs : Documents T) : Prop where
  distinct : (docs.map Prod.fst).Nodup
  valid : ∀ document ∈ docs, document.1 ≠ INVALID_ROW_ID
  lengths : ∀ docId, (s.docLengths docId).isSome ↔
    ∃ document ∈ docs, document.1 = docId ∧ document.2 ≠ []
  listed : ∀ term, (s.entries term).Perm (docs.filterMap (entry term))
  counted : ∀ term postingList, s.index term = some postingList →
    postingList.postings ≠ [] ∧ postingList.df = UInt32.ofNat postingList.postings.length
  total : s.totalDocuments = UInt32.ofNat (filled docs)

theorem termFrequencies_apply (tokens : List T) (term : T) :
    termFrequencies tokens term = UInt32.ofNat (tokens.count term) := by
  have general : ∀ (tokens : List T) (counts : T → UInt32), tokens.foldl
      (fun counts term => Function.update counts term (counts term + 1)) counts term =
        counts term + UInt32.ofNat (tokens.count term) := by
    intro tokens
    induction tokens with
    | nil => simp
    | cons first rest ih =>
      intro counts
      rw [List.foldl_cons, ih, List.count_cons]
      by_cases here : first = term
      · subst here
        simp only [Function.update_self, beq_self_eq_true, if_true, UInt32.ofNat_add]
        rw [UInt32.add_assoc, UInt32.add_comm 1]
        rfl
      · rw [Function.update_of_ne (Ne.symm here), if_neg (by simpa using here), Nat.add_zero]
  rw [termFrequencies, general, UInt32.zero_add]

/-- The loop over distinct terms touches the list of each once. -/
theorem foldl_addPosting (docId : RowId) (frequencies : T → UInt32) (terms : List T)
    (distinct : terms.Nodup) (index : T → Option (PostingList T)) (term : T) :
    terms.foldl (addPosting docId frequencies) index term =
      if term ∈ terms then addPosting docId frequencies index term term else index term := by
  induction terms generalizing index with
  | nil => rfl
  | cons first rest ih =>
    obtain ⟨fresh, distinct⟩ := List.nodup_cons.mp distinct
    rw [List.foldl_cons, ih distinct]
    by_cases here : term = first
    · subst here
      rw [if_neg fresh, if_pos List.mem_cons_self]
    · have untouched : addPosting docId frequencies index first term = index term :=
        Function.update_of_ne here _ _
      by_cases later : term ∈ rest
      · rw [if_pos later, if_pos (List.mem_cons_of_mem _ later)]
        simp only [addPosting, Function.update_self, Function.update_of_ne here]
      · rw [if_neg later, if_neg (by simp [here, later]), untouched]

/-! ### Changing the documents -/

section Documents

variable {docs : Documents T} {docId : RowId} {tokens : List T}

theorem entry_docId {term : T} {document : RowId × List T} {posting : Posting}
    (listed : entry term document = some posting) : posting.docId = document.1 := by
  rw [entry] at listed
  split at listed
  · cases listed
    rfl
  · cases listed

/-- The documents listed under a term. -/
theorem map_docId_entries (term : T) : (docs.filterMap (entry term)).map Posting.docId =
    (docs.filter fun document => term ∈ document.2).map Prod.fst := by
  induction docs with
  | nil => rfl
  | cons first rest ih =>
    by_cases here : term ∈ first.2
    · have listed : entry term first = some _ := if_pos here
      rw [List.filterMap_cons_some listed, List.filter_cons_of_pos (by simpa using here),
        List.map_cons, List.map_cons, ih]
    · have unlisted : entry term first = none := if_neg here
      rw [List.filterMap_cons_none unlisted, List.filter_cons_of_neg (by simpa using here), ih]

omit [DecidableEq T] in
theorem distinct_erase (distinct : (docs.map Prod.fst).Nodup) :
    ((Entries.erase docId docs).map Prod.fst).Nodup :=
  distinct.sublist (List.filter_sublist.map _)

/-- The entries of the documents without one. -/
theorem filterMap_erase (term : T) :
    (Entries.erase docId docs).filterMap (entry term) =
      (docs.filterMap (entry term)).filter (·.docId ≠ docId) := by
  rw [Entries.erase, List.filterMap_filter, List.filter_filterMap]
  refine List.filterMap_congr fun document _ => ?_
  cases listed : entry term document with
  | none => simp
  | some posting => simp [entry_docId listed, Option.filter]

/-- A document without terms has no entries. -/
theorem filterMap_erase_empty (term : T)
    (empty : ∀ document ∈ docs, document.1 = docId → document.2 = []) :
    (Entries.erase docId docs).filterMap (entry term) = docs.filterMap (entry term) := by
  rw [Entries.erase, List.filterMap_filter]
  refine List.filterMap_congr fun document member => ?_
  by_cases here : document.1 = docId
  · simp [here, entry, empty document member here]
  · simp [here]

omit [DecidableEq T] in
theorem filled_erase_empty (empty : ∀ document ∈ docs, document.1 = docId → document.2 = []) :
    filled (Entries.erase docId docs) = filled docs := by
  rw [filled, filled, Entries.erase, List.countP_filter]
  refine List.countP_congr fun document member => ?_
  by_cases here : document.1 = docId
  · simp [here, empty document member here]
  · simp [here]

omit [DecidableEq T] in
/-- A document and the others. -/
theorem perm_erase (distinct : (docs.map Prod.fst).Nodup) (member : (docId, tokens) ∈ docs) :
    docs.Perm ((docId, tokens) :: Entries.erase docId docs) := by
  induction docs with
  | nil => cases member
  | cons first rest ih =>
    obtain ⟨fresh, distinct⟩ := List.nodup_cons.mp distinct
    rcases List.mem_cons.mp member with here | later
    · subst here
      have kept : Entries.erase docId rest = rest := List.filter_eq_self.mpr fun other there => by
        have differs : other.1 ≠ docId := fun same =>
          fresh (List.mem_map.mpr ⟨other, there, same⟩)
        simpa using differs
      rw [Entries.erase, List.filter_cons_of_neg (by simp)]
      exact (List.Perm.of_eq kept.symm).cons _
    · have differs : first.1 ≠ docId := fun same =>
        fresh (List.mem_map.mpr ⟨_, later, same.symm⟩)
      rw [Entries.erase, List.filter_cons_of_pos (by simpa using differs)]
      exact ((ih distinct later).cons first).trans (List.Perm.swap _ _ _)

omit [DecidableEq T] in
/-- The first entry of a document is its only one. -/
theorem eraseP_eq_filter {postings : List Posting}
    (distinct : (postings.map Posting.docId).Nodup) :
    postings.eraseP (·.docId = docId) = postings.filter (·.docId ≠ docId) := by
  induction postings with
  | nil => rfl
  | cons first rest ih =>
    obtain ⟨fresh, distinct⟩ := List.nodup_cons.mp distinct
    by_cases here : first.docId = docId
    · rw [List.eraseP_cons_of_pos (by simpa using here),
        List.filter_cons_of_neg (by simpa using here)]
      refine (List.filter_eq_self.mpr fun other there => ?_).symm
      have differs : other.docId ≠ docId := fun same =>
        fresh (List.mem_map.mpr ⟨other, there, same.trans here.symm⟩)
      simpa using differs
    · rw [List.eraseP_cons_of_neg (by simpa using here),
        List.filter_cons_of_pos (by simpa using here), ih distinct]

omit [DecidableEq T] in
/-- The list of a term without a document, counted again. -/
theorem removePosting_eq {postingList : PostingList T}
    (distinct : (postingList.postings.map Posting.docId).Nodup)
    (counted : postingList.df = UInt32.ofNat postingList.postings.length) :
    let postings := postingList.postings.filter (·.docId ≠ docId)
    removePosting docId postingList = if postings.isEmpty then none
      else some { postingList with postings, df := UInt32.ofNat postings.length } := by
  intro postings
  by_cases inside : postingList.postings.any (·.docId = docId) = true
  · have shorter : postings.length + 1 = postingList.postings.length := by
      obtain ⟨posting, member, here⟩ := List.any_eq_true.mp inside
      have positive := List.length_pos_of_mem member
      rw [show postings = _ from (eraseP_eq_filter distinct).symm,
        List.length_eraseP_of_mem member here]
      omega
    rw [← shorter, UInt32.ofNat_add] at counted
    have again : postingList.df - 1 = UInt32.ofNat postings.length := by
      rw [counted]
      exact UInt32.add_sub_cancel ..
    simp only [removePosting, if_pos inside, eraseP_eq_filter distinct, again]
    rfl
  · have whole : postings = postingList.postings := List.filter_eq_self.mpr fun other there => by
      have differs : ¬ other.docId = docId := fun same =>
        inside (List.any_eq_true.mpr ⟨other, there, by simpa using same⟩)
      simpa using differs
    rw [removePosting, if_neg inside, whole, ← counted]

end Documents

namespace Indexes

variable {s : InvertedIndex T} {docs : Documents T} {docId : RowId}

theorem empty_of_unlisted (indexes : s.Indexes docs) (unlisted : s.docLengths docId = none) :
    ∀ document ∈ docs, document.1 = docId → document.2 = [] := by
  intro document member here
  by_contra filled
  have listed := (indexes.lengths docId).mpr ⟨document, member, here, filled⟩
  simp [unlisted] at listed

/-- Documents are listed once under a term. -/
theorem entries_distinct (indexes : s.Indexes docs) (term : T) :
    ((s.entries term).map Posting.docId).Nodup := by
  rw [((indexes.listed term).map Posting.docId).nodup_iff, map_docId_entries]
  exact indexes.distinct.sublist (List.filter_sublist.map _)

theorem mem_entries (indexes : s.Indexes docs) (term : T) (docId : RowId) :
    docId ∈ (s.entries term).map Posting.docId ↔
      ∃ document ∈ docs, document.1 = docId ∧ term ∈ document.2 := by
  rw [((indexes.listed term).map Posting.docId).mem_iff, map_docId_entries]
  simp only [List.mem_map, List.mem_filter, decide_eq_true_eq]
  constructor
  · rintro ⟨document, ⟨member, inside⟩, here⟩
    exact ⟨document, member, here, inside⟩
  · rintro ⟨document, member, here, inside⟩
    exact ⟨document, ⟨member, inside⟩, here⟩

/-- A document that is not listed can be forgotten. -/
theorem forget (indexes : s.Indexes docs) (unlisted : s.docLengths docId = none) :
    s.Indexes (Entries.erase docId docs) where
  distinct := distinct_erase indexes.distinct
  valid document member := indexes.valid document (List.mem_of_mem_filter member)
  lengths other := by
    rw [indexes.lengths]
    constructor
    · rintro ⟨document, member, here, filled⟩
      have differs : document.1 ≠ docId := fun same =>
        filled (indexes.empty_of_unlisted unlisted document member same)
      exact ⟨document, List.mem_filter.mpr ⟨member, by simpa using differs⟩, here, filled⟩
    · rintro ⟨document, member, rest⟩
      exact ⟨document, List.mem_of_mem_filter member, rest⟩
  listed term := by
    rw [filterMap_erase_empty term (indexes.empty_of_unlisted unlisted)]
    exact indexes.listed term
  counted := indexes.counted
  total := by rw [filled_erase_empty (indexes.empty_of_unlisted unlisted), indexes.total]

/-- A new document without terms is recorded without an entry. -/
theorem insert_empty (indexes : s.Indexes docs) (valid : docId ≠ INVALID_ROW_ID)
    (fresh : docId ∉ docs.map Prod.fst) : s.Indexes ((docId, []) :: docs) where
  distinct := List.nodup_cons.mpr ⟨fresh, indexes.distinct⟩
  valid := List.forall_mem_cons.mpr ⟨valid, indexes.valid⟩
  lengths other := by simp [indexes.lengths]
  listed term := by simpa [entry] using indexes.listed term
  counted := indexes.counted
  total := by simpa [filled] using indexes.total

theorem addDocument {tokens : List T} (indexes : s.Indexes docs)
    (valid : docId ≠ INVALID_ROW_ID) (fresh : docId ∉ docs.map Prod.fst) (some : tokens ≠ []) :
    (s.addDocument docId tokens).Indexes ((docId, tokens) :: docs) := by
  have lists : ∀ term, (s.addDocument docId tokens).index term = _ := fun term =>
    foldl_addPosting docId (termFrequencies tokens) _ (List.nodup_dedup tokens) s.index term
  simp only [List.mem_dedup] at lists
  refine ⟨List.nodup_cons.mpr ⟨fresh, indexes.distinct⟩,
    List.forall_mem_cons.mpr ⟨valid, indexes.valid⟩, ?_, ?_, ?_, ?_⟩
  · intro other
    by_cases here : other = docId
    · subst here
      simp [InvertedIndex.addDocument, some]
    · have same : (s.addDocument docId tokens).docLengths other = s.docLengths other :=
        Function.update_of_ne here _ _
      rw [same, indexes.lengths]
      simp [Ne.symm here]
  · intro term
    rw [entries, lists, List.filterMap_cons, entry]
    by_cases inside : term ∈ tokens
    · rw [if_pos inside, addPosting, Function.update_self, if_pos inside, termFrequencies_apply]
      refine List.Perm.trans ?_ ((indexes.listed term).cons _)
      rw [entries]
      cases s.index term with
      | none => exact .refl _
      | some postingList => exact List.perm_append_singleton _ _
    · rw [if_neg inside, if_neg inside]
      exact indexes.listed term
  · intro term postingList found
    rw [lists] at found
    split at found
    · rw [addPosting, Function.update_self] at found
      cases found
      refine ⟨by simp, ?_⟩
      rw [List.length_append, UInt32.ofNat_add]
      cases found : s.index term with
      | none => rfl
      | some postingList => rw [Option.getD_some, (indexes.counted term _ found).2]; rfl
    · exact indexes.counted term postingList found
  · rw [filled, List.countP_cons_of_pos (by simpa using some), UInt32.ofNat_add]
    exact congrArg (· + 1) indexes.total

/-- Taking a document out of the list of a term. -/
theorem entries_dropDocument (indexes : s.Indexes docs) (term : T) :
    (s.dropDocument docId).entries term = (s.entries term).filter (·.docId ≠ docId) := by
  have distinct := indexes.entries_distinct term
  have dropped : (s.dropDocument docId).index term = (s.index term).bind (removePosting docId) :=
    rfl
  rw [entries] at distinct
  rw [entries, dropped, entries]
  cases found : s.index term with
  | none => rfl
  | some postingList =>
    rw [found] at distinct
    simp only [Option.bind_some, Option.map_some, Option.getD_some,
      removePosting_eq distinct (indexes.counted term postingList found).2]
    split
    · rename_i empty
      exact (List.isEmpty_iff.mp empty).symm
    · rfl

theorem dropDocument {tokens : List T} (indexes : s.Indexes docs)
    (member : (docId, tokens) ∈ docs) (some : tokens ≠ []) :
    (s.dropDocument docId).Indexes (Entries.erase docId docs) := by
  refine ⟨distinct_erase indexes.distinct, fun document member =>
    indexes.valid document (List.mem_of_mem_filter member), ?_, ?_, ?_, ?_⟩
  · intro other
    by_cases here : other = docId
    · subst here
      simp [InvertedIndex.dropDocument, Entries.erase]
    · have same : (s.dropDocument docId).docLengths other = s.docLengths other :=
        Function.update_of_ne here _ _
      rw [same, indexes.lengths]
      constructor
      · rintro ⟨document, member, rfl, filled⟩
        exact ⟨document, List.mem_filter.mpr ⟨member, by simpa using here⟩, rfl, filled⟩
      · rintro ⟨document, member, rest⟩
        exact ⟨document, List.mem_of_mem_filter member, rest⟩
  · intro term
    rw [indexes.entries_dropDocument, filterMap_erase]
    exact (indexes.listed term).filter _
  · intro term postingList found
    have distinct := indexes.entries_distinct term
    rw [entries] at distinct
    obtain ⟨before, there, left⟩ := Option.bind_eq_some_iff.mp found
    rw [there] at distinct
    rw [removePosting_eq distinct (indexes.counted term before there).2] at left
    split at left
    · cases left
    · rename_i rest
      cases left
      exact ⟨fun none => rest (List.isEmpty_iff.mpr none), rfl⟩
  · have one : filled docs = filled (Entries.erase docId docs) + 1 := by
      rw [filled, (perm_erase indexes.distinct member).countP_eq,
        List.countP_cons_of_pos (by simpa using some), filled]
    have wrapped := indexes.total
    rw [one, UInt32.ofNat_add] at wrapped
    refine (congrArg (· - 1) wrapped).trans ?_
    exact UInt32.add_sub_cancel ..

end Indexes

/-! ## What the searches find -/

section Searches

variable {s} {docs : Documents T}

/-- The documents found. -/
def found (results : List SearchResult) : List RowId := results.map SearchResult.docId

omit [DecidableEq T] in
theorem found_resultSet (term : T) (postingList : PostingList T) :
    found (s.resultSet term postingList) = postingList.postings.map Posting.docId := by
  rw [found, resultSet, List.map_map]
  rfl

theorem perm_found_ranked (results : List SearchResult) :
    (found (ranked results 0)).Perm (found results) := by
  rw [ranked, if_neg (by simp)]
  exact (List.mergeSort_perm ..).map _

theorem found_ofScores (docIds : List RowId) (scoreMap : RowId → Float) :
    (found (ofScores docIds scoreMap)).Nodup ∧
      ∀ docId, docId ∈ found (ofScores docIds scoreMap) ↔ docId ∈ docIds := by
  have plain : found (ofScores docIds scoreMap) = docIds.dedup.mergeSort (· ≤ ·) := by
    rw [found, ofScores, List.map_map]
    exact List.map_id _
  rw [plain]
  refine ⟨(List.mergeSort_perm ..).nodup_iff.mpr (List.nodup_dedup docIds), fun docId => ?_⟩
  rw [(List.mergeSort_perm ..).mem_iff, List.mem_dedup]

theorem found_mergeResults {resultSets : List (List SearchResult)}
    (distinct : ∀ resultSet ∈ resultSets, (found resultSet).Nodup) :
    (found (mergeResults resultSets)).Nodup ∧
      ∀ docId, docId ∈ found (mergeResults resultSets) ↔
        ∃ resultSet ∈ resultSets, docId ∈ found resultSet := by
  match resultSets with
  | [] => simp [mergeResults, found]
  | [resultSet] => exact ⟨distinct resultSet (by simp), by simp [mergeResults]⟩
  | first :: second :: rest =>
    refine ⟨(found_ofScores ..).1, fun docId => ((found_ofScores ..).2 docId).trans ?_⟩
    rw [List.map_flatten, List.mem_flatten]
    simp only [List.mem_map, exists_exists_and_eq_and, found]

theorem mem_intersectAll (docIdSet : List RowId) (resultSets : List (List SearchResult))
    (docId : RowId) : docId ∈ intersectAll docIdSet resultSets ↔
      docId ∈ docIdSet ∧ ∀ resultSet ∈ resultSets, docId ∈ found resultSet := by
  induction resultSets generalizing docIdSet with
  | nil => simp [intersectAll]
  | cons resultSet resultSets ih =>
    rw [intersectAll]
    split
    · rename_i empty
      have none : docId ∉ docIdSet.filter (· ∈ resultSet.map SearchResult.docId) := by
        rw [List.isEmpty_iff.mp empty]
        exact List.not_mem_nil
      refine iff_of_false none fun ⟨inside, all⟩ => none (List.mem_filter.mpr ⟨inside, ?_⟩)
      simpa [found] using all resultSet List.mem_cons_self
    · rw [ih]
      simp [found, and_assoc]

theorem minIndex_lt {resultSets : List (List SearchResult)} (some : resultSets ≠ []) :
    minIndex resultSets < resultSets.length := by
  have general : ∀ (numbered : List (List SearchResult × Nat)) (best : Nat × Nat),
      (∀ found ∈ numbered, found.2 < resultSets.length) → best.1 < resultSets.length →
      (numbered.foldl (fun (best : Nat × Nat) found =>
        if found.1.length < best.2 then (found.2, found.1.length) else best) best).1 <
        resultSets.length := by
    intro numbered
    induction numbered with
    | nil => exact fun _ _ inside => inside
    | cons next numbered ih =>
      intro best all inside
      obtain ⟨here, later⟩ := List.forall_mem_cons.mp all
      rw [List.foldl_cons]
      split
      · exact ih _ later here
      · exact ih _ later inside
  refine general _ _ (fun found member => ?_) (List.length_pos_iff.mpr some)
  simpa using List.snd_lt_add_of_mem_zipIdx member

theorem found_intersectResults {resultSets : List (List SearchResult)}
    (distinct : ∀ resultSet ∈ resultSets, (found resultSet).Nodup) (some : resultSets ≠ []) :
    (found (intersectResults resultSets)).Nodup ∧
      ∀ docId, docId ∈ found (intersectResults resultSets) ↔
        ∀ resultSet ∈ resultSets, docId ∈ found resultSet := by
  match resultSets with
  | [] => exact absurd rfl some
  | [resultSet] => exact ⟨distinct resultSet (by simp), by simp [intersectResults]⟩
  | first :: second :: rest =>
    refine ⟨(found_ofScores ..).1, fun docId => ((found_ofScores ..).2 docId).trans ?_⟩
    have inside := minIndex_lt some
    have split := List.getElem_cons_eraseIdx_perm inside
    rw [mem_intersectAll, List.mem_dedup, List.getD_eq_getElem?_getD,
      List.getElem?_eq_getElem inside, Option.getD_some]
    refine (List.forall_mem_cons (p := fun resultSet => docId ∈ found resultSet)).symm.trans ?_
    exact forall_congr' fun resultSet => imp_congr_left split.mem_iff

/-- The result sets of the terms, each with the documents listed under its term. -/
theorem found_sets (indexes : s.Indexes docs) {term : T} {postingList : PostingList T}
    (listed : s.index term = some postingList) :
    (found (s.resultSet term postingList)).Nodup ∧
      ∀ docId, docId ∈ found (s.resultSet term postingList) ↔
        ∃ document ∈ docs, document.1 = docId ∧ term ∈ document.2 := by
  have same : found (s.resultSet term postingList) = (s.entries term).map Posting.docId := by
    rw [found_resultSet, entries, listed]
    rfl
  rw [same]
  exact ⟨indexes.entries_distinct term, indexes.mem_entries term⟩

/-- Under a term without a list there are no documents. -/
theorem unlisted_term (indexes : s.Indexes docs) {term : T} (unlisted : s.index term = none) :
    ∀ document ∈ docs, term ∉ document.2 := by
  intro document member inside
  have listed := (indexes.mem_entries term document.1).mpr ⟨document, member, rfl, inside⟩
  rw [entries, unlisted] at listed
  cases listed

theorem found_searchOr (indexes : s.Indexes docs) (terms : List T) :
    (found (s.searchOr terms 0)).Nodup ∧ ∀ docId, docId ∈ found (s.searchOr terms 0) ↔
      ∃ document ∈ docs, document.1 = docId ∧ ∃ term ∈ terms, term ∈ document.2 := by
  let resultSets := terms.filterMap fun term => (s.index term).map (s.resultSet term)
  have sets : ∀ results, results ∈ resultSets ↔ ∃ term ∈ terms, ∃ postingList,
      s.index term = some postingList ∧ s.resultSet term postingList = results := by
    simp [resultSets]
  have merged : (found (s.searchOr terms 0)).Perm (found (mergeResults resultSets)) := by
    have unfolded : s.searchOr terms 0 = if terms.isEmpty then [] else
        if resultSets.isEmpty then [] else ranked (mergeResults resultSets) 0 := rfl
    rw [unfolded]
    split
    · rename_i empty
      simp [resultSets, List.isEmpty_iff.mp empty, mergeResults]
    · split
      · rename_i empty
        rw [show resultSets = [] from List.isEmpty_iff.mp empty]
        rfl
      · exact perm_found_ranked _
  have once : ∀ results ∈ resultSets, (found results).Nodup := fun results member => by
    obtain ⟨term, _, postingList, listed, rfl⟩ := (sets results).mp member
    exact (found_sets indexes listed).1
  obtain ⟨distinct, mem⟩ := found_mergeResults once
  refine ⟨merged.nodup_iff.mpr distinct, fun docId => ?_⟩
  rw [merged.mem_iff, mem]
  constructor
  · rintro ⟨results, member, inside⟩
    obtain ⟨term, asked, postingList, listed, rfl⟩ := (sets results).mp member
    obtain ⟨document, there, here, contains⟩ := ((found_sets indexes listed).2 docId).mp inside
    exact ⟨document, there, here, term, asked, contains⟩
  · rintro ⟨document, there, here, term, asked, contains⟩
    cases listed : s.index term with
    | none => exact absurd contains (unlisted_term indexes listed document there)
    | some postingList =>
      exact ⟨_, (sets _).mpr ⟨term, asked, postingList, listed, rfl⟩,
        ((found_sets indexes listed).2 docId).mpr ⟨document, there, here, contains⟩⟩

omit [DecidableEq T] in
theorem allSets_some {terms : List T} {resultSets : List (List SearchResult)}
    (all : s.allSets terms = some resultSets) (P : List SearchResult → Prop) :
    (∀ resultSet ∈ resultSets, P resultSet) ↔ ∀ term ∈ terms, ∃ postingList,
      s.index term = some postingList ∧ P (s.resultSet term postingList) := by
  induction terms generalizing resultSets with
  | nil => cases all; simp
  | cons term terms ih =>
    rw [allSets] at all
    split at all
    · cases all
    · rename_i postingList listed
      obtain ⟨others, later, rfl⟩ := Option.map_eq_some_iff.mp all
      rw [List.forall_mem_cons, List.forall_mem_cons, ih later, listed]
      simp

omit [DecidableEq T] in
theorem allSets_none {terms : List T} (missing : s.allSets terms = none) :
    ∃ term ∈ terms, s.index term = none := by
  induction terms with
  | nil => cases missing
  | cons term terms ih =>
    rw [allSets] at missing
    split at missing
    · rename_i unlisted
      exact ⟨term, List.mem_cons_self, unlisted⟩
    · obtain ⟨other, member, unlisted⟩ := ih (Option.map_eq_none_iff.mp missing)
      exact ⟨other, List.mem_cons_of_mem _ member, unlisted⟩

theorem found_searchAnd (indexes : s.Indexes docs) {terms : List T} (asked : terms ≠ []) :
    (found (s.searchAnd terms 0)).Nodup ∧ ∀ docId, docId ∈ found (s.searchAnd terms 0) ↔
      ∃ document ∈ docs, document.1 = docId ∧ ∀ term ∈ terms, term ∈ document.2 := by
  rw [searchAnd, if_neg (by simpa using asked)]
  cases all : s.allSets terms with
  | none =>
    obtain ⟨term, member, unlisted⟩ := allSets_none all
    refine ⟨List.nodup_nil, fun docId => iff_of_false List.not_mem_nil ?_⟩
    rintro ⟨document, there, _, contains⟩
    exact unlisted_term indexes unlisted document there (contains term member)
  | some resultSets =>
    have listed : ∀ term ∈ terms, ∃ postingList, s.index term = some postingList ∧ True :=
      (allSets_some all fun _ => True).mp fun _ _ => trivial
    have distinct : ∀ resultSet ∈ resultSets, (found resultSet).Nodup := by
      refine (allSets_some all _).mpr fun term member => ?_
      obtain ⟨postingList, here, _⟩ := listed term member
      exact ⟨postingList, here, (found_sets indexes here).1⟩
    have filled : resultSets ≠ [] := by
      rintro rfl
      refine asked (List.eq_nil_iff_forall_not_mem.mpr fun term member => ?_)
      obtain ⟨_, _, impossible⟩ := (allSets_some all fun _ => False).mp (by simp) term member
      exact impossible
    obtain ⟨once, mem⟩ := found_intersectResults distinct filled
    refine ⟨(perm_found_ranked _).nodup_iff.mpr once, fun docId => ?_⟩
    rw [(perm_found_ranked _).mem_iff, mem, allSets_some all]
    constructor
    · intro every
      have containing : ∀ term ∈ terms, ∃ document ∈ docs, document.1 = docId ∧
          term ∈ document.2 := fun term member => by
        obtain ⟨postingList, here, inside⟩ := every term member
        exact ((found_sets indexes here).2 docId).mp inside
      obtain ⟨first, member⟩ := List.exists_mem_of_ne_nil terms asked
      obtain ⟨document, there, here, _⟩ := containing first member
      refine ⟨document, there, here, fun term member => ?_⟩
      -- a document has one entry in the record, so that it is the same for every term
      obtain ⟨other, there', here', contains⟩ := containing term member
      rwa [List.inj_on_of_nodup_map indexes.distinct there there' (here.trans here'.symm)]
    · rintro ⟨document, there, here, contains⟩ term member
      obtain ⟨postingList, found, _⟩ := listed term member
      exact ⟨postingList, found, ((found_sets indexes found).2 docId).mpr
        ⟨document, there, here, contains term member⟩⟩

end Searches

end InvertedIndex

end QinDB.Index
