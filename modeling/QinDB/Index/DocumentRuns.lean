/-
# Index.DocumentRuns — an inverted index over whole runs

Calls of an inverted index one after the other, beside the record of the documents that are
live. The posting lists, frequencies and counters always are those of the record, up to the
width of the counters; searches do not read the counters, except for their scores.

* `index_runs_iff`: all calls of a run leave an exact index and find what is asked for exactly
  when no counter of 32 bits has to count further, and no empty list of terms is searched for.
* `update_atomic_iff`: `update` gives the mutex back after it has removed the old document. When
  a search beside it sees one of the two texts, and when a failure leaves the index as it was.
* `frequency_wraps`, `update_not_atomic`: the two exceptions.
-/
import Mathlib.Algebra.Group.Nat.Defs
import QinDB.Base.Run
import QinDB.Index.InvertedIndex

namespace QinDB.Index

open QinDB.Core QinDB.Base QinDB.Base.Run

set_option autoImplicit false

namespace InvertedIndex

variable {T : Type} [DecidableEq T] (tokenizer : List Char → List T) (s : InvertedIndex T)

/-! ## Calls -/

inductive Call (T : Type)
  | insert (docId : RowId) (text : List Char)
  | remove (docId : RowId)
  | searchAnd (queryTerms : List T)
  | searchOr (queryTerms : List T)

/-- The index beside the record of the documents. -/
abbrev Watched (T : Type) := InvertedIndex T × Documents T

/-- A call, and the record after it: an accepted document replaces one without terms. -/
def perform (w : Watched T) : Call T → List RowId × Watched T
  | .insert docId text =>
      let (accepted, s) := w.1.insert tokenizer docId text
      ([], s, if accepted then
        (docId, tokenizer text) :: Entries.erase docId w.2 else w.2)
  | .remove docId => ([], (w.1.remove docId).2, Entries.erase docId w.2)
  | .searchAnd queryTerms => (found (w.1.searchAnd queryTerms 0), w)
  | .searchOr queryTerms => (found (w.1.searchOr queryTerms 0), w)

/-- The index is exact: one entry per document that contains the term, with its frequency, and
no counter has wrapped. -/
structure Exact (docs : Documents T) : Prop where
  listed : ∀ term postingList, s.index term = some postingList →
    (postingList.postings.map Posting.docId).Nodup ∧ postingList.postings ≠ [] ∧
    postingList.df.toNat = postingList.postings.length ∧
    ∀ posting, posting ∈ postingList.postings ↔ ∃ document ∈ docs,
      document.1 = posting.docId ∧ term ∈ document.2 ∧
        posting.tf.toNat = document.2.count term
  unlisted : ∀ term, s.index term = none → ∀ document ∈ docs, term ∉ document.2
  total : s.totalDocuments.toNat = filled docs

/-- A call leaves an exact index and finds exactly the documents asked for, each once. -/
def Right (w : Watched T) (call : Call T) : Prop :=
  let (docIds, s, docs) := perform tokenizer w call
  s.Exact docs ∧
  match call with
  | .insert .. => True
  | .remove _ => True
  | .searchAnd queryTerms => docIds.Nodup ∧ ∀ docId, docId ∈ docIds ↔
      ∃ document ∈ docs, document.1 = docId ∧ ∀ term ∈ queryTerms, term ∈ document.2
  | .searchOr queryTerms => docIds.Nodup ∧ ∀ docId, docId ∈ docIds ↔
      ∃ document ∈ docs, document.1 = docId ∧ ∃ term ∈ queryTerms, term ∈ document.2

/-- `insert` takes the document. -/
def Accepts (docId : RowId) (text : List Char) : Prop :=
  docId ≠ INVALID_ROW_ID ∧ text ≠ [] ∧ s.docLengths docId = none

/-- A document that is accepted has no term that often, and not so many documents are there,
that a counter of 32 bits wraps; nothing is searched for by an empty list of terms that all
must occur. -/
def Fits (w : Watched T) : Call T → Prop
  | .insert docId text =>
      w.1.Accepts docId text →
        (∀ term, (tokenizer text).count term < 2 ^ 32) ∧
        (tokenizer text ≠ [] → filled w.2 + 1 < 2 ^ 32)
  | .remove _ => True
  | .searchAnd queryTerms => queryTerms = [] → w.2 = []
  | .searchOr _ => True

/-- The counters can hold what they count. -/
def Countable (docs : Documents T) : Prop :=
  (∀ document ∈ docs, ∀ term, document.2.count term < 2 ^ 32) ∧ filled docs < 2 ^ 32

variable {s} {docs : Documents T}

theorem eq_ofNat_iff {counter : UInt32} {count : Nat} (fits : count < 2 ^ 32) :
    counter = UInt32.ofNat count ↔ counter.toNat = count := by
  rw [← UInt32.toNat_inj, UInt32.toNat_ofNat', Nat.mod_eq_of_lt fits]

theorem entry_eq_some {term : T} {document : RowId × List T} {posting : Posting} :
    entry term document = some posting ↔ document.1 = posting.docId ∧ term ∈ document.2 ∧
      posting.tf = UInt32.ofNat (document.2.count term) := by
  rw [entry]
  split
  · rename_i inside
    constructor
    · intro same
      cases same
      exact ⟨rfl, inside, rfl⟩
    · rintro ⟨here, _, count⟩
      rw [here, ← count]
  · rename_i outside
    exact iff_of_false (by simp) fun both => outside both.2.1

/-- No list is longer than the number of documents. -/
theorem Indexes.length_entries_le (indexes : s.Indexes docs) (term : T) :
    (s.entries term).length ≤ filled docs := by
  rw [(indexes.listed term).length_eq, ← List.length_map (f := Posting.docId), map_docId_entries,
    List.length_map, ← List.countP_eq_length_filter]
  exact List.countP_mono_left fun document _ inside => by
    have contains : term ∈ document.2 := by simpa using inside
    simpa using List.ne_nil_of_mem contains

theorem Indexes.exact (indexes : s.Indexes docs) (countable : Countable docs) : s.Exact docs where
  listed term postingList found := by
    obtain ⟨some, df⟩ := indexes.counted term postingList found
    have same : s.entries term = postingList.postings := by
      rw [entries, found]
      rfl
    have short := indexes.length_entries_le term
    have distinct := indexes.entries_distinct term
    have perm := indexes.listed term
    rw [same] at short distinct perm
    refine ⟨distinct, some, (eq_ofNat_iff (by have := countable.2; omega)).mp df, ?_⟩
    intro posting
    rw [perm.mem_iff, List.mem_filterMap]
    refine exists_congr fun document => and_congr_right fun member => ?_
    rw [entry_eq_some, eq_ofNat_iff (countable.1 document member term)]
  unlisted _ := unlisted_term indexes
  total := (eq_ofNat_iff countable.2).mp indexes.total

/-- An exact index has not wrapped. -/
theorem Indexes.countable (indexes : s.Indexes docs) (exact : s.Exact docs) : Countable docs := by
  refine ⟨fun document member term => ?_, exact.total ▸ s.totalDocuments.toNat_lt⟩
  by_cases inside : term ∈ document.2
  · cases found : s.index term with
    | none => exact absurd inside (exact.unlisted term found document member)
    | some postingList =>
      have listed : ⟨document.1, UInt32.ofNat (document.2.count term)⟩ ∈ s.entries term := by
        rw [(indexes.listed term).mem_iff, List.mem_filterMap]
        exact ⟨document, member, if_pos inside⟩
      rw [entries, found] at listed
      obtain ⟨other, there, here, _, frequency⟩ :=
        ((exact.listed term postingList found).2.2.2 _).mp listed
      rw [List.inj_on_of_nodup_map indexes.distinct there member here] at frequency
      exact frequency ▸ UInt32.toNat_lt _
  · rw [List.count_eq_zero_of_not_mem inside]
    decide

theorem insert_accepted {docId : RowId} {text : List Char} (accepts : s.Accepts docId text) :
    s.insert tokenizer docId text = (true, if tokenizer text = [] then s
      else s.addDocument docId (tokenizer text)) := by
  obtain ⟨valid, some, unlisted⟩ := accepts
  rw [insert, if_neg (by simp [valid, some]), if_neg (by simp [unlisted])]
  exact (apply_ite (Prod.mk true) _ _ _).symm

theorem insert_refused {docId : RowId} {text : List Char} (refuses : ¬ s.Accepts docId text) :
    s.insert tokenizer docId text = (false, s) := by
  rw [insert]
  split
  · rfl
  · rename_i proper
    rw [not_or] at proper
    split
    · rfl
    · rename_i unlisted
      exact absurd ⟨proper.1, proper.2, by simpa using unlisted⟩ refuses

theorem indexes_insert (indexes : s.Indexes docs) {docId : RowId} {text : List Char}
    (accepts : s.Accepts docId text) :
    (s.insert tokenizer docId text).2.Indexes
      ((docId, tokenizer text) :: Entries.erase docId docs) := by
  have forgotten := indexes.forget accepts.2.2
  have fresh : docId ∉ (Entries.erase docId docs).map Prod.fst := by simp [Entries.erase]
  rw [insert_accepted tokenizer accepts]
  by_cases none : tokenizer text = []
  · simpa [none] using forgotten.insert_empty accepts.1 fresh
  · simpa [none] using forgotten.addDocument accepts.1 fresh none

theorem indexes_remove (indexes : s.Indexes docs) (docId : RowId) :
    (s.remove docId).2.Indexes (Entries.erase docId docs) := by
  rw [remove]
  split
  · rename_i invalid
    have same : Entries.erase docId docs = docs := List.filter_eq_self.mpr fun document member => by
      simpa [invalid] using indexes.valid document member
    rwa [same]
  · split
    · rename_i unlisted
      exact indexes.forget (by simpa using unlisted)
    · rename_i listed
      obtain ⟨⟨other, tokens⟩, member, rfl, some⟩ := (indexes.lengths docId).mp (by
        simpa [Option.isSome_iff_ne_none] using listed)
      exact indexes.dropDocument member some

/-- The record after an insert. -/
theorem perform_insert (w : Watched T) (docId : RowId) (text : List Char) :
    (w.1.Accepts docId text ∧ (perform tokenizer w (.insert docId text)).2 =
      ((w.1.insert tokenizer docId text).2,
        (docId, tokenizer text) :: Entries.erase docId w.2)) ∨
    ¬ w.1.Accepts docId text ∧ (perform tokenizer w (.insert docId text)).2 = w := by
  by_cases accepts : w.1.Accepts docId text
  · exact .inl ⟨accepts, by rw [perform, insert_accepted tokenizer accepts]; rfl⟩
  · exact .inr ⟨accepts, by rw [perform, insert_refused tokenizer accepts]; rfl⟩

theorem indexes_perform {w : Watched T} (indexes : w.1.Indexes w.2) (call : Call T) :
    (perform tokenizer w call).2.1.Indexes
      (perform tokenizer w call).2.2 := by
  cases call with
  | insert docId text =>
    rcases perform_insert tokenizer w docId text with ⟨accepts, after⟩ | ⟨_, after⟩
    · rw [after]
      exact indexes_insert tokenizer indexes accepts
    · rw [after]
      exact indexes
  | remove docId => exact indexes_remove indexes docId
  | searchAnd queryTerms => exact indexes
  | searchOr queryTerms => exact indexes

omit [DecidableEq T] in
theorem filled_erase_le (docId : RowId) : filled (Entries.erase docId docs) ≤ filled docs :=
  List.filter_sublist.countP_le

theorem Countable.erase (countable : Countable docs) (docId : RowId) :
    Countable (Entries.erase docId docs) :=
  ⟨fun document member => countable.1 document (List.mem_of_mem_filter member),
    Nat.lt_of_le_of_lt (filled_erase_le docId) countable.2⟩

/-- After an insert the counters can hold their counts exactly when the document fits. -/
theorem countable_insert_iff {w : Watched T} (indexes : w.1.Indexes w.2)
    (countable : Countable w.2) (docId : RowId) (text : List Char) :
    Countable (perform tokenizer w (.insert docId text)).2.2 ↔
      Fits tokenizer w (.insert docId text) := by
  rcases perform_insert tokenizer w docId text with ⟨accepts, after⟩ | ⟨refuses, after⟩
  · rw [after, Countable, List.forall_mem_cons, filled, List.countP_cons, ← filled,
      filled_erase_empty (indexes.empty_of_unlisted accepts.2.2), Fits]
    have few : filled w.2 < 4294967296 := countable.2
    rw [and_iff_left (countable.erase docId).1]
    by_cases none : tokenizer text = [] <;> simp [accepts, few, none]
  · rw [after]
    exact iff_of_true countable fun accepts => absurd accepts refuses

theorem right_iff {w : Watched T} (indexes : w.1.Indexes w.2) (countable : Countable w.2)
    (call : Call T) : Right tokenizer w call ↔ Fits tokenizer w call := by
  have exact := indexes.exact countable
  cases call with
  | insert docId text =>
    have after := indexes_perform tokenizer indexes
      (.insert docId text)
    rw [← countable_insert_iff tokenizer indexes countable]
    exact ⟨fun right => after.countable right.1, fun fits => ⟨after.exact fits, trivial⟩⟩
  | remove docId =>
    have after := indexes_remove indexes docId
    exact iff_of_true ⟨after.exact (countable.erase docId), trivial⟩ trivial
  | searchAnd queryTerms =>
    by_cases asked : queryTerms = []
    · subst asked
      constructor
      · rintro ⟨_, _, found⟩ _
        refine List.eq_nil_iff_forall_not_mem.mpr fun document member => ?_
        have impossible := (found document.1).mpr ⟨document, member, rfl, by simp⟩
        cases impossible
      · intro fits
        have empty : w.2 = [] := fits rfl
        refine ⟨exact, List.nodup_nil, fun docId => iff_of_false List.not_mem_nil ?_⟩
        simp [empty]
    · exact iff_of_true ⟨exact, found_searchAnd indexes asked⟩ fun none => absurd none asked
  | searchOr queryTerms => exact iff_of_true ⟨exact, found_searchOr indexes queryTerms⟩ trivial

/-- A call as a step of a run. -/
def act (tokenizer : List Char → List T) (w : Watched T) (call : Call T) :
    Option (List RowId × Watched T) :=
  some (perform tokenizer w call)

theorem indexes_new : (new : InvertedIndex T).Indexes [] :=
  ⟨.nil, by simp, by simp [new], fun _ => .refl _, by simp [new], rfl⟩

/-- In a run of inserts, removes and searches all calls leave an exact index and find what is
asked for exactly when all of them fit. -/
theorem index_runs_iff (tokenizer : List Char → List T) (calls : List (Call T)) :
    Meets (act tokenizer) (Right tokenizer) (new, []) calls ↔
      Meets (act tokenizer) (Fits tokenizer) (new, []) calls := by
  refine meets_iff_of_invariant (fun w call (held : w.1.Indexes w.2 ∧ Countable w.2) =>
    right_iff tokenizer held.1 held.2 call) ?_ calls _ ⟨indexes_new, by simp, by simp [filled]⟩
  intro w call docIds w' held fits taken
  obtain rfl : (perform tokenizer w call).2 = w' := congrArg Prod.snd (Option.some.inj taken)
  have after := indexes_perform tokenizer held.1 call
  exact ⟨after, after.countable ((right_iff tokenizer held.1 held.2 call).mpr fits).1⟩

/-- A document of one term, that term 2 ^ 32 times, is listed with the frequency 0; and a search
for an empty list of terms finds nothing, though every document has all of them. -/
theorem frequency_wraps :
    ¬ Meets (act fun _ => List.replicate (2 ^ 32) 'a')
        (Right fun _ => List.replicate (2 ^ 32) 'a') (new, []) [.insert 1 ['a']] ∧
      ¬ Meets (act fun text => text) (Right fun text => text) (new, [])
        [.insert 1 ['a'], .searchAnd []] := by
  constructor
  · intro meets
    have fits := (right_iff _ indexes_new ⟨by simp, by simp [filled]⟩ _).mp meets.1
    have small := (fits ⟨by decide, by decide, rfl⟩).1 'a'
    rw [List.count_replicate_self] at small
    exact Nat.lt_irrefl _ small
  · intro meets
    obtain ⟨_, _, found⟩ := (meets.2 _ _ rfl).1
    have impossible := (found 1).mpr ⟨(1, ['a']), List.mem_cons_self, rfl, by simp⟩
    cases impossible

/-! ## Updating a document -/

/-- What a search may see of a document while it is updated: in the state between the two
halves of `update` it is found as before or as after; and an update that fails changes nothing. -/
def AtomicUpdate (docId : RowId) (text : List Char) : Prop :=
  let between := (s.remove docId).2
  let after := s.update tokenizer docId text
  (∀ search : InvertedIndex T → List SearchResult,
    (∃ terms, search = fun s => s.searchAnd terms 0) ∨
        (∃ terms, search = fun s => s.searchOr terms 0) →
      (docId ∈ found (search between) ↔ docId ∈ found (search s)) ∨
      (docId ∈ found (search between) ↔ docId ∈ found (search after.2))) ∧
  (after.1 = false → after.2 = s)

omit [DecidableEq T] in
theorem remove_unlisted {docId : RowId} (unlisted : s.docLengths docId = none) :
    (s.remove docId).2 = s := by
  rw [remove]
  split
  · rfl
  · rw [if_pos (by simp [unlisted])]

/-- Between the two halves a listed document is not there, and can be inserted. -/
theorem accepts_between (indexes : s.Indexes docs) {docId : RowId} {text : List Char}
    (listed : s.docLengths docId ≠ none) (some : text ≠ []) :
    (s.remove docId).2.Accepts docId text := by
  obtain ⟨document, member, rfl, _⟩ := (indexes.lengths docId).mp (by
    rwa [Option.isSome_iff_ne_none])
  have valid := indexes.valid document member
  refine ⟨valid, some, ?_⟩
  rw [remove, if_neg valid, if_neg (by simpa using listed)]
  exact Function.update_self ..

/-- A listed document that gets new terms is missed by a search for a term of each text. -/
theorem not_atomic (indexes : s.Indexes docs) {docId : RowId} {text : List Char}
    (listed : s.docLengths docId ≠ none) (some : text ≠ []) (tokens : tokenizer text ≠ []) :
    ¬ s.AtomicUpdate tokenizer docId text := by
  rintro ⟨seen, _⟩
  have between := indexes_remove indexes docId
  have after := indexes_insert tokenizer between (accepts_between indexes listed some)
  obtain ⟨document, member, here, filled⟩ := (indexes.lengths docId).mp (by
    rwa [Option.isSome_iff_ne_none])
  obtain ⟨old, inside⟩ := List.exists_mem_of_ne_nil _ filled
  obtain ⟨new, inside'⟩ := List.exists_mem_of_ne_nil _ tokens
  have gone : docId ∉ found ((s.remove docId).2.searchOr [old, new] 0) := by
    rw [(found_searchOr between _).2]
    rintro ⟨other, there, same, _⟩
    simp [Entries.erase, same] at there
  rcases seen _ (.inr ⟨[old, new], rfl⟩) with before | later
  · refine gone (before.mpr (((found_searchOr indexes _).2 docId).mpr ?_))
    exact ⟨document, member, here, old, by simp, inside⟩
  · refine gone (later.mpr (((found_searchOr after _).2 docId).mpr ?_))
    exact ⟨_, List.mem_cons_self, rfl, new, by simp, inside'⟩

theorem update_atomic_iff_of_indexes (indexes : s.Indexes docs) (docId : RowId)
    (text : List Char) : s.AtomicUpdate tokenizer docId text ↔
      s.docLengths docId = none ∨ text ≠ [] ∧ tokenizer text = [] := by
  by_cases listed : s.docLengths docId = none
  · refine iff_of_true ⟨fun search _ => .inl ?_, fun failed => ?_⟩ (.inl listed)
    · rw [remove_unlisted listed]
    · rw [update, remove_unlisted listed] at failed ⊢
      by_cases accepts : s.Accepts docId text
      · rw [insert_accepted tokenizer accepts] at failed
        cases failed
      · rw [insert_refused tokenizer accepts]
  · by_cases some : text = []
    · -- the document is removed, and the empty text refused
      refine iff_of_false ?_ (by simp [listed, some])
      rintro ⟨_, unchanged⟩
      have refuses : ¬ (s.remove docId).2.Accepts docId text := fun accepts => accepts.2.1 some
      rw [update, insert_refused tokenizer refuses] at unchanged
      have gone := (accepts_between indexes listed (List.cons_ne_nil 'a' [])).2.2
      rw [unchanged rfl] at gone
      exact listed gone
    · by_cases tokens : tokenizer text = []
      · refine iff_of_true ⟨fun search _ => .inr ?_, fun failed => ?_⟩ (.inr ⟨some, tokens⟩)
        · rw [update, insert_accepted tokenizer (accepts_between indexes listed some), tokens]
          rfl
        · rw [update, insert_accepted tokenizer (accepts_between indexes listed some)] at failed
          cases failed
      · exact iff_of_false (not_atomic tokenizer indexes listed some tokens) (by
          simp [listed, tokens])

/-- In every state that calls lead to, `update` is atomic exactly for a document that is not
listed, or by a text without terms that is not empty. -/
theorem update_atomic_iff (calls : List (Call T)) (docId : RowId) (text : List Char) :
    let s := (specRun (perform tokenizer) (new, []) calls).2.1
    s.AtomicUpdate tokenizer docId text ↔
      s.docLengths docId = none ∨ text ≠ [] ∧ tokenizer text = [] :=
  update_atomic_iff_of_indexes tokenizer (specRun_keeps (fun w call (indexes : w.1.Indexes w.2) =>
    indexes_perform tokenizer indexes call) calls (new, []) indexes_new) docId text

/-- A document of two letters is updated to another text with one of them, and cannot be found
in between; an update to the empty text fails and has removed the document. -/
theorem update_not_atomic :
    let s := (specRun (perform fun text => text) (new, []) [.insert 1 ['a', 'b']]).2.1
    ¬ s.AtomicUpdate (fun text => text) 1 ['a', 'c'] ∧ ¬ s.AtomicUpdate (fun text => text) 1 [] := by
  have indexes := indexes_perform (w := (new, [])) (fun text => text) indexes_new
    (.insert 1 ['a', 'b'])
  constructor <;> intro atomic <;>
    exact absurd ((update_atomic_iff_of_indexes _ indexes _ _).mp atomic) (by decide)

end InvertedIndex

end QinDB.Index
