/-
# Cache.QueryCacheRuns — the books of the query cache

Beside the answers `query_cache.cpp` keeps two books: for every table the set of the queries
that read it, and the sum of the sizes of the answers. A run is a list of calls, the evictions
that a call makes on its own among them. Both books are right as long as no answer takes the
place of one that read other tables, or that was smaller while the memory is used up: such an
answer is stored without a change of the links and without room being made.

* `Evicts`: the answers that go one after the other, each with its links.
* `Puts`: what storing an answer comes to.
* `exact_act_iff`, `withinLimits_act_iff`: when one call keeps each of the books.
* `links_exact_iff`, `limits_iff`: when the calls of a whole run do.
-/
import QinDB.Base.Run
import QinDB.Cache.QueryCache

namespace QinDB.Cache

open QinDB.Base QinDB.Storage QinDB.Executor

set_option autoImplicit false

/-! ## Links -/

/-- A query is in the set of a table. -/
def IsLinked (links : List (Identifier × List Identifier)) (query table : Identifier) : Prop :=
  query ∈ (Entries.find table links).getD []

section Links

variable {links : List (Identifier × List Identifier)} {query other table table' : Identifier}

theorem isLinked_link : IsLinked (link query links table) other table' ↔
    IsLinked links other table' ∨ (other = query ∧ table' = table) := by
  rw [link]
  cases found : Entries.find table links with
  | none =>
    by_cases same : table' = table
    · simp [IsLinked, Entries.find_insert, same, found]
    · simp [IsLinked, Entries.find_insert, same]
  | some queries =>
    by_cases member : query ∈ queries
    · simp only [if_pos member]
      refine ⟨Or.inl, ?_⟩
      rintro (linked | ⟨rfl, rfl⟩)
      · exact linked
      · simpa [IsLinked, found] using member
    · simp only [if_neg member]
      by_cases same : table' = table
      · simp [IsLinked, Entries.find_insert, same, found]
      · simp [IsLinked, Entries.find_insert, same]

theorem isLinked_foldl_link (tables : List Identifier) :
    IsLinked (tables.foldl (link query) links) other table' ↔
      IsLinked links other table' ∨ (other = query ∧ table' ∈ tables) := by
  induction tables generalizing links with
  | nil => simp
  | cons table rest ih =>
    rw [List.foldl_cons, ih, isLinked_link, List.mem_cons]
    tauto

theorem isLinked_unlink : IsLinked (unlink query links table) other table' ↔
    IsLinked links other table' ∧ ¬ (other = query ∧ table' = table) := by
  rw [unlink]
  cases found : Entries.find table links with
  | none =>
    refine ⟨fun linked => ⟨linked, ?_⟩, And.left⟩
    rintro ⟨-, rfl⟩
    simp [IsLinked, found] at linked
  | some queries =>
    have left : other ∈ queries.filter (· ≠ query) ↔ other ∈ queries ∧ other ≠ query := by simp
    dsimp only
    cases kept : queries.filter (· ≠ query) with
    | nil =>
      rw [kept] at left
      by_cases same : table' = table
      · simpa [IsLinked, Entries.find_erase, same, found] using left
      · simp [IsLinked, Entries.find_erase, same]
    | cons first rest =>
      rw [kept] at left
      by_cases same : table' = table
      · simpa [IsLinked, Entries.find_insert, same, found] using left
      · simp [IsLinked, Entries.find_insert, same]

theorem isLinked_foldl_unlink (tables : List Identifier) :
    IsLinked (tables.foldl (unlink query) links) other table' ↔
      IsLinked links other table' ∧ ¬ (other = query ∧ table' ∈ tables) := by
  induction tables generalizing links with
  | nil => simp
  | cons table rest ih =>
    rw [List.foldl_cons, ih, isLinked_unlink, List.mem_cons]
    tauto

/-- The sets after the answers of a table went. -/
theorem isLinked_invalidated (queries : List Identifier) :
    IsLinked (Entries.erase table (links.map fun found =>
      (found.1, found.2.filter fun query => query ∉ queries))) other table' ↔
      IsLinked links other table' ∧ other ∉ queries ∧ table' ≠ table := by
  have mapped : Entries.find table' (links.map fun found =>
      (found.1, found.2.filter fun query => query ∉ queries)) =
      (Entries.find table' links).map (List.filter fun query => query ∉ queries) :=
    Entries.find_map _
  rw [IsLinked, IsLinked, Entries.find_erase, mapped]
  by_cases same : table' = table
  · simp [same]
  · cases Entries.find table' links with
    | none => simp [same]
    | some others => simp [same]

end Links

namespace QueryCache

variable {V : Type}

/-- A query is in the set of a table exactly when it has an answer that reads the table. -/
def Exact (cache : QueryCache V) : Prop :=
  ∀ query table, IsLinked cache.tableToQueries query table ↔
    ∃ entry, Entries.find query cache.cache = some entry ∧ table ∈ entry.affectedTables

/-- The sum of the sizes is that of the answers. -/
abbrev Accounted (cache : QueryCache V) : Prop :=
  Entries.Accounted CacheEntry.memorySizeBytes cache.cache cache.totalMemoryBytes

/-- The sum of the sizes is right, and both limits are kept. -/
structure WithinLimits (cache : QueryCache V) : Prop where
  accounted : cache.Accounted
  memory : cache.totalMemoryBytes ≤ cache.maxMemoryBytes
  entries : cache.cache.length ≤ cache.maxEntries

/-! ## Answers that go -/

/-- Answers go one after the other, each with its links. -/
inductive Evicts : QueryCache V → QueryCache V → Prop where
  | refl (cache : QueryCache V) : Evicts cache cache
  | step {cache left : QueryCache V} {query : Identifier} {entry : CacheEntry V}
      (found : Entries.find query cache.cache = some entry)
      (rest : Evicts (cache.remove query entry) left) : Evicts cache left

variable {cache left : QueryCache V} {query : Identifier} {entry : CacheEntry V}

theorem Evicts.trans {first second third : QueryCache V} (before : Evicts first second)
    (after : Evicts second third) : Evicts first third := by
  induction before with
  | refl => exact after
  | step found _ ih => exact .step found (ih after)

/-- What every answer that goes keeps, the answers that go one after the other keep. -/
theorem Evicts.keeps {P : QueryCache V → Prop}
    (kept : ∀ cache query entry, Entries.find query cache.cache = some entry → P cache →
      P (cache.remove query entry)) (evicts : Evicts cache left)
    (holds : P cache) : P left := by
  induction evicts with
  | refl => exact holds
  | step found _ ih => exact ih (kept _ _ _ found holds)

theorem Evicts.distinct (evicts : Evicts cache left)
    (distinct : Entries.Distinct cache.cache) : Entries.Distinct left.cache :=
  evicts.keeps (P := fun cache => Entries.Distinct cache.cache)
    (fun _ query _ _ distinct => distinct.erase query) distinct

theorem remove_exact (found : Entries.find query cache.cache = some entry) (exact_ : cache.Exact) :
    (cache.remove query entry).Exact := by
  intro other table
  rw [remove, isLinked_foldl_unlink, exact_ other table, Entries.find_erase]
  by_cases same : other = query
  · simp [same, found]
  · simp [same]

theorem Evicts.absent (evicts : Evicts cache left)
    (absent : Entries.find query cache.cache = none) :
    Entries.find query left.cache = none := by
  refine evicts.keeps (P := fun cache => Entries.find query cache.cache = none)
    (fun cache other entry _ absent => ?_) absent
  rw [remove, Entries.find_erase, absent, ite_self]

theorem Evicts.exact (evicts : Evicts cache left) (holds : cache.Exact) : left.Exact :=
  evicts.keeps (fun _ _ _ found => remove_exact found) holds

/-- What is kept of the sum of the sizes, of its limits and of the number of answers. -/
structure Smaller (cache left : QueryCache V) : Prop where
  accounted : left.Accounted
  memory : left.totalMemoryBytes.toNat ≤ cache.totalMemoryBytes.toNat
  entries : left.cache.length ≤ cache.cache.length
  maxMemoryBytes : left.maxMemoryBytes = cache.maxMemoryBytes
  maxEntries : left.maxEntries = cache.maxEntries

/-- An answer goes, whatever becomes of the links. -/
theorem Smaller.erase
    (smaller : Smaller cache left) (found : Entries.find query left.cache = some entry)
    (links : List (Identifier × List Identifier)) : Smaller cache { left with
      totalMemoryBytes := left.totalMemoryBytes - entry.memorySizeBytes
      tableToQueries := links
      cache := Entries.erase query left.cache } where
  accounted := smaller.accounted.erase found
  memory := Nat.le_trans (Nat.le.intro (smaller.accounted.toNat_sub found)) smaller.memory
  entries := Nat.le_trans (List.length_filter_le _ _) smaller.entries
  maxMemoryBytes := smaller.maxMemoryBytes
  maxEntries := smaller.maxEntries

theorem Evicts.smaller (evicts : Evicts cache left) (accounted : cache.Accounted) :
    Smaller cache left :=
  evicts.keeps (fun _ _ _ found smaller => smaller.erase found _)
    ⟨accounted, Nat.le_refl _, Nat.le_refl _, rfl, rfl⟩

theorem Smaller.withinLimits (smaller : Smaller cache left)
    (within : cache.WithinLimits) : left.WithinLimits where
  accounted := smaller.accounted
  memory := by
    rw [smaller.maxMemoryBytes]
    exact UInt64.le_iff_toNat_le.mpr
      (Nat.le_trans smaller.memory (UInt64.le_iff_toNat_le.mp within.memory))
  entries := by
    rw [smaller.maxEntries]
    exact Nat.le_trans smaller.entries within.entries

theorem evictLRU_evicts (distinct : Entries.Distinct cache.cache) :
    Evicts cache cache.evictLRU := by
  rw [evictLRU]
  split
  · exact .refl cache
  · rename_i query entry chosen
    exact .step (Entries.find_of_mem distinct (Entries.oldest_mem chosen)) (.refl _)

theorem evictToFreeMemory_evicts (requiredBytes : UInt64) :
    ∀ (count : Nat) (freedBytes : UInt64) (cache : QueryCache V),
      Entries.Distinct cache.cache →
      Evicts cache (evictToFreeMemory requiredBytes count freedBytes cache)
  | 0, _, cache, _ => .refl cache
  | count + 1, freedBytes, cache, distinct => by
      rw [evictToFreeMemory]
      split
      · split
        · exact .refl cache
        · rename_i query entry chosen
          exact .step (Entries.find_of_mem distinct (Entries.oldest_mem chosen))
            (evictToFreeMemory_evicts requiredBytes count _ _ (distinct.erase query))
      · exact .refl cache

theorem evictEntries_evicts : ∀ (count : Nat) (cache : QueryCache V),
    Entries.Distinct cache.cache → Evicts cache (cache.evictEntries count)
  | 0, cache, _ => .refl cache
  | count + 1, cache, distinct => by
      rw [evictEntries]
      split
      · have first := evictLRU_evicts distinct
        exact first.trans (evictEntries_evicts count cache.evictLRU (first.distinct distinct))
      · exact .refl cache

theorem makeRoom_evicts (memorySize : UInt64)
    (distinct : Entries.Distinct cache.cache) : Evicts cache (cache.makeRoom memorySize) := by
  rw [makeRoom]
  split
  · have first := evictToFreeMemory_evicts memorySize cache.cache.length 0 cache distinct
    exact first.trans (evictEntries_evicts _ _ (first.distinct distinct))
  · exact evictEntries_evicts _ cache distinct

theorem foldl_removeQuery_evicts (queries : List Identifier) (cache : QueryCache V) :
    Evicts cache (queries.foldl removeQuery cache) := by
  induction queries generalizing cache with
  | nil => exact .refl cache
  | cons query rest ih =>
    rw [List.foldl_cons]
    refine Evicts.trans ?_ (ih (cache.removeQuery query))
    rw [removeQuery]
    split
    · exact .refl cache
    · rename_i entry found
      exact .step found (.refl _)

/-! ## The answers of a table -/

theorem find_foldl_eraseQuery (queries : List Identifier) (cache : QueryCache V)
    (other : Identifier) : Entries.find other (queries.foldl eraseQuery cache).cache =
      if other ∈ queries then none else Entries.find other cache.cache := by
  induction queries generalizing cache with
  | nil => simp
  | cons query rest ih =>
    have one : Entries.find other (cache.eraseQuery query).cache =
        if other = query then none else Entries.find other cache.cache := by
      rw [eraseQuery]
      split
      · rename_i absent
        split
        · rename_i same
          rw [same, absent]
        · rfl
      · exact Entries.find_erase
    rw [List.foldl_cons, ih, one]
    by_cases later : other ∈ rest <;> by_cases same : other = query <;> simp [later, same]

/-- What every erased answer keeps, all of them keep. -/
theorem foldl_eraseQuery_keeps {P : QueryCache V → Prop}
    (kept : ∀ cache query entry, Entries.find query cache.cache = some entry → P cache →
      P { cache with
        totalMemoryBytes := cache.totalMemoryBytes - entry.memorySizeBytes
        cache := Entries.erase query cache.cache })
    (queries : List Identifier) {cache : QueryCache V} (holds : P cache) :
    P (queries.foldl eraseQuery cache) := by
  induction queries generalizing cache with
  | nil => exact holds
  | cons query rest ih =>
    refine ih ?_
    rw [eraseQuery]
    split
    · exact holds
    · rename_i entry found
      exact kept cache query entry found holds

theorem foldl_eraseQuery_links (queries : List Identifier) (cache : QueryCache V) :
    (queries.foldl eraseQuery cache).tableToQueries = cache.tableToQueries :=
  foldl_eraseQuery_keeps (P := fun left => left.tableToQueries = cache.tableToQueries)
    (fun _ _ _ _ same => same) queries rfl

theorem invalidateTable_exact (exact_ : cache.Exact)
    (tableName : Identifier) : (cache.invalidateTable tableName).Exact := by
  rw [invalidateTable]
  split
  · exact exact_
  · rename_i queries listed
    intro query table
    rw [isLinked_invalidated, foldl_eraseQuery_links, exact_ query table, find_foldl_eraseQuery]
    by_cases member : query ∈ queries
    · simp [member]
    · simp only [if_neg member]
      refine ⟨And.left, fun reads => ⟨reads, member, ?_⟩⟩
      -- a query that reads the table is in its set
      rintro rfl
      have linked := (exact_ query table).mpr reads
      rw [IsLinked, listed] at linked
      exact member linked

theorem invalidateTable_unlinked (cache : QueryCache V) (query tableName : Identifier) :
    ¬ IsLinked (cache.invalidateTable tableName).tableToQueries query tableName := by
  rw [invalidateTable]
  split
  · rename_i no_set
    simp [IsLinked, no_set]
  · rw [isLinked_invalidated]
    exact fun linked => linked.2.2 rfl

theorem invalidateTable_smaller (accounted : cache.Accounted)
    (tableName : Identifier) : Smaller cache (cache.invalidateTable tableName) := by
  rw [invalidateTable]
  split
  · exact (Evicts.refl cache).smaller accounted
  · rename_i queries _
    have left := foldl_eraseQuery_keeps (fun left _ _ found smaller =>
      Smaller.erase smaller found left.tableToQueries) queries
      ((Evicts.refl cache).smaller accounted)
    exact ⟨left.accounted, left.memory, left.entries, left.maxMemoryBytes, left.maxEntries⟩

theorem invalidateTable_distinct
    (distinct : Entries.Distinct cache.cache) (tableName : Identifier) :
    Entries.Distinct (cache.invalidateTable tableName).cache := by
  rw [invalidateTable]
  split
  · exact distinct
  · exact foldl_eraseQuery_keeps (P := fun left => Entries.Distinct left.cache)
      (fun _ query _ _ distinct => distinct.erase query) _ distinct

/-! ## An answer that is asked for -/

/-- What a lookup leaves: the cache as it was, without an answer that is too old, or with the
time of the answer that was found. -/
inductive Gets (query : Identifier) (cache : QueryCache V) : QueryCache V → Prop where
  | same : Gets query cache cache
  | expired (entry : CacheEntry V) (found : Entries.find query cache.cache = some entry) :
      Gets query cache (cache.remove query entry)
  | touched (entry : CacheEntry V) (now : Nat)
      (found : Entries.find query cache.cache = some entry) :
      Gets query cache { cache with
        cache := Entries.insert query { entry with lastAccessedAt := now } cache.cache }

theorem get_gets (now : Nat) (query : Identifier) (cache : QueryCache V) :
    Gets query cache (cache.get now query).2 := by
  rw [get]
  split
  · exact .same
  · split
    · exact .same
    · rename_i entry found
      split
      · exact .expired entry found
      · exact .touched entry now found

theorem Gets.distinct (gets : Gets query cache left) (distinct : Entries.Distinct cache.cache) :
    Entries.Distinct left.cache := by
  cases gets with
  | same => exact distinct
  | expired entry found => exact distinct.erase query
  | touched entry now found => exact distinct.insert query _

theorem Gets.exact (gets : Gets query cache left) (exact_ : cache.Exact) : left.Exact := by
  cases gets with
  | same => exact exact_
  | expired entry found => exact remove_exact found exact_
  | touched entry now found =>
    intro other table
    rw [exact_ other table, Entries.find_insert]
    by_cases same : other = query
    · simp [same, found]
    · simp [same]

theorem Gets.smaller (gets : Gets query cache left) (accounted : cache.Accounted) :
    Smaller cache left := by
  cases gets with
  | same => exact (Evicts.refl cache).smaller accounted
  | expired entry found => exact (Evicts.step found (.refl _)).smaller accounted
  | touched entry now found =>
    have sizes := Entries.total_insert cache.cache query { entry with lastAccessedAt := now }
      fun entry => entry.memorySizeBytes.toNat
    have count := Entries.length_insert cache.cache query { entry with lastAccessedAt := now }
    rw [found] at sizes count
    refine ⟨⟨accounted.distinct.insert query _, ?_⟩, Nat.le_refl _, ?_, rfl, rfl⟩
    · rw [accounted.sum_eq]
      exact (Nat.add_right_cancel sizes).symm
    · exact Nat.le_of_eq (Nat.add_right_cancel count)

/-! ## An answer that is stored -/

section Calls

variable (estimateMemorySize : Outcome V → UInt64)

/-- Failures are not kept, nor what takes more than half of the memory. -/
def Accepts (cache : QueryCache V) (result : Outcome V) : Prop :=
  cache.enabled = true ∧ result.success = true ∧
    estimateMemorySize result ≤ cache.maxMemoryBytes / 2

/-- The entry of an answer. -/
def newEntry (now : Nat) (result : Outcome V) (affectedTables : List Identifier) : CacheEntry V :=
  { result, createdAt := now, lastAccessedAt := now, affectedTables,
    memorySizeBytes := estimateMemorySize result }

/-- What storing comes to: nothing, another answer in the place of the one that is there, or a
new answer after room was made for it. -/
inductive Puts (now : Nat) (query : Identifier) (result : Outcome V) (tables : List Identifier)
    (cache : QueryCache V) : QueryCache V → Prop where
  | refused (not_accepted : ¬ cache.Accepts estimateMemorySize result) :
      Puts now query result tables cache cache
  | replaced (accepted : cache.Accepts estimateMemorySize result) (existing : CacheEntry V)
      (found : Entries.find query cache.cache = some existing) :
      Puts now query result tables cache { cache with
        totalMemoryBytes := cache.totalMemoryBytes - existing.memorySizeBytes +
          (newEntry estimateMemorySize now result tables).memorySizeBytes
        cache := Entries.insert query (newEntry estimateMemorySize now result tables) cache.cache }
  | added (accepted : cache.Accepts estimateMemorySize result)
      (absent : Entries.find query cache.cache = none) (room : QueryCache V)
      (made : room = cache.makeRoom (estimateMemorySize result)) :
      Puts now query result tables cache { room with
        totalMemoryBytes := room.totalMemoryBytes +
          (newEntry estimateMemorySize now result tables).memorySizeBytes
        cache := Entries.insert query (newEntry estimateMemorySize now result tables) room.cache
        tableToQueries := tables.foldl (link query) room.tableToQueries }

theorem put_puts (now : Nat) (query : Identifier) (result : Outcome V)
    (tables : List Identifier) (cache : QueryCache V) :
    Puts estimateMemorySize now query result tables cache
      (cache.put estimateMemorySize now query result tables) := by
  rw [put]
  split
  · rename_i off
    exact .refused fun accepted => by simp [accepted.1] at off
  · rename_i on
    split
    · rename_i failed
      exact .refused fun accepted => by simp [accepted.2.1] at failed
    · rename_i succeeded
      split
      · rename_i large
        exact .refused fun accepted => UInt64.not_lt.mpr accepted.2.2 large
      · rename_i small
        have accepted : cache.Accepts estimateMemorySize result :=
          ⟨by simpa using on, by simpa using succeeded, UInt64.not_lt.mp small⟩
        split
        · rename_i existing found
          exact .replaced accepted existing found
        · rename_i absent
          exact .added accepted absent _ rfl

variable {estimateMemorySize}

theorem Puts.distinct {now : Nat} {result : Outcome V} {tables : List Identifier}
    (puts : Puts estimateMemorySize now query result tables cache left)
    (distinct : Entries.Distinct cache.cache) : Entries.Distinct left.cache := by
  cases puts with
  | refused _ => exact distinct
  | replaced _ existing found => exact distinct.insert query _
  | added _ absent room made =>
    subst made
    exact ((makeRoom_evicts _ distinct).distinct distinct).insert query _

/-- The links of a query are still right after another answer took the place of its answer exactly
when both read the same tables. -/
theorem exact_replaced_iff {existing entry : CacheEntry V} (sum : UInt64)
    (found : Entries.find query cache.cache = some existing) (exact_ : cache.Exact) :
    Exact { cache with
      totalMemoryBytes := sum, cache := Entries.insert query entry cache.cache } ↔
      ∀ table, table ∈ existing.affectedTables ↔ table ∈ entry.affectedTables := by
  constructor
  · intro still table
    have before := exact_ query table
    have after := still query table
    rw [Entries.find_insert, if_pos rfl] at after
    simp only [found, Option.some.injEq, exists_eq_left'] at before after
    exact before.symm.trans after
  · intro same_tables other table
    rw [exact_ other table, Entries.find_insert]
    by_cases same : other = query
    · simp [same, found, same_tables table]
    · simp [same]

theorem exact_added (entry : CacheEntry V)
    (sum : UInt64) (absent : Entries.find query cache.cache = none) (exact_ : cache.Exact) :
    Exact { cache with
      totalMemoryBytes := sum
      cache := Entries.insert query entry cache.cache
      tableToQueries := entry.affectedTables.foldl (link query) cache.tableToQueries } := by
  intro other table
  rw [isLinked_foldl_link, exact_ other table, Entries.find_insert]
  by_cases same : other = query
  · simp [same, absent]
  · simp [same]

/-! ## Room for an answer -/

/-- The loop over the memory frees what is required, or everything. -/
theorem evictToFreeMemory_frees (requiredBytes : UInt64) :
    ∀ (count : Nat) (freedBytes : UInt64) (cache : QueryCache V),
      cache.Accounted →
      cache.cache.length ≤ count →
      freedBytes.toNat + cache.totalMemoryBytes.toNat < 2 ^ 64 →
      (evictToFreeMemory requiredBytes count freedBytes cache).cache = [] ∨
        requiredBytes.toNat +
          (evictToFreeMemory requiredBytes count freedBytes cache).totalMemoryBytes.toNat ≤
          freedBytes.toNat + cache.totalMemoryBytes.toNat
  | 0, _, cache, _, few, _ => .inl (List.length_eq_zero_iff.mp (Nat.le_zero.mp few))
  | count + 1, freedBytes, cache, accounted, few, fits => by
      rw [evictToFreeMemory]
      split
      · split
        · rename_i nothing
          exact .inl (Entries.oldest_eq_none nothing)
        · rename_i query entry chosen
          have found := Entries.find_of_mem accounted.distinct (Entries.oldest_mem chosen)
          have fewer := Entries.length_erase accounted.distinct found
          have taken := accounted.toNat_sub found
          have freed : (freedBytes + entry.memorySizeBytes).toNat =
              freedBytes.toNat + entry.memorySizeBytes.toNat := by
            rw [UInt64.toNat_add]
            omega
          have later := evictToFreeMemory_frees requiredBytes count
            (freedBytes + entry.memorySizeBytes) (cache.remove query entry)
            (accounted.erase found) (by simp only [remove]; omega)
            (by simp only [remove, freed]; omega)
          refine later.imp id fun enough => Nat.le_trans enough ?_
          simp only [remove, freed]
          omega
      · rename_i enough
        have enough := UInt64.le_iff_toNat_le.mp (UInt64.not_lt.mp enough)
        exact .inr (Nat.add_le_add_right enough _)

/-- The loop over the number of entries ends below the limit, or when nothing is left. -/
theorem evictEntries_done : ∀ (count : Nat) (cache : QueryCache V),
    Entries.Distinct cache.cache → cache.cache.length ≤ count → 1 ≤ cache.maxEntries →
    (cache.evictEntries count).cache.length + 1 ≤ cache.maxEntries
  | 0, cache, _, few, positive => by
      rw [evictEntries]
      omega
  | count + 1, cache, distinct, few, positive => by
      rw [evictEntries]
      split
      · rename_i more
        cases chosen : Entries.oldest CacheEntry.lastAccessedAt cache.cache with
        | none => exact absurd (Entries.oldest_eq_none chosen) more.2
        | some found =>
          have here := Entries.find_of_mem distinct (Entries.oldest_mem chosen)
          have fewer := Entries.length_erase distinct here
          have once : cache.evictLRU = cache.remove found.1 found.2 := by
            rw [evictLRU, chosen]
          rw [once]
          refine evictEntries_done count (cache.remove found.1 found.2) (distinct.erase found.1) ?_
            positive
          simp only [remove]
          omega
      · rename_i done
        -- the `int` is at most the limit
        have cast_le : (Int32.ofNat cache.maxEntries).toInt ≤ cache.maxEntries := by
          rw [Int32.toInt_ofNat', Int.bmod_def, Int32.size]
          omega
        rcases Decidable.not_and_iff_not_or_not.mp done with below | empty
        · omega
        · rw [Decidable.not_not.mp empty]
          exact positive

theorem makeRoom_entries (memorySize : UInt64) (accounted : cache.Accounted)
    (positive : 1 ≤ cache.maxEntries) :
    (cache.makeRoom memorySize).cache.length + 1 ≤ cache.maxEntries := by
  rw [makeRoom]
  split
  · have evicts := evictToFreeMemory_evicts memorySize cache.cache.length 0 cache
      accounted.distinct
    have left := evicts.smaller accounted
    rw [← left.maxEntries] at positive ⊢
    exact evictEntries_done _ _ left.accounted.distinct (Nat.le_refl _) positive
  · exact evictEntries_done _ cache accounted.distinct (Nat.le_refl _) positive

/-- Room is made for an answer of at most half the memory, unless the sum of the sizes leaves the
machine word. -/
theorem makeRoom_memory_iff {memorySize : UInt64}
    (within : cache.WithinLimits) (small : memorySize ≤ cache.maxMemoryBytes) :
    (cache.makeRoom memorySize).totalMemoryBytes.toNat + memorySize.toNat ≤
        cache.maxMemoryBytes.toNat ↔
      ¬ (2 ^ 64 ≤ cache.totalMemoryBytes.toNat + memorySize.toNat ∧
        cache.maxMemoryBytes.toNat <
          (cache.evictEntries cache.cache.length).totalMemoryBytes.toNat + memorySize.toNat) := by
  have memory := UInt64.le_iff_toNat_le.mp within.memory
  have small := UInt64.le_iff_toNat_le.mp small
  rw [makeRoom]
  split
  · rename_i large
    rw [UInt64.lt_iff_toNat_lt, UInt64.toNat_add] at large
    have evicts := evictToFreeMemory_evicts memorySize cache.cache.length 0 cache
      within.accounted.distinct
    have left := evicts.smaller within.accounted
    have freed := evictToFreeMemory_frees memorySize cache.cache.length 0 cache within.accounted
      (Nat.le_refl _) (by simpa using UInt64.toNat_lt cache.totalMemoryBytes)
    refine iff_of_true ?_ fun wraps => ?_
    · refine Nat.le_trans (Nat.add_le_add_right ((evictEntries_evicts _ _
        left.accounted.distinct).smaller left.accounted).memory _) ?_
      rcases freed with empty | enough
      · rw [left.accounted.sum_eq, empty]
        simpa [Entries.total] using small
      · rw [UInt64.toNat_zero, Nat.zero_add] at enough
        omega
    · have := UInt64.toNat_lt memorySize
      have := UInt64.toNat_lt cache.totalMemoryBytes
      omega
  · rename_i fits
    have less := ((evictEntries_evicts cache.cache.length cache
      within.accounted.distinct).smaller within.accounted).memory
    rw [UInt64.lt_iff_toNat_lt, UInt64.toNat_add] at fits
    have := UInt64.toNat_lt cache.maxMemoryBytes
    constructor
    · intro enough wrapped
      omega
    · intro inside
      by_cases wraps : 2 ^ 64 ≤ cache.totalMemoryBytes.toNat + memorySize.toNat
      · omega
      · omega

/-- An answer is stored within the limits exactly when the other sizes leave room for it. -/
theorem withinLimits_stored_iff {rest : UInt64} (links : List (Identifier × List Identifier))
    (distinct : Entries.Distinct cache.cache)
    (parts : rest.toNat + ((Entries.find query cache.cache).map fun entry =>
      entry.memorySizeBytes.toNat).getD 0 =
        Entries.total (fun entry => entry.memorySizeBytes.toNat) cache.cache)
    (few : (Entries.insert query entry cache.cache).length ≤ cache.maxEntries) :
    WithinLimits { cache with
      totalMemoryBytes := rest + entry.memorySizeBytes
      cache := Entries.insert query entry cache.cache
      tableToQueries := links } ↔
      rest.toNat + entry.memorySizeBytes.toNat ≤ cache.maxMemoryBytes.toNat := by
  have accounted : Entries.Accounted CacheEntry.memorySizeBytes
      (Entries.insert query entry cache.cache) (rest + entry.memorySizeBytes) ↔
      rest.toNat + entry.memorySizeBytes.toNat < 2 ^ 64 :=
    Entries.accounted_insert_iff distinct parts
  constructor
  · intro after
    have memory := UInt64.le_iff_toNat_le.mp after.memory
    rwa [UInt64.toNat_add, Nat.mod_eq_of_lt (accounted.mp after.accounted)] at memory
  · intro inside
    have fits := Nat.lt_of_le_of_lt inside (UInt64.toNat_lt cache.maxMemoryBytes)
    refine ⟨accounted.mpr fits, ?_, few⟩
    rwa [UInt64.le_iff_toNat_le, UInt64.toNat_add, Nat.mod_eq_of_lt fits]

end Calls

end QueryCache

/-! ## Runs -/

/-- The calls, and the evictions that a call makes on its own. -/
inductive QueryCacheCall (V : Type) where
  | get (now : Nat) (querySql : Identifier)
  | put (now : Nat) (querySql : Identifier) (result : Outcome V) (affectedTables : List Identifier)
  | invalidateTable (tableName : Identifier)
  | invalidateDatabase (databaseName : Identifier)
  | clear
  | evictLRU
  | evictToFreeMemory (requiredBytes : UInt64)

namespace QueryCache

section Runs

variable {V : Type} (estimateMemorySize : Outcome V → UInt64) (toCaseFolded : Char → Char)

/-- The answer of a lookup, and what is left. -/
def act (cache : QueryCache V) : QueryCacheCall V → Option (Outcome V) × QueryCache V
  | .get now querySql => cache.get now querySql
  | .put now querySql result affectedTables =>
      (none, cache.put estimateMemorySize now querySql result affectedTables)
  | .invalidateTable tableName => (none, cache.invalidateTable tableName)
  | .invalidateDatabase databaseName => (none, cache.invalidateDatabase toCaseFolded databaseName)
  | .clear => (none, cache.clear)
  | .evictLRU => (none, cache.evictLRU)
  | .evictToFreeMemory requiredBytes =>
      (none, cache.evictToFreeMemory requiredBytes cache.cache.length 0)

/-- An answer takes the place of one that reads other tables. -/
def Relabels (cache : QueryCache V) : QueryCacheCall V → Prop
  | .put _ querySql result affectedTables => cache.Accepts estimateMemorySize result ∧
      ∃ existing, Entries.find querySql cache.cache = some existing ∧
        ¬ ∀ table, table ∈ existing.affectedTables ↔ table ∈ affectedTables
  | _ => False

/-- An answer takes the place of one that leaves too little room, or the sum of the sizes leaves
the machine word and the answers that stay take too much room. -/
def Overcommits (cache : QueryCache V) : QueryCacheCall V → Prop
  | .put _ querySql result _ => cache.Accepts estimateMemorySize result ∧
      match Entries.find querySql cache.cache with
      | some existing => cache.maxMemoryBytes.toNat < cache.totalMemoryBytes.toNat -
          existing.memorySizeBytes.toNat + (estimateMemorySize result).toNat
      | none =>
          2 ^ 64 ≤ cache.totalMemoryBytes.toNat + (estimateMemorySize result).toNat ∧
          cache.maxMemoryBytes.toNat <
            (cache.evictEntries cache.cache.length).totalMemoryBytes.toNat +
              (estimateMemorySize result).toNat
  | _ => False

variable {estimateMemorySize toCaseFolded} {cache : QueryCache V}

theorem act_distinct (distinct : Entries.Distinct cache.cache) (call : QueryCacheCall V) :
    Entries.Distinct (cache.act estimateMemorySize toCaseFolded call).2.cache := by
  cases call with
  | get now query => exact (get_gets now query cache).distinct distinct
  | put now query result tables =>
    exact (put_puts estimateMemorySize now query result tables cache).distinct distinct
  | invalidateTable tableName => exact invalidateTable_distinct distinct tableName
  | invalidateDatabase databaseName => exact (foldl_removeQuery_evicts _ cache).distinct distinct
  | clear => exact List.nodup_nil
  | evictLRU => exact (evictLRU_evicts distinct).distinct distinct
  | evictToFreeMemory requiredBytes =>
    exact (evictToFreeMemory_evicts requiredBytes _ 0 cache distinct).distinct distinct

theorem exact_put_iff (distinct : Entries.Distinct cache.cache) (exact_ : cache.Exact) (now : Nat)
    (query : Identifier) (result : Outcome V) (tables : List Identifier) :
    (cache.put estimateMemorySize now query result tables).Exact ↔
      ¬ cache.Relabels estimateMemorySize (.put now query result tables) := by
  have puts := put_puts estimateMemorySize now query result tables cache
  generalize cache.put estimateMemorySize now query result tables = left at puts
  cases puts with
  | refused not_accepted =>
    exact iff_of_true exact_ fun relabels => not_accepted relabels.1
  | replaced accepted existing found =>
    rw [exact_replaced_iff _ found exact_, Relabels]
    simp only [found, accepted, true_and, Option.some.injEq, exists_eq_left', not_not]
    rfl
  | added accepted absent room made =>
    have evicts := makeRoom_evicts (estimateMemorySize result) distinct
    rw [← made] at evicts
    refine iff_of_true ?_ ?_
    · exact exact_added (newEntry estimateMemorySize now result tables) _
        (evicts.absent absent) (evicts.exact exact_)
    · rintro ⟨-, existing, found, -⟩
      cases absent.symm.trans found

theorem exact_act_iff (distinct : Entries.Distinct cache.cache) (exact_ : cache.Exact)
    (call : QueryCacheCall V) : (cache.act estimateMemorySize toCaseFolded call).2.Exact ↔
      ¬ cache.Relabels estimateMemorySize call := by
  cases call with
  | put now query result tables => exact exact_put_iff distinct exact_ now query result tables
  | get now query => exact iff_of_true ((get_gets now query cache).exact exact_) id
  | invalidateTable tableName => exact iff_of_true (invalidateTable_exact exact_ tableName) id
  | invalidateDatabase databaseName =>
    exact iff_of_true ((foldl_removeQuery_evicts _ cache).exact exact_) id
  | clear =>
    refine iff_of_true (fun query table => ?_) id
    simp [act, clear, IsLinked, Entries.find]
  | evictLRU => exact iff_of_true ((evictLRU_evicts distinct).exact exact_) id
  | evictToFreeMemory requiredBytes =>
    exact iff_of_true ((evictToFreeMemory_evicts requiredBytes _ 0 cache distinct).exact exact_) id

/-- What is left after the answers of a table were invalidated reads other tables. -/
theorem act_invalidateTable (exact_ : cache.Exact) {tableName query : Identifier}
    {entry : CacheEntry V} (found : Entries.find query
      (cache.act estimateMemorySize toCaseFolded (.invalidateTable tableName)).2.cache =
        some entry) : tableName ∉ entry.affectedTables := fun reads =>
  invalidateTable_unlinked cache query tableName
    ((invalidateTable_exact exact_ tableName query tableName).mpr ⟨entry, found, reads⟩)

theorem withinLimits_put_iff (within : cache.WithinLimits) (positive : 1 ≤ cache.maxEntries)
    (now : Nat) (query : Identifier) (result : Outcome V) (tables : List Identifier) :
    (cache.put estimateMemorySize now query result tables).WithinLimits ↔
      ¬ cache.Overcommits estimateMemorySize (.put now query result tables) := by
  have puts := put_puts estimateMemorySize now query result tables cache
  generalize cache.put estimateMemorySize now query result tables = left at puts
  have distinct := within.accounted.distinct
  have sum := within.accounted.sum_eq
  cases puts with
  | refused not_accepted =>
    exact iff_of_true within fun call => not_accepted call.1
  | replaced accepted existing found =>
    have taken := within.accounted.toNat_sub found
    have count := Entries.length_insert cache.cache query
      (newEntry estimateMemorySize now result tables)
    rw [found] at count
    refine (withinLimits_stored_iff cache.tableToQueries distinct ?_ ?_).trans ?_
    · rw [found, ← sum]
      exact taken
    · exact Nat.le_trans (Nat.le_of_eq (Nat.add_right_cancel count)) within.entries
    · simp only [Overcommits, found, accepted, true_and, Nat.not_lt]
      rw [← taken, Nat.add_sub_cancel]
      rfl
  | added accepted absent room made =>
    have evicts := makeRoom_evicts (estimateMemorySize result) distinct
    have entries := makeRoom_entries (estimateMemorySize result) within.accounted positive
    have half : estimateMemorySize result ≤ cache.maxMemoryBytes := by
      have half := UInt64.le_iff_toNat_le.mp accepted.2.2
      rw [UInt64.toNat_div] at half
      exact UInt64.le_iff_toNat_le.mpr (Nat.le_trans half (Nat.div_le_self _ _))
    have memory := makeRoom_memory_iff within half
    rw [← made] at evicts entries memory
    have left := evicts.smaller within.accounted
    have none_left := evicts.absent absent
    have count := Entries.length_insert room.cache query
      (newEntry estimateMemorySize now result tables)
    rw [none_left] at count
    refine (withinLimits_stored_iff _ left.accounted.distinct ?_ ?_).trans ?_
    · rw [none_left, ← left.accounted.sum_eq]
      rfl
    · rw [left.maxEntries]
      exact Nat.le_trans (Nat.le_of_eq count) entries
    · simp only [Overcommits, absent, accepted, true_and]
      rw [← memory, left.maxMemoryBytes]
      rfl

/-- A call that stores nothing only makes answers go. -/
theorem act_smaller (accounted : cache.Accounted) (call : QueryCacheCall V)
    (stores_nothing : ∀ now query result tables, call ≠ .put now query result tables) :
    Smaller cache (cache.act estimateMemorySize toCaseFolded call).2 := by
  have distinct := accounted.distinct
  cases call with
  | put now query result tables => exact absurd rfl (stores_nothing now query result tables)
  | get now query => exact (get_gets now query cache).smaller accounted
  | invalidateTable tableName => exact invalidateTable_smaller accounted tableName
  | invalidateDatabase databaseName => exact (foldl_removeQuery_evicts _ cache).smaller accounted
  | clear => exact ⟨Entries.accounted_nil, Nat.zero_le _, Nat.zero_le _, rfl, rfl⟩
  | evictLRU => exact (evictLRU_evicts distinct).smaller accounted
  | evictToFreeMemory requiredBytes =>
    exact (evictToFreeMemory_evicts requiredBytes _ 0 cache distinct).smaller accounted

theorem withinLimits_act_iff (within : cache.WithinLimits) (positive : 1 ≤ cache.maxEntries)
    (call : QueryCacheCall V) :
    (cache.act estimateMemorySize toCaseFolded call).2.WithinLimits ↔
      ¬ cache.Overcommits estimateMemorySize call := by
  cases call with
  | put now query result tables =>
    exact withinLimits_put_iff within positive now query result tables
  | _ =>
    refine iff_of_true ((act_smaller within.accounted _ ?_).withinLimits within) id
    rintro _ _ _ _ ⟨⟩

theorem act_maxEntries (accounted : cache.Accounted) (call : QueryCacheCall V) :
    (cache.act estimateMemorySize toCaseFolded call).2.maxEntries = cache.maxEntries := by
  cases call with
  | put now query result tables =>
    have puts := put_puts estimateMemorySize now query result tables cache
    rw [act]
    generalize cache.put estimateMemorySize now query result tables = left at puts
    cases puts with
    | refused _ => rfl
    | replaced _ _ _ => rfl
    | added _ _ room made =>
      subst made
      exact ((makeRoom_evicts _ accounted.distinct).smaller accounted).maxEntries
  | _ =>
    refine (act_smaller accounted _ ?_).maxEntries
    rintro _ _ _ _ ⟨⟩

variable (estimateMemorySize toCaseFolded)

/-- The calls of a run keep the links, and leave no answer of a table that they invalidate, exactly
when no answer takes the place of one that reads other tables. -/
theorem links_exact_iff (maxEntries ttlSeconds : Nat) (maxMemoryBytes : UInt64) (enabled : Bool)
    (calls : List (QueryCacheCall V)) :
    Run.Meets (fun cache call => some (act estimateMemorySize toCaseFolded cache call))
        (fun cache call =>
          (cache.act estimateMemorySize toCaseFolded call).2.Exact ∧
          ∀ tableName, call = .invalidateTable tableName → ∀ query entry,
            Entries.find query (cache.act estimateMemorySize toCaseFolded call).2.cache =
              some entry → tableName ∉ entry.affectedTables)
        { maxEntries, maxMemoryBytes, ttlSeconds, enabled } calls ↔
      Run.Meets (fun cache call => some (act estimateMemorySize toCaseFolded cache call))
        (fun cache call => ¬ cache.Relabels estimateMemorySize call)
        { maxEntries, maxMemoryBytes, ttlSeconds, enabled } calls := by
  refine Run.always_meets_iff (fun cache => Entries.Distinct cache.cache ∧ cache.Exact)
    ?_ ?_ calls _ ?_
  · rintro cache call ⟨distinct, exact_⟩
    refine Iff.trans ⟨And.left, fun after => ⟨after, ?_⟩⟩ (exact_act_iff distinct exact_ call)
    rintro tableName rfl query entry found
    exact act_invalidateTable exact_ found
  · rintro cache call ⟨distinct, exact_⟩ keeps
    exact ⟨act_distinct distinct call, (exact_act_iff distinct exact_ call).mpr keeps⟩
  · refine ⟨List.nodup_nil, fun query table => ?_⟩
    simp [IsLinked, Entries.find]

/-- An answer that reads another table than the one before it is still there after its table was
invalidated. -/
theorem relabelled_answer_stays :
    ∃ entry, Entries.find ['q'] (Run.specRun (act (fun _ => 1) id) ({} : QueryCache Unit)
      [.put 0 ['q'] (.selected [] []) [['a']], .put 1 ['q'] (.selected [] []) [['b']],
        .invalidateTable ['b']]).2.cache = some entry ∧ ['b'] ∈ entry.affectedTables :=
  ⟨_, rfl, by decide⟩

/-- The calls of a run keep the sum of the sizes and both limits exactly when no answer takes more
room than there is for it. -/
theorem limits_iff (limit ttlSeconds : Nat) (maxMemoryBytes : UInt64) (enabled : Bool)
    (calls : List (QueryCacheCall V)) :
    Run.Meets (fun cache call => some (act estimateMemorySize toCaseFolded cache call))
        (fun cache call => (cache.act estimateMemorySize toCaseFolded call).2.WithinLimits)
        { maxEntries := limit + 1, maxMemoryBytes, ttlSeconds, enabled } calls ↔
      Run.Meets (fun cache call => some (act estimateMemorySize toCaseFolded cache call))
        (fun cache call => ¬ cache.Overcommits estimateMemorySize call)
        { maxEntries := limit + 1, maxMemoryBytes, ttlSeconds, enabled } calls := by
  refine Run.always_meets_iff (fun cache => cache.WithinLimits ∧ 1 ≤ cache.maxEntries)
    ?_ ?_ calls _ ?_
  · rintro cache call ⟨within, positive⟩
    exact withinLimits_act_iff within positive call
  · rintro cache call ⟨within, positive⟩ keeps
    refine ⟨(withinLimits_act_iff within positive call).mpr keeps, ?_⟩
    rw [act_maxEntries within.accounted]
    exact positive
  · exact ⟨⟨Entries.accounted_nil, UInt64.zero_le, Nat.zero_le _⟩, Nat.le_add_left 1 limit⟩

/-- With a limit of 1 MiB, an answer of half of it takes the place of a small one while the
others use up the rest. -/
theorem replacement_exceeds_memory :
    ¬ WithinLimits (Run.specRun
      (act (fun | .selected _ rows => UInt64.ofNat rows.flatten.sum | _ => 0) id)
      ({ maxMemoryBytes := 1048576 } : QueryCache Nat)
      [.put 0 ['p'] (.selected [] [[224]]) [], .put 1 ['q'] (.selected [] [[524288]]) [],
        .put 2 ['r'] (.selected [] [[523000]]) [], .put 3 ['p'] (.selected [] [[524288]]) []]).2 :=
  fun within => absurd within.memory (by decide)

end Runs

end QueryCache

end QinDB.Cache
