/-
# Cache.TableCacheRuns — the memory of the table cache

`table_cache.cpp` keeps the sum of the sizes of its entries. Room for a table is made by the
size of its pages, and the size that is recorded is an estimate of its rows in memory, which
may be larger. A table that is loaded again takes the place of its older entry, whose size
stays in the sum.

* `makeRoom_smaller`, `makeRoom_done`: what the loop of evictions leaves.
* `balanced_load_iff`: when a load keeps the sum and the limit.
* `fits_of_absent`: a load that does, by the cache before it.
* `balanced_iff`: when the calls of a whole run do.
-/
import QinDB.Base.Run
import QinDB.Cache.TableCache

namespace QinDB.Cache

open QinDB.Base QinDB.Storage QinDB.Executor

set_option autoImplicit false

namespace TableCache

variable {V : Type}
variable {cache left : TableCache V}

/-- The sum of the sizes is that of the entries. -/
abbrev Accounted (cache : TableCache V) : Prop :=
  Entries.Accounted TableCacheEntry.memorySizeBytes cache.cache cache.totalMemoryBytes

/-- Two tables or more are within the limit. -/
def Limited (cache : TableCache V) : Prop :=
  2 ≤ cache.cache.length → cache.totalMemoryBytes ≤ cache.maxTotalMemoryBytes

/-! ## Tables that go -/

/-- What is left when tables go: fewer of them, under the same limit. -/
structure Smaller (cache left : TableCache V) : Prop where
  accounted : left.Accounted
  memory : left.totalMemoryBytes.toNat ≤ cache.totalMemoryBytes.toNat
  entries : left.cache.length ≤ cache.cache.length
  limit : left.maxTotalMemoryBytes = cache.maxTotalMemoryBytes

theorem Smaller.refl (accounted : cache.Accounted) :
    Smaller cache cache :=
  ⟨accounted, Nat.le_refl _, Nat.le_refl _, rfl⟩

theorem Smaller.erase {key : Identifier} {entry : TableCacheEntry V}
    (smaller : Smaller cache left) (found : Entries.find key left.cache = some entry) :
    Smaller cache { left with
      cache := Entries.erase key left.cache
      totalMemoryBytes := left.totalMemoryBytes - entry.memorySizeBytes } where
  accounted := smaller.accounted.erase found
  memory := Nat.le_trans (Nat.le.intro (smaller.accounted.toNat_sub found)) smaller.memory
  entries := Nat.le_trans (List.length_filter_le _ _) smaller.entries
  limit := smaller.limit

theorem Smaller.limited (smaller : Smaller cache left)
    (limited : cache.Limited) : left.Limited := by
  intro two
  have before := UInt64.le_iff_toNat_le.mp (limited (Nat.le_trans two smaller.entries))
  rw [smaller.limit]
  exact UInt64.le_iff_toNat_le.mpr (Nat.le_trans smaller.memory before)

theorem evictLRU_smaller (smaller : Smaller cache left) :
    Smaller cache left.evictLRU := by
  rw [evictLRU]
  split
  · exact smaller
  · rename_i key entry chosen
    exact smaller.erase
      (Entries.find_of_mem smaller.accounted.distinct (Entries.oldest_mem chosen))

theorem evictLRU_fewer (accounted : cache.Accounted)
    (some_left : cache.cache ≠ []) : cache.evictLRU.cache.length + 1 = cache.cache.length := by
  rw [evictLRU]
  split
  · rename_i nothing
    exact absurd (Entries.oldest_eq_none nothing) some_left
  · rename_i key entry chosen
    exact Entries.length_erase accounted.distinct
      (Entries.find_of_mem accounted.distinct (Entries.oldest_mem chosen))

theorem makeRoom_smaller (tableSize : UInt64) :
    ∀ (count : Nat) {left : TableCache V}, Smaller cache left →
      Smaller cache (left.makeRoom tableSize count)
  | 0, _, smaller => smaller
  | count + 1, left, smaller => by
      rw [makeRoom]
      split
      · exact makeRoom_smaller tableSize count (evictLRU_smaller smaller)
      · exact smaller

/-- The loop ends when there is room, or when nothing is left. -/
theorem makeRoom_done (tableSize : UInt64) : ∀ (count : Nat) (cache : TableCache V),
    cache.Accounted → cache.cache.length ≤ count →
    (cache.makeRoom tableSize count).totalMemoryBytes + tableSize ≤ cache.maxTotalMemoryBytes ∨
      (cache.makeRoom tableSize count).cache = []
  | 0, _, _, few => .inr (List.length_eq_zero_iff.mp (Nat.le_zero.mp few))
  | count + 1, cache, accounted, few => by
      rw [makeRoom]
      split
      · rename_i more
        have once := evictLRU_smaller (.refl accounted)
        have fewer := evictLRU_fewer accounted more.2
        rw [← once.limit]
        exact makeRoom_done tableSize count cache.evictLRU once.accounted (by omega)
      · rename_i done
        rcases Decidable.not_and_iff_not_or_not.mp done with fits | empty
        · exact .inl (UInt64.not_lt.mp fits)
        · exact .inr (Decidable.not_not.mp empty)

theorem invalidateTable_smaller (accounted : cache.Accounted)
    (dbName tableName : Identifier) : Smaller cache (cache.invalidateTable dbName tableName) := by
  rw [invalidateTable]
  split
  · exact .refl accounted
  · rename_i entry found
    exact (Smaller.refl accounted).erase found

theorem length_foldl_erase (keys : List Identifier)
    (entries : List (Identifier × TableCacheEntry V)) :
    (keys.foldl (fun entries key => Entries.erase key entries) entries).length ≤
      entries.length := by
  induction keys generalizing entries with
  | nil => exact Nat.le_refl _
  | cons key rest ih => exact Nat.le_trans (ih _) (List.length_filter_le _ _)

theorem invalidateDatabase_smaller (accounted : cache.Accounted)
    (dbName : Identifier) : Smaller cache (cache.invalidateDatabase dbName) := by
  have kept := Entries.Accounted.erase_all
    (cache.cache.filter fun found => (dbName ++ ['.']).isPrefixOf found.1)
    (List.Nodup.sublist (List.Sublist.map _ List.filter_sublist) accounted.distinct) accounted
    fun found member => List.mem_of_mem_filter member
  exact ⟨kept.1, kept.2, length_foldl_erase _ _, rfl⟩

/-- A new limit is kept by two tables or more. -/
theorem setMaxTotalMemory_balanced (accounted : cache.Accounted) (bytes : UInt64) :
    (cache.setMaxTotalMemory bytes).Accounted ∧ (cache.setMaxTotalMemory bytes).Limited := by
  have smaller : Smaller { cache with maxTotalMemoryBytes := bytes }
      (cache.setMaxTotalMemory bytes) := makeRoom_smaller 0 cache.cache.length (.refl accounted)
  have done := makeRoom_done 0 cache.cache.length { cache with maxTotalMemoryBytes := bytes }
    accounted (Nat.le_refl _)
  refine ⟨smaller.accounted, fun two => ?_⟩
  rw [smaller.limit]
  rcases done with fits | empty
  · rwa [UInt64.add_zero] at fits
  · rw [setMaxTotalMemory, empty] at two
    cases two

/-! ## A table that is loaded -/

/-- A table is stored with its sum and within the limit exactly when no size is left of its older
entry, the sum stays a machine word, and there is room beside the other tables. -/
theorem balanced_stored_iff (accounted : cache.Accounted)
    (key : Identifier) (entry : TableCacheEntry V) :
    (Accounted { cache with
        cache := Entries.insert key entry cache.cache
        totalMemoryBytes := cache.totalMemoryBytes + entry.memorySizeBytes } ∧
      Limited { cache with
        cache := Entries.insert key entry cache.cache
        totalMemoryBytes := cache.totalMemoryBytes + entry.memorySizeBytes }) ↔
      (∀ old, Entries.find key cache.cache = some old → old.memorySizeBytes = 0) ∧
      cache.totalMemoryBytes.toNat + entry.memorySizeBytes.toNat < 2 ^ 64 ∧
      ((∃ other ∈ cache.cache, other.1 ≠ key) →
        cache.totalMemoryBytes.toNat + entry.memorySizeBytes.toNat ≤
          cache.maxTotalMemoryBytes.toNat) := by
  rw [Accounted, accounted.insert_iff key entry, and_assoc]
  refine and_congr_right fun _ => and_congr_right fun fits => ?_
  rw [Limited, Entries.two_le_length_insert key entry accounted.distinct,
    UInt64.le_iff_toNat_le, UInt64.toNat_add, Nat.mod_eq_of_lt fits]

section Load

variable (qt : Variant V) (estimateMemorySize : List (List V) → UInt64)

def Accepts (cache : TableCache V) (table : TableDef) (db : Database V) : Prop :=
  cache.enabled = true ∧ estimateTableSize table db ≤ cache.maxTableSizeBytes

/-- The size that is recorded for a table. -/
def loadedSize (table : TableDef) (db : Database V) : UInt64 :=
  estimateMemorySize (((scan db.disk ((db.chain table).take MAX_CACHED_PAGES)).flatMap fun found =>
    getAllRecords qt table.columns found.2).map Prod.snd)

variable {qt estimateMemorySize}

theorem loadTable_refused {table : TableDef} {db : Database V}
    (refused : ¬ cache.Accepts table db) (now : Nat) (dbName : Identifier) :
    cache.loadTable qt estimateMemorySize now dbName table db = (false, cache) := by
  rw [loadTable]
  split
  · rfl
  · rename_i on
    split
    · rfl
    · rename_i small
      exact absurd ⟨by simpa using on, UInt64.not_lt.mp small⟩ refused

variable (qt estimateMemorySize) in
theorem loadTable_accepted {table : TableDef} {db : Database V}
    (accepts : cache.Accepts table db) (now : Nat) (dbName : Identifier) :
    ∃ entry : TableCacheEntry V, entry.memorySizeBytes = loadedSize qt estimateMemorySize table db ∧
      cache.loadTable qt estimateMemorySize now dbName table db =
        (true, { cache.makeRoom (estimateTableSize table db) cache.cache.length with
          cache := Entries.insert (makeKey dbName table.name) entry
            (cache.makeRoom (estimateTableSize table db) cache.cache.length).cache
          totalMemoryBytes :=
            (cache.makeRoom (estimateTableSize table db) cache.cache.length).totalMemoryBytes +
              entry.memorySizeBytes }) := by
  rw [loadTable, if_neg (by simp [accepts.1]), if_neg (UInt64.not_lt.mpr accepts.2)]
  exact ⟨{ records := _, loadedAt := now, memorySizeBytes := _ }, rfl, rfl⟩

end Load

end TableCache

/-! ## Runs -/

/-- The calls that change what is cached, and the eviction that some of them make. -/
inductive TableCacheCall (V : Type) where
  | loadTable (now : Nat) (dbName : Identifier) (table : TableDef) (db : Database V)
  | invalidateTable (dbName tableName : Identifier)
  | invalidateDatabase (dbName : Identifier)
  | setMaxTotalMemory (bytes : UInt64)
  | evictLRU

/-- The calls that look at the limit. -/
def TableCacheCall.limits {V : Type} : TableCacheCall V → Bool
  | .loadTable _ _ _ _ | .setMaxTotalMemory _ => true
  | _ => false

namespace TableCache

section Runs

variable {V : Type} (qt : Variant V) (estimateMemorySize : List (List V) → UInt64)

/-- Whether a table was loaded, and what is left. -/
def act (cache : TableCache V) : TableCacheCall V → Bool × TableCache V
  | .loadTable now dbName table db => cache.loadTable qt estimateMemorySize now dbName table db
  | .invalidateTable dbName tableName => (false, cache.invalidateTable dbName tableName)
  | .invalidateDatabase dbName => (false, cache.invalidateDatabase dbName)
  | .setMaxTotalMemory bytes => (false, cache.setMaxTotalMemory bytes)
  | .evictLRU => (false, cache.evictLRU)

/-- The sum is that of the entries, no entry can take it below zero, and two tables or more are
within the limit after a call that looks at it. -/
def Balanced (cache : TableCache V) (call : TableCacheCall V) : Prop :=
  cache.Accounted ∧
  (∀ key entry, Entries.find key cache.cache = some entry →
    entry.memorySizeBytes ≤ cache.totalMemoryBytes) ∧
  (call.limits = true → cache.Limited)

/-- A table that is loaded has no entry with a size left, its size fits into the machine word, and
into the limit when other tables stay. -/
def Fits (cache : TableCache V) : TableCacheCall V → Prop
  | .loadTable _ dbName table db => cache.Accepts table db →
      let room := cache.makeRoom (estimateTableSize table db) cache.cache.length
      let needed := room.totalMemoryBytes.toNat + (loadedSize qt estimateMemorySize table db).toNat
      (∀ old, Entries.find (makeKey dbName table.name) room.cache = some old →
        old.memorySizeBytes = 0) ∧
      needed < 2 ^ 64 ∧
      ((∃ other ∈ room.cache, other.1 ≠ makeKey dbName table.name) →
        needed ≤ cache.maxTotalMemoryBytes.toNat)
  | _ => True

variable {qt estimateMemorySize} {cache : TableCache V}

theorem Accounted.balanced (accounted : cache.Accounted) {call : TableCacheCall V}
    (limited : call.limits = true → cache.Limited) : cache.Balanced call := by
  refine ⟨accounted, fun key entry found => UInt64.le_iff_toNat_le.mpr ?_, limited⟩
  exact Nat.le.intro ((Nat.add_comm _ _).trans (accounted.toNat_sub found))

theorem balanced_load_iff (accounted : cache.Accounted) (limited : cache.Limited) (now : Nat)
    (dbName : Identifier) (table : TableDef) (db : Database V) :
    (cache.loadTable qt estimateMemorySize now dbName table db).2.Accounted ∧
      (cache.loadTable qt estimateMemorySize now dbName table db).2.Limited ↔
      cache.Fits qt estimateMemorySize (.loadTable now dbName table db) := by
  by_cases accepts : cache.Accepts table db
  · obtain ⟨entry, size, loaded⟩ := loadTable_accepted qt estimateMemorySize accepts now dbName
    have room := makeRoom_smaller (estimateTableSize table db) cache.cache.length
      (.refl accounted)
    rw [loaded, balanced_stored_iff room.accounted, Fits, size, room.limit]
    exact ⟨fun fits _ => fits, fun fits => fits accepts⟩
  · rw [loadTable_refused accepts]
    exact iff_of_true ⟨accounted, limited⟩ fun accepted => absurd accepted accepts

/-- By the cache as it is before the call: a table fits that is not cached and whose rows take no more
room than its pages, which is what the evictions go by. -/
theorem fits_of_absent (accounted : cache.Accounted) {dbName : Identifier} {table : TableDef}
    {db : Database V} (absent : Entries.find (makeKey dbName table.name) cache.cache = none)
    (covered : loadedSize qt estimateMemorySize table db ≤ estimateTableSize table db)
    (small : cache.totalMemoryBytes.toNat + (estimateTableSize table db).toNat < 2 ^ 64) (now : Nat) :
    cache.Fits qt estimateMemorySize (.loadTable now dbName table db) := by
  intro _ room needed
  have smaller := makeRoom_smaller (estimateTableSize table db) cache.cache.length (.refl accounted)
  have whole : needed ≤ room.totalMemoryBytes.toNat + (estimateTableSize table db).toNat :=
    Nat.add_le_add_left (UInt64.le_iff_toNat_le.mp covered) _
  have total : room.totalMemoryBytes.toNat + (estimateTableSize table db).toNat < 2 ^ 64 :=
    Nat.lt_of_le_of_lt (Nat.add_le_add_right smaller.memory _) small
  refine ⟨fun old found => ?_, Nat.lt_of_le_of_lt whole total, fun ⟨other, member, _⟩ => ?_⟩
  · cases (find_makeRoom absent ..).symm.trans found
  · rcases makeRoom_done (estimateTableSize table db) _ cache accounted (Nat.le_refl _) with
      fits | empty
    · rw [UInt64.le_iff_toNat_le, UInt64.toNat_add, Nat.mod_eq_of_lt total] at fits
      exact Nat.le_trans whole fits
    · cases empty ▸ member

/-- The calls that load nothing keep the sum and the limit. -/
theorem act_kept (accounted : cache.Accounted) (limited : cache.Limited) (call : TableCacheCall V)
    (loads_nothing : ∀ now dbName table db, call ≠ .loadTable now dbName table db) :
    (cache.act qt estimateMemorySize call).2.Accounted ∧
      (cache.act qt estimateMemorySize call).2.Limited := by
  cases call with
  | loadTable now dbName table db => exact absurd rfl (loads_nothing now dbName table db)
  | invalidateTable dbName tableName =>
    have left := invalidateTable_smaller accounted dbName tableName
    exact ⟨left.accounted, left.limited limited⟩
  | invalidateDatabase dbName =>
    have left := invalidateDatabase_smaller accounted dbName
    exact ⟨left.accounted, left.limited limited⟩
  | setMaxTotalMemory bytes => exact setMaxTotalMemory_balanced accounted bytes
  | evictLRU =>
    have left := evictLRU_smaller (.refl accounted)
    exact ⟨left.accounted, left.limited limited⟩

theorem kept_act_iff (accounted : cache.Accounted) (limited : cache.Limited)
    (call : TableCacheCall V) :
    (cache.act qt estimateMemorySize call).2.Accounted ∧
      (cache.act qt estimateMemorySize call).2.Limited ↔ cache.Fits qt estimateMemorySize call := by
  cases call with
  | loadTable now dbName table db =>
    exact balanced_load_iff accounted limited now dbName table db
  | _ =>
    refine iff_of_true (act_kept accounted limited _ ?_) trivial
    rintro _ _ _ _ ⟨⟩

theorem balanced_act_iff (accounted : cache.Accounted) (limited : cache.Limited)
    (call : TableCacheCall V) :
    (cache.act qt estimateMemorySize call).2.Balanced call ↔
      cache.Fits qt estimateMemorySize call := by
  rw [← kept_act_iff accounted limited call]
  constructor
  · intro balanced
    refine ⟨balanced.1, ?_⟩
    cases call with
    | loadTable now dbName table db => exact balanced.2.2 rfl
    | _ =>
      refine (act_kept accounted limited _ ?_).2
      rintro _ _ _ _ ⟨⟩
  · rintro ⟨accounted, limited⟩
    exact accounted.balanced fun _ => limited

variable (qt estimateMemorySize) in
/-- The calls of a run keep the sum and the limit exactly when every table that is loaded fits. -/
theorem balanced_iff (maxTableSizeBytes maxTotalMemoryBytes : UInt64) (enabled : Bool)
    (calls : List (TableCacheCall V)) :
    Run.Meets (fun cache call => some (act qt estimateMemorySize cache call))
        (fun cache call => (cache.act qt estimateMemorySize call).2.Balanced call)
        { maxTableSizeBytes, maxTotalMemoryBytes, enabled } calls ↔
      Run.Meets (fun cache call => some (act qt estimateMemorySize cache call))
        (fun cache call => cache.Fits qt estimateMemorySize call)
        { maxTableSizeBytes, maxTotalMemoryBytes, enabled } calls := by
  refine Run.always_meets_iff (fun cache => cache.Accounted ∧ cache.Limited) ?_ ?_ calls _ ?_
  · rintro cache call ⟨accounted, limited⟩
    exact balanced_act_iff accounted limited call
  · rintro cache call ⟨accounted, limited⟩ fits
    exact (kept_act_iff accounted limited call).mpr fits
  · exact ⟨Entries.accounted_nil, fun two => nomatch two⟩

end Runs

end TableCache

namespace TableCacheLiterals

open TableCache

/-- Every value is NULL. -/
def nulls : Variant Unit where
  null := ()
  isNull _ := true
  toBool _ := false
  ofRowId _ := ()
  write _ _ := []
  read _ _ := none

/-- The estimate for rows of one NULL. -/
def estimate (rows : List (List Unit)) : UInt64 :=
  if rows.isEmpty then 0 else 24 + (8 + 24 + 24) * UInt64.ofNat rows.length

def table : TableDef where
  name := ['t']
  columns := [{ name := ['c'], type := .INT }]
  firstPageId := 1
  nextRowId := 2

/-- A page with one row. -/
def stocked : Database Unit :=
  (Database.create []).writePage 1
    { slots := [some { header := ⟨1, 1, 0, 1⟩, length := 27, data := [1] }], freeSpaceOffset := 8165 }

/-- A table that is loaded twice is counted twice. -/
theorem reload_counts_twice :
    let left := (Run.specRun (act nulls estimate) {}
      [.loadTable 0 ['d'] table stocked, .loadTable 1 ['d'] table stocked]).2
    left.totalMemoryBytes = 160 ∧
      Entries.total (fun entry => entry.memorySizeBytes.toNat) left.cache = 80 := by
  decide

end TableCacheLiterals

end QinDB.Cache
