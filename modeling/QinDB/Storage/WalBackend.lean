/-
# Storage.WalBackend — the log kept in the database file

In database mode the log lives in two system tables (`wal_db_backend.cpp`): a page of
log records and a page of named values. Both are single pages. A backend that finds the
tables on disk does not learn where they are. Setting a name again leaves its old tuple
in place, before the new one.

* `readWalTuple_walTuple`: a stored record is read back, except for its reserved bytes.
* `walBackend_run`: while no page is full, no name is set twice and the backend is not
  created again, it answers as a log and a table of names.
-/
import QinDB.Base.Run
import QinDB.Storage.DataStream
import QinDB.Storage.RawPage
import QinDB.Storage.Wal

namespace QinDB.Storage

open QinDB.Core QinDB.Base

set_option autoImplicit false

/-! ## Tuples -/

/-- An empty array is written as a null one. -/
def writeByteArray (data : Bytes) : Bytes :=
  streamWrite 4 (if data = [] then 2 ^ 32 - 1 else data.length) ++ data

def readByteArray (stream : Bytes) : Bytes × Bytes :=
  let size := (streamRead 4 stream).1
  let body := (streamRead 4 stream).2
  if size = 2 ^ 32 - 1 then ([], body)
  else if body.length < size then ([], [])
  else (body.take size, body.drop size)

theorem readByteArray_write {data : Bytes} (short : data.length < 2 ^ 32 - 1) :
    (readByteArray (writeByteArray data)).1 = data := by
  rw [readByteArray, writeByteArray]
  by_cases empty : data = []
  · subst empty
    rfl
  · have small : data.length < 256 ^ 4 := lt_of_lt_of_le short (by decide)
    have head := streamRead_write small data
    simp only [if_neg empty, head, if_neg (Nat.ne_of_lt short), lt_self_iff_false, if_false,
      List.take_length]

/-- A log record on the stream; the reserved bytes are not written. -/
def walTuple (record : WALRecord) : Bytes :=
  streamWrite 8 record.header.lsn.toNat ++ (streamWrite 4 record.header.type.toNat ++
    (streamWrite 8 record.header.txnId.toNat ++ (streamWrite 8 record.header.checksum.toNat ++
      (streamWrite 4 record.header.dataSize.toNat ++ writeByteArray record.data))))

def readWalTuple (tuple : Bytes) : WALRecord :=
  let lsn := streamRead 8 tuple
  let type := streamRead 4 lsn.2
  let txnId := streamRead 8 type.2
  let checksum := streamRead 8 txnId.2
  let dataSize := streamRead 4 checksum.2
  { header :=
      { type := .ofNat type.1, dataSize := .ofNat dataSize.1, txnId := .ofNat txnId.1,
        lsn := .ofNat lsn.1, checksum := .ofNat checksum.1 }
    data := (readByteArray dataSize.2).1 }

/-- A record without its reserved bytes, which nothing sets. -/
def WALRecord.plain (record : WALRecord) : WALRecord :=
  { record with header := { record.header with reserved1 := 0, reserved2 := 0 } }

theorem readWalTuple_walTuple {record : WALRecord} (short : record.data.length < 2 ^ 32 - 1) :
    readWalTuple (walTuple record) = record.plain := by
  have lsn := streamRead_write (w := 8) record.header.lsn.toNat_lt
  have type := streamRead_write (w := 4) (lt_of_lt_of_le record.header.type.toNat_lt (by decide))
  have txnId := streamRead_write (w := 8) record.header.txnId.toNat_lt
  have checksum := streamRead_write (w := 8)
    (lt_of_lt_of_le record.header.checksum.toNat_lt (by decide))
  have dataSize := streamRead_write (w := 4)
    (lt_of_lt_of_le record.header.dataSize.toNat_lt (by decide))
  simp only [readWalTuple, walTuple, lsn, type, txnId, checksum, dataSize,
    readByteArray_write short, UInt64.ofNat_toNat, UInt32.ofNat_toNat, UInt16.ofNat_toNat,
    UInt8.ofNat_toNat, WALRecord.plain]

def metaTuple (key : QString) (value : UInt64) : Bytes := key.write ++ streamWrite 8 value.toNat

def metaKey (tuple : Bytes) : QString := (QString.utf16.readText tuple).1

def metaValue (tuple : Bytes) : UInt64 := .ofNat (streamRead 8 (QString.utf16.readText tuple).2).1

theorem metaKey_metaTuple (key : QString) (value : UInt64) : metaKey (metaTuple key value) = key :=
  congrArg Prod.fst (QString.utf16.readText_write key (streamWrite 8 value.toNat))

theorem metaValue_metaTuple (key : QString) (value : UInt64) :
    metaValue (metaTuple key value) = value := by
  have text : QString.utf16.readText (metaTuple key value) = (key, streamWrite 8 value.toNat) :=
    QString.utf16.readText_write key (streamWrite 8 value.toNat)
  have number := streamRead_write (w := 8) value.toNat_lt []
  rw [List.append_nil] at number
  rw [metaValue, text, number, UInt64.ofNat_toNat]

/-! ## The backend -/

/-- The backend object over the pages of a buffer pool; page `k` is entry `k - 1`. New pages
can always be allocated, and existing ones fetched. -/
structure WalDbBackend where
  pool : List RawPage
  sysWalLogsFirstPage : PageId
  sysWalMetaFirstPage : PageId

namespace WalDbBackend

def fetchPage (backend : WalDbBackend) (pageId : PageId) : Option RawPage :=
  if pageId = INVALID_PAGE_ID then none else backend.pool[pageId - 1]?

def writePage (backend : WalDbBackend) (pageId : PageId) (page : RawPage) : WalDbBackend :=
  { backend with pool := backend.pool.set (pageId - 1) page }

def writeRecord (backend : WalDbBackend) (record : WALRecord) : Bool × WalDbBackend :=
  match backend.fetchPage backend.sysWalLogsFirstPage with
  | none => (false, backend)
  | some page =>
      match page.insertTuple (walTuple record) with
      | none => (false, backend)
      | some page' => (true, backend.writePage backend.sysWalLogsFirstPage page')

def readAllRecords (backend : WalDbBackend) : Option (List WALRecord) :=
  (backend.fetchPage backend.sysWalLogsFirstPage).map fun page => page.tuples.map readWalTuple

/-- The value of the first tuple with this name, zero when there is none. -/
def getMetaValue (backend : WalDbBackend) (key : QString) : Option UInt64 :=
  (backend.fetchPage backend.sysWalMetaFirstPage).map fun page =>
    match page.tuples.find? fun tuple => metaKey tuple = key with
    | none => 0
    | some tuple => metaValue tuple

/-- The slot of the first tuple with this name. -/
def existingSlot (page : RawPage) (key : QString) : Option Nat :=
  page.slots.findIdx? fun slot => (page.tupleAt slot).any fun tuple => metaKey tuple = key

/-- Delete the old tuple, which may be refused, and insert the new one. -/
def setMetaValue (backend : WalDbBackend) (key : QString) (value : UInt64) : Bool × WalDbBackend :=
  match backend.fetchPage backend.sysWalMetaFirstPage with
  | none => (false, backend)
  | some page =>
      let page :=
        match existingSlot page key with
        | none => page
        | some slotIndex => (page.deleteRecord slotIndex 1).getD page
      match page.insertTuple (metaTuple key value) with
      | none => (false, backend.writePage backend.sysWalMetaFirstPage page)
      | some page' => (true, backend.writePage backend.sysWalMetaFirstPage page')

/-- The name `current_lsn`. -/
def CURRENT_LSN : QString := ⟨[99, 117, 114, 114, 101, 110, 116, 95, 108, 115, 110], by decide⟩

/-- Whether page four of at least five is a table page. -/
def systemTablesExist (pool : List RawPage) : Bool :=
  decide (5 ≤ pool.length) && (pool[3]?).any (·.isTablePage)

/-- A page of the pool as it is handed out. -/
def newPage : RawPage := RawPage.formatted ⟨false, [], 0, fun _ => 0⟩

def createSystemTables (pool : List RawPage) : Bool × WalDbBackend :=
  setMetaValue ⟨pool ++ [newPage, newPage], pool.length + 1, pool.length + 2⟩ CURRENT_LSN 0

/-- A new backend object over these pages. Tables that exist are left where they are, and the
backend does not note their pages. -/
def initializeBackend (pool : List RawPage) : Bool × WalDbBackend :=
  if systemTablesExist pool then (true, ⟨pool, INVALID_PAGE_ID, INVALID_PAGE_ID⟩)
  else createSystemTables pool

/-! ## Runs -/

inductive Op where
  | write (record : WALRecord)
  | readAll
  | set (key : QString) (value : UInt64)
  | get (key : QString)
  /-- A new backend object over the same buffer pool. -/
  | recreate

inductive Answer where
  | done (success : Bool)
  | records (found : Option (List WALRecord))
  | value (found : Option UInt64)
  deriving DecidableEq

def step (backend : WalDbBackend) : Op → Option (Answer × WalDbBackend)
  | .write record => some (.done (backend.writeRecord record).1, (backend.writeRecord record).2)
  | .readAll => some (.records backend.readAllRecords, backend)
  | .set key value =>
      some (.done (backend.setMetaValue key value).1, (backend.setMetaValue key value).2)
  | .get key => some (.value (backend.getMetaValue key), backend)
  | .recreate =>
      some (.done (initializeBackend backend.pool).1, (initializeBackend backend.pool).2)

/-- What the backend is for: a log that only grows, and named values. -/
structure Spec where
  log : List WALRecord
  named : QString → Option UInt64

def Spec.step (spec : Spec) : Op → Answer × Spec
  | .write record => (.done true, { spec with log := spec.log ++ [record.plain] })
  | .readAll => (.records (some spec.log), spec)
  | .set key value =>
      (.done true, { spec with named := Function.update spec.named key (some value) })
  | .get key => (.value (some ((spec.named key).getD 0)), spec)
  | .recreate => (.done true, spec)

/-- What an operation needs: room in its page, a name that is new, and no re-creation. -/
def Ready (backend : WalDbBackend) : Op → Bool
  | .write record => (backend.fetchPage backend.sysWalLogsFirstPage).any fun page =>
      decide (page.HasRoom (walTuple record).length)
  | .set key value => (backend.fetchPage backend.sysWalMetaFirstPage).any fun page =>
      page.tuples.all (fun tuple => metaKey tuple ≠ key) &&
        decide (page.HasRoom (metaTuple key value).length)
  | .recreate => false
  | _ => true

/-- The pages hold the log and the named values of the specification. -/
structure Represents (backend : WalDbBackend) (spec : Spec) : Prop where
  distinct : backend.sysWalLogsFirstPage ≠ backend.sysWalMetaFirstPage
  logs : ∃ (page : RawPage) (written : List WALRecord),
    backend.fetchPage backend.sysWalLogsFirstPage = some page ∧
    page.Stores (written.map walTuple) ∧ written.map WALRecord.plain = spec.log ∧
    ∀ record ∈ written, record.data.length < 2 ^ 32 - 1
  metas : ∃ (page : RawPage) (entries : List (QString × UInt64)),
    backend.fetchPage backend.sysWalMetaFirstPage = some page ∧
    page.Stores (entries.map fun entry => metaTuple entry.1 entry.2) ∧
    ∀ key, spec.named key = (entries.find? fun entry => entry.1 = key).map Prod.snd

section Pool

variable {backend : WalDbBackend} {pageId other : PageId} {page page' : RawPage}

theorem fetchPage_eq_some (found : backend.fetchPage pageId = some page) :
    pageId ≠ INVALID_PAGE_ID ∧ pageId - 1 < backend.pool.length := by
  rw [fetchPage] at found
  split at found
  · cases found
  · rename_i valid
    exact ⟨valid, (List.getElem?_eq_some_iff.mp found).1⟩

theorem fetchPage_writePage (found : backend.fetchPage pageId = some page) :
    (backend.writePage pageId page').fetchPage pageId = some page' := by
  obtain ⟨valid, inside⟩ := fetchPage_eq_some found
  rw [fetchPage, if_neg valid, writePage]
  exact List.getElem?_set_self inside

theorem fetchPage_writePage_of_ne (found : backend.fetchPage pageId = some page)
    (apart : other ≠ pageId) :
    (backend.writePage pageId page').fetchPage other = backend.fetchPage other := by
  obtain ⟨valid, -⟩ := fetchPage_eq_some found
  simp only [fetchPage, writePage]
  split
  · rfl
  · rename_i otherValid
    refine List.getElem?_set_ne fun same => apart ?_
    exact (Nat.pred_inj (Nat.pos_of_ne_zero valid) (Nat.pos_of_ne_zero otherValid) same).symm

end Pool

theorem length_walTuple (record : WALRecord) :
    (walTuple record).length = 36 + record.data.length := by
  simp only [walTuple, writeByteArray, List.length_append, length_streamWrite]
  omega

theorem walTuple_ne_nil (record : WALRecord) : walTuple record ≠ [] := by
  intro empty
  have := congrArg List.length empty
  rw [length_walTuple, List.length_nil] at this
  omega

theorem metaTuple_ne_nil (key : QString) (value : UInt64) : metaTuple key value ≠ [] := by
  intro empty
  have := congrArg List.length empty
  rw [metaTuple, List.length_append, length_streamWrite, List.length_nil] at this
  omega

theorem short_of_room {page : RawPage} {record : WALRecord} {contents : List Bytes}
    (stores : page.Stores contents) (room : page.HasRoom (walTuple record).length) : record.data.length < 2 ^ 32 - 1 := by
  have bounded := stores.bounded
  rw [RawPage.HasRoom, length_walTuple] at room
  simp only [PAGE_SIZE] at bounded
  omega

theorem existingSlot_eq_none {page : RawPage} {key : QString}
    (fresh : ∀ tuple ∈ page.tuples, metaKey tuple ≠ key) : existingSlot page key = none := by
  refine List.findIdx?_eq_none_iff.mpr fun slot member => ?_
  cases shown : page.tupleAt slot with
  | none => rfl
  | some tuple => exact decide_eq_false (fresh tuple (List.mem_filterMap.mpr ⟨slot, member, shown⟩))

/-- A name that is new is found behind the older entries. -/
theorem named_append {named : QString → Option UInt64} {entries : List (QString × UInt64)}
    {key : QString} {value : UInt64}
    (represented : ∀ other, named other = (entries.find? fun entry => entry.1 = other).map Prod.snd)
    (fresh : ∀ tuple ∈ entries.map fun entry => metaTuple entry.1 entry.2, metaKey tuple ≠ key)
    (other : QString) :
    Function.update named key (some value) other =
      ((entries ++ [(key, value)]).find? fun entry => entry.1 = other).map Prod.snd := by
  rw [List.find?_append, List.find?_singleton]
  by_cases same : other = key
  · subst same
    have absent : entries.find? (fun entry => entry.1 = other) = none := by
      refine List.find?_eq_none.mpr fun entry member => ?_
      have := fresh _ (List.mem_map_of_mem member)
      rw [metaKey_metaTuple] at this
      simpa using this
    simp [absent]
  · have apart : ¬ key = other := fun equal => same equal.symm
    simp [represented other, same, apart]

section Steps

variable {backend : WalDbBackend} {spec : Spec}

theorem Represents.readAllRecords (represents : Represents backend spec) :
    backend.readAllRecords = some spec.log := by
  obtain ⟨page, written, found, stores, log, short⟩ := represents.logs
  rw [WalDbBackend.readAllRecords, found, Option.map_some, stores.tuples, ← log, List.map_map]
  exact congrArg some (List.map_congr_left fun record member =>
    readWalTuple_walTuple (short record member))

theorem Represents.getMetaValue (represents : Represents backend spec) (key : QString) :
    backend.getMetaValue key = some ((spec.named key).getD 0) := by
  obtain ⟨page, entries, found, stores, named⟩ := represents.metas
  have first : (entries.map fun entry => metaTuple entry.1 entry.2).find?
      (fun tuple => metaKey tuple = key) =
        (entries.find? fun entry => entry.1 = key).map fun entry => metaTuple entry.1 entry.2 := by
    rw [List.find?_map]
    simp only [Function.comp_def, metaKey_metaTuple]
  rw [WalDbBackend.getMetaValue, found, Option.map_some, stores.tuples, first, named]
  cases entries.find? fun entry => entry.1 = key with
  | none => rfl
  | some entry => exact congrArg some (metaValue_metaTuple entry.1 entry.2)

theorem Represents.writeRecord (represents : Represents backend spec) {record : WALRecord}
    (ready : backend.Ready (.write record) = true) :
    (backend.writeRecord record).1 = true ∧
      Represents (backend.writeRecord record).2
        { spec with log := spec.log ++ [record.plain] } := by
  obtain ⟨page, written, found, stores, log, short⟩ := represents.logs
  obtain ⟨metas, entries, named⟩ := represents.metas
  simp only [Ready, found, Option.any_some, decide_eq_true_eq] at ready
  obtain ⟨page', inserted, stores', -⟩ := stores.insertTuple (walTuple_ne_nil record) ready
  simp only [WalDbBackend.writeRecord, found, inserted, true_and]
  refine ⟨represents.distinct, ⟨page', written ++ [record], fetchPage_writePage found, ?_, ?_, ?_⟩,
    metas, entries, ?_⟩
  · rw [List.map_append]
    exact stores'
  · rw [List.map_append, log]
    rfl
  · intro other member
    rcases List.mem_append.mp member with old | new
    · exact short other old
    · rw [List.mem_singleton.mp new]
      exact short_of_room stores ready
  · refine ⟨(fetchPage_writePage_of_ne found represents.distinct.symm).trans named.1, named.2⟩

theorem Represents.setMetaValue (represents : Represents backend spec) {key : QString}
    {value : UInt64} (ready : backend.Ready (.set key value) = true) :
    (backend.setMetaValue key value).1 = true ∧
      Represents (backend.setMetaValue key value).2
        { spec with named := Function.update spec.named key (some value) } := by
  obtain ⟨page, entries, found, stores, named⟩ := represents.metas
  obtain ⟨logs, written, log⟩ := represents.logs
  simp only [Ready, found, Option.any_some, Bool.and_eq_true, List.all_eq_true,
    decide_eq_true_eq] at ready
  obtain ⟨fresh, room⟩ := ready
  obtain ⟨page', inserted, stores', -⟩ := stores.insertTuple (metaTuple_ne_nil key value) room
  simp only [WalDbBackend.setMetaValue, found, existingSlot_eq_none fresh, inserted, true_and]
  rw [stores.tuples] at fresh
  refine ⟨represents.distinct, ⟨logs, written, ?_, log.2⟩,
    page', entries ++ [(key, value)], fetchPage_writePage found, ?_, fun other => ?_⟩
  · exact (fetchPage_writePage_of_ne found represents.distinct).trans log.1
  · rw [List.map_append]
    exact stores'
  · exact named_append named fresh other

theorem represents_step (represents : Represents backend spec) (op : Op)
    (ready : backend.Ready op = true) :
    ∃ backend', backend.step op = some ((spec.step op).1, backend') ∧
      Represents backend' (spec.step op).2 := by
  cases op with
  | write record =>
    obtain ⟨done, after⟩ := represents.writeRecord ready
    exact ⟨_, by rw [step, done]; rfl, after⟩
  | readAll => exact ⟨backend, by rw [step, represents.readAllRecords]; rfl, represents⟩
  | set key value =>
    obtain ⟨done, after⟩ := represents.setMetaValue ready
    exact ⟨_, by rw [step, done]; rfl, after⟩
  | get key => exact ⟨backend, by rw [step, represents.getMetaValue]; rfl, represents⟩
  | recreate => cases ready

end Steps

/-! ## The system tables -/

/-- The specification of a new backend: nothing is logged, and `current_lsn` is zero. -/
def Spec.created : Spec where
  log := []
  named := Function.update (fun _ => none) CURRENT_LSN (some 0)

theorem represents_newPages (pool : List RawPage) :
    Represents ⟨pool ++ [newPage, newPage], pool.length + 1, pool.length + 2⟩
      ⟨[], fun _ => none⟩ where
  distinct := by
    change pool.length + 1 ≠ pool.length + 2
    omega
  logs := ⟨newPage, [], by simp [fetchPage, INVALID_PAGE_ID], .formatted _, rfl, by simp⟩
  metas := ⟨newPage, [], by simp [fetchPage, INVALID_PAGE_ID], .formatted _, fun _ => rfl⟩

theorem createSystemTables_represents (pool : List RawPage) :
    (createSystemTables pool).1 = true ∧
      Represents (createSystemTables pool).2 Spec.created := by
  refine (represents_newPages pool).setMetaValue ?_
  have found : fetchPage ⟨pool ++ [newPage, newPage], pool.length + 1, pool.length + 2⟩
      (pool.length + 2) = some newPage := by
    simp [fetchPage, INVALID_PAGE_ID]
  rw [Ready, found]
  decide

/-- A backend that creates its tables answers as a log and a table of names in every run in which
no page is full, no name is set twice and the backend is not created again. -/
theorem walBackend_run (pool : List RawPage) (ops : List Op)
    (unused : systemTablesExist pool = false)
    (ready : Run.Meets step (fun backend op => backend.Ready op = true)
      (initializeBackend pool).2 ops) :
    (initializeBackend pool).1 = true ∧
      ∃ backend, Run.run step (initializeBackend pool).2 ops =
        some ((Run.specRun Spec.step Spec.created ops).1, backend) := by
  have created : initializeBackend pool = createSystemTables pool := by
    rw [initializeBackend, unused]
    rfl
  rw [created] at ready ⊢
  obtain ⟨done, represents⟩ := createSystemTables_represents pool
  obtain ⟨backend, returned, -⟩ := Run.run_simulates (R := Represents)
    (fun _ _ op represents ready => represents_step represents op ready) ops _ _ represents ready
  exact ⟨done, backend, returned⟩

/-- A record and a new name, both read back. -/
theorem walBackend_run_two :
    systemTablesExist [] = false ∧
      (initializeBackend []).1 = true ∧
      ∃ backend, Run.run step (initializeBackend []).2
          [.write (.new .BEGIN_TXN 1), .set ⟨[107], by decide⟩ 3, .readAll, .get ⟨[107], by decide⟩] =
        some ([.done true, .done true, .records (some [.new .BEGIN_TXN 1]), .value (some 3)],
          backend) := by
  refine ⟨rfl, ?_⟩
  have run := walBackend_run []
    [.write (.new .BEGIN_TXN 1), .set ⟨[107], by decide⟩ 3, .readAll, .get ⟨[107], by decide⟩]
    rfl (by decide +kernel)
  exact run

/-- A name that is set again keeps its old value. A page takes one record of 5000 bytes but not
two. A backend created again over two pages starts with an empty log; over five pages it can
neither read nor write. -/
theorem walBackend_forgets :
    ((Run.run step (initializeBackend []).2 [.set CURRENT_LSN 5, .get CURRENT_LSN]).map Prod.fst =
      some [.done true, .value (some 0)]) ∧
    ((Run.run step (initializeBackend []).2
        (.replicate 2 (.write ⟨{ type := 1, txnId := 1, dataSize := 5000 },
          .replicate 5000 0⟩))).map Prod.fst = some [.done true, .done false]) ∧
    ((Run.run step (initializeBackend []).2 [.write (.new .BEGIN_TXN 1), .recreate, .readAll]).map
        Prod.fst = some [.done true, .done true, .records (some [])]) ∧
    ((Run.run step (initializeBackend [newPage, newPage, newPage]).2
        [.write (.new .BEGIN_TXN 1), .recreate, .readAll, .write (.new .BEGIN_TXN 2)]).map Prod.fst =
      some [.done true, .done true, .records none, .done false]) := by
  decide +kernel

end WalDbBackend

end QinDB.Storage
