/-
# Server.Registry — the databases of a data directory

The database manager (`database_manager.cpp`) with its files. A database is a directory with
its catalog; after a restart only the current one is loaded, the others when they are used.
`createDatabase` and `dropDatabase` look at the loaded databases only, and the list of
databases is made of the directories that hold a `catalog.json`, which there is only when
catalogs are kept in files.

A name stands for a directory of its own; `Server.DatabaseFiles` is about the names that do
not. What a catalog is does not matter here, so it is any type `T`.

* `registry_expected_iff`: a run of calls treats the existing databases as a set as long as
  it creates and drops no database that exists and is not loaded, and can list them.
* `dropDatabase_consistent_iff`: when a drop leaves the current database and the transaction
  of the session in order, whatever becomes of the directory.
-/
import QinDB.Base.Entries
import QinDB.Base.Run
import QinDB.Storage.Transaction

namespace QinDB.Server

open QinDB.Storage QinDB.Base QinDB.Base.Run

set_option autoImplicit false
set_option linter.unusedSectionVars false

/-- The configuration of the catalogs, and what the manager does to one. -/
structure CatalogMode (T : Type) where
  isCatalogUseFile : Bool
  /-- The configured file name is the one the list of databases looks for. -/
  isCatalogJson : Bool
  emptyCatalog : T
  initializePermissionSystem : T → T

/-- A loaded database. -/
structure OpenDatabase (T V : Type) where
  catalog : T
  transactionManager : TransactionManager V

/-- The directories, with the catalogs as saved last, and `databases.json`. -/
structure DataDirectory (κ T : Type) where
  catalogs : κ → Option T
  currentDatabase : Option κ

/-- The manager. Its map of loaded databases is a list in the order of the names. -/
structure Registry (κ T V : Type) where
  disk : DataDirectory κ T
  databases : List (κ × OpenDatabase T V)
  currentDatabase : Option κ
  currentTransactionId : TransactionId

namespace Registry

variable {κ T V : Type} [DecidableEq κ] [LT κ] [DecidableLT κ]

section Calls

variable (mode : CatalogMode T) (r : Registry κ T V)

def loaded (dbName : κ) : Option (OpenDatabase T V) := Entries.find dbName r.databases

/-- A new name in its place. -/
def insertDatabase (dbName : κ) (db : OpenDatabase T V) :
    List (κ × OpenDatabase T V) → List (κ × OpenDatabase T V)
  | [] => [(dbName, db)]
  | first :: rest =>
      if dbName < first.1 then (dbName, db) :: first :: rest
      else first :: insertDatabase dbName db rest

def saveToDisk : Registry κ T V :=
  { r with disk := { r.disk with currentDatabase := r.currentDatabase } }

/-- A database with a new catalog, in memory and on disk, whatever is there. -/
def initializeDatabase (dbName : κ) : Registry κ T V :=
  let catalog := mode.initializePermissionSystem mode.emptyCatalog
  { r with
    disk := { r.disk with catalogs := Function.update r.disk.catalogs dbName (some catalog) }
    databases := insertDatabase dbName ⟨catalog, .initial⟩ r.databases }

def createDatabase (dbName : κ) (ifNotExists : Bool) : Bool × Registry κ T V :=
  if (r.loaded dbName).isSome then (ifNotExists, r)
  else
    let r := r.initializeDatabase mode dbName
    (true, { r with currentDatabase := r.currentDatabase.or (some dbName) }.saveToDisk)

/-- Loads a database that is on disk. -/
def loadDatabase (dbName : κ) : Option (Registry κ T V) :=
  if (r.loaded dbName).isSome then some r
  else
    match r.disk.catalogs dbName with
    | none => none
    | some catalog => some { r with
        databases := insertDatabase dbName ⟨mode.initializePermissionSystem catalog, .initial⟩
          r.databases }

def useDatabase (dbName : κ) : Bool × Registry κ T V :=
  match r.loadDatabase mode dbName with
  | none => (false, r)
  | some r => (true, { r with currentDatabase := some dbName })

/-- The catalog of a loaded database goes to disk. -/
def closeDatabase (dbName : κ) : Registry κ T V :=
  match r.loaded dbName with
  | none => r
  | some db =>
      { r with disk := { r.disk with
          catalogs := Function.update r.disk.catalogs dbName (some db.catalog) } }

/-- `removed` says whether the directory could be removed. -/
def dropDatabase (removed : Bool) (dbName : κ) (ifExists : Bool) : Bool × Registry κ T V :=
  if (r.loaded dbName).isNone then (ifExists, r)
  else
    let closed := r.closeDatabase dbName
    let r := { closed with databases := Entries.erase dbName closed.databases }
    if !removed then (false, r)
    else
      let r := { r with disk := { r.disk with
        catalogs := Function.update r.disk.catalogs dbName none } }
      let r := if r.currentDatabase = some dbName then
          { r with currentDatabase := r.databases.head?.map Prod.fst }
        else r
      (true, r.saveToDisk)

/-- The destructor closes all databases. -/
def close : DataDirectory κ T :=
  ((r.databases.map Prod.fst).foldl closeDatabase r).saveToDisk.disk

omit r in
/-- The constructor loads the current database. -/
def start (disk : DataDirectory κ T) : Registry κ T V :=
  let r : Registry κ T V := ⟨disk, [], disk.currentDatabase, INVALID_TXN_ID⟩
  match disk.currentDatabase with
  | none => r
  | some dbName => (r.loadDatabase mode dbName).getD r

/-- Which names are listed. -/
def getAllDatabaseNames (dbName : κ) : Bool :=
  (r.disk.catalogs dbName).isSome && mode.isCatalogUseFile && mode.isCatalogJson

end Calls

/-! ## What a drop does -/

section Drop

variable {r : Registry κ T V} {dbName : κ}

theorem dropDatabase_missing {removed ifExists : Bool} (missing : r.loaded dbName = none) :
    r.dropDatabase removed dbName ifExists = (ifExists, r) := by
  rw [dropDatabase, missing, Option.isNone_none, if_pos rfl]

/-- A loaded database is unloaded in any case. -/
theorem dropDatabase_loaded {db : OpenDatabase T V} (found : r.loaded dbName = some db)
    (removed ifExists : Bool) {done : Bool × Registry κ T V}
    (drops : r.dropDatabase removed dbName ifExists = done) :
    done.1 = removed ∧ done.2.databases = Entries.erase dbName r.databases ∧
      done.2.currentTransactionId = r.currentTransactionId ∧
      (done.2.currentDatabase = if removed = true ∧ r.currentDatabase = some dbName then
        (Entries.erase dbName r.databases).head?.map Prod.fst else r.currentDatabase) ∧
      ∀ other, done.2.disk.catalogs other = if other = dbName then
        (if removed then none else some db.catalog) else r.disk.catalogs other := by
  subst drops
  simp only [dropDatabase, closeDatabase, found, Option.isNone_some, Bool.false_eq_true, if_false]
  cases removed with
  | false => simp [Function.update_apply]
  | true =>
    by_cases current : r.currentDatabase = some dbName <;>
      simp +contextual [saveToDisk, current, Function.update_apply]

/-! ## The current database after a drop -/

def CurrentLoaded (r : Registry κ T V) : Prop :=
  ∀ dbName ∈ r.currentDatabase, (r.loaded dbName).isSome

/-- The session has no transaction, or one that is active in this database. -/
def ActiveIn (r : Registry κ T V) (db : Option (OpenDatabase T V)) : Prop :=
  r.currentTransactionId = INVALID_TXN_ID ∨ ∃ found, db = some found ∧
    found.transactionManager.getTransactionState r.currentTransactionId = .ACTIVE

/-- What a drop is to leave: a current database that is loaded, a transaction of it or none, and
nothing changed when it fails. -/
def DropConsistent (r : Registry κ T V) (removed : Bool) (dbName : κ) (ifExists : Bool) : Prop :=
  let done := r.dropDatabase removed dbName ifExists
  done.2.CurrentLoaded ∧ done.2.ActiveIn (done.2.currentDatabase.bind done.2.loaded) ∧
    (done.1 = false → (∀ other, (done.2.loaded other).isSome = (r.loaded other).isSome) ∧
      done.2.currentDatabase = r.currentDatabase)

theorem find_head (databases : List (κ × OpenDatabase T V)) :
    (databases.head?.map Prod.fst).bind (fun next => Entries.find next databases) =
      databases.head?.map Prod.snd := by
  cases databases with
  | nil => rfl
  | cons first rest => simp [Entries.find]

/-- A drop keeps things in order exactly when the directory of a loaded database can be removed
and, if it is the current one, the transaction of the session is none or one that is active in
the database that becomes current; otherwise, when things are in order before. -/
theorem dropDatabase_consistent_iff (removed : Bool) (dbName : κ) (ifExists : Bool) :
    r.DropConsistent removed dbName ifExists ↔
      ((r.loaded dbName).isSome → removed = true) ∧
        if (r.loaded dbName).isSome ∧ r.currentDatabase = some dbName then
          r.ActiveIn ((Entries.erase dbName r.databases).head?.map Prod.snd)
        else r.CurrentLoaded ∧ r.ActiveIn (r.currentDatabase.bind r.loaded) := by
  rcases found : r.loaded dbName with _ | db
  · simp [DropConsistent, dropDatabase_missing found]
  · rw [DropConsistent]
    generalize drops : r.dropDatabase removed dbName ifExists = done
    obtain ⟨result, databases, transaction, current, -⟩ :=
      dropDatabase_loaded found removed ifExists drops
    have loaded_after : ∀ other, done.2.loaded other =
        if other = dbName then none else r.loaded other := by
      intro other
      rw [loaded, databases, Entries.find_erase, loaded]
    cases removed with
    | false =>
      -- The database is no longer loaded, and the drop reports a failure.
      simp only [Option.isSome_some, Bool.false_eq_true, imp_false, not_true, false_and, iff_false]
      rintro ⟨-, -, unchanged⟩
      have same := (unchanged result).1 dbName
      rw [found, loaded_after, if_pos rfl] at same
      cases same
    | true =>
      simp only [result, reduceCtorEq, false_implies, and_true, implies_true, true_and,
        Option.isSome_some, CurrentLoaded, ActiveIn, transaction, current]
      by_cases here : r.currentDatabase = some dbName
      · have first := find_head (Entries.erase dbName r.databases)
        simp only [here, if_true]
        rw [show done.2.loaded = fun next => Entries.find next (Entries.erase dbName r.databases) by
          rw [← databases]; rfl, first]
        refine and_iff_right fun next chosen => ?_
        obtain ⟨entry, head, rfl⟩ := Option.map_eq_some_iff.mp chosen
        rw [head] at first
        exact Option.isSome_of_eq_some first
      · -- The current database is another one, so it stays loaded or not.
        simp only [here, if_false]
        rcases now : r.currentDatabase with _ | name
        · simp
        · have other : name ≠ dbName := by
            rintro rfl
            exact here now
          simp [loaded_after, other]

end Drop

/-- Database 0 is the current one, with a transaction of the session; database 1 is loaded too. -/
def twoDatabases : Registry Nat Unit Unit where
  disk := ⟨fun dbName => if dbName ≤ 1 then some () else none, some 0⟩
  databases := [(0, ⟨(), (TransactionManager.beginTransaction .initial).2⟩), (1, ⟨(), .initial⟩)]
  currentDatabase := some 0
  currentTransactionId := 1

/-- Dropping the current database leaves the session with its transaction in the other one; when
the directory stays, the current database is one that is not loaded. -/
theorem dropDatabase_inconsistent :
    twoDatabases.CurrentLoaded ∧ twoDatabases.ActiveIn (twoDatabases.loaded 0) ∧
      (twoDatabases.dropDatabase true 0 false).2.currentDatabase = some 1 ∧
      (twoDatabases.dropDatabase true 0 false).2.currentTransactionId = 1 ∧
      ¬ twoDatabases.DropConsistent true 0 false ∧
      (twoDatabases.dropDatabase false 0 false).1 = false ∧
      (twoDatabases.dropDatabase false 0 false).2.loaded 0 = none ∧
      (twoDatabases.dropDatabase false 0 false).2.currentDatabase = some 0 ∧
      ¬ twoDatabases.DropConsistent false 0 false := by
  refine ⟨?_, .inr ⟨_, rfl, rfl⟩, rfl, rfl, ?_, rfl, rfl, rfl, ?_⟩
  · rintro dbName ⟨⟩
    rfl
  · rintro ⟨-, invalid | ⟨db, found, active⟩, -⟩
    · cases invalid
    · cases found
      cases active
  · rintro ⟨-, -, unchanged⟩
    cases (unchanged rfl).1 0

/-! ## The existing databases -/

section Existing

variable (mode : CatalogMode T) (r : Registry κ T V)

/-- The catalog of a database that exists. -/
def catalog (dbName : κ) : Option T :=
  ((r.loaded dbName).map OpenDatabase.catalog).or (r.disk.catalogs dbName)

inductive Call (κ : Type) where
  | createDatabase (dbName : κ) (ifNotExists : Bool)
  | dropDatabase (dbName : κ) (ifExists : Bool)
  | useDatabase (dbName : κ)
  | getAllDatabaseNames
  | restart
  deriving DecidableEq, Repr

inductive Answer (κ : Type) where
  | returned (result : Bool)
  | names (listed : κ → Bool)
  | restarted

def perform : Call κ → Answer κ × Registry κ T V
  | .createDatabase dbName ifNotExists =>
      (r.createDatabase mode dbName ifNotExists).map .returned id
  | .dropDatabase dbName ifExists => (r.dropDatabase true dbName ifExists).map .returned id
  | .useDatabase dbName => (r.useDatabase mode dbName).map .returned id
  | .getAllDatabaseNames => (.names (r.getAllDatabaseNames mode), r)
  | .restart => (.restarted, start mode r.close)

/-- What a call is to do to the existing databases. -/
def Expected (call : Call κ) : Prop :=
  let done := r.perform mode call
  match call with
  | .createDatabase dbName ifNotExists =>
      (∀ other, other ≠ dbName → done.2.catalog other = r.catalog other) ∧
        match r.catalog dbName with
        | some catalog => (done.1 = .returned true → ifNotExists = true) ∧
            done.2.catalog dbName = some catalog
        | none => (done.2.catalog dbName).isSome
  | .dropDatabase dbName _ =>
      (∀ other, other ≠ dbName → done.2.catalog other = r.catalog other) ∧
        done.2.catalog dbName = none
  | .getAllDatabaseNames =>
      done.1 = .names fun dbName => (r.catalog dbName).isSome
  | _ => ∀ dbName, (done.2.catalog dbName).isSome = (r.catalog dbName).isSome

/-- A database that exists is created or dropped only when it is loaded, except that creating it
may find a catalog like the new one; and databases are listed only if there is none or their
catalogs are in files of the right name. -/
def Undisturbed : Call κ → Prop
  | .createDatabase dbName ifNotExists => r.loaded dbName = none →
      ∀ catalog ∈ r.disk.catalogs dbName, ifNotExists = true ∧
        catalog = mode.initializePermissionSystem mode.emptyCatalog
  | .dropDatabase dbName _ => r.loaded dbName = none → r.disk.catalogs dbName = none
  | .getAllDatabaseNames => (mode.isCatalogUseFile = true ∧ mode.isCatalogJson = true) ∨
      ∀ dbName, r.disk.catalogs dbName = none
  | _ => True

/-- Every loaded database has its directory. -/
def Backed : Prop := ∀ dbName, (r.loaded dbName).isSome → (r.disk.catalogs dbName).isSome

end Existing

section Steps

variable {mode : CatalogMode T} {r r' : Registry κ T V} {dbName other : κ}

theorem find_insertDatabase {databases : List (κ × OpenDatabase T V)} {db : OpenDatabase T V}
    (new : Entries.find dbName databases = none) :
    Entries.find other (insertDatabase dbName db databases) =
      if other = dbName then some db else Entries.find other databases := by
  induction databases with
  | nil => simp [insertDatabase, Entries.find, eq_comm]
  | cons first rest ih =>
    rw [Entries.find] at new
    split at new
    · cases new
    · rename_i different
      rw [insertDatabase]
      split
      · simp only [Entries.find, eq_comm]
      · rw [Entries.find, ih new, Entries.find]
        by_cases here : other = dbName
        · rw [if_pos here, if_pos here, here, if_neg different]
        · rw [if_neg here, if_neg here]

theorem catalog_of_missing (missing : r.loaded dbName = none) :
    r.catalog dbName = r.disk.catalogs dbName := by
  rw [catalog, missing, Option.map_none, Option.none_or]

theorem catalog_isSome (backed : r.Backed) (dbName : κ) :
    (r.catalog dbName).isSome = (r.disk.catalogs dbName).isSome := by
  rcases found : r.loaded dbName with _ | db
  · rw [catalog_of_missing found]
  · rw [catalog, found, backed dbName (by rw [found]; rfl)]
    rfl

variable (mode) in
/-- A database that is not loaded is made anew. -/
theorem createDatabase_new (missing : r.loaded dbName = none) (ifNotExists : Bool) :
    let created := mode.initializePermissionSystem mode.emptyCatalog
    (r.createDatabase mode dbName ifNotExists).1 = true ∧
      (∀ other, (r.createDatabase mode dbName ifNotExists).2.loaded other =
        if other = dbName then some ⟨created, .initial⟩ else r.loaded other) ∧
      ∀ other, (r.createDatabase mode dbName ifNotExists).2.disk.catalogs other =
        if other = dbName then some created else r.disk.catalogs other := by
  simp only [createDatabase, missing, Option.isSome_none, Bool.false_eq_true, if_false, true_and]
  exact ⟨fun other => find_insertDatabase missing, fun other => Function.update_apply ..⟩

theorem loadDatabase_some (loads : r.loadDatabase mode dbName = some r') :
    r'.disk = r.disk ∧ ((r.loaded dbName).isSome ∨ (r.disk.catalogs dbName).isSome) ∧
      ∀ other, (r'.loaded other).isSome = (decide (other = dbName) || (r.loaded other).isSome) := by
  rw [loadDatabase] at loads
  split at loads
  · rename_i found
    cases loads
    refine ⟨rfl, .inl found, fun other => ?_⟩
    by_cases here : other = dbName
    · simp [here, found]
    · simp [here]
  · rename_i missing
    split at loads
    · cases loads
    · rename_i stored
      cases loads
      refine ⟨rfl, .inr (by rw [stored]; rfl), fun other => ?_⟩
      rw [loaded, find_insertDatabase (by simpa [loaded] using missing)]
      by_cases here : other = dbName
      · simp [here]
      · simp [here, loaded]

theorem Backed.loadDatabase (backed : r.Backed) (loads : r.loadDatabase mode dbName = some r') :
    r'.Backed := by
  obtain ⟨disk, there, now⟩ := loadDatabase_some loads
  intro other found
  rw [now, Bool.or_eq_true, decide_eq_true_eq] at found
  rw [disk]
  rcases found with rfl | found
  · exact there.elim (backed other) id
  · exact backed other found

theorem foldl_closeDatabase (names : List κ) (r : Registry κ T V) :
    (names.foldl closeDatabase r).databases = r.databases ∧
      ∀ dbName, (names.foldl closeDatabase r).disk.catalogs dbName =
        if dbName ∈ names then r.catalog dbName else r.disk.catalogs dbName := by
  induction names generalizing r with
  | nil => exact ⟨rfl, fun _ => rfl⟩
  | cons first names ih =>
    have databases : (r.closeDatabase first).databases = r.databases := by
      rw [closeDatabase]
      split <;> rfl
    have disk : ∀ dbName, (r.closeDatabase first).disk.catalogs dbName =
        if dbName = first then r.catalog dbName else r.disk.catalogs dbName := by
      intro dbName
      rw [closeDatabase]
      split
      · rename_i missing
        split
        · rename_i here
          rw [here, catalog_of_missing missing]
        · rfl
      · rename_i db found
        refine (Function.update_apply ..).trans ?_
        split
        · rename_i here
          rw [here, catalog, found]
          rfl
        · rfl
    have same : ∀ dbName, (r.closeDatabase first).catalog dbName = r.catalog dbName := by
      intro dbName
      rw [catalog, loaded, databases, disk]
      split
      · rw [catalog, ← Option.or_assoc, loaded, Option.or_self]
      · rfl
    obtain ⟨all, later⟩ := ih (r.closeDatabase first)
    refine ⟨all.trans databases, fun dbName => ?_⟩
    rw [List.foldl_cons, later, same, disk]
    by_cases here : dbName = first <;> simp [here]

/-- The destructor leaves all catalogs as they were on disk. -/
theorem catalogs_close (r : Registry κ T V) : r.close.catalogs = r.catalog := by
  funext dbName
  change ((r.databases.map Prod.fst).foldl closeDatabase r).disk.catalogs dbName = _
  rw [(foldl_closeDatabase _ r).2 dbName]
  split
  · rfl
  · rename_i absent
    refine (catalog_of_missing (Option.eq_none_iff_forall_not_mem.mpr fun db found => ?_)).symm
    exact absent (List.mem_map_of_mem (Entries.mem_of_find found))

theorem disk_start (mode : CatalogMode T) (disk : DataDirectory κ T) :
    (start mode disk : Registry κ T V).disk = disk := by
  rw [start]
  split
  · rfl
  · rename_i dbName _
    rcases loads : loadDatabase mode _ dbName with _ | r'
    · rfl
    · exact (loadDatabase_some loads).1

theorem backed_start (mode : CatalogMode T) (disk : DataDirectory κ T) :
    (start mode disk : Registry κ T V).Backed := by
  have nothing : (⟨disk, [], disk.currentDatabase, INVALID_TXN_ID⟩ : Registry κ T V).Backed := by
    rintro dbName ⟨⟩
  rw [start]
  split
  · exact nothing
  · rename_i dbName _
    rcases loads : loadDatabase mode _ dbName with _ | r'
    · exact nothing
    · exact nothing.loadDatabase loads

theorem Backed.perform (backed : r.Backed) (call : Call κ) : (r.perform mode call).2.Backed := by
  cases call with
  | createDatabase dbName ifNotExists =>
    change (r.createDatabase mode dbName ifNotExists).2.Backed
    rcases found : r.loaded dbName with _ | db
    · obtain ⟨-, loaded_after, disk⟩ := createDatabase_new mode found ifNotExists
      intro other
      rw [loaded_after, disk]
      split
      · exact fun _ => rfl
      · exact backed other
    · rwa [createDatabase, found, Option.isSome_some, if_pos rfl]
  | dropDatabase dbName ifExists =>
    change (r.dropDatabase true dbName ifExists).2.Backed
    rcases found : r.loaded dbName with _ | db
    · rwa [dropDatabase_missing found]
    · obtain ⟨-, databases, -, -, disk⟩ := dropDatabase_loaded found true ifExists rfl
      intro other
      rw [loaded, databases, Entries.find_erase, disk]
      split
      · rintro ⟨⟩
      · exact backed other
  | useDatabase dbName =>
    change (r.useDatabase mode dbName).2.Backed
    rw [useDatabase]
    split
    · exact backed
    · rename_i r' loads
      have after : r'.Backed := backed.loadDatabase loads
      exact after
  | getAllDatabaseNames => exact backed
  | restart => exact backed_start mode r.close

/-- A call does what is expected exactly under the condition. -/
theorem expected_iff (backed : r.Backed) (call : Call κ) :
    r.Expected mode call ↔ r.Undisturbed mode call := by
  cases call with
  | createDatabase dbName ifNotExists =>
    change (_ ∧ _) ↔ (r.loaded dbName = none → _)
    rcases found : r.loaded dbName with _ | db
    · obtain ⟨result, loaded_after, disk⟩ := createDatabase_new mode found ifNotExists
      have after : ∀ other, (r.createDatabase mode dbName ifNotExists).2.catalog other =
          if other = dbName then some (mode.initializePermissionSystem mode.emptyCatalog)
          else r.catalog other := by
        intro other
        rw [catalog, loaded_after, disk]
        split <;> rfl
      simp only [perform, Prod.map_snd, Prod.map_fst, id_eq, result, after, if_true,
        catalog_of_missing found, Option.isSome_some, forall_const]
      rw [and_iff_right (fun other different => if_neg different)]
      cases r.disk.catalogs dbName with
      | none => simp
      | some catalog => simp [eq_comm]
    · have stays : r.createDatabase mode dbName ifNotExists = (ifNotExists, r) := by
        rw [createDatabase, found, Option.isSome_some, if_pos rfl]
      simp only [perform, stays, Prod.map_snd, Prod.map_fst, id_eq, reduceCtorEq, false_implies,
        iff_true]
      refine ⟨fun _ _ => trivial, ?_⟩
      rw [catalog, found]
      simp
  | dropDatabase dbName ifExists =>
    change (_ ∧ _) ↔ (r.loaded dbName = none → _)
    rcases found : r.loaded dbName with _ | db
    · simp [perform, dropDatabase_missing found, catalog_of_missing found]
    · obtain ⟨-, databases, -, -, disk⟩ := dropDatabase_loaded found true ifExists rfl
      have after : ∀ other, (r.dropDatabase true dbName ifExists).2.catalog other =
          if other = dbName then none else r.catalog other := by
        intro other
        rw [catalog, loaded, databases, Entries.find_erase, disk]
        split <;> rfl
      simp +contextual [perform, after]
  | useDatabase dbName =>
    refine iff_of_true (fun other => ?_) trivial
    have backed' : (r.perform mode (.useDatabase dbName)).2.Backed := backed.perform _
    rw [catalog_isSome backed', catalog_isSome backed]
    change ((r.useDatabase mode dbName).2.disk.catalogs other).isSome = _
    rw [useDatabase]
    split
    · rfl
    · rename_i loads
      exact congrArg (fun disk => (DataDirectory.catalogs disk other).isSome)
        (loadDatabase_some loads).1
  | restart =>
    refine iff_of_true (fun other => ?_) trivial
    refine (catalog_isSome (backed_start mode r.close) other).trans ?_
    rw [disk_start, catalogs_close]
  | getAllDatabaseNames =>
    simp only [Expected, perform, Undisturbed, Answer.names.injEq, funext_iff, getAllDatabaseNames,
      catalog_isSome backed]
    cases mode.isCatalogUseFile <;> cases mode.isCatalogJson <;> simp

/-- From any data directory, a run of calls treats the existing databases as a set exactly when
it leaves alone what exists and is not loaded. -/
theorem registry_expected_iff (mode : CatalogMode T) (disk : DataDirectory κ T)
    (calls : List (Call κ)) :
    Meets (fun r call => some (perform mode r call)) (Expected mode)
        (start mode disk : Registry κ T V) calls ↔
      Meets (fun r call => some (perform mode r call)) (Undisturbed mode)
        (start mode disk : Registry κ T V) calls := by
  refine meets_iff_of_invariant (fun _ call backed => expected_iff backed call)
    (fun r call answer after backed _ taken => ?_) calls _ (backed_start mode disk)
  have kept : (r.perform mode call).2.Backed := backed.perform call
  rwa [Option.some.inj taken] at kept

end Steps

/-- Catalogs in files of the usual name; the catalog lists the tables. -/
def fileMode : CatalogMode (List Nat) := ⟨true, true, [], id⟩

/-- Databases 0 and 1, each with table 7; database 0 is current. -/
def twoDirectories : DataDirectory Nat (List Nat) :=
  ⟨fun dbName => if dbName ≤ 1 then some [7] else none, some 0⟩

/-- After a start, database 1 is not loaded: creating it returns true without IF NOT EXISTS and
loses its table, dropping it fails, and in database mode nothing is listed. -/
theorem unloaded_database_lost :
    let r : Registry Nat (List Nat) Unit := start fileMode twoDirectories
    r.catalog 1 = some [7] ∧ (r.createDatabase fileMode 1 false).1 = true ∧
      (r.createDatabase fileMode 1 false).2.catalog 1 = some [] ∧
      (r.dropDatabase true 1 false).1 = false ∧
      (r.dropDatabase true 1 false).2.catalog 1 = some [7] ∧
      r.getAllDatabaseNames { fileMode with isCatalogUseFile := false } 0 = false ∧
      ¬ Meets (fun r call => some (perform fileMode r call)) (Expected fileMode) r
        [.createDatabase 1 false] ∧
      ¬ Meets (fun r call => some (perform fileMode r call)) (Expected fileMode) r
        [.dropDatabase 1 false] := by
  refine ⟨rfl, rfl, rfl, rfl, rfl, rfl, ?_, ?_⟩
  · rintro ⟨⟨-, allowed, -⟩, -⟩
    cases allowed rfl
  · rintro ⟨⟨-, gone⟩, -⟩
    cases gone

end Registry

end QinDB.Server
