/-
# Server.DatabaseFiles — the files a database name leads to

The database manager keeps each database in a directory of its name below the data directory, and
loads a database when its name is first used. Names come from the client: AUTH_REQUEST asks
whether the database exists, before the password is looked at, and DATABASE_SWITCH loads it.
Neither looks at what the name contains, so the name is resolved like any other path.

* `accessed_inside_iff`: every path that the server tests or opens for such a message lies strictly
  inside the data directory, if and only if the name, resolved from the data directory, does not
  leave it, or is one the server does not look for on disk.
* `accessed_outside`: the name `../qindb-backup` leaves it, with and without a password.
-/
import QinDB.Base.Path
import QinDB.Server.ClientConnection

namespace QinDB.Server

open QinDB.Base.Path QinDB.Storage

set_option autoImplicit false

/-- Where databases are kept, and how the files of a database turn out to be. -/
structure DataFiles where
  dataDir : Identifier
  dataDirGiven : dataDir ≠ []
  catalogFilePath : Identifier
  catalogFileName : PlainName catalogFilePath
  walFilePath : Identifier
  walFileName : PlainName walFilePath
  isCatalogUseFile : Bool
  isWalUseFile : Bool
  /-- `QFile::exists` -/
  fileExists : Identifier → Bool
  /-- Whether the catalog of a database can be read, its permission table set up, its log opened. -/
  catalogLoads : Identifier → Bool
  permissionsStart : Identifier → Bool
  walStarts : Identifier → Bool

namespace DataFiles

variable (files : DataFiles)

def getDatabasePath (dbName : Identifier) : Identifier := files.dataDir ++ '/' :: dbName

/-- A file in the directory of a database. -/
def fileOf (dbName fileName : Identifier) : Identifier :=
  files.getDatabasePath dbName ++ '/' :: fileName

/-- The answer, and the paths that were looked at. -/
def databaseExists (loaded : Identifier → Bool) (dbName : Identifier) :
    Bool × List Identifier :=
  if loaded dbName then (true, [])
  else
    let catalogPath := files.fileOf dbName "catalog.json".toList
    (files.fileExists catalogPath, [catalogPath])

/-- Opening the log, and reading it for recovery. -/
def openWal (dbName : Identifier) : List Identifier :=
  if files.isWalUseFile then [files.fileOf dbName files.walFilePath] else []

/-- Reading the catalog. -/
def openCatalog (dbName : Identifier) : List Identifier :=
  if files.isCatalogUseFile then [files.fileOf dbName files.catalogFilePath] else []

def loadDatabase (loaded : Identifier → Bool) (dbName : Identifier) : Bool × List Identifier :=
  if loaded dbName then (true, [])
  else
    let dataFilePath := files.fileOf dbName "qindb.db".toList
    if !files.fileExists dataFilePath then (false, [dataFilePath])
    else if !files.catalogLoads dbName then (false, dataFilePath :: files.openCatalog dbName)
    else if !files.permissionsStart dbName then (false, dataFilePath :: files.openCatalog dbName)
    else
      (files.walStarts dbName, dataFilePath :: (files.openCatalog dbName ++ files.openWal dbName))

def useDatabase (loaded : Identifier → Bool) (dbName : Identifier) : Bool × List Identifier :=
  if loaded dbName then (true, []) else files.loadDatabase loaded dbName

variable {V E : Type}

/-- The databases that the server of a connection has open. -/
def loaded (c : ClientConnection V) (dbName : Identifier) : Bool :=
  c.dbManager.isOpen dbName

/-- What `handleAuthRequest` looks at on disk. -/
def accessedByAuth (c : ClientConnection V) : Option AuthRequest → List Identifier
  | none => []
  | some request =>
      if request.protocolVersion ≠ PROTOCOL_VERSION then []
      else if request.username = [] then []
      else if request.password = [] then []
      else if request.database = [] then []
      else (files.databaseExists (loaded c) request.database).2

/-- What `handleDatabaseSwitch` looks at on disk. -/
def accessedBySwitch (c : ClientConnection V) (databaseName : Option Identifier) :
    List Identifier :=
  if !c.isAuthenticated then []
  else
    match databaseName with
    | none => []
    | some databaseName => (files.useDatabase (loaded c) databaseName).2

/-- The database that is looked for on disk. -/
def soughtByAuth (c : ClientConnection V) (request : Option AuthRequest) : Option Identifier :=
  (request.filter fun request => decide (request.protocolVersion = PROTOCOL_VERSION ∧
    request.username ≠ [] ∧ request.password ≠ [] ∧ request.database ≠ [] ∧
    loaded c request.database = false)).map AuthRequest.database

def soughtBySwitch (c : ClientConnection V) (databaseName : Option Identifier) :
    Option Identifier :=
  databaseName.filter fun name => decide (c.isAuthenticated = true ∧ loaded c name = false)

/-- The name does not lead out of the data directory. -/
def Stays (cwd : Location) (dbName : Identifier) : Prop :=
  resolve cwd files.dataDir <+: walk (resolve cwd files.dataDir) (components dbName)

/-- All of these paths lie strictly inside the data directory. -/
def AllInside (cwd : Location) (paths : List Identifier) : Prop :=
  ∀ path ∈ paths, Inside (resolve cwd files.dataDir) (resolve cwd path)

variable {files} {cwd : Location}

/-- A file of a database, resolved: the file stands where the name leads. -/
theorem inside_fileOf_iff {dbName fileName : Identifier} (plain : PlainName fileName) :
    Inside (resolve cwd files.dataDir) (resolve cwd (files.fileOf dbName fileName)) ↔
      files.Stays cwd dbName := by
  have nonempty : files.getDatabasePath dbName ≠ [] := by
    rw [getDatabasePath]
    exact List.append_ne_nil_of_right_ne_nil _ (List.cons_ne_nil _ _)
  rw [fileOf, resolve_join cwd nonempty, walk_plain _ plain, getDatabasePath,
    resolve_join cwd files.dataDirGiven]
  exact inside_file_iff

/-- Files of one database are inside together. -/
theorem allInside_iff {dbName first : Identifier} {rest : List Identifier}
    (files_of : ∀ path ∈ first :: rest, ∃ fileName, PlainName fileName ∧
      path = files.fileOf dbName fileName) :
    files.AllInside cwd (first :: rest) ↔ files.Stays cwd dbName := by
  constructor
  · intro inside
    obtain ⟨fileName, plain, rfl⟩ := files_of first List.mem_cons_self
    exact (inside_fileOf_iff plain).mp (inside _ List.mem_cons_self)
  · intro stays path member
    obtain ⟨fileName, plain, rfl⟩ := files_of path member
    exact (inside_fileOf_iff plain).mpr stays

/-- Loading looks at files of the database, at one at least. -/
theorem loadDatabase_files {loaded : Identifier → Bool} {dbName : Identifier}
    (missing : loaded dbName = false) :
    ∃ first rest, (files.loadDatabase loaded dbName).2 = first :: rest ∧
      ∀ path ∈ first :: rest, ∃ fileName, PlainName fileName ∧
        path = files.fileOf dbName fileName := by
  have data : PlainName "qindb.db".toList := by decide
  have catalog : ∀ path ∈ files.openCatalog dbName, ∃ fileName, PlainName fileName ∧
      path = files.fileOf dbName fileName := by
    intro path member
    unfold openCatalog at member
    split at member
    · exact ⟨_, files.catalogFileName, List.mem_singleton.mp member⟩
    · cases member
  have wal : ∀ path ∈ files.openWal dbName, ∃ fileName, PlainName fileName ∧
      path = files.fileOf dbName fileName := by
    intro path member
    unfold openWal at member
    split at member
    · exact ⟨_, files.walFileName, List.mem_singleton.mp member⟩
    · cases member
  have paths : (files.loadDatabase loaded dbName).2 =
        [files.fileOf dbName "qindb.db".toList] ∨
      (files.loadDatabase loaded dbName).2 =
        files.fileOf dbName "qindb.db".toList :: files.openCatalog dbName ∨
      (files.loadDatabase loaded dbName).2 = files.fileOf dbName "qindb.db".toList ::
        (files.openCatalog dbName ++ files.openWal dbName) := by
    unfold loadDatabase
    rw [missing]
    dsimp only
    split
    · rename_i impossible
      cases impossible
    · split
      · exact .inl rfl
      · split
        · exact .inr (.inl rfl)
        · split
          · exact .inr (.inl rfl)
          · exact .inr (.inr rfl)
  rcases paths with paths | paths | paths <;> refine ⟨_, _, paths, fun path member => ?_⟩
  · exact ⟨_, data, List.mem_singleton.mp member⟩
  · rcases List.mem_cons.mp member with rfl | member
    · exact ⟨_, data, rfl⟩
    · exact catalog path member
  · rcases List.mem_cons.mp member with rfl | member
    · exact ⟨_, data, rfl⟩
    · rcases List.mem_append.mp member with member | member
      · exact catalog path member
      · exact wal path member

theorem allInside_nil : files.AllInside cwd [] := fun _ member => by cases member

theorem accessedByAuth_inside_iff (c : ClientConnection V) (request : Option AuthRequest) :
    files.AllInside cwd (files.accessedByAuth c request) ↔
      ∀ name ∈ soughtByAuth c request, files.Stays cwd name := by
  cases request with
  | none => exact iff_of_true allInside_nil fun _ member => by cases member
  | some request =>
    by_cases sought : request.protocolVersion = PROTOCOL_VERSION ∧ request.username ≠ [] ∧
        request.password ≠ [] ∧ request.database ≠ [] ∧ loaded c request.database = false
    · obtain ⟨version, user, password, database, missing⟩ := sought
      have catalog : PlainName "catalog.json".toList := by decide
      have paths : files.accessedByAuth c (some request) =
          [files.fileOf request.database "catalog.json".toList] := by
        simp [accessedByAuth, version, user, password, database, databaseExists, missing]
      have name : soughtByAuth c (some request) = some request.database := by
        simp [soughtByAuth, version, user, password, database, missing]
      rw [paths, name, allInside_iff fun path member =>
        ⟨_, catalog, List.mem_singleton.mp member⟩]
      simp
    · have name : soughtByAuth c (some request) = none := by
        rw [soughtByAuth, Option.filter_some, decide_eq_false sought]
        rfl
      have paths : files.accessedByAuth c (some request) = [] := by
        rw [accessedByAuth]
        split_ifs with version user password database <;> try rfl
        have open_ : loaded c request.database = true :=
          Bool.not_eq_false _ ▸ fun missing => sought
            ⟨not_not.mp version, user, password, database, missing⟩
        rw [databaseExists, if_pos open_]
      rw [paths, name]
      exact iff_of_true allInside_nil fun _ member => by cases member

theorem accessedBySwitch_inside_iff (c : ClientConnection V) (databaseName : Option Identifier) :
    files.AllInside cwd (files.accessedBySwitch c databaseName) ↔
      ∀ name ∈ soughtBySwitch c databaseName, files.Stays cwd name := by
  cases databaseName with
  | none =>
    refine iff_of_true ?_ fun _ member => by cases member
    unfold accessedBySwitch
    split <;> exact allInside_nil
  | some dbName =>
    by_cases sought : c.isAuthenticated = true ∧ loaded c dbName = false
    · obtain ⟨authenticated, missing⟩ := sought
      have paths : files.accessedBySwitch c (some dbName) =
          (files.loadDatabase (loaded c) dbName).2 := by
        simp [accessedBySwitch, authenticated, useDatabase, missing]
      have name : soughtBySwitch c (some dbName) = some dbName := by
        simp [soughtBySwitch, authenticated, missing]
      have looked : ∃ first rest, (files.loadDatabase (loaded c) dbName).2 = first :: rest ∧
          ∀ path ∈ first :: rest, ∃ fileName, PlainName fileName ∧
            path = files.fileOf dbName fileName := loadDatabase_files missing
      obtain ⟨first, rest, split, files_of⟩ := looked
      rw [paths, name, split, allInside_iff files_of]
      simp
    · have name : soughtBySwitch c (some dbName) = none := by
        rw [soughtBySwitch, Option.filter_some, decide_eq_false sought]
        rfl
      have paths : files.accessedBySwitch c (some dbName) = [] := by
        unfold accessedBySwitch
        by_cases authenticated : c.isAuthenticated = true
        · have open_ : loaded c dbName = true :=
            Bool.not_eq_false _ ▸ fun missing => sought ⟨authenticated, missing⟩
          simp [authenticated, useDatabase, open_]
        · simp [authenticated]
      rw [paths, name]
      exact iff_of_true allInside_nil fun _ member => by cases member

variable (files cwd)

/-- For every message, in every state of the server and with any files on disk: what is tested or
opened lies strictly inside the data directory, if and only if the name that is looked for stays in
it. -/
theorem accessed_inside_iff (c : ClientConnection V) (request : Option AuthRequest)
    (databaseName : Option Identifier) :
    (files.AllInside cwd (files.accessedByAuth c request) ↔
        ∀ name ∈ soughtByAuth c request, files.Stays cwd name) ∧
      (files.AllInside cwd (files.accessedBySwitch c databaseName) ↔
        ∀ name ∈ soughtBySwitch c databaseName, files.Stays cwd name) :=
  ⟨accessedByAuth_inside_iff c request, accessedBySwitch_inside_iff c databaseName⟩

/-! ## A name that leaves -/

namespace Literals

def defaults : DataFiles where
  dataDir := "data".toList
  dataDirGiven := by decide
  catalogFilePath := "catalog.json".toList
  catalogFileName := by decide
  walFilePath := "qindb.wal".toList
  walFileName := by decide
  isCatalogUseFile := true
  isWalUseFile := true
  fileExists := fun _ => true
  catalogLoads := fun _ => true
  permissionsStart := fun _ => true
  walStarts := fun _ => true

def home : Location := ["srv".toList, "qindb".toList]

/-- A connection to a server with no open database. -/
def connection (isAuthenticated : Bool) : ClientConnection Unit where
  dbManager := ⟨fun _ => none, [], [], 0, [], [], "data".toList, fun _ => .removed⟩
  nextSessionId := 1
  sessionId := 0
  isAuthenticated := isAuthenticated
  currentDatabase := []
  username := []

def backup : Identifier := "../qindb-backup".toList

/-- A stranger has the server test a path outside, and a client has it open files there. -/
theorem accessed_outside :
    defaults.accessedByAuth (connection false)
          (some ⟨1, "x".toList, "x".toList, backup⟩) =
        ["data/../qindb-backup/catalog.json".toList] ∧
      ¬ defaults.AllInside home (defaults.accessedByAuth (connection false)
        (some ⟨1, "x".toList, "x".toList, backup⟩)) ∧
      defaults.accessedBySwitch (connection true) (some backup) =
        ["data/../qindb-backup/qindb.db".toList, "data/../qindb-backup/catalog.json".toList,
          "data/../qindb-backup/qindb.wal".toList] ∧
      ¬ defaults.AllInside home (defaults.accessedBySwitch (connection true) (some backup)) := by
  have tested : defaults.accessedByAuth (connection false)
      (some ⟨1, "x".toList, "x".toList, backup⟩) =
        ["data/../qindb-backup/catalog.json".toList] := by decide
  have opened : defaults.accessedBySwitch (connection true) (some backup) =
      ["data/../qindb-backup/qindb.db".toList, "data/../qindb-backup/catalog.json".toList,
        "data/../qindb-backup/qindb.wal".toList] := by decide
  refine ⟨tested, fun inside => ?_, opened, fun inside => ?_⟩
  · rw [tested] at inside
    exact absurd (inside _ List.mem_cons_self) (by decide)
  · rw [opened] at inside
    exact absurd (inside _ List.mem_cons_self) (by decide)

end Literals

end DataFiles

end QinDB.Server
