/-
# Auth.SystemTable — tables that the server itself writes

Accounts and permissions are records of ordinary tables, written by the server and not
by statements: outside of any transaction, with creator zero. The values they hold are
Qt's; `Fields` lists the conversions and what is documented about them.
-/
import QinDB.Executor.Dml

namespace QinDB.Auth

open QinDB.Core QinDB.Storage QinDB.Executor

set_option autoImplicit false

/-! ## Field values -/

/-- The values that the system tables hold, and what Qt documents about them: integers have
the width of their column, and everything is read back as it was written. Times are kept as
the 64 bits of their seconds. A flag is the integer zero or one. -/
structure Fields {V : Type} (qt : Variant V) where
  ofNumber : UInt64 → V
  ofText : Identifier → V
  ofFlag : Bool → V
  ofBool : Bool → V
  toNumber : V → UInt64
  toText : V → Identifier
  toFlag : V → Bool
  toNumber_ofNumber : ∀ number, toNumber (ofNumber number) = number
  toText_ofText : ∀ text, toText (ofText text) = text
  toFlag_ofFlag : ∀ flag, toFlag (ofFlag flag) = flag
  number_notNull : ∀ number, qt.isNull (ofNumber number) = false
  text_notNull : ∀ text, qt.isNull (ofText text) = false
  flag_notNull : ∀ flag, qt.isNull (ofFlag flag) = false
  number_width : ∀ column number, column.type = .BIGINT →
    (qt.write column (ofNumber number)).length = 8
  flag_width : ∀ column flag, column.type = .INT → (qt.write column (ofFlag flag)).length = 4
  number_read : ∀ column number rest, column.type = .BIGINT →
    qt.read column (qt.write column (ofNumber number) ++ rest) = some (ofNumber number, rest)
  text_read : ∀ column text rest, column.type = .VARCHAR →
    qt.read column (qt.write column (ofText text) ++ rest) = some (ofText text, rest)
  flag_read : ∀ column flag rest, column.type = .INT →
    qt.read column (qt.write column (ofFlag flag) ++ rest) = some (ofFlag flag, rest)

section Kept

variable {V : Type} {qt : Variant V}

/-- A value that its column keeps. -/
def Kept (qt : Variant V) (column : ColumnDef) (value : V) : Prop :=
  ∃ bytes, serializeField qt column value = some bytes ∧
    ∀ rest, deserializeField qt column (bytes ++ rest) = some (value, rest)

theorem kept_of_read {column : ColumnDef} {value : V} (notNull : qt.isNull value = false)
    (storable : isStorable column.type = true)
    (read : ∀ rest, qt.read column (qt.write column value ++ rest) = some (value, rest)) :
    Kept qt column value := by
  refine ⟨0 :: qt.write column value, ?_, fun rest => ?_⟩
  · simp [serializeField, notNull, storable]
  · simp [deserializeField, storable, read rest]

variable (fields : Fields qt)

theorem kept_ofNumber (column : ColumnDef) (number : UInt64) (type : column.type = .BIGINT) :
    Kept qt column (fields.ofNumber number) :=
  kept_of_read (fields.number_notNull number) (by rw [type]; rfl)
    fun rest => fields.number_read column number rest type

theorem kept_ofText (column : ColumnDef) (text : Identifier) (type : column.type = .VARCHAR) :
    Kept qt column (fields.ofText text) :=
  kept_of_read (fields.text_notNull text) (by rw [type]; rfl)
    fun rest => fields.text_read column text rest type

theorem fields_back {columns : List ColumnDef} {row : List V}
    (kept : List.Forall₂ (Kept qt) columns row) :
    ∃ data, serializeFields qt columns row = some data ∧
      ∀ rest, deserializeFields qt columns (data ++ rest) = some row := by
  induction kept with
  | nil => exact ⟨[], rfl, fun _ => rfl⟩
  | cons here _ ih =>
    obtain ⟨field, written, read⟩ := here
    obtain ⟨data, later, back⟩ := ih
    refine ⟨field ++ data, ?_, fun rest => ?_⟩
    · rw [serializeFields, written, later]
      rfl
    · rw [deserializeFields, List.append_assoc, read]
      simp only [back rest, Option.map_some]

end Kept

section SystemTable

variable {V : Type} (qt : Variant V)

/-- A column of a row. -/
def cell (row : List V) (index : Nat) : V := row.getD index qt.null

/-! ## Storing a row -/

/-- The first page of a chain that takes the row. -/
def placeRow (columns : List ColumnDef) (rowId : RowId) (row : List V)
    (disk : PageId → Option TablePage) : List PageId → Placement
  | [] => .full
  | pageId :: rest =>
      match disk pageId with
      | none => .unreadable pageId
      | some page =>
          match insertRecord qt columns page rowId row INVALID_TXN_ID with
          | some page' => .placed pageId page'
          | none => placeRow columns rowId row disk rest

/-- `AuthManager::insertUser` and `PermissionManager::insertPermissionRecord` from the point where
the row is made: first fit along the chain, or a new page at its end. -/
def insertSystemRow (table : TableDef) (rowId : RowId) (row : List V) (db : Database V) :
    Bool × Database V :=
  match placeRow qt table.columns rowId row db.disk (db.chain table) with
  | .placed pageId page => (true, db.writePage pageId page)
  | .unreadable _ => (false, db)
  | .full =>
      match db.freePages with
      | [] => (false, db)
      | pageId :: free =>
          match insertRecord qt table.columns .init rowId row INVALID_TXN_ID with
          | some page => (true, (appendPage table pageId free db).writePage pageId page)
          -- the new page stays allocated, outside of every chain
          | none => (false, { db.writePage pageId .init with freePages := free })

variable {qt} {columns : List ColumnDef} {rowId : RowId} {row : List V}

theorem placeRow_placed {disk : PageId → Option TablePage} {pageId : PageId} {page' : TablePage} :
    ∀ {chain : List PageId}, placeRow qt columns rowId row disk chain = .placed pageId page' →
      pageId ∈ chain ∧ ∃ page, disk pageId = some page ∧
        insertRecord qt columns page rowId row INVALID_TXN_ID = some page'
  | [], placed => by cases placed
  | first :: rest, placed => by
      rw [placeRow] at placed
      cases onDisk : disk first with
      | none =>
        rw [onDisk] at placed
        cases placed
      | some page =>
        simp only [onDisk] at placed
        cases inserted : insertRecord qt columns page rowId row INVALID_TXN_ID with
        | some page'' =>
          rw [inserted] at placed
          cases placed
          exact ⟨List.mem_cons_self, page, onDisk, inserted⟩
        | none =>
          rw [inserted] at placed
          obtain ⟨inside, later⟩ := placeRow_placed placed
          exact ⟨List.mem_cons_of_mem first inside, later⟩

end SystemTable

end QinDB.Auth
