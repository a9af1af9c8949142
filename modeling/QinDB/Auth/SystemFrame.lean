/-
# Auth.SystemFrame — what a change of an account leaves alone

The manager writes the pages of its own table, and may take a page for it. The other
tables of the database stay as they are, and so do the transactions: the calls run in
none.

* `SystemChange`: such a call.
* `updateUser_change`, `alterUserPassword_change`.
-/
import QinDB.Auth.LastAdmin
import QinDB.Auth.PermissionManager
import QinDB.Executor.Frame

namespace QinDB.Auth

open QinDB.Core QinDB.Storage QinDB.Executor

set_option autoImplicit false

section SystemFrame

variable {V : Type} {qt : Variant V} {fields : Fields qt} {name : Identifier}
  {db db' db'' : Database V} {table : TableDef}

/-- The table of this name has changed and nothing else. -/
structure SystemChange (name : Identifier) (db db' : Database V) : Prop where
  elsewhere : Elsewhere name db db'
  txns : db'.txns = db.txns

theorem SystemChange.refl (usable : Usable db) : SystemChange name db db :=
  ⟨.of_same usable rfl rfl rfl, rfl⟩

/-! ## Pages -/

theorem SystemChange.writePage (usable : Usable db) (found : db.getTable name = some table)
    {pageId : PageId} {page : TablePage} (inChain : pageId ∈ db.chain table)
    (onDisk : db.disk pageId = some page) (page' : TablePage) :
    SystemChange name db (db.writePage pageId page') :=
  ⟨.writePage usable found inChain onDisk page', rfl⟩

/-- A free page is in no chain. -/
theorem ne_of_free (usable : Usable db) {pageId p : PageId} {free : List PageId}
    (next : db.freePages = pageId :: free) (member : table ∈ db.tables)
    (inside : p ∈ db.chain table) : p ≠ pageId := by
  rintro rfl
  exact usable.toLayout.fresh (by rw [next]; exact List.mem_cons_self) member inside

/-- A page that is taken and linked nowhere. -/
theorem SystemChange.takePage (usable : Usable db) {pageId : PageId} {free : List PageId}
    (page : TablePage) (next : db.freePages = pageId :: free) :
    SystemChange name db { db.writePage pageId page with freePages := free } where
  elsewhere :=
    { usable := ⟨usable.toLayout.takePage page next, usable.positive⟩
      entry := fun _ _ => rfl
      chain := fun _ _ _ _ => rfl
      disk := fun _ _ _ found' _ inside =>
        Function.update_of_ne (ne_of_free usable next (getTable_mem found').1 inside) _ _ }
  txns := rfl

/-- A page behind any page of the table. -/
theorem SystemChange.linkAfter (usable : Usable db) (found : db.getTable name = some table)
    {pageId newPageId : PageId} {free : List PageId} (page : TablePage)
    (inChain : pageId ∈ db.chain table) (next : db.freePages = newPageId :: free) :
    SystemChange name db (linkAfter table pageId newPageId
      { db.writePage newPageId page with freePages := free }) := by
  have taken := usable.toLayout.takePage page next
  have member := (getTable_mem found).1
  have grown := perm_chain_linkAfter taken member inChain newPageId
  have others : ∀ t ∈ db.tables, t ≠ table → (Auth.linkAfter table pageId newPageId
      { db.writePage newPageId page with freePages := free }).chain t = db.chain t :=
    fun t inside other => chain_linkAfter taken member inside other pageId newPageId
  refine ⟨⟨⟨usable.toLayout.growChain table next rfl rfl (fun p => update_domain ..) others grown,
    usable.positive⟩, fun _ _ => rfl, fun other t different found' => ?_,
    fun other t different found' p inside => ?_⟩, rfl⟩
  · exact others t (getTable_mem found').1 (usable.toLayout.apart found different found').1
  · exact Function.update_of_ne (ne_of_free usable next (getTable_mem found').1 inside) _ _

/-! ## Rows -/

variable (fields) in
theorem reinsertUser_change (usable : Usable db) (found : db.getTable USERS_TABLE = some table)
    (user : UserRecord) {place : FoundUser V} (inChain : place.pageId ∈ db.chain table)
    (onDisk : db.disk place.pageId = some place.page) :
    SystemChange USERS_TABLE db (reinsertUser fields table user place db).2 := by
  -- the old record is deleted by transaction zero, which leaves its page as it is
  simp only [reinsertUser, deleteRecord_invalid, writePage_same onDisk]
  split
  · exact .writePage usable found inChain onDisk _
  · split
    · exact .refl usable
    · rename_i newPageId free next
      split
      · exact .takePage usable .init next
      · exact .linkAfter usable found _ inChain next

variable (fields) in
theorem updateUser_change (usable : Usable db) (user : UserRecord) :
    SystemChange USERS_TABLE db (updateUser fields user db).2 := by
  rw [updateUser]
  cases found : db.getTable USERS_TABLE with
  | none => exact .refl usable
  | some table =>
    simp only
    cases reached : findUser fields table.columns user.username db.disk (db.chain table) with
    | none => exact .refl usable
    | some place =>
      obtain ⟨inChain, onDisk, -⟩ := findUser_some reached
      simp only
      split
      · exact .writePage usable found inChain onDisk _
      · exact reinsertUser_change fields usable found user inChain onDisk

/-! ## The calls -/

variable (fields) in
theorem alterUserPassword_change (usable : Usable db) (username passwordHash : Identifier)
    (now : UInt64) :
    SystemChange USERS_TABLE db (alterUserPassword fields username passwordHash now db).2 := by
  rw [alterUserPassword]
  split
  · exact .refl usable
  · exact updateUser_change fields usable _

end SystemFrame

end QinDB.Auth
