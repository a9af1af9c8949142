/-
# Auth.TableSlots — a system table as a bag of slots

The server reads its own tables page by page and slot by slot. `Shows` lists the slots of
a table, in some order: what a reader makes of each slot, it makes of that list.

* `Shows.contents`: what the slots contribute.
* `Shows.setSlot`, `Shows.append`, `Shows.grow`: one slot gets another content, a page gets
  one more slot, the table gets one more page.
* `Shows.insertSystemRow`: a row that is stored is one more slot.
-/
import QinDB.Auth.SystemTable
import QinDB.Executor.Bags

namespace QinDB.Auth

open QinDB.Core QinDB.Storage QinDB.Executor

set_option autoImplicit false

variable {V : Type}

/-- The slots of the pages of a table are `slots`, in some order. -/
structure Shows (name : Identifier) (db : Database V) (table : TableDef) (slots : List Slot) :
    Prop where
  layout : Layout db
  found : db.getTable name = some table
  slots : (chainContents some db.disk (db.chain table)).Perm slots

theorem chainContents_eq {β : Type} (f : Slot → Option β) (disk : PageId → Option TablePage)
    (chain : List PageId) :
    chainContents f disk chain = (chainContents some disk chain).filterMap f := by
  rw [chainContents, chainContents, List.filterMap_flatMap]
  refine List.flatMap_congr fun p _ => ?_
  cases onDisk : disk p with
  | none => simp only [pageContents, onDisk, List.filterMap_nil]
  | some page => simp only [pageContents, onDisk, List.filterMap_some]

namespace Shows

variable {name : Identifier} {db : Database V} {table : TableDef} {slots : List Slot}
  {pageId : PageId} {page : TablePage} {free : List PageId}

theorem member (shows : Shows name db table slots) : table ∈ db.tables :=
  (getTable_mem shows.found).1

theorem contents {β : Type} (shows : Shows name db table slots) (f : Slot → Option β) :
    (chainContents f db.disk (db.chain table)).Perm (slots.filterMap f) := by
  rw [chainContents_eq]
  exact shows.slots.filterMap f

/-- Writing a page that is there touches nothing but its slots. -/
theorem writePage (shows : Shows name db table slots) {page' : TablePage} {slots' : List Slot}
    (onDisk : db.disk pageId = some page)
    (same : (chainContents some (db.writePage pageId page').disk (db.chain table)).Perm slots') :
    Shows name (db.writePage pageId page') table slots' :=
  ⟨shows.layout.writePage onDisk, shows.found, same⟩

theorem setSlot (shows : Shows name db table slots) {index : Nat} {record : Record}
    (inChain : pageId ∈ db.chain table) (onDisk : db.disk pageId = some page)
    (slot : page.slot index = some record) :
    ∃ rest, slots.Perm (some record :: rest) ∧ ∀ content,
      Shows name (db.writePage pageId (page.setSlot index content)) table (content :: rest) := by
  obtain ⟨rest, before, after⟩ := chainContents_setSlot some
    (shows.layout.nodup table shows.member) inChain onDisk slot
  exact ⟨rest, shows.slots.symm.trans before, fun content => shows.writePage onDisk (after content)⟩

theorem append (shows : Shows name db table slots) (inChain : pageId ∈ db.chain table)
    (onDisk : db.disk pageId = some page) (content : Slot) (offset : Nat) :
    Shows name (db.writePage pageId ⟨page.slots ++ [content], offset⟩) table (content :: slots) := by
  have added := chainContents_append some (shows.layout.nodup table shows.member) inChain onDisk
    content offset
  exact shows.writePage onDisk (added.trans (shows.slots.cons content))

/-- The next free page is none of the table's. -/
theorem apart (shows : Shows name db table slots) {p : PageId}
    (next : db.freePages = pageId :: free) (inside : p ∈ db.chain table) : p ≠ pageId := by
  rintro rfl
  exact shows.layout.fresh (by rw [next]; exact List.mem_cons_self) shows.member inside

/-- The table gets a page; its other pages stay. -/
theorem grow (shows : Shows name db table slots) {db' : Database V} (layout : Layout db')
    (tables : db'.tables = db.tables) (chain : (db'.chain table).Perm (pageId :: db.chain table))
    (same : ∀ p ∈ db.chain table, db'.disk p = db.disk p) (onDisk : db'.disk pageId = some page) :
    Shows name db' table (page.slots ++ slots) where
  layout := layout
  found := by
    rw [Database.getTable, tables]
    exact shows.found
  slots := by
    have whole : chainContents some db'.disk (pageId :: db.chain table) =
        page.slots ++ chainContents some db.disk (db.chain table) := by
      rw [chainContents, List.flatMap_cons, pageContents_of_disk onDisk, List.filterMap_some]
      exact congrArg _ (chainContents_congr same)
    exact (chain.flatMap_right _).trans
      ((List.Perm.of_eq whole).trans (shows.slots.append_left _))

theorem appendPage (shows : Shows name db table slots) (next : db.freePages = pageId :: free) :
    Shows name (appendPage table pageId free db) table slots ∧
      (Executor.appendPage table pageId free db).chain table = db.chain table ++ [pageId] := by
  have chain : (Executor.appendPage table pageId free db).chain table =
      db.chain table ++ [pageId] := by
    rw [chain_appendPage shows.layout shows.member shows.member, if_pos rfl]
  have grown : Shows name (Executor.appendPage table pageId free db) table
      (TablePage.init.slots ++ slots) :=
    shows.grow (shows.layout.appendPage shows.member next) rfl
      (chain ▸ List.perm_append_singleton pageId _)
      (fun p inside => Function.update_of_ne (shows.apart next inside) _ _) (Function.update_self ..)
  exact ⟨grown, chain⟩

/-- A page that is taken and linked nowhere. -/
theorem takePage (shows : Shows name db table slots) (page : TablePage)
    (next : db.freePages = pageId :: free) :
    Shows name { db.writePage pageId page with freePages := free } table slots where
  layout := shows.layout.takePage page next
  found := shows.found
  slots := by
    have same : chainContents some (db.writePage pageId page).disk (db.chain table) =
        chainContents some db.disk (db.chain table) :=
      chainContents_congr fun p inside => Function.update_of_ne (shows.apart next inside) _ _
    exact (List.Perm.of_eq same).trans shows.slots

/-- A page of the table that takes a row. -/
theorem insertRecord {qt : Variant V} {rowId : RowId} {row : List V} {page' : TablePage}
    (shows : Shows name db table slots) (inChain : pageId ∈ db.chain table)
    (onDisk : db.disk pageId = some page)
    (inserted : insertRecord qt table.columns page rowId row INVALID_TXN_ID = some page') :
    ∃ header data, serializeRecord qt table.columns rowId row INVALID_TXN_ID = some (header, data) ∧
      Shows name (db.writePage pageId page') table (slotOf header data :: slots) := by
  obtain ⟨header, data, written, content, -⟩ := insertRecord_some inserted
  refine ⟨header, data, written, ?_⟩
  have shape : page' = ⟨page.slots ++ [slotOf header data], page'.freeSpaceOffset⟩ := by
    rw [← content]
  rw [shape]
  exact shows.append inChain onDisk _ _

/-- A row is stored in a slot of its own, or the call fails and the slots stay. -/
theorem insertSystemRow (shows : Shows name db table slots) (qt : Variant V) (rowId : RowId)
    (row : List V) :
    ((insertSystemRow qt table rowId row db).1 = false ∧
      Shows name (Auth.insertSystemRow qt table rowId row db).2 table slots ∧
      (Auth.insertSystemRow qt table rowId row db).2.chain table = db.chain table) ∨
    ∃ header data, (Auth.insertSystemRow qt table rowId row db).1 = true ∧
      serializeRecord qt table.columns rowId row INVALID_TXN_ID = some (header, data) ∧
      Shows name (Auth.insertSystemRow qt table rowId row db).2 table (slotOf header data :: slots) ∧
      ((Auth.insertSystemRow qt table rowId row db).2.chain table).length ≤
        (db.chain table).length + 1 := by
  rw [Auth.insertSystemRow]
  cases placed : placeRow qt table.columns rowId row db.disk (db.chain table) with
  | placed pageId page =>
    obtain ⟨inChain, old, onDisk, inserted⟩ := placeRow_placed placed
    obtain ⟨header, data, written, after⟩ := shows.insertRecord inChain onDisk inserted
    exact .inr ⟨header, data, rfl, written, after, Nat.le_succ _⟩
  | unreadable pageId => exact .inl ⟨rfl, shows, rfl⟩
  | full =>
    simp only
    cases next : db.freePages with
    | nil => exact .inl ⟨rfl, shows, rfl⟩
    | cons pageId free =>
      simp only
      cases inserted : Storage.insertRecord qt table.columns .init rowId row INVALID_TXN_ID with
      | none => exact .inl ⟨rfl, shows.takePage .init next, rfl⟩
      | some page =>
        obtain ⟨extended, chain⟩ := shows.appendPage next
        have inChain : pageId ∈ (Executor.appendPage table pageId free db).chain table := by
          rw [chain]
          exact List.mem_append_right _ (List.mem_singleton_self pageId)
        obtain ⟨header, data, written, after⟩ :=
          extended.insertRecord inChain (Function.update_self ..) inserted
        refine .inr ⟨header, data, rfl, written, after, Nat.le_of_eq ?_⟩
        exact (congrArg List.length chain).trans List.length_append

end Shows

end QinDB.Auth
