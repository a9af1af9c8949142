/-
# Auth.Accounts — the users table as a map

What the records of the users table mean: `Holds` says that the live records are those of
a list of accounts with different names, each in a slot of its own size. Creating an
account appends a record; dropping one marks a record and altering one overwrites it,
provided that the position of the record among the live ones is the number of its slot.

* `Lists.setSlot`, `Lists.add`: what writing a slot and storing a record do to the list of
  the live records, whether or not their names differ.
* `Holds.insertUser`, `Holds.deleteUser`, `Holds.updateUser`: the operations on accounts of
  different names.
-/
import QinDB.Auth.AuthManager
import QinDB.Auth.TableSlots
import QinDB.Base.Keyed
import QinDB.Base.Run

namespace QinDB.Auth

open QinDB.Base QinDB.Core QinDB.Storage QinDB.Executor

set_option autoImplicit false

/-! ## Records of accounts -/

section Records

variable {V : Type} {qt : Variant V}

variable (fields : Fields qt)

theorem userRow_kept (user : UserRecord) :
    List.Forall₂ (Kept qt) usersColumns (userRow fields user) := by
  have number := kept_ofNumber fields
  have text := kept_ofText fields
  have flag : ∀ column b, column.type = .INT → Kept qt column (fields.ofFlag b) :=
    fun column b type => kept_of_read (fields.flag_notNull b) (by rw [type]; rfl)
      fun rest => fields.flag_read column b rest type
  exact .cons (number _ _ rfl) (.cons (text _ _ rfl) (.cons (text _ _ rfl)
    (.cons (number _ _ rfl) (.cons (number _ _ rfl) (.cons (flag _ _ rfl)
      (.cons (flag _ _ rfl) .nil))))))

/-- The size of the record of an account, as long as it is below `2 ^ 16`. -/
def userSize (user : UserRecord) : Nat :=
  RECORD_HEADER_SIZE + ((serializeFields qt usersColumns (userRow fields user)).getD []).length

/-- The bytes of a password hash in its column. -/
def hashWidth (passwordHash : Identifier) : Nat :=
  (qt.write passwordColumn (fields.ofText passwordHash)).length

/-- Only the two texts of an account vary in width. -/
theorem userSize_eq (user : UserRecord) : userSize fields user =
    RECORD_HEADER_SIZE + 39 + (qt.write usernameColumn (fields.ofText user.username)).length +
      hashWidth fields user.passwordHash := by
  have bigint : isStorable .BIGINT = true := rfl
  have int : isStorable .INT = true := rfl
  have username : isStorable usernameColumn.type = true := rfl
  have password : isStorable passwordColumn.type = true := rfl
  simp only [userSize, usersColumns, userRow, serializeFields, serializeField, bigint, int, username,
    password, fields.number_notNull, fields.text_notNull, fields.flag_notNull, if_true,
    Bool.false_eq_true, if_false, Option.map_some, Option.getD_some, List.length_append,
    List.length_cons, List.length_nil, fields.number_width, fields.flag_width, hashWidth]
  omega

@[simp] theorem userOf_userRow (user : UserRecord) : userOf fields (userRow fields user) = user := by
  simp only [userOf, userRow, cell, List.getD_cons_zero, List.getD_cons_succ,
    fields.toNumber_ofNumber, fields.toText_ofText, fields.toFlag_ofFlag]

theorem changedRow_userRow (user changed : UserRecord) (id : changed.id = user.id)
    (username : changed.username = user.username) (createdAt : changed.createdAt = user.createdAt) :
    changedRow fields (userRow fields user) changed = userRow fields changed := by
  simp only [changedRow, userRow, List.set_cons_succ, List.set_cons_zero, id, username, createdAt]

theorem userRow_readsBack {user : UserRecord} (small : userSize fields user < 2 ^ 16) :
    ReadsBack qt usersColumns (userRow fields user) := by
  obtain ⟨data, written, back⟩ := fields_back (userRow_kept fields user)
  rw [userSize, written, Option.getD_some] at small
  refine ⟨data, rfl, written, small, ?_⟩
  have whole := back []
  rw [List.append_nil] at whole
  exact whole

end Records

/-! ## Live records -/

section Live

variable {V : Type} {qt : Variant V} {columns : List ColumnDef}

/-- The slot length and the row of a record that carries no mark. -/
def liveEntry (qt : Variant V) (columns : List ColumnDef) (content : Slot) : Option (Nat × List V) :=
  content.bind fun record =>
    (readSlot qt columns (some record)).bind fun (header, row) =>
      if header.deleteTxnId ≠ INVALID_TXN_ID then none else some (record.length, row)

theorem liveEntry_eq_some {content : Slot} {entry : Nat × List V} :
    liveEntry qt columns content = some entry ↔ ∃ record, content = some record ∧
      record.length = entry.1 ∧ record.header.deleteTxnId = INVALID_TXN_ID ∧
      readSlot qt columns (some record) = some (record.header, entry.2) := by
  obtain ⟨length, row⟩ := entry
  constructor
  · intro live
    obtain ⟨record, rfl, shown⟩ := Option.bind_eq_some_iff.mp live
    obtain ⟨⟨header, row'⟩, read, unmarked⟩ := Option.bind_eq_some_iff.mp shown
    obtain ⟨_, same, rfl, -, -⟩ := readSlot_eq_some.mp read
    cases same
    simp only at unmarked
    split at unmarked
    · cases unmarked
    · rename_i unmarked'
      cases unmarked
      exact ⟨record, rfl, rfl, not_not.mp unmarked', read⟩
  · rintro ⟨record, rfl, rfl, unmarked, read⟩
    simp only [liveEntry, Option.bind_some, read, unmarked, ne_eq, not_true_eq_false, if_false]

theorem liveEntry_marked (record : Record) {txnId : TransactionId} (valid : txnId ≠ INVALID_TXN_ID) :
    liveEntry qt columns (some (marked record txnId)) = none := by
  refine Option.eq_none_iff_forall_ne_some.mpr fun entry live => ?_
  obtain ⟨_, same, -, unmarked, -⟩ := liveEntry_eq_some.mp live
  cases same
  exact valid unmarked

/-- A record that was written and is read back is live. -/
theorem liveEntry_slotOf {row : List V} {header : RecordHeader} {data : Bytes}
    (unmarked : header.deleteTxnId = INVALID_TXN_ID)
    (read : readSlot qt columns (slotOf header data) = some (header, row)) :
    liveEntry qt columns (slotOf header data) = some (recordSize data, row) := by
  obtain ⟨record, content, -, -, -⟩ := readSlot_eq_some.mp read
  obtain ⟨same, length⟩ := slotOf_some content
  refine liveEntry_eq_some.mpr ⟨record, content, length, by rw [same]; exact unmarked, ?_⟩
  rw [← content, read, same]

theorem getUndeletedRecords_eq (page : TablePage) : getUndeletedRecords qt columns page =
    (page.slots.filterMap (liveEntry qt columns)).map Prod.snd := by
  rw [getUndeletedRecords, List.map_filterMap]
  refine List.filterMap_congr fun content _ => ?_
  cases content with
  | none => rfl
  | some record =>
    simp only [liveEntry, Option.bind_some]
    cases readSlot qt columns (some record) with
    | none => rfl
    | some pair =>
      simp only [Option.bind_some]
      split <;> rfl

variable (fields : Fields qt)

/-- The account of a live record. -/
def entryUser (entry : Nat × List V) : Option UserRecord :=
  if entry.2.isEmpty then none else some (userOf fields entry.2)

theorem pageUsers_eq (page : TablePage) : pageUsers fields columns page =
    (page.slots.filterMap (liveEntry qt columns)).filterMap (entryUser fields) := by
  rw [pageUsers, getAllRecords, List.filterMap_filterMap, List.filterMap_filterMap]
  refine List.filterMap_congr fun content _ => ?_
  cases content with
  | none => rfl
  | some record =>
    simp only [liveEntry, Option.bind_some]
    cases readSlot qt columns (some record) with
    | none => rfl
    | some pair =>
      obtain ⟨header, row⟩ := pair
      simp only [Option.bind_some, entryUser]
      by_cases unmarked : header.deleteTxnId = INVALID_TXN_ID
      · simp [unmarked, entryUser]
      · simp [unmarked]

end Live

/-! ## The table as a list of accounts -/

section Holds

variable {V : Type} {qt : Variant V} (fields : Fields qt)

/-- What a slot shows of the record of an account. -/
def stored (user : UserRecord) : Nat × List V := (userSize fields user, userRow fields user)

/-- The live records of the users table are those of the accounts `users`; several of them may have
one name. -/
structure Lists (db : Database V) (table : TableDef) (users : List UserRecord) : Prop where
  layout : Layout db
  found : db.getTable USERS_TABLE = some table
  columns : table.columns = usersColumns
  pages : (db.chain table).length ≤ MAX_PAGES
  records : (chainContents (liveEntry qt usersColumns) db.disk (db.chain table)).Perm
    (users.map (stored fields))
  small : ∀ user ∈ users, userSize fields user < 2 ^ 16

/-- The accounts have different names. -/
structure Holds (db : Database V) (table : TableDef) (users : List UserRecord) : Prop extends
    Lists fields db table users where
  distinct : (users.map (·.username)).Nodup

variable {fields} {db : Database V} {table : TableDef} {users : List UserRecord}
  {username : Identifier}

theorem Lists.member (lists : Lists fields db table users) : table ∈ db.tables :=
  (getTable_mem lists.found).1

theorem stored_injective : Function.Injective (stored fields) := by
  intro user other same
  rw [← userOf_userRow fields user, ← userOf_userRow fields other]
  exact congrArg (fun entry => userOf fields entry.2) same

theorem Lists.getAllUsers (lists : Lists fields db table users) :
    (getAllUsers fields db).Perm users := by
  have readable := lists.layout.stored table lists.member
  have whole : (scan db.disk (db.chain table)).flatMap (fun found =>
      pageUsers fields usersColumns found.2) =
        (chainContents (liveEntry qt usersColumns) db.disk (db.chain table)).filterMap
          (entryUser fields) := by
    rw [← scan_flatMap_contents _ _ readable, List.filterMap_flatMap]
    simp only [pageUsers_eq]
  have back : (users.map (stored fields)).filterMap (entryUser fields) = users := by
    rw [List.filterMap_map]
    have each : entryUser fields ∘ stored fields = some := by
      funext user
      exact congrArg some (userOf_userRow fields user)
    rw [each, List.filterMap_some]
  rw [Auth.getAllUsers, lists.found]
  simp only [List.take_of_length_le lists.pages, lists.columns, whole]
  exact (lists.records.filterMap _).trans (.of_eq back)

theorem Holds.getAllUsers (holds : Holds fields db table users) :
    (getAllUsers fields db).Perm users := holds.toLists.getAllUsers

theorem Holds.getUser (holds : Holds fields db table users) (username : Identifier) :
    getUserFromDatabase fields db username = Keyed.find (·.username) users username := by
  have distinct : ((Auth.getAllUsers fields db).map (·.username)).Nodup :=
    (holds.getAllUsers.map _).nodup_iff.mpr holds.distinct
  exact congrFun (Keyed.find_perm distinct holds.getAllUsers) username

/-- A live record of the table is the record of an account. -/
theorem Lists.entry_mem (lists : Lists fields db table users) {pageId : PageId} {page : TablePage}
    {entry : Nat × List V} (inChain : pageId ∈ db.chain table) (onDisk : db.disk pageId = some page)
    (live : entry ∈ page.slots.filterMap (liveEntry qt usersColumns)) :
    ∃ user ∈ users, stored fields user = entry := by
  have inside := mem_chainContents.mpr ⟨pageId, inChain, page, onDisk, live⟩
  exact List.mem_map.mp (lists.records.mem_iff.mp inside)

/-! ### Finding a record -/

theorem findUser_some {columns : List ColumnDef} {disk : PageId → Option TablePage}
    {found : FoundUser V} : ∀ {chain : List PageId},
      findUser fields columns username disk chain = some found →
      found.pageId ∈ chain ∧ disk found.pageId = some found.page ∧
        (∃ length, (length, found.row) ∈ found.page.slots.filterMap (liveEntry qt columns)) ∧
        fields.toText (cell qt found.row 1) = username
  | [], nothing => by cases nothing
  | pageId :: rest, reached => by
      rw [findUser] at reached
      cases onDisk : disk pageId with
      | none => simp only [onDisk, reduceCtorEq] at reached
      | some page =>
        simp only [onDisk] at reached
        cases here : findOnPage fields columns username page with
        | none =>
          simp only [here] at reached
          obtain ⟨inside, later⟩ := findUser_some reached
          exact ⟨List.mem_cons_of_mem pageId inside, later⟩
        | some pair =>
          simp only [here] at reached
          cases reached
          have member := List.mem_of_find?_eq_some here
          have named := List.find?_some here
          have row : pair.1 ∈ getUndeletedRecords qt columns page :=
            List.mem_of_getElem? (List.mem_zipIdx_iff_getElem?.mp member)
          rw [getUndeletedRecords_eq] at row
          obtain ⟨⟨length, _⟩, live, rfl⟩ := List.mem_map.mp row
          simp only [Bool.and_eq_true, decide_eq_true_eq] at named
          exact ⟨List.mem_cons_self, onDisk, ⟨length, live⟩, named.2⟩

theorem findUser_none {columns : List ColumnDef} {disk : PageId → Option TablePage}
    {entry : Nat × List V} (nonempty : entry.2 ≠ []) : ∀ {chain : List PageId},
      (∀ p ∈ chain, disk p ≠ none) → findUser fields columns username disk chain = none →
      entry ∈ chainContents (liveEntry qt columns) disk chain →
      fields.toText (cell qt entry.2 1) ≠ username
  | [], _, _, member => by cases member
  | pageId :: rest, readable, reached, member => by
      obtain ⟨page, onDisk⟩ := Option.ne_none_iff_exists'.mp (readable pageId List.mem_cons_self)
      rw [findUser] at reached
      simp only [onDisk] at reached
      cases here : findOnPage fields columns username page with
      | some pair => simp only [here, reduceCtorEq] at reached
      | none =>
        simp only [here] at reached
        rw [chainContents, List.flatMap_cons] at member
        rcases List.mem_append.mp member with first | later
        · rw [pageContents, onDisk] at first
          have row : entry.2 ∈ getUndeletedRecords qt columns page := by
            rw [getUndeletedRecords_eq]
            exact List.mem_map_of_mem first
          obtain ⟨position, at_⟩ := List.mem_iff_getElem?.mp row
          have absent := List.find?_eq_none.mp here (entry.2, position)
            (List.mem_zipIdx_iff_getElem?.mpr at_)
          simpa [nonempty] using absent
        · exact findUser_none nonempty
            (fun p inside => readable p (List.mem_cons_of_mem pageId inside)) reached later

/-- Whether the slot whose number is the position of the account's record among the live ones
holds a record of that name. -/
def Addressed (fields : Fields qt) (db : Database V) (username : Identifier) : Bool :=
  match db.getTable USERS_TABLE with
  | none => true
  | some table =>
      (findUser fields table.columns username db.disk (db.chain table)).all fun found =>
        (liveEntry qt table.columns (found.page.slot found.position)).any fun entry =>
          decide (fields.toText (cell qt entry.2 1) = username)

theorem toText_userRow (user : UserRecord) :
    fields.toText (cell qt (userRow fields user) 1) = user.username := by
  rw [cell, userRow, List.getD_cons_succ, List.getD_cons_zero, fields.toText_ofText]

theorem Holds.findUser_none (holds : Holds fields db table users)
    (absent : getUserFromDatabase fields db username = none) :
    findUser fields usersColumns username db.disk (db.chain table) = none := by
  rw [holds.getUser, Keyed.find_eq_none_iff] at absent
  cases reached : findUser fields usersColumns username db.disk (db.chain table) with
  | none => rfl
  | some found =>
    obtain ⟨inChain, onDisk, ⟨length, live⟩, named⟩ := findUser_some reached
    obtain ⟨user, member, same⟩ := holds.toLists.entry_mem inChain onDisk live
    have row : userRow fields user = found.row := congrArg Prod.snd same
    rw [← row, toText_userRow] at named
    exact absurd (List.mem_map.mpr ⟨user, member, named⟩) absent

/-- The record of an account is found, and the slot of that number is its own. -/
theorem Holds.addressed (holds : Holds fields db table users)
    (addressed : Addressed fields db username = true) {user : UserRecord}
    (known : getUserFromDatabase fields db username = some user) :
    ∃ found record, findUser fields usersColumns username db.disk (db.chain table) = some found ∧
      found.pageId ∈ db.chain table ∧ db.disk found.pageId = some found.page ∧
      found.row = userRow fields user ∧ found.page.slot found.position = some record ∧
      record.header.deleteTxnId = INVALID_TXN_ID ∧ record.length = userSize fields user ∧
      liveEntry qt usersColumns (some record) = some (stored fields user) := by
  rw [holds.getUser, Keyed.find_eq_some_iff holds.distinct] at known
  obtain ⟨member, rfl⟩ := known
  have only : ∀ other ∈ users, other.username = user.username → other = user := fun other inside same =>
    List.inj_on_of_nodup_map holds.distinct inside member same
  rw [Addressed, holds.found] at addressed
  simp only [holds.columns] at addressed
  cases reached : findUser fields usersColumns user.username db.disk (db.chain table) with
  | none =>
    have here : stored fields user ∈ chainContents (liveEntry qt usersColumns) db.disk
        (db.chain table) := holds.records.mem_iff.mpr (List.mem_map_of_mem member)
    exact absurd (toText_userRow user) (Auth.findUser_none (by simp [stored, userRow])
      (holds.layout.stored table holds.toLists.member) reached here)
  | some found =>
    obtain ⟨inChain, onDisk, ⟨length, live⟩, named⟩ := findUser_some reached
    obtain ⟨other, inside, same⟩ := holds.toLists.entry_mem inChain onDisk live
    have row : userRow fields other = found.row := congrArg Prod.snd same
    rw [← row, toText_userRow] at named
    cases only other inside named
    -- the slot of that number holds a live record of the same name, hence the same record
    rw [reached, Option.all_some] at addressed
    obtain ⟨entry, shown, itsName⟩ := (Option.any_eq_true _ _).mp addressed
    obtain ⟨record, slot, length', unmarked, -⟩ := liveEntry_eq_some.mp shown
    have inPage : entry ∈ found.page.slots.filterMap (liveEntry qt usersColumns) := by
      refine List.mem_filterMap.mpr ⟨some record, ?_, slot ▸ shown⟩
      exact List.mem_of_getElem? (Option.join_eq_some_iff.mp slot)
    obtain ⟨third, inside', same'⟩ := holds.toLists.entry_mem inChain onDisk inPage
    subst same'
    rw [decide_eq_true_eq] at itsName
    cases only third inside' ((toText_userRow third).symm.trans itsName)
    exact ⟨found, record, rfl, inChain, onDisk, row.symm, slot, unmarked, length', slot ▸ shown⟩

/-! ### Writing a record -/

theorem Lists.exists_shows (lists : Lists fields db table users) :
    ∃ slots, Shows USERS_TABLE db table slots ∧
      (slots.filterMap (liveEntry qt usersColumns)).Perm (users.map (stored fields)) :=
  ⟨_, ⟨lists.layout, lists.found, .refl _⟩, chainContents_eq _ _ _ ▸ lists.records⟩

theorem lists_of_shows {slots : List Slot} (shows : Shows USERS_TABLE db table slots)
    (columns : table.columns = usersColumns) (pages : (db.chain table).length ≤ MAX_PAGES)
    (records : (slots.filterMap (liveEntry qt usersColumns)).Perm (users.map (stored fields)))
    (small : ∀ user ∈ users, userSize fields user < 2 ^ 16) : Lists fields db table users where
  layout := shows.layout
  found := shows.found
  columns := columns
  pages := pages
  records := (shows.contents _).trans records
  small := small

/-- One account and the records of the others. -/
theorem exists_user {entry : Nat × List V} {others : List (Nat × List V)}
    (split : (users.map (stored fields)).Perm (entry :: others)) :
    ∃ user rest, stored fields user = entry ∧ users.Perm (user :: rest) ∧
      others.Perm (rest.map (stored fields)) := by
  obtain ⟨user, member, rfl⟩ := List.mem_map.mp (split.mem_iff.mpr List.mem_cons_self)
  have erased := List.perm_cons_erase member
  refine ⟨user, users.erase user, rfl, erased, List.Perm.cons_inv (a := stored fields user) ?_⟩
  exact split.symm.trans (erased.map (stored fields))

/-- A slot of the table shows one account or none, and it may be given another content. -/
theorem Lists.setSlot (lists : Lists fields db table users) {pageId : PageId} {page : TablePage}
    {index : Nat} {record : Record} (inChain : pageId ∈ db.chain table)
    (onDisk : db.disk pageId = some page) (slot : page.slot index = some record) :
    ∃ (old : Option UserRecord) (rest : List UserRecord),
      liveEntry qt usersColumns (some record) = old.map (stored fields) ∧
      users.Perm (old.toList ++ rest) ∧
      ∀ (content : Slot) (new : Option UserRecord),
        liveEntry qt usersColumns content = new.map (stored fields) →
        (∀ user ∈ new, userSize fields user < 2 ^ 16) →
        Lists fields (db.writePage pageId (page.setSlot index content)) table
          (new.toList ++ rest) := by
  obtain ⟨slots, shows, records⟩ := lists.exists_shows
  obtain ⟨others, before, after⟩ := shows.setSlot inChain onDisk slot
  have split := records.symm.trans (before.filterMap (liveEntry qt usersColumns))
  -- the account of the slot, and the others
  obtain ⟨old, rest, shown, perm, same⟩ : ∃ (old : Option UserRecord) (rest : List UserRecord),
      liveEntry qt usersColumns (some record) = old.map (stored fields) ∧
      users.Perm (old.toList ++ rest) ∧
      (others.filterMap (liveEntry qt usersColumns)).Perm (rest.map (stored fields)) := by
    cases live : liveEntry qt usersColumns (some record) with
    | none =>
      rw [List.filterMap_cons_none live] at split
      exact ⟨none, users, rfl, .refl _, split.symm⟩
    | some entry =>
      rw [List.filterMap_cons_some live] at split
      obtain ⟨user, rest, rfl, perm, same⟩ := exists_user split
      exact ⟨some user, rest, rfl, perm, same⟩
  refine ⟨old, rest, shown, perm, fun content new shown small =>
    lists_of_shows (after content) lists.columns lists.pages ?_ ?_⟩
  · cases new with
    | none =>
      rw [List.filterMap_cons_none shown]
      exact same
    | some user =>
      rw [List.filterMap_cons_some shown]
      exact same.cons _
  · intro user member
    rcases List.mem_append.mp member with isNew | inRest
    · exact small user (Option.mem_toList.mp isNew)
    · exact lists.small user (perm.mem_iff.mpr (List.mem_append_right _ inRest))

theorem userRow_slot {user : UserRecord} (small : userSize fields user < 2 ^ 16) (rowId : RowId)
    (txnId : TransactionId) :
    ∃ header data, serializeRecord qt usersColumns rowId (userRow fields user) txnId =
        some (header, data) ∧ recordSize data = userSize fields user ∧
      liveEntry qt usersColumns (slotOf header data) = some (stored fields user) := by
  obtain ⟨header, data, written, -, unmarked, -, -, read⟩ :=
    (userRow_readsBack fields small).serializeRecord rowId txnId
  have size : recordSize data = userSize fields user := by
    rw [userSize, (serializeRecord_some written).2.2.2.2, Option.getD_some] at small ⊢
    exact Nat.mod_eq_of_lt small
  refine ⟨header, data, written, size, ?_⟩
  rw [liveEntry_slotOf unmarked read, size]
  rfl

/-- The slots of the table and one more, with the record of an account. -/
theorem Lists.add (lists : Lists fields db table users) {db' : Database V} {slots : List Slot}
    {user : UserRecord} {rowId : RowId} {header : RecordHeader} {data : Bytes}
    (records : (slots.filterMap (liveEntry qt usersColumns)).Perm (users.map (stored fields)))
    (small : userSize fields user < 2 ^ 16)
    (written : serializeRecord qt table.columns rowId (userRow fields user) INVALID_TXN_ID =
      some (header, data))
    (shows : Shows USERS_TABLE db' table (slotOf header data :: slots))
    (pages : (db'.chain table).length ≤ MAX_PAGES) : Lists fields db' table (user :: users) := by
  obtain ⟨header', data', written', -, shown⟩ := userRow_slot small rowId INVALID_TXN_ID
  rw [lists.columns] at written
  cases written.symm.trans written'
  refine lists_of_shows shows lists.columns pages ?_ ?_
  · rw [List.filterMap_cons_some shown]
    exact records.cons _
  · intro other inside
    rcases List.mem_cons.mp inside with rfl | later
    · exact small
    · exact lists.small other later

/-- The account's record is marked. -/
theorem Holds.deleteUser (holds : Holds fields db table users)
    (addressed : Addressed fields db username = true) {user : UserRecord}
    (known : getUserFromDatabase fields db username = some user) :
    ∃ rest, (deleteUser fields username db).1 = true ∧ users.Perm (user :: rest) ∧
      Holds fields (deleteUser fields username db).2 table rest := by
  obtain ⟨found, record, reached, inChain, onDisk, -, slot, unmarked, -, live⟩ :=
    holds.addressed addressed known
  have mark : deleteRecord found.page found.position 1 =
      some (found.page.setSlot found.position (some (marked record 1))) :=
    deleteRecord_of_unmarked slot unmarked
  obtain ⟨old, rest, shown, perm, after⟩ := holds.toLists.setSlot inChain onDisk slot
  obtain rfl : old = some user := Option.map_injective stored_injective (shown.symm.trans live)
  rw [Auth.deleteUser, holds.found]
  simp only [holds.columns, reached, mark, Option.getD_some]
  refine ⟨rest, trivial, perm, after _ none (liveEntry_marked record (by decide)) ?_, ?_⟩
  · exact fun _ none => nomatch none
  · exact (Keyed.find_remove holds.distinct perm).1

/-- The account's record is overwritten by one that is not larger. -/
theorem Holds.updateUser (holds : Holds fields db table users) {user changed : UserRecord}
    (addressed : Addressed fields db changed.username = true)
    (known : getUserFromDatabase fields db changed.username = some user)
    (id : changed.id = user.id) (createdAt : changed.createdAt = user.createdAt)
    (fits : userSize fields changed ≤ userSize fields user) :
    ∃ rest, (updateUser fields changed db).1 = true ∧ users.Perm (user :: rest) ∧
      Holds fields (updateUser fields changed db).2 table (changed :: rest) := by
  obtain ⟨found, record, reached, inChain, onDisk, row, slot, unmarked, length, live⟩ :=
    holds.addressed addressed known
  rw [holds.getUser, Keyed.find_eq_some_iff holds.distinct] at known
  obtain ⟨member, username⟩ := known
  have small : userSize fields changed < 2 ^ 16 := lt_of_le_of_lt fits (holds.small user member)
  obtain ⟨header, data, written, size, shows⟩ :=
    userRow_slot small record.header.rowId record.header.createTxnId
  have newRow : changedRow fields found.row changed = userRow fields changed := by
    rw [row, changedRow_userRow fields user changed id username.symm createdAt]
  have overwritten := updateRecord_of_fits slot unmarked written (by rw [size, length]; exact fits)
  obtain ⟨old, rest, shown, perm, after⟩ := holds.toLists.setSlot inChain onDisk slot
  obtain rfl : old = some user := Option.map_injective stored_injective (shown.symm.trans live)
  rw [Auth.updateUser, holds.found]
  simp only [holds.columns, reached, newRow, overwritten]
  refine ⟨rest, trivial, perm, after _ (some changed) shows ?_, ?_⟩
  · rintro _ ⟨⟩
    exact small
  · exact (Keyed.find_exchange holds.distinct perm (.refl _) username.symm).1

/-- The record of an account is stored, or the call fails and the accounts stay. -/
theorem Lists.insertUser (lists : Lists fields db table users) (user : UserRecord)
    (small : userSize fields user < 2 ^ 16) (room : (db.chain table).length < MAX_PAGES) :
    Lists fields (insertUser fields user db).2 table
      (if (insertUser fields user db).1 then user :: users else users) := by
  obtain ⟨slots, shows, records⟩ := lists.exists_shows
  rw [Auth.insertUser, lists.found]
  rcases shows.insertSystemRow qt user.id.toNat (userRow fields user) with
    ⟨failed, after, chain⟩ | ⟨header, data, done, written, after, length⟩
  · simp only [failed, Bool.false_eq_true, if_false]
    exact lists_of_shows after lists.columns (chain ▸ lists.pages) records lists.small
  · simp only [done, if_true]
    exact lists.add records small written after (length.trans room)

theorem Holds.insertUser (holds : Holds fields db table users) (user : UserRecord)
    (new : getUserFromDatabase fields db user.username = none)
    (small : userSize fields user < 2 ^ 16) (room : (db.chain table).length < MAX_PAGES) :
    Holds fields (insertUser fields user db).2 table
      (if (insertUser fields user db).1 then user :: users else users) := by
  refine ⟨holds.toLists.insertUser user small room, ?_⟩
  split
  · rw [holds.getUser] at new
    exact (Keyed.find_insert holds.distinct new (.refl _)).1
  · exact holds.distinct

end Holds

end QinDB.Auth
