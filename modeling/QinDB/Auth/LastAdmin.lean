/-
# Auth.LastAdmin — an administrator stays

`dropUser` refuses to drop the last administrator. It counts the accounts that are
listed, but what it marks is the slot whose number is the position of the account's
record among the live ones of its page, and a change of an account overwrites that slot.
Once a record of the page was dropped, the slot may be another account's.

* `Administered.exchange`, `Administered.remove`: what the calls do to a list of accounts.
* `administrator_stays`: in every run whose calls do not hit the slot of another
  administrator, there is an administrator.
* `administrator_lost`: the last administrator goes when another account is dropped.
-/
import QinDB.Auth.AccountMap

namespace QinDB.Auth

open QinDB.Base QinDB.Core QinDB.Storage QinDB.Executor

set_option autoImplicit false

/-! ## Lists of accounts -/

section Administered

/-- Records of one name agree on the flag, and one record has it. -/
structure Administered (users : List UserRecord) : Prop where
  agree : ∀ user ∈ users, ∀ other ∈ users, user.username = other.username →
    user.isAdmin = other.isAdmin
  admin : ∃ user ∈ users, user.isAdmin = true

variable {users old new rest : List UserRecord} {username : Identifier}

/-- Records are exchanged for others of one account; none of another administrator goes. -/
theorem Administered.exchange (administered : Administered users) (perm : users.Perm (old ++ rest))
    {changed : UserRecord} (known : changed ∈ users)
    (spared : ∀ user ∈ old, user.username = changed.username ∨ user.isAdmin = false)
    (same : ∀ user ∈ new, user.username = changed.username ∧ user.isAdmin = changed.isAdmin)
    (replaced : old ≠ [] → new ≠ []) : Administered (new ++ rest) := by
  have kept : ∀ user ∈ rest, user ∈ users := fun user member =>
    perm.mem_iff.mpr (List.mem_append_right old member)
  refine ⟨fun user member other member' sameName => ?_, ?_⟩
  · rcases List.mem_append.mp member with isNew | inRest
    · rcases List.mem_append.mp member' with isNew' | inRest'
      · rw [(same user isNew).2, (same other isNew').2]
      · rw [(same user isNew).2]
        exact administered.agree changed known other (kept other inRest')
          ((same user isNew).1.symm.trans sameName)
    · rcases List.mem_append.mp member' with isNew' | inRest'
      · rw [(same other isNew').2]
        exact administered.agree user (kept user inRest) changed known
          (sameName.trans (same other isNew').1)
      · exact administered.agree user (kept user inRest) other (kept other inRest') sameName
  · obtain ⟨admin, member, flag⟩ := administered.admin
    rcases List.mem_append.mp (perm.mem_iff.mp member) with gone | stays
    · -- an administrator whose record goes is the account itself, which has another record then
      obtain ⟨record, isNew⟩ := List.exists_mem_of_ne_nil new (replaced (List.ne_nil_of_mem gone))
      refine ⟨record, List.mem_append_left rest isNew, ?_⟩
      have own : admin.username = changed.username :=
        (spared admin gone).resolve_right (by simp [flag])
      rw [(same record isNew).2, ← administered.agree admin member changed known own, flag]
    · exact ⟨admin, List.mem_append_right new stays, flag⟩

/-- A record goes; if it is an administrator's there is another one. -/
theorem Administered.remove (administered : Administered users) {old : Option UserRecord}
    (perm : users.Perm (old.toList ++ rest))
    (guarded : ∀ user ∈ old, user.isAdmin = true → 1 < users.countP (·.isAdmin)) :
    Administered rest := by
  have kept : ∀ user ∈ rest, user ∈ users := fun user member =>
    perm.mem_iff.mpr (List.mem_append_right _ member)
  refine ⟨fun user member other member' =>
    administered.agree user (kept user member) other (kept other member'), ?_⟩
  obtain ⟨admin, member, flag⟩ := administered.admin
  rcases List.mem_append.mp (perm.mem_iff.mp member) with gone | stays
  · have several := guarded admin (Option.mem_toList.mp gone) flag
    have one : old.toList.countP (·.isAdmin) ≤ 1 :=
      List.countP_le_length.trans (Option.length_toList_le)
    rw [perm.countP_eq, List.countP_append] at several
    obtain ⟨other, member, flag⟩ := List.countP_pos_iff.mp (by omega : 0 < rest.countP (·.isAdmin))
    exact ⟨other, member, flag⟩
  · exact ⟨admin, stays, flag⟩

/-- An account with a new name. -/
theorem Administered.add (administered : Administered users) {user : UserRecord}
    (new : ∀ other ∈ users, other.username ≠ user.username) : Administered (user :: users) := by
  refine ⟨fun first member second member' same => ?_, ?_⟩
  · rcases List.mem_cons.mp member with rfl | before
    · rcases List.mem_cons.mp member' with rfl | before'
      · rfl
      · exact absurd same.symm (new second before')
    · rcases List.mem_cons.mp member' with rfl | before'
      · exact absurd same (new first before)
      · exact administered.agree first before second before' same
  · obtain ⟨admin, member, flag⟩ := administered.admin
    exact ⟨admin, List.mem_cons_of_mem user member, flag⟩

end Administered

/-! ## The slots that are hit -/

section Slots

variable {V : Type} {qt : Variant V} (fields : Fields qt)

/-- Whether the slot whose number is the position of the account's record among the live ones does
not hold the record of another administrator. -/
def Spares (db : Database V) (username : Identifier) : Bool :=
  match db.getTable USERS_TABLE with
  | none => true
  | some table =>
      (findUser fields table.columns username db.disk (db.chain table)).all fun found =>
        (liveEntry qt table.columns (found.page.slot found.position)).all fun entry =>
          decide (fields.toText (cell qt entry.2 1) = username) ||
            !fields.toFlag (cell qt entry.2 6)

variable {fields} {db : Database V} {table : TableDef} {users : List UserRecord}
  {username : Identifier} {found : FoundUser V}

theorem Lists.spared (lists : Lists fields db table users) (spares : Spares fields db username = true)
    (reached : findUser fields usersColumns username db.disk (db.chain table) = some found)
    {record : Record} {old : Option UserRecord}
    (slot : found.page.slot found.position = some record)
    (shown : liveEntry qt usersColumns (some record) = old.map (stored fields)) :
    ∀ user ∈ old, user.username = username ∨ user.isAdmin = false := by
  rintro user ⟨⟩
  rw [Spares, lists.found] at spares
  simp only [lists.columns, reached, Option.all_some, slot, shown, Option.map_some, stored,
    Bool.or_eq_true, decide_eq_true_eq, Bool.not_eq_true'] at spares
  have flag : fields.toFlag (cell qt (userRow fields user) 6) = user.isAdmin := by
    rw [cell, userRow]
    exact fields.toFlag_ofFlag user.isAdmin
  rwa [toText_userRow, flag] at spares

theorem writePage_same {pageId : PageId} {page : TablePage} (onDisk : db.disk pageId = some page) :
    db.writePage pageId page = db := by
  rw [Database.writePage, ← onDisk, Function.update_eq_self]

/-- Dropping an account marks one record at most. -/
theorem Lists.deleteUser (lists : Lists fields db table users)
    (spares : Spares fields db username = true) :
    ∃ (old : Option UserRecord) (rest : List UserRecord), users.Perm (old.toList ++ rest) ∧
      Lists fields (deleteUser fields username db).2 table rest ∧
      ∀ user ∈ old, user.username = username ∨ user.isAdmin = false := by
  rw [Auth.deleteUser, lists.found]
  simp only [lists.columns]
  cases reached : findUser fields usersColumns username db.disk (db.chain table) with
  | none => exact ⟨none, users, .refl _, lists, (by intro _ shown; cases shown)⟩
  | some found =>
    obtain ⟨inChain, onDisk, -, -⟩ := findUser_some reached
    cases done : deleteRecord found.page found.position 1 with
    | none =>
      simp only [done, Option.getD_none, writePage_same onDisk]
      exact ⟨none, users, .refl _, lists, (by intro _ shown; cases shown)⟩
    | some page =>
      simp only [done, Option.getD_some]
      obtain ⟨record, slot, -, rfl⟩ := deleteRecord_some done
      obtain ⟨old, rest, shown, perm, after⟩ := lists.setSlot inChain onDisk slot
      have dead : liveEntry qt usersColumns (some (marked record 1)) = none :=
        liveEntry_marked record (by decide)
      exact ⟨old, rest, perm, after _ none dead (by intro _ shown; cases shown),
        lists.spared spares reached slot shown⟩

/-! ## Changing an account -/

theorem deleteRecord_invalid (page : TablePage) (index : Nat) :
    (deleteRecord page index INVALID_TXN_ID).getD page = page := by
  cases done : deleteRecord page index INVALID_TXN_ID with
  | none => rfl
  | some page' =>
    obtain ⟨record, slot, unmarked, rfl⟩ := deleteRecord_some done
    have same : ({ record with header := { record.header with deleteTxnId := INVALID_TXN_ID } } :
        Record) = record := by rw [← unmarked]
    obtain ⟨inside, here⟩ := List.getElem?_eq_some_iff.mp (Option.join_eq_some_iff.mp slot)
    rw [Option.getD_some, same, TablePage.setSlot, ← here, List.set_getElem_self]

/-- A page is linked behind one of a list. -/
theorem perm_insertAfter {pages : List PageId} {pageId newPageId : PageId} (nodup : pages.Nodup)
    (member : pageId ∈ pages) :
    (pages.flatMap fun next => if next = pageId then [next, newPageId] else [next]).Perm
      (newPageId :: pages) := by
  induction pages with
  | nil => cases member
  | cons first rest ih =>
    obtain ⟨notLater, nodup⟩ := List.nodup_cons.mp nodup
    rw [List.flatMap_cons]
    by_cases here : first = pageId
    · subst here
      have others : (rest.flatMap fun next => if next = first then [next, newPageId] else [next]) =
          rest := by
        have each : ∀ next ∈ rest, (if next = first then [next, newPageId] else [next]) = [next] :=
          fun next inside => if_neg (by rintro rfl; exact notLater inside)
        rw [List.flatMap_congr each, List.flatMap_singleton']
      rw [if_pos rfl, others]
      exact .swap newPageId first rest
    · rw [if_neg here]
      have later : pageId ∈ rest := (List.mem_cons.mp member).resolve_left (Ne.symm here)
      exact ((ih nodup later).cons first).trans (.swap newPageId first rest)

/-- Only the chain of the table changes. -/
theorem chain_linkAfter (layout : Layout db) (member : table ∈ db.tables) {t : TableDef}
    (member' : t ∈ db.tables) (other : t ≠ table) (pageId newPageId : PageId) :
    (linkAfter table pageId newPageId db).chain t = db.chain t := by
  have first := layout.first table member
  have first' := layout.first t member'
  have distinct : t.firstPageId ≠ table.firstPageId := by
    intro same
    refine other (layout.disjoint t member' table member t.firstPageId (chain_mem_first first') ?_)
    rw [same]
    exact chain_mem_first first
  simp only [Database.chain, linkAfter, if_neg first', Function.update_of_ne distinct]

theorem perm_chain_linkAfter (layout : Layout db) (member : table ∈ db.tables) {pageId : PageId}
    (inChain : pageId ∈ db.chain table) (newPageId : PageId) :
    ((linkAfter table pageId newPageId db).chain table).Perm (newPageId :: db.chain table) := by
  have first := layout.first table member
  have nodup := layout.nodup table member
  simp only [Database.chain, linkAfter, if_neg first, Function.update_self] at inChain nodup ⊢
  by_cases here : pageId = table.firstPageId
  · rw [if_pos here]
    exact .swap newPageId table.firstPageId _
  · rw [if_neg here]
    have later := (List.mem_cons.mp inChain).resolve_left here
    exact ((perm_insertAfter (List.nodup_cons.mp nodup).2 later).cons _).trans (.swap newPageId _ _)

/-- A new page behind a page of the table. -/
theorem Shows.linkAfter {slots : List Slot} (shows : Shows USERS_TABLE db table slots)
    {pageId newPageId : PageId} {free : List PageId} (page : TablePage)
    (inChain : pageId ∈ db.chain table) (next : db.freePages = newPageId :: free) :
    Shows USERS_TABLE (linkAfter table pageId newPageId
        { db.writePage newPageId page with freePages := free }) table (page.slots ++ slots) ∧
      ((linkAfter table pageId newPageId
        { db.writePage newPageId page with freePages := free }).chain table).Perm
          (newPageId :: db.chain table) := by
  have taken := shows.layout.takePage page next
  have grown := perm_chain_linkAfter taken shows.member inChain newPageId
  refine ⟨shows.grow (shows.layout.growChain table next rfl rfl (fun p => update_domain ..) ?_ grown)
    rfl grown (fun p inside => Function.update_of_ne (shows.apart next inside) _ _)
    (Function.update_self ..), grown⟩
  intro t member other
  exact chain_linkAfter taken shows.member member other pageId newPageId

/-- The account gets another record; the old one stays, since it is deleted by transaction zero. -/
theorem Lists.reinsertUser (lists : Lists fields db table users) {changed : UserRecord}
    (inChain : found.pageId ∈ db.chain table) (onDisk : db.disk found.pageId = some found.page)
    (small : userSize fields changed < 2 ^ 16) (room : (db.chain table).length < MAX_PAGES) :
    ∃ new, Lists fields (reinsertUser fields table changed found db).2 table (new ++ users) ∧
      ∀ user ∈ new, user = changed := by
  have nothing : ∀ user ∈ ([] : List UserRecord), user = changed := fun _ none => nomatch none
  have one : ∀ user ∈ [changed], user = changed := fun user member => List.mem_singleton.mp member
  obtain ⟨slots, shows, records⟩ := lists.exists_shows
  simp only [Auth.reinsertUser, deleteRecord_invalid, writePage_same onDisk]
  cases inserted : insertRecord qt table.columns found.page changed.id.toNat
      (userRow fields changed) INVALID_TXN_ID with
  | some page =>
    obtain ⟨header, data, written, after⟩ := shows.insertRecord inChain onDisk inserted
    exact ⟨[changed], lists.add records small written after lists.pages, one⟩
  | none =>
    simp only
    cases next : db.freePages with
    | nil => exact ⟨[], lists, nothing⟩
    | cons newPageId free =>
      simp only
      cases inserted : insertRecord qt table.columns .init changed.id.toNat
          (userRow fields changed) INVALID_TXN_ID with
      | none =>
        exact ⟨[], lists_of_shows (shows.takePage .init next) lists.columns lists.pages records
          lists.small, nothing⟩
      | some newPage =>
        obtain ⟨header, data, written, content, -⟩ := insertRecord_some inserted
        obtain ⟨after, chain⟩ := shows.linkAfter newPage inChain next
        rw [content] at after
        refine ⟨[changed], lists.add records small written after ?_, one⟩
        rw [chain.length_eq, List.length_cons]
        exact room

/-- Changing an account overwrites one record at most, and stores the account again. -/
theorem Lists.updateUser (lists : Lists fields db table users) {changed : UserRecord}
    (spares : Spares fields db changed.username = true) (small : userSize fields changed < 2 ^ 16)
    (room : (db.chain table).length < MAX_PAGES) :
    ∃ old new rest, users.Perm (old ++ rest) ∧
      Lists fields (updateUser fields changed db).2 table (new ++ rest) ∧
      (∀ user ∈ old, user.username = changed.username ∨ user.isAdmin = false) ∧
      (∀ user ∈ new, user.username = changed.username ∧ user.isAdmin = changed.isAdmin) ∧
      (old ≠ [] → new ≠ []) := by
  rw [Auth.updateUser, lists.found]
  simp only [lists.columns]
  cases reached : findUser fields usersColumns changed.username db.disk (db.chain table) with
  | none =>
    exact ⟨[], [], users, .refl _, lists, (by intro _ shown; cases shown),
      (by intro _ shown; cases shown), id⟩
  | some found =>
    obtain ⟨inChain, onDisk, ⟨length, live⟩, named⟩ := findUser_some reached
    cases done : updateRecord qt usersColumns found.page found.position
        (changedRow fields found.row changed) with
    | none =>
      simp only [done]
      obtain ⟨new, after, same⟩ := lists.reinsertUser inChain onDisk small room
      refine ⟨[], new, users, .refl _, after, (by intro _ shown; cases shown), fun user member => ?_,
        fun some_old => (some_old rfl).elim⟩
      rw [same user member]
      exact ⟨rfl, rfl⟩
    | some page =>
      simp only [done]
      obtain ⟨record, header, data, slot, -, written, -, rfl⟩ := updateRecord_some done
      obtain ⟨user, -, same⟩ := lists.entry_mem inChain onDisk live
      have row : userRow fields user = found.row := congrArg Prod.snd same
      rw [← row, toText_userRow] at named
      -- the record that was found keeps its id, its name and its time of creation
      let stays : UserRecord := { changed with id := user.id, createdAt := user.createdAt }
      have newRow : changedRow fields found.row changed = userRow fields stays := by
        rw [← row]
        exact changedRow_userRow fields user stays rfl named.symm rfl
      have size : userSize fields stays = userSize fields changed := userSize_congr rfl rfl
      have small' : userSize fields stays < 2 ^ 16 := size ▸ small
      obtain ⟨header', data', written', -, shows⟩ :=
        userRow_slot small' record.header.rowId record.header.createTxnId
      rw [newRow] at written
      cases written.symm.trans written'
      obtain ⟨old, rest, shown, perm, after⟩ := lists.setSlot inChain onDisk slot
      refine ⟨old.toList, [stays], rest, perm, after _ (some stays) shows ?_, ?_, ?_,
        fun _ => List.cons_ne_nil _ _⟩
      · rintro _ ⟨⟩
        exact small'
      · intro user member
        exact lists.spared spares reached slot shown user (Option.mem_toList.mp member)
      · intro user member
        rw [List.mem_singleton.mp member]
        exact ⟨rfl, rfl⟩

/-! ## The calls -/

theorem Lists.getUser_some (lists : Lists fields db table users) {user : UserRecord}
    (known : getUserFromDatabase fields db username = some user) :
    user ∈ users ∧ user.username = username :=
  ⟨lists.getAllUsers.mem_iff.mp (List.mem_of_find?_eq_some known), by
    simpa using List.find?_some known⟩

theorem Lists.userPages (lists : Lists fields db table users) :
    userPages db = (db.chain table).length := by
  rw [Auth.userPages, lists.found]

/-- A users table that lists an administrator. -/
def Governed (fields : Fields qt) (db : Database V) : Prop :=
  ∃ table users, Lists fields db table users ∧ Administered users

theorem Governed.admin (governed : Governed fields db) :
    ∃ user ∈ getAllUsers fields db, user.isAdmin = true := by
  obtain ⟨table, users, lists, administered⟩ := governed
  obtain ⟨user, member, flag⟩ := administered.admin
  exact ⟨user, lists.getAllUsers.mem_iff.mpr member, flag⟩

variable (fields) in
/-- What a call needs: that it does not hit the slot of another administrator, that the table has
not come to the number of pages that are read, and a record of less than `2 ^ 16` bytes. -/
def Guarded (db : Database V) : Call → Bool
  | .createUser username passwordHash now isAdmin =>
      decide (userPages db < MAX_PAGES) &&
        decide (userSize fields (newUser fields username passwordHash now isAdmin db) < 2 ^ 16)
  | .dropUser username => Spares fields db username
  | .alterUserPassword username passwordHash _ =>
      Spares fields db username && decide (userPages db < MAX_PAGES) &&
        (getUserFromDatabase fields db username).all fun user =>
          decide (userSize fields { user with passwordHash } < 2 ^ 16)
  | .setUserActive username _ _ => Spares fields db username && decide (userPages db < MAX_PAGES)

theorem Lists.createUser (lists : Lists fields db table users) {passwordHash : Identifier}
    {now : UInt64} {isAdmin : Bool}
    (guarded : Guarded fields db (.createUser username passwordHash now isAdmin) = true) :
    ∃ new, Lists fields (createUser fields username passwordHash now isAdmin db).2 table
        (new ++ users) ∧
      ((createUser fields username passwordHash now isAdmin db).1 = false → new = []) ∧
      ((createUser fields username passwordHash now isAdmin db).1 = true →
        (∀ other ∈ users, other.username ≠ username) ∧
          new = [newUser fields username passwordHash now isAdmin db]) := by
  simp only [Guarded, Bool.and_eq_true, decide_eq_true_eq] at guarded
  obtain ⟨room, small⟩ := guarded
  rw [lists.userPages] at room
  rw [Auth.createUser]
  split
  · exact ⟨[], lists, fun _ => rfl, by intro done; cases done⟩
  · split
    · exact ⟨[], lists, fun _ => rfl, by intro done; cases done⟩
    · rename_i unknown
      have after := lists.insertUser (newUser fields username passwordHash now isAdmin db) small room
      cases done : (Auth.insertUser fields (newUser fields username passwordHash now isAdmin db) db).1 with
      | false =>
        rw [done] at after
        exact ⟨[], after, fun _ => rfl, by intro done; cases done⟩
      | true =>
        rw [done] at after
        refine ⟨[_], after, (by intro failed; cases failed),
          fun _ => ⟨fun other member same => ?_, rfl⟩⟩
        rw [userExists, getUserFromDatabase, Option.not_isSome_iff_eq_none] at unknown
        have absent := List.find?_eq_none.mp unknown other (lists.getAllUsers.mem_iff.mpr member)
        exact absent (decide_eq_true same)

theorem Governed.createUser (governed : Governed fields db) {passwordHash : Identifier}
    {now : UInt64} {isAdmin : Bool}
    (guarded : Guarded fields db (.createUser username passwordHash now isAdmin) = true) :
    Governed fields (createUser fields username passwordHash now isAdmin db).2 := by
  obtain ⟨table, users, lists, administered⟩ := governed
  obtain ⟨new, after, failed, done⟩ := lists.createUser guarded
  refine ⟨table, new ++ users, after, ?_⟩
  cases answer : (Auth.createUser fields username passwordHash now isAdmin db).1 with
  | false =>
    rw [failed answer]
    exact administered
  | true =>
    obtain ⟨other, rfl⟩ := done answer
    exact administered.add other

/-- The guard of the call counts the administrators that are listed. -/
theorem Governed.dropUser (governed : Governed fields db)
    (guarded : Guarded fields db (.dropUser username) = true) :
    Governed fields (dropUser fields username db).2 := by
  rw [Auth.dropUser]
  split
  · exact governed
  · rename_i allowed
    obtain ⟨table, users, lists, administered⟩ := governed
    obtain ⟨old, rest, perm, after, spared⟩ := lists.deleteUser guarded
    refine ⟨table, rest, after, administered.remove perm fun user gone flag => ?_⟩
    have member : user ∈ users := perm.mem_iff.mpr
      (List.mem_append_left rest (Option.mem_toList.mpr gone))
    have named : user.username = username := (spared user gone).resolve_right (by simp [flag])
    -- the account that the guard looks at has the flag as well
    have isAdmin : isUserAdmin fields db username = true := by
      cases known : getUserFromDatabase fields db username with
      | none =>
        have absent := List.find?_eq_none.mp known user (lists.getAllUsers.mem_iff.mpr member)
        exact absurd (decide_eq_true named) absent
      | some first =>
        obtain ⟨member', named'⟩ := lists.getUser_some known
        rw [isUserAdmin, known, Option.any_some,
          administered.agree first member' user member (named'.trans named.symm), flag]
    have several : ¬ (getAllUsers fields db).countP (·.isAdmin) ≤ 1 :=
      fun few => allowed ⟨isAdmin, few⟩
    rw [lists.getAllUsers.countP_eq] at several
    exact Nat.lt_of_not_le several

/-- A change of an account that leaves its name and its flag. -/
theorem Governed.updateUser (governed : Governed fields db) {user changed : UserRecord}
    (known : getUserFromDatabase fields db username = some user)
    (spares : Spares fields db username = true) (room : userPages db < MAX_PAGES)
    (name : changed.username = user.username) (flag : changed.isAdmin = user.isAdmin)
    (small : userSize fields user < 2 ^ 16 → userSize fields changed < 2 ^ 16) :
    Governed fields (updateUser fields changed db).2 := by
  obtain ⟨table, users, lists, administered⟩ := governed
  obtain ⟨member, named⟩ := lists.getUser_some known
  rw [lists.userPages] at room
  have same : changed.username = username := name.trans named
  obtain ⟨old, new, rest, perm, after, spared, records, replaced⟩ :=
    lists.updateUser (same ▸ spares) (small (lists.small user member)) room
  rw [name] at spared records
  rw [flag] at records
  exact ⟨table, new ++ rest, after, administered.exchange perm member spared records replaced⟩

theorem Governed.step (governed : Governed fields db) (call : Call)
    (guarded : Guarded fields db call = true) : Governed fields (perform fields db call).2 := by
  cases call with
  | createUser username passwordHash now isAdmin => exact governed.createUser guarded
  | dropUser username => exact governed.dropUser guarded
  | alterUserPassword username passwordHash now =>
    simp only [Guarded, Bool.and_eq_true, decide_eq_true_eq] at guarded
    obtain ⟨⟨spares, room⟩, short⟩ := guarded
    simp only [perform, alterUserPassword]
    cases known : getUserFromDatabase fields db username with
    | none => exact governed
    | some user =>
      rw [known, Option.all_some, decide_eq_true_eq] at short
      have size : userSize fields { user with passwordHash, updatedAt := now } =
          userSize fields { user with passwordHash } := userSize_congr rfl rfl
      exact governed.updateUser known spares room rfl rfl fun _ => size ▸ short
  | setUserActive username active now =>
    simp only [Guarded, Bool.and_eq_true, decide_eq_true_eq] at guarded
    obtain ⟨spares, room⟩ := guarded
    simp only [perform, setUserActive]
    cases known : getUserFromDatabase fields db username with
    | none => exact governed
    | some user =>
      have size : userSize fields { user with isActive := active, updatedAt := now } =
          userSize fields user := userSize_congr rfl rfl
      exact governed.updateUser known spares room rfl rfl fun small => size ▸ small

/-- A database that the user system can be started on: without a users table, or with one that
lists an administrator, as every run leaves it. -/
structure Startable (fields : Fields qt) (db : Database V) : Prop where
  layout : Layout db
  table : db.getTable USERS_TABLE = none ∨ Governed fields db

theorem Startable.initializeUserSystem (startable : Startable fields db) {passwordHash : Identifier}
    {now : UInt64} (small : userSize fields (newUser fields ADMIN passwordHash now true db) < 2 ^ 16)
    (started : (initializeUserSystem fields passwordHash now db).1 = true) :
    Governed fields (initializeUserSystem fields passwordHash now db).2 := by
  rcases startable.table with new | governed
  · rw [Auth.initializeUserSystem, new] at started ⊢
    simp only at started ⊢
    cases next : db.freePages with
    | nil => exact absurd started (createUser_without_pages fields new next)
    | cons pageId free =>
      have lists := (holds_createUsersTable fields startable.layout new next).toLists
      have size : userSize fields (newUser fields ADMIN passwordHash now true (createUsersTable db)) =
          userSize fields (newUser fields ADMIN passwordHash now true db) := userSize_congr rfl rfl
      have guarded : Guarded fields (createUsersTable db) (.createUser ADMIN passwordHash now true) =
          true := by
        simp only [Guarded, Bool.and_eq_true, decide_eq_true_eq, lists.userPages,
          chain_createUsersTable startable.layout next, List.length_singleton, size]
        exact ⟨by decide, small⟩
      obtain ⟨_, after, -, done⟩ := lists.createUser guarded
      obtain ⟨-, rfl⟩ := done started
      refine ⟨_, _, after, fun user member other member' _ => ?_, _, List.mem_cons_self, rfl⟩
      rw [List.mem_singleton.mp member, List.mem_singleton.mp member']
  · obtain ⟨user, member, -⟩ := governed.admin
    have some_user : (getAllUsers fields db).length ≠ 0 := by
      rw [Ne, List.length_eq_zero_iff]
      exact List.ne_nil_of_mem member
    have unchanged : Auth.initializeUserSystem fields passwordHash now db = (true, db) := by
      obtain ⟨table, users, lists, -⟩ := governed
      rw [Auth.initializeUserSystem, lists.found]
      exact if_neg some_user
    rw [unchanged]
    exact governed

/-- Every run of calls after the set-up leaves an administrator. -/
theorem administrator_stays (fields : Fields qt) (db : Database V) (startable : Startable fields db)
    (passwordHash : Identifier) (now : UInt64)
    (small : userSize fields (newUser fields ADMIN passwordHash now true db) < 2 ^ 16)
    (started : (initializeUserSystem fields passwordHash now db).1 = true) (calls : List Call)
    (guarded : Run.Meets (step fields) (fun db call => Guarded fields db call = true)
      (initializeUserSystem fields passwordHash now db).2 calls) :
    ∃ answers db', Run.run (step fields) (initializeUserSystem fields passwordHash now db).2 calls =
        some (answers, db') ∧ Governed fields db' ∧
      ∃ user ∈ getAllUsers fields db', user.isAdmin = true := by
  obtain ⟨answers, db', returned, governed⟩ : ∃ answers db', Run.run (step fields)
      (Auth.initializeUserSystem fields passwordHash now db).2 calls = some (answers, db') ∧
        Governed fields db' :=
    Run.run_keeps (fun _ call governed guarded => Governed.step governed call guarded) calls _
      (startable.initializeUserSystem small started) guarded
  exact ⟨answers, db', returned, governed, governed.admin⟩

end Slots

/-! ## Runs -/

namespace Literals

/-- A second administrator between two accounts. -/
def secondAdmin : List Call :=
  [.createUser ['a'] ['x'] 1 false, .createUser ['s'] ['y'] 2 true, .createUser ['b'] ['z'] 3 false]

/-- The first administrator is dropped and the second gets a longer password hash, in a second
record; the last one cannot be dropped. -/
theorem administrator_stays_second : ∃ answers db',
    Run.run (step fields) (initializeUserSystem fields ['h'] 0 emptyDatabase).2
        (secondAdmin ++ [.alterUserPassword ['s'] ['l', 'o', 'n', 'g'] 4, .dropUser ADMIN,
          .dropUser ['s'], .dropUser ['s']]) = some (answers, db') ∧ Governed fields db' ∧
      ∃ user ∈ getAllUsers fields db', user.isAdmin = true :=
  administrator_stays fields emptyDatabase ⟨emptyDatabase_layout, .inl (by decide)⟩ ['h'] 0
    (by decide +kernel) (by decide +kernel) _ (by decide +kernel)

/-- The first administrator is dropped, and then an account that is none; the call marks the slot of
the second administrator. -/
theorem administrator_lost :
    ∃ answers db', Run.run (step fields) (initializeUserSystem fields ['h'] 0 emptyDatabase).2
        (secondAdmin ++ [.dropUser ADMIN, .dropUser ['b']]) = some (answers, db') ∧
      answers = [true, true, true, true, true] ∧
      ¬ ∃ user ∈ getAllUsers fields db', user.isAdmin = true :=
  ⟨_, _, rfl, by decide +kernel, by decide +kernel⟩

end Literals

end QinDB.Auth
