/-
# Auth.AccountMap — AuthManager against a finite map

What `AuthManager` is for: a map from user names to accounts, changed by the calls that
return true. The model of the code refines it in every run in which accounts that are
changed are found at the slot of their position, password hashes do not become longer
and the table stays below the number of pages that are read.

* `represents_initializeUserSystem`: the table that is set up holds the administrator.
* `authManager_refines_map`: the refinement.
* `dropUser_misses_record`: after an account was dropped, the next one of the
  same page is out of reach.
-/
import QinDB.Auth.Accounts
import QinDB.Auth.Literals

namespace QinDB.Auth

open QinDB.Base QinDB.Core QinDB.Storage QinDB.Executor

set_option autoImplicit false

/-! ## The map -/

structure Account where
  passwordHash : Identifier
  isActive : Bool
  isAdmin : Bool
  deriving DecidableEq, Repr

def UserRecord.account (user : UserRecord) : Account :=
  ⟨user.passwordHash, user.isActive, user.isAdmin⟩

abbrev AccountMap := Identifier → Option Account

inductive Call where
  | createUser (username passwordHash : Identifier) (now : UInt64) (isAdmin : Bool)
  | dropUser (username : Identifier)
  | alterUserPassword (username passwordHash : Identifier) (now : UInt64)
  | setUserActive (username : Identifier) (active : Bool) (now : UInt64)

/-- What a call that returns true does to the map. -/
def Call.apply (accounts : AccountMap) : Call → AccountMap
  | .createUser username passwordHash _ isAdmin =>
      Function.update accounts username (some ⟨passwordHash, true, isAdmin⟩)
  | .dropUser username => Function.update accounts username none
  | .alterUserPassword username passwordHash _ =>
      Function.update accounts username
        ((accounts username).map fun account => { account with passwordHash })
  | .setUserActive username active _ =>
      Function.update accounts username
        ((accounts username).map fun account => { account with isActive := active })

def Call.answered (accounts : AccountMap) (call : Call) (answer : Bool) : AccountMap :=
  if answer then call.apply accounts else accounts

section Calls

variable {V : Type} {qt : Variant V} (fields : Fields qt)

def perform (db : Database V) : Call → Bool × Database V
  | .createUser username passwordHash now isAdmin =>
      createUser fields username passwordHash now isAdmin db
  | .dropUser username => dropUser fields username db
  | .alterUserPassword username passwordHash now =>
      alterUserPassword fields username passwordHash now db
  | .setUserActive username active now => setUserActive fields username active now db

def step (db : Database V) (call : Call) : Option (Bool × Database V) := some (perform fields db call)

/-- The users of the database are the accounts of the map, one record for each. -/
structure Agrees (db : Database V) (accounts : AccountMap) : Prop where
  getUser : ∀ name, (getUserFromDatabase fields db name).map UserRecord.account = accounts name
  userExists : ∀ name, userExists fields db name = (accounts name).isSome
  distinct : ((getAllUsers fields db).map (·.username)).Nodup

/-- The number of pages of the users table. -/
def userPages (db : Database V) : Nat :=
  match db.getTable USERS_TABLE with
  | none => 0
  | some table => (db.chain table).length

/-- What a call needs: to create, a page that will be read and a record of less than `2 ^ 16`
bytes; to change an account, that its record is at the slot of its position; for a new password,
a hash that is not longer than the old one. -/
def Ready (db : Database V) : Call → Bool
  | .createUser username passwordHash now isAdmin =>
      decide (userPages db < MAX_PAGES) &&
        decide (userSize fields (newUser fields username passwordHash now isAdmin db) < 2 ^ 16)
  | .dropUser username => Addressed fields db username
  | .alterUserPassword username passwordHash _ =>
      Addressed fields db username &&
        (getUserFromDatabase fields db username).all fun user =>
          decide (hashWidth fields passwordHash ≤ hashWidth fields user.passwordHash)
  | .setUserActive username _ _ => Addressed fields db username

/-! ## The calls on accounts -/

def accountsOf (users : List UserRecord) : AccountMap := fun name =>
  (Keyed.find (·.username) users name).map UserRecord.account

theorem accountsOf_update {users users' : List UserRecord} {name : Identifier}
    {user : Option UserRecord}
    (changed : Keyed.find (·.username) users' =
      Function.update (Keyed.find (·.username) users) name user) :
    accountsOf users' = Function.update (accountsOf users) name (user.map UserRecord.account) := by
  funext other
  rw [accountsOf, changed]
  by_cases same : other = name
  · subst same
    rw [Function.update_self, Function.update_self]
  · rw [Function.update_of_ne same, Function.update_of_ne same]
    rfl

variable {fields} {db : Database V} {table : TableDef} {users : List UserRecord}

theorem Holds.agrees (holds : Holds fields db table users) : Agrees fields db (accountsOf users) where
  getUser := fun name => by rw [holds.getUser]; rfl
  userExists := fun name => by
    rw [userExists, holds.getUser, accountsOf, Option.isSome_map]
  distinct := (holds.getAllUsers.map _).nodup_iff.mpr holds.distinct

theorem Holds.userPages (holds : Holds fields db table users) :
    userPages db = (db.chain table).length := by
  rw [Auth.userPages, holds.found]

/-- The size of a record depends on the two texts only. -/
theorem userSize_congr {user other : UserRecord} (username : user.username = other.username)
    (passwordHash : user.passwordHash = other.passwordHash) :
    userSize fields user = userSize fields other := by
  rw [userSize_eq, userSize_eq, username, passwordHash]

/-- A state of the database that holds the accounts of a map. -/
def Represents (fields : Fields qt) (db : Database V) (accounts : AccountMap) : Prop :=
  ∃ table users, Holds fields db table users ∧ accounts = accountsOf users

theorem Holds.createUser (holds : Holds fields db table users)
    {username passwordHash : Identifier} {now : UInt64} {isAdmin : Bool}
    (ready : Ready fields db (.createUser username passwordHash now isAdmin) = true) :
    Represents fields (createUser fields username passwordHash now isAdmin db).2
      (Call.answered (accountsOf users) (.createUser username passwordHash now isAdmin)
        (createUser fields username passwordHash now isAdmin db).1) := by
  simp only [Ready, Bool.and_eq_true, decide_eq_true_eq] at ready
  obtain ⟨room, small⟩ := ready
  rw [holds.userPages] at room
  rw [Auth.createUser]
  split
  · exact ⟨table, users, holds, rfl⟩
  · split
    · exact ⟨table, users, holds, rfl⟩
    · rename_i unknown
      have new : getUserFromDatabase fields db username = none := by
        rw [userExists] at unknown
        exact Option.not_isSome_iff_eq_none.mp unknown
      have inserted := holds.insertUser (newUser fields username passwordHash now isAdmin db) new
        small room
      rw [holds.getUser] at new
      have added : Keyed.find (·.username)
          (newUser fields username passwordHash now isAdmin db :: users) = _ :=
        (Keyed.find_insert holds.distinct new (.refl _)).2
      refine ⟨table, _, inserted, ?_⟩
      cases (Auth.insertUser fields _ db).1 with
      | false => rfl
      | true => exact (accountsOf_update added).symm

theorem Holds.dropUser (holds : Holds fields db table users) {username : Identifier}
    (ready : Ready fields db (.dropUser username) = true) :
    Represents fields (dropUser fields username db).2
      (Call.answered (accountsOf users) (.dropUser username) (dropUser fields username db).1) := by
  rw [Auth.dropUser]
  split
  · exact ⟨table, users, holds, rfl⟩
  · cases known : getUserFromDatabase fields db username with
    | none =>
      have missing := holds.findUser_none known
      rw [Auth.deleteUser, holds.found]
      simp only [holds.columns, missing]
      exact ⟨table, users, holds, rfl⟩
    | some user =>
      obtain ⟨rest, answer, perm, after⟩ := holds.deleteUser ready known
      rw [holds.getUser, Keyed.find_eq_some_iff holds.distinct] at known
      refine ⟨table, rest, after, ?_⟩
      rw [answer, ← known.2]
      exact (accountsOf_update (Keyed.find_remove holds.distinct perm).2).symm

/-- An account that is changed in place. -/
theorem Holds.changeUser (holds : Holds fields db table users) {username : Identifier}
    {user : UserRecord} (changed : UserRecord) (addressed : Addressed fields db username = true)
    (known : getUserFromDatabase fields db username = some user) (id : changed.id = user.id)
    (name : changed.username = user.username) (createdAt : changed.createdAt = user.createdAt)
    (fits : userSize fields changed ≤ userSize fields user) :
    (Auth.updateUser fields changed db).1 = true ∧
      Represents fields (Auth.updateUser fields changed db).2
        (Function.update (accountsOf users) username (some changed.account)) ∧
      accountsOf users username = some user.account := by
  have here : user ∈ users ∧ user.username = username := by
    rw [holds.getUser, Keyed.find_eq_some_iff holds.distinct] at known
    exact known
  have same : username = changed.username := here.2.symm.trans name.symm
  obtain ⟨rest, answer, perm, after⟩ :=
    holds.updateUser (same ▸ addressed) (same ▸ known) id createdAt fits
  refine ⟨answer, ⟨table, _, after, ?_⟩, ?_⟩
  · have changed' := accountsOf_update
      (Keyed.find_exchange holds.distinct perm (.refl (changed :: rest)) name).2
    rw [here.2] at changed'
    exact changed'.symm
  · rw [accountsOf, ← holds.getUser, known]
    rfl

theorem Holds.alterUserPassword (holds : Holds fields db table users)
    {username passwordHash : Identifier} {now : UInt64}
    (ready : Ready fields db (.alterUserPassword username passwordHash now) = true) :
    Represents fields (alterUserPassword fields username passwordHash now db).2
      (Call.answered (accountsOf users) (.alterUserPassword username passwordHash now)
        (alterUserPassword fields username passwordHash now db).1) := by
  simp only [Ready, Bool.and_eq_true] at ready
  obtain ⟨addressed, shorter⟩ := ready
  rw [Auth.alterUserPassword]
  cases known : getUserFromDatabase fields db username with
  | none => exact ⟨table, users, holds, rfl⟩
  | some user =>
    rw [known, Option.all_some, decide_eq_true_eq] at shorter
    have fits : userSize fields { user with passwordHash, updatedAt := now } ≤
        userSize fields user := by
      rw [userSize_eq, userSize_eq]
      exact Nat.add_le_add_left shorter _
    obtain ⟨answer, after, before⟩ := holds.changeUser
      { user with passwordHash, updatedAt := now } addressed known rfl rfl rfl fits
    simp only [answer, Call.answered, if_true, Call.apply, before, Option.map_some]
    exact after

theorem Holds.setUserActive (holds : Holds fields db table users) {username : Identifier}
    {active : Bool} {now : UInt64}
    (ready : Ready fields db (.setUserActive username active now) = true) :
    Represents fields (setUserActive fields username active now db).2
      (Call.answered (accountsOf users) (.setUserActive username active now)
        (setUserActive fields username active now db).1) := by
  rw [Auth.setUserActive]
  cases known : getUserFromDatabase fields db username with
  | none => exact ⟨table, users, holds, rfl⟩
  | some user =>
    have fits : userSize fields { user with isActive := active, updatedAt := now } ≤
        userSize fields user := Nat.le_of_eq (userSize_congr rfl rfl)
    obtain ⟨answer, after, before⟩ := holds.changeUser
      { user with isActive := active, updatedAt := now } ready known rfl rfl rfl fits
    simp only [answer, Call.answered, if_true, Call.apply, before, Option.map_some]
    exact after

theorem represents_step {accounts : AccountMap} (represents : Represents fields db accounts)
    (call : Call) (ready : Ready fields db call = true) :
    ∃ answer db', step fields db call = some (answer, db') ∧
      Represents fields db' (call.answered accounts answer) := by
  obtain ⟨table, users, holds, rfl⟩ := represents
  refine ⟨_, _, rfl, ?_⟩
  cases call with
  | createUser username passwordHash now isAdmin => exact holds.createUser ready
  | dropUser username => exact holds.dropUser ready
  | alterUserPassword username passwordHash now => exact holds.alterUserPassword ready
  | setUserActive username active now => exact holds.setUserActive ready

/-! ## Setting up the table -/

theorem getTable_createUsersTable (new : db.getTable USERS_TABLE = none) {pageId : PageId}
    {free : List PageId} (next : db.freePages = pageId :: free) :
    (createUsersTable db).getTable USERS_TABLE = some (usersTable pageId) := by
  have absent : db.tables.find? (fun table => table.name.toLower = USERS_TABLE.toLower) = none := new
  simp only [createUsersTable, next, Database.getTable, List.find?_append, absent, Option.none_or]
  rfl

theorem chain_createUsersTable (layout : Layout db) {pageId : PageId} {free : List PageId}
    (next : db.freePages = pageId :: free) :
    (createUsersTable db).chain (usersTable pageId) = [pageId] := by
  have valid : pageId ≠ INVALID_PAGE_ID := by
    rintro rfl
    exact layout.freeValid (by rw [next]; exact List.mem_cons_self)
  simp only [createUsersTable, next, Database.chain, usersTable, if_neg valid, Function.update_self]

/-- Without a page for the table the set-up fails. -/
theorem createUser_without_pages (fields : Fields qt) (new : db.getTable USERS_TABLE = none)
    (next : db.freePages = []) {username passwordHash : Identifier} {now : UInt64} {isAdmin : Bool} :
    (createUser fields username passwordHash now isAdmin (createUsersTable db)).1 ≠ true := by
  have absent : db.tables.find? (fun table => table.name.toLower = USERS_TABLE.toLower) = none := new
  have found : (createUsersTable db).getTable USERS_TABLE = some (usersTable INVALID_PAGE_ID) := by
    simp only [createUsersTable, next, Database.getTable, List.find?_append, absent, Option.none_or]
    rfl
  have chain : (createUsersTable db).chain (usersTable INVALID_PAGE_ID) = [] := rfl
  have free : (createUsersTable db).freePages = [] := by
    simp only [createUsersTable, next]
  rw [createUser]
  split
  · exact Bool.false_ne_true
  · split
    · exact Bool.false_ne_true
    · simp only [insertUser, found, insertSystemRow, chain, placeRow, free]
      exact Bool.false_ne_true

/-- The new table has one page, which holds nothing. -/
theorem holds_createUsersTable (fields : Fields qt) (layout : Layout db)
    (new : db.getTable USERS_TABLE = none) {pageId : PageId} {free : List PageId}
    (next : db.freePages = pageId :: free) :
    Holds fields (createUsersTable db) (usersTable pageId) [] := by
  have otherName : ∀ t ∈ db.tables, t.name.toLower ≠ USERS_TABLE.toLower := by
    intro t member same
    have never := List.find?_eq_none.mp new t member
    simp only [same, decide_true, not_true_eq_false] at never
  have chain := chain_createUsersTable layout next
  have onDisk : (createUsersTable db).disk pageId = some zeroPage := by
    simp only [createUsersTable, next, Function.update_self]
  refine ⟨⟨?_, getTable_createUsersTable new next, rfl, ?_, ?_, by simp⟩, List.nodup_nil⟩
  · have added := layout.addTable (usersTable pageId) zeroPage next otherName
    rw [createUsersTable, next]
    exact added
  · rw [chain, List.length_singleton]
    decide
  · rw [chain, chainContents, List.flatMap_singleton, pageContents, onDisk]
    exact .refl _

/-- A database that is set up with a new users table holds the administrator. -/
theorem represents_initializeUserSystem (fields : Fields qt) (layout : Layout db)
    (new : db.getTable USERS_TABLE = none) {passwordHash : Identifier} {now : UInt64}
    (small : userSize fields (newUser fields ADMIN passwordHash now true db) < 2 ^ 16)
    (started : (initializeUserSystem fields passwordHash now db).1 = true) :
    Represents fields (initializeUserSystem fields passwordHash now db).2
      (Function.update (fun _ => none) ADMIN (some ⟨passwordHash, true, true⟩)) := by
  rw [initializeUserSystem, new] at started ⊢
  simp only at started ⊢
  cases next : db.freePages with
  | nil => exact absurd started (createUser_without_pages fields new next)
  | cons pageId free =>
    have holds := holds_createUsersTable fields layout new next
    have ready : Ready fields (createUsersTable db) (.createUser ADMIN passwordHash now true) =
        true := by
      have size : userSize fields (newUser fields ADMIN passwordHash now true (createUsersTable db)) =
          userSize fields (newUser fields ADMIN passwordHash now true db) := userSize_congr rfl rfl
      simp only [Ready, Bool.and_eq_true, decide_eq_true_eq, holds.userPages,
        chain_createUsersTable layout next, List.length_singleton, size]
      exact ⟨by decide, small⟩
    have created := holds.createUser ready
    rw [started] at created
    exact created

/-- Every run of calls after the set-up: it returns, and the users are the accounts of the map
that the calls that returned true make of the administrator's account. -/
theorem authManager_refines_map (fields : Fields qt) (db : Database V) (layout : Layout db)
    (new : db.getTable USERS_TABLE = none) (passwordHash : Identifier) (now : UInt64)
    (small : userSize fields (newUser fields ADMIN passwordHash now true db) < 2 ^ 16)
    (started : (initializeUserSystem fields passwordHash now db).1 = true) (calls : List Call)
    (ready : Run.Meets (step fields) (fun db call => Ready fields db call = true)
      (initializeUserSystem fields passwordHash now db).2 calls) :
    ∃ answers db', Run.run (step fields) (initializeUserSystem fields passwordHash now db).2 calls =
        some (answers, db') ∧
      Agrees fields db' (Run.follow Call.answered
        (Function.update (fun _ => none) ADMIN (some ⟨passwordHash, true, true⟩)) calls answers) := by
  obtain ⟨answers, db', returned, table, users, holds, same⟩ := Run.run_follows (R := Represents fields)
    (fun _ _ call represents ready => represents_step represents call ready) calls _ _
    (represents_initializeUserSystem fields layout new small started) ready
  refine ⟨answers, db', returned, ?_⟩
  rw [same]
  exact holds.agrees

end Calls

/-! ## Runs -/

namespace Literals

/-- A new database with eight free pages. -/
def emptyDatabase : Database Value := .create [1, 2, 3, 4, 5, 6, 7, 8]

theorem emptyDatabase_layout : Layout emptyDatabase :=
  (create_sound _ (by decide) (by decide)).toLayout

/-- Two accounts beside the administrator. -/
def twoUsers : List Call :=
  [.createUser ['a'] ['x'] 1 false, .createUser ['b'] ['y'] 2 false]

/-- Two accounts are created; one gets another password, one is closed and then dropped. -/
theorem authManager_refines_map_two : ∃ answers db',
    Run.run (step fields) (initializeUserSystem fields ['h'] 0 emptyDatabase).2
        (twoUsers ++ [.alterUserPassword ['a'] ['z'] 3, .setUserActive ['b'] false 4,
          .dropUser ['b']]) = some (answers, db') ∧
      Agrees fields db' (Run.follow Call.answered
        (Function.update (fun _ => none) ADMIN (some ⟨['h'], true, true⟩))
        (twoUsers ++ [.alterUserPassword ['a'] ['z'] 3, .setUserActive ['b'] false 4,
          .dropUser ['b']]) answers) :=
  authManager_refines_map fields emptyDatabase emptyDatabase_layout (by decide) ['h'] 0
    (by decide +kernel) (by decide +kernel) _ (by decide +kernel)

/-- Two accounts are created and both are dropped, with success; the second is still there. A
longer password hash is accepted, and the old one stays. -/
theorem dropUser_misses_record :
    (∃ answers db', Run.run (step fields) (initializeUserSystem fields ['h'] 0 emptyDatabase).2
        (twoUsers ++ [.dropUser ['a'], .dropUser ['b']]) = some (answers, db') ∧
      answers = [true, true, true, true] ∧ userExists fields db' ['b'] = true ∧
      ¬ Agrees fields db' (Run.follow Call.answered
        (Function.update (fun _ => none) ADMIN (some ⟨['h'], true, true⟩))
        (twoUsers ++ [.dropUser ['a'], .dropUser ['b']]) answers)) ∧
    (∃ answers db', Run.run (step fields) (initializeUserSystem fields ['h'] 0 emptyDatabase).2
        [.alterUserPassword ADMIN ['l', 'o', 'n', 'g'] 1] = some (answers, db') ∧
      answers = [true] ∧
      (getUserFromDatabase fields db' ADMIN).map UserRecord.passwordHash = some ['h']) := by
  refine ⟨⟨_, _, rfl, by decide +kernel, by decide +kernel, fun agrees => ?_⟩,
    ⟨_, _, rfl, by decide +kernel, by decide +kernel⟩⟩
  exact absurd (agrees.userExists ['b']) (by decide +kernel)

end Literals

end QinDB.Auth
